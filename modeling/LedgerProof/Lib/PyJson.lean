import LedgerProof.Lib.JsonText

/-!
# JSON text of any Python value

`json.dumps` and `json.loads` on all values that have a JSON text: with floats, and with text that
may hold lone surrogates.  `PyValue` is such a value, `Doc` the text that is written for one, as a
tree with the numbers and strings spelled out in its leaves, and `Token` a leaf or a mark between
them.  Different documents may have one value: a reader also takes spellings that `dumps` does not
write.

A float is its 64 bits.  `repr` spells a finite one as a number, and `read` makes one of a number
with a fraction or an exponent, both as Python does.  `loads` is the reader of `JsonText` otherwise
(`PyJsonAgree`), and here too the depth of a document is not bounded.
-/

namespace LedgerProof

/-- Text as its code points, which may be lone surrogates. -/
abbrev PyStr := List ℕ

/-- A text of the source. -/
def pyStr (s : String) : PyStr := s.toList.map (·.toNat)

lemma pyStr_injective : Function.Injective pyStr := by
  intro s s' h
  have hchars : Function.Injective Char.toNat := fun _ _ hc => Char.toNat_inj.mp hc
  exact String.toList_injective (List.map_injective_iff.mpr hchars h)

/-- What `json.loads` can return.  A float is its 64 bits. -/
inductive PyValue
  | none
  | bool (b : Bool)
  | int (n : ℤ)
  | float (bits : BitVec 64)
  | str (s : PyStr)
  | list (items : List PyValue)
  | dict (fields : List (PyStr × PyValue))

mutual

/-- A value of `Json` as Python has it. -/
def Json.toPy : Json → PyValue
  | .null => .none
  | .bool b => .bool b
  | .int n => .int n
  | .str s => .str (pyStr s)
  | .arr items => .list (Json.toPyItems items)
  | .obj fields => .dict (Json.toPyFields fields)
termination_by structural j => j

/-- The items of an array. -/
def Json.toPyItems : List Json → List PyValue
  | [] => []
  | j :: js => j.toPy :: Json.toPyItems js
termination_by structural js => js

/-- A key and its value. -/
def Json.toPyField : String × Json → PyStr × PyValue
  | (key, value) => (pyStr key, value.toPy)
termination_by structural f => f

/-- The fields of an object. -/
def Json.toPyFields : List (String × Json) → List (PyStr × PyValue)
  | [] => []
  | f :: fs => Json.toPyField f :: Json.toPyFields fs
termination_by structural fs => fs

end

lemma Json.toPyFields_eq_map (fs : List (String × Json)) :
    Json.toPyFields fs = fs.map Json.toPyField := by
  induction fs with
  | nil => rfl
  | cons f fs ih => rw [Json.toPyFields, ih, List.map_cons]

lemma Json.keys_toPyFields (fs : List (String × Json)) :
    (Json.toPyFields fs).map Prod.fst = (fs.map Prod.fst).map pyStr := by
  rw [Json.toPyFields_eq_map, List.map_map, List.map_map]
  exact List.map_congr_left fun ⟨_, _⟩ _ => rfl

namespace PyJson

/-! ## Spellings -/

/-- A piece of a string. -/
inductive Piece
  /-- A character that stands for itself. -/
  | plain (n : ℕ)
  /-- A character with an escape of its own, as it is written and as it is read. -/
  | short (e : Char × Char)
  /-- A code unit, in hexadecimal digits. -/
  | unit (n : ℕ)
  deriving DecidableEq, Repr

/-- How a piece is written. -/
def Piece.text : Piece → List Char
  | .plain n => [Char.ofNat n]
  | .short e => ['\\', e.1]
  | .unit n => unicodeEscape n

/-- The code unit of a piece. -/
def Piece.code : Piece → ℕ
  | .plain n => n
  | .short e => e.2.toNat
  | .unit n => n

/-- The piece can be read. -/
def Piece.Ok : Piece → Prop
  | .plain n => 0x20 ≤ n ∧ n ≤ 0x7e ∧ n ≠ 0x22 ∧ n ≠ 0x5c
  | .short e => e ∈ shortEscapes
  | .unit n => n < 0x10000

/-- A number: its sign, the digits before and after the point, and an exponent with what marks
it. -/
structure Number where
  neg : Bool
  int : List Char
  frac : List Char
  mark : List Char
  exp : List Char
  deriving DecidableEq, Repr

namespace Number

/-- How a number is written, without the sign. -/
def unsigned (t : Number) : List Char :=
  t.int ++ ((if t.frac = [] then [] else '.' :: t.frac) ++ (t.mark ++ t.exp))

/-- How a number is written. -/
def text (t : Number) : List Char := (if t.neg then ['-'] else []) ++ t.unsigned

/-- A fraction or an exponent makes it a float. -/
def isFloat (t : Number) : Bool := t.frac ≠ [] || t.exp ≠ []

/-- What may stand before an exponent. -/
def marks : List (List Char) := [['e', '+'], ['e', '-'], ['E', '+'], ['E', '-'], ['e'], ['E']]

/-- The parts are what they should be, but that the number may start with zeros. -/
structure Shaped (t : Number) : Prop where
  int_ne_nil : t.int ≠ []
  int : ∀ c ∈ t.int, isDigit c = true
  frac : ∀ c ∈ t.frac, isDigit c = true
  exp : ∀ c ∈ t.exp, isDigit c = true
  mark : (t.mark = [] ∧ t.exp = []) ∨ (t.mark ∈ marks ∧ t.exp ≠ [])

/-- No zero stands before other digits of the integer part. -/
def Unpadded (t : Number) : Prop := t.int.head? = some '0' → t.int = ['0']

/-- The integer that a number without a fraction stands for. -/
def toInt (t : Number) : ℤ := if t.neg then -(decimalValueOf t.int : ℤ) else decimalValueOf t.int

/-- `int` refuses more than 4300 digits. -/
def Short (t : Number) : Prop := t.isFloat = false → t.int.length ≤ maxStrDigits

end Number

/-- A word that stands for a value. -/
inductive Const
  | null
  | true
  | false
  | nan
  | infinity
  | negInfinity
  deriving DecidableEq, Repr

/-- How a constant is written. -/
def Const.text : Const → List Char
  | .null => "null".toList
  | .true => "true".toList
  | .false => "false".toList
  | .nan => "NaN".toList
  | .infinity => "Infinity".toList
  | .negInfinity => "-Infinity".toList

/-- The value of a constant. -/
def Const.value : Const → PyValue
  | .null => .none
  | .true => .bool Bool.true
  | .false => .bool Bool.false
  | .nan => .float 0x7ff8000000000000#64
  | .infinity => .float 0x7ff0000000000000#64
  | .negInfinity => .float 0xfff0000000000000#64

/-! ## Documents -/

/-- A JSON text as a tree. -/
inductive Doc
  | const (c : Const)
  | number (t : Number)
  | str (pieces : List Piece)
  | list (items : List Doc)
  | dict (fields : List (List Piece × Doc))

/-- A leaf of a document, or a mark. -/
inductive Token
  | mark (text : List Char)
  | number (t : Number)
  | str (pieces : List Piece)
  deriving DecidableEq, Repr

/-- A string, without the quote that opens it. -/
def closed (pieces : List Piece) : List Char := pieces.flatMap Piece.text ++ ['"']

/-- How a token is written. -/
def Token.text : Token → List Char
  | .mark text => text
  | .number t => t.text
  | .str pieces => '"' :: closed pieces

/-- How tokens are written. -/
def textOf (ts : List Token) : List Char := ts.flatMap Token.text

@[simp] lemma textOf_nil : textOf [] = [] := rfl

@[simp] lemma textOf_cons (t : Token) (ts : List Token) :
    textOf (t :: ts) = t.text ++ textOf ts := List.flatMap_cons

@[simp] lemma textOf_append (ts ts' : List Token) : textOf (ts ++ ts') = textOf ts ++ textOf ts' :=
  List.flatMap_append

/-- The blanks after a comma or a colon. -/
def blanks (sp : ℕ) : List Char := List.replicate sp ' '

section

variable (sp : ℕ)

mutual

/-- The tokens of a document. -/
def Doc.tokens : Doc → List Token
  | .const c => [.mark c.text]
  | .number t => [.number t]
  | .str pieces => [.str pieces]
  | .list [] => [.mark ['['], .mark [']']]
  | .list (d :: ds) => .mark ['['] :: (d.tokens ++ (Doc.moreItems ds ++ [.mark [']']]))
  | .dict [] => [.mark ['{'], .mark ['}']]
  | .dict (f :: fs) => .mark ['{'] :: (Doc.fieldTokens f ++ (Doc.moreFields fs ++ [.mark ['}']]))
termination_by structural d => d

/-- The items after the first one. -/
def Doc.moreItems : List Doc → List Token
  | [] => []
  | d :: ds => .mark (',' :: blanks sp) :: (d.tokens ++ Doc.moreItems ds)
termination_by structural ds => ds

/-- A key and its value. -/
def Doc.fieldTokens : List Piece × Doc → List Token
  | (key, d) => .str key :: .mark (':' :: blanks sp) :: d.tokens
termination_by structural f => f

/-- The fields after the first one. -/
def Doc.moreFields : List (List Piece × Doc) → List Token
  | [] => []
  | f :: fs => .mark (',' :: blanks sp) :: (Doc.fieldTokens f ++ Doc.moreFields fs)
termination_by structural fs => fs

end

/-- The text of a document. -/
def Doc.text (d : Doc) : List Char := textOf (d.tokens sp)

end

/-! ## Writing -/

/-- The pieces of a code point: two of them beyond the basic plane. -/
def piecesOf (n : ℕ) : List Piece :=
  match shortEscapes.find? (·.2.toNat = n) with
  | some e => [.short e]
  | none =>
      if 0x20 ≤ n ∧ n ≤ 0x7e then [.plain n]
      else if n < 0x10000 then [.unit n]
      else [.unit (0xd800 + (n - 0x10000) / 0x400), .unit (0xdc00 + (n - 0x10000) % 0x400)]

/-- The number of an integer. -/
def numberOf (n : ℤ) : Number := ⟨n < 0, natDecimal n.natAbs, [], [], []⟩

/-- The exponent of a float is not that of the infinities. -/
def isFinite (bits : BitVec 64) : Bool := bits.extractLsb' 52 11 ≠ 0x7ff#11

section

variable (repr : BitVec 64 → Number)

/-- A float. -/
def docOfFloat (bits : BitVec 64) : Doc :=
  if isFinite bits then .number (repr bits)
  else if bits.extractLsb' 0 52 ≠ 0 then .const .nan
  else if bits.msb then .const .negInfinity
  else .const .infinity

mutual

/-- The document that is written for a value. -/
def docOf : PyValue → Doc
  | .none => .const .null
  | .bool b => .const (if b then .true else .false)
  | .int n => .number (numberOf n)
  | .float bits => docOfFloat repr bits
  | .str s => .str (s.flatMap piecesOf)
  | .list items => .list (docsOf items)
  | .dict fields => .dict (fieldsOf fields)
termination_by structural v => v

/-- The items of a list. -/
def docsOf : List PyValue → List Doc
  | [] => []
  | v :: vs => docOf v :: docsOf vs
termination_by structural vs => vs

/-- A key and its value. -/
def fieldOf : PyStr × PyValue → List Piece × Doc
  | (key, v) => (key.flatMap piecesOf, docOf v)
termination_by structural f => f

/-- The fields of a dictionary. -/
def fieldsOf : List (PyStr × PyValue) → List (List Piece × Doc)
  | [] => []
  | f :: fs => fieldOf f :: fieldsOf fs
termination_by structural fs => fs

end

/-- `json.dumps(v)`, with the blanks that the separators have. -/
def dumps (sp : ℕ) (v : PyValue) : List Char := (docOf repr v).text sp

end

/-! ## Reading -/

/-- Four hexadecimal digits. -/
def scanHex4 (cs : List Char) : Option (ℕ × List Char) := (scanHex cs).toOption

/-- What stands after `\u`: one code unit, or two that are a surrogate pair. -/
def scanUnit (cs : List Char) : Option (ℕ × List Char) :=
  match scanHex4 cs with
  | none => none
  | some (n, rest) =>
      if 0xd800 ≤ n ∧ n < 0xdc00 then
        match rest with
        | '\\' :: 'u' :: rest' =>
            match scanHex4 rest' with
            | none => none
            | some (m, rest'') =>
                if 0xdc00 ≤ m ∧ m < 0xe000 then
                  some (0x10000 + (n - 0xd800) * 0x400 + (m - 0xdc00), rest'')
                else some (n, rest)
        | _ => some (n, rest)
      else some (n, rest)

/-- What stands after a backslash. -/
def scanEscaped : List Char → Option (ℕ × List Char)
  | 'u' :: rest => scanUnit rest
  | '/' :: rest => some ('/'.toNat, rest)
  | c :: rest => (shortEscapes.find? (·.1 = c)).map fun e => (e.2.toNat, rest)
  | [] => none

/-- `scanstring`, after the quote that opens the string. -/
def scanString : ℕ → List Char → Option (PyStr × List Char)
  | 0, _ => none
  | fuel + 1, cs =>
      match cs with
      | [] => none
      | '"' :: rest => some ([], rest)
      | '\\' :: rest => do
          let (n, rest) ← scanEscaped rest
          let (s, rest) ← scanString fuel rest
          return (n :: s, rest)
      | c :: rest =>
          if c.toNat < 0x20 then none
          else do
            let (s, rest) ← scanString fuel rest
            return (c.toNat :: s, rest)

/-- The digits after a point, if there are any. -/
def scanFraction : List Char → List Char × List Char
  | '.' :: cs => if cs.takeWhile isDigit = [] then ([], '.' :: cs)
      else (cs.takeWhile isDigit, cs.dropWhile isDigit)
  | cs => ([], cs)

/-- The mark of an exponent. -/
def scanMark : List Char → List Char × List Char
  | 'e' :: '+' :: cs => (['e', '+'], cs)
  | 'e' :: '-' :: cs => (['e', '-'], cs)
  | 'E' :: '+' :: cs => (['E', '+'], cs)
  | 'E' :: '-' :: cs => (['E', '-'], cs)
  | 'e' :: cs => (['e'], cs)
  | 'E' :: cs => (['E'], cs)
  | cs => ([], cs)

/-- An exponent, if there is one. -/
def scanExponent (cs : List Char) : List Char × List Char × List Char :=
  match scanMark cs with
  | ([], _) => ([], [], cs)
  | (mark, rest) =>
      if rest.takeWhile isDigit = [] then ([], [], cs)
      else (mark, rest.takeWhile isDigit, rest.dropWhile isDigit)

/-- A number with its sign taken off. -/
def scanUnsigned (neg : Bool) (cs : List Char) : Option (Number × List Char) :=
  match scanDigits cs with
  | .error _ => none
  | .ok (int, cs) =>
      let (frac, cs) := scanFraction cs
      let (mark, exp, cs) := scanExponent cs
      some (⟨neg, int, frac, mark, exp⟩, cs)

section

variable (read : Number → BitVec 64)

/-- The value of a number. -/
def Number.value (t : Number) : PyValue := if t.isFloat then .float (read t) else .int t.toInt

/-- `float(text)` or `int(text)`. -/
def Number.convert (t : Number) : Option PyValue :=
  if t.isFloat then some (.float (read t))
  else if t.int.length ≤ maxStrDigits then some (.int t.toInt)
  else none

/-- A number, or one of the constants. -/
def scanAtom : List Char → Option (PyValue × List Char)
  | 'n' :: 'u' :: 'l' :: 'l' :: rest => some (Const.null.value, rest)
  | 't' :: 'r' :: 'u' :: 'e' :: rest => some (Const.true.value, rest)
  | 'f' :: 'a' :: 'l' :: 's' :: 'e' :: rest => some (Const.false.value, rest)
  | 'N' :: 'a' :: 'N' :: rest => some (Const.nan.value, rest)
  | 'I' :: 'n' :: 'f' :: 'i' :: 'n' :: 'i' :: 't' :: 'y' :: rest =>
      some (Const.infinity.value, rest)
  | '-' :: 'I' :: 'n' :: 'f' :: 'i' :: 'n' :: 'i' :: 't' :: 'y' :: rest =>
      some (Const.negInfinity.value, rest)
  | '-' :: rest => do
      let (t, rest) ← scanUnsigned true rest
      let v ← t.convert read
      return (v, rest)
  | cs => do
      let (t, rest) ← scanUnsigned false cs
      let v ← t.convert read
      return (v, rest)

/-- `dict(pairs)`. -/
def pyDict (pairs : List (PyStr × PyValue)) : List (PyStr × PyValue) :=
  (pairs.foldl (fun d p => d.set p.1 p.2) (Dict.empty : Dict PyStr PyValue)).items

mutual

/-- `scan_once`. -/
def scanValue : ℕ → List Char → Option (PyValue × List Char)
  | 0, _ => none
  | fuel + 1, cs =>
      match cs with
      | '"' :: rest => do
          let (s, rest) ← scanString rest.length rest
          return (.str s, rest)
      | '[' :: rest =>
          match skipSpace rest with
          | ']' :: rest => some (.list [], rest)
          | rest => do
              let (items, rest) ← scanItems fuel rest
              return (.list items, rest)
      | '{' :: rest =>
          match skipSpace rest with
          | '}' :: rest => some (.dict [], rest)
          | rest => do
              let (pairs, rest) ← scanFields fuel rest
              return (.dict (pyDict pairs), rest)
      | cs => scanAtom read cs
termination_by structural fuel => fuel

/-- `JSONArray`: a value, and more of them after a comma. -/
def scanItems : ℕ → List Char → Option (List PyValue × List Char)
  | 0, _ => none
  | fuel + 1, cs => do
      let (v, rest) ← scanValue fuel cs
      match skipSpace rest with
      | ']' :: rest => return ([v], rest)
      | ',' :: rest =>
          let (vs, rest) ← scanItems fuel (skipSpace rest)
          return (v :: vs, rest)
      | _ => none
termination_by structural fuel => fuel

/-- `JSONObject`: a key, a colon and a value, and more of them after a comma. -/
def scanFields : ℕ → List Char → Option (List (PyStr × PyValue) × List Char)
  | 0, _ => none
  | fuel + 1, cs =>
      match cs with
      | '"' :: rest => do
          let (key, rest) ← scanString rest.length rest
          match skipSpace rest with
          | ':' :: rest =>
              let (value, rest) ← scanValue fuel (skipSpace rest)
              match skipSpace rest with
              | '}' :: rest => return ([(key, value)], rest)
              | ',' :: rest =>
                  let (pairs, rest) ← scanFields fuel (skipSpace rest)
                  return ((key, value) :: pairs, rest)
              | _ => none
          | _ => none
      | _ => none
termination_by structural fuel => fuel

end

/-- `json.loads` of a text. -/
def loadsText (cs : List Char) : Option PyValue :=
  match scanValue read (cs.length + 1) (skipSpace cs) with
  | some (v, rest) => if skipSpace rest = [] then some v else none
  | none => none

/-- `json.loads` of a body in UTF-8. -/
def loads (raw : List UInt8) : Option PyValue :=
  match decodeBody raw with
  | .ok cs => loadsText read cs
  | .error _ => none

end

end PyJson

end LedgerProof
