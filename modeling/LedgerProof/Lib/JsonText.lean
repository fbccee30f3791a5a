import LedgerProof.Lib.Dict
import LedgerProof.Lib.Python
import LedgerProof.Lib.Text

/-!
# JSON text

`json.dumps(x, separators=(",", ":"))` and `json.loads` on the values of `Json`.

`dumps` writes ASCII: a character outside the printable range is a `\u` escape, one beyond the basic
plane a pair of them.  `loads` reads bytes as Python does: it guesses the encoding, skips white
space between tokens, takes the last value of a repeated key, refuses control characters in strings
and integers of more than 4300 digits.  Of what it accepts, floating-point numbers, lone surrogates
and the encodings other than UTF-8 have no place in `Json`, and the answer is
`LoadsError.notModelled`.  The interpreter's recursion limit is not there either: the depth of a
document is not bounded.  `PyJson` has the other values, and reads the same where this reader has an
answer (`PyJsonAgree`).

The reader runs on fuel, and as much as there are characters is enough for any document.  What
`dumps` wrote is read back (`loads_dumps`), for documents that are dictionaries of Python all the
way down (`Json.Canonical`), and `Json.Brief.fits` bounds its size.
-/

namespace LedgerProof

/-! ## Writing -/

/-- `'\\u{0:04x}'.format(n)`. -/
def unicodeEscape (n : ℕ) : List Char :=
  ['\\', 'u', Nat.digitChar (n / 4096 % 16), Nat.digitChar (n / 256 % 16),
    Nat.digitChar (n / 16 % 16), Nat.digitChar (n % 16)]

/-- The characters with an escape of their own, as they are written after the backslash. -/
def shortEscapes : List (Char × Char) :=
  [('"', '"'), ('\\', '\\'), ('n', '\n'), ('r', '\r'), ('t', '\t'), ('f', '\x0c'), ('b', '\x08')]

/-- One character of a string. -/
def escapeChar (c : Char) : List Char :=
  match shortEscapes.find? (·.2 = c) with
  | some e => ['\\', e.1]
  | none =>
      if 0x20 ≤ c.toNat ∧ c.toNat ≤ 0x7e then [c]
      else if c.toNat < 0x10000 then unicodeEscape c.toNat
      else unicodeEscape (0xd800 + (c.toNat - 0x10000) / 0x400) ++
        unicodeEscape (0xdc00 + (c.toNat - 0x10000) % 0x400)

/-- A string, without the quote that opens it. -/
def quoted (s : String) : List Char := s.toList.flatMap escapeChar ++ ['"']

mutual

/-- `json.dumps(j, separators=(",", ":"))`. -/
def Json.dumps : Json → List Char
  | .null => "null".toList
  | .bool b => if b then "true".toList else "false".toList
  | .int n => decimal n
  | .str s => '"' :: quoted s
  | .arr items => '[' :: (Json.dumpsItems items ++ [']'])
  | .obj fields => '{' :: (Json.dumpsFields fields ++ ['}'])
termination_by structural j => j

/-- The items of an array, with commas between them. -/
def Json.dumpsItems : List Json → List Char
  | [] => []
  | j :: js => j.dumps ++ if js.isEmpty then [] else ',' :: Json.dumpsItems js
termination_by structural js => js

/-- A key and its value. -/
def Json.dumpsField : String × Json → List Char
  | (key, value) => '"' :: (quoted key ++ ':' :: value.dumps)
termination_by structural f => f

/-- The fields of an object, with commas between them. -/
def Json.dumpsFields : List (String × Json) → List Char
  | [] => []
  | f :: fs => Json.dumpsField f ++ if fs.isEmpty then [] else ',' :: Json.dumpsFields fs
termination_by structural fs => fs

end

lemma Json.dumpsItems_cons_cons (j j' : Json) (js : List Json) :
    Json.dumpsItems (j :: j' :: js) = j.dumps ++ ',' :: Json.dumpsItems (j' :: js) := rfl

lemma Json.dumpsFields_singleton (f : String × Json) : Json.dumpsFields [f] = Json.dumpsField f :=
  List.append_nil _

lemma Json.dumpsFields_cons_cons (f f' : String × Json) (fs : List (String × Json)) :
    Json.dumpsFields (f :: f' :: fs) = Json.dumpsField f ++ ',' :: Json.dumpsFields (f' :: fs) :=
      rfl

lemma Json.dumpsField_append (f : String × Json) (rest : List Char) :
    Json.dumpsField f ++ rest = '"' :: (quoted f.1 ++ ':' :: (f.2.dumps ++ rest)) := by
  rcases f with ⟨key, value⟩
  simp [Json.dumpsField]

/-! ## Reading -/

/-- Why there is no value. -/
inductive LoadsError
  /-- A `ValueError`. -/
  | invalid
  /-- Python has a value, and `Json` does not. -/
  | notModelled
  deriving DecidableEq, Repr

/-- White space between tokens. -/
def skipSpace (cs : List Char) : List Char := cs.dropWhile (· ∈ [' ', '\t', '\n', '\r'])

/-- The value of a hexadecimal digit. -/
def hexValue (c : Char) : Option ℕ :=
  if 48 ≤ c.toNat ∧ c.toNat ≤ 57 then some (c.toNat - 48)
  else if 97 ≤ c.toNat ∧ c.toNat ≤ 102 then some (c.toNat - 87)
  else if 65 ≤ c.toNat ∧ c.toNat ≤ 70 then some (c.toNat - 55)
  else none

/-- `_decode_uXXXX`. -/
def scanHex : List Char → Except LoadsError (ℕ × List Char)
  | a :: b :: c :: d :: rest =>
      match hexValue a, hexValue b, hexValue c, hexValue d with
      | some a, some b, some c, some d => .ok (((a * 16 + b) * 16 + c) * 16 + d, rest)
      | _, _, _, _ => .error .invalid
  | _ => .error .invalid

/-- What stands after `\u`: one code unit, or two that are a surrogate pair. -/
def scanUnicode (cs : List Char) : Except LoadsError (Char × List Char) := do
  let (n, rest) ← scanHex cs
  if 0xd800 ≤ n ∧ n < 0xdc00 then
    match rest with
    | '\\' :: 'u' :: rest =>
        let (m, rest) ← scanHex rest
        if 0xdc00 ≤ m ∧ m < 0xe000 then
          return (Char.ofNat (0x10000 + (n - 0xd800) * 0x400 + (m - 0xdc00)), rest)
        else throw .notModelled
    | _ => throw .notModelled
  else if 0xdc00 ≤ n ∧ n < 0xe000 then throw .notModelled
  else return (Char.ofNat n, rest)

/-- What stands after a backslash. -/
def scanEscape : List Char → Except LoadsError (Char × List Char)
  | 'u' :: rest => scanUnicode rest
  | '/' :: rest => .ok ('/', rest)
  | c :: rest =>
      match shortEscapes.find? (·.1 = c) with
      | some e => .ok (e.2, rest)
      | none => .error .invalid
  | [] => .error .invalid

/-- `scanstring`, after the quote that opens the string. -/
def scanString : ℕ → List Char → Except LoadsError (List Char × List Char)
  | 0, _ => .error .invalid
  | fuel + 1, cs =>
      match cs with
      | [] => .error .invalid
      | '"' :: rest => .ok ([], rest)
      | '\\' :: rest => do
          let (c, rest) ← scanEscape rest
          let (s, rest) ← scanString fuel rest
          return (c :: s, rest)
      | c :: rest =>
          if c.toNat < 0x20 then .error .invalid
          else do
            let (s, rest) ← scanString fuel rest
            return (c :: s, rest)

/-- A decimal digit. -/
def isDigit (c : Char) : Bool := 48 ≤ c.toNat && c.toNat < 58

/-- A fraction or an exponent follows, so that the number is a float. -/
def isFloatTail : List Char → Bool
  | '.' :: c :: _ => isDigit c
  | 'e' :: '+' :: c :: _ | 'e' :: '-' :: c :: _ | 'E' :: '+' :: c :: _ | 'E' :: '-' :: c :: _ =>
      isDigit c
  | 'e' :: c :: _ | 'E' :: c :: _ => isDigit c
  | _ => false

/-- The digits of an integer: a zero, or digits that do not start with one. -/
def scanDigits : List Char → Except LoadsError (List Char × List Char)
  | '0' :: rest => .ok (['0'], rest)
  | cs =>
      if cs.takeWhile isDigit = [] then .error .invalid
      else .ok (cs.takeWhile isDigit, cs.dropWhile isDigit)

/-- A number with its sign taken off. -/
def scanMagnitude (cs : List Char) : Except LoadsError (ℕ × List Char) := do
  let (digits, rest) ← scanDigits cs
  if isFloatTail rest then throw .notModelled
  if maxStrDigits < digits.length then throw .invalid
  return (decimalValueOf digits, rest)

/-- A number, or one of the constants. -/
def scanAtom (cs : List Char) : Except LoadsError (Json × List Char) :=
  match cs with
  | 'n' :: 'u' :: 'l' :: 'l' :: rest => .ok (.null, rest)
  | 't' :: 'r' :: 'u' :: 'e' :: rest => .ok (.bool true, rest)
  | 'f' :: 'a' :: 'l' :: 's' :: 'e' :: rest => .ok (.bool false, rest)
  | 'N' :: 'a' :: 'N' :: _ => .error .notModelled
  | 'I' :: 'n' :: 'f' :: 'i' :: 'n' :: 'i' :: 't' :: 'y' :: _ => .error .notModelled
  | '-' :: 'I' :: 'n' :: 'f' :: 'i' :: 'n' :: 'i' :: 't' :: 'y' :: _ => .error .notModelled
  | '-' :: rest => do
      let (n, rest) ← scanMagnitude rest
      return (.int (-n), rest)
  | cs => do
      let (n, rest) ← scanMagnitude cs
      return (.int n, rest)

/-- `dict(pairs)`. -/
def dictOfPairs (pairs : List (String × Json)) : Dict String Json :=
  pairs.foldl (fun d p => d.set p.1 p.2) .empty

mutual

/-- `scan_once`. -/
def scanValue : ℕ → List Char → Except LoadsError (Json × List Char)
  | 0, _ => .error .invalid
  | fuel + 1, cs =>
      match cs with
      | '"' :: rest => do
          let (s, rest) ← scanString rest.length rest
          return (.str (String.ofList s), rest)
      | '[' :: rest =>
          match skipSpace rest with
          | ']' :: rest => .ok (.arr [], rest)
          | rest => do
              let (items, rest) ← scanItems fuel rest
              return (.arr items, rest)
      | '{' :: rest =>
          match skipSpace rest with
          | '}' :: rest => .ok (.obj [], rest)
          | rest => do
              let (pairs, rest) ← scanFields fuel rest
              return (.obj (dictOfPairs pairs).items, rest)
      | cs => scanAtom cs
termination_by structural fuel => fuel

/-- `JSONArray`: a value, and more of them after a comma. -/
def scanItems : ℕ → List Char → Except LoadsError (List Json × List Char)
  | 0, _ => .error .invalid
  | fuel + 1, cs => do
      let (j, rest) ← scanValue fuel cs
      match skipSpace rest with
      | ']' :: rest => return ([j], rest)
      | ',' :: rest =>
          let (js, rest) ← scanItems fuel (skipSpace rest)
          return (j :: js, rest)
      | _ => throw .invalid
termination_by structural fuel => fuel

/-- `JSONObject`: a key, a colon and a value, and more of them after a comma. -/
def scanFields : ℕ → List Char → Except LoadsError (List (String × Json) × List Char)
  | 0, _ => .error .invalid
  | fuel + 1, cs =>
      match cs with
      | '"' :: rest => do
          let (key, rest) ← scanString rest.length rest
          match skipSpace rest with
          | ':' :: rest =>
              let (value, rest) ← scanValue fuel (skipSpace rest)
              match skipSpace rest with
              | '}' :: rest => return ([(String.ofList key, value)], rest)
              | ',' :: rest =>
                  let (pairs, rest) ← scanFields fuel (skipSpace rest)
                  return ((String.ofList key, value) :: pairs, rest)
              | _ => throw .invalid
          | _ => throw .invalid
      | _ => .error .invalid
termination_by structural fuel => fuel

end

/-- `b.decode(detect_encoding(b), 'surrogatepass')`: a byte-order mark or a zero byte among the
first gives another encoding away. -/
def decodeBody (raw : List UInt8) : Except LoadsError (List Char) :=
  match raw with
  | 0xfe :: 0xff :: _ | 0xff :: 0xfe :: _ => .error .notModelled
  | 0xef :: 0xbb :: 0xbf :: raw => utf8Text raw
  | [a, b] => if a = 0 ∨ b = 0 then .error .notModelled else utf8Text raw
  | a :: b :: _ :: _ :: _ => if a = 0 ∨ b = 0 then .error .notModelled else utf8Text raw
  | raw => utf8Text raw
where
  /-- UTF-8; bytes that encode a lone surrogate are let through by Python. -/
  utf8Text (raw : List UInt8) : Except LoadsError (List Char) :=
    match raw.toByteArray.utf8Decode? with
    | some cs => .ok cs.toList
    | none => .error (if 0xed ∈ raw then .notModelled else .invalid)

/-- `json.loads(raw)`. -/
def loads (raw : List UInt8) : Except LoadsError Json := do
  let text ← decodeBody raw
  let (j, rest) ← scanValue (text.length + 1) (skipSpace text)
  if skipSpace rest = [] then return j else throw .invalid

/-! ## Reading a string back -/

lemma hexValue_digitChar {n : ℕ} (h : n < 16) : hexValue (Nat.digitChar n) = some n := by
  interval_cases n <;> rfl

/-- Four hexadecimal digits are read as the number they were written for. -/
lemma scanHex_digits {n : ℕ} (h : n < 0x10000) (rest : List Char) :
    scanHex (Nat.digitChar (n / 4096 % 16) :: Nat.digitChar (n / 256 % 16) :: Nat.digitChar
      (n / 16 % 16) :: Nat.digitChar (n % 16) :: rest) = .ok (n, rest) := by
  have hdigit : ∀ m, hexValue (Nat.digitChar (m % 16)) = some (m % 16) := fun m =>
    hexValue_digitChar (Nat.mod_lt _ (by norm_num))
  have hvalue : ((n / 4096 % 16 * 16 + n / 256 % 16) * 16 + n / 16 % 16) * 16 + n % 16 = n := by
    omega
  simp only [scanHex, hdigit, hvalue]

lemma char_toNat_lt (c : Char) : c.toNat < 0x110000 ∧ ¬(0xd800 ≤ c.toNat ∧ c.toNat < 0xe000) := by
  have hvalid : c.toNat < 0xd800 ∨ (0xdfff < c.toNat ∧ c.toNat < 0x110000) := c.valid
  omega

/-- An escape of code units is read as the character they stand for. -/
lemma scanUnicode_bmp {c : Char} (h : c.toNat < 0x10000) (rest : List Char) :
    scanUnicode ((unicodeEscape c.toNat).drop 2 ++ rest) = .ok (c, rest) := by
  obtain ⟨-, hsurrogate⟩ := char_toNat_lt c
  have hhigh : ¬(0xd800 ≤ c.toNat ∧ c.toNat < 0xdc00) := by omega
  have hlow : ¬(0xdc00 ≤ c.toNat ∧ c.toNat < 0xe000) := by omega
  simp only [scanUnicode, unicodeEscape, List.drop_succ_cons, List.drop_zero, List.cons_append,
    List.nil_append, scanHex_digits h, except_ok_bind, if_neg hhigh, if_neg hlow, Char.ofNat_toNat]
  rfl

lemma scanUnicode_of_pair {n m : ℕ} {cs cs' rest : List Char}
    (hn : scanHex cs = .ok (n, '\\' :: 'u' :: cs')) (hm : scanHex cs' = .ok (m, rest))
    (hhigh : 0xd800 ≤ n ∧ n < 0xdc00) (hlow : 0xdc00 ≤ m ∧ m < 0xe000) :
    scanUnicode cs = .ok (Char.ofNat (0x10000 + (n - 0xd800) * 0x400 + (m - 0xdc00)), rest) := by
  simp only [scanUnicode, hn, hm, except_ok_bind, if_pos hhigh, if_pos hlow]
  rfl

lemma scanUnicode_pair {c : Char} (h : 0x10000 ≤ c.toNat) (rest : List Char) :
    scanUnicode ((unicodeEscape (0xd800 + (c.toNat - 0x10000) / 0x400)).drop 2 ++
      (unicodeEscape (0xdc00 + (c.toNat - 0x10000) % 0x400) ++ rest)) = .ok (c, rest) := by
  obtain ⟨hlt, -⟩ := char_toNat_lt c
  generalize hn : 0xd800 + (c.toNat - 0x10000) / 0x400 = n
  generalize hm : 0xdc00 + (c.toNat - 0x10000) % 0x400 = m
  have hchar : 0x10000 + (n - 0xd800) * 0x400 + (m - 0xdc00) = c.toNat := by omega
  have hpair := scanUnicode_of_pair
    (scanHex_digits (show n < 0x10000 by omega) (unicodeEscape m ++ rest))
    (scanHex_digits (show m < 0x10000 by omega) rest) (by omega) (by omega)
  rw [hchar, Char.ofNat_toNat] at hpair
  exact hpair

/-- **One character is read back.** -/
lemma scanString_escapeChar (fuel : ℕ) (c : Char) (rest : List Char) :
    scanString (fuel + 1) (escapeChar c ++ rest) =
      scanString fuel rest >>= fun r => .ok (c :: r.1, r.2) := by
  unfold escapeChar
  cases hfind : shortEscapes.find? (·.2 = c) with
  | some e =>
      obtain rfl : e.2 = c := by simpa using List.find?_some hfind
      have hmem := List.mem_of_find?_eq_some hfind
      simp only [shortEscapes, List.mem_cons, List.not_mem_nil, or_false] at hmem
      rcases hmem with rfl | rfl | rfl | rfl | rfl | rfl | rfl <;> rfl
  | none =>
      have hshort : c ≠ '"' ∧ c ≠ '\\' := by
        rw [List.find?_eq_none] at hfind
        constructor
        · rintro rfl
          exact hfind ('"', '"') (by decide) (by decide)
        · rintro rfl
          exact hfind ('\\', '\\') (by decide) (by decide)
      dsimp only
      split_ifs with hplain hbmp
      · have hctrl : ¬c.toNat < 0x20 := by omega
        rw [List.singleton_append, scanString, if_neg hctrl]
        · rfl
        · exact hshort.1
        · exact hshort.2
      · show (scanUnicode ((unicodeEscape c.toNat).drop 2 ++ rest) >>= _) = _
        rw [scanUnicode_bmp hbmp]
        rfl
      · rw [List.append_assoc]
        show (scanUnicode ((unicodeEscape _).drop 2 ++ (unicodeEscape _ ++ rest)) >>= _) = _
        rw [scanUnicode_pair (by omega)]
        rfl

lemma scanString_quoted (s : String) (rest : List Char) {fuel : ℕ} (h : s.toList.length < fuel) :
    scanString fuel (quoted s ++ rest) = .ok (s.toList, rest) := by
  rw [quoted, List.append_assoc]
  generalize s.toList = cs at h ⊢
  induction cs generalizing fuel with
  | nil =>
      obtain ⟨fuel, rfl⟩ := Nat.exists_eq_succ_of_ne_zero (by omega : fuel ≠ 0)
      rfl
  | cons c cs ih =>
      obtain ⟨fuel, rfl⟩ := Nat.exists_eq_succ_of_ne_zero (by omega : fuel ≠ 0)
      rw [List.flatMap_cons, List.append_assoc, scanString_escapeChar,
        ih (by simpa using h)]
      rfl

lemma length_le_flatMap_escapeChar (cs : List Char) :
    cs.length ≤ (cs.flatMap escapeChar).length := by
  induction cs with
  | nil => simp
  | cons c cs ih =>
      have hpos : 0 < (escapeChar c).length := by
        unfold escapeChar
        split
        · simp
        · split_ifs <;> simp [unicodeEscape]
      rw [List.flatMap_cons, List.length_append, List.length_cons]
      omega

lemma scanString_length (s : String) (rest : List Char) :
    scanString (quoted s ++ rest).length (quoted s ++ rest) = .ok (s.toList, rest) := by
  refine scanString_quoted s rest ?_
  have hlength := length_le_flatMap_escapeChar s.toList
  simp only [quoted, List.length_append, List.length_singleton]
  omega

/-! ## Reading a number back -/

/-- What follows a value inside a document that `dumps` wrote: nothing, a comma or a closing
bracket. -/
def Ends (rest : List Char) : Prop := ∀ c ∈ rest.head?, c = ',' ∨ c = ']' ∨ c = '}'

lemma Ends.isFloatTail {rest : List Char} (h : Ends rest) : isFloatTail rest = false := by
  cases rest with
  | nil => rfl
  | cons c cs =>
      rcases h c rfl with rfl | rfl | rfl <;> rfl

lemma isDigit_iff {c : Char} : isDigit c = true ↔ IsDecimal c := by
  simp [isDigit, IsDecimal]

lemma Ends.isDigit_head {rest : List Char} (h : Ends rest) :
    ∀ c ∈ rest.head?, isDigit c = false := by
  intro c hc
  rcases h c hc with rfl | rfl | rfl <;> rfl

lemma takeWhile_append_stop {p : Char → Bool} {cs rest : List Char} (hcs : ∀ c ∈ cs, p c = true)
    (hrest : ∀ c ∈ rest.head?, p c = false) :
    (cs ++ rest).takeWhile p = cs ∧ (cs ++ rest).dropWhile p = rest := by
  rw [List.takeWhile_append_of_pos hcs, List.dropWhile_append_of_pos hcs]
  cases rest with
  | nil => simp
  | cons c rest => simp [hrest c rfl]

lemma natDecimal_head (n : ℕ) : natDecimal n = ['0'] ∨
    ∃ d ds, natDecimal n = d :: ds ∧ IsDecimal d ∧ d ≠ '0' := by
  by_cases hn : n = 0
  · exact .inl (by rw [hn]; rfl)
  · right
    have hne : Nat.digits 10 n ≠ [] := Nat.digits_ne_nil_iff_ne_zero.mpr hn
    have hlast := Nat.getLast_digit_ne_zero 10 hn
    have hlt := Nat.digits_lt_base (b := 10) (by norm_num) (List.getLast_mem hne)
    refine ⟨Nat.digitChar ((Nat.digits 10 n).getLast hne),
      ((Nat.digits 10 n).dropLast.reverse).map Nat.digitChar, ?_, digitChar_isDecimal hlt,
      fun hzero => hlast ?_⟩
    · rw [natDecimal, if_neg hn]
      conv_lhs => rw [← List.dropLast_append_getLast hne]
      simp
    · have hnat := congrArg Char.toNat hzero
      rw [Nat.toNat_digitChar_of_lt_ten hlt] at hnat
      have : '0'.toNat = 48 := rfl
      omega

lemma scanDigits_natDecimal (n : ℕ) {rest : List Char} (hrest : Ends rest) :
    scanDigits (natDecimal n ++ rest) = .ok (natDecimal n, rest) := by
  have hdigits : ∀ c ∈ natDecimal n, isDigit c = true :=
    fun c hc => isDigit_iff.mpr (natDecimal_isDecimal n hc)
  obtain ⟨htake, hdrop⟩ := takeWhile_append_stop hdigits hrest.isDigit_head
  rcases natDecimal_head n with hzero | ⟨d, ds, hcons, -, hd⟩
  · rw [hzero]
    rfl
  · have hne : natDecimal n ≠ [] := by simp [hcons]
    rw [hcons, List.cons_append, scanDigits]
    · rw [← List.cons_append, ← hcons, htake, hdrop, if_neg hne]
    · intro rest' heq
      exact hd (List.cons.inj heq).1

lemma scanMagnitude_natDecimal {n : ℕ} (hlength : (natDecimal n).length ≤ maxStrDigits)
    {rest : List Char} (hrest : Ends rest) :
    scanMagnitude (natDecimal n ++ rest) = .ok (n, rest) := by
  simp only [scanMagnitude, scanDigits_natDecimal n hrest, except_ok_bind, hrest.isFloatTail,
    if_neg (not_lt.mpr hlength), decimalValueOf_natDecimal]
  rfl

/-- **A number is read back.** -/
lemma scanAtom_decimal {n : ℤ} (hlength : (natDecimal n.natAbs).length ≤ maxStrDigits)
    {rest : List Char} (hrest : Ends rest) : scanAtom (decimal n ++ rest) = .ok (.int n, rest) := by
  have hscan := scanMagnitude_natDecimal hlength hrest
  obtain ⟨d, ds, hcons, hd⟩ : ∃ d ds, natDecimal n.natAbs = d :: ds ∧ IsDecimal d := by
    rcases natDecimal_head n.natAbs with hzero | ⟨d, ds, hcons, hd, -⟩
    · exact ⟨_, _, hzero, isDigit_iff.mp rfl⟩
    · exact ⟨d, ds, hcons, hd⟩
  have hne : ∀ c cs cs', isDigit c = false → d :: cs ≠ c :: cs' := by
    intro c cs cs' hc heq
    rw [← (List.cons.inj heq).1, isDigit_iff.mpr hd] at hc
    cases hc
  unfold decimal
  split_ifs with hn
  · have hneg : -(n.natAbs : ℤ) = n := by omega
    rw [hcons, List.cons_append, List.cons_append, scanAtom]
    · rw [← List.cons_append, ← hcons, hscan]
      simp only [except_ok_bind, hneg]
      rfl
    · exact fun _ => hne 'I' _ _ rfl
  · have hpos : (n.natAbs : ℤ) = n := by omega
    rw [hcons, List.cons_append, scanAtom]
    · rw [← List.cons_append, ← hcons, hscan]
      simp only [except_ok_bind, hpos]
      rfl
    · exact fun _ => hne 'n' _ _ rfl
    · exact fun _ => hne 't' _ _ rfl
    · exact fun _ => hne 'f' _ _ rfl
    · exact fun _ => hne 'N' _ _ rfl
    · exact fun _ => hne 'I' _ _ rfl
    · exact fun _ => hne '-' _ _ rfl
    · exact fun _ => hne '-' _ _ rfl

/-! ## Reading a document back -/

mutual

/-- A value Python has: every key of a dictionary once, and no integer too long to be written. -/
def Json.Canonical : Json → Prop
  | .null => True
  | .bool _ => True
  | .int n => (natDecimal n.natAbs).length ≤ maxStrDigits
  | .str _ => True
  | .arr items => Json.CanonicalItems items
  | .obj fields => (fields.map Prod.fst).Nodup ∧ Json.CanonicalFields fields
termination_by structural j => j

/-- Every item is canonical. -/
def Json.CanonicalItems : List Json → Prop
  | [] => True
  | j :: js => j.Canonical ∧ Json.CanonicalItems js
termination_by structural js => js

/-- The value of a field is canonical. -/
def Json.CanonicalField : String × Json → Prop
  | (_, value) => value.Canonical
termination_by structural f => f

/-- Every value is canonical. -/
def Json.CanonicalFields : List (String × Json) → Prop
  | [] => True
  | f :: fs => Json.CanonicalField f ∧ Json.CanonicalFields fs
termination_by structural fs => fs

end

lemma dictOfPairs_items {fields : List (String × Json)} (h : (fields.map Prod.fst).Nodup) :
    (dictOfPairs fields).items = fields := Dict.foldl_set_items h

/-- A text that starts with a value. -/
def Opens (cs : List Char) : Prop :=
  ∃ c rest, cs = c :: rest ∧ c ∉ [' ', '\t', '\n', '\r'] ∧ c ≠ ']' ∧ c ≠ '}'

lemma Opens.append {cs : List Char} (h : Opens cs) (rest : List Char) : Opens (cs ++ rest) := by
  obtain ⟨c, cs, rfl, hc⟩ := h
  exact ⟨c, cs ++ rest, rfl, hc⟩

lemma Opens.skipSpace {cs : List Char} (h : Opens cs) : skipSpace cs = cs := by
  obtain ⟨c, cs, rfl, hc, -⟩ := h
  rw [LedgerProof.skipSpace, List.dropWhile_cons_of_neg (by simpa using hc)]

lemma opens_decimal (n : ℤ) : Opens (decimal n) := by
  have hne : decimal n ≠ [] := by
    unfold decimal
    split_ifs
    · simp
    · rcases natDecimal_head n.natAbs with h | ⟨d, ds, h, -⟩ <;> simp [h]
  obtain ⟨c, cs, hcons⟩ := List.exists_cons_of_ne_nil hne
  refine ⟨c, cs, hcons, ?_⟩
  rcases decimal_ascii (show c ∈ decimal n by simp [hcons]) with rfl | hc
  · decide
  · refine ⟨fun hmem => ?_, ?_, ?_⟩
    · simp only [List.mem_cons, List.not_mem_nil, or_false] at hmem
      rcases hmem with rfl | rfl | rfl | rfl <;> exact absurd hc.1 (by decide)
    · rintro rfl
      exact absurd hc.2 (by decide)
    · rintro rfl
      exact absurd hc.2 (by decide)

lemma Json.opens_dumps (j : Json) : Opens j.dumps := by
  cases j with
  | null => exact ⟨_, _, rfl, by decide, by decide, by decide⟩
  | bool b => cases b <;> exact ⟨_, _, rfl, by decide, by decide, by decide⟩
  | int n => exact opens_decimal n
  | str s => exact ⟨_, _, rfl, by decide, by decide, by decide⟩
  | arr items => exact ⟨_, _, rfl, by decide, by decide, by decide⟩
  | obj fields => exact ⟨_, _, rfl, by decide, by decide, by decide⟩

lemma Json.opens_dumpsItems {js : List Json} (h : js ≠ []) : Opens (Json.dumpsItems js) := by
  obtain ⟨j, js, rfl⟩ := List.exists_cons_of_ne_nil h
  exact (j.opens_dumps).append _

lemma Json.opens_dumpsFields {fs : List (String × Json)} (h : fs ≠ []) :
    Opens (Json.dumpsFields fs) := by
  obtain ⟨⟨key, value⟩, fs, rfl⟩ := List.exists_cons_of_ne_nil h
  exact ⟨'"', _, rfl, by decide, by decide, by decide⟩

lemma scanValue_atom (fuel : ℕ) {cs : List Char}
    (h : ∀ c ∈ cs.head?, c ≠ '"' ∧ c ≠ '[' ∧ c ≠ '{') : scanValue (fuel + 1) cs = scanAtom cs := by
  rw [scanValue]
  · exact fun _ heq => (h '"' (by rw [heq]; rfl)).1 rfl
  · exact fun _ heq => (h '[' (by rw [heq]; rfl)).2.1 rfl
  · exact fun _ heq => (h '{' (by rw [heq]; rfl)).2.2 rfl

lemma scanValue_decimal (fuel : ℕ) {n : ℤ} (hlength : (natDecimal n.natAbs).length ≤ maxStrDigits)
    {rest : List Char} (hrest : Ends rest) :
    scanValue (fuel + 1) (decimal n ++ rest) = .ok (.int n, rest) := by
  obtain ⟨c, cs, hcons, -⟩ := opens_decimal n
  rw [scanValue_atom, scanAtom_decimal hlength hrest]
  intro d hd
  rw [hcons] at hd
  obtain rfl : c = d := by simpa using hd
  rcases decimal_ascii (show c ∈ decimal n by simp [hcons]) with rfl | hc
  · decide
  · refine ⟨?_, ?_, ?_⟩ <;> rintro rfl
    · exact absurd hc.1 (by decide)
    · exact absurd hc.2 (by decide)
    · exact absurd hc.2 (by decide)

lemma scanValue_arr {fuel : ℕ} {cs rest : List Char} {items : List Json} (hcs : Opens cs)
    (h : scanItems fuel cs = .ok (items, rest)) :
    scanValue (fuel + 1) ('[' :: cs) = .ok (.arr items, rest) := by
  rw [scanValue, hcs.skipSpace]
  split
  · obtain ⟨c, cs', heq, -, hclose, -⟩ := hcs
    exact absurd (List.cons.inj heq).1.symm hclose
  · rw [h]
    rfl

lemma scanValue_obj {fuel : ℕ} {cs rest : List Char} {pairs : List (String × Json)} (hcs : Opens cs)
    (h : scanFields fuel cs = .ok (pairs, rest)) (hpairs : (pairs.map Prod.fst).Nodup) :
    scanValue (fuel + 1) ('{' :: cs) = .ok (.obj pairs, rest) := by
  rw [scanValue, hcs.skipSpace]
  split
  · obtain ⟨c, cs', heq, -, -, hclose⟩ := hcs
    exact absurd (List.cons.inj heq).1.symm hclose
  · rw [h]
    simp only [except_ok_bind, dictOfPairs_items hpairs]
    rfl

lemma scanItems_last {fuel : ℕ} {cs rest : List Char} {j : Json}
    (h : scanValue fuel cs = .ok (j, ']' :: rest)) : scanItems (fuel + 1) cs = .ok ([j], rest) := by
  rw [scanItems, h]
  rfl

lemma scanItems_more {fuel : ℕ} {cs cs' rest : List Char} {j : Json} {js : List Json}
    (h : scanValue fuel cs = .ok (j, ',' :: cs')) (hcs' : Opens cs')
    (hmore : scanItems fuel cs' = .ok (js, rest)) :
    scanItems (fuel + 1) cs = .ok (j :: js, rest) := by
  have hcomma : skipSpace (',' :: cs') = ',' :: cs' := rfl
  rw [scanItems, h]
  simp only [except_ok_bind, hcomma, hcs'.skipSpace, hmore]
  rfl

/-- A field, up to what stands after its value. -/
lemma scanFields_value {fuel : ℕ} {cs rest : List Char} (key : String) {value : Json}
    (hcs : Opens cs) (h : scanValue fuel cs = .ok (value, '}' :: rest)) :
    scanFields (fuel + 1) ('"' :: (quoted key ++ ':' :: cs)) = .ok ([(key, value)], rest) := by
  have hcolon : skipSpace (':' :: cs) = ':' :: cs := rfl
  have hbrace : skipSpace ('}' :: rest) = '}' :: rest := rfl
  rw [scanFields, scanString_length]
  simp only [except_ok_bind, hcolon, hcs.skipSpace, h, hbrace, String.ofList_toList]
  rfl

lemma scanFields_more {fuel : ℕ} {cs cs' rest : List Char} (key : String) {value : Json}
    {fs : List (String × Json)} (hcs : Opens cs) (h : scanValue fuel cs = .ok (value, ',' :: cs'))
    (hcs' : Opens cs') (hmore : scanFields fuel cs' = .ok (fs, rest)) :
    scanFields (fuel + 1) ('"' :: (quoted key ++ ':' :: cs)) = .ok ((key, value) :: fs, rest) := by
  have hcolon : skipSpace (':' :: cs) = ':' :: cs := rfl
  have hcomma : skipSpace (',' :: cs') = ',' :: cs' := rfl
  rw [scanFields, scanString_length]
  simp only [except_ok_bind, hcolon, hcs.skipSpace, h, hcomma, hcs'.skipSpace, hmore,
    String.ofList_toList]
  rfl

mutual

/-- **A value is read back.**  The induction is over the document, with its lists of items and of
fields. -/
lemma scanValue_dumps :
    ∀ j : Json, j.Canonical → ∀ {fuel : ℕ} {rest : List Char}, j.dumps.length ≤ fuel →
    Ends rest → scanValue fuel (j.dumps ++ rest) = .ok (j, rest)
  | j, _, 0, _, hfuel, _ => by
      obtain ⟨c, cs, hcons, -⟩ := j.opens_dumps
      simp [hcons] at hfuel
  | .null, _, fuel + 1, rest, _, _ => rfl
  | .bool true, _, fuel + 1, rest, _, _ => rfl
  | .bool false, _, fuel + 1, rest, _, _ => rfl
  | .int n, hj, fuel + 1, rest, _, hrest => scanValue_decimal fuel hj hrest
  | .str s, _, fuel + 1, rest, _, _ => by
      show scanValue (fuel + 1) ('"' :: (quoted s ++ rest)) = _
      rw [scanValue, scanString_length]
      simp only [except_ok_bind, String.ofList_toList]
      rfl
  | .arr [], _, fuel + 1, rest, _, _ => rfl
  | .arr (j :: js), hj, fuel + 1, rest, hfuel, _ => by
      have hitems := scanItems_dumps (j :: js) hj (by simp) (by simpa [Json.dumps] using hfuel) rest
      have hopens : Opens (Json.dumpsItems (j :: js) ++ ']' :: rest) :=
        (Json.opens_dumpsItems (by simp)).append _
      simpa [Json.dumps] using scanValue_arr hopens hitems
  | .obj [], _, fuel + 1, rest, _, _ => rfl
  | .obj (f :: fs), hj, fuel + 1, rest, hfuel, _ => by
      have hfields :=
        scanFields_dumps (f :: fs) hj.2 (by simp) (by simpa [Json.dumps] using hfuel) rest
      have hopens : Opens (Json.dumpsFields (f :: fs) ++ '}' :: rest) :=
        (Json.opens_dumpsFields (by simp)).append _
      simpa [Json.dumps] using scanValue_obj hopens hfields hj.1
termination_by structural j => j

lemma scanItems_dumps : ∀ js : List Json, Json.CanonicalItems js → js ≠ [] → ∀ {fuel : ℕ},
    (Json.dumpsItems js).length < fuel → ∀ rest : List Char,
    scanItems fuel (Json.dumpsItems js ++ ']' :: rest) = .ok (js, rest)
  | [j], hjs, _, fuel + 1, hfuel, rest => by
      have hlength : j.dumps.length ≤ fuel := by simpa [Json.dumpsItems] using hfuel
      have hj := scanValue_dumps j hjs.1 hlength (show Ends (']' :: rest) by simp [Ends])
      simpa [Json.dumpsItems] using scanItems_last hj
  | j :: j' :: js, hjs, _, fuel + 1, hfuel, rest => by
      rw [Json.dumpsItems_cons_cons, List.length_append, List.length_cons] at hfuel
      have hj := scanValue_dumps j hjs.1 (show j.dumps.length ≤ fuel by omega)
        (show Ends (',' :: (Json.dumpsItems (j' :: js) ++ ']' :: rest)) by simp [Ends])
      have hmore := scanItems_dumps (j' :: js) hjs.2 (by simp)
        (show (Json.dumpsItems (j' :: js)).length < fuel by omega) rest
      rw [Json.dumpsItems_cons_cons, List.append_assoc, List.cons_append]
      exact scanItems_more hj ((Json.opens_dumpsItems (by simp)).append _) hmore
termination_by structural js => js

lemma scanField_dumps :
    ∀ f : String × Json, Json.CanonicalField f → ∀ {fuel : ℕ} {rest : List Char},
    (Json.dumpsField f).length ≤ fuel → Ends rest →
    scanValue fuel (f.2.dumps ++ rest) = .ok (f.2, rest)
  | (key, value), hf, fuel, rest, hfuel, hrest => by
      refine scanValue_dumps value hf ?_ hrest
      simp only [Json.dumpsField, List.length_cons, List.length_append] at hfuel
      omega
termination_by structural f => f

lemma scanFields_dumps :
    ∀ fs : List (String × Json), Json.CanonicalFields fs → fs ≠ [] → ∀ {fuel : ℕ},
    (Json.dumpsFields fs).length < fuel → ∀ rest : List Char,
    scanFields fuel (Json.dumpsFields fs ++ '}' :: rest) = .ok (fs, rest)
  | [f], hfs, _, fuel + 1, hfuel, rest => by
      rw [Json.dumpsFields_singleton] at hfuel ⊢
      have hf := scanField_dumps f hfs.1 (show (Json.dumpsField f).length ≤ fuel by omega)
        (show Ends ('}' :: rest) by simp [Ends])
      rw [Json.dumpsField_append]
      exact scanFields_value f.1 ((f.2.opens_dumps).append _) hf
  | f :: f' :: fs, hfs, _, fuel + 1, hfuel, rest => by
      rw [Json.dumpsFields_cons_cons, List.length_append, List.length_cons] at hfuel
      have hf := scanField_dumps f hfs.1 (show (Json.dumpsField f).length ≤ fuel by omega)
        (show Ends (',' :: (Json.dumpsFields (f' :: fs) ++ '}' :: rest)) by simp [Ends])
      have hmore := scanFields_dumps (f' :: fs) hfs.2 (by simp)
        (show (Json.dumpsFields (f' :: fs)).length < fuel by omega) rest
      rw [Json.dumpsFields_cons_cons, List.append_assoc, List.cons_append, Json.dumpsField_append]
      exact scanFields_more f.1 ((f.2.opens_dumps).append _) hf
        ((Json.opens_dumpsFields (by simp)).append _) hmore
termination_by structural fs => fs

end

/-! ## Bytes -/

lemma utf8Text_utf8 (cs : List Char) : decodeBody.utf8Text (utf8 cs) = .ok cs := by
  have hdecode : (utf8 cs).toByteArray.utf8Decode? = some cs.toArray := List.utf8Decode?_utf8Encode
  rw [decodeBody.utf8Text, hdecode]

/-- Bytes that begin with a brace and no zero are taken for UTF-8. -/
lemma decodeBody_brace {b : UInt8} (hb : b ≠ 0) (bs : List UInt8) :
    decodeBody (0x7b :: b :: bs) = decodeBody.utf8Text (0x7b :: b :: bs) := by
  have hzero : ¬((0x7b : UInt8) = 0 ∨ b = 0) := not_or.mpr ⟨by decide, hb⟩
  match bs with
  | [] => exact if_neg hzero
  | [_] => rfl
  | _ :: _ :: _ => exact if_neg hzero

/-- Text that starts with a brace and a quote, or with two braces. -/
lemma decodeBody_braceText {c : Char} (hc : c = '"' ∨ c = '}') (cs : List Char) :
    decodeBody (utf8 ('{' :: c :: cs)) = .ok ('{' :: c :: cs) := by
  have hbytes : utf8 ('{' :: c :: cs) = 0x7b :: utf8 [c] ++ utf8 cs := by
    show utf8 (['{'] ++ ([c] ++ cs)) = _
    rw [utf8_append, utf8_append]
    rfl
  have hsecond : ∃ b, utf8 [c] = [b] ∧ b ≠ 0 := by
    rcases hc with rfl | rfl
    · exact ⟨0x22, rfl, by decide⟩
    · exact ⟨0x7d, rfl, by decide⟩
  obtain ⟨b, hb, hb0⟩ := hsecond
  rw [hbytes, hb, List.cons_append, List.singleton_append, decodeBody_brace hb0]
  rw [hb] at hbytes
  exact (congrArg decodeBody.utf8Text hbytes.symm).trans (utf8Text_utf8 ('{' :: c :: cs))

lemma decodeBody_obj (fields : List (String × Json)) :
    decodeBody (utf8 (Json.obj fields).dumps) = .ok (Json.obj fields).dumps := by
  rcases fields with _ | ⟨⟨key, value⟩, fs⟩
  · exact decodeBody_braceText (.inr rfl) _
  · exact decodeBody_braceText (.inl rfl) _

/-- **What `dumps` wrote is read back.** -/
theorem loads_dumps {fields : List (String × Json)} (h : (Json.obj fields).Canonical) :
    loads (utf8 (Json.obj fields).dumps) = .ok (.obj fields) := by
  have hscan := scanValue_dumps (.obj fields) h (Nat.le_succ _) (show Ends [] by simp [Ends])
  rw [List.append_nil] at hscan
  rw [loads, decodeBody_obj, except_ok_bind, (Json.opens_dumps _).skipSpace, hscan]
  rfl

/-! ## The size of a document -/

/-- ASCII text of at most so many characters. -/
def Fits (n : ℕ) (cs : List Char) : Prop := (∀ c ∈ cs, c.toNat < 128) ∧ cs.length ≤ n

lemma Fits.append {m n : ℕ} {cs ds : List Char} (hcs : Fits m cs) (hds : Fits n ds) :
    Fits (m + n) (cs ++ ds) := by
  refine ⟨fun c hc => ?_, ?_⟩
  · rcases List.mem_append.mp hc with hc | hc
    · exact hcs.1 c hc
    · exact hds.1 c hc
  · rw [List.length_append]
    exact add_le_add hcs.2 hds.2

lemma Fits.cons {n : ℕ} {c : Char} {cs : List Char} (hcs : Fits n cs) (hc : c.toNat < 128) :
    Fits (n + 1) (c :: cs) :=
  ⟨List.forall_mem_cons.mpr ⟨hc, hcs.1⟩, Nat.succ_le_succ hcs.2⟩

lemma Fits.mono {m n : ℕ} {cs : List Char} (hcs : Fits m cs) (h : m ≤ n) :
    Fits n cs := ⟨hcs.1, hcs.2.trans h⟩

lemma Fits.length_utf8 {n : ℕ} {cs : List Char} (hcs : Fits n cs) : (utf8 cs).length ≤ n := by
  rw [utf8_ascii hcs.1, List.length_map]
  exact hcs.2

/-- A character that is written as it is. -/
def IsPlain (c : Char) : Prop := 0x20 ≤ c.toNat ∧ c.toNat ≤ 0x7e ∧ c ≠ '"' ∧ c ≠ '\\'

instance (c : Char) : Decidable (IsPlain c) := inferInstanceAs (Decidable (_ ∧ _))

/-- Text of at most so many characters, all of them plain. -/
structure PlainText (n : ℕ) (s : String) : Prop where
  plain : ∀ c ∈ s.toList, IsPlain c
  length_le : s.toList.length ≤ n

instance (n : ℕ) (s : String) : Decidable (PlainText n s) :=
  decidable_of_iff ((∀ c ∈ s.toList, IsPlain c) ∧ s.toList.length ≤ n) ⟨fun h => ⟨h.1, h.2⟩,
    fun h => ⟨h.1, h.2⟩⟩

lemma PlainText.mono {m n : ℕ} {s : String} (h : PlainText m s) (hle : m ≤ n) : PlainText n s :=
  ⟨h.plain, h.length_le.trans hle⟩

lemma PlainText.append {m n : ℕ} {s t : String} (hs : PlainText m s) (ht : PlainText n t) :
    PlainText (m + n) (s ++ t) := by
  refine ⟨fun c hc => ?_, ?_⟩
  · rw [String.toList_append] at hc
    rcases List.mem_append.mp hc with hc | hc
    · exact hs.plain c hc
    · exact ht.plain c hc
  · rw [String.toList_append, List.length_append]
    exact add_le_add hs.length_le ht.length_le

lemma escapeChar_plain {c : Char} (h : IsPlain c) : escapeChar c = [c] := by
  have hfind : shortEscapes.find? (·.2 = c) = none := by
    refine List.find?_eq_none.mpr fun e he => ?_
    rw [decide_eq_true_eq]
    rintro rfl
    obtain ⟨hlow, -, hquote, hslash⟩ := h
    simp only [shortEscapes, List.mem_cons, List.not_mem_nil, or_false] at he
    rcases he with rfl | rfl | rfl | rfl | rfl | rfl | rfl
    · exact hquote rfl
    · exact hslash rfl
    all_goals exact absurd hlow (by decide)
  rw [escapeChar, hfind]
  exact if_pos ⟨h.1, h.2.1⟩

lemma flatMap_escapeChar_plain {cs : List Char} (h : ∀ c ∈ cs, IsPlain c) :
    cs.flatMap escapeChar = cs := by
  induction cs with
  | nil => rfl
  | cons c cs ih =>
      obtain ⟨hc, hcs⟩ := List.forall_mem_cons.mp h
      rw [List.flatMap_cons, ih hcs, escapeChar_plain hc, List.singleton_append]

lemma PlainText.fits_quoted {n : ℕ} {s : String} (h : PlainText n s) : Fits (n + 1) (quoted s) := by
  rw [quoted, flatMap_escapeChar_plain h.plain]
  refine Fits.append ⟨fun c hc => ?_, h.length_le⟩ ⟨by decide, le_rfl⟩
  have := (h.plain c hc).2.1
  omega

lemma fits_decimal {n : ℤ} {m : ℕ} (h : (natDecimal n.natAbs).length ≤ m) :
    Fits (m + 1) (decimal n) := by
  refine ⟨fun c hc => ?_, ?_⟩
  · rcases decimal_ascii hc with rfl | hdigit
    · decide
    · have := hdigit.2
      omega
  · unfold decimal
    split_ifs
    · simpa using h
    · exact h.trans (Nat.le_succ m)

mutual

/-- Every text in the value is plain and has at most `n` characters, every number and every key has
at most 30, and a dictionary has every key once. -/
def Json.Brief (n : ℕ) : Json → Prop
  | .null => True
  | .bool _ => True
  | .int k => (natDecimal k.natAbs).length ≤ 30
  | .str s => PlainText n s
  | .arr items => Json.BriefItems n items
  | .obj fields => (fields.map Prod.fst).Nodup ∧ Json.BriefFields n fields
termination_by structural j => j

/-- Every item is brief. -/
def Json.BriefItems (n : ℕ) : List Json → Prop
  | [] => True
  | j :: js => j.Brief n ∧ Json.BriefItems n js
termination_by structural js => js

/-- The key and the value are brief. -/
def Json.BriefField (n : ℕ) : String × Json → Prop
  | (key, value) => PlainText 30 key ∧ value.Brief n
termination_by structural f => f

/-- Every field is brief. -/
def Json.BriefFields (n : ℕ) : List (String × Json) → Prop
  | [] => True
  | f :: fs => Json.BriefField n f ∧ Json.BriefFields n fs
termination_by structural fs => fs

end

mutual

lemma Json.Brief.canonical {n : ℕ} : ∀ {j : Json}, j.Brief n → j.Canonical
  | .null, _ => trivial
  | .bool _, _ => trivial
  | .int _, h => le_trans h (by decide)
  | .str _, _ => trivial
  | .arr items, h => Json.BriefItems.canonical items h
  | .obj fields, h => ⟨h.1, Json.BriefFields.canonical fields h.2⟩
termination_by structural j => j

lemma Json.BriefItems.canonical {n : ℕ} :
    ∀ js : List Json, Json.BriefItems n js → Json.CanonicalItems js
  | [], _ => trivial
  | j :: js, h => ⟨Json.Brief.canonical (j := j) h.1, Json.BriefItems.canonical js h.2⟩
termination_by structural js => js

lemma Json.BriefField.canonical {n : ℕ} :
    ∀ {f : String × Json}, Json.BriefField n f → Json.CanonicalField f
  | (_, value), h => Json.Brief.canonical (j := value) h.2
termination_by structural f => f

lemma Json.BriefFields.canonical {n : ℕ} : ∀ fs : List (String × Json), Json.BriefFields n fs →
    Json.CanonicalFields fs
  | [], _ => trivial
  | f :: fs, h => ⟨Json.BriefField.canonical (f := f) h.1, Json.BriefFields.canonical fs h.2⟩
termination_by structural fs => fs

end

mutual

/-- The texts, numbers and constants of a value, and its pairs of brackets. -/
def Json.tokens : Json → ℕ
  | .null => 1
  | .bool _ => 1
  | .int _ => 1
  | .str _ => 1
  | .arr items => Json.tokensItems items + 1
  | .obj fields => Json.tokensFields fields + 1
termination_by structural j => j

/-- The tokens of the items. -/
def Json.tokensItems : List Json → ℕ
  | [] => 0
  | j :: js => j.tokens + Json.tokensItems js
termination_by structural js => js

/-- The tokens of a field; its key is not counted. -/
def Json.tokensField : String × Json → ℕ
  | (_, value) => value.tokens
termination_by structural f => f

/-- The tokens of the fields. -/
def Json.tokensFields : List (String × Json) → ℕ
  | [] => 0
  | f :: fs => Json.tokensField f + Json.tokensFields fs
termination_by structural fs => fs

end

lemma Json.tokens_pos (j : Json) : 0 < j.tokens := by
  cases j <;> simp [Json.tokens]

lemma room_le_mul {t : ℕ} (ht : 0 < t) (n : ℕ) : 70 ≤ t * (n + 70) :=
  (Nat.le_add_left 70 n).trans (Nat.le_mul_of_pos_left _ ht)

mutual

/-- **The size of a document**: every token has room for its text, and for the key and the
punctuation around it. -/
lemma Json.Brief.fits {n : ℕ} : ∀ {j : Json}, j.Brief n → Fits (j.tokens * (n + 70) - 36) j.dumps
  | .null, _ => Fits.mono (m := 4) ⟨by decide, le_rfl⟩ (by simp only [Json.tokens]; omega)
  | .bool true, _ => Fits.mono (m := 4) ⟨by decide, le_rfl⟩ (by simp only [Json.tokens]; omega)
  | .bool false, _ => Fits.mono (m := 5) ⟨by decide, le_rfl⟩ (by simp only [Json.tokens]; omega)
  | .int _, h => (fits_decimal h).mono (by simp only [Json.tokens]; omega)
  | .str _, h => ((PlainText.fits_quoted h).cons (c := '"') (by decide)).mono
      (by simp only [Json.tokens]; omega)
  | .arr items, h =>
      (((Json.BriefItems.fits items h).append (n := 1) ⟨by decide, le_rfl⟩).cons (c := '[')
        (by decide)).mono
        (by simp only [Json.tokens, Nat.add_mul]; omega)
  | .obj fields, h =>
      (((Json.BriefFields.fits fields h.2).append (n := 1) ⟨by decide, le_rfl⟩).cons (c := '{')
        (by decide)).mono (by simp only [Json.tokens, Nat.add_mul]; omega)
termination_by structural j => j

lemma Json.BriefItems.fits {n : ℕ} : ∀ js : List Json, Json.BriefItems n js →
    Fits (Json.tokensItems js * (n + 70)) (Json.dumpsItems js)
  | [], _ => ⟨by simp [Json.dumpsItems], Nat.zero_le _⟩
  | [j], h => ((Json.Brief.fits (j := j) h.1).append (n := 0) ⟨by simp, by simp⟩).mono
      (by simp only [Json.tokensItems, Nat.add_mul]; omega)
  | j :: j' :: js, h => by
      have hmore := Json.BriefItems.fits (j' :: js) h.2
      have hroom := room_le_mul j.tokens_pos n
      refine ((Json.Brief.fits (j := j) h.1).append (hmore.cons (c := ',') (by decide))).mono ?_
      simp only [Json.tokensItems, Nat.add_mul] at hroom ⊢
      omega
termination_by structural js => js

lemma Json.BriefField.fits {n : ℕ} : ∀ {f : String × Json}, Json.BriefField n f →
    Fits (Json.tokensField f * (n + 70) - 1) (Json.dumpsField f)
  | (key, value), h => by
      have hroom := room_le_mul value.tokens_pos n
      have hvalue := (Json.Brief.fits (j := value) h.2).cons (c := ':') (by decide)
      refine ((h.1.fits_quoted.append hvalue).cons (c := '"') (by decide)).mono ?_
      simp only [Json.tokensField] at hroom ⊢
      omega
termination_by structural f => f

lemma Json.BriefFields.fits {n : ℕ} : ∀ fs : List (String × Json), Json.BriefFields n fs →
    Fits (Json.tokensFields fs * (n + 70)) (Json.dumpsFields fs)
  | [], _ => ⟨by simp [Json.dumpsFields], Nat.zero_le _⟩
  | [f], h => ((Json.BriefField.fits (f := f) h.1).append (n := 0) ⟨by simp, by simp⟩).mono
      (by simp only [Json.tokensFields, Nat.add_mul]; omega)
  | f :: f' :: fs, h => by
      have hmore := Json.BriefFields.fits (f' :: fs) h.2
      have hpos : 0 < Json.tokensField f := by
        rcases f with ⟨key, value⟩
        exact value.tokens_pos
      have hroom := room_le_mul hpos n
      refine ((Json.BriefField.fits (f := f) h.1).append
        (hmore.cons (c := ',') (by decide))).mono ?_
      simp only [Json.tokensFields, Nat.add_mul] at hroom ⊢
      omega
termination_by structural fs => fs

end

end LedgerProof
