import LedgerProof.Lib.PyJson

/-!
# Reading JSON text of any Python value

What the scanners make of the text of a document: its value (`scanValue_text`), if all numbers and
strings in it can be read.  The code units of a string are read in pairs where two of them are one
character, and since a pair is beyond all units, strings with different units are different
(`combine_injective`).
-/

namespace LedgerProof

namespace PyJson

/-! ## Reading a string -/

/-- The first half of a surrogate pair. -/
def IsHigh (n : ℕ) : Prop := 0xd800 ≤ n ∧ n < 0xdc00

/-- The second half. -/
def IsLow (n : ℕ) : Prop := 0xdc00 ≤ n ∧ n < 0xe000

instance (n : ℕ) : Decidable (IsHigh n) := inferInstanceAs (Decidable (_ ∧ _))

instance (n : ℕ) : Decidable (IsLow n) := inferInstanceAs (Decidable (_ ∧ _))

/-- Code units as code points. -/
def combine : List ℕ → PyStr
  | n :: m :: ns =>
      if IsHigh n ∧ IsLow m then (0x10000 + (n - 0xd800) * 0x400 + (m - 0xdc00)) :: combine ns
      else n :: combine (m :: ns)
  | ns => ns

/-- A code point as code units. -/
def unitsOf (n : ℕ) : List ℕ :=
  if n < 0x10000 then [n] else [0xd800 + (n - 0x10000) / 0x400, 0xdc00 + (n - 0x10000) % 0x400]

/-- **The units can be read off the text**: a pair is beyond all units. -/
lemma flatMap_unitsOf_combine :
    ∀ ns : List ℕ, (∀ n ∈ ns, n < 0x10000) → (combine ns).flatMap unitsOf = ns
  | [], _ => rfl
  | [n], h => by
      have hn : n < 0x10000 := h n List.mem_cons_self
      simp [combine, unitsOf, hn]
  | n :: m :: ns, h => by
      obtain ⟨hn, h⟩ := List.forall_mem_cons.mp h
      rw [combine]
      split_ifs with hpair
      · obtain ⟨⟨hn, hn'⟩, hm, hm'⟩ := hpair
        obtain ⟨-, h⟩ := List.forall_mem_cons.mp h
        have hunits : unitsOf (0x10000 + (n - 0xd800) * 0x400 + (m - 0xdc00)) = [n, m] := by
          have hfirst : 0xd800 + (0x10000 + (n - 0xd800) * 0x400 + (m - 0xdc00) - 0x10000) / 0x400 =
              n := by omega
          have hsecond : 0xdc00 +
              (0x10000 + (n - 0xd800) * 0x400 + (m - 0xdc00) - 0x10000) % 0x400 = m := by omega
          rw [unitsOf, if_neg (by omega), hfirst, hsecond]
        rw [List.flatMap_cons, hunits, flatMap_unitsOf_combine ns h]
        rfl
      · rw [List.flatMap_cons, flatMap_unitsOf_combine (m :: ns) h, unitsOf, if_pos hn]
        rfl

lemma combine_injective {ns ms : List ℕ} (hns : ∀ n ∈ ns, n < 0x10000) (hms : ∀ m ∈ ms, m < 0x10000)
    (h : combine ns = combine ms) : ns = ms := by
  rw [← flatMap_unitsOf_combine ns hns, h, flatMap_unitsOf_combine ms hms]

lemma shortEscapes_ascii : ∀ e ∈ shortEscapes, e.2.toNat < 128 := by decide

lemma Piece.Ok.code_lt {p : Piece} (h : p.Ok) : p.code < 0x10000 := by
  cases p with
  | plain n =>
      obtain ⟨-, hn, -⟩ := h
      show n < 0x10000
      omega
  | short e =>
      have hascii := shortEscapes_ascii e h
      show e.2.toNat < 0x10000
      omega
  | unit n => exact h

/-- Only units are halves of pairs. -/
lemma Piece.Ok.eq_unit {p : Piece} (h : p.Ok) (hcode : 0xd800 ≤ p.code) : ∃ n, p = .unit n := by
  cases p with
  | plain n =>
      obtain ⟨-, hn, -⟩ := h
      have hcode : 0xd800 ≤ n := hcode
      omega
  | short e =>
      have hascii := shortEscapes_ascii e h
      have hcode : 0xd800 ≤ e.2.toNat := hcode
      omega
  | unit n => exact ⟨n, rfl⟩

/-- The digits of a unit. -/
def hexDigits (n : ℕ) : List Char :=
  [Nat.digitChar (n / 4096 % 16), Nat.digitChar (n / 256 % 16), Nat.digitChar (n / 16 % 16),
    Nat.digitChar (n % 16)]

lemma scanHex4_hexDigits {n : ℕ} (hn : n < 0x10000) (rest : List Char) :
    scanHex4 (hexDigits n ++ rest) = some (n, rest) := by
  rw [scanHex4, hexDigits, List.cons_append, List.cons_append, List.cons_append, List.cons_append,
    List.nil_append, scanHex_digits hn]
  rfl

/-- No second half of a pair comes next. -/
def NoLow (cs : List Char) : Prop :=
  ∀ cs', cs = '\\' :: 'u' :: cs' → ∃ m cs'', scanHex4 cs' = some (m, cs'') ∧ ¬IsLow m

lemma scanUnit_single {n : ℕ} (hn : n < 0x10000) {rest : List Char} (h : IsHigh n → NoLow rest) :
    scanUnit (hexDigits n ++ rest) = some (n, rest) := by
  rw [scanUnit, scanHex4_hexDigits hn]
  dsimp only
  split_ifs with hhigh
  · split
    · rename_i cs'
      obtain ⟨m, cs'', hscan, hlow⟩ := h hhigh cs' rfl
      have hlow : ¬(0xdc00 ≤ m ∧ m < 0xe000) := hlow
      rw [hscan]
      dsimp only
      rw [if_neg hlow]
    · rfl
  · rfl

lemma scanUnit_pair {n m : ℕ} (hn : IsHigh n) (hm : IsLow m) (rest : List Char) :
    scanUnit (hexDigits n ++ '\\' :: 'u' :: (hexDigits m ++ rest)) =
      some (0x10000 + (n - 0xd800) * 0x400 + (m - 0xdc00), rest) := by
  have hhigh : 0xd800 ≤ n ∧ n < 0xdc00 := hn
  have hlow : 0xdc00 ≤ m ∧ m < 0xe000 := hm
  simp only [scanUnit, scanHex4_hexDigits (show n < 0x10000 by omega), if_pos hhigh,
    scanHex4_hexDigits (show m < 0x10000 by omega), if_pos hlow]

/-- One piece is read, if it is not the first half of a pair. -/
lemma scanString_piece (fuel : ℕ) {p : Piece} (hp : p.Ok) {rest : List Char}
    (h : IsHigh p.code → NoLow rest) :
    scanString (fuel + 1) (p.text ++ rest) = scanString fuel rest >>= fun r =>
      some (p.code :: r.1, r.2) := by
  cases p with
  | plain n =>
      obtain ⟨hlow, hhigh, hquote, hslash⟩ := hp
      have hchar : (Char.ofNat n).toNat = n := toNat_ofNat (by omega)
      have hne : ∀ c : Char, c.toNat ≠ n → Char.ofNat n ≠ c := by
        rintro c hc rfl
        exact hc hchar
      rw [Piece.text, List.singleton_append, scanString, if_neg (by omega), hchar]
      · rfl
      · exact hne '"' hquote.symm
      · exact hne '\\' hslash.symm
  | short e =>
      have hp : e ∈ shortEscapes := hp
      simp only [shortEscapes, List.mem_cons, List.not_mem_nil, or_false] at hp
      rcases hp with rfl | rfl | rfl | rfl | rfl | rfl | rfl <;> rfl
  | unit n =>
      show (scanUnit (hexDigits n ++ rest) >>= _) = _
      rw [scanUnit_single hp h]
      rfl

lemma noLow_closed {p : Piece} (hp : p.Ok) (hlow : ¬IsLow p.code) (rest : List Char) :
    NoLow (p.text ++ rest) := by
  intro cs' heq
  cases p with
  | plain n =>
      obtain ⟨-, hhigh, -, hslash⟩ := hp
      have hchar : Char.ofNat n = '\\' := (List.cons.inj heq).1
      refine absurd ?_ hslash
      rw [← toNat_ofNat (show n < 0xd800 by omega), hchar]
      rfl
  | short e =>
      have hne : ∀ e ∈ shortEscapes, e.1 ≠ 'u' := by decide
      obtain ⟨-, heq⟩ := List.cons.inj heq
      exact absurd (List.cons.inj heq).1 (hne e hp)
  | unit n =>
      have heq : '\\' :: 'u' :: (hexDigits n ++ rest) = '\\' :: 'u' :: cs' := heq
      obtain rfl := (List.cons.inj (List.cons.inj heq).2).2
      exact ⟨n, rest, scanHex4_hexDigits hp rest, hlow⟩

/-- **A string is read as its code units, in pairs where they are.** -/
lemma scanString_closed : ∀ (ps : List Piece), (∀ p ∈ ps, p.Ok) → ∀ {fuel : ℕ}, ps.length < fuel →
    ∀ rest, scanString fuel (closed ps ++ rest) = some (combine (ps.map Piece.code), rest)
  | [], _, fuel + 1, _, rest => rfl
  | [p], h, fuel + 2, _, rest => by
      have hquote : NoLow ('"' :: rest) := fun cs' heq => absurd (List.cons.inj heq).1 (by decide)
      have hclosed : closed [p] ++ rest = p.text ++ '"' :: rest := by simp [closed]
      rw [hclosed, scanString_piece (fuel + 1) (h p List.mem_cons_self) fun _ => hquote]
      rfl
  | p :: q :: ps, h, fuel + 2, hfuel, rest => by
      obtain ⟨hp, hqs⟩ := List.forall_mem_cons.mp h
      have hq := hqs q List.mem_cons_self
      have hclosed : closed (p :: q :: ps) ++ rest = p.text ++ (closed (q :: ps) ++ rest) := by
        simp [closed]
      have hclosed' : closed (q :: ps) ++ rest = q.text ++ (closed ps ++ rest) := by
        simp [closed]
      rw [hclosed, List.map_cons, List.map_cons, combine]
      split_ifs with hpair
      · obtain ⟨n, rfl⟩ := hp.eq_unit hpair.1.1
        obtain ⟨m, rfl⟩ := hq.eq_unit (le_trans (by norm_num) hpair.2.1)
        have hread := scanUnit_pair hpair.1 hpair.2 (closed ps ++ rest)
        have hps : ∀ p ∈ ps, p.Ok := (List.forall_mem_cons.mp hqs).2
        have hlength : ps.length < fuel + 1 := by
          simp only [List.length_cons] at hfuel
          omega
        rw [hclosed']
        show
          (scanUnit (hexDigits n ++ '\\' :: 'u' :: (hexDigits m ++ (closed ps ++ rest))) >>= _) = _
        rw [show scanUnit (hexDigits n ++ '\\' :: 'u' :: (hexDigits m ++ (closed ps ++ rest))) =
          _ from hread]
        show (scanString (fuel + 1) (closed ps ++ rest) >>= _) = _
        rw [scanString_closed ps hps hlength rest]
        rfl
      · have hnoLow : IsHigh p.code → NoLow (closed (q :: ps) ++ rest) := by
          intro hhigh
          rw [hclosed']
          exact noLow_closed hq (fun hlow => hpair ⟨hhigh, hlow⟩) _
        rw [scanString_piece (fuel + 1) hp hnoLow,
          scanString_closed (q :: ps) hqs (by simpa using hfuel) rest]
        rfl

lemma length_le_closed (ps : List Piece) (rest : List Char) :
    ps.length < (closed ps ++ rest).length := by
  have hpos : ∀ p ∈ ps, 1 ≤ p.text.length := by
    intro p _
    cases p <;> simp [Piece.text, unicodeEscape]
  have hsum : ps.length ≤ (ps.flatMap Piece.text).length := by
    rw [List.length_flatMap]
    have hle := List.card_nsmul_le_sum (ps.map fun p => p.text.length) 1 (by simpa using hpos)
    simpa using hle
  simp only [closed, List.length_append, List.length_singleton]
  omega

/-- The scanner of a string is given enough fuel. -/
lemma scanString_length {ps : List Piece} (h : ∀ p ∈ ps, p.Ok) (rest : List Char) :
    scanString (closed ps ++ rest).length (closed ps ++ rest) = some (combine (ps.map Piece.code),
      rest) :=
  scanString_closed ps h (length_le_closed ps rest) rest

/-! ## Reading a number -/

section

variable {read : Number → BitVec 64} {t : Number} {rest : List Char}

lemma head_of_mark {mark exp : List Char}
    (h : (mark = [] ∧ exp = []) ∨ (mark ∈ Number.marks ∧ exp ≠ [])) (hrest : Ends rest) :
    ∀ c ∈ (mark ++ (exp ++ rest)).head?, isDigit c = false ∧ c ≠ '.' := by
  intro c hc
  rcases h with ⟨rfl, rfl⟩ | ⟨hmark, -⟩
  · have hend := hrest c (by simpa using hc)
    rcases hend with rfl | rfl | rfl <;> decide
  · simp only [Number.marks, List.mem_cons, List.not_mem_nil, or_false] at hmark
    rcases hmark with rfl | rfl | rfl | rfl | rfl | rfl
    all_goals
      obtain rfl : _ = c := Option.some.inj hc
      decide

lemma scanDigits_int (hs : t.Shaped) (hu : t.Unpadded)
    (hrest : ∀ c ∈ rest.head?, isDigit c = false) :
    scanDigits (t.int ++ rest) = .ok (t.int, rest) := by
  obtain ⟨htake, hdrop⟩ := takeWhile_append_stop hs.int hrest
  obtain ⟨c, cs, hint⟩ := List.exists_cons_of_ne_nil hs.int_ne_nil
  by_cases hzero : c = '0'
  · have hone := hu (by rw [hint, hzero]; rfl)
    rw [hone]
    rfl
  · rw [scanDigits]
    · rw [if_neg (by rw [htake]; exact hs.int_ne_nil), htake, hdrop]
    · intro cs' heq
      rw [hint] at heq
      exact hzero (List.cons.inj heq).1

lemma scanFraction_text {frac : List Char} (hfrac : ∀ c ∈ frac, isDigit c = true)
    (hrest : ∀ c ∈ rest.head?, isDigit c = false ∧ c ≠ '.') :
    scanFraction ((if frac = [] then [] else '.' :: frac) ++ rest) = (frac, rest) := by
  split_ifs with hnil
  · subst hnil
    rw [List.nil_append, scanFraction]
    rintro cs rfl
    exact (hrest '.' rfl).2 rfl
  · obtain ⟨htake, hdrop⟩ := takeWhile_append_stop hfrac fun c hc => (hrest c hc).1
    rw [List.cons_append, scanFraction, htake, hdrop, if_neg hnil]

lemma scanExponent_text {mark exp : List Char}
    (h : (mark = [] ∧ exp = []) ∨ (mark ∈ Number.marks ∧ exp ≠ []))
    (hexp : ∀ c ∈ exp, isDigit c = true) (hrest : Ends rest) :
    scanExponent (mark ++ (exp ++ rest)) = (mark, exp, rest) := by
  rcases h with ⟨rfl, rfl⟩ | ⟨hmark, hne⟩
  · cases rest with
    | nil => rfl
    | cons c cs => rcases hrest c rfl with rfl | rfl | rfl <;> rfl
  · obtain ⟨htake, hdrop⟩ := takeWhile_append_stop hexp hrest.isDigit_head
    have hscan : scanMark (mark ++ (exp ++ rest)) = (mark, exp ++ rest) := by
      obtain ⟨d, ds, rfl⟩ := List.exists_cons_of_ne_nil hne
      have hd := hexp d List.mem_cons_self
      have hplus : d ≠ '+' := by
        rintro rfl
        cases hd
      have hminus : d ≠ '-' := by
        rintro rfl
        cases hd
      simp only [Number.marks, List.mem_cons, List.not_mem_nil, or_false] at hmark
      rcases hmark with rfl | rfl | rfl | rfl | rfl | rfl
      · rfl
      · rfl
      · rfl
      · rfl
      · simp [scanMark, hplus, hminus]
      · simp [scanMark, hplus, hminus]
    rw [scanExponent, hscan]
    split
    · rename_i heq
      obtain ⟨rfl, -⟩ := Prod.mk.inj heq
      exact absurd hmark (by decide)
    · rename_i heq
      obtain ⟨rfl, rfl⟩ := Prod.mk.inj heq
      rw [htake, hdrop, if_neg hne]

/-- **A number is read as it is written**, if it has no zeros before it. -/
lemma scanUnsigned_text (hs : t.Shaped) (hu : t.Unpadded) (hrest : Ends rest) :
    scanUnsigned t.neg (t.unsigned ++ rest) = some (t, rest) := by
  have hmark := head_of_mark hs.mark hrest
  have htail : ∀ c ∈ ((if t.frac = [] then [] else '.' :: t.frac) ++
      (t.mark ++ (t.exp ++ rest))).head?,
      isDigit c = false := by
    split_ifs
    · exact fun c hc => (hmark c hc).1
    · intro c hc
      obtain rfl : '.' = c := Option.some.inj hc
      rfl
  have htext : t.unsigned ++ rest =
      t.int ++ ((if t.frac = [] then [] else '.' :: t.frac) ++ (t.mark ++ (t.exp ++ rest))) := by
    simp only [Number.unsigned, List.append_assoc]
  rw [scanUnsigned, htext, scanDigits_int hs hu htail]
  simp only [scanFraction_text hs.frac hmark, scanExponent_text hs.mark hs.exp hrest]

/-- **A zero before other digits is a number of its own.** -/
lemma scanUnsigned_padded {d : Char} {ds : List Char} (hd : isDigit d = true) (neg : Bool) :
    scanUnsigned neg ('0' :: d :: ds) = some (⟨neg, ['0'], [], [], []⟩, d :: ds) := by
  have hdot : d ≠ '.' := by
    rintro rfl
    cases hd
  have hsmall : d ≠ 'e' := by
    rintro rfl
    cases hd
  have hlarge : d ≠ 'E' := by
    rintro rfl
    cases hd
  simp [scanUnsigned, scanDigits, scanFraction, scanExponent, scanMark, hdot, hsmall, hlarge]

/-- A text that starts like a number is left to the scanner of numbers. -/
lemma scanAtom_text {c : Char} {cs : List Char} (hc : isDigit c = true) (neg : Bool) :
    scanAtom read ((if neg then ['-'] else []) ++ c :: cs) =
      scanUnsigned neg (c :: cs) >>= fun r => (r.1.convert read) >>= fun v => some (v, r.2) := by
  have hne : ∀ b : Char, isDigit b = false → c ≠ b := by
    rintro b hb rfl
    rw [hb] at hc
    cases hc
  cases neg with
  | true =>
      show scanAtom read ('-' :: c :: cs) = _
      rw [scanAtom]
      · rfl
      · rintro rest heq
        exact hne 'I' rfl (List.cons.inj heq).1
  | false =>
      show scanAtom read (c :: cs) = _
      rw [scanAtom]
      · rfl
      · exact fun _ heq => hne 'n' rfl (List.cons.inj heq).1
      · exact fun _ heq => hne 't' rfl (List.cons.inj heq).1
      · exact fun _ heq => hne 'f' rfl (List.cons.inj heq).1
      · exact fun _ heq => hne 'N' rfl (List.cons.inj heq).1
      · exact fun _ heq => hne 'I' rfl (List.cons.inj heq).1
      · exact fun _ heq => hne '-' rfl (List.cons.inj heq).1
      · exact fun _ heq => hne '-' rfl (List.cons.inj heq).1

lemma Number.Shaped.head (hs : t.Shaped) : ∃ c cs, t.int = c :: cs ∧ isDigit c = true := by
  obtain ⟨c, cs, hint⟩ := List.exists_cons_of_ne_nil hs.int_ne_nil
  exact ⟨c, cs, hint, hs.int c (by simp [hint])⟩

lemma Number.Shaped.unsigned_head (hs : t.Shaped) :
    ∃ c cs, t.unsigned = c :: cs ∧ isDigit c = true := by
  obtain ⟨c, cs, hint, hc⟩ := hs.head
  exact ⟨c, _, by rw [Number.unsigned, hint]; rfl, hc⟩

lemma scanAtom_number (hs : t.Shaped) (hu : t.Unpadded) (hshort : t.Short) (hrest : Ends rest) :
    scanAtom read (t.text ++ rest) = some (t.value read, rest) := by
  obtain ⟨c, cs, hunsigned, hc⟩ := hs.unsigned_head
  have htext : t.text ++ rest = (if t.neg then ['-'] else []) ++ (t.unsigned ++ rest) :=
    List.append_assoc _ _ _
  have hconvert : t.convert read = some (t.value read) := by
    unfold Number.convert Number.value
    cases hfloat : t.isFloat with
    | true => rfl
    | false => exact if_pos (hshort hfloat)
  rw [htext, hunsigned, List.cons_append, scanAtom_text hc, ← List.cons_append, ← hunsigned,
    scanUnsigned_text hs hu hrest]
  show (t.convert read >>= _) = _
  rw [hconvert]
  rfl

end

/-! ## Reading a document -/

/-- The units of a string, as text. -/
def strValue (pieces : List Piece) : PyStr := combine (pieces.map Piece.code)

section

mutual

/-- All numbers and strings can be read. -/
def Doc.Readable : Doc → Prop
  | .const _ => True
  | .number t => t.Shaped ∧ t.Unpadded ∧ t.Short
  | .str pieces => ∀ p ∈ pieces, p.Ok
  | .list items => Doc.ReadableItems items
  | .dict fields => Doc.ReadableFields fields
termination_by structural d => d

/-- Every item can be read. -/
def Doc.ReadableItems : List Doc → Prop
  | [] => True
  | d :: ds => d.Readable ∧ Doc.ReadableItems ds
termination_by structural ds => ds

/-- The key and the value can be read. -/
def Doc.ReadableField : List Piece × Doc → Prop
  | (key, d) => (∀ p ∈ key, p.Ok) ∧ d.Readable
termination_by structural f => f

/-- Every field can be read. -/
def Doc.ReadableFields : List (List Piece × Doc) → Prop
  | [] => True
  | f :: fs => Doc.ReadableField f ∧ Doc.ReadableFields fs
termination_by structural fs => fs

end

variable (read : Number → BitVec 64)

mutual

/-- The value of a document. -/
def Doc.value : Doc → PyValue
  | .const c => c.value
  | .number t => t.value read
  | .str pieces => .str (strValue pieces)
  | .list items => .list (Doc.values items)
  | .dict fields => .dict (pyDict (Doc.pairs fields))
termination_by structural d => d

/-- The values of items. -/
def Doc.values : List Doc → List PyValue
  | [] => []
  | d :: ds => d.value :: Doc.values ds
termination_by structural ds => ds

/-- A key and a value. -/
def Doc.pair : List Piece × Doc → PyStr × PyValue
  | (key, d) => (strValue key, d.value)
termination_by structural f => f

/-- The keys and values of fields. -/
def Doc.pairs : List (List Piece × Doc) → List (PyStr × PyValue)
  | [] => []
  | f :: fs => Doc.pair f :: Doc.pairs fs
termination_by structural fs => fs

end

end

section

variable {read : Number → BitVec 64} {sp fuel : ℕ} {cs cs' rest : List Char} {key : List Piece}
  {v : PyValue}

lemma skipSpace_blanks (h : Opens cs) : skipSpace (blanks sp ++ cs) = cs := by
  induction sp with
  | zero => exact h.skipSpace
  | succ sp ih =>
      show skipSpace (' ' :: (blanks sp ++ cs)) = cs
      rw [skipSpace, List.dropWhile_cons_of_pos (by decide)]
      exact ih

lemma opens_digit {c : Char} (hc : isDigit c = true) (cs : List Char) : Opens (c :: cs) := by
  obtain ⟨hlow, hhigh⟩ := isDigit_iff.mp hc
  have hne : ∀ b : Char, b.toNat < 48 ∨ 58 ≤ b.toNat → c ≠ b := by
    rintro b hb rfl
    omega
  refine ⟨c, cs, rfl, ?_, hne ']' (by decide), hne '}' (by decide)⟩
  simp only [List.mem_cons, List.not_mem_nil, or_false, not_or]
  exact ⟨hne _ (by decide), hne _ (by decide), hne _ (by decide), hne _ (by decide)⟩

lemma opens_signed {c : Char} (hc : isDigit c = true) (neg : Bool) (cs : List Char) :
    Opens ((if neg then ['-'] else []) ++ c :: cs) := by
  cases neg with
  | true => exact ⟨'-', c :: cs, rfl, by decide, by decide, by decide⟩
  | false => exact opens_digit hc cs

lemma Number.text_cons {t : Number} {c : Char} {cs : List Char} (hint : t.int = c :: cs) :
    t.text = (if t.neg then ['-'] else []) ++
      c :: (cs ++ ((if t.frac = [] then [] else '.' :: t.frac) ++ (t.mark ++ t.exp))) := by
  simp [Number.text, Number.unsigned, hint]

lemma Number.Shaped.opens {t : Number} (hs : t.Shaped) : Opens t.text := by
  obtain ⟨c, cs, hint, hc⟩ := hs.head
  rw [Number.text_cons hint]
  exact opens_signed hc t.neg _

lemma Doc.Readable.opens {d : Doc} (h : d.Readable) : Opens (d.text sp) := by
  cases d with
  | const c => cases c <;> exact ⟨_, _, rfl, by decide, by decide, by decide⟩
  | number t =>
      have htext : Doc.text sp (.number t) = t.text := List.append_nil _
      rw [htext]
      exact h.1.opens
  | str pieces => exact ⟨_, _, rfl, by decide, by decide, by decide⟩
  | list items => cases items <;> exact ⟨_, _, rfl, by decide, by decide, by decide⟩
  | dict fields => cases fields <;> exact ⟨_, _, rfl, by decide, by decide, by decide⟩

lemma scanValue_atom (fuel : ℕ) (h : ∀ c ∈ cs.head?, c ≠ '"' ∧ c ≠ '[' ∧ c ≠ '{') :
    scanValue read (fuel + 1) cs = scanAtom read cs := by
  rw [scanValue]
  · exact fun _ heq => (h '"' (by rw [heq]; rfl)).1 rfl
  · exact fun _ heq => (h '[' (by rw [heq]; rfl)).2.1 rfl
  · exact fun _ heq => (h '{' (by rw [heq]; rfl)).2.2 rfl

/-- A text that starts like a number is left to it. -/
lemma scanValue_signed {c : Char} (hc : isDigit c = true) (neg : Bool) (fuel : ℕ) :
    scanValue read (fuel + 1) ((if neg then ['-'] else []) ++ c :: cs) =
      scanAtom read ((if neg then ['-'] else []) ++ c :: cs) := by
  refine scanValue_atom fuel fun b hb => ?_
  cases neg with
  | true =>
      obtain rfl : '-' = b := Option.some.inj hb
      decide
  | false =>
      obtain rfl : c = b := Option.some.inj hb
      refine ⟨?_, ?_, ?_⟩ <;> rintro rfl <;> cases hc

lemma scanValue_number {t : Number} (hs : t.Shaped) (hu : t.Unpadded) (hshort : t.Short)
    (hrest : Ends rest) :
    scanValue read (fuel + 1) (t.text ++ rest) = some (t.value read, rest) := by
  obtain ⟨c, cs, hunsigned, hc⟩ := hs.unsigned_head
  have htext : t.text ++ rest = (if t.neg then ['-'] else []) ++ c :: (cs ++ rest) := by
    rw [← List.cons_append, ← hunsigned]
    exact List.append_assoc _ _ _
  rw [htext, scanValue_signed hc, ← htext, scanAtom_number hs hu hshort hrest]

lemma scanValue_list (hcs : Opens cs) :
    scanValue read (fuel + 1) ('[' :: cs) = (scanItems read fuel cs).map fun r =>
      (.list r.1, r.2) := by
  rw [scanValue, hcs.skipSpace]
  split
  · obtain ⟨c, cs', heq, -, hclose, -⟩ := hcs
    exact absurd (List.cons.inj heq).1.symm hclose
  · cases scanItems read fuel cs <;> rfl

lemma scanValue_dict (hcs : Opens cs) :
    scanValue read (fuel + 1) ('{' :: cs) = (scanFields read fuel cs).map fun r =>
      (.dict (pyDict r.1), r.2) := by
  rw [scanValue, hcs.skipSpace]
  split
  · obtain ⟨c, cs', heq, -, -, hclose⟩ := hcs
    exact absurd (List.cons.inj heq).1.symm hclose
  · cases scanFields read fuel cs <;> rfl

lemma scanItems_last (h : scanValue read fuel cs = some (v, ']' :: rest)) :
    scanItems read (fuel + 1) cs = some ([v], rest) := by
  rw [scanItems, h]
  rfl

lemma scanItems_more (h : scanValue read fuel cs = some (v, ',' :: (blanks sp ++ cs')))
    (hcs' : Opens cs') :
    scanItems read (fuel + 1) cs = (scanItems read fuel cs').map fun r => (v :: r.1, r.2) := by
  have hcomma : skipSpace (',' :: (blanks sp ++ cs')) = ',' :: (blanks sp ++ cs') := rfl
  rw [scanItems, h]
  simp only [Option.bind_eq_bind, Option.bind_some, hcomma, skipSpace_blanks hcs']
  cases scanItems read fuel cs' <;> rfl

/-- A field, up to what stands after its value. -/
lemma scanFields_last (hkey : ∀ p ∈ key, p.Ok) (hcs : Opens cs)
    (h : scanValue read fuel cs = some (v, '}' :: rest)) :
    scanFields read (fuel + 1) ('"' :: (closed key ++ ':' :: (blanks sp ++ cs))) =
      some ([(strValue key, v)], rest) := by
  have hcolon : skipSpace (':' :: (blanks sp ++ cs)) = ':' :: (blanks sp ++ cs) := rfl
  have hbrace : skipSpace ('}' :: rest) = '}' :: rest := rfl
  rw [scanFields, scanString_length hkey]
  simp only [Option.bind_eq_bind, Option.bind_some, hcolon, skipSpace_blanks hcs, h, hbrace]
  rfl

lemma scanFields_more (hkey : ∀ p ∈ key, p.Ok) (hcs : Opens cs)
    (h : scanValue read fuel cs = some (v, ',' :: (blanks sp ++ cs'))) (hcs' : Opens cs') :
    scanFields read (fuel + 1) ('"' :: (closed key ++ ':' :: (blanks sp ++ cs))) =
      (scanFields read fuel cs').map fun r => ((strValue key, v) :: r.1, r.2) := by
  have hcolon : skipSpace (':' :: (blanks sp ++ cs)) = ':' :: (blanks sp ++ cs) := rfl
  have hcomma : skipSpace (',' :: (blanks sp ++ cs')) = ',' :: (blanks sp ++ cs') := rfl
  rw [scanFields, scanString_length hkey]
  simp only [Option.bind_eq_bind, Option.bind_some, hcolon, skipSpace_blanks hcs, h, hcomma,
    skipSpace_blanks hcs']
  cases scanFields read fuel cs' <;> rfl

end

section

variable (read : Number → BitVec 64) (sp : ℕ)

lemma opens_field (f : List Piece × Doc) : Opens (textOf (Doc.fieldTokens sp f)) := by
  obtain ⟨key, d⟩ := f
  exact ⟨'"', _, rfl, by decide, by decide, by decide⟩

/-- The items of a list. -/
def Doc.items : List Doc → List Token
  | [] => []
  | d :: ds => d.tokens sp ++ Doc.moreItems sp ds

/-- The fields of a dictionary. -/
def Doc.fields : List (List Piece × Doc) → List Token
  | [] => []
  | f :: fs => Doc.fieldTokens sp f ++ Doc.moreFields sp fs

lemma opens_items {ds : List Doc} (h : Doc.ReadableItems ds) (hne : ds ≠ []) :
    Opens (textOf (Doc.items sp ds)) := by
  obtain ⟨d, ds, rfl⟩ := List.exists_cons_of_ne_nil hne
  rw [Doc.items, textOf_append]
  exact h.1.opens.append _

lemma opens_fields {fs : List (List Piece × Doc)} (hne : fs ≠ []) :
    Opens (textOf (Doc.fields sp fs)) := by
  obtain ⟨f, fs, rfl⟩ := List.exists_cons_of_ne_nil hne
  rw [Doc.fields, textOf_append]
  exact (opens_field sp f).append _

lemma text_list {ds : List Doc} (hne : ds ≠ []) (rest : List Char) :
    Doc.text sp (.list ds) ++ rest = '[' :: (textOf (Doc.items sp ds) ++ ']' :: rest) := by
  obtain ⟨d, ds, rfl⟩ := List.exists_cons_of_ne_nil hne
  simp [Doc.text, Doc.tokens, Doc.items, Token.text]

lemma text_dict {fs : List (List Piece × Doc)} (hne : fs ≠ []) (rest : List Char) :
    Doc.text sp (.dict fs) ++ rest = '{' :: (textOf (Doc.fields sp fs) ++ '}' :: rest) := by
  obtain ⟨f, fs, rfl⟩ := List.exists_cons_of_ne_nil hne
  simp [Doc.text, Doc.tokens, Doc.fields, Token.text]

lemma text_items (d d' : Doc) (ds : List Doc) (rest : List Char) :
    textOf (Doc.items sp (d :: d' :: ds)) ++ rest =
      d.text sp ++ ',' :: (blanks sp ++ (textOf (Doc.items sp (d' :: ds)) ++ rest)) := by
  simp [Doc.items, Doc.moreItems, Doc.text, Token.text]

lemma text_fields (key : List Piece) (d : Doc) (f : List Piece × Doc) (fs : List (List Piece × Doc))
    (rest : List Char) :
    textOf (Doc.fields sp ((key, d) :: f :: fs)) ++ rest =
      '"' :: (closed key ++ ':' :: (blanks sp ++
      (d.text sp ++ ',' :: (blanks sp ++ (textOf (Doc.fields sp (f :: fs)) ++ rest))))) := by
  simp [Doc.fields, Doc.moreFields, Doc.fieldTokens, Doc.text, Token.text]

mutual

/-- **A document is read as its value.**  The induction is over the document, with its lists of
items and of fields. -/
lemma scanValue_text :
    ∀ d : Doc, d.Readable → ∀ {fuel : ℕ} {rest : List Char}, (d.text sp).length ≤ fuel →
    Ends rest → scanValue read fuel (d.text sp ++ rest) = some (d.value read, rest)
  | d, hd, 0, _, hfuel, _ => by
      have hopens : Opens (d.text sp) := hd.opens
      obtain ⟨c, cs, hcons, -⟩ := hopens
      simp [hcons] at hfuel
  | .const c, _, fuel + 1, rest, _, _ => by cases c <;> rfl
  | .number t, hd, fuel + 1, rest, _, hrest => by
      have htext : Doc.text sp (.number t) = t.text := List.append_nil _
      rw [htext]
      exact scanValue_number hd.1 hd.2.1 hd.2.2 hrest
  | .str pieces, hd, fuel + 1, rest, _, _ => by
      have htext : Doc.text sp (.str pieces) ++ rest = '"' :: (closed pieces ++ rest) := by
        simp [Doc.text, Doc.tokens, Token.text]
      rw [htext, scanValue, scanString_length hd]
      rfl
  | .list [], _, fuel + 1, rest, _, _ => rfl
  | .list (d :: ds), hd, fuel + 1, rest, hfuel, _ => by
      have htext := text_list sp (List.cons_ne_nil d ds) []
      have hlength := congrArg List.length htext
      simp only [List.length_append, List.length_cons, List.length_nil] at hlength
      have hlt : (textOf (Doc.items sp (d :: ds))).length < fuel := by omega
      have hitems := scanItems_text (d :: ds) hd (by simp) hlt rest
      rw [text_list sp (List.cons_ne_nil d ds),
        scanValue_list ((opens_items sp hd (by simp)).append _), hitems]
      rfl
  | .dict [], _, fuel + 1, rest, _, _ => rfl
  | .dict (f :: fs), hd, fuel + 1, rest, hfuel, _ => by
      have htext := text_dict sp (List.cons_ne_nil f fs) []
      have hlength := congrArg List.length htext
      simp only [List.length_append, List.length_cons, List.length_nil] at hlength
      have hlt : (textOf (Doc.fields sp (f :: fs))).length < fuel := by omega
      have hfields := scanFields_text (f :: fs) hd (by simp) hlt rest
      rw [text_dict sp (List.cons_ne_nil f fs),
        scanValue_dict ((opens_fields sp (by simp)).append _), hfields]
      rfl
termination_by structural d => d

lemma scanItems_text : ∀ ds : List Doc, Doc.ReadableItems ds → ds ≠ [] → ∀ {fuel : ℕ},
    (textOf (Doc.items sp ds)).length < fuel → ∀ rest : List Char,
    scanItems read fuel (textOf (Doc.items sp ds) ++ ']' :: rest) = some (Doc.values read ds, rest)
  | [d], hds, _, fuel + 1, hfuel, rest => by
      have htext : textOf (Doc.items sp [d]) = d.text sp := by
        simp [Doc.items, Doc.moreItems, Doc.text]
      rw [htext] at hfuel ⊢
      have hvalue := scanValue_text d hds.1 (show (d.text sp).length ≤ fuel by omega)
        (show Ends (']' :: rest) by simp [Ends])
      exact scanItems_last hvalue
  | d :: d' :: ds, hds, _, fuel + 1, hfuel, rest => by
      have hlength := congrArg List.length (text_items sp d d' ds [])
      simp only [List.length_append, List.length_cons, List.length_nil] at hlength
      have hvalue := scanValue_text d hds.1 (show (d.text sp).length ≤ fuel by omega)
        (show Ends (',' :: (blanks sp ++ (textOf (Doc.items sp (d' :: ds)) ++ ']' :: rest))) by
          simp [Ends])
      have hlt : (textOf (Doc.items sp (d' :: ds))).length < fuel := by omega
      have hmore := scanItems_text (d' :: ds) hds.2 (by simp) hlt rest
      rw [text_items, scanItems_more hvalue ((opens_items sp hds.2 (by simp)).append _), hmore]
      rfl
termination_by structural ds => ds

lemma scanField_text :
    ∀ f : List Piece × Doc, Doc.ReadableField f → ∀ {fuel : ℕ} {rest : List Char},
    (f.2.text sp).length ≤ fuel → Ends rest →
    scanValue read fuel (f.2.text sp ++ rest) = some (f.2.value read, rest)
  | (_, d), hf, _, _, hfuel, hrest => scanValue_text d hf.2 hfuel hrest
termination_by structural f => f

lemma scanFields_text :
    ∀ fs : List (List Piece × Doc), Doc.ReadableFields fs → fs ≠ [] → ∀ {fuel : ℕ},
    (textOf (Doc.fields sp fs)).length < fuel → ∀ rest : List Char,
    scanFields read fuel (textOf (Doc.fields sp fs) ++ '}' :: rest) = some (Doc.pairs read fs, rest)
  | [(key, d)], hfs, _, fuel + 1, hfuel, rest => by
      have htext : ∀ rest, textOf (Doc.fields sp [(key, d)]) ++ rest =
          '"' :: (closed key ++ ':' :: (blanks sp ++ (d.text sp ++ rest))) := fun rest => by
        simp [Doc.fields, Doc.moreFields, Doc.fieldTokens, Doc.text, Token.text]
      have hlength := congrArg List.length (htext [])
      simp only [List.length_append, List.length_cons, List.length_nil] at hlength
      have hvalue := scanField_text (key, d) hfs.1 (show (d.text sp).length ≤ fuel by omega)
        (show Ends ('}' :: rest) by simp [Ends])
      rw [htext]
      exact scanFields_last hfs.1.1 (hfs.1.2.opens.append _) hvalue
  | (key, d) :: f :: fs, hfs, _, fuel + 1, hfuel, rest => by
      have hlength := congrArg List.length (text_fields sp key d f fs [])
      simp only [List.length_append, List.length_cons, List.length_nil] at hlength
      have hvalue := scanField_text (key, d) hfs.1 (show (d.text sp).length ≤ fuel by omega)
        (show Ends (',' :: (blanks sp ++ (textOf (Doc.fields sp (f :: fs)) ++ '}' :: rest))) by
          simp [Ends])
      have hlt : (textOf (Doc.fields sp (f :: fs))).length < fuel := by omega
      have hmore := scanFields_text (f :: fs) hfs.2 (by simp) hlt rest
      rw [text_fields, scanFields_more hfs.1.1 (hfs.1.2.opens.append _) hvalue
        ((opens_fields sp (by simp)).append _), hmore]
      rfl
termination_by structural fs => fs

end

variable {sp} {d : Doc}

/-- **The text of a document is read as its value.** -/
lemma loadsText_text (hd : d.Readable) : loadsText read (d.text sp) = some (d.value read) := by
  have hscan := scanValue_text read sp d hd (Nat.le_succ _) (show Ends [] by simp [Ends])
  rw [List.append_nil] at hscan
  rw [loadsText, hd.opens.skipSpace, hscan]
  rfl

lemma decodeBody_dict (fs : List (List Piece × Doc)) :
    decodeBody (utf8 (Doc.text sp (.dict fs))) = .ok (Doc.text sp (.dict fs)) := by
  obtain ⟨c, cs, hcons, hc⟩ : ∃ c cs, Doc.text sp (.dict fs) = '{' :: c :: cs ∧
      (c = '"' ∨ c = '}') := by
    rcases fs with _ | ⟨⟨key, d⟩, fs⟩
    · exact ⟨_, _, rfl, .inr rfl⟩
    · exact ⟨_, _, rfl, .inl rfl⟩
  rw [hcons]
  exact decodeBody_braceText hc cs

lemma loads_text {fs : List (List Piece × Doc)} (hd : (Doc.dict fs).Readable) :
    loads read (utf8 (Doc.text sp (.dict fs))) = some ((Doc.dict fs).value read) := by
  rw [loads, decodeBody_dict]
  exact loadsText_text read hd

end

end PyJson

end LedgerProof
