import LedgerProof.Lib.PyJsonEdit
import LedgerProof.Lib.PyRepr

/-!
# The digits of a document

A digit of a JSON text stands in a number or in a string, as a mark has none.  In a string it is a
character or a digit of a `\u` escape, and any other digit in its place makes another string
(`exists_str_flip`).  The first digit of a number can become another one too, but for two kinds of
numbers: with a zero in front of more digits it is not a number any more (`Number.Padded`), and the
smallest doubles are too close together (`readFloat_flip`).

`Spelled` is what the tokens of a value look like that `dumps` wrote.
-/

namespace LedgerProof

namespace PyJson

/-! ## The tokens of a value -/

/-- Brackets, commas, colons and constants. -/
def marksOf (sp : ℕ) : List (List Char) :=
  [['['], [']'], ['{'], ['}'], ',' :: blanks sp, ':' :: blanks sp] ++
    [Const.null, .true, .false, .nan, .infinity, .negInfinity].map Const.text

/-- A token as `dumps` writes it. -/
inductive Spelled (repr : BitVec 64 → Number) (sp : ℕ) : Token → Prop
  | mark {text : List Char} (h : text ∈ marksOf sp) : Spelled repr sp (.mark text)
  | int {n : ℤ} (h : (natDecimal n.natAbs).length ≤ maxStrDigits) :
      Spelled repr sp (.number (numberOf n))
  | float {bits : BitVec 64} (h : isFinite bits = true) : Spelled repr sp (.number (repr bits))
  | str {ps : List Piece} (h : ∀ p ∈ ps, p.Ok) : Spelled repr sp (.str ps)

section

variable {repr : BitVec 64 → Number} {ok : BitVec 64 → Prop} {sp : ℕ} {l : Token}

lemma const_mem_marksOf (c : Const) : c.text ∈ marksOf sp :=
  List.mem_append_right _ (List.mem_map_of_mem (by cases c <;> decide))

lemma mem_tokens_list {ds : List Doc} (h : l ∈ Doc.tokens sp (.list ds)) :
    (∃ text ∈ marksOf sp, l = .mark text) ∨ ∃ d ∈ ds, l ∈ d.tokens sp := by
  by_cases hne : ds = []
  · subst hne
    simp only [Doc.tokens, List.mem_cons, List.not_mem_nil, or_false] at h
    exact .inl (h.elim (fun h => ⟨_, by simp [marksOf], h⟩) fun h => ⟨_, by simp [marksOf], h⟩)
  · rw [tokens_list hne, List.mem_cons, List.mem_append, List.mem_singleton] at h
    rcases h with h | h | h
    · exact .inl ⟨_, by simp [marksOf], h⟩
    · have hitem : l ∈ .mark (',' :: blanks sp) :: Doc.items sp ds := List.mem_cons_of_mem _ h
      rw [comma_items hne] at hitem
      obtain ⟨d, hd, hl⟩ := List.mem_flatMap.mp hitem
      rcases List.mem_cons.mp hl with hl | hl
      · exact .inl ⟨_, by simp [marksOf], hl⟩
      · exact .inr ⟨d, hd, hl⟩
    · exact .inl ⟨_, by simp [marksOf], h⟩

lemma mem_tokens_dict {fs : List (List Piece × Doc)} (h : l ∈ Doc.tokens sp (.dict fs)) :
    (∃ text ∈ marksOf sp, l = .mark text) ∨ ∃ f ∈ fs, l = .str f.1 ∨ l ∈ f.2.tokens sp := by
  by_cases hne : fs = []
  · subst hne
    simp only [Doc.tokens, List.mem_cons, List.not_mem_nil, or_false] at h
    exact .inl (h.elim (fun h => ⟨_, by simp [marksOf], h⟩) fun h => ⟨_, by simp [marksOf], h⟩)
  · rw [tokens_dict hne, List.mem_cons, List.mem_append, List.mem_singleton] at h
    rcases h with h | h | h
    · exact .inl ⟨_, by simp [marksOf], h⟩
    · have hfield : l ∈ .mark (',' :: blanks sp) :: Doc.fields sp fs := List.mem_cons_of_mem _ h
      rw [comma_fields hne] at hfield
      obtain ⟨⟨key, d⟩, hf, hl⟩ := List.mem_flatMap.mp hfield
      have hl : l ∈ .mark (',' :: blanks sp) :: .str key :: .mark (':' :: blanks sp) ::
          d.tokens sp := hl
      simp only [List.mem_cons] at hl
      rcases hl with hl | hl | hl | hl
      · exact .inl ⟨_, by simp [marksOf], hl⟩
      · exact .inr ⟨_, hf, .inl hl⟩
      · exact .inl ⟨_, by simp [marksOf], hl⟩
      · exact .inr ⟨_, hf, .inr hl⟩
    · exact .inl ⟨_, by simp [marksOf], h⟩

lemma spelled_docOfFloat (bits : BitVec 64) :
    ∀ l ∈ (docOfFloat repr bits).tokens sp, Spelled repr sp l := by
  intro l hl
  unfold docOfFloat at hl
  split_ifs at hl with hfinite
  · rw [List.mem_singleton.mp hl]
    exact .float hfinite
  all_goals
    rw [List.mem_singleton.mp hl]
    exact .mark (const_mem_marksOf _)

mutual

/-- **What the tokens of a value are.** -/
lemma spelled_docOf : ∀ v : PyValue, Loaded ok v → ∀ l ∈ (docOf repr v).tokens sp, Spelled repr sp l
  | .none, _, l, hl => by
      rw [List.mem_singleton.mp hl]
      exact .mark (const_mem_marksOf _)
  | .bool b, _, l, hl => by
      rw [List.mem_singleton.mp hl]
      exact .mark (const_mem_marksOf _)
  | .int n, hv, l, hl => by
      rw [List.mem_singleton.mp hl]
      exact .int hv
  | .float bits, _, l, hl => spelled_docOfFloat bits l hl
  | .str s, hv, l, hl => by
      rw [List.mem_singleton.mp hl]
      exact .str hv.ok
  | .list items, hv, l, hl => by
      rcases mem_tokens_list hl with ⟨text, htext, rfl⟩ | ⟨d, hd, hl⟩
      · exact .mark htext
      · exact spelled_docsOf items hv d hd l hl
  | .dict fields, hv, l, hl => by
      rcases mem_tokens_dict hl with ⟨text, htext, rfl⟩ | ⟨f, hf, hl⟩
      · exact .mark htext
      · obtain ⟨hkey, hvalue⟩ := spelled_fieldsOf fields hv.2 f hf
        rcases hl with rfl | hl
        · exact .str hkey
        · exact hvalue l hl
termination_by structural v => v

lemma spelled_docsOf :
    ∀ vs : List PyValue, LoadedItems ok vs → ∀ d ∈ docsOf repr vs, ∀ l ∈ d.tokens sp,
    Spelled repr sp l
  | [], _, d, hd, _, _ => absurd hd List.not_mem_nil
  | v :: vs, hvs, d, hd, l, hl => by
      rcases List.mem_cons.mp hd with rfl | hd
      · exact spelled_docOf v hvs.1 l hl
      · exact spelled_docsOf vs hvs.2 d hd l hl
termination_by structural vs => vs

lemma spelled_fieldOf : ∀ f : PyStr × PyValue, LoadedField ok f →
    (∀ p ∈ (fieldOf repr f).1, p.Ok) ∧ ∀ l ∈ (fieldOf repr f).2.tokens sp, Spelled repr sp l
  | (_, v), hf => ⟨hf.1.ok, spelled_docOf v hf.2⟩
termination_by structural f => f

lemma spelled_fieldsOf : ∀ fs : List (PyStr × PyValue), LoadedFields ok fs → ∀ f ∈ fieldsOf repr fs,
    (∀ p ∈ f.1, p.Ok) ∧ ∀ l ∈ f.2.tokens sp, Spelled repr sp l
  | [], _, f, hf => absurd hf List.not_mem_nil
  | f' :: fs, hfs, f, hf => by
      rcases List.mem_cons.mp hf with rfl | hf
      · exact spelled_fieldOf f' hfs.1
      · exact spelled_fieldsOf fs hfs.2 f hf
termination_by structural fs => fs

end

lemma keys_fieldsOf : ∀ fs : List (PyStr × PyValue), LoadedFields ok fs →
    (fieldsOf repr fs).map (fun f => strValue f.1) = fs.map Prod.fst
  | [], _ => rfl
  | (key, v) :: fs, hfs => by
      have hkey : strValue (fieldOf repr (key, v)).1 = key := hfs.1.1.strValue
      rw [fieldsOf, List.map_cons, List.map_cons, hkey, keys_fieldsOf fs hfs.2]

mutual

/-- **No key is there twice.** -/
lemma distinct_docOf : ∀ v : PyValue, Loaded ok v → (docOf repr v).Distinct
  | .none, _ => .const _
  | .bool _, _ => .const _
  | .int _, _ => .number _
  | .float bits, _ => by
      show (docOfFloat repr bits).Distinct
      unfold docOfFloat
      split_ifs
      · exact .number _
      all_goals exact .const _
  | .str _, _ => .str _
  | .list items, hv => .list (distinct_docsOf items hv)
  | .dict fields, hv => by
      refine .dict ?_ (distinct_fieldsOf fields hv.2)
      rw [keys_fieldsOf fields hv.2]
      exact hv.1
termination_by structural v => v

lemma distinct_docsOf : ∀ vs : List PyValue, LoadedItems ok vs → ∀ d ∈ docsOf repr vs, d.Distinct
  | [], _, d, hd => absurd hd List.not_mem_nil
  | v :: vs, hvs, d, hd => by
      rcases List.mem_cons.mp hd with rfl | hd
      · exact distinct_docOf v hvs.1
      · exact distinct_docsOf vs hvs.2 d hd
termination_by structural vs => vs

lemma distinct_fieldOf : ∀ f : PyStr × PyValue, LoadedField ok f → (fieldOf repr f).2.Distinct
  | (_, v), hf => distinct_docOf v hf.2
termination_by structural f => f

lemma distinct_fieldsOf :
    ∀ fs : List (PyStr × PyValue), LoadedFields ok fs → ∀ f ∈ fieldsOf repr fs, f.2.Distinct
  | [], _, f, hf => absurd hf List.not_mem_nil
  | f' :: fs, hfs, f, hf => by
      rcases List.mem_cons.mp hf with rfl | hf
      · exact distinct_fieldOf f' hfs.1
      · exact distinct_fieldsOf fs hfs.2 f hf
termination_by structural fs => fs

end

end

/-! ## Characters -/

/-- The characters of a number that are not digits. -/
def numberMarks : List Char := ['-', '.', 'e', 'E', '+']

section

variable {repr : BitVec 64 → Number} {sp : ℕ} {l : Token} {t : Number} {ps : List Piece} {c : Char}

lemma Number.Shaped.text_char (hs : t.Shaped) (hc : c ∈ t.text) :
    isDigit c = true ∨ c ∈ numberMarks := by
  have hmark : ∀ c ∈ t.mark, c ∈ numberMarks := by
    rcases hs.mark with ⟨hnil, -⟩ | ⟨hmark, -⟩
    · simp [hnil]
    · have hall : ∀ mark ∈ Number.marks, ∀ c ∈ mark, c ∈ numberMarks := by decide
      exact hall _ hmark
  simp only [Number.text, Number.unsigned, List.mem_append] at hc
  rcases hc with hc | hc | hc | hc | hc
  · split_ifs at hc
    · rw [List.mem_singleton.mp hc]
      exact .inr (by decide)
    · exact absurd hc List.not_mem_nil
  · exact .inl (hs.int c hc)
  · split_ifs at hc
    · exact absurd hc List.not_mem_nil
    · rcases List.mem_cons.mp hc with rfl | hc
      · exact .inr (by decide)
      · exact .inl (hs.frac c hc)
  · exact .inr (hmark c hc)
  · exact .inl (hs.exp c hc)

lemma digitChar_ascii (n : ℕ) : (Nat.digitChar (n % 16)).toNat < 128 := by
  have hall : ∀ k < 16, (Nat.digitChar k).toNat < 128 := by decide
  exact hall _ (Nat.mod_lt _ (by norm_num))

lemma Piece.Ok.text_ascii {p : Piece} (hp : p.Ok) (hc : c ∈ p.text) : c.toNat < 128 := by
  cases p with
  | plain n =>
      obtain ⟨-, hn, -⟩ := hp
      rw [List.mem_singleton.mp hc, toNat_ofNat (by omega)]
      omega
  | short e =>
      have hall : ∀ e ∈ shortEscapes, e.1.toNat < 128 := by decide
      simp only [Piece.text, List.mem_cons, List.not_mem_nil, or_false] at hc
      rcases hc with rfl | rfl
      · decide
      · exact hall e hp
  | unit n =>
      simp only [Piece.text, unicodeEscape, List.mem_cons, List.not_mem_nil, or_false] at hc
      rcases hc with rfl | rfl | rfl | rfl | rfl | rfl
      · decide
      · decide
      all_goals exact digitChar_ascii _

/-- A mark has no digit, and does not end with a letter `a`. -/
lemma marksOf_spec {text : List Char} (h : text ∈ marksOf sp) :
    (∀ c ∈ text, c.toNat < 128 ∧ isDigit c = false) ∧ text.getLast? ≠ some 'a' := by
  have hblanks : ∀ b ∈ [',', ':'], (∀ c ∈ b :: blanks sp, c.toNat < 128 ∧ isDigit c = false) ∧
      (b :: blanks sp).getLast? ≠ some 'a' := by
    intro b hb
    have hchars : ∀ c ∈ b :: blanks sp, c ∈ [',', ':', ' '] := by
      intro c hc
      rcases List.mem_cons.mp hc with heq | hc
      · rw [heq]
        exact (by decide : ∀ b ∈ [',', ':'], b ∈ [',', ':', ' ']) b hb
      · rw [List.eq_of_mem_replicate hc]
        decide
    have hall : ∀ c ∈ [',', ':', ' '], (c.toNat < 128 ∧ isDigit c = false) ∧ c ≠ 'a' := by decide
    exact ⟨fun c hc => (hall c (hchars c hc)).1, fun hlast =>
      (hall 'a' (hchars _ (List.mem_of_getLast? hlast))).2 rfl⟩
  have hrest : ∀ text ∈ [['['], [']'], ['{'], ['}']] ++
      [Const.null, .true, .false, .nan, .infinity, .negInfinity].map Const.text,
      (∀ c ∈ text, c.toNat < 128 ∧ isDigit c = false) ∧ text.getLast? ≠ some 'a' := by decide
  simp only [marksOf, List.mem_append, List.mem_cons, List.not_mem_nil, or_false] at h
  rcases h with (h | h | h | h | rfl | rfl) | h
  · exact hrest text (by simp [h])
  · exact hrest text (by simp [h])
  · exact hrest text (by simp [h])
  · exact hrest text (by simp [h])
  · exact hblanks ',' (by decide)
  · exact hblanks ':' (by decide)
  · exact hrest text (List.mem_append_right _ h)

/-- The spelling of every finite float is read back. -/
def SpellsFinite (read : Number → BitVec 64) (repr : BitVec 64 → Number) : Prop :=
  ∀ {bits : BitVec 64}, isFinite bits = true → Spells read repr bits

lemma Spelled.readable {read : Number → BitVec 64} (hrepr : SpellsFinite read repr)
    (hl : Spelled repr sp l) :
    l.Readable := by
  cases hl with
  | mark => trivial
  | @int n h => exact ⟨numberOf_shaped n, numberOf_unpadded n, fun _ => h⟩
  | @float bits h =>
      obtain ⟨hshaped, hunpadded, hfloat, -⟩ := hrepr h
      refine ⟨hshaped, hunpadded, fun hint => ?_⟩
      rw [hfloat] at hint
      cases hint
  | str h => exact h

lemma Spelled.ascii {read : Number → BitVec 64} (hrepr : SpellsFinite read repr)
    (hl : Spelled repr sp l) (hc : c ∈ l.text) : c.toNat < 128 := by
  have hreadable := hl.readable hrepr
  cases l with
  | mark text =>
      cases hl with
      | mark h => exact ((marksOf_spec h).1 c hc).1
  | number t =>
      rcases hreadable.1.text_char hc with hdigit | hmark
      · have hdecimal := (isDigit_iff.mp hdigit).2
        omega
      · have hall : ∀ c ∈ numberMarks, c.toNat < 128 := by decide
        exact hall c hmark
  | str ps =>
      simp only [Token.text, closed, List.mem_cons, List.mem_append, List.mem_flatMap,
        List.not_mem_nil, or_false] at hc
      rcases hc with rfl | ⟨p, hp, hc⟩ | rfl
      · decide
      · exact (hreadable p hp).text_ascii hc
      · decide

end

/-! ## Quotes -/

section

variable {repr : BitVec 64 → Number} {read : Number → BitVec 64} {sp : ℕ} {ls : List Token}
  {ps : List Piece}
  {u w : List Char} {b : Char}

lemma digitChar_ne_quote (n : ℕ) : Nat.digitChar (n % 16) ≠ '"' := by
  have hall : ∀ k < 16, Nat.digitChar k ≠ '"' := by decide
  exact hall _ (Nat.mod_lt _ (by norm_num))

/-- A quote in a piece stands after a backslash. -/
lemma Piece.Ok.quote {p : Piece} (hp : p.Ok) (htext : p.text = u ++ '"' :: w) : u = ['\\'] := by
  cases p with
  | plain n =>
      obtain ⟨-, hn, hquote, -⟩ := hp
      obtain ⟨-, heq, -⟩ := singleton_eq_append_cons htext
      have hnat := congrArg Char.toNat heq
      rw [toNat_ofNat (by omega)] at hnat
      exact absurd hnat hquote
  | short e =>
      rcases u with _ | ⟨a, _ | ⟨d, u⟩⟩
      · exact absurd (List.cons.inj htext).1 (by decide)
      · rw [← (List.cons.inj htext).1]
      · simp [Piece.text] at htext
  | unit n =>
      have hmem : '"' ∈ (Piece.unit n).text := by simp [htext]
      simp only [Piece.text, unicodeEscape, List.mem_cons, List.not_mem_nil, or_false] at hmem
      rcases hmem with h | h | h | h | h | h
      · exact absurd h (by decide)
      · exact absurd h (by decide)
      all_goals exact absurd h.symm (digitChar_ne_quote _)

/-- **A quote in a string ends it**, but after a backslash. -/
lemma closed_quote (hps : ∀ p ∈ ps, p.Ok) (htext : closed ps = u ++ b :: '"' :: w) (hb : b ≠ '\\') :
    w = [] := by
  have htext : ps.flatMap Piece.text ++ ['"'] = (u ++ [b]) ++ '"' :: w := by
    rw [List.append_assoc]; exact htext
  rcases List.append_eq_append_iff.mp htext with ⟨x, -, hlast⟩ | ⟨x, hpieces, hlast⟩
  · exact (singleton_eq_append_cons hlast).2.2
  · cases x with
    | nil => exact (List.cons.inj hlast).2
    | cons c x =>
        obtain ⟨rfl, rfl⟩ := List.cons.inj hlast
        obtain ⟨ps₁, p, ps₂, x, y, rfl, hp, hbefore, -⟩ := flatMap_eq_append_cons hpieces
        rw [(hps p (by simp)).quote hp] at hbefore
        exact absurd (List.append_inj_right' hbefore rfl) (by simp [hb])

/-- No token ends with a letter `a`. -/
lemma textOf_ne_append_a (hrepr : SpellsFinite read repr) (hls : ∀ l ∈ ls, Spelled repr sp l) :
    textOf ls ≠ u ++ ['a'] := by
  intro htext
  obtain ⟨ls₁, l, ls₂, x, y, rfl, hl, -, hy⟩ := flatMap_eq_append_cons htext
  obtain ⟨rfl, -⟩ := List.append_eq_nil_iff.mp hy.symm
  have hspelled := hls l (by simp)
  have hlast : l.text.getLast? = some 'a' := by simp [hl]
  have hreadable := hspelled.readable hrepr
  cases l with
  | mark text =>
      cases hspelled with
      | mark h => exact (marksOf_spec h).2 hlast
  | number t =>
      rcases hreadable.1.text_char (List.mem_of_getLast? hlast) with hdigit | hmark
      · cases hdigit
      · exact absurd hmark (by decide)
  | str ps =>
      have hquote : (Token.str ps).text = ('"' :: ps.flatMap Piece.text) ++ ['"'] := rfl
      rw [hquote, List.getLast?_concat] at hlast
      exact absurd (Option.some.inj hlast) (by decide)

end

/-! ## Another digit -/

section

variable {c c' : Char} {u v x y : List Char}

lemma exists_digitChar (hc : isDigit c = true) : ∃ k < 16, c = Nat.digitChar k := by
  obtain ⟨hlow, hhigh⟩ := isDigit_iff.mp hc
  have hk : c.toNat - 48 < 10 := by omega
  refine ⟨c.toNat - 48, by omega, Char.toNat_inj.mp ?_⟩
  rw [Nat.toNat_digitChar_of_lt_ten hk]
  omega

lemma unicodeEscape_nibbles {i j k l : ℕ} (hi : i < 16) (hj : j < 16) (hk : k < 16) (hl : l < 16) :
    unicodeEscape (((i * 16 + j) * 16 + k) * 16 + l) =
      ['\\', 'u', Nat.digitChar i, Nat.digitChar j, Nat.digitChar k, Nat.digitChar l] := by
  have hfirst : (((i * 16 + j) * 16 + k) * 16 + l) / 4096 % 16 = i := by omega
  have hsecond : (((i * 16 + j) * 16 + k) * 16 + l) / 256 % 16 = j := by omega
  have hthird : (((i * 16 + j) * 16 + k) * 16 + l) / 16 % 16 = k := by omega
  have hfourth : (((i * 16 + j) * 16 + k) * 16 + l) % 16 = l := by omega
  rw [unicodeEscape, hfirst, hsecond, hthird, hfourth]

lemma exists_unit_flip {n : ℕ} (htext : unicodeEscape n = u ++ c :: v) (hc : isDigit c = true)
    (hc' : isDigit c' = true) : ∃ n' < 0x10000, unicodeEscape n' = u ++ c' :: v := by
  obtain ⟨k, hk, rfl⟩ := exists_digitChar hc'
  have hnibble : ∀ m, m % 16 < 16 := fun m => Nat.mod_lt _ (by norm_num)
  have hlt : ∀ {a b d e : ℕ}, a < 16 → b < 16 → d < 16 → e < 16 →
      ((a * 16 + b) * 16 + d) * 16 + e < 0x10000 := by
    intros
    omega
  have hi := hnibble (n / 4096)
  have hj := hnibble (n / 256)
  have hl := hnibble (n / 16)
  have hm := hnibble n
  -- The digit is one of the four, and the other three stay.
  rcases u with _ | ⟨_, _ | ⟨_, _ | ⟨_, _ | ⟨_, _ | ⟨_, _ | ⟨_, u⟩⟩⟩⟩⟩⟩
  · obtain ⟨rfl, -⟩ := List.cons.inj htext
    cases hc
  · simp only [unicodeEscape, List.cons_append, List.nil_append, List.cons.injEq] at htext
    obtain ⟨-, rfl, -⟩ := htext
    cases hc
  · simp only [unicodeEscape, List.cons_append, List.nil_append, List.cons.injEq] at htext
    obtain ⟨rfl, rfl, -, rfl⟩ := htext
    exact ⟨_, hlt hk hj hl hm, unicodeEscape_nibbles hk hj hl hm⟩
  · simp only [unicodeEscape, List.cons_append, List.nil_append, List.cons.injEq] at htext
    obtain ⟨rfl, rfl, rfl, -, rfl⟩ := htext
    exact ⟨_, hlt hi hk hl hm, unicodeEscape_nibbles hi hk hl hm⟩
  · simp only [unicodeEscape, List.cons_append, List.nil_append, List.cons.injEq] at htext
    obtain ⟨rfl, rfl, rfl, rfl, -, rfl⟩ := htext
    exact ⟨_, hlt hi hj hk hm, unicodeEscape_nibbles hi hj hk hm⟩
  · simp only [unicodeEscape, List.cons_append, List.nil_append, List.cons.injEq] at htext
    obtain ⟨rfl, rfl, rfl, rfl, rfl, -, rfl⟩ := htext
    exact ⟨_, hlt hi hj hl hk, unicodeEscape_nibbles hi hj hl hk⟩
  · simp [unicodeEscape] at htext

/-- A digit of a piece can be any digit, and another one makes another code unit. -/
lemma Piece.Ok.exists_flip {p : Piece} (hp : p.Ok) (htext : p.text = u ++ c :: v)
    (hc : isDigit c = true) (hc' : isDigit c' = true) (hne : c' ≠ c) :
    ∃ p' : Piece, p'.Ok ∧ p'.text = u ++ c' :: v ∧ p'.code ≠ p.code := by
  have hmem : c ∈ p.text := by simp [htext]
  have hother : u ++ c' :: v ≠ u ++ c :: v :=
    fun heq => hne (List.cons.inj (List.append_cancel_left heq)).1
  cases p with
  | plain n =>
      obtain ⟨rfl, -, rfl⟩ := singleton_eq_append_cons htext
      obtain ⟨hlow, hhigh⟩ := isDigit_iff.mp hc'
      have htext' : (Piece.plain c'.toNat).text = [] ++ [c'] :=
        congrArg (fun d => [d]) (Char.ofNat_toNat c')
      refine ⟨.plain c'.toNat, ⟨by omega, by omega, by omega, by omega⟩, htext', fun hcode =>
        hother ?_⟩
      rw [← htext', ← htext, show c'.toNat = n from hcode]
  | short e =>
      have hall : ∀ e ∈ shortEscapes, isDigit '\\' = false ∧ isDigit e.1 = false := by decide
      obtain ⟨hslash, hletter⟩ := hall e hp
      simp only [Piece.text, List.mem_cons, List.not_mem_nil, or_false] at hmem
      rcases hmem with rfl | rfl
      · rw [hslash] at hc
        cases hc
      · rw [hletter] at hc
        cases hc
  | unit n =>
      obtain ⟨n', hn', htext'⟩ := exists_unit_flip htext hc hc'
      refine ⟨.unit n', hn', htext', fun hcode => hother ?_⟩
      rw [← htext', ← htext, show n' = n from hcode]
      rfl

/-- **A digit of a string can be any digit, and each makes another string.** -/
lemma exists_str_flip {ps : List Piece} (hps : ∀ p ∈ ps, p.Ok)
    (htext : (Token.str ps).text = x ++ c :: y) (hc : isDigit c = true) (hc' : isDigit c' = true)
    (hne : c' ≠ c) :
    ∃ ps', (∀ p ∈ ps', p.Ok) ∧ (Token.str ps').text = x ++ c' :: y ∧
      strValue ps' ≠ strValue ps := by
  have hquote : c ≠ '"' := by
    rintro rfl
    cases hc
  -- The digit is not a quote, so it is in a piece.
  cases x with
  | nil => exact absurd (List.cons.inj htext).1.symm hquote
  | cons q x =>
      obtain ⟨rfl, hclosed⟩ := List.cons.inj htext
      obtain ⟨y', hpieces, rfl⟩ : ∃ y', ps.flatMap Piece.text = x ++ c :: y' ∧ y = y' ++ ['"'] := by
        rcases List.append_eq_append_iff.mp hclosed with ⟨x', rfl, hlast⟩ | ⟨y', hpieces, hlast⟩
        · exact absurd (singleton_eq_append_cons hlast).2.1.symm hquote
        · cases y' with
          | nil => exact absurd (List.cons.inj hlast).1 hquote
          | cons d y' =>
              obtain ⟨rfl, rfl⟩ := List.cons.inj hlast
              exact ⟨y', hpieces, rfl⟩
      obtain ⟨ps₁, p, ps₂, u, v, rfl, hp, rfl, rfl⟩ := flatMap_eq_append_cons hpieces
      obtain ⟨p', hp', htext', hcode⟩ := (hps p (by simp)).exists_flip hp hc hc' hne
      have hps' : ∀ q ∈ ps₁ ++ p' :: ps₂, q.Ok := by
        simp only [List.forall_mem_append, List.forall_mem_cons] at hps ⊢
        exact ⟨hps.1, hp', hps.2.2⟩
      have hunits : ∀ {ps : List Piece}, (∀ p ∈ ps, p.Ok) → ∀ n ∈ ps.map Piece.code,
          n < 0x10000 := by
        intro ps hps n hn
        obtain ⟨p, hp, rfl⟩ := List.mem_map.mp hn
        exact (hps p hp).code_lt
      refine ⟨ps₁ ++ p' :: ps₂, hps', ?_, fun hvalue => ?_⟩
      · simp [Token.text, closed, htext']
      · have hcodes := combine_injective (hunits hps') (hunits hps) hvalue
        rw [List.map_append, List.map_append, List.map_cons, List.map_cons] at hcodes
        exact hcode (List.cons.inj (List.append_cancel_left hcodes)).1

/-! ## Numbers -/

variable {t : Number} {cs : List Char}

/-- A list is split at its first element of a kind in one way. -/
lemma first_unique {α : Type} {p : α → Bool} {a b : α} {ys zs : List α} (ha : p a = true)
    (hb : p b = true) :
    ∀ {xs ws : List α}, (∀ x ∈ xs, p x = false) → (∀ w ∈ ws, p w = false) →
      xs ++ a :: ys = ws ++ b :: zs →
      xs = ws ∧ a = b ∧ ys = zs
  | [], [], _, _, h => ⟨rfl, List.cons.inj h⟩
  | [], w :: ws, _, hws, h => by
      obtain ⟨rfl, -⟩ := List.cons.inj h
      exact absurd ha (by simp [hws a List.mem_cons_self])
  | x :: xs, [], hxs, _, h => by
      obtain ⟨rfl, -⟩ := List.cons.inj h
      exact absurd hb (by simp [hxs x List.mem_cons_self])
  | x :: xs, w :: ws, hxs, hws, h => by
      obtain ⟨rfl, hrest⟩ := List.cons.inj h
      obtain ⟨rfl, heq⟩ :=
        first_unique ha hb (List.forall_mem_cons.mp hxs).2 (List.forall_mem_cons.mp hws).2 hrest
      exact ⟨rfl, heq⟩

/-- The first digit of a number is that of its integer part. -/
lemma Number.Shaped.first_digit (hs : t.Shaped) (htext : t.text = x ++ c :: y)
    (hx : ∀ b ∈ x, isDigit b = false) (hc : isDigit c = true) : ∃ cs, t.int = c :: cs ∧
      ∀ c', ({ t with int := c' :: cs } : Number).text = x ++ c' :: y := by
  obtain ⟨b, cs, hint, hb⟩ := hs.head
  have hsign : ∀ a ∈ (if t.neg then ['-'] else [] : List Char), isDigit a = false := by
    intro a ha
    split_ifs at ha
    · rw [List.mem_singleton.mp ha]
      rfl
    · exact absurd ha List.not_mem_nil
  rw [Number.text_cons hint] at htext
  obtain ⟨rfl, rfl, rfl⟩ := first_unique hb hc hsign hx htext
  exact ⟨cs, hint, fun c' => Number.text_cons rfl⟩

lemma Number.Shaped.flip (hs : t.Shaped) (hint : t.int = c :: cs) (hc' : isDigit c' = true) :
    ({ t with int := c' :: cs } : Number).Shaped where
  int_ne_nil := List.cons_ne_nil _ _
  int := by
    have hint := hint ▸ hs.int
    exact List.forall_mem_cons.mpr ⟨hc', (List.forall_mem_cons.mp hint).2⟩
  frac := hs.frac
  exp := hs.exp
  mark := hs.mark

/-- A number with another first digit can be read, unless that digit is a zero and there are
more. -/
lemma Number.flip_readable (ht : (Token.number t).Readable) (hint : t.int = c :: cs)
    (hc' : isDigit c' = true) (hzero : c' = '0' → cs = []) :
    (Token.number { t with int := c' :: cs }).Readable := by
  obtain ⟨hs, -, hshort⟩ := ht
  refine ⟨hs.flip hint hc', fun hhead => ?_, fun hfloat => ?_⟩
  · obtain rfl : c' = '0' := Option.some.inj hhead
    rw [hzero rfl]
  · have hle := hshort hfloat
    rw [hint] at hle
    exact hle

lemma Number.Shaped.padded_of_flip (hs : t.Shaped) (hint : t.int = c :: cs) (hcs : cs ≠ []) :
    ({ t with int := '0' :: cs } : Number).Padded := by
  obtain ⟨d, ds, rfl⟩ := List.exists_cons_of_ne_nil hcs
  exact ⟨d, ds, rfl, hs.int d (by simp [hint])⟩

/-- **An integer with another first digit is another one.** -/
lemma Number.toInt_flip_ne (hint : t.int = c :: cs) (hc : isDigit c = true)
    (hc' : isDigit c' = true) (hne : c' ≠ c) :
    ({ t with int := c' :: cs } : Number).toInt ≠ t.toInt := by
  have hvalue : decimalValueOf (c' :: cs) ≠ decimalValueOf (c :: cs) := by
    intro heq
    rw [← List.singleton_append, ← List.singleton_append (x := c), decimalValueOf_append,
      decimalValueOf_append] at heq
    have hhead := Nat.eq_of_mul_eq_mul_right (Nat.pow_pos (by norm_num)) (Nat.add_right_cancel heq)
    obtain ⟨hlow, hhigh⟩ := isDigit_iff.mp hc
    obtain ⟨hlow', hhigh'⟩ := isDigit_iff.mp hc'
    simp only [decimalValueOf, List.reverse_singleton, List.map_cons, List.map_nil,
      Nat.ofDigits_singleton] at hhead
    exact hne (Char.toNat_inj.mp (by omega))
  rw [Number.toInt, Number.toInt, hint]
  split_ifs
  · simpa using hvalue
  · simpa using hvalue

/-- **A float with another first digit is another one, but for the smallest.** -/
lemma readFloat_flip {bits : BitVec 64} (hfinite : isFinite bits = true)
    (hint : (reprFloat bits).int = c :: cs) (hc' : isDigit c' = true) (hne : c' ≠ c)
    (hsame : readFloat { reprFloat bits with int := c' :: cs } = readFloat (reprFloat bits)) :
    reprFloat bits = leastFloat bits.msb := by
  have hspells := spells_reprFloat hfinite
  have hread : nearest (reprFloat bits).magnitude = unsignedBits bits := by
    rw [← unsignedBits_readFloat, hspells.read_repr]
  have hnearest : nearest ({ reprFloat bits with int := c' :: cs } : Number).magnitude =
      nearest (reprFloat bits).magnitude := by
    rw [← unsignedBits_readFloat, hsame, unsignedBits_readFloat]
  have hbound : nearest (reprFloat bits).magnitude < infinityBits := by
    rw [hread]
    exact (isFinite_iff bits).mp hfinite
  obtain ⟨hplace, hsmall⟩ :=
    tiny_of_nearest_eq hspells.shaped hint (isDigit_iff.mp hc') hne hbound hnearest
  exact reprFloat_eq_leastFloat (hread ▸ hsmall) hplace

end

end PyJson

end LedgerProof
