import LedgerProof.Lib.PyJsonRead

/-!
# Writing JSON text of any Python value

`Loaded` is that a value is one that `json.loads` can return: every key of a dictionary once, no
pair of surrogates that would be read as one character, no integer too long to be written, and the
floats spelled as Python spells them.  Such a value is read back from its text (`loads_dumps`).
-/

namespace LedgerProof

namespace PyJson

/-- The spelling of a float. -/
structure Spells (read : Number → BitVec 64) (repr : BitVec 64 → Number) (bits : BitVec 64) :
    Prop where
  shaped : (repr bits).Shaped
  unpadded : (repr bits).Unpadded
  float : (repr bits).isFloat = true
  read_repr : read (repr bits) = bits

/-- A finite float has a spelling, and the others are the three constants. -/
def Floats (read : Number → BitVec 64) (repr : BitVec 64 → Number) (bits : BitVec 64) : Prop :=
  if isFinite bits then Spells read repr bits
  else bits ∈ [0x7ff8000000000000#64, 0x7ff0000000000000#64, 0xfff0000000000000#64]

/-- Text that is read as it is: no two surrogates that are a pair. -/
def Whole (s : PyStr) : Prop := (∀ n ∈ s, n < 0x110000) ∧ combine (s.flatMap unitsOf) = s

section

variable (ok : BitVec 64 → Prop)

mutual

/-- A value that can be read, if the floats are `ok`. -/
def Loaded : PyValue → Prop
  | .none => True
  | .bool _ => True
  | .int n => (natDecimal n.natAbs).length ≤ maxStrDigits
  | .float bits => ok bits
  | .str s => Whole s
  | .list items => LoadedItems items
  | .dict fields => (fields.map Prod.fst).Nodup ∧ LoadedFields fields
termination_by structural v => v

/-- Every item can be read. -/
def LoadedItems : List PyValue → Prop
  | [] => True
  | v :: vs => Loaded v ∧ LoadedItems vs
termination_by structural vs => vs

/-- The key and the value can be read. -/
def LoadedField : PyStr × PyValue → Prop
  | (key, v) => Whole key ∧ Loaded v
termination_by structural f => f

/-- Every field can be read. -/
def LoadedFields : List (PyStr × PyValue) → Prop
  | [] => True
  | f :: fs => LoadedField f ∧ LoadedFields fs
termination_by structural fs => fs

end

end

section

variable {ok ok' : BitVec 64 → Prop}

mutual

lemma Loaded.mono (hok : ∀ bits, ok bits → ok' bits) : ∀ v : PyValue, Loaded ok v → Loaded ok' v
  | .none, _ => trivial
  | .bool _, _ => trivial
  | .int _, hv => hv
  | .float bits, hv => hok bits hv
  | .str _, hv => hv
  | .list items, hv => LoadedItems.mono hok items hv
  | .dict fields, hv => ⟨hv.1, LoadedFields.mono hok fields hv.2⟩
termination_by structural v => v

lemma LoadedItems.mono (hok : ∀ bits, ok bits → ok' bits) :
    ∀ vs : List PyValue, LoadedItems ok vs → LoadedItems ok' vs
  | [], _ => trivial
  | v :: vs, hvs => ⟨Loaded.mono hok v hvs.1, LoadedItems.mono hok vs hvs.2⟩
termination_by structural vs => vs

lemma LoadedField.mono (hok : ∀ bits, ok bits → ok' bits) :
    ∀ f : PyStr × PyValue, LoadedField ok f → LoadedField ok' f
  | (_, v), hf => ⟨hf.1, Loaded.mono hok v hf.2⟩
termination_by structural f => f

lemma LoadedFields.mono (hok : ∀ bits, ok bits → ok' bits) :
    ∀ fs : List (PyStr × PyValue), LoadedFields ok fs → LoadedFields ok' fs
  | [], _ => trivial
  | f :: fs, hfs => ⟨LoadedField.mono hok f hfs.1, LoadedFields.mono hok fs hfs.2⟩
termination_by structural fs => fs

end

end

/-! ## Text -/

lemma piecesOf_spec {n : ℕ} (hn : n < 0x110000) :
    (∀ p ∈ piecesOf n, p.Ok) ∧ (piecesOf n).map Piece.code = unitsOf n := by
  unfold piecesOf
  cases hfind : shortEscapes.find? (·.2.toNat = n) with
  | some e =>
      have hmem := List.mem_of_find?_eq_some hfind
      obtain rfl : e.2.toNat = n := by simpa using List.find?_some hfind
      have hbmp : e.2.toNat < 0x10000 := by
        have hascii := shortEscapes_ascii e hmem
        omega
      refine ⟨fun p hp => ?_, ?_⟩
      · rw [List.mem_singleton.mp hp]
        exact hmem
      · exact (if_pos hbmp).symm
  | none =>
      have hnone := List.find?_eq_none.mp hfind
      have hquote : n ≠ 0x22 := by
        rintro rfl
        exact hnone ('"', '"') (by decide) (by decide)
      have hslash : n ≠ 0x5c := by
        rintro rfl
        exact hnone ('\\', '\\') (by decide) (by decide)
      dsimp only
      split_ifs with hplain hbmp
      · refine ⟨fun p hp => ?_, ?_⟩
        · rw [List.mem_singleton.mp hp]
          exact ⟨hplain.1, hplain.2, hquote, hslash⟩
        · have hbmp : n < 0x10000 := by omega
          exact (if_pos hbmp).symm
      · refine ⟨fun p hp => ?_, ?_⟩
        · rw [List.mem_singleton.mp hp]
          exact hbmp
        · exact (if_pos hbmp).symm
      · refine ⟨fun p hp => ?_, ?_⟩
        · simp only [List.mem_cons, List.not_mem_nil, or_false] at hp
          rcases hp with rfl | rfl
          · show 0xd800 + (n - 0x10000) / 0x400 < 0x10000
            omega
          · show 0xdc00 + (n - 0x10000) % 0x400 < 0x10000
            omega
        · exact (if_neg hbmp).symm

lemma Whole.ok {s : PyStr} (h : Whole s) : ∀ p ∈ s.flatMap piecesOf, p.Ok := by
  intro p hp
  obtain ⟨n, hn, hp⟩ := List.mem_flatMap.mp hp
  exact (piecesOf_spec (h.1 n hn)).1 p hp

/-- **A text is read back.** -/
lemma Whole.strValue {s : PyStr} (h : Whole s) : strValue (s.flatMap piecesOf) = s := by
  have hunits : (s.flatMap piecesOf).map Piece.code = s.flatMap unitsOf := by
    rw [List.map_flatMap]
    exact List.flatMap_congr fun n hn => (piecesOf_spec (h.1 n hn)).2
  rw [PyJson.strValue, hunits, h.2]

lemma whole_of_scalar {s : PyStr} (h : ∀ n ∈ s, n < 0x110000 ∧ ¬(0xd800 ≤ n ∧ n < 0xe000)) :
    Whole s := by
  refine ⟨fun n hn => (h n hn).1, ?_⟩
  induction s with
  | nil => rfl
  | cons n s ih =>
      obtain ⟨⟨hn, hscalar⟩, hs⟩ := List.forall_mem_cons.mp h
      have ih := ih hs
      rw [List.flatMap_cons, unitsOf]
      split_ifs with hbmp
      · have hhigh : ¬IsHigh n := fun hhigh => hscalar ⟨hhigh.1, hhigh.2.trans (by norm_num)⟩
        rw [List.singleton_append]
        cases hrest : s.flatMap unitsOf with
        | nil =>
            rw [hrest] at ih
            rw [← ih]
            rfl
        | cons m ms =>
            rw [hrest] at ih
            rw [combine, if_neg fun hpair => hhigh hpair.1, ih]
      · have hpair : IsHigh (0xd800 + (n - 0x10000) / 0x400) ∧
            IsLow (0xdc00 + (n - 0x10000) % 0x400) := by
          refine ⟨⟨?_, ?_⟩, ?_, ?_⟩ <;> omega
        have hcode : 0x10000 + (0xd800 + (n - 0x10000) / 0x400 - 0xd800) * 0x400 +
            (0xdc00 + (n - 0x10000) % 0x400 - 0xdc00) = n := by omega
        rw [List.cons_append, List.singleton_append, combine, if_pos hpair, ih, hcode]

/-- A text of the source is read as it is. -/
lemma whole_pyStr (s : String) : Whole (pyStr s) := by
  refine whole_of_scalar fun n hn => ?_
  obtain ⟨c, -, rfl⟩ := List.mem_map.mp hn
  exact char_toNat_lt c

/-! ## Numbers -/

lemma numberOf_shaped (n : ℤ) : (numberOf n).Shaped where
  int_ne_nil := natDecimal_ne_nil _
  int := fun c hc => isDigit_iff.mpr (natDecimal_isDecimal _ hc)
  frac := by simp [numberOf]
  exp := by simp [numberOf]
  mark := .inl ⟨rfl, rfl⟩

lemma numberOf_unpadded (n : ℤ) : (numberOf n).Unpadded := by
  intro hhead
  rcases natDecimal_head n.natAbs with hzero | ⟨d, ds, hcons, -, hd⟩
  · exact hzero
  · have hint : (numberOf n).int = d :: ds := hcons
    rw [hint] at hhead
    exact absurd (Option.some.inj hhead) hd

lemma value_numberOf (read : Number → BitVec 64) (n : ℤ) : (numberOf n).value read = .int n := by
  have hint : (numberOf n).toInt = n := by
    rw [Number.toInt, numberOf, decimalValueOf_natDecimal]
    rcases lt_or_ge n 0 with hn | hn
    · simp [hn, abs_of_neg hn]
    · simp [abs_of_nonneg hn, not_lt.mpr hn]
  have hvalue : (numberOf n).value read = .int (numberOf n).toInt := rfl
  rw [hvalue, hint]

/-! ## Values -/

section

variable {read : Number → BitVec 64} {repr : BitVec 64 → Number}

lemma pyDict_of_nodup {pairs : List (PyStr × PyValue)} (h : (pairs.map Prod.fst).Nodup) :
    pyDict pairs = pairs :=
  Dict.foldl_set_items h

lemma Floats.readable {bits : BitVec 64} (h : Floats read repr bits) :
    (docOfFloat repr bits).Readable ∧ (docOfFloat repr bits).value read = .float bits := by
  unfold Floats at h
  unfold docOfFloat
  split_ifs at h ⊢ with hfinite hnan hneg
  · refine ⟨⟨h.shaped, h.unpadded, fun hint => ?_⟩, ?_⟩
    · rw [h.float] at hint
      cases hint
    · show (if (repr bits).isFloat then _ else _) = _
      rw [if_pos h.float, h.read_repr]
  all_goals
    simp only [List.mem_cons, List.not_mem_nil, or_false] at h
    rcases h with rfl | rfl | rfl
  all_goals first
    | exact ⟨trivial, rfl⟩
    | exact absurd hnan (by decide)
    | exact absurd hneg (by decide)

mutual

/-- **A value is read back from its document.** -/
lemma value_docOf : ∀ v : PyValue, Loaded (Floats read repr) v →
    (docOf repr v).Readable ∧ (docOf repr v).value read = v
  | .none, _ => ⟨trivial, rfl⟩
  | .bool b, _ => ⟨trivial, by cases b <;> rfl⟩
  | .int n, hv => by
      refine ⟨⟨numberOf_shaped n, numberOf_unpadded n, fun _ => hv⟩, value_numberOf read n⟩
  | .float bits, hv => Floats.readable hv
  | .str s, hv => ⟨hv.ok, congrArg PyValue.str hv.strValue⟩
  | .list items, hv => by
      obtain ⟨hreadable, hvalues⟩ := values_docsOf items hv
      exact ⟨hreadable, congrArg PyValue.list hvalues⟩
  | .dict fields, hv => by
      obtain ⟨hreadable, hpairs⟩ := pairs_fieldsOf fields hv.2
      refine ⟨hreadable, ?_⟩
      show PyValue.dict (pyDict (Doc.pairs read (fieldsOf repr fields))) = _
      rw [hpairs, pyDict_of_nodup hv.1]
termination_by structural v => v

lemma values_docsOf : ∀ vs : List PyValue, LoadedItems (Floats read repr) vs →
    Doc.ReadableItems (docsOf repr vs) ∧ Doc.values read (docsOf repr vs) = vs
  | [], _ => ⟨trivial, rfl⟩
  | v :: vs, hvs => by
      obtain ⟨hreadable, hvalue⟩ := value_docOf v hvs.1
      obtain ⟨hrest, hvalues⟩ := values_docsOf vs hvs.2
      refine ⟨⟨hreadable, hrest⟩, ?_⟩
      show (docOf repr v).value read :: Doc.values read (docsOf repr vs) = _
      rw [hvalue, hvalues]
termination_by structural vs => vs

lemma pair_fieldOf : ∀ f : PyStr × PyValue, LoadedField (Floats read repr) f →
    Doc.ReadableField (fieldOf repr f) ∧ Doc.pair read (fieldOf repr f) = f
  | (key, v), hf => by
      obtain ⟨hreadable, hvalue⟩ := value_docOf v hf.2
      exact ⟨⟨hf.1.ok, hreadable⟩, Prod.ext hf.1.strValue hvalue⟩
termination_by structural f => f

lemma pairs_fieldsOf : ∀ fs : List (PyStr × PyValue), LoadedFields (Floats read repr) fs →
    Doc.ReadableFields (fieldsOf repr fs) ∧ Doc.pairs read (fieldsOf repr fs) = fs
  | [], _ => ⟨trivial, rfl⟩
  | f :: fs, hfs => by
      obtain ⟨hreadable, hpair⟩ := pair_fieldOf f hfs.1
      obtain ⟨hrest, hpairs⟩ := pairs_fieldsOf fs hfs.2
      refine ⟨⟨hreadable, hrest⟩, ?_⟩
      show Doc.pair read (fieldOf repr f) :: Doc.pairs read (fieldsOf repr fs) = _
      rw [hpair, hpairs]
termination_by structural fs => fs

end

/-- **What `dumps` wrote is read back.** -/
theorem loadsText_dumps {v : PyValue} (hv : Loaded (Floats read repr) v) (sp : ℕ) :
    loadsText read (dumps repr sp v) = some v := by
  obtain ⟨hreadable, hvalue⟩ := value_docOf v hv
  rw [dumps, loadsText_text read hreadable, hvalue]

end

/-! ## Values without floats -/

section

variable {ok : BitVec 64 → Prop}

mutual

lemma loaded_toPy : ∀ j : Json, j.Canonical → Loaded ok j.toPy
  | .null, _ => trivial
  | .bool _, _ => trivial
  | .int _, hj => hj
  | .str s, _ => whole_pyStr s
  | .arr items, hj => loaded_toPyItems items hj
  | .obj fields, hj => by
      refine ⟨?_, loaded_toPyFields fields hj.2⟩
      rw [Json.keys_toPyFields]
      exact hj.1.map pyStr_injective
termination_by structural j => j

lemma loaded_toPyItems :
    ∀ js : List Json, Json.CanonicalItems js → LoadedItems ok (Json.toPyItems js)
  | [], _ => trivial
  | j :: js, hjs => ⟨loaded_toPy j hjs.1, loaded_toPyItems js hjs.2⟩
termination_by structural js => js

lemma loaded_toPyField :
    ∀ f : String × Json, Json.CanonicalField f → LoadedField ok (Json.toPyField f)
  | (key, value), hf => ⟨whole_pyStr key, loaded_toPy value hf⟩
termination_by structural f => f

lemma loaded_toPyFields :
    ∀ fs : List (String × Json), Json.CanonicalFields fs → LoadedFields ok (Json.toPyFields fs)
  | [], _ => trivial
  | f :: fs, hfs => ⟨loaded_toPyField f hfs.1, loaded_toPyFields fs hfs.2⟩
termination_by structural fs => fs

end

end

lemma text_piecesOf (c : Char) : (piecesOf c.toNat).flatMap Piece.text = escapeChar c := by
  have hsame : (fun e : Char × Char => decide (e.2.toNat = c.toNat)) = fun e =>
      decide (e.2 = c) := by
    funext e
    exact decide_eq_decide.mpr Char.toNat_inj
  unfold piecesOf escapeChar
  rw [hsame]
  cases shortEscapes.find? fun e => decide (e.2 = c) with
  | some e => rfl
  | none =>
      dsimp only
      split_ifs
      · simp [Piece.text]
      · simp [Piece.text]
      · simp [Piece.text]

lemma closed_pyStr (s : String) : closed ((pyStr s).flatMap piecesOf) = quoted s := by
  rw [closed, quoted, List.flatMap_assoc, pyStr, List.flatMap_map]
  exact congrArg (· ++ ['"']) (List.flatMap_congr fun c _ => text_piecesOf c)

lemma text_numberOf (n : ℤ) : (numberOf n).text = decimal n := by
  rcases lt_or_ge n 0 with hn | hn
  · simp [Number.text, Number.unsigned, numberOf, decimal, hn]
  · simp [Number.text, Number.unsigned, numberOf, decimal, not_lt.mpr hn]

section

variable {repr : BitVec 64 → Number}

mutual

/-- **Its text is the same.** -/
lemma dumps_toPy : ∀ j : Json, dumps repr 0 j.toPy = j.dumps
  | .null => rfl
  | .bool b => by cases b <;> rfl
  | .int n => (List.append_nil _).trans (text_numberOf n)
  | .str s => (List.append_nil _).trans (congrArg (List.cons '"') (closed_pyStr s))
  | .arr [] => rfl
  | .arr (j :: js) => by
      have htext := text_list 0
        (List.cons_ne_nil (docOf repr j.toPy) (docsOf repr (Json.toPyItems js))) []
      rw [List.append_nil] at htext
      exact htext.trans (congrArg (fun cs => '[' :: (cs ++ [']'])) (text_toPyItems (j :: js)))
  | .obj [] => rfl
  | .obj (f :: fs) => by
      have htext := text_dict 0 (List.cons_ne_nil (fieldOf repr (Json.toPyField f))
        (fieldsOf repr (Json.toPyFields fs))) []
      rw [List.append_nil] at htext
      exact htext.trans (congrArg (fun cs => '\x7b' :: (cs ++ ['\x7d']))
        (text_toPyFields (f :: fs)))
termination_by structural j => j

lemma text_toPyItems :
    ∀ js : List Json, textOf (Doc.items 0 (docsOf repr (Json.toPyItems js))) = Json.dumpsItems js
  | [] => rfl
  | [j] => by
      have hone : textOf ((docOf repr j.toPy).tokens 0) = j.dumps := dumps_toPy j
      simpa [Json.toPyItems, docsOf, Doc.items, Doc.moreItems, Json.dumpsItems] using hone
  | j :: j' :: js => by
      have hone := dumps_toPy j
      have hmore := text_toPyItems (j' :: js)
      have htext := text_items 0 (docOf repr j.toPy) (docOf repr j'.toPy)
        (docsOf repr (Json.toPyItems js)) []
      rw [List.append_nil, List.append_nil] at htext
      refine htext.trans ?_
      rw [Json.dumpsItems_cons_cons, ← hone, ← hmore]
      rfl
termination_by structural js => js

lemma text_toPyField : ∀ f : String × Json,
    textOf (Doc.fieldTokens 0 (fieldOf repr (Json.toPyField f))) = Json.dumpsField f
  | (key, value) => by
      have hvalue : textOf ((docOf repr value.toPy).tokens 0) = value.dumps := dumps_toPy value
      have hkey : (Token.str ((pyStr key).flatMap piecesOf)).text = '"' :: quoted key :=
        congrArg (List.cons '"') (closed_pyStr key)
      rw [Json.toPyField, fieldOf, Doc.fieldTokens, textOf_cons, textOf_cons, hvalue, hkey]
      rfl
termination_by structural f => f

lemma text_toPyFields : ∀ fs : List (String × Json),
    textOf (Doc.fields 0 (fieldsOf repr (Json.toPyFields fs))) = Json.dumpsFields fs
  | [] => rfl
  | [f] => by
      have hone := text_toPyField f
      simpa [Json.toPyFields, fieldsOf, Doc.fields, Doc.moreFields, Json.dumpsFields] using hone
  | f :: f' :: fs => by
      have hone := text_toPyField f
      have hmore : textOf (Doc.fieldTokens 0 (fieldOf repr (Json.toPyField f')) ++
          Doc.moreFields 0 (fieldsOf repr (Json.toPyFields fs))) = Json.dumpsFields (f' :: fs) :=
            text_toPyFields (f' :: fs)
      rw [Json.dumpsFields_cons_cons, ← hone, ← hmore]
      exact textOf_append _ _
termination_by structural fs => fs

end

end

end PyJson

end LedgerProof
