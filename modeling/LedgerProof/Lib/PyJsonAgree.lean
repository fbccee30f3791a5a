import LedgerProof.Lib.PyJson

/-!
# The two readers

`JsonText` and `PyJson` both read JSON text.  The first has the values of `Json`, on which the rest
of the development computes, and says `LoadsError.notModelled` where Python has a value that is none
of them; the second has every value and does not tell why there is none.  They are one reader: where
the first returns a value the second returns the same one (`loads_toPy`), and where the first finds
the text invalid so does the second (`loads_invalid`).  What `dumps` writes agrees by `dumps_toPy`
of `PyJsonWrite`.
-/

namespace LedgerProof.PyJson

section

variable {α β γ δ : Type} {f : α → β} {g : γ → δ}

/-- One step of the first reader against the same step of the second, with what it reads translated
by `f`. -/
def Agrees (f : α → β) : Except LoadsError (α × List Char) → Option (β × List Char) → Prop
  | .ok (a, rest), r => r = some (f a, rest)
  | .error .invalid, r => r = none
  | .error .notModelled, _ => True

lemma Agrees.pure {a : α} {b : β} (h : b = f a) (rest : List Char) :
    Agrees f (.ok (a, rest)) (some (b, rest)) := by
  rw [h]
  exact rfl

/-- Steps that agree may be taken one after the other. -/
lemma Agrees.bind {x : Except LoadsError (α × List Char)} {y : Option (β × List Char)}
    (h : Agrees f x y) {k : α × List Char → Except LoadsError (γ × List Char)}
    {k' : β × List Char → Option (δ × List Char)}
    (hk : ∀ a rest, Agrees g (k (a, rest)) (k' (f a, rest))) : Agrees g (x >>= k) (y >>= k') := by
  rcases x with (- | -) | ⟨a, rest⟩
  · obtain rfl : y = none := h
    exact rfl
  · trivial
  · obtain rfl : y = some (f a, rest) := h
    exact hk a rest

end

/-! ## Strings -/

lemma toNat_ofNat_of_isValidChar {n : ℕ} (h : n.isValidChar) : (Char.ofNat n).toNat = n := by
  rw [Char.ofNat, dif_pos h]
  rfl

lemma hexValue_lt {c : Char} {n : ℕ} (h : hexValue c = some n) : n < 16 := by
  unfold hexValue at h
  split_ifs at h <;> cases h <;> omega

lemma scanHex_lt {cs rest : List Char} {n : ℕ} (h : scanHex cs = .ok (n, rest)) : n < 0x10000 := by
  unfold scanHex at h
  split at h
  · split at h
    · rename_i ha hb hc hd
      have ha := hexValue_lt ha
      have hb := hexValue_lt hb
      have hc := hexValue_lt hc
      have hd := hexValue_lt hd
      cases h
      omega
    · cases h
  · cases h

lemma scanHex_error {cs : List Char} {e : LoadsError} (h : scanHex cs = .error e) :
    e = .invalid := by
  unfold scanHex at h
  split at h
  · split at h <;> cases h
    rfl
  · cases h
    rfl

/-- The second half of a pair. -/
lemma agrees_low {n : ℕ} (hhigh : 0xd800 ≤ n ∧ n < 0xdc00) (rest cs : List Char) :
    Agrees Char.toNat
      (do
        let (m, rest) ← scanHex cs
        if 0xdc00 ≤ m ∧ m < 0xe000 then
          return (Char.ofNat (0x10000 + (n - 0xd800) * 0x400 + (m - 0xdc00)), rest)
        else throw .notModelled)
      (match scanHex4 cs with
        | none => none
        | some (m, rest') =>
            if 0xdc00 ≤ m ∧ m < 0xe000 then
              some (0x10000 + (n - 0xd800) * 0x400 + (m - 0xdc00), rest')
            else some (n, rest)) := by
  unfold scanHex4
  cases hm : scanHex cs with
  | error e =>
      obtain rfl := scanHex_error hm
      exact rfl
  | ok y =>
      obtain ⟨m, rest'⟩ := y
      simp only [except_ok_bind, Except.toOption]
      by_cases hlow : 0xdc00 ≤ m ∧ m < 0xe000
      · have hvalid : (0x10000 + (n - 0xd800) * 0x400 + (m - 0xdc00)).isValidChar := by
          unfold Nat.isValidChar
          omega
        rw [if_pos hlow, if_pos hlow]
        exact .pure (toNat_ofNat_of_isValidChar hvalid).symm _
      · rw [if_neg hlow]
        trivial

lemma agrees_scanUnit (cs : List Char) : Agrees Char.toNat (scanUnicode cs) (scanUnit cs) := by
  unfold scanUnicode scanUnit
  rw [scanHex4]
  cases hn : scanHex cs with
  | error e =>
      obtain rfl := scanHex_error hn
      exact rfl
  | ok x =>
      obtain ⟨n, rest⟩ := x
      have hlt := scanHex_lt hn
      simp only [except_ok_bind, Except.toOption]
      by_cases hhigh : 0xd800 ≤ n ∧ n < 0xdc00
      · simp only [if_pos hhigh]
        split
        · exact agrees_low hhigh _ _
        · trivial
      · simp only [if_neg hhigh]
        by_cases hlow : 0xdc00 ≤ n ∧ n < 0xe000
        · simp only [if_pos hlow]
          trivial
        · simp only [if_neg hlow]
          have hvalid : n.isValidChar := by
            unfold Nat.isValidChar
            omega
          exact .pure (toNat_ofNat_of_isValidChar hvalid).symm _

lemma agrees_scanEscaped (cs : List Char) : Agrees Char.toNat (scanEscape cs) (scanEscaped cs) := by
  unfold scanEscape
  split
  · exact agrees_scanUnit _
  · exact rfl
  · rename_i c rest hu hslash
    rw [scanEscaped.eq_3 _ _ hu hslash]
    cases shortEscapes.find? _ <;> exact rfl
  · exact rfl

lemma agrees_scanString (fuel : ℕ) : ∀ cs : List Char,
    Agrees (List.map Char.toNat) (LedgerProof.scanString fuel cs) (scanString fuel cs) := by
  induction fuel with
  | zero => exact fun cs => rfl
  | succ fuel ih =>
      intro cs
      unfold LedgerProof.scanString
      split
      · exact rfl
      · exact rfl
      · exact (agrees_scanEscaped _).bind fun c rest => (ih rest).bind fun s rest => .pure rfl rest
      · rename_i c rest hquote hslash
        rw [scanString.eq_5 _ _ _ hquote hslash]
        split_ifs
        · exact rfl
        · exact (ih rest).bind fun s rest => .pure rfl rest

/-! ## Numbers -/

lemma takeWhile_isDigit_of_not {c : Char} {cs : List Char} (h : isDigit c = false) :
    (c :: cs).takeWhile isDigit = [] := by
  rw [List.takeWhile_cons, h]
  rfl

lemma scanFraction_of_not_isFloatTail {cs : List Char} (h : isFloatTail cs = false) :
    scanFraction cs = ([], cs) := by
  unfold scanFraction
  split
  · rename_i cs
    cases cs with
    | nil => rfl
    | cons c cs => rw [if_pos (takeWhile_isDigit_of_not h)]
  · rfl

lemma scanExponent_of_not_isFloatTail {cs : List Char} (h : isFloatTail cs = false) :
    scanExponent cs = ([], [], cs) := by
  unfold scanExponent
  -- after a mark of an exponent there is no digit
  have hnone : ∀ rest : List Char, (∀ c cs', rest = c :: cs' → isDigit c = false) →
      rest.takeWhile isDigit = [] := by
    intro rest hrest
    cases rest with
    | nil => rfl
    | cons c cs' => exact takeWhile_isDigit_of_not (hrest c cs' rfl)
  fun_cases scanMark cs
  case case7 => rfl
  all_goals
    dsimp only
    rw [if_pos (hnone _ ?_)]
    rintro c cs' rfl
    first
      | exact h
      | (unfold isFloatTail at h; split at h <;> simp_all)

section

variable (read : Number → BitVec 64)

/-- A number: an integer of the same digits, or one that the first reader passes over. -/
lemma agrees_scanUnsigned (neg : Bool) (cs : List Char) :
    Agrees Json.toPy
      (do
        let (n, rest) ← scanMagnitude cs
        return (.int (if neg then -n else n), rest))
      (do
        let (t, rest) ← scanUnsigned neg cs
        let v ← t.convert read
        return (v, rest)) := by
  unfold scanMagnitude scanUnsigned
  cases hdigits : scanDigits cs with
  | error e =>
      have he : e = .invalid := by
        unfold scanDigits at hdigits
        split at hdigits
        · cases hdigits
        · split_ifs at hdigits
          cases hdigits
          rfl
      rw [he]
      exact rfl
  | ok x =>
      obtain ⟨digits, rest⟩ := x
      cases hfloat : isFloatTail rest with
      | true =>
          simp only [except_ok_bind, hfloat, if_true]
          trivial
      | false =>
          have hconvert : Number.convert read ⟨neg, digits, [], [], []⟩ =
              if digits.length ≤ maxStrDigits then
                some (Json.int (if neg then -decimalValueOf digits else decimalValueOf digits)).toPy
              else none := by
            simp [Number.convert, Number.isFloat, Number.toInt, Json.toPy]
          simp only [except_ok_bind, hfloat, scanFraction_of_not_isFloatTail hfloat,
            scanExponent_of_not_isFloatTail hfloat, Bool.false_eq_true, if_false,
              Option.bind_eq_bind, Option.bind_some,
            hconvert]
          by_cases hlong : maxStrDigits < digits.length
          · rw [if_pos hlong, if_neg (Nat.not_le.mpr hlong)]
            exact rfl
          · rw [if_neg hlong, if_pos (Nat.not_lt.mp hlong)]
            exact rfl

lemma agrees_scanAtom (cs : List Char) :
    Agrees Json.toPy (LedgerProof.scanAtom cs) (scanAtom read cs) := by
  fun_cases LedgerProof.scanAtom cs
  case case1 | case2 | case3 => exact rfl
  case case4 | case5 | case6 => trivial
  case case7 rest hinfinity =>
    rw [scanAtom.eq_7 _ _ hinfinity]
    exact agrees_scanUnsigned read true rest
  case case8 hnull htrue hfalse hnan hinfinity hnegInfinity hneg =>
    rw [scanAtom.eq_8 _ _ hnull htrue hfalse hnan hinfinity hnegInfinity hneg]
    exact agrees_scanUnsigned read false cs

/-! ## Dictionaries -/

lemma toPyFields_set (d : Dict String Json) (d' : Dict PyStr PyValue)
    (h : d'.items = Json.toPyFields d.items) (key : String) (j : Json) :
    (d'.set (pyStr key) j.toPy).items = Json.toPyFields (d.set key j).items := by
  have hkeys : pyStr key ∈ d'.keys ↔ key ∈ d.keys := by
    rw [Dict.keys, h, Json.keys_toPyFields, List.mem_map_of_injective pyStr_injective]
    rfl
  unfold Dict.set
  by_cases hkey : key ∈ d.keys
  · rw [dif_pos hkey, dif_pos (hkeys.mpr hkey)]
    simp only [h, Json.toPyFields_eq_map, List.map_map]
    refine List.map_congr_left fun f _ => ?_
    obtain ⟨name, value⟩ := f
    by_cases hname : name = key
    · simp [Json.toPyField, hname]
    · simp [Json.toPyField, hname, pyStr_injective.eq_iff]
  · rw [dif_neg hkey, dif_neg (mt hkeys.mp hkey)]
    simp only [h, Json.toPyFields_eq_map, List.map_append]
    rfl

lemma pyDict_toPyFields (fs : List (String × Json)) :
    pyDict (Json.toPyFields fs) = Json.toPyFields (dictOfPairs fs).items := by
  suffices ∀ (d : Dict String Json) (d' : Dict PyStr PyValue), d'.items = Json.toPyFields d.items →
      ((Json.toPyFields fs).foldl (fun d p => d.set p.1 p.2) d').items =
        Json.toPyFields (fs.foldl (fun d p => d.set p.1 p.2) d).items from this _ _ rfl
  induction fs with
  | nil => exact fun d d' h => h
  | cons f fs ih =>
      intro d d' h
      obtain ⟨key, j⟩ := f
      exact ih _ _ (toPyFields_set d d' h key j)

/-! ## Values -/

section

variable {fuel : ℕ}
  (hvalue : ∀ cs, Agrees Json.toPy (LedgerProof.scanValue fuel cs) (scanValue read fuel cs))
  (hitems : ∀ cs, Agrees Json.toPyItems (LedgerProof.scanItems fuel cs) (scanItems read fuel cs))
  (hfields : ∀ cs,
    Agrees Json.toPyFields (LedgerProof.scanFields fuel cs) (scanFields read fuel cs))

include hitems hfields in
lemma agrees_scanValue (cs : List Char) :
    Agrees Json.toPy (LedgerProof.scanValue (fuel + 1) cs) (scanValue read (fuel + 1) cs) := by
  unfold LedgerProof.scanValue
  split
  · rename_i rest
    refine (agrees_scanString rest.length rest).bind fun s rest => .pure ?_ rest
    rw [Json.toPy, pyStr, String.toList_ofList]
  · rename_i rest
    rw [scanValue]
    generalize skipSpace rest = tail
    by_cases hend : ∃ rest, tail = ']' :: rest
    · obtain ⟨rest, rfl⟩ := hend
      exact .pure rfl _
    · rw [not_exists] at hend
      -- by `hend` the matches of both readers come to their last branch
      simp only
      exact (hitems tail).bind fun js rest => .pure rfl rest
  · rename_i rest
    rw [scanValue]
    have hdict : ∀ fs, PyValue.dict (pyDict (Json.toPyFields fs)) =
        (Json.obj (dictOfPairs fs).items).toPy := fun fs => by
      rw [pyDict_toPyFields, Json.toPy]
    generalize skipSpace rest = tail
    by_cases hend : ∃ rest, tail = '}' :: rest
    · obtain ⟨rest, rfl⟩ := hend
      exact .pure rfl _
    · rw [not_exists] at hend
      simp only
      exact (hfields tail).bind fun fs rest => .pure (hdict fs) rest
  · rename_i hquote hbracket hbrace
    rw [scanValue.eq_5 _ _ _ hquote hbracket hbrace]
    exact agrees_scanAtom read cs

include hvalue hitems in
lemma agrees_scanItems (cs : List Char) :
    Agrees Json.toPyItems (LedgerProof.scanItems (fuel + 1) cs) (scanItems read (fuel + 1) cs) := by
  unfold LedgerProof.scanItems scanItems
  refine (hvalue cs).bind fun j rest => ?_
  dsimp only
  generalize skipSpace rest = tail
  by_cases hend : ∃ rest, tail = ']' :: rest
  · obtain ⟨rest, rfl⟩ := hend
    exact .pure rfl _
  · by_cases hcomma : ∃ rest, tail = ',' :: rest
    · obtain ⟨rest, rfl⟩ := hcomma
      exact (hitems _).bind fun js rest => .pure rfl rest
    · rw [not_exists] at hend hcomma
      simp only
      exact rfl

include hvalue hfields in
lemma agrees_scanFields (cs : List Char) :
    Agrees Json.toPyFields (LedgerProof.scanFields (fuel + 1) cs)
      (scanFields read (fuel + 1) cs) := by
  unfold LedgerProof.scanFields
  split
  · rename_i rest
    rw [scanFields]
    refine (agrees_scanString rest.length rest).bind fun key rest => ?_
    have hkey : pyStr (String.ofList key) = key.map Char.toNat := by
      rw [pyStr, String.toList_ofList]
    dsimp only
    generalize skipSpace rest = tail
    by_cases hcolon : ∃ rest, tail = ':' :: rest
    · obtain ⟨rest, rfl⟩ := hcolon
      refine (hvalue _).bind fun j rest => ?_
      dsimp only
      generalize skipSpace rest = tail
      by_cases hend : ∃ rest, tail = '}' :: rest
      · obtain ⟨rest, rfl⟩ := hend
        refine .pure ?_ _
        rw [Json.toPyFields, Json.toPyField, hkey, Json.toPyFields]
      · by_cases hcomma : ∃ rest, tail = ',' :: rest
        · obtain ⟨rest, rfl⟩ := hcomma
          refine (hfields _).bind fun fs rest => .pure ?_ rest
          rw [Json.toPyFields, Json.toPyField, hkey]
        · rw [not_exists] at hend hcomma
          simp only
          exact rfl
    · rw [not_exists] at hcolon
      simp only
      exact rfl
  · rename_i hquote
    rw [scanFields.eq_3 _ _ _ hquote]
    exact rfl

end

/-- **The readers agree on a value**, with the items of an array and the fields of an object. -/
lemma agrees_scan (fuel : ℕ) :
    (∀ cs, Agrees Json.toPy (LedgerProof.scanValue fuel cs) (scanValue read fuel cs)) ∧
    (∀ cs, Agrees Json.toPyItems (LedgerProof.scanItems fuel cs) (scanItems read fuel cs)) ∧
    ∀ cs, Agrees Json.toPyFields (LedgerProof.scanFields fuel cs) (scanFields read fuel cs) := by
  induction fuel with
  | zero => exact ⟨fun cs => rfl, fun cs => rfl, fun cs => rfl⟩
  | succ fuel ih =>
      obtain ⟨hvalue, hitems, hfields⟩ := ih
      exact ⟨agrees_scanValue read hitems hfields, agrees_scanItems read hvalue hitems,
        agrees_scanFields read hvalue hfields⟩

/-! ## Bodies -/

lemma agrees_loads (raw : List UInt8) :
    match LedgerProof.loads raw with
    | .ok j => loads read raw = some j.toPy
    | .error .invalid => loads read raw = none
    | .error .notModelled => True := by
  unfold LedgerProof.loads loads loadsText
  cases decodeBody raw with
  | error e => cases e <;> trivial
  | ok text =>
      have hvalue := (agrees_scan read (text.length + 1)).1 (skipSpace text)
      simp only [except_ok_bind]
      revert hvalue
      rcases LedgerProof.scanValue (text.length + 1) (skipSpace text) with (- | -) | ⟨j, rest⟩ <;>
        intro hvalue
      · have hnone : scanValue read (text.length + 1) (skipSpace text) = none := hvalue
        rw [hnone]
        exact rfl
      · trivial
      · have hsome : scanValue read (text.length + 1) (skipSpace text) = some (j.toPy, rest) :=
          hvalue
        simp only [hsome, except_ok_bind]
        by_cases hend : skipSpace rest = []
        · rw [if_pos hend, if_pos hend]
          exact rfl
        · rw [if_neg hend, if_neg hend]
          exact rfl

/-- **Where the first reader has a value**, the second has the same. -/
theorem loads_toPy {raw : List UInt8} {j : Json} (h : LedgerProof.loads raw = .ok j) :
    loads read raw = some j.toPy := by
  have hagrees := agrees_loads read raw
  rwa [h] at hagrees

/-- **Where the first reader finds the text invalid**, so does the second. -/
theorem loads_invalid {raw : List UInt8} (h : LedgerProof.loads raw = .error .invalid) :
    loads read raw = none := by
  have hagrees := agrees_loads read raw
  rwa [h] at hagrees

end

end LedgerProof.PyJson
