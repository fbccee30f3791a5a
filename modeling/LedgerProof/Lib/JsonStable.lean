import LedgerProof.Lib.JsonText

/-!
# What is read can be written

Every document that `loads` reads is canonical (`loads_canonical`): the keys of a dictionary are
written one over the other, and a number that is too long to be written is not read.  So a document
that is read and written with one of its fields set anew is read back so (`loads_dumps_setItem`).
-/

namespace LedgerProof

lemma canonicalItems_iff {js : List Json} : Json.CanonicalItems js ↔ ∀ j ∈ js, j.Canonical := by
  induction js with
  | nil => simp [Json.CanonicalItems]
  | cons j js ih => rw [Json.CanonicalItems, ih, List.forall_mem_cons]

lemma canonicalFields_iff {fs : List (String × Json)} :
    Json.CanonicalFields fs ↔ ∀ f ∈ fs, f.2.Canonical := by
  induction fs with
  | nil => simp [Json.CanonicalFields]
  | cons f fs ih => rw [Json.CanonicalFields, ih, List.forall_mem_cons, Json.CanonicalField]

lemma forall_mem_foldl_set {κ ν : Type} [DecidableEq κ] {P : ν → Prop} {fs : List (κ × ν)}
    {d : Dict κ ν} (hd : ∀ i ∈ d.items, P i.2) (hfs : ∀ f ∈ fs, P f.2) :
    ∀ i ∈ (fs.foldl (fun d p => d.set p.1 p.2) d).items, P i.2 := by
  induction fs generalizing d with
  | nil => exact hd
  | cons f fs ih =>
      refine ih (fun i hi => ?_) fun g hg => hfs g (List.mem_cons_of_mem _ hg)
      rcases Dict.mem_set_items.mp hi with rfl | ⟨hi, -⟩
      · exact hfs f List.mem_cons_self
      · exact hd i hi

lemma scanDigits_digits {cs digits rest : List Char} (h : scanDigits cs = .ok (digits, rest)) :
    digits ≠ [] ∧ ∀ c ∈ digits, IsDecimal c := by
  unfold scanDigits at h
  split at h
  · obtain ⟨rfl, -⟩ := Prod.mk.inj (Except.ok.inj h)
    exact ⟨by simp, fun c hc => List.mem_singleton.mp hc ▸ ⟨by decide, by decide⟩⟩
  · split_ifs at h with hnone
    obtain ⟨rfl, -⟩ := Prod.mk.inj (Except.ok.inj h)
    exact ⟨hnone, fun c hc => isDigit_iff.mp (List.all_eq_true.mp List.all_takeWhile c hc)⟩

/-- A number that is read can be written. -/
lemma scanMagnitude_length {cs rest : List Char} {n : ℕ} (h : scanMagnitude cs = .ok (n, rest)) :
    (natDecimal n).length ≤ maxStrDigits := by
  obtain ⟨⟨digits, rest'⟩, hdigits, h⟩ := except_bind_eq_ok.mp h
  obtain ⟨hne, hdecimal⟩ := scanDigits_digits hdigits
  obtain ⟨-, h⟩ := except_guard_eq_ok.mp h
  obtain ⟨hlong, h⟩ := except_guard_eq_ok.mp h
  obtain ⟨rfl, -⟩ := Prod.mk.inj (Except.ok.inj h)
  exact (length_natDecimal_le (List.length_pos_iff.mpr hne) (decimalValueOf_lt hdecimal)).trans
    (not_lt.mp hlong)

lemma scanAtom_canonical {cs rest : List Char} {j : Json} (h : scanAtom cs = .ok (j, rest)) :
    j.Canonical := by
  unfold scanAtom at h
  split at h
  · cases h
    trivial
  · cases h
    trivial
  · cases h
    trivial
  · cases h
  · cases h
  · cases h
  · obtain ⟨⟨n, rest'⟩, hn, h⟩ := except_bind_eq_ok.mp h
    cases h
    simpa [Json.Canonical] using scanMagnitude_length hn
  · obtain ⟨⟨n, rest'⟩, hn, h⟩ := except_bind_eq_ok.mp h
    cases h
    simpa [Json.Canonical] using scanMagnitude_length hn

/-- **One step of the reader** reads canonical values, if the next ones do. -/
lemma scan_canonical (fuel : ℕ) :
    (∀ cs j rest, scanValue fuel cs = .ok (j, rest) → j.Canonical) ∧
    (∀ cs js rest, scanItems fuel cs = .ok (js, rest) → ∀ j ∈ js, j.Canonical) ∧
    ∀ cs fs rest, scanFields fuel cs = .ok (fs, rest) → ∀ f ∈ fs, f.2.Canonical := by
  induction fuel with
  | zero =>
      refine ⟨fun cs j rest h => ?_, fun cs js rest h => ?_, fun cs fs rest h => ?_⟩
      · cases h
      · cases h
      · cases h
  | succ fuel ih =>
      obtain ⟨ihvalue, ihitems, ihfields⟩ := ih
      refine ⟨fun cs j rest h => ?_, fun cs js rest h => ?_, fun cs fs rest h => ?_⟩
      · unfold scanValue at h
        split at h
        · obtain ⟨⟨s, rest'⟩, -, h⟩ := except_bind_eq_ok.mp h
          cases h
          trivial
        · split at h
          · cases h
            trivial
          · obtain ⟨⟨items, rest'⟩, hitems, h⟩ := except_bind_eq_ok.mp h
            cases h
            exact canonicalItems_iff.mpr (ihitems _ _ _ hitems)
        · split at h
          · cases h
            exact ⟨List.nodup_nil, trivial⟩
          · obtain ⟨⟨pairs, rest'⟩, hpairs, h⟩ := except_bind_eq_ok.mp h
            cases h
            refine ⟨(dictOfPairs pairs).nodup, canonicalFields_iff.mpr ?_⟩
            exact forall_mem_foldl_set (by simp [Dict.empty]) (ihfields _ _ _ hpairs)
        · exact scanAtom_canonical h
      · unfold scanItems at h
        obtain ⟨⟨j, rest'⟩, hj, h⟩ := except_bind_eq_ok.mp h
        have hcanonical := ihvalue _ _ _ hj
        dsimp only at h
        split at h
        · cases h
          exact List.forall_mem_singleton.mpr hcanonical
        · obtain ⟨⟨js', rest''⟩, hjs, h⟩ := except_bind_eq_ok.mp h
          cases h
          exact List.forall_mem_cons.mpr ⟨hcanonical, ihitems _ _ _ hjs⟩
        · cases h
      · unfold scanFields at h
        split at h
        · obtain ⟨⟨key, rest'⟩, -, h⟩ := except_bind_eq_ok.mp h
          dsimp only at h
          split at h
          · obtain ⟨⟨value, rest''⟩, hvalue, h⟩ := except_bind_eq_ok.mp h
            have hcanonical := ihvalue _ _ _ hvalue
            dsimp only at h
            split at h
            · cases h
              exact List.forall_mem_singleton.mpr hcanonical
            · obtain ⟨⟨pairs, rest'''⟩, hpairs, h⟩ := except_bind_eq_ok.mp h
              cases h
              exact List.forall_mem_cons.mpr ⟨hcanonical, ihfields _ _ _ hpairs⟩
            · cases h
          · cases h
        · cases h

/-- **What `loads` reads is canonical.** -/
lemma loads_canonical {raw : List UInt8} {j : Json} (h : loads raw = .ok j) : j.Canonical := by
  obtain ⟨text, -, h⟩ := except_bind_eq_ok.mp h
  obtain ⟨⟨j', rest⟩, hscan, h⟩ := except_bind_eq_ok.mp h
  dsimp only at h
  split_ifs at h
  · cases h
    exact (scan_canonical _).1 _ _ _ hscan

/-- **A document that is read and written with a field set anew is read back so.** -/
lemma loads_dumps_setItem {raw : List UInt8} {fields : List (String × Json)} {key : String}
    {value : Json} (h : loads raw = .ok (.obj fields)) (hvalue : value.Canonical) :
    loads (utf8 (Json.obj (setItem fields key value)).dumps) =
      .ok (.obj (setItem fields key value)) := by
  obtain ⟨hnodup, hfields⟩ := loads_canonical h
  refine loads_dumps ⟨?_, canonicalFields_iff.mpr fun f hf => ?_⟩
  · have hset := Dict.nodup (Dict.set ⟨fields, hnodup⟩ key value)
    have hitems : (Dict.set ⟨fields, hnodup⟩ key value).items = setItem fields key value := by
      unfold Dict.set setItem
      by_cases hkey : key ∈ fields.map Prod.fst
      · rw [dif_pos (show key ∈ Dict.keys ⟨fields, hnodup⟩ from hkey), if_pos hkey]
      · rw [dif_neg (show key ∉ Dict.keys ⟨fields, hnodup⟩ from hkey), if_neg hkey]
    rwa [hitems] at hset
  · rcases mem_setItem hf with rfl | ⟨hf, -⟩
    · exact hvalue
    · exact canonicalFields_iff.mp hfields f hf

end LedgerProof
