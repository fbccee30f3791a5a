import LedgerProof.Lib.PyJsonWrite

/-!
# One number or string of a document replaced

`Doc.Edit l l' d d'` is that `d'` is `d` with the leaf `l' ` in the place of `l`.  A leaf of the
tokens can always be replaced (`exists_edit`), and what becomes of the document is up to the leaf
alone: a leaf that can be read leaves a document that can be read, one with a value of its own a
document with a value of its own (`Edit.value_ne`), and a number that starts with a zero it should
not have makes the document one that cannot be read at all (`loads_padded`).

That values of different leaves are not lost needs that no key of a dictionary is there twice
(`Distinct`), as a later field would hide the earlier one.
-/

namespace LedgerProof

namespace PyJson

/-! ## Lists of items and of fields -/

section

variable {read : Number → BitVec 64} {sp : ℕ} {ds : List Doc} {fs : List (List Piece × Doc)}

lemma readableItems_iff : Doc.ReadableItems ds ↔ ∀ d ∈ ds, d.Readable := by
  induction ds with
  | nil => simp [Doc.ReadableItems]
  | cons d ds ih => simp [Doc.ReadableItems, ih]

lemma readableFields_iff : Doc.ReadableFields fs ↔ ∀ f ∈ fs, (∀ p ∈ f.1, p.Ok) ∧ f.2.Readable := by
  induction fs with
  | nil => simp [Doc.ReadableFields]
  | cons f fs ih =>
      obtain ⟨key, d⟩ := f
      simp [Doc.ReadableFields, Doc.ReadableField, ih]

lemma values_eq_map : Doc.values read ds = ds.map (Doc.value read) := by
  induction ds with
  | nil => rfl
  | cons d ds ih =>
      rw [List.map_cons, ← ih]
      rfl

lemma pairs_eq_map : Doc.pairs read fs = fs.map fun f => (strValue f.1, f.2.value read) := by
  induction fs with
  | nil => rfl
  | cons f fs ih =>
      obtain ⟨key, d⟩ := f
      rw [List.map_cons, ← ih]
      rfl

/-- With a comma before the first one too, items stand one after the other. -/
lemma comma_items (hne : ds ≠ []) :
    .mark (',' :: blanks sp) :: Doc.items sp ds = ds.flatMap fun d =>
      .mark (',' :: blanks sp) :: d.tokens sp := by
  have hmore : ∀ ds : List Doc,
      Doc.moreItems sp ds = ds.flatMap fun d => .mark (',' :: blanks sp) :: d.tokens sp := by
    intro ds
    induction ds with
    | nil => rfl
    | cons d ds ih => rw [Doc.moreItems, ih, List.flatMap_cons, List.cons_append]
  obtain ⟨d, ds, rfl⟩ := List.exists_cons_of_ne_nil hne
  rw [Doc.items, hmore, List.flatMap_cons, List.cons_append]

lemma comma_fields (hne : fs ≠ []) :
    .mark (',' :: blanks sp) :: Doc.fields sp fs =
      fs.flatMap fun f => .mark (',' :: blanks sp) :: Doc.fieldTokens sp f := by
  have hmore : ∀ fs : List (List Piece × Doc),
      Doc.moreFields sp fs = fs.flatMap fun f =>
        .mark (',' :: blanks sp) :: Doc.fieldTokens sp f := by
    intro fs
    induction fs with
    | nil => rfl
    | cons f fs ih => rw [Doc.moreFields, ih, List.flatMap_cons, List.cons_append]
  obtain ⟨f, fs, rfl⟩ := List.exists_cons_of_ne_nil hne
  rw [Doc.fields, hmore, List.flatMap_cons, List.cons_append]

lemma tokens_list (hne : ds ≠ []) :
    Doc.tokens sp (.list ds) = .mark ['['] :: (Doc.items sp ds ++ [.mark [']']]) := by
  obtain ⟨d, ds, rfl⟩ := List.exists_cons_of_ne_nil hne
  simp [Doc.tokens, Doc.items]

lemma tokens_dict (hne : fs ≠ []) :
    Doc.tokens sp (.dict fs) = .mark ['{'] :: (Doc.fields sp fs ++ [.mark ['}']]) := by
  obtain ⟨f, fs, rfl⟩ := List.exists_cons_of_ne_nil hne
  simp [Doc.tokens, Doc.fields]

end

/-! ## Replacing a leaf -/

/-- Both are numbers, or both are strings. -/
inductive Token.Alike : Token → Token → Prop
  | number (t t' : Number) : Alike (.number t) (.number t')
  | str (ps ps' : List Piece) : Alike (.str ps) (.str ps')

/-- The second document is the first one with the second leaf in the place of the first. -/
inductive Doc.Edit : Token → Token → Doc → Doc → Prop
  | number (t t' : Number) : Edit (.number t) (.number t') (.number t) (.number t')
  | str (ps ps' : List Piece) : Edit (.str ps) (.str ps') (.str ps) (.str ps')
  | item {l l' : Token} {d d' : Doc} (ds es : List Doc) (h : Edit l l' d d') :
      Edit l l' (.list (ds ++ d :: es)) (.list (ds ++ d' :: es))
  | key (ps ps' : List Piece) (d : Doc) (fs gs : List (List Piece × Doc)) :
      Edit (.str ps) (.str ps') (.dict (fs ++ (ps, d) :: gs)) (.dict (fs ++ (ps', d) :: gs))
  | field {l l' : Token} {d d' : Doc} (key : List Piece) (fs gs : List (List Piece × Doc))
      (h : Edit l l' d d') :
      Edit l l' (.dict (fs ++ (key, d) :: gs)) (.dict (fs ++ (key, d') :: gs))

/-- A place in lists that are joined is a place in one of them. -/
lemma flatMap_eq_append_cons {α β : Type} {f : α → List β} {xs : List α} {as bs : List β} {b : β}
    (h : xs.flatMap f = as ++ b :: bs) :
    ∃ xs₁ x xs₂ p q, xs = xs₁ ++ x :: xs₂ ∧ f x = p ++ b :: q ∧ as = xs₁.flatMap f ++ p ∧
      bs = q ++ xs₂.flatMap f := by
  induction xs generalizing as with
  | nil => simp at h
  | cons x xs ih =>
      rw [List.flatMap_cons, List.append_eq_append_iff] at h
      rcases h with ⟨as', rfl, hrest⟩ | ⟨p, hx, hrest⟩
      · obtain ⟨xs₁, y, xs₂, p, q, rfl, hy, rfl, rfl⟩ := ih hrest
        exact ⟨x :: xs₁, y, xs₂, p, q, rfl, hy, by simp, rfl⟩
      · cases p with
        | nil =>
            obtain ⟨xs₁, y, xs₂, p, q, rfl, hy, has, rfl⟩ := @ih [] hrest.symm
            rw [List.append_nil] at hx
            exact ⟨x :: xs₁, y, xs₂, p, q, rfl,
              hy, by rw [List.flatMap_cons, List.append_assoc, ← has, hx]; simp, rfl⟩
        | cons c p =>
            obtain ⟨rfl, rfl⟩ := List.cons.inj hrest
            exact ⟨[], x, xs, as, p, rfl, hx, rfl, rfl⟩

lemma Token.Alike.ne_mark {l l' : Token} (h : l.Alike l') (text : List Char) : l ≠ .mark text := by
  cases h <;> exact Token.noConfusion

/-- A leaf between brackets is one of what the commas separate, and can be replaced there. -/
lemma between_brackets {α : Type} {f : α → List Token} {sep left right : List Char} {xs : List α}
    {l : Token} {ts as bs : List Token} (hl : ∀ text, l ≠ .mark text)
    (hts : .mark sep :: ts = xs.flatMap fun x => .mark sep :: f x)
    (h : .mark left :: (ts ++ [.mark right]) = as ++ l :: bs) :
    ∃ xs₁ x xs₂ p q, xs = xs₁ ++ x :: xs₂ ∧ f x = p ++ l :: q ∧ ∀ y l' ts', f y = p ++ l' :: q →
      (.mark sep :: ts' = (xs₁ ++ y :: xs₂).flatMap fun x => .mark sep :: f x) →
      .mark left :: (ts' ++ [.mark right]) = as ++ l' :: bs := by
  cases as with
  | nil => exact absurd (List.cons.inj h).1.symm (hl left)
  | cons a as =>
      obtain ⟨rfl, hinner⟩ := List.cons.inj h
      obtain ⟨bs', rfl, rfl⟩ : ∃ bs', ts = as ++ l :: bs' ∧ bs = bs' ++ [.mark right] := by
        rcases List.append_eq_append_iff.mp hinner with ⟨as', rfl, hright⟩ | ⟨cs, rfl, hcs⟩
        · cases as' with
          | nil => exact absurd (List.cons.inj hright).1.symm (hl right)
          | cons _ _ => simp at hright
        · cases cs with
          | nil => exact absurd (List.cons.inj hcs).1 (hl right)
          | cons c cs =>
              obtain ⟨rfl, rfl⟩ := List.cons.inj hcs
              exact ⟨cs, rfl, rfl⟩
      obtain ⟨xs₁, x, xs₂, p, q, rfl, hx, has, rfl⟩ :=
        @flatMap_eq_append_cons _ _ _ _ (.mark sep :: as) _ _ hts.symm
      cases p with
      | nil => exact absurd (List.cons.inj hx).1.symm (hl sep)
      | cons a p =>
          obtain ⟨rfl, hfx⟩ := List.cons.inj hx
          refine ⟨xs₁, x, xs₂, p, q, rfl, hfx, fun y l' ts' hy hts' => ?_⟩
          have hts' : .mark sep :: ts' =
              .mark sep :: (as ++ l' :: (q ++ xs₂.flatMap fun x => .mark sep :: f x)) := by
            rw [hts', ← List.cons_append, has, List.flatMap_append, List.flatMap_cons, hy]
            simp only [List.cons_append, List.append_assoc]
          rw [(List.cons.inj hts').2]
          simp

lemma singleton_eq_append_cons {α : Type} {x y : α} {as bs : List α} (h : [x] = as ++ y :: bs) :
    as = [] ∧ x = y ∧ bs = [] := by
  cases as with
  | nil =>
      obtain ⟨rfl, rfl⟩ := List.cons.inj h
      exact ⟨rfl, rfl, rfl⟩
  | cons _ _ => simp at h

/-- **Every leaf of a document can be replaced.** -/
lemma exists_edit {sp : ℕ} {l l' : Token} (hl : l.Alike l') : ∀ (d : Doc) {as bs : List Token},
    d.tokens sp = as ++ l :: bs → ∃ d', d.Edit l l' d' ∧ d'.tokens sp = as ++ l' :: bs
  | .const c, as, bs, h => by
      have hmem : l ∈ Doc.tokens sp (.const c) := by simp [h]
      exact absurd (List.mem_singleton.mp hmem) (hl.ne_mark _)
  | .number t, as, bs, h => by
      obtain ⟨rfl, rfl, rfl⟩ := singleton_eq_append_cons h
      cases hl with
      | number _ t' => exact ⟨.number t', .number t t', rfl⟩
  | .str pieces, as, bs, h => by
      obtain ⟨rfl, rfl, rfl⟩ := singleton_eq_append_cons h
      cases hl with
      | str _ pieces' => exact ⟨.str pieces', .str pieces pieces', rfl⟩
  | .list ds, as, bs, h => by
      by_cases hne : ds = []
      · subst hne
        have hmem : l ∈ Doc.tokens sp (.list []) := by simp [h]
        simp only [Doc.tokens, List.mem_cons, List.not_mem_nil, hl.ne_mark, or_self] at hmem
      · rw [tokens_list hne] at h
        obtain ⟨ds₁, d, ds₂, p, q, hds, hd, hedit⟩ :=
          between_brackets hl.ne_mark (comma_items hne) h
        have hmem : d ∈ ds := by simp [hds]
        obtain ⟨d', hd', htokens⟩ := exists_edit hl d hd
        refine ⟨.list (ds₁ ++ d' :: ds₂), hds ▸ .item ds₁ ds₂ hd', ?_⟩
        rw [tokens_list (by simp)]
        exact hedit d' l' _ htokens (comma_items (by simp))
  | .dict fs, as, bs, h => by
      by_cases hne : fs = []
      · subst hne
        have hmem : l ∈ Doc.tokens sp (.dict []) := by simp [h]
        simp only [Doc.tokens, List.mem_cons, List.not_mem_nil, hl.ne_mark, or_self] at hmem
      · rw [tokens_dict hne] at h
        obtain ⟨fs₁, ⟨key, d⟩, fs₂, p, q, hfs, hf, hedit⟩ :=
          between_brackets hl.ne_mark (comma_fields hne) h
        have hmem : (key, d) ∈ fs := by simp [hfs]
        have hf : .str key :: .mark (':' :: blanks sp) :: d.tokens sp = p ++ l :: q := hf
        rcases p with _ | ⟨a, _ | ⟨b, p⟩⟩
        · obtain ⟨rfl, rfl⟩ := List.cons.inj hf
          cases hl with
          | str _ key' =>
              refine ⟨.dict (fs₁ ++ (key', d) :: fs₂), hfs ▸ .key key key' d fs₁ fs₂, ?_⟩
              rw [tokens_dict (by simp)]
              exact hedit (key', d) (.str key') _ rfl (comma_fields (by simp))
        · exact absurd (List.cons.inj (List.cons.inj hf).2).1.symm (hl.ne_mark _)
        · obtain ⟨rfl, hrest⟩ := List.cons.inj hf
          obtain ⟨rfl, hd⟩ := List.cons.inj hrest
          obtain ⟨d', hd', htokens⟩ := exists_edit hl d hd
          refine ⟨.dict (fs₁ ++ (key, d') :: fs₂), hfs ▸ .field key fs₁ fs₂ hd', ?_⟩
          rw [tokens_dict (by simp)]
          refine hedit (key, d') l' _ ?_ (comma_fields (by simp))
          rw [Doc.fieldTokens, htokens]
          rfl
termination_by d => sizeOf d
decreasing_by
  · have hlt := List.sizeOf_lt_of_mem hmem
    rw [Doc.list.sizeOf_spec]
    omega
  · have hlt := List.sizeOf_lt_of_mem hmem
    rw [Prod.mk.sizeOf_spec] at hlt
    rw [Doc.dict.sizeOf_spec]
    omega

/-! ## What becomes of the document -/

section

variable {l l' : Token} {d d' : Doc}

/-- The leaf can be read. -/
def Token.Readable : Token → Prop
  | .mark _ => True
  | .number t => t.Shaped ∧ t.Unpadded ∧ t.Short
  | .str ps => ∀ p ∈ ps, p.Ok

lemma Doc.Edit.readable (h : d.Edit l l' d') (hd : d.Readable) (hl' : l'.Readable) :
    d'.Readable := by
  induction h with
  | number t t' => exact hl'
  | str ps ps' => exact hl'
  | item ds es h ih =>
      have hitems := readableItems_iff.mp hd
      simp only [List.forall_mem_append, List.forall_mem_cons] at hitems
      obtain ⟨hds, hd, hes⟩ := hitems
      refine readableItems_iff.mpr ?_
      simp only [List.forall_mem_append, List.forall_mem_cons]
      exact ⟨hds, ih hd hl', hes⟩
  | key ps ps' d fs gs =>
      have hfields := readableFields_iff.mp hd
      simp only [List.forall_mem_append, List.forall_mem_cons] at hfields
      obtain ⟨hfs, ⟨-, hd⟩, hgs⟩ := hfields
      refine readableFields_iff.mpr ?_
      simp only [List.forall_mem_append, List.forall_mem_cons]
      exact ⟨hfs, ⟨hl', hd⟩, hgs⟩
  | field key fs gs h ih =>
      have hfields := readableFields_iff.mp hd
      simp only [List.forall_mem_append, List.forall_mem_cons] at hfields
      obtain ⟨hfs, ⟨hkey, hd⟩, hgs⟩ := hfields
      refine readableFields_iff.mpr ?_
      simp only [List.forall_mem_append, List.forall_mem_cons]
      exact ⟨hfs, ⟨hkey, ih hd hl'⟩, hgs⟩

lemma Doc.Edit.dict {fs : List (List Piece × Doc)} (h : (Doc.dict fs).Edit l l' d') :
    ∃ fs', d' = .dict fs' := by
  cases h with
  | key => exact ⟨_, rfl⟩
  | field => exact ⟨_, rfl⟩

end

/-! ## Values -/

/-- No key is in a dictionary twice. -/
inductive Doc.Distinct : Doc → Prop
  | const (c : Const) : Distinct (.const c)
  | number (t : Number) : Distinct (.number t)
  | str (pieces : List Piece) : Distinct (.str pieces)
  | list {items : List Doc} (h : ∀ d ∈ items, Distinct d) : Distinct (.list items)
  | dict {fields : List (List Piece × Doc)} (hkeys : (fields.map fun f => strValue f.1).Nodup)
      (h : ∀ f ∈ fields, Distinct f.2) : Distinct (.dict fields)

section

variable {read : Number → BitVec 64} {l l' : Token} {d d' : Doc}

variable (read) in
/-- The value of a leaf. -/
def Token.value : Token → PyValue
  | .mark _ => .none
  | .number t => t.value read
  | .str ps => .str (strValue ps)

/-- **A leaf with the same value leaves the value of the document.** -/
lemma Doc.Edit.value_eq (h : d.Edit l l' d') (hl : l'.value read = l.value read) :
    d'.value read = d.value read := by
  induction h with
  | number t t' => exact hl
  | str ps ps' => exact hl
  | item ds es h ih =>
      refine congrArg PyValue.list ?_
      rw [values_eq_map, values_eq_map, List.map_append, List.map_append, List.map_cons,
        List.map_cons, ih hl]
  | key ps ps' d fs gs =>
      have hkey : strValue ps' = strValue ps := PyValue.str.inj hl
      refine congrArg (PyValue.dict ∘ pyDict) ?_
      rw [pairs_eq_map, pairs_eq_map, List.map_append, List.map_append, List.map_cons,
        List.map_cons, hkey]
  | field key fs gs h ih =>
      refine congrArg (PyValue.dict ∘ pyDict) ?_
      rw [pairs_eq_map, pairs_eq_map, List.map_append, List.map_append, List.map_cons,
        List.map_cons, ih hl]

lemma keys_pyDict (pairs : List (PyStr × PyValue)) (key : PyStr) :
    key ∈ (pyDict pairs).map Prod.fst ↔ key ∈ pairs.map Prod.fst := by
  have hkeys := Dict.mem_keys_foldl_set pairs (Dict.empty : Dict PyStr PyValue) key
  rw [Dict.keys, Dict.keys] at hkeys
  exact hkeys.trans (or_iff_right List.not_mem_nil)

/-- **A leaf with another value changes the value of the document**, if no key is there twice. -/
lemma Doc.Edit.value_ne (h : d.Edit l l' d') (hd : d.Distinct) (hl : l'.value read ≠ l.value read) :
    d'.value read ≠ d.value read := by
  induction h with
  | number t t' => exact hl
  | str ps ps' => exact hl
  | @item l l' d d' ds es h ih =>
      cases hd with
      | list hitems =>
          intro heq
          have heq := PyValue.list.inj heq
          rw [values_eq_map, values_eq_map, List.map_append, List.map_append, List.map_cons,
            List.map_cons] at heq
          exact ih (hitems d (by simp)) hl (List.cons.inj (List.append_cancel_left heq)).1
  | key ps ps' d fs gs =>
      cases hd with
      | dict hkeys _ =>
          intro heq
          have hne : strValue ps ≠ strValue ps' := fun hkey => hl (congrArg PyValue.str hkey.symm)
          have heq := congrArg (List.map Prod.fst) (PyValue.dict.inj heq)
          have hold : strValue ps ∈ (pyDict (Doc.pairs read (fs ++ (ps, d) :: gs))).map
              Prod.fst := by
            rw [keys_pyDict, pairs_eq_map]
            simp
          rw [← heq, keys_pyDict, pairs_eq_map] at hold
          -- The old key was there once, and the new one is another.
          rw [List.map_append, List.map_cons, List.nodup_middle, List.nodup_cons] at hkeys
          refine hkeys.1 ?_
          simpa [hne] using hold
  | @field l l' d d' key fs gs h ih =>
      cases hd with
      | dict hkeys hfields =>
          intro heq
          have hnodup : ∀ d : Doc,
              ((Doc.pairs read (fs ++ (key, d) :: gs)).map Prod.fst).Nodup := by
            intro d
            rw [pairs_eq_map, List.map_map]
            simpa [Function.comp_def] using hkeys
          have heq := PyValue.dict.inj heq
          rw [pyDict_of_nodup (hnodup d'), pyDict_of_nodup (hnodup d), pairs_eq_map, pairs_eq_map,
            List.map_append, List.map_append, List.map_cons, List.map_cons] at heq
          have hpair := (List.cons.inj (List.append_cancel_left heq)).1
          exact ih (hfields (key, d) (by simp)) hl (Prod.mk.inj hpair).2

end

/-! ## Numbers with a zero too many -/

section

variable {read : Number → BitVec 64} {sp fuel : ℕ} {cs cs' rest : List Char} {key : List Piece}
  {d d' : Doc}

/-- The integer part is a zero and more digits. -/
def Number.Padded (t : Number) : Prop := ∃ c cs, t.int = '0' :: c :: cs ∧ isDigit c = true

/-- If a value can be read, then a digit is left. -/
def StopsAtDigit (r : Option (PyValue × List Char)) : Prop :=
  ∀ v rest, r = some (v, rest) → ∃ c cs, rest = c :: cs ∧ isDigit c = true

variable (read sp) in
/-- The reader does not come to the end of the document. -/
structure Stuck (d : Doc) : Prop where
  opens : Opens (d.text sp)
  stops : ∀ {fuel rest}, (d.text sp).length ≤ fuel →
    StopsAtDigit (scanValue read fuel (d.text sp ++ rest))

lemma not_mark_of_digit {c : Char} (hc : isDigit c = true) (cs : List Char) :
    skipSpace (c :: cs) = c :: cs ∧ c ≠ ',' ∧ c ≠ ']' ∧ c ≠ '}' := by
  refine ⟨(opens_digit hc cs).skipSpace, ?_, ?_, ?_⟩ <;> rintro rfl <;> cases hc

lemma stuck_number {t : Number} (ht : t.Padded) : Stuck read sp (.number t) := by
  obtain ⟨c, cs, hint, hc⟩ := ht
  have htext : Doc.text sp (.number t) = t.text := List.append_nil _
  refine ⟨?_, fun {fuel rest} hfuel v r hscan => ?_⟩
  · rw [htext, Number.text_cons hint]
    exact opens_signed rfl t.neg _
  · rw [htext, Number.text_cons hint] at hscan hfuel
    cases fuel with
    | zero => simp at hfuel
    | succ fuel =>
        rw [List.append_assoc, List.cons_append, List.cons_append, List.cons_append,
          scanValue_signed rfl, scanAtom_text rfl, scanUnsigned_padded hc] at hscan
        simp only [Option.bind_eq_bind, Option.bind_some] at hscan
        obtain ⟨w, -, hw⟩ := Option.bind_eq_some_iff.mp hscan
        obtain ⟨-, rfl⟩ := Prod.mk.inj (Option.some.inj hw)
        exact ⟨c, _, rfl, hc⟩

lemma scanItems_stuck_last (h : StopsAtDigit (scanValue read fuel cs)) :
    scanItems read (fuel + 1) cs = none := by
  rw [scanItems]
  cases hscan : scanValue read fuel cs with
  | none => rfl
  | some r =>
      obtain ⟨c, cs', hrest, hc⟩ := h r.1 r.2 hscan
      obtain ⟨hskip, hcomma, hright, -⟩ := not_mark_of_digit hc cs'
      simp only [Option.bind_eq_bind, Option.bind_some, hrest, hskip]
      split
      · rename_i heq
        exact absurd (List.cons.inj heq).1 hright
      · rename_i heq
        exact absurd (List.cons.inj heq).1 hcomma
      · rfl

lemma scanFields_stuck_last (hkey : ∀ p ∈ key, p.Ok) (hcs : Opens cs)
    (h : StopsAtDigit (scanValue read fuel cs)) :
    scanFields read (fuel + 1) ('"' :: (closed key ++ ':' :: (blanks sp ++ cs))) = none := by
  have hcolon : skipSpace (':' :: (blanks sp ++ cs)) = ':' :: (blanks sp ++ cs) := rfl
  rw [scanFields, scanString_length hkey]
  simp only [Option.bind_eq_bind, Option.bind_some, hcolon, skipSpace_blanks hcs]
  cases hscan : scanValue read fuel cs with
  | none => rfl
  | some r =>
      obtain ⟨c, cs', hrest, hc⟩ := h r.1 r.2 hscan
      obtain ⟨hskip, hcomma, -, hright⟩ := not_mark_of_digit hc cs'
      simp only [Option.bind_some, hrest, hskip]
      split
      · rename_i heq
        exact absurd (List.cons.inj heq).1 hright
      · rename_i heq
        exact absurd (List.cons.inj heq).1 hcomma
      · rfl

lemma opens_items_stuck {ds es : List Doc} (h : Stuck read sp d') (hds : ∀ d ∈ ds, d.Readable) :
    Opens (textOf (Doc.items sp (ds ++ d' :: es))) := by
  cases ds with
  | nil =>
      rw [List.nil_append, Doc.items, textOf_append]
      exact h.opens.append _
  | cons d ds =>
      rw [List.cons_append, Doc.items, textOf_append]
      exact (hds d List.mem_cons_self).opens.append _

/-- Items are not read past one that is not. -/
lemma scanItems_stuck {es : List Doc} (h : Stuck read sp d') :
    ∀ ds : List Doc, (∀ d ∈ ds, d.Readable) →
    ∀ {fuel : ℕ}, (textOf (Doc.items sp (ds ++ d' :: es))).length < fuel → ∀ rest,
    scanItems read fuel (textOf (Doc.items sp (ds ++ d' :: es)) ++ ']' :: rest) = none
  | _, _, 0, hfuel, _ => absurd hfuel (Nat.not_lt_zero _)
  | [], _, fuel + 1, hfuel, rest => by
      have htext : textOf (Doc.items sp ([] ++ d' :: es)) = d'.text sp ++
          textOf (Doc.moreItems sp es) :=
        textOf_append _ _
      rw [htext, List.length_append] at hfuel
      rw [htext, List.append_assoc]
      exact scanItems_stuck_last (h.stops (by omega))
  | d :: ds, hds, fuel + 1, hfuel, rest => by
      obtain ⟨hd, hds⟩ := List.forall_mem_cons.mp hds
      have hmore : (textOf (Doc.items sp (ds ++ d' :: es))).length < fuel →
          scanItems read fuel (textOf (Doc.items sp (ds ++ d' :: es)) ++ ']' :: rest) = none :=
        fun hfuel => scanItems_stuck h ds hds hfuel rest
      have hopens : Opens (textOf (Doc.items sp (ds ++ d' :: es))) := opens_items_stuck h hds
      obtain ⟨e, es', hcons⟩ := List.exists_cons_of_ne_nil (show ds ++ d' :: es ≠ [] by simp)
      rw [List.cons_append, hcons] at hfuel ⊢
      rw [hcons] at hmore hopens
      have hlength := congrArg List.length (text_items sp d e es' [])
      simp only [List.length_append, List.length_cons, List.length_nil] at hlength
      have hvalue := scanValue_text read sp d hd (show (d.text sp).length ≤ fuel by omega)
        (show Ends (',' :: (blanks sp ++ (textOf (Doc.items sp (e :: es')) ++ ']' :: rest))) by
          simp [Ends])
      rw [text_items, scanItems_more hvalue (hopens.append _), hmore (by omega)]
      rfl

/-- Fields are not read past one with a value that is not. -/
lemma scanFields_stuck {gs : List (List Piece × Doc)} (hkey : ∀ p ∈ key, p.Ok)
    (h : Stuck read sp d') :
    ∀ fs : List (List Piece × Doc), (∀ f ∈ fs, (∀ p ∈ f.1, p.Ok) ∧ f.2.Readable) → ∀ {fuel : ℕ},
    (textOf (Doc.fields sp (fs ++ (key, d') :: gs))).length < fuel → ∀ rest,
    scanFields read fuel (textOf (Doc.fields sp (fs ++ (key, d') :: gs)) ++ '}' :: rest) = none
  | _, _, 0, hfuel, _ => absurd hfuel (Nat.not_lt_zero _)
  | [], _, fuel + 1, hfuel, rest => by
      have htext : textOf (Doc.fields sp ([] ++ (key, d') :: gs)) =
          '"' :: (closed key ++ ':' ::
            (blanks sp ++ (d'.text sp ++ textOf (Doc.moreFields sp gs)))) := by
        simp [Doc.fields, Doc.fieldTokens, Doc.text, Token.text]
      have hlength := congrArg List.length htext
      simp only [List.length_append, List.length_cons] at hlength
      rw [htext]
      simp only [List.cons_append, List.append_assoc]
      exact scanFields_stuck_last hkey (h.opens.append _) (h.stops (by omega))
  | (name, d) :: fs, hfs, fuel + 1, hfuel, rest => by
      obtain ⟨⟨hname, hd⟩, hfs⟩ := List.forall_mem_cons.mp hfs
      have hmore : (textOf (Doc.fields sp (fs ++ (key, d') :: gs))).length < fuel →
          scanFields read fuel (textOf (Doc.fields sp (fs ++ (key, d') :: gs)) ++ '}' :: rest) =
            none :=
        fun hfuel => scanFields_stuck hkey h fs hfs hfuel rest
      obtain ⟨f, gs', hcons⟩ := List.exists_cons_of_ne_nil (show fs ++ (key, d') :: gs ≠ [] by simp)
      rw [List.cons_append, hcons] at hfuel ⊢
      rw [hcons] at hmore
      have hlength := congrArg List.length (text_fields sp name d f gs' [])
      simp only [List.length_append, List.length_cons, List.length_nil] at hlength
      have hvalue := scanValue_text read sp d hd (show (d.text sp).length ≤ fuel by omega)
        (show Ends (',' :: (blanks sp ++ (textOf (Doc.fields sp (f :: gs')) ++ '}' :: rest))) by
          simp [Ends])
      rw [text_fields, scanFields_more hname (hd.opens.append _) hvalue
        ((opens_fields sp (by simp)).append _), hmore (by omega)]
      rfl

lemma StopsAtDigit.none : StopsAtDigit none := fun _ _ h => nomatch h

lemma stuck_list {ds es : List Doc} (h : Stuck read sp d') (hds : ∀ d ∈ ds, d.Readable) :
    Stuck read sp (.list (ds ++ d' :: es)) := by
  have hne : ds ++ d' :: es ≠ [] := by simp
  have htext := text_list sp hne []
  rw [List.append_nil] at htext
  refine ⟨⟨'[', _, htext, by decide, by decide, by decide⟩, fun {fuel rest} hfuel => ?_⟩
  have hlength := congrArg List.length htext
  simp only [List.length_append, List.length_cons, List.length_nil] at hlength
  cases fuel with
  | zero => omega
  | succ fuel =>
      have hlt : (textOf (Doc.items sp (ds ++ d' :: es))).length < fuel := by omega
      have hnone := scanItems_stuck h ds hds hlt rest
      rw [text_list sp hne, scanValue_list ((opens_items_stuck h hds).append _), hnone]
      exact StopsAtDigit.none

lemma stuck_dict {fs gs : List (List Piece × Doc)} (h : Stuck read sp d') (hkey : ∀ p ∈ key, p.Ok)
    (hfs : ∀ f ∈ fs, (∀ p ∈ f.1, p.Ok) ∧ f.2.Readable) :
    Stuck read sp (.dict (fs ++ (key, d') :: gs)) := by
  have hne : fs ++ (key, d') :: gs ≠ [] := by simp
  have htext := text_dict sp hne []
  rw [List.append_nil] at htext
  refine ⟨⟨'{', _, htext, by decide, by decide, by decide⟩, fun {fuel rest} hfuel => ?_⟩
  have hlength := congrArg List.length htext
  simp only [List.length_append, List.length_cons, List.length_nil] at hlength
  cases fuel with
  | zero => omega
  | succ fuel =>
      have hlt : (textOf (Doc.fields sp (fs ++ (key, d') :: gs))).length < fuel := by omega
      have hnone := scanFields_stuck hkey h fs hfs hlt rest
      rw [text_dict sp hne, scanValue_dict ((opens_fields sp hne).append _), hnone]
      exact StopsAtDigit.none

/-- **A document is not read past a number with a zero too many.** -/
lemma Doc.Edit.stuck {l : Token} {t : Number} (h : d.Edit l (.number t) d') (hd : d.Readable)
    (ht : t.Padded) :
    Stuck read sp d' := by
  generalize hl' : Token.number t = l' at h
  induction h with
  | number _ t' =>
      obtain rfl := Token.number.inj hl'
      exact stuck_number ht
  | str => cases hl'
  | @item l l' d d' ds es h ih =>
      have hitems := readableItems_iff.mp hd
      simp only [List.forall_mem_append, List.forall_mem_cons] at hitems
      obtain ⟨hds, hd, -⟩ := hitems
      exact stuck_list (ih hd hl') hds
  | key => cases hl'
  | @field l l' d d' key fs gs h ih =>
      have hfields := readableFields_iff.mp hd
      simp only [List.forall_mem_append, List.forall_mem_cons] at hfields
      obtain ⟨hfs, ⟨hkey, hd⟩, -⟩ := hfields
      exact stuck_dict (ih hd hl') hkey hfs

variable (read) in
/-- **An object with such a number is not JSON.** -/
theorem loads_padded {fs : List (List Piece × Doc)} {l : Token} {t : Number}
    (h : (Doc.dict fs).Edit l (.number t) d') (hd : (Doc.dict fs).Readable) (ht : t.Padded) :
    loads read (utf8 (d'.text sp)) = none := by
  obtain ⟨fs', rfl⟩ := h.dict
  have hstuck : Stuck read sp (.dict fs') := h.stuck hd ht
  have hstops := @Stuck.stops _ _ _ hstuck _ [] (Nat.le_succ _)
  rw [loads, decodeBody_dict]
  show loadsText read _ = none
  rw [List.append_nil] at hstops
  rw [loadsText, hstuck.opens.skipSpace]
  cases hscan : scanValue read ((Doc.text sp (.dict fs')).length + 1) (Doc.text sp (.dict fs')) with
  | none => rfl
  | some r =>
      obtain ⟨c, cs, hrest, hc⟩ := hstops r.1 r.2 hscan
      have hskip := (not_mark_of_digit hc cs).1
      show (if skipSpace r.2 = [] then some r.1 else none) = none
      rw [hrest, hskip]
      rfl

end

end PyJson

end LedgerProof
