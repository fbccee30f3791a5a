import LedgerProof.Harness.Verdict
import LedgerProof.Lib.PyJsonDigits

/-!
# A tampered body

`_flip_one_byte` of `harness/faults.py` on the body of any event object: the first digit after the
data key becomes the next one.  The fault wants a body that is JSON and says something else, so that
it is the signature that refuses it.
-/

namespace LedgerProof.Harness

open PyJson

/-! ## The byte that changes -/

/-- Where the marker of the data begins. -/
def dataMarker : List Char := "\"data\":".toList

/-- The character after a digit, with 0 after 9. -/
def nextDigitChar (c : Char) : Char := Char.ofNat (48 + (c.toNat - 48 + 1) % 10)

/-- A digit stands after the first marker. -/
def DigitAfterData (body : List UInt8) : Prop :=
  ∃ k, findBytes (utf8 dataMarker) body = some k ∧ ∃ b ∈ body.drop k, isDigitByte b = true

lemma findBytes_spec {pattern : List UInt8} :
    ∀ {bs : List UInt8} {k : ℕ}, findBytes pattern bs = some k →
    pattern <+: bs.drop k ∧ ∀ j < k, ¬pattern <+: bs.drop j
  | [], k, h => by
      rw [findBytes] at h
      split_ifs at h with hnil
      obtain rfl := Option.some.inj h
      exact ⟨by simp [hnil], fun j hj => absurd hj (Nat.not_lt_zero j)⟩
  | b :: bs, k, h => by
      rw [findBytes] at h
      split_ifs at h with hbegins
      · obtain rfl := Option.some.inj h
        exact ⟨hbegins, fun j hj => absurd hj (Nat.not_lt_zero j)⟩
      · obtain ⟨k, hk, rfl⟩ := Option.map_eq_some_iff.mp h
        obtain ⟨hfound, hfirst⟩ := findBytes_spec hk
        refine ⟨hfound, fun j hj => ?_⟩
        cases j with
        | zero => exact hbegins
        | succ j => exact hfirst j (by omega)

/-- **What `_flip_one_byte` does**: the first digit after the marker becomes the next one. -/
lemma flipOneByte_spec {body : List UInt8} {k : ℕ} (hk : findBytes (utf8 dataMarker) body = some k)
    (hdigit : ∃ b ∈ body.drop k, isDigitByte b = true) :
    ∃ xs b ys, body = xs ++ b :: ys ∧ k ≤ xs.length ∧ (∀ x ∈ xs.drop k, isDigitByte x = false) ∧
      isDigitByte b = true ∧ flipOneByte body = .ok (xs ++ nextDigit b :: ys, xs.length) := by
  obtain ⟨d, hd, hdigit⟩ := hdigit
  cases hindex : (body.drop k).findIdx? isDigitByte with
  | none => exact absurd hdigit (by simp [List.findIdx?_eq_none_iff.mp hindex d hd])
  | some i =>
      obtain ⟨hi, hb, hfirst⟩ := List.findIdx?_eq_some_iff_getElem.mp hindex
      have hlt : k + i < body.length := by
        rw [List.length_drop] at hi
        omega
      have hflip : flipOneByte body = .ok (body.modify (k + i) nextDigit, k + i) := by
        have hk : findBytes (utf8 "\"data\":".toList) body = some k := hk
        rw [flipOneByte, hk]
        simp only [Option.getD_some, hindex]
      refine ⟨body.take (k + i), body[k + i], body.drop (k + i + 1), ?_, ?_, ?_, ?_, ?_⟩
      · rw [List.getElem_cons_drop, List.take_append_drop]
      · rw [List.length_take]
        omega
      · intro x hx
        rw [List.drop_take, Nat.add_sub_cancel_left] at hx
        obtain ⟨j, hj, rfl⟩ := List.mem_take_iff_getElem.mp hx
        simpa using hfirst j (by omega)
      · rwa [List.getElem_drop] at hb
      · rw [hflip, List.modify_eq_take_cons_drop hlt, List.length_take, Nat.min_eq_left hlt.le]

lemma flipOneByte_differs {body flipped : List UInt8} {index : ℕ}
    (h : flipOneByte body = .ok (flipped, index)) (i : ℕ) : flipped[i]? ≠ body[i]? ↔ i = index := by
  unfold flipOneByte at h
  dsimp only at h
  split at h
  · rename_i j hfound
    obtain ⟨b, hb, hdigit⟩ := isDigitByte_getElem_of_findIdx hfound
    obtain ⟨rfl, hindex⟩ := Prod.mk.inj (Except.ok.inj h)
    rw [hindex] at hb ⊢
    constructor
    · intro hne
      by_contra hother
      exact hne (by simp [Ne.symm hother])
    · rintro rfl
      simpa [hb] using nextDigit_ne hdigit
  · cases h

lemma begins_of_utf8 {s t : List Char} (hs : ∀ c ∈ s, c.toNat < 128) (ht : ∀ c ∈ t, c.toNat < 128)
    (h : utf8 s <+: utf8 t) : s <+: t := by
  obtain ⟨r, hr⟩ := h
  rw [utf8_ascii hs, utf8_ascii ht] at hr
  obtain ⟨t₁, t₂, rfl, hsame, -⟩ := List.map_eq_append_iff.mp hr.symm
  have hone := map_ofNat_toNat_inj (fun c hc => ht c (List.mem_append_left _ hc)) hs hsame
  exact hone ▸ List.prefix_append t₁ t₂

lemma isDigitByte_ofNat {c : Char} (hc : c.toNat < 128) :
    isDigitByte (UInt8.ofNat c.toNat) = isDigit c := by
  rw [isDigitByte, isDigit, UInt8.toNat_ofNat_of_lt' (by simp only [UInt8.size]; omega)]

lemma isDigit_nextDigitChar (c : Char) : isDigit (nextDigitChar c) = true := by
  rw [isDigit_iff, IsDecimal, nextDigitChar, toNat_ofNat (by omega)]
  omega

lemma nextDigitChar_ne {c : Char} (hc : isDigit c = true) : nextDigitChar c ≠ c := by
  intro heq
  obtain ⟨hlow, hhigh⟩ := isDigit_iff.mp hc
  have hnat := congrArg Char.toNat heq
  rw [nextDigitChar, toNat_ofNat (by omega)] at hnat
  omega

lemma nextDigit_ofNat {c : Char} (hc : isDigit c = true) :
    nextDigit (UInt8.ofNat c.toNat) = UInt8.ofNat (nextDigitChar c).toNat := by
  obtain ⟨hlow, hhigh⟩ := isDigit_iff.mp hc
  rw [nextDigit, nextDigitChar, toNat_ofNat (by omega),
    UInt8.toNat_ofNat_of_lt' (by simp only [UInt8.size]; omega)]

/-- A text around its first digit after the first marker. -/
structure FirstDigit (text before between : List Char) (c : Char) (after : List Char) : Prop where
  split : text = before ++ (dataMarker ++ (between ++ c :: after))
  between : ∀ b ∈ between, isDigit b = false
  digit : isDigit c = true
  first : ∀ u v, text = u ++ (dataMarker ++ v) → before.length ≤ u.length

/-- **The text of a flipped body.** -/
lemma flipOneByte_text {text : List Char} (hascii : ∀ c ∈ text, c.toNat < 128)
    (hdata : DigitAfterData (utf8 text)) :
    ∃ before between c after, FirstDigit text before between c after ∧
      flipOneByte (utf8 text) =
        .ok (utf8 (before ++ (dataMarker ++ (between ++ nextDigitChar c :: after))),
        (before ++ (dataMarker ++ between)).length) := by
  obtain ⟨k, hk, hdigit⟩ := hdata
  obtain ⟨xs, b, ys, hbody, hle, hbetween, hb, hflip⟩ := flipOneByte_spec hk hdigit
  obtain ⟨hfound, hfirst⟩ := findBytes_spec hk
  have hmarker : ∀ c ∈ dataMarker, c.toNat < 128 ∧ isDigit c = false := by decide
  -- The bytes are those of characters.
  obtain ⟨xs, rest, rfl, rfl, hrest⟩ :=
    List.map_eq_append_iff.mp ((utf8_ascii hascii).symm.trans hbody)
  obtain ⟨c, ys, rfl, rfl, rfl⟩ := List.map_eq_cons_iff.mp hrest
  rw [List.length_map] at hle
  have hc : c.toNat < 128 := hascii c (by simp)
  rw [isDigitByte_ofNat hc] at hb
  have hxs : ∀ x ∈ xs, x.toNat < 128 := fun x hx => hascii x (List.mem_append_left _ hx)
  have hdrop : ∀ j, (utf8 (xs ++ c :: ys)).drop j = utf8 ((xs ++ c :: ys).drop j) := by
    intro j
    rw [utf8_ascii hascii, utf8_ascii fun c hc => hascii c (List.mem_of_mem_drop hc), List.map_drop]
  -- The marker ends before the digit.
  obtain ⟨between, hsplit⟩ : ∃ between, xs.drop k = dataMarker ++ between := by
    rw [hdrop] at hfound
    obtain ⟨v, hv⟩ := begins_of_utf8 (fun c hc => (hmarker c hc).1)
      (fun c hc => hascii c (List.mem_of_mem_drop hc)) hfound
    rw [List.drop_append_of_le_length hle] at hv
    rcases List.append_eq_append_iff.mp hv with ⟨between, hbetween, -⟩ | ⟨rest, hmark, hrest⟩
    · exact ⟨between, hbetween⟩
    · cases rest with
      | nil => exact ⟨[], by rw [hmark, List.append_nil, List.append_nil]⟩
      | cons d rest =>
          obtain ⟨rfl, -⟩ := List.cons.inj hrest
          have hno := (hmarker c (by simp [hmark])).2
          rw [hb] at hno
          cases hno
  have hxs' : xs.take k ++ (dataMarker ++ between) = xs := by rw [← hsplit, List.take_append_drop]
  have hjoin : ∀ zs, xs.take k ++ (dataMarker ++ (between ++ zs)) = xs ++ zs := by
    intro zs
    rw [← List.append_assoc dataMarker, ← List.append_assoc, hxs']
  refine ⟨xs.take k, between, c, ys, ⟨(hjoin _).symm, ?_, hb, ?_⟩, ?_⟩
  · intro b hb
    have hmem : b ∈ xs.drop k := by
      rw [hsplit]
      exact List.mem_append_right _ hb
    have hbyte := hbetween (UInt8.ofNat b.toNat)
      (by rw [← List.map_drop]; exact List.mem_map_of_mem hmem)
    rwa [isDigitByte_ofNat (hxs b (List.mem_of_mem_drop hmem))] at hbyte
  · intro u v huv
    rw [List.length_take, Nat.min_eq_left hle]
    by_contra hlt
    refine hfirst u.length (by omega) ?_
    rw [hdrop, huv, List.drop_left, utf8_append]
    exact List.prefix_append _ _
  · have hnext : (nextDigitChar c).toNat < 128 := by
      have hdecimal := (isDigit_iff.mp (isDigit_nextDigitChar c)).2
      omega
    have htext : ∀ x ∈ xs ++ nextDigitChar c :: ys, x.toNat < 128 := by
      simp only [List.forall_mem_append, List.forall_mem_cons] at hascii ⊢
      exact ⟨hascii.1, hnext, hascii.2.2⟩
    rw [hflip, hjoin, hxs', utf8_ascii htext, List.map_append, List.map_cons, nextDigit_ofNat hb,
      List.length_map]

/-! ## The leaf that changes -/

/-- The first of some tokens with a digit that the marker stands before. -/
def leafAfter (before : List Char) : List Token → Option Token
  | [] => none
  | l :: ls =>
      if dataMarker <:+: before ∧ l.text.any isDigit = true then some l
        else leafAfter (before ++ l.text) ls

section

variable {repr : BitVec 64 → Number} {read : Number → BitVec 64} {sp : ℕ} {ls pre post : List Token}
  {l : Token}
  {before between after v : List Char} {c : Char}

lemma leafAfter_append (h : ∀ ls₁ t ls₂, pre = ls₁ ++ t :: ls₂ → t.text.any isDigit = true →
    ¬dataMarker <:+: before ++ textOf ls₁) :
    leafAfter before (pre ++ post) = leafAfter (before ++ textOf pre) post := by
  induction pre generalizing before with
  | nil => simp
  | cons t pre ih =>
      have hskip : ¬(dataMarker <:+: before ∧ t.text.any isDigit = true) := by
        rintro ⟨hmarker, hdigit⟩
        refine h [] t pre rfl hdigit ?_
        rwa [textOf_nil, List.append_nil]
      have hrest := @ih (before ++ t.text) fun ls₁ t' ls₂ heq hdigit => by
        have hno := h (t :: ls₁) t' ls₂ (by rw [heq]; rfl) hdigit
        rwa [textOf_cons, ← List.append_assoc] at hno
      rw [List.cons_append, leafAfter, if_neg hskip, hrest, textOf_cons, List.append_assoc]

lemma concat_inj {xs ys : List Char} {a b : Char} (h : xs ++ [a] = ys ++ [b]) :
    xs = ys ∧ a = b := by
  obtain ⟨hxs, hab⟩ := List.append_inj' h rfl
  exact ⟨hxs, List.singleton_inj.mp hab⟩

/-- A string does not begin inside the marker. -/
lemma marker_in_string {ps : List Piece} (hrepr : SpellsFinite read repr)
    (hpre : ∀ l ∈ pre, Spelled repr sp l) (hps : ∀ p ∈ ps, p.Ok)
    (hclosed : closed ps = v ++ ':' :: after)
    (hmarker : before ++ ['"', 'd', 'a', 't'] ++ ['a'] ++ ['"'] = textOf pre ++ '"' :: v) :
    False := by
  rcases List.eq_nil_or_concat' v with rfl | ⟨v, q, rfl⟩
  · exact textOf_ne_append_a hrepr hpre (concat_inj hmarker).1.symm
  · rw [← List.cons_append, ← List.append_assoc] at hmarker
    obtain ⟨hletters, rfl⟩ := concat_inj hmarker
    rcases List.eq_nil_or_concat' v with rfl | ⟨v, q, rfl⟩
    · exact absurd (concat_inj hletters).2 (by decide)
    · rw [← List.cons_append, ← List.append_assoc] at hletters
      obtain ⟨-, rfl⟩ := concat_inj hletters
      rw [List.append_assoc, List.append_assoc] at hclosed
      exact List.cons_ne_nil _ _ (closed_quote hps hclosed (by decide))

/-- The marker does not end inside a token with a digit. -/
lemma marker_ends (hrepr : SpellsFinite read repr) (hpre : ∀ l ∈ pre, Spelled repr sp l)
    (hl : Spelled repr sp l) (htext : l.text = v ++ (between ++ c :: after)) (hc : isDigit c = true)
    (hmarker : before ++ dataMarker = textOf pre ++ v) : v = [] := by
  rcases List.eq_nil_or_concat' v with rfl | ⟨v, q, rfl⟩
  · rfl
  exfalso
  have hall : before ++ dataMarker = before ++ ['"', 'd', 'a', 't'] ++ ['a'] ++ ['"'] ++ [':'] := by
    simp only [List.append_assoc]
    rfl
  rw [hall, ← List.append_assoc] at hmarker
  obtain ⟨hletters, rfl⟩ := concat_inj hmarker
  rw [List.append_assoc, List.singleton_append] at htext
  have hmem : ':' ∈ l.text ∧ c ∈ l.text := by simp [htext]
  have hreadable := hl.readable hrepr
  -- A token with a colon and a digit is a string.
  cases l with
  | mark text =>
      cases hl with
      | mark h =>
          have hno := ((marksOf_spec h).1 c hmem.2).2
          rw [hc] at hno
          cases hno
  | number t =>
      rcases hreadable.1.text_char hmem.1 with hdigit | hmark
      · cases hdigit
      · exact absurd hmark (by decide)
  | str ps =>
      cases v with
      | nil => exact absurd (List.cons.inj htext).1 (by decide)
      | cons q v =>
          obtain ⟨rfl, hclosed⟩ := List.cons.inj htext
          exact marker_in_string hrepr hpre hreadable hclosed hletters

/-- **The first digit after the marker stands in the first token after the marker that has one.** -/
lemma FirstDigit.exists_leaf (hrepr : SpellsFinite read repr) (hls : ∀ l ∈ ls, Spelled repr sp l)
    (h : FirstDigit (textOf ls) before between c after) :
    ∃ pre l post x y, ls = pre ++ l :: post ∧ l.text = x ++ c :: y ∧
      before ++ (dataMarker ++ between) = textOf pre ++ x ∧ after = y ++ textOf post ∧
        (∀ b ∈ x, isDigit b = false) ∧
      leafAfter [] ls = some l := by
  have hsplit : textOf ls = (before ++ (dataMarker ++ between)) ++ c :: after := by
    rw [h.split]
    simp only [List.append_assoc]
  obtain ⟨pre, l, post, x, y, rfl, hl, hbefore, hafter⟩ := flatMap_eq_append_cons hsplit
  have hspelled : Spelled repr sp l := hls l (by simp)
  have hpre : ∀ l ∈ pre, Spelled repr sp l := fun l hl => hls l (List.mem_append_left _ hl)
  -- The marker ends before the token.
  obtain ⟨v, hmarker, hbetween⟩ : ∃ v, textOf pre = (before ++ dataMarker) ++ v ∧
      between = v ++ x := by
    have hsides : (before ++ dataMarker) ++ between = textOf pre ++ x := by
      rw [List.append_assoc]
      exact hbefore
    rcases List.append_eq_append_iff.mp hsides with ⟨v, hpre, hbetween⟩ | ⟨v, hmarker, hx⟩
    · exact ⟨v, hpre, hbetween⟩
    · rw [hx, List.append_assoc] at hl
      obtain rfl := marker_ends hrepr hpre hspelled hl h.digit hmarker
      exact ⟨[], by rw [hmarker, List.append_nil, List.append_nil], hx.symm⟩
  refine ⟨pre, l, post, x, y, rfl, hl, hbefore, hafter, fun b hb => ?_, ?_⟩
  · exact h.between b (by rw [hbetween]; exact List.mem_append_right _ hb)
  · have hdigit : l.text.any isDigit = true := List.any_eq_true.mpr ⟨c, by simp [hl], h.digit⟩
    have hmarked : dataMarker <:+: textOf pre := ⟨before, v, hmarker.symm⟩
    rw [leafAfter_append, List.nil_append, leafAfter, if_pos ⟨hmarked, hdigit⟩]
    -- A token before it with a digit would stand between the marker and the digit.
    rintro ls₁ t ls₂ rfl hdigit ⟨u, w, hearly⟩
    obtain ⟨b, hb, hdigit⟩ := List.any_eq_true.mp hdigit
    rw [List.nil_append] at hearly
    have hle : before.length ≤ u.length := by
      refine h.first u (w ++ (t.text ++ textOf ls₂ ++ (l.text ++ textOf post))) ?_
      simp [← hearly]
    have hmem : b ∈ v := by
      rw [textOf_append, textOf_cons, ← hearly] at hmarker
      have hlength : (before ++ dataMarker).length ≤ (u ++ dataMarker ++ w).length := by
        simp only [List.length_append]
        omega
      obtain ⟨w', -, rfl⟩ : ∃ w', u ++ dataMarker ++ w = before ++ dataMarker ++ w' ∧
          v = w' ++ (t.text ++ textOf ls₂) := by
        rcases List.append_eq_append_iff.mp hmarker with ⟨w', heq, hv⟩ | ⟨w', heq, hv⟩
        · have hnil : w' = [] := by
            rw [heq, List.length_append] at hlength
            exact List.length_eq_zero_iff.mp (by omega)
          subst hnil
          exact ⟨[], by rw [heq, List.append_nil, List.append_nil], hv.symm⟩
        · exact ⟨w', heq, hv⟩
      simp [hb]
    have hno := h.between b (by rw [hbetween]; exact List.mem_append_left _ hmem)
    rw [hdigit] at hno
    cases hno

end

/-! ## What becomes of the event -/

/-- `serialize`, of any event object. -/
def serializeObject (event : PyValue) : List UInt8 := utf8 (dumps reprFloat 0 event)

/-- An event object: a dictionary that `json.loads` can return. -/
structure IsEvent (event : PyValue) : Prop where
  dict : ∃ fields, event = .dict fields
  loaded : Loaded IsFloat event

/-- The number or the string with the first digit after the marker. -/
def digitLeaf (event : PyValue) : Option Token := leafAfter [] ((docOf reprFloat event).tokens 0)

/-- The first digit of the leaf can become the next one: it is not a 9 before other digits of an
integer part, and not the 5 of `5e-324`. -/
def TakesNextDigit : Token → Prop
  | .number t => ¬(t.int.head? = some '9' ∧ 1 < t.int.length) ∧ t ≠ leastFloat t.neg
  | _ => True

section

variable {event : PyValue} {pre post : List Token} {l l' : Token} {x y : List Char} {c : Char}
  {t : Number}

lemma spellsFinite : SpellsFinite readFloat reprFloat := spells_reprFloat

lemma loaded_floats (h : Loaded IsFloat event) : Loaded (Floats readFloat reprFloat) event :=
  Loaded.mono (fun _ h => h.floats) event h

lemma loads_serializeObject (hevent : IsEvent event) :
    PyJson.loads readFloat (serializeObject event) = some event := by
  obtain ⟨⟨fields, rfl⟩, hloaded⟩ := hevent
  obtain ⟨hreadable, hvalue⟩ := value_docOf _ (loaded_floats hloaded)
  exact (loads_text readFloat hreadable).trans (congrArg some hvalue)

/-- Another leaf that can be read makes another event, if its value is another one. -/
lemma loads_leaf (hevent : IsEvent event)
    (htokens : (docOf reprFloat event).tokens 0 = pre ++ l :: post) (halike : l.Alike l')
    (hl' : l'.Readable) :
    ∃ w, PyJson.loads readFloat (utf8 (textOf (pre ++ l' :: post))) = some w ∧
      (w ≠ event ↔ l'.value readFloat ≠ l.value readFloat) := by
  obtain ⟨⟨fields, rfl⟩, hloaded⟩ := hevent
  obtain ⟨hreadable, hvalue⟩ := value_docOf _ (loaded_floats hloaded)
  obtain ⟨d', hedit, htokens'⟩ := exists_edit halike _ htokens
  have hd' : d'.Readable := hedit.readable hreadable hl'
  obtain ⟨fs', rfl⟩ := hedit.dict
  refine ⟨(Doc.dict fs').value readFloat, ?_, fun hne hsame => ?_, fun hne heq => ?_⟩
  · rw [← htokens']
    exact loads_text readFloat hd'
  · exact hne ((hedit.value_eq hsame).trans hvalue)
  · exact hedit.value_ne (distinct_docOf _ hloaded) hne (heq.trans hvalue.symm)

lemma loads_leaf_padded (hevent : IsEvent event)
    (htokens : (docOf reprFloat event).tokens 0 = pre ++ l :: post) (halike : l.Alike (.number t))
    (ht : t.Padded) :
    PyJson.loads readFloat (utf8 (textOf (pre ++ .number t :: post))) = none := by
  obtain ⟨⟨fields, rfl⟩, hloaded⟩ := hevent
  obtain ⟨hreadable, -⟩ := value_docOf _ (loaded_floats hloaded)
  obtain ⟨d', hedit, htokens'⟩ := exists_edit halike _ htokens
  rw [← htokens']
  exact loads_padded readFloat hedit hreadable ht

lemma nextDigitChar_eq_zero {c : Char} (hc : isDigit c = true) :
    nextDigitChar c = '0' ↔ c = '9' := by
  obtain ⟨hlow, hhigh⟩ := isDigit_iff.mp hc
  constructor
  · intro heq
    have hnat := congrArg Char.toNat heq
    rw [nextDigitChar, toNat_ofNat (by omega)] at hnat
    have hzero : '0'.toNat = 48 := rfl
    have hnine : '9'.toNat = 57 := rfl
    exact Char.toNat_inj.mp (by omega)
  · rintro rfl
    rfl

/-- A number that is written for a value has another value with the next digit, or is `5e-324`. -/
lemma value_nextDigit_iff {cs : List Char} (ht : Spelled reprFloat 0 (.number t))
    (hint : t.int = c :: cs) (hc : isDigit c = true) :
    ({ t with int := nextDigitChar c :: cs } : Number).value readFloat ≠ t.value readFloat ↔
      t ≠ leastFloat t.neg := by
  have hne := nextDigitChar_ne hc
  have hc' := isDigit_nextDigitChar c
  cases ht with
  | @int n h =>
      have hvalue := Number.toInt_flip_ne hint hc hc' hne
      refine iff_of_true (fun heq => hvalue (PyValue.int.inj heq)) fun heq => ?_
      cases congrArg Number.isFloat heq
  | @float bits h =>
      have hspells := spells_reprFloat h
      have hread : ∀ t : Number, t.isFloat = true → t.value readFloat = .float (readFloat t) :=
        fun t ht => if_pos ht
      have hfloat : ({ reprFloat bits with int := nextDigitChar c :: cs } : Number).isFloat =
          true := hspells.float
      rw [hread _ hspells.float, hread _ hfloat]
      refine ⟨fun hvalue hleast => hvalue ?_, fun hleast heq => hleast ?_⟩
      · generalize reprFloat bits = t at hint hleast
        obtain ⟨neg, rfl⟩ : ∃ neg, t = leastFloat neg := ⟨t.neg, hleast⟩
        obtain ⟨rfl, rfl⟩ := List.cons.inj hint
        exact congrArg PyValue.float (readFloat_next_least neg)
      · rw [readFloat_flip h hint hc' hne (PyValue.float.inj heq)]
        rfl

/-- **When the event with the next digit is JSON and another event.** -/
lemma tampered_iff (hevent : IsEvent event)
    (htokens : (docOf reprFloat event).tokens 0 = pre ++ l :: post) (hl : l.text = x ++ c :: y)
    (hx : ∀ b ∈ x, isDigit b = false) (hc : isDigit c = true) :
    (∃ w, PyJson.loads readFloat
      (utf8 (textOf pre ++ ((x ++ nextDigitChar c :: y) ++ textOf post))) = some w ∧ w ≠ event) ↔
        TakesNextDigit l := by
  have hspelled : Spelled reprFloat 0 l := spelled_docOf event hevent.loaded l (by simp [htokens])
  have hreadable := hspelled.readable spellsFinite
  have hne := nextDigitChar_ne hc
  have hc' := isDigit_nextDigitChar c
  have htext : ∀ l', l'.text = x ++ nextDigitChar c :: y →
      textOf pre ++ ((x ++ nextDigitChar c :: y) ++ textOf post) = textOf (pre ++ l' :: post) := by
    intro l' hl'
    rw [textOf_append, textOf_cons, hl']
  cases l with
  | mark text =>
      cases hspelled with
      | mark h =>
          have hno := ((marksOf_spec h).1 c (show c ∈ (Token.mark text).text by simp [hl])).2
          rw [hc] at hno
          cases hno
  | str ps =>
      obtain ⟨ps', hps', hl', hvalue⟩ := exists_str_flip hreadable hl hc hc' hne
      obtain ⟨w, hw, hiff⟩ := loads_leaf hevent htokens (.str ps ps') hps'
      rw [htext _ hl', hw]
      exact iff_of_true ⟨w, rfl, hiff.mpr fun heq => hvalue (PyValue.str.inj heq)⟩ trivial
  | number t =>
      obtain ⟨cs, hint, hflip⟩ := hreadable.1.first_digit hl hx hc
      rw [htext (.number { t with int := nextDigitChar c :: cs }) (hflip _)]
      by_cases hpad : c = '9' ∧ cs ≠ []
      · -- A zero would stand before other digits.
        obtain ⟨rfl, hcs⟩ := hpad
        have hnone := loads_leaf_padded hevent htokens (.number t _)
          (hreadable.1.padded_of_flip hint hcs)
        refine iff_of_false (fun ⟨w, hw, _⟩ => ?_) fun htakes => htakes.1 ?_
        · rw [show nextDigitChar '9' = '0' from rfl, hnone] at hw
          cases hw
        · rw [hint]
          exact ⟨rfl, by simpa using List.length_pos_iff.mpr hcs⟩
      · have hzero : nextDigitChar c = '0' → cs = [] := by
          intro heq
          by_contra hcs
          exact hpad ⟨(nextDigitChar_eq_zero hc).mp heq, hcs⟩
        obtain ⟨w, hw, hiff⟩ :=
          loads_leaf hevent htokens (.number t _) (Number.flip_readable hreadable hint hc' hzero)
        have hhead : ¬(t.int.head? = some '9' ∧ 1 < t.int.length) := by
          rintro ⟨hhead, hlength⟩
          rw [hint] at hhead hlength
          refine hpad ⟨Option.some.inj hhead, ?_⟩
          rintro rfl
          simp at hlength
        rw [hw]
        constructor
        · rintro ⟨v, hv, hother⟩
          obtain rfl := Option.some.inj hv
          exact ⟨hhead, (value_nextDigit_iff hspelled hint hc).mp (hiff.mp hother)⟩
        · rintro ⟨-, hleast⟩
          exact ⟨w, rfl, hiff.mpr ((value_nextDigit_iff hspelled hint hc).mpr hleast)⟩

end

/-! ## The fault -/

section

variable {hmacHex : List UInt8 → List UInt8 → String}

/-- The body that TAMPER_BODY wants for an event. -/
structure WellTampered (hmacHex : List UInt8 → List UInt8 → String) (event : PyValue)
    (tampered : List UInt8) (index : ℕ) : Prop where
  length : tampered.length = (serializeObject event).length
  /-- Exactly the byte at the index differs. -/
  differs : ∀ i, tampered[i]? ≠ (serializeObject event)[i]? ↔ i = index
  /-- It is JSON, and decodes to another value. -/
  decodes : ∃ w v, PyJson.loads readFloat tampered = some w ∧
    PyJson.loads readFloat (serializeObject event) = some v ∧ w ≠ v
  /-- No header that was made for the event verifies it. -/
  refused : ∀ (secret : String) (ts now : ℤ), (natDecimal ts.natAbs).length ≤ maxStrDigits →
    verify hmacHex tampered (sign hmacHex (serializeObject event) secret ts [] false none) secret
      defaultToleranceSeconds now ≠ .ok ()
  /-- It is what the fault delivers, with such a header. -/
  delivered : ∀ (target : EventFixture) (rest : List EventFixture) (secret : String)
    (params : Params) (now : ℤ),
    target.event.toPy = event → ∃ fp, plan hmacHex .tamperBody (target :: rest) secret params now =
      .ok fp ∧
      fp.params.byteIndex = some index ∧ fp.deliveries.map (fun d => (d.body, d.sigHeader)) =
        [(tampered, sign hmacHex (serializeObject event) secret now [] false none)]

lemma serialize_toPy (event : Json) : serializeObject event.toPy = serialize event := by
  rw [serializeObject, dumps_toPy, serialize]

lemma isEvent_toPy {fields : List (String × Json)} (h : (Json.obj fields).Canonical) :
    IsEvent (Json.obj fields).toPy :=
  ⟨⟨_, rfl⟩, loaded_toPy _ h⟩

lemma plan_tamperBody {target : EventFixture} {rest : List EventFixture} {secret : String}
    {params : Params} {now : ℤ} {tampered : List UInt8} {index : ℕ}
    (hflip : flipOneByte (serialize target.event) = .ok (tampered, index)) :
    plan hmacHex .tamperBody (target :: rest) secret params now =
      .ok (rejectedPlan .tamperBody target
        { (defaultParams .tamperBody).merge params with byteIndex := some index } tampered
        (sign hmacHex (serialize target.event) secret now [] false .none) .byteChanged) := by
  simp only [plan, hflip]
  rfl

/-- **When tampering keeps the JSON valid.**  The first digit after the data key becomes the next
one.  The body is JSON with another value exactly when that digit is not a 9 that starts a number of
more digits, which would start with a zero, and not the 5 of `5e-324`, as `6e-324` is the same
float.  The signature check refuses it in any case. -/
theorem tamper_keeps_json_valid_iff (hdigest : Digest hmacHex) (event : PyValue)
    (hevent : IsEvent event) (hdata : DigitAfterData (serializeObject event)) :
    (∃ tampered index, flipOneByte (serializeObject event) = .ok (tampered, index) ∧
        WellTampered hmacHex event tampered index) ↔
      ∃ l, digitLeaf event = some l ∧ TakesNextDigit l := by
  have hspelled : ∀ l ∈ (docOf reprFloat event).tokens 0, Spelled reprFloat 0 l :=
    spelled_docOf event hevent.loaded
  have hascii : ∀ c ∈ textOf ((docOf reprFloat event).tokens 0), c.toNat < 128 := by
    intro c hc
    obtain ⟨l, hl, hc⟩ := List.mem_flatMap.mp hc
    exact (hspelled l hl).ascii spellsFinite hc
  obtain ⟨before, between, c, after, hfirst, hflip⟩ := flipOneByte_text hascii hdata
  obtain ⟨pre, l, post, x, y, htokens, hl, hbefore, rfl, hx, hleaf⟩ :=
    hfirst.exists_leaf spellsFinite hspelled
  have htext : before ++ (dataMarker ++ (between ++ nextDigitChar c :: (y ++ textOf post))) =
      textOf pre ++ ((x ++ nextDigitChar c :: y) ++ textOf post) := by
    rw [← List.append_assoc dataMarker, ← List.append_assoc before, hbefore]
    simp only [List.append_assoc, List.cons_append]
  rw [htext] at hflip
  have hflip : flipOneByte (serializeObject event) = _ := hflip
  have hiff := tampered_iff hevent htokens hl hx hfirst.digit
  have hbody := loads_serializeObject hevent
  constructor
  · rintro ⟨tampered, index, hflip', hwell⟩
    obtain ⟨rfl, -⟩ := Prod.mk.inj (Except.ok.inj (hflip'.symm.trans hflip))
    obtain ⟨w, v, hw, hv, hne⟩ := hwell.decodes
    obtain rfl := Option.some.inj (hv.symm.trans hbody)
    exact ⟨l, hleaf, hiff.mp ⟨w, hw, hne⟩⟩
  · rintro ⟨l', hleaf', htakes⟩
    obtain rfl := Option.some.inj (hleaf'.symm.trans hleaf)
    obtain ⟨w, hw, hne⟩ := hiff.mpr htakes
    refine ⟨_, _, hflip, (flipOneByte_eq_ok hflip).1, flipOneByte_differs hflip,
      ⟨w, event, hw, hbody, hne⟩, ?_, ?_⟩
    · intro secret ts now hts
      exact verify_attack hdigest hts (.inl (flipOneByte_eq_ok hflip).2)
    · rintro target rest secret params now rfl
      rw [serialize_toPy] at hflip ⊢
      exact ⟨_, plan_tamperBody hflip, rfl, rfl⟩

/-- The payout of the labels, whose id has the first digit. -/
theorem tamper_keeps_json_valid_iff_payout : ∃ tampered index,
    flipOneByte (serializeObject paidPayout.event.toPy) = .ok (tampered, index) ∧
      WellTampered payoutHmacHex paidPayout.event.toPy tampered index := by
  refine (tamper_keeps_json_valid_iff payoutHmacHex_digest paidPayout.event.toPy ?_ ?_).mpr ?_
  · have hmoderate : Moderate 50594 0 0 1754300000 := by constructor <;> norm_num
    have hfaithful : paidPayout.Faithful payoutUuid5 paidPayout.asEvent "po_h000001" :=
      faithful_payout (by decide) (by decide) hmoderate
    exact isEvent_toPy (hfaithful.brief "evt_h000001" (by decide)).canonical
  · exact ⟨91, by decide +kernel, 48, by decide +kernel, by decide⟩
  · exact ⟨.str ((pyStr "po_h000001").flatMap piecesOf), by decide +kernel, trivial⟩

/-- An event about an amount, with nothing else in its data. -/
def amountEvent (amount : ℤ) : Json :=
  .obj [("id", .str "evt_1"), ("data", .obj [("object", .obj [("amount", .int amount)])])]

/-- Its body with an amount of 050. -/
def paddedBody : List UInt8 :=
  utf8 "\x7b\"id\":\"evt_1\",\"data\":\x7b\"object\":\x7b\"amount\":050\x7d\x7d\x7d".toList

/-- An amount of 950 becomes 050, which is not JSON. -/
theorem tamper_breaks_json :
    IsEvent (amountEvent 950).toPy ∧ DigitAfterData (serializeObject (amountEvent 950).toPy) ∧
      flipOneByte (serializeObject (amountEvent 950).toPy) = .ok (paddedBody, 41) ∧
      PyJson.loads readFloat paddedBody = none := by
  have hamount : (natDecimal (950 : ℤ).natAbs).length ≤ maxStrDigits := by decide
  refine ⟨isEvent_toPy ⟨by decide, trivial, ⟨by decide, ⟨by decide, hamount, trivial⟩, trivial⟩,
    trivial⟩, ⟨14, by decide, 57, by decide, by decide⟩, by decide +kernel, ?_⟩
  exact Option.isNone_iff_eq_none.mp (by decide +kernel)

end

end LedgerProof.Harness
