import LedgerProof.Lib.Python
import LedgerProof.Lib.Text

/-!
# Webhook signatures

`stripe_io/signature.py`: signing a body and verifying a `Stripe-Signature` header against it.

`hmacHex key message` stands for `hmac.new(key, message, hashlib.sha256).hexdigest()`.  What the
results use of it, that no two messages have the same digest under one key, is a hypothesis where it
is needed.

`parseHeader_eq_ok` reads a header the parser accepts as its items, and `verify_eq_ok` says what an
accepted header has: one timestamp, inside the window, and a v1 value that is the digest of that
timestamp and the body; `verify_sign_iff` says it of the headers that `sign` makes.  The signed
bytes determine both (`signedBytes_injective`), so a digest is good for one body and one time,
whatever else stands in the header (`signature_binds`).
-/

namespace LedgerProof

/-! ## Signing -/

/-- `f"{timestamp}.".encode() + payload`.  Rendering an integer fails past 4300 digits, which
`int(…)` never returns and no clock shows. -/
def signedBytes (timestamp : ℤ) (payload : List UInt8) : List UInt8 :=
  utf8 (decimal timestamp ++ ['.']) ++ payload

section

variable (hmacHex : List UInt8 → List UInt8 → String)

/-- `_v1_digest`. -/
def v1Digest (payload : List UInt8) (secret : String) (timestamp : ℤ) : String :=
  hmacHex (utf8 secret.toList) (signedBytes timestamp payload)

/-- The schemes `sign` emits with their digests: a v1 for every secret, then a v0 if it is asked
for, less those `only_schemes` leaves out. -/
def signSchemes (payload : List UInt8) (secret : String) (timestamp : ℤ)
    (extraV1Secrets : List String) (includeV0 : Bool) (onlySchemes : Option (List String)) :
    List (String × String) :=
  let wantsV0 := includeV0 || onlySchemes.any ("v0" ∈ ·)
  let schemes := (secret :: extraV1Secrets).map (fun s =>
    ("v1", v1Digest hmacHex payload s timestamp)) ++
    if wantsV0 then [("v0", v1Digest hmacHex payload secret timestamp)] else []
  schemes.filter fun s => onlySchemes.all (s.1 ∈ ·)

/-- `sign`: the header value for a body.  `onlySchemes` is `none` when not given. -/
def sign (payload : List UInt8) (secret : String) (timestamp : ℤ) (extraV1Secrets : List String)
    (includeV0 : Bool) (onlySchemes : Option (List String)) : String :=
  let schemes := signSchemes hmacHex payload secret timestamp extraV1Secrets includeV0 onlySchemes
  ",".intercalate (("t=" ++ String.ofList (decimal timestamp)) :: schemes.map fun s =>
    s.1 ++ "=" ++ s.2)

end

/-! ## Verifying -/

/-- `SignatureVerificationError`, by reason, and the `ValueError` for a tolerance that would switch
the recency check off. -/
inductive VerifyError
  | badTolerance
  | emptyBody
  /-- `malformed header item: …`. -/
  | malformedItem (item : String)
  /-- `non-integer timestamp: …`. -/
  | nonIntegerTimestamp (value : String)
  /-- `header must carry exactly one t=<unix> item`. -/
  | timestampCount
  /-- `no v1 signatures in header`. -/
  | noV1
  /-- `timestamp … outside tolerance (…s) of …`. -/
  | outsideTolerance (ts tolerance now : ℤ)
  /-- `no v1 signature matched`. -/
  | noMatch
  deriving DecidableEq, Repr

/-- The two lists the header loop fills. -/
structure Header where
  timestamps : List ℤ
  v1Candidates : List String
  deriving DecidableEq, Repr

/-- One turn of the header loop. -/
def parseItem (h : Header) (item : List Char) : Except VerifyError Header :=
  match partition '=' item with
  | (_, none) => .error (.malformedItem (String.ofList item))
  | (key, some value) =>
      if key = [] ∨ value = [] then .error (.malformedItem (String.ofList item))
      else if key = "t".toList then
        match intOfText (String.ofList value) with
        | some ts => .ok { h with timestamps := h.timestamps ++ [ts] }
        | none => .error (.nonIntegerTimestamp (String.ofList value))
      else if key = "v1".toList then
        .ok { h with v1Candidates := h.v1Candidates ++ [String.ofList value] }
      else .ok h

/-- The header loop. -/
def parseHeader (sigHeader : String) : Except VerifyError Header :=
  (split ',' sigHeader.toList).foldlM parseItem ⟨[], []⟩

section

variable (hmacHex : List UInt8 → List UInt8 → String)

/-- The part of `verify` after the header loop.  Comparing the encodings of two texts is comparing
the texts; every candidate is looked at. -/
def checkHeader (payload : List UInt8) (secret : String) (tolerance now : ℤ) (h : Header) :
    Except VerifyError Unit :=
  match h.timestamps with
  | [ts] =>
      if h.v1Candidates = [] then .error .noV1
      else if |now - ts| > tolerance then .error (.outsideTolerance ts tolerance now)
      else
        let expected := v1Digest hmacHex payload secret ts
        let matched := h.v1Candidates.foldl (fun matched c => if expected = c then true
          else matched) false
        if matched then .ok () else .error .noMatch
  | _ => .error .timestampCount

/-- `verify`, at the time `now`. -/
def verify (payload : List UInt8) (sigHeader secret : String) (tolerance now : ℤ) :
    Except VerifyError Unit := do
  if tolerance ≤ 0 then throw .badTolerance
  if payload = [] then throw .emptyBody
  let h ← parseHeader sigHeader
  checkHeader hmacHex payload secret tolerance now h

end

/-! ## What a header says -/

/-- The value of an item, if it has this key. -/
def itemValue (key : String) (item : List Char) : Option String :=
  match partition '=' item with
  | (k, some value) => if k = key.toList then some (String.ofList value) else none
  | (_, none) => none

/-- The values of the items with a key, in order. -/
def headerValues (key : String) (sigHeader : String) : List String :=
  (split ',' sigHeader.toList).filterMap (itemValue key)

/-- An item the header loop takes: a key and a value, and for a timestamp an integer. -/
def WellFormedItem (item : List Char) : Prop :=
  ∃ key value, partition '=' item = (key, some value) ∧ key ≠ [] ∧ value ≠ [] ∧
    (key = "t".toList → (intOfText (String.ofList value)).isSome)

/-- **One turn of the header loop.** -/
lemma parseItem_eq_ok {h h' : Header} {item : List Char} :
    parseItem h item = .ok h' ↔ WellFormedItem item ∧
      h' = ⟨h.timestamps ++ ((itemValue "t" item).bind intOfText).toList,
        h.v1Candidates ++ (itemValue "v1" item).toList⟩ := by
  unfold parseItem WellFormedItem itemValue
  rcases partition '=' item with ⟨key, _ | value⟩
  · simp
  by_cases hempty : key = [] ∨ value = []
  · simp only [hempty, if_true, reduceCtorEq, false_iff]
    rintro ⟨⟨k, v, hkv, hk, hv, -⟩, -⟩
    cases hkv
    exact hempty.elim hk hv
  obtain ⟨hk, hv⟩ := not_or.mp hempty
  have hwf : (∃ k v, (key, some value) = (k, some v) ∧ k ≠ [] ∧ v ≠ [] ∧
      (k = "t".toList → (intOfText (String.ofList v)).isSome)) ↔
      (key = "t".toList → (intOfText (String.ofList value)).isSome) := by
    constructor
    · rintro ⟨k, v, hkv, -, -, hint⟩
      cases hkv
      exact hint
    · exact fun hint => ⟨key, value, rfl, hk, hv, hint⟩
  rw [hwf]
  simp only [if_neg hempty]
  have htv : "t".toList ≠ "v1".toList := by decide
  by_cases ht : key = "t".toList
  · have hv1 : key ≠ "v1".toList := by rw [ht]; exact htv
    cases hint : intOfText (String.ofList value) with
    | none => simp [ht, hint]
    | some ts =>
        simp only [if_pos ht, if_neg hv1, hint, Except.ok.injEq, Option.bind_some,
          Option.toList_some, Option.toList_none, List.append_nil, Option.isSome_some, implies_true,
          true_and]
        exact eq_comm
  · by_cases hv1 : key = "v1".toList
    · simp only [if_false, if_pos hv1, Except.ok.injEq, Option.bind_none, Option.toList_some,
        Option.toList_none, List.append_nil, ht, false_imp_iff, true_and]
      exact eq_comm
    · simp only [if_false, if_neg hv1, Except.ok.injEq, Option.bind_none, Option.toList_none,
        List.append_nil, ht, false_imp_iff, true_and]
      exact eq_comm

/-- **What the header loop collects.**  It goes through when every item is well formed, and then has
the integers of the `t` items and the values of the `v1` items. -/
lemma foldlM_parseItem {items : List (List Char)} {h h' : Header} :
    items.foldlM parseItem h = .ok h' ↔ (∀ item ∈ items, WellFormedItem item) ∧
      h' = ⟨h.timestamps ++ items.filterMap fun item => (itemValue "t" item).bind intOfText,
        h.v1Candidates ++ items.filterMap (itemValue "v1")⟩ := by
  induction items generalizing h with
  | nil => simp [pure, Except.pure, eq_comm]
  | cons item items ih =>
      rw [List.foldlM_cons, except_bind_eq_ok, List.forall_mem_cons]
      constructor
      · rintro ⟨h₁, hitem, hrest⟩
        obtain ⟨hwf, rfl⟩ := parseItem_eq_ok.mp hitem
        obtain ⟨hall, rfl⟩ := ih.mp hrest
        refine ⟨⟨hwf, hall⟩, ?_⟩
        rw [List.filterMap_cons, List.filterMap_cons]
        cases (itemValue "t" item).bind intOfText <;> cases itemValue "v1" item <;> simp
      · rintro ⟨⟨hwf, hall⟩, rfl⟩
        refine ⟨_, parseItem_eq_ok.mpr ⟨hwf, rfl⟩, ih.mpr ⟨hall, ?_⟩⟩
        rw [List.filterMap_cons, List.filterMap_cons]
        cases (itemValue "t" item).bind intOfText <;> cases itemValue "v1" item <;> simp

lemma parseHeader_eq_ok {sigHeader : String} {h : Header} :
    parseHeader sigHeader = .ok h ↔ (∀ item ∈ split ',' sigHeader.toList, WellFormedItem item) ∧
      h = ⟨(headerValues "t" sigHeader).filterMap intOfText, headerValues "v1" sigHeader⟩ := by
  rw [parseHeader, foldlM_parseItem, headerValues, headerValues, List.filterMap_filterMap]
  simp

/-- A well-formed header has an integer for each of its `t` items. -/
lemma isSome_of_wellFormed {sigHeader : String}
    (h : ∀ item ∈ split ',' sigHeader.toList, WellFormedItem item) :
    ∀ text ∈ headerValues "t" sigHeader, (intOfText text).isSome := by
  intro text htext
  obtain ⟨item, hitem, hvalue⟩ := List.mem_filterMap.mp htext
  obtain ⟨key, value, hpart, -, -, hint⟩ := h item hitem
  simp only [itemValue, hpart] at hvalue
  split_ifs at hvalue with hkey
  cases hvalue
  exact hint hkey

lemma filterMap_eq_singleton {texts : List String} (h : ∀ text ∈ texts, (intOfText text).isSome)
    {ts : ℤ} :
    texts.filterMap intOfText = [ts] ↔ ∃ text, texts = [text] ∧ intOfText text = some ts := by
  rcases texts with _ | ⟨a, _ | ⟨b, texts⟩⟩
  · simp
  · obtain ⟨n, hn⟩ := Option.isSome_iff_exists.mp (h a (by simp))
    simp [hn]
  · obtain ⟨n, hn⟩ := Option.isSome_iff_exists.mp (h a (by simp))
    obtain ⟨m, hm⟩ := Option.isSome_iff_exists.mp (h b (by simp))
    simp [hn, hm]

lemma foldl_matched {expected : String} (cs : List String) (b : Bool) :
    cs.foldl (fun matched c => if expected = c then true else matched) b =
      (b || decide (expected ∈ cs)) := by
  induction cs generalizing b with
  | nil => simp
  | cons c cs ih =>
      rw [List.foldl_cons, ih]
      by_cases hc : expected = c <;> simp [hc]

section

variable {hmacHex : List UInt8 → List UInt8 → String}

lemma checkHeader_eq_ok {payload : List UInt8} {secret : String} {tolerance now : ℤ} {h : Header} :
    checkHeader hmacHex payload secret tolerance now h = .ok () ↔
      ∃ ts, h.timestamps = [ts] ∧ |now - ts| ≤ tolerance ∧
        v1Digest hmacHex payload secret ts ∈ h.v1Candidates := by
  unfold checkHeader
  rcases h.timestamps with _ | ⟨ts, _ | ⟨ts', rest⟩⟩
  · simp
  · simp only [foldl_matched, Bool.false_or, decide_eq_true_iff, List.cons.injEq, and_true,
      exists_eq_left']
    by_cases hempty : h.v1Candidates = []
    · simp [hempty]
    · by_cases hwindow : |now - ts| > tolerance
      · simp [hempty, hwindow]
      · by_cases hmatch : v1Digest hmacHex payload secret ts ∈ h.v1Candidates
        · simp [hempty, hmatch, not_lt.mp hwindow]
        · simp [hempty, hmatch, not_lt.mpr (not_lt.mp hwindow)]
  · simp

/-- **What an accepted header has.** -/
lemma verify_eq_ok {payload : List UInt8} {sigHeader secret : String} {tolerance now : ℤ} :
    verify hmacHex payload sigHeader secret tolerance now = .ok () ↔
      0 < tolerance ∧ payload ≠ [] ∧ (∀ item ∈ split ',' sigHeader.toList, WellFormedItem item) ∧
      ∃ text ts, headerValues "t" sigHeader = [text] ∧ intOfText text = some ts ∧
        |now - ts| ≤ tolerance ∧
            v1Digest hmacHex payload secret ts ∈ headerValues "v1" sigHeader := by
  unfold verify
  by_cases htol : tolerance ≤ 0
  · simp [htol, throw, throwThe, MonadExceptOf.throw, not_lt.mpr htol]
  by_cases hbody : payload = []
  · simp [htol, hbody, throw, throwThe, MonadExceptOf.throw]
  have htol' : 0 < tolerance := not_le.mp htol
  simp only [htol, if_false, hbody, htol', true_and, ne_eq, not_false_eq_true]
  cases hparse : parseHeader sigHeader with
  | error err =>
      have hwf : ¬ ∀ item ∈ split ',' sigHeader.toList, WellFormedItem item := fun hwf => by
        rw [parseHeader_eq_ok.mpr ⟨hwf, rfl⟩] at hparse
        cases hparse
      simp [hwf]
  | ok h =>
      obtain ⟨hwf, rfl⟩ := parseHeader_eq_ok.mp hparse
      have hone := fun ts => @filterMap_eq_singleton _ (isSome_of_wellFormed hwf) ts
      show checkHeader hmacHex payload secret tolerance now _ = .ok () ↔ _
      rw [checkHeader_eq_ok]
      simp only [hone]
      constructor
      · rintro ⟨ts, ⟨text, htext, hint⟩, hwindow, hmem⟩
        exact ⟨hwf, text, ts, htext, hint, hwindow, hmem⟩
      · rintro ⟨-, text, ts, htext, hint, hwindow, hmem⟩
        exact ⟨ts, ⟨text, htext, hint⟩, hwindow, hmem⟩

end

/-! ## Verifying what was signed -/

lemma decimalValue_of_isDecimal {c : Char} (h : IsDecimal c) :
    decimalValue c = some (c.toNat - 48) := by
  unfold decimalValue decimalZeros
  rw [List.find?_cons_of_pos (by simpa using (show 48 ≤ c.toNat ∧ c.toNat < 58 from h))]
  rfl

lemma digitsValue_of_isDecimal {cs : List Char} (h : ∀ c ∈ cs, IsDecimal c) (acc : ℕ) :
    digitsValue cs acc true = some (acc * 10 ^ cs.length + decimalValueOf cs) := by
  induction cs generalizing acc with
  | nil => simp [digitsValue, decimalValueOf]
  | cons c cs ih =>
      obtain ⟨hc, hcs⟩ := List.forall_mem_cons.mp h
      have hne : c ≠ '_' := by
        rintro rfl
        exact absurd hc.2 (by decide)
      have hvalue : decimalValueOf (c :: cs) = (c.toNat - 48) * 10 ^ cs.length +
          decimalValueOf cs := by
        unfold decimalValueOf
        rw [List.reverse_cons, List.map_append, Nat.ofDigits_append]
        simp [mul_comm, add_comm]
      simp only [digitsValue, hne, if_false, decimalValue_of_isDecimal hc]
      rw [ih hcs, hvalue, List.length_cons, pow_succ]
      congr 1
      ring

lemma isIntSpace_of_decimal {n : ℤ} {c : Char} (h : c ∈ decimal n) : isIntSpace c = false := by
  rcases decimal_ascii h with rfl | ⟨hlow, hhigh⟩
  · decide
  · unfold isIntSpace
    simp only [Bool.or_eq_false_iff, Bool.and_eq_false_iff, decide_eq_false_iff_not, List.mem_cons,
      List.not_mem_nil, or_false]
    omega

/-- **An integer is read back from its text.** -/
lemma intOfText_decimal {n : ℤ} (hlength : (natDecimal n.natAbs).length ≤ maxStrDigits) :
    intOfText (String.ofList (decimal n)) = some n := by
  have hkeep : ∀ cs : List Char, (∀ c ∈ cs, isIntSpace c = false) →
      cs.dropWhile isIntSpace = cs := by
    intro cs hcs
    cases cs with
    | nil => rfl
    | cons c cs => exact List.dropWhile_cons_of_neg (by simp [hcs c (by simp)])
  have hbody : (((String.ofList (decimal n)).toList.dropWhile isIntSpace).reverse.dropWhile
      isIntSpace).reverse =
      decimal n := by
    rw [String.toList_ofList, hkeep _ fun c hc => isIntSpace_of_decimal hc,
      hkeep _ fun c hc => isIntSpace_of_decimal (List.mem_reverse.mp hc), List.reverse_reverse]
  have hdec : ∀ c ∈ natDecimal n.natAbs, IsDecimal c := fun c hc => natDecimal_isDecimal _ hc
  have hmagnitude : (if ((natDecimal n.natAbs).filter (· ≠ '_')).length ≤ maxStrDigits then
      (digitsValue (natDecimal n.natAbs) 0 false).map Int.ofNat
        else none) = some (n.natAbs : ℤ) := by
    rw [if_pos ((List.length_filter_le _ _).trans hlength)]
    obtain ⟨d, ds, hcons⟩ := List.exists_cons_of_ne_nil (natDecimal_ne_nil n.natAbs)
    have hvalue := decimalValueOf_natDecimal n.natAbs
    rw [hcons] at hdec hvalue ⊢
    have hne : d ≠ '_' := by
      rintro rfl
      exact absurd (hdec '_' (by simp)).2 (by decide)
    have hfirst : digitsValue (d :: ds) 0 false = digitsValue (d :: ds) 0 true := by
      simp only [digitsValue, hne, if_false]
    rw [hfirst, digitsValue_of_isDecimal hdec, hvalue]
    simp
  unfold intOfText
  rw [hbody]
  by_cases hn : n < 0
  · rw [decimal, if_pos hn]
    simp only [hmagnitude, Option.map_some, Option.some.injEq]
    omega
  · rw [decimal, if_neg hn]
    obtain ⟨d, ds, hcons⟩ := List.exists_cons_of_ne_nil (natDecimal_ne_nil n.natAbs)
    have hd : IsDecimal d := hdec d (by simp [hcons])
    have hsign : d ≠ '-' ∧ d ≠ '+' := by
      constructor
      · rintro rfl
        exact absurd hd.1 (by decide)
      · rintro rfl
        exact absurd hd.1 (by decide)
    rw [hcons] at hmagnitude ⊢
    dsimp only
    split
    · rename_i heq
      exact absurd (List.cons.inj heq).1 hsign.1
    · rename_i heq
      exact absurd (List.cons.inj heq).1 hsign.2
    · rw [hmagnitude]
      congr 1
      omega

/-- A digest is text that an item of the header can carry. -/
def DigestText (hmacHex : List UInt8 → List UInt8 → String) : Prop :=
  ∀ key message, hmacHex key message ≠ "" ∧ ',' ∉ (hmacHex key message).toList

section

variable {hmacHex : List UInt8 → List UInt8 → String} {payload payload' : List UInt8}
  {secret secret' : String}
  {ts tolerance now : ℤ} {extraV1Secrets : List String} {includeV0 : Bool}
    {onlySchemes : Option (List String)}

/-- The items of a header that `sign` makes, with their keys. -/
def signItems (hmacHex : List UInt8 → List UInt8 → String) (payload : List UInt8) (secret : String)
    (timestamp : ℤ) (extraV1Secrets : List String) (includeV0 : Bool)
    (onlySchemes : Option (List String)) :
    List (String × String) :=
  ("t", String.ofList (decimal timestamp)) ::
    signSchemes hmacHex payload secret timestamp extraV1Secrets includeV0 onlySchemes

lemma signSchemes_mem {s : String × String}
    (h : s ∈ signSchemes hmacHex payload secret ts extraV1Secrets includeV0 onlySchemes) :
    (s.1 = "v1" ∨ s.1 = "v0") ∧ ∃ key message, s.2 = hmacHex key message := by
  obtain ⟨h, -⟩ := List.mem_filter.mp h
  rcases List.mem_append.mp h with h | h
  · obtain ⟨secret', -, rfl⟩ := List.mem_map.mp h
    exact ⟨.inl rfl, _, _, rfl⟩
  · split_ifs at h
    · rw [List.mem_singleton.mp h]
      exact ⟨.inr rfl, _, _, rfl⟩
    · simp at h

lemma signItems_mem (hdigest : DigestText hmacHex) {s : String × String}
    (h : s ∈ signItems hmacHex payload secret ts extraV1Secrets includeV0 onlySchemes) :
    (s.1 = "t" ∨ s.1 = "v1" ∨ s.1 = "v0") ∧ s.2 ≠ "" ∧ ',' ∉ s.2.toList := by
  rcases List.mem_cons.mp h with rfl | h
  · refine ⟨.inl rfl, ?_, ?_⟩
    · intro hnil
      have : decimal ts = [] := by simpa using congrArg String.toList hnil
      unfold decimal at this
      split_ifs at this
      exact natDecimal_ne_nil _ this
    · rw [String.toList_ofList]
      intro hmem
      rcases decimal_ascii hmem with heq | ⟨hlow, -⟩
      · revert heq
        decide
      · revert hlow
        decide
  · obtain ⟨hname, key, message, hvalue⟩ := signSchemes_mem h
    rw [hvalue]
    exact ⟨.inr hname, hdigest key message⟩

/-- **The items of a signed header**, read back. -/
lemma split_sign (hdigest : DigestText hmacHex) :
    split ',' (sign hmacHex payload secret ts extraV1Secrets includeV0 onlySchemes).toList =
      (signItems hmacHex payload secret ts extraV1Secrets includeV0 onlySchemes).map
        fun s => s.1.toList ++ '=' :: s.2.toList := by
  have hsign : sign hmacHex payload secret ts extraV1Secrets includeV0 onlySchemes =
      ",".intercalate ((signItems hmacHex payload secret ts extraV1Secrets includeV0
        onlySchemes).map
        fun s => s.1 ++ "=" ++ s.2) := by
    simp [sign, signItems]
  rw [hsign, String.toList_intercalate, List.map_map, split]
  have htext : ∀ s : String × String, (String.toList ∘ fun s => s.1 ++ "=" ++ s.2) s =
      s.1.toList ++ '=' :: s.2.toList := fun s => by simp
  rw [List.map_congr_left fun s _ => htext s]
  refine List.splitOn_intercalate ',' (fun l hl => ?_) (by simp [signItems])
  obtain ⟨s, hs, rfl⟩ := List.mem_map.mp hl
  obtain ⟨hname, -, hcomma⟩ := signItems_mem hdigest hs
  simp only [List.mem_append, List.mem_cons, not_or]
  refine ⟨?_, by decide, hcomma⟩
  rcases hname with h | h | h <;> rw [h] <;> decide

lemma partition_signItem (hdigest : DigestText hmacHex) {s : String × String}
    (h : s ∈ signItems hmacHex payload secret ts extraV1Secrets includeV0 onlySchemes) :
    partition '=' (s.1.toList ++ '=' :: s.2.toList) = (s.1.toList, some s.2.toList) := by
  refine partition_append ?_
  rcases (signItems_mem hdigest h).1 with h | h | h <;> rw [h] <;> decide

lemma headerValues_sign (hdigest : DigestText hmacHex) (key : String) :
    headerValues key (sign hmacHex payload secret ts extraV1Secrets includeV0 onlySchemes) =
      ((signItems hmacHex payload secret ts extraV1Secrets includeV0 onlySchemes).filter
        (·.1 = key)).map (·.2) := by
  rw [headerValues, split_sign hdigest, List.filterMap_map, ← List.filterMap_eq_map,
    ← List.filterMap_eq_filter, List.filterMap_filterMap]
  refine List.filterMap_congr fun s hs => ?_
  have hvalue : itemValue key (s.1.toList ++ '=' :: s.2.toList) = if s.1 = key then some s.2
      else none := by
    rw [itemValue, partition_signItem hdigest hs]
    simp [String.toList_inj]
  rw [Function.comp_apply, hvalue]
  by_cases h : s.1 = key <;> simp [Option.guard, h]

/-- **What a signed header is good for**: the time it was made, and a body with the digest of the
secret that verifies among its v1 digests. -/
lemma verify_sign_iff (hdigest : DigestText hmacHex)
    (hlength : (natDecimal ts.natAbs).length ≤ maxStrDigits) :
    verify hmacHex payload' (sign hmacHex payload secret ts extraV1Secrets includeV0 onlySchemes)
        secret'
        tolerance now = .ok () ↔
      0 < tolerance ∧ payload' ≠ [] ∧ |now - ts| ≤ tolerance ∧
        ("v1", v1Digest hmacHex payload' secret' ts) ∈
          signSchemes hmacHex payload secret ts extraV1Secrets includeV0 onlySchemes := by
  have hint := intOfText_decimal hlength
  have hwf : ∀ item ∈ split ','
      (sign hmacHex payload secret ts extraV1Secrets includeV0 onlySchemes).toList,
      WellFormedItem item := by
    intro item hitem
    rw [split_sign hdigest] at hitem
    obtain ⟨s, hs, rfl⟩ := List.mem_map.mp hitem
    obtain ⟨hname, hvalue, -⟩ := signItems_mem hdigest hs
    refine ⟨_, _, partition_signItem hdigest hs, ?_, by simpa using hvalue, fun ht => ?_⟩
    · rcases hname with h | h | h <;> rw [h] <;> decide
    · rcases List.mem_cons.mp hs with rfl | hs
      · simpa using congrArg Option.isSome hint
      · rcases (signSchemes_mem hs).1 with h | h <;> rw [h] at ht <;> exact absurd ht (by decide)
  have htimes : headerValues "t"
      (sign hmacHex payload secret ts extraV1Secrets includeV0 onlySchemes) =
      [String.ofList (decimal ts)] := by
    rw [headerValues_sign hdigest, signItems, List.filter_cons_of_pos (by simp),
      List.filter_eq_nil_iff.mpr]
    · rfl
    · intro s hs
      rcases (signSchemes_mem hs).1 with h | h <;> rw [h] <;> decide
  have hvalues : ∀ v,
      v ∈ headerValues "v1" (sign hmacHex payload secret ts extraV1Secrets includeV0 onlySchemes) ↔
      ("v1", v) ∈ signSchemes hmacHex payload secret ts extraV1Secrets includeV0 onlySchemes := by
    intro v
    rw [headerValues_sign hdigest, signItems, List.filter_cons_of_neg (by simp)]
    simp
  rw [verify_eq_ok]
  constructor
  · rintro ⟨htol, hbody, -, text, ts', htext, hts, hwindow, hmem⟩
    rw [htimes] at htext
    obtain rfl := List.singleton_inj.mp htext
    rw [hint] at hts
    obtain rfl := Option.some_inj.mp hts
    exact ⟨htol, hbody, hwindow, (hvalues _).mp hmem⟩
  · rintro ⟨htol, hbody, hwindow, hmem⟩
    exact ⟨htol, hbody, hwf, _, ts, htimes, hint, hwindow, (hvalues _).mpr hmem⟩

end

/-! ## What a signature binds -/

/-- **The signed bytes determine the timestamp and the body**, also where the body itself starts
with digits and dots: the first dot ends the timestamp. -/
lemma signedBytes_injective : Function.Injective fun p : ℤ × List UInt8 => signedBytes p.1 p.2 := by
  rintro ⟨ts, payload⟩ ⟨ts', payload'⟩ h
  have hascii : ∀ n : ℤ, ∀ c ∈ decimal n, c.toNat < 128 ∧ c ≠ '.' := by
    intro n c hc
    rcases decimal_ascii hc with rfl | ⟨hlow, hhigh⟩
    · decide
    · refine ⟨by omega, ?_⟩
      rintro rfl
      revert hlow
      decide
  have hbytes : ∀ n payload, signedBytes n payload =
      (decimal n).map (fun c => UInt8.ofNat c.toNat) ++ UInt8.ofNat '.'.toNat :: payload := by
    intro n payload
    have hdot : utf8 ['.'] = [UInt8.ofNat '.'.toNat] := by decide
    rw [signedBytes, utf8_append, utf8_ascii fun c hc => (hascii n c hc).1, hdot, List.append_assoc]
    rfl
  have hsep : ∀ n : ℤ, UInt8.ofNat '.'.toNat ∉ (decimal n).map fun c => UInt8.ofNat c.toNat := by
    intro n hmem
    obtain ⟨c, hc, heq⟩ := List.mem_map.mp hmem
    exact (hascii n c hc).2 (ofNat_toNat_inj (hascii n c hc).1 (by decide) heq)
  simp only [hbytes] at h
  obtain ⟨hts, rfl⟩ := append_cons_inj_left (hsep ts) (hsep ts') h
  have hdec : decimal ts = decimal ts' :=
    map_ofNat_toNat_inj (fun c hc => (hascii ts c hc).1) (fun c hc => (hascii ts' c hc).1) hts
  rw [decimal_injective hdec]

/-- A header put together from the digests of honestly signed bodies: every v1 value is such a
digest, or text that is no digest of anything under the secret.  Nothing is asked of the other
items, of the order, of repetitions, or of the timestamp. -/
def Assembled (hmacHex : List UInt8 → List UInt8 → String) (secret : String)
    (honest : Set (List UInt8 × ℤ)) (sigHeader : String) : Prop :=
  ∀ v ∈ headerValues "v1" sigHeader,
    (∃ p ∈ honest, v = v1Digest hmacHex p.1 secret p.2) ∨ ∀ message,
    v ≠ hmacHex (utf8 secret.toList) message

/-- **A signature binds the exact body and timestamp.**  The signed bytes are injective in timestamp
and body.  With a digest that is injective in its message under the secret, a header assembled from
honest digests is accepted only with the body and the time of one honestly signed pair; and a header
accepted with a body at two times was accepted within twice the tolerance. -/
theorem signature_binds (hmacHex : List UInt8 → List UInt8 → String) (secret : String)
    (hinj : Function.Injective (hmacHex (utf8 secret.toList))) :
    (Function.Injective fun p : ℤ × List UInt8 => signedBytes p.1 p.2) ∧
      (∀ (honest : Set (List UInt8 × ℤ)) (payload : List UInt8) (sigHeader : String)
        (tolerance now : ℤ), Assembled hmacHex secret honest sigHeader →
        verify hmacHex payload sigHeader secret tolerance now = .ok () →
        ∃ text ts, headerValues "t" sigHeader = [text] ∧ intOfText text = some ts ∧
          (payload, ts) ∈ honest) ∧
      ∀ (payload : List UInt8) (sigHeader : String) (tolerance now₁ now₂ : ℤ),
        verify hmacHex payload sigHeader secret tolerance now₁ = .ok () →
        verify hmacHex payload sigHeader secret tolerance now₂ = .ok () →
        |now₁ - now₂| ≤ 2 * tolerance := by
  refine ⟨signedBytes_injective, ?_, ?_⟩
  · intro honest payload sigHeader tolerance now hassembled hok
    obtain ⟨-, -, -, text, ts, htext, hint, -, hmem⟩ := verify_eq_ok.mp hok
    refine ⟨text, ts, htext, hint, ?_⟩
    rcases hassembled _ hmem with ⟨⟨body, time⟩, hhonest, hdigest⟩ | hforeign
    · -- one digest, so one signed message, so one body and time
      have hsigned : signedBytes ts payload = signedBytes time body := hinj hdigest
      obtain ⟨rfl, rfl⟩ := Prod.mk.inj (@signedBytes_injective (ts, payload) (time, body) hsigned)
      exact hhonest
    · exact absurd rfl (hforeign _)
  · intro payload sigHeader tolerance now₁ now₂ hok₁ hok₂
    obtain ⟨-, -, -, text, ts, htext, hint, hwindow₁, -⟩ := verify_eq_ok.mp hok₁
    obtain ⟨-, -, -, text', ts', htext', hint', hwindow₂, -⟩ := verify_eq_ok.mp hok₂
    obtain rfl : text = text' := List.singleton_inj.mp (htext.symm.trans htext')
    obtain rfl : ts = ts' := Option.some_inj.mp (hint.symm.trans hint')
    have hsub : now₁ - now₂ = (now₁ - ts) - (now₂ - ts) := by ring
    rw [hsub]
    calc |(now₁ - ts) - (now₂ - ts)| ≤ |now₁ - ts| + |now₂ - ts| := abs_sub _ _
      _ ≤ 2 * tolerance := by omega

/-! ### A header with a digest of its own body and one of another -/

/-- `{"id":"evt_1"}`. -/
def sampleBody : List UInt8 := [123, 34, 105, 100, 34, 58, 34, 101, 118, 116, 95, 49, 34, 125]

/-- A secret. -/
def sampleSecret : String := "whsec_9f86d081884c7d659a2feaa0c55ad015"

/-- A digest that has the value of HMAC-SHA256 for the sample body at 1754300000 under the sample
secret, and tells all other messages apart. -/
def sampleHmacHex (_ message : List UInt8) : String :=
  if message = signedBytes 1754300000 sampleBody then
    "d028ff742530e327bb93767b88e28fb766fa6c71360a1a1c092c4f98d6a746e5"
  else String.ofList ('x' :: message.map fun b => Char.ofNat b.toNat)

lemma sampleHmacHex_injective (key : List UInt8) : Function.Injective (sampleHmacHex key) := by
  have hchar : ∀ b : UInt8, (Char.ofNat b.toNat).toNat = b.toNat := by
    intro b
    have hlt := b.toNat_lt
    exact toNat_ofNat (by omega)
  have hinj : Function.Injective fun b : UInt8 => Char.ofNat b.toNat := by
    intro b b' h
    have hnat := congrArg Char.toNat h
    simp only [hchar] at hnat
    exact UInt8.toNat_inj.mp hnat
  intro m m' h
  unfold sampleHmacHex at h
  split_ifs at h with hm hm' hm'
  · rw [hm, hm']
  · have hhead := congrArg (fun s : String => s.toList.head?) h
    simp at hhead
  · have hhead := congrArg (fun s : String => s.toList.head?) h
    simp at hhead
  · have hlist := String.ofList_injective h
    exact (List.map_injective_iff.mpr hinj) (List.cons.inj hlist).2

/-- The header `sign` makes, with an item of another scheme and a v1 value that is no digest spliced
in, is accepted with its own body and time. -/
theorem signature_binds_spliced :
    verify sampleHmacHex sampleBody
        ("v1=00,v0=ff," ++ sign sampleHmacHex sampleBody sampleSecret 1754300000 [] false none)
        sampleSecret 300 1754300100 = .ok () ∧
      ∃ text ts, headerValues "t"
          ("v1=00,v0=ff," ++ sign sampleHmacHex sampleBody sampleSecret 1754300000 [] false none) =
            [text] ∧
        intOfText text = some ts ∧
          (sampleBody, ts) ∈ ({(sampleBody, 1754300000)} : Set (List UInt8 × ℤ)) := by
  have hok : verify sampleHmacHex sampleBody
      ("v1=00,v0=ff," ++ sign sampleHmacHex sampleBody sampleSecret 1754300000 [] false none)
      sampleSecret 300 1754300100 = .ok () := by decide
  refine ⟨hok, (signature_binds sampleHmacHex sampleSecret (sampleHmacHex_injective _)).2.1 _ _ _ _
    _ ?_ hok⟩
  have hvalues : headerValues "v1"
      ("v1=00,v0=ff," ++ sign sampleHmacHex sampleBody sampleSecret 1754300000 [] false none) =
      ["00", v1Digest sampleHmacHex sampleBody sampleSecret 1754300000] := by decide
  intro v hv
  rw [hvalues] at hv
  rcases List.mem_cons.mp hv with rfl | hv
  · refine .inr fun message heq => ?_
    unfold sampleHmacHex at heq
    split_ifs at heq
    · revert heq
      decide
    · have hhead := congrArg (fun s : String => s.toList.head?) heq
      simp at hhead
  · exact .inl ⟨_, rfl, List.mem_singleton.mp hv⟩

end LedgerProof
