import LedgerProof.StripeIo.Signature

/-!
# The headers that are accepted

`verify` reads a header item by item and checks in a fixed order.  The headers it accepts are those
of a grammar (`verify_eq_ok` of `StripeIo/Signature.lean`), and a header is accepted or not whatever
the order of its items, however often a v1 item is repeated, and whatever items of other schemes it
carries (`verify_accepts_grammar`).

A header that `sign` made is good for the time it was made and for the secrets whose v1 digests it
carries (`sign_verify_roundtrip`).
-/

namespace LedgerProof

/-- A `SignatureVerificationError`; the other error is a `ValueError`. -/
def VerifyError.isSignatureVerificationError : VerifyError → Bool
  | .badTolerance => false
  | _ => true

/-- The header with these items. -/
def headerOf (items : List String) : String := ",".intercalate items

section

variable {hmacHex : List UInt8 → List UInt8 → String} {payload : List UInt8}
  {sigHeader secret : String}
  {tolerance now : ℤ} {items items' : List String} {item : String}

/-! ## Errors -/

lemma parseItem_error {h : Header} {item : List Char} {err : VerifyError}
    (herr : parseItem h item = .error err) :
    err.isSignatureVerificationError = true := by
  unfold parseItem at herr
  split at herr
  · cases herr
    rfl
  · split_ifs at herr
    · cases herr
      rfl
    · split at herr
      · cases herr
      · cases herr
        rfl

lemma parseHeader_error {err : VerifyError} (herr : parseHeader sigHeader = .error err) :
    err.isSignatureVerificationError = true := by
  unfold parseHeader at herr
  generalize (⟨[], []⟩ : Header) = h at herr
  generalize split ',' sigHeader.toList = items at herr
  induction items generalizing h with
  | nil => cases herr
  | cons item rest ih =>
      rw [List.foldlM_cons] at herr
      rcases except_bind_eq_error.mp herr with hitem | ⟨h', -, hrest⟩
      · exact parseItem_error hitem
      · exact ih h' hrest

lemma checkHeader_error {h : Header} {err : VerifyError}
    (herr : checkHeader hmacHex payload secret tolerance now h = .error err) :
    err.isSignatureVerificationError = true := by
  unfold checkHeader at herr
  split at herr
  · dsimp only at herr
    split_ifs at herr
    · cases herr
      rfl
    · cases herr
      rfl
    · cases herr
      rfl
  · cases herr
    rfl

/-- **Everything that is not accepted is a signature error**, but for a tolerance that is not
positive. -/
lemma verify_error {err : VerifyError}
    (herr : verify hmacHex payload sigHeader secret tolerance now = .error err) :
    err.isSignatureVerificationError = true ↔ 0 < tolerance := by
  unfold verify at herr
  by_cases htol : tolerance ≤ 0
  · simp only [htol, if_true, throw, throwThe, MonadExceptOf.throw, except_error_bind] at herr
    cases herr
    simpa [VerifyError.isSignatureVerificationError] using htol
  refine iff_of_true ?_ (not_le.mp htol)
  by_cases hbody : payload = []
  · simp only [htol, if_false, hbody, if_true, throw, throwThe, MonadExceptOf.throw,
      except_error_bind] at herr
    cases herr
    rfl
  · simp only [htol, if_false, hbody] at herr
    rcases except_bind_eq_error.mp herr with hparse | ⟨h, -, hcheck⟩
    · exact parseHeader_error hparse
    · exact checkHeader_error hcheck

/-! ## Items -/

/-- The header of some items is read as these items; that of none as one empty item. -/
lemma split_headerOf (hitems : ∀ i ∈ items, ',' ∉ i.toList) (hne : items ≠ []) :
    split ',' (headerOf items).toList = items.map String.toList := by
  rw [headerOf, String.toList_intercalate, split]
  refine List.splitOn_intercalate ',' (fun l hl => ?_) (by simpa using hne)
  obtain ⟨i, hi, rfl⟩ := List.mem_map.mp hl
  exact hitems i hi

/-- The values of the items with a key, among these items. -/
def itemValues (key : String) (items : List String) : List String :=
  items.filterMap fun i => itemValue key i.toList

/-- **What acceptance looks at**: whether every item is well formed, and the `t` and the `v1`
values. -/
lemma verify_headerOf (hitems : ∀ i ∈ items, ',' ∉ i.toList) :
    verify hmacHex payload (headerOf items) secret tolerance now = .ok () ↔
      0 < tolerance ∧ payload ≠ [] ∧ (∀ i ∈ items, WellFormedItem i.toList) ∧
      ∃ text ts, itemValues "t" items = [text] ∧ intOfText text = some ts ∧
        |now - ts| ≤ tolerance ∧ v1Digest hmacHex payload secret ts ∈ itemValues "v1" items := by
  rw [verify_eq_ok]
  cases items with
  | nil =>
      -- the empty header is one malformed item
      have hsplit : split ',' (headerOf []).toList = [[]] := rfl
      have hbad : ¬WellFormedItem [] := by
        rintro ⟨key, value, hpart, -⟩
        simp [partition] at hpart
      refine iff_of_false ?_ ?_
      · rintro ⟨-, -, hwf, -⟩
        exact hbad (hwf [] (by rw [hsplit]; simp))
      · rintro ⟨-, -, -, text, ts, htext, -⟩
        simp [itemValues] at htext
  | cons i rest =>
      have hsplit := split_headerOf hitems (by simp)
      have hvalues : ∀ key, headerValues key (headerOf (i :: rest)) = itemValues key (i :: rest) :=
        fun key => by
        rw [headerValues, hsplit, List.filterMap_map, itemValues]
        rfl
      rw [hsplit, hvalues, hvalues, List.forall_mem_map]

/-- **The order of the items does not matter.** -/
lemma verify_perm (h : items.Perm items') (hitems : ∀ i ∈ items, ',' ∉ i.toList) :
    verify hmacHex payload (headerOf items) secret tolerance now = .ok () ↔
      verify hmacHex payload (headerOf items') secret tolerance now = .ok () := by
  have hvalues : ∀ key, (itemValues key items).Perm (itemValues key items') :=
    fun key => h.filterMap _
  have hone : ∀ text, itemValues "t" items = [text] ↔ itemValues "t" items' = [text] :=
    fun text => by
    constructor
    · intro heq
      exact List.perm_singleton.mp (heq ▸ (hvalues "t").symm)
    · intro heq
      exact List.perm_singleton.mp (heq ▸ hvalues "t")
  rw [verify_headerOf hitems, verify_headerOf fun i hi => hitems i (h.mem_iff.mpr hi)]
  simp only [hone, (hvalues "v1").mem_iff, h.mem_iff]

/-- **A v1 item may be repeated.** -/
lemma verify_repeat (hmem : item ∈ items) (hv1 : (itemValue "v1" item.toList).isSome)
    (hitems : ∀ i ∈ items, ',' ∉ i.toList) :
    verify hmacHex payload (headerOf (item :: items)) secret tolerance now = .ok () ↔
      verify hmacHex payload (headerOf items) secret tolerance now = .ok () := by
  obtain ⟨v, hv⟩ := Option.isSome_iff_exists.mp hv1
  have ht : itemValue "t" item.toList = none := by
    unfold itemValue at hv ⊢
    split at hv
    · split_ifs at hv with hkey
      rw [hkey, if_neg (by decide)]
    · cases hv
  have hin : v ∈ itemValues "v1" items := List.mem_filterMap.mpr ⟨item, hmem, hv⟩
  have htimes : itemValues "t" (item :: items) = itemValues "t" items := by
    rw [itemValues, List.filterMap_cons, ht]
    rfl
  have hvalues : ∀ d, d ∈ itemValues "v1" (item :: items) ↔ d ∈ itemValues "v1" items := fun d => by
    rw [itemValues, List.filterMap_cons, hv, List.mem_cons]
    constructor
    · rintro (rfl | h)
      · exact hin
      · exact h
    · exact .inr
  have hall : (∀ i ∈ item :: items, WellFormedItem i.toList) ↔ ∀ i ∈ items,
      WellFormedItem i.toList := by
    rw [List.forall_mem_cons]
    exact ⟨fun h => h.2, fun h => ⟨h item hmem, h⟩⟩
  rw [verify_headerOf fun i hi => ?_, verify_headerOf hitems, htimes, hall]
  · simp only [hvalues]
  · rcases List.mem_cons.mp hi with rfl | hi
    · exact hitems _ hmem
    · exact hitems i hi

/-- **An item of another scheme is not looked at.** -/
lemma verify_foreign {key value : List Char} (hpart : partition '=' item.toList = (key, some value))
    (hkey : key ≠ [] ∧ key ≠ "t".toList ∧ key ≠ "v1".toList) (hvalue : value ≠ [])
    (hcomma : ',' ∉ item.toList) (hitems : ∀ i ∈ items, ',' ∉ i.toList) :
    verify hmacHex payload (headerOf (item :: items)) secret tolerance now = .ok () ↔
      verify hmacHex payload (headerOf items) secret tolerance now = .ok () := by
  have hnone : ∀ k : String, key ≠ k.toList →
      itemValues k (item :: items) = itemValues k items := by
    intro k hk
    have hitem : itemValue k item.toList = none := by
      rw [itemValue, hpart]
      simp [hk]
    rw [itemValues, List.filterMap_cons, hitem]
    rfl
  have hwf : WellFormedItem item.toList :=
    ⟨key, value, hpart, hkey.1, hvalue, fun ht => absurd ht hkey.2.1⟩
  have hall : (∀ i ∈ item :: items, WellFormedItem i.toList) ↔ ∀ i ∈ items,
      WellFormedItem i.toList := by
    rw [List.forall_mem_cons]
    exact and_iff_right hwf
  rw [verify_headerOf (List.forall_mem_cons.mpr ⟨hcomma, hitems⟩), verify_headerOf hitems,
    hnone "t" hkey.2.1, hnone "v1" hkey.2.2, hall]

end

/-- **`verify` accepts exactly its grammar.**  Every item is a key and a value around its first `=`,
neither of them empty; one item is a timestamp, an integer within the tolerance; and one of the v1
values is the digest of the body at that time.  So the items may be permuted, v1 items repeated, and
items of other schemes put in or taken out.  Whatever is not accepted is a
`SignatureVerificationError`, but for a tolerance that is not positive. -/
theorem verify_accepts_grammar (hmacHex : List UInt8 → List UInt8 → String) (payload : List UInt8)
    (secret : String) (tolerance now : ℤ) :
    (∀ sigHeader : String, verify hmacHex payload sigHeader secret tolerance now = .ok () ↔
      0 < tolerance ∧ payload ≠ [] ∧
      (∀ item ∈ split ',' sigHeader.toList, ∃ key value,
        partition '=' item = (key, some value) ∧ key ≠ [] ∧ value ≠ []) ∧
      ∃ text ts, headerValues "t" sigHeader = [text] ∧ intOfText text = some ts ∧
        headerValues "v1" sigHeader ≠ [] ∧ |now - ts| ≤ tolerance ∧
        v1Digest hmacHex payload secret ts ∈ headerValues "v1" sigHeader) ∧
    (∀ items items' : List String, (∀ i ∈ items, ',' ∉ i.toList) → items.Perm items' →
      (verify hmacHex payload (headerOf items) secret tolerance now = .ok () ↔
        verify hmacHex payload (headerOf items') secret tolerance now = .ok ())) ∧
    (∀ (pre post : List String) (item : String), (∀ i ∈ pre ++ post, ',' ∉ i.toList) →
      item ∈ pre ++ post → (itemValue "v1" item.toList).isSome →
      (verify hmacHex payload (headerOf (pre ++ item :: post)) secret tolerance now = .ok () ↔
        verify hmacHex payload (headerOf (pre ++ post)) secret tolerance now = .ok ())) ∧
    (∀ (pre post : List String) (item : String) (key value : List Char),
      (∀ i ∈ pre ++ item :: post, ',' ∉ i.toList) → partition '=' item.toList = (key, some value) →
      key ≠ [] ∧ key ≠ "t".toList ∧ key ≠ "v1".toList → value ≠ [] →
      (verify hmacHex payload (headerOf (pre ++ item :: post)) secret tolerance now = .ok () ↔
        verify hmacHex payload (headerOf (pre ++ post)) secret tolerance now = .ok ())) ∧
    ∀ (sigHeader : String) (err : VerifyError),
      verify hmacHex payload sigHeader secret tolerance now = .error err →
      (err.isSignatureVerificationError = true ↔ 0 < tolerance) := by
  refine ⟨fun sigHeader => ?_, fun items items' hitems hperm => verify_perm hperm hitems, ?_, ?_,
    fun sigHeader err => verify_error⟩
  · rw [verify_eq_ok]
    refine and_congr_right fun _ => and_congr_right fun _ => ?_
    constructor
    · rintro ⟨hwf, text, ts, htext, hint, hwindow, hmem⟩
      refine ⟨fun item hitem => ?_, text, ts, htext, hint, List.ne_nil_of_mem hmem, hwindow, hmem⟩
      obtain ⟨key, value, hpart, hkey, hvalue, -⟩ := hwf item hitem
      exact ⟨key, value, hpart, hkey, hvalue⟩
    · rintro ⟨hsplit, text, ts, htext, hint, -, hwindow, hmem⟩
      refine ⟨fun item hitem => ?_, text, ts, htext, hint, hwindow, hmem⟩
      obtain ⟨key, value, hpart, hkey, hvalue⟩ := hsplit item hitem
      refine ⟨key, value, hpart, hkey, hvalue, fun ht => ?_⟩
      -- a `t` item is the one whose value is an integer
      have hin : String.ofList value ∈ headerValues "t" sigHeader :=
        List.mem_filterMap.mpr ⟨item, hitem, by rw [itemValue, hpart]; exact if_pos ht⟩
      rw [htext, List.mem_singleton] at hin
      rw [hin, hint]
      rfl
  · intro pre post item hitems hmem hv1
    have hcons : ∀ i ∈ pre ++ item :: post, ',' ∉ i.toList := fun i hi => by
      rcases List.mem_cons.mp (List.perm_middle.mem_iff.mp hi) with rfl | hi
      · exact hitems i hmem
      · exact hitems i hi
    rw [verify_perm List.perm_middle hcons]
    exact verify_repeat hmem hv1 hitems
  · intro pre post item key value hitems hpart hkey hvalue
    obtain ⟨hcomma, hrest⟩ := List.forall_mem_cons.mp
      (fun i hi => hitems i (List.perm_middle.mem_iff.mpr hi) : ∀ i ∈ item :: (pre ++ post),
        ',' ∉ i.toList)
    rw [verify_perm List.perm_middle hitems]
    exact verify_foreign hpart hkey hvalue hcomma hrest

/-! ## Signing and verifying -/

/-- `sign` as it is called: a timestamp of more than 4300 digits has no text. -/
def signedHeader (hmacHex : List UInt8 → List UInt8 → String) (payload : List UInt8)
    (secret : String) (timestamp : ℤ) (extraV1Secrets : List String) (includeV0 : Bool)
    (onlySchemes : Option (List String)) :
    Except PyError String :=
  if (natDecimal timestamp.natAbs).length ≤ maxStrDigits then
    .ok (sign hmacHex payload secret timestamp extraV1Secrets includeV0 onlySchemes)
  else .error (.valueError "Exceeds the limit (4300 digits) for integer string conversion")

section

variable {hmacHex : List UInt8 → List UInt8 → String} {payload : List UInt8} {secret s : String}
  {timestamp : ℤ}
  {extraV1Secrets : List String} {includeV0 : Bool} {onlySchemes : Option (List String)}

/-- The v1 digest of a secret is among those emitted when v1 is emitted and the secret is one of the
signer's. -/
lemma v1_mem_signSchemes_iff (hkey : ∀ message, Function.Injective fun key => hmacHex key message) :
    ("v1", v1Digest hmacHex payload s timestamp) ∈
        signSchemes hmacHex payload secret timestamp extraV1Secrets includeV0 onlySchemes ↔
      onlySchemes.all ("v1" ∈ ·) = true ∧ s ∈ secret :: extraV1Secrets := by
  have hdigest : ∀ s',
      v1Digest hmacHex payload s' timestamp = v1Digest hmacHex payload s timestamp ↔ s' = s := by
    refine fun s' => ⟨fun h => ?_, fun h => by rw [h]⟩
    exact String.toList_injective (utf8_injective (hkey _ h))
  have hv0 : ∀ wants : Bool, ("v1", v1Digest hmacHex payload s timestamp) ∉
      (if wants then [("v0", v1Digest hmacHex payload secret timestamp)] else []) := by
    intro wants
    cases wants <;> simp
  unfold signSchemes
  rw [List.mem_filter, List.mem_append, or_iff_left (hv0 _), List.mem_map]
  simp only [Prod.mk.injEq, true_and, hdigest, exists_eq_right]
  exact and_comm

end

/-- **Signing and verifying agree**, for every rotation list and every choice of schemes.  Inside
the window a signed header is good for the secrets it was signed with, if it carries v1 signatures
at all; outside the window it is good for nothing; and without v1 signatures it is refused, also
where it carries the right v0 digest. -/
theorem sign_verify_roundtrip (hmacHex : List UInt8 → List UInt8 → String)
    (htext : DigestText hmacHex)
    (hkey : ∀ message, Function.Injective fun key => hmacHex key message) (payload : List UInt8)
    (hpayload : payload ≠ []) (secret : String) (timestamp : ℤ) (extraV1Secrets : List String)
    (includeV0 : Bool) (onlySchemes : Option (List String)) (header : String)
    (hsign : signedHeader hmacHex payload secret timestamp extraV1Secrets includeV0 onlySchemes =
      .ok header) (s : String) (tolerance : ℤ) (htolerance : 0 < tolerance) (now : ℤ) :
    (|now - timestamp| ≤ tolerance →
      (verify hmacHex payload header s tolerance now = .ok () ↔
        (∀ schemes, onlySchemes = some schemes → "v1" ∈ schemes) ∧
          (s = secret ∨ s ∈ extraV1Secrets))) ∧
    (tolerance < |now - timestamp| → ∃ err,
      verify hmacHex payload header s tolerance now = .error err ∧
      err.isSignatureVerificationError = true) ∧
    ∀ schemes, onlySchemes = some schemes → "v1" ∉ schemes →
      ("v0" ∈ schemes → headerValues "v0" header = [v1Digest hmacHex payload secret timestamp]) ∧
      ∃ err, verify hmacHex payload header s tolerance now = .error err ∧
        err.isSignatureVerificationError = true := by
  unfold signedHeader at hsign
  split_ifs at hsign with hlength
  obtain rfl := Except.ok.inj hsign
  have hok : verify hmacHex payload
      (sign hmacHex payload secret timestamp extraV1Secrets includeV0 onlySchemes) s
      tolerance now = .ok () ↔ |now - timestamp| ≤ tolerance ∧
        onlySchemes.all ("v1" ∈ ·) = true ∧ s ∈ secret :: extraV1Secrets := by
    rw [verify_sign_iff htext hlength, v1_mem_signSchemes_iff hkey]
    exact ⟨fun h => h.2.2, fun h => ⟨htolerance, hpayload, h⟩⟩
  have hrejected :
      verify hmacHex payload
        (sign hmacHex payload secret timestamp extraV1Secrets includeV0 onlySchemes)
      s tolerance now ≠ .ok () → ∃ err, verify hmacHex payload
        (sign hmacHex payload secret timestamp extraV1Secrets includeV0 onlySchemes) s tolerance
          now = .error err ∧
        err.isSignatureVerificationError = true := by
    intro hne
    cases hverify : verify hmacHex payload
        (sign hmacHex payload secret timestamp extraV1Secrets includeV0 onlySchemes) s tolerance
          now with
    | error err => exact ⟨err, rfl, (verify_error hverify).mpr htolerance⟩
    | ok u => exact absurd hverify hne
  refine ⟨fun hwindow => ?_, fun hlate => ?_, ?_⟩
  · rw [hok]
    cases onlySchemes with
    | none => simp [hwindow]
    | some schemes => simp [hwindow]
  · exact hrejected fun h => absurd (hok.mp h).1 (not_le.mpr hlate)
  · rintro schemes rfl hv1
    refine ⟨fun hv0 => ?_, hrejected fun h => hv1 (by simpa using (hok.mp h).2.1)⟩
    rw [headerValues_sign htext]
    simp [signItems, signSchemes, hv0, hv1, List.filter_append, List.filter_map, Function.comp_def]

/-! ### A body signed with two secrets -/

/-- The secret before `sampleSecret`. -/
def retiredSecret : String := "whsec_60303ae22b998861bce3b28f33eec1be"

/-- A digest that has the values of HMAC-SHA256 for the sample body at 1754300000 under the two
secrets, and tells all other keys apart. -/
def rotatedHmacHex (key message : List UInt8) : String :=
  if message = signedBytes 1754300000 sampleBody ∧ key = utf8 sampleSecret.toList then
    "d028ff742530e327bb93767b88e28fb766fa6c71360a1a1c092c4f98d6a746e5"
  else if message = signedBytes 1754300000 sampleBody ∧ key = utf8 retiredSecret.toList then
    "5624d4f9cd41eb415655e8ebb246ef1b5eb9dbe7d18c950ad65c94a6c878ca1a"
  else String.ofList ('x' :: key.map fun b => Char.ofNat (b.toNat + 256))

lemma toNat_charOfByte (b : UInt8) : (Char.ofNat (b.toNat + 256)).toNat = b.toNat + 256 := by
  have hlt := b.toNat_lt
  exact toNat_ofNat (by omega)

lemma charOfByte_injective : Function.Injective fun b : UInt8 => Char.ofNat (b.toNat + 256) := by
  intro b b' h
  have hnat := congrArg Char.toNat h
  simp only [toNat_charOfByte] at hnat
  exact UInt8.toNat_inj.mp (by omega)

lemma rotatedHmacHex_injective (message : List UInt8) :
    Function.Injective fun key => rotatedHmacHex key message := by
  intro key key' h
  simp only [rotatedHmacHex] at h
  split_ifs at h with h1 h2 h3 h4 h5 h6 h7 h8
  · rw [h1.2, h2.2]
  · exact absurd h (by decide)
  · exact absurd (congrArg (fun s : String => s.toList.head?) h) (by simp)
  · exact absurd h (by decide)
  · rw [h4.2, h6.2]
  · exact absurd (congrArg (fun s : String => s.toList.head?) h) (by simp)
  · exact absurd (congrArg (fun s : String => s.toList.head?) h) (by simp)
  · exact absurd (congrArg (fun s : String => s.toList.head?) h) (by simp)
  · exact List.map_injective_iff.mpr charOfByte_injective
      (List.cons.inj (String.ofList_injective h)).2

lemma rotatedHmacHex_text : DigestText rotatedHmacHex := by
  intro key message
  unfold rotatedHmacHex
  split_ifs
  · decide
  · decide
  · refine ⟨fun h => by simpa using congrArg String.toList h, ?_⟩
    rw [String.toList_ofList, List.mem_cons, List.mem_map, not_or]
    refine ⟨by decide, ?_⟩
    rintro ⟨b, -, hb⟩
    have hnat := toNat_charOfByte b
    rw [hb] at hnat
    have hcomma : ','.toNat = 44 := rfl
    omega

/-- During a rotation the retired secret still verifies. -/
theorem sign_verify_roundtrip_rotation :
    ∃ header, signedHeader rotatedHmacHex sampleBody sampleSecret 1754300000
      [retiredSecret] true none = .ok header ∧
      (verify rotatedHmacHex sampleBody header retiredSecret 300 1754300100 = .ok () ↔
        (∀ schemes, (none : Option (List String)) = some schemes → "v1" ∈ schemes) ∧
          (retiredSecret = sampleSecret ∨ retiredSecret ∈ [retiredSecret])) :=
  ⟨_, if_pos (by decide),
    (sign_verify_roundtrip rotatedHmacHex rotatedHmacHex_text rotatedHmacHex_injective sampleBody
    (by decide) sampleSecret 1754300000 [retiredSecret] true none _
    (if_pos (by decide)) retiredSecret 300 (by decide) 1754300100).1 (by decide)⟩

end LedgerProof
