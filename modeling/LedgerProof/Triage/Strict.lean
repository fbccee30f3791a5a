import LedgerProof.Lib.Dict
import LedgerProof.Lib.PyJson

/-!
# Strict schemas

`_strictify` of `triage/batch.py` turns the JSON schema of a model into one that the
structured-outputs API takes: it drops the constraint keywords, closes every object and requires
every property.  It walks dictionaries and lists alike, so that a map from names to schemas is
treated as if it were a schema: an entry named like a constraint is dropped, and a map with an entry
named `properties` is closed like an object.

`schemaAt` finds the schemas of a tree by where they stand.  `strict_keeps_iff` says for which trees
the objects keep their properties; what is left is strict for all of them.
-/

namespace LedgerProof.Triage

/-- The items of a dictionary. -/
abbrev Fields := List (PyStr × PyValue)

/-- `UNSUPPORTED_KEYWORDS`. -/
def unsupportedKeywords : List PyStr :=
  ["minimum", "maximum", "exclusiveMinimum", "exclusiveMaximum", "multipleOf",
    "minLength", "maxLength", "minItems", "maxItems", "uniqueItems"].map pyStr

/-- `fields.get("type") == "object" or "properties" in fields`. -/
def isObject (fields : Fields) : Bool :=
  (match fields.lookup (pyStr "type") with
    | some (.str s) => s = pyStr "object"
    | _ => false) || (fields.lookup (pyStr "properties")).isSome

/-- `sorted(properties or {})`, or nothing on a `TypeError`.  Of the lists only those of texts are
sorted. -/
def sortedNames : PyValue → Option (List PyValue)
  | .dict properties => some (((properties.map Prod.fst).insertionSort (· ≤ ·)).map .str)
  | .list items => do
      let names ← items.mapM fun item => match item with
        | .str s => some s
        | _ => none
      return (names.insertionSort (· ≤ ·)).map .str
  | .str s => some ((s.insertionSort (· ≤ ·)).map fun n => .str [n])
  | .none => some []
  | .bool b => if b then none else some []
  | .int n => if n = 0 then some [] else none
  | .float bits => if bits = 0x0#64 ∨ bits = 0x8000000000000000#64 then some [] else none

/-- What is done to a dictionary once its values are strict. -/
def closeObject (out : Fields) : Option PyValue :=
  if isObject out then do
    let required ← sortedNames ((out.lookup (pyStr "properties")).getD .none)
    let closed := setItem out (pyStr "additionalProperties") (.bool false)
    return .dict (setItem closed (pyStr "required") (.list required))
  else some (.dict out)

mutual

/-- `_strictify`. -/
def strictify : PyValue → Option PyValue
  | .list items => do return .list (← strictifyItems items)
  | .dict fields => do closeObject (← strictifyFields fields)
  | .none => some .none
  | .bool b => some (.bool b)
  | .int n => some (.int n)
  | .float bits => some (.float bits)
  | .str s => some (.str s)
termination_by structural v => v

/-- `[_strictify(item) for item in node]`. -/
def strictifyItems : List PyValue → Option (List PyValue)
  | [] => some []
  | v :: vs => do return (← strictify v) :: (← strictifyItems vs)
termination_by structural vs => vs

/-- The value of a field, made strict. -/
def strictifyField : PyStr × PyValue → Option (PyStr × PyValue)
  | (key, v) => do return (key, ← strictify v)
termination_by structural f => f

/-- `{key: _strictify(value) for key, value in node.items() if key not in UNSUPPORTED_KEYWORDS}`. -/
def strictifyFields : Fields → Option Fields
  | [] => some []
  | f :: fs => do
      if f.1 ∈ unsupportedKeywords then strictifyFields fs
      else return (← strictifyField f) :: (← strictifyFields fs)
termination_by structural fs => fs

end

/-! ## Where the schemas stand -/

/-- A value in which every `properties` is a dictionary.  A schema is one: it maps names to schemas
under `properties`, and what a map has under that name is a schema itself. -/
inductive Shaped : PyValue → Prop
  | none : Shaped .none
  | bool (b : Bool) : Shaped (.bool b)
  | int (n : ℤ) : Shaped (.int n)
  | float (bits : BitVec 64) : Shaped (.float bits)
  | str (s : PyStr) : Shaped (.str s)
  | list {items : List PyValue} (h : ∀ v ∈ items, Shaped v) : Shaped (.list items)
  | dict {fields : Fields} (hproperties : ∀ v, fields.lookup (pyStr "properties") = some v → ∃ m,
      v = .dict m)
      (h : ∀ f ∈ fields, Shaped f.2) : Shaped (.dict fields)

/-- A keyword that maps names to schemas. -/
inductive NameMap
  | properties
  | defs
  deriving DecidableEq, Repr

/-- The keyword of a map. -/
def NameMap.keyword : NameMap → PyStr
  | .properties => pyStr "properties"
  | .defs => pyStr "$defs"

/-- From a schema to one in it. -/
inductive Step
  /-- A property or a definition. -/
  | entry (m : NameMap) (name : PyStr)
  /-- What an array holds. -/
  | items
  /-- One of several alternatives. -/
  | anyOf (i : ℕ)
  deriving DecidableEq, Repr

/-- The field of a dictionary. -/
def fieldOf (key : PyStr) : PyValue → Option PyValue
  | .dict fields => fields.lookup key
  | _ => none

/-- The item of a list. -/
def itemOf (i : ℕ) : PyValue → Option PyValue
  | .list items => items[i]?
  | _ => none

/-- What stands one step from a schema. -/
def Step.from (v : PyValue) : Step → Option PyValue
  | .entry m name => (fieldOf m.keyword v).bind (fieldOf name)
  | .items => fieldOf (pyStr "items") v
  | .anyOf i => (fieldOf (pyStr "anyOf") v).bind (itemOf i)

/-- What stands some steps from a schema. -/
def schemaAt (v : PyValue) : List Step → Option PyValue
  | [] => some v
  | s :: path => (s.from v).bind fun w => schemaAt w path

/-- The names of the properties of an object. -/
def propertyNames (fields : Fields) : List PyStr :=
  match fields.lookup (pyStr "properties") with
  | some (.dict properties) => properties.map Prod.fst
  | _ => []

/-- The property names of an object schema, as a set. -/
def objectNames : PyValue → Option (Finset PyStr)
  | .dict fields => if isObject fields then some (propertyNames fields).toFinset else none
  | _ => none

/-- The property names of the object schema that stands some steps from a schema. -/
def namesAt (v : PyValue) (path : List Step) :
    Option (Finset PyStr) := (schemaAt v path).bind objectNames

/-- What is made of a schema is strict, and has the properties of the schema. -/
structure MadeStrict (v w : PyValue) : Prop where
  /-- No keyword is left that the API refuses. -/
  supported : ∀ path fields, schemaAt w path = some (.dict fields) → ∀ f ∈ fields,
    f.1 ∉ unsupportedKeywords
  /-- Every object is closed and requires all its properties. -/
  closed : ∀ path fields, schemaAt w path = some (.dict fields) → isObject fields = true →
    fields.lookup (pyStr "additionalProperties") = some (.bool false) ∧
      fields.lookup (pyStr "required") =
        some (.list (((propertyNames fields).insertionSort (· ≤ ·)).map .str))
  /-- The objects stand where they stood, with the same properties. -/
  names : ∀ path, namesAt w path = namesAt v path
  /-- Nothing changes when it is made strict again. -/
  again : strictify w = some w

/-- No object schema stands in it. -/
def Barren (v : PyValue) : Prop := ∀ path, namesAt v path = none

/-- An entry of a map that is dropped, or overwritten because the map is taken for an object. -/
def Lost (m : Fields) (name : PyStr) : Prop :=
  name ∈ unsupportedKeywords ∨
    (isObject m = true ∧ (name = pyStr "additionalProperties" ∨ name = pyStr "required"))

/-- Making a schema strict does not touch its properties, nor an object in what it loses. -/
structure Untouched (fields : Fields) : Prop where
  /-- No property is dropped. -/
  supported : ∀ m, fields.lookup (pyStr "properties") = some (.dict m) → ∀ f ∈ m,
    f.1 ∉ unsupportedKeywords
  /-- No property is added. -/
  present : ∀ m, fields.lookup (pyStr "properties") = some (.dict m) → isObject m = true →
    pyStr "additionalProperties" ∈ m.map Prod.fst ∧ pyStr "required" ∈ m.map Prod.fst
  /-- No object is lost. -/
  barren : ∀ (k : NameMap) m, fields.lookup k.keyword = some (.dict m) → ∀ name v,
    m.lookup name = some v →
    Lost m name → Barren v

/-! ## One pass -/

section

variable {fields out fields' : Fields} {items : List PyValue} {key : PyStr} {v w : PyValue}

lemma strictify_list (h : strictify (.list items) = some w) :
    ∃ items', strictifyItems items = some items' ∧ w = .list items' := by
  obtain ⟨items', hitems, hw⟩ := Option.bind_eq_some_iff.mp h
  exact ⟨items', hitems, (Option.some.inj hw).symm⟩

lemma strictify_dict (h : strictify (.dict fields) = some w) :
    ∃ out, strictifyFields fields = some out ∧ closeObject out = some w :=
      Option.bind_eq_some_iff.mp h

lemma strictifyItems_cons {vs : List PyValue} (h : strictifyItems (v :: vs) = some items) :
    ∃ w ws, strictify v = some w ∧ strictifyItems vs = some ws ∧ items = w :: ws := by
  obtain ⟨w, hw, h⟩ := Option.bind_eq_some_iff.mp h
  obtain ⟨ws, hws, h⟩ := Option.bind_eq_some_iff.mp h
  exact ⟨w, ws, hw, hws, (Option.some.inj h).symm⟩

lemma strictifyFields_cons_of_unsupported (h : key ∈ unsupportedKeywords) :
    strictifyFields ((key, v) :: fields) = strictifyFields fields := if_pos h

lemma strictifyFields_cons (h : key ∉ unsupportedKeywords)
    (hout : strictifyFields ((key, v) :: fields) = some out) :
    ∃ w ws, strictify v = some w ∧ strictifyFields fields = some ws ∧ out = (key, w) :: ws := by
  rw [strictifyFields, if_neg h] at hout
  obtain ⟨f, hf, hout⟩ := Option.bind_eq_some_iff.mp hout
  obtain ⟨w, hw, hf⟩ := Option.bind_eq_some_iff.mp hf
  obtain ⟨ws, hws, hout⟩ := Option.bind_eq_some_iff.mp hout
  obtain rfl := Option.some.inj hf
  exact ⟨w, ws, hw, hws, (Option.some.inj hout).symm⟩

/-- **A field is dropped, or its value is made strict.** -/
lemma lookup_strictifyFields (h : strictifyFields fields = some out) (key : PyStr) :
    out.lookup key = if key ∈ unsupportedKeywords then none
      else (fields.lookup key).bind strictify := by
  induction fields generalizing out with
  | nil =>
      obtain rfl := Option.some.inj h
      simp
  | cons f fields ih =>
      obtain ⟨k, v⟩ := f
      by_cases hk : k ∈ unsupportedKeywords
      · rw [strictifyFields_cons_of_unsupported hk] at h
        rw [ih h, List.lookup_cons]
        by_cases hkey : key = k
        · rw [if_pos (hkey ▸ hk), if_pos (hkey ▸ hk)]
        · rw [beq_false_of_ne hkey]
      · obtain ⟨w, ws, hw, hws, rfl⟩ := strictifyFields_cons hk h
        rw [List.lookup_cons, List.lookup_cons]
        by_cases hkey : key = k
        · rw [hkey, beq_self_eq_true, if_neg hk]
          exact hw.symm
        · rw [beq_false_of_ne hkey]
          exact ih hws

lemma mem_strictifyFields (h : strictifyFields fields = some out) {f : PyStr × PyValue}
    (hf : f ∈ out) :
    f.1 ∉ unsupportedKeywords ∧ ∃ v, (f.1, v) ∈ fields ∧ strictify v = some f.2 := by
  induction fields generalizing out with
  | nil =>
      obtain rfl := Option.some.inj h
      cases hf
  | cons g fields ih =>
      obtain ⟨k, v⟩ := g
      by_cases hk : k ∈ unsupportedKeywords
      · rw [strictifyFields_cons_of_unsupported hk] at h
        obtain ⟨hkey, u, hu, hstrict⟩ := ih h hf
        exact ⟨hkey, u, List.mem_cons_of_mem _ hu, hstrict⟩
      · obtain ⟨w, ws, hw, hws, rfl⟩ := strictifyFields_cons hk h
        rcases List.mem_cons.mp hf with rfl | hf
        · exact ⟨hk, v, List.mem_cons_self, hw⟩
        · obtain ⟨hkey, u, hu, hstrict⟩ := ih hws hf
          exact ⟨hkey, u, List.mem_cons_of_mem _ hu, hstrict⟩

lemma keys_strictifyFields (h : strictifyFields fields = some out) :
    key ∈ out.map Prod.fst ↔ key ∈ fields.map Prod.fst ∧ key ∉ unsupportedKeywords := by
  induction fields generalizing out with
  | nil =>
      obtain rfl := Option.some.inj h
      simp
  | cons f fields ih =>
      obtain ⟨k, v⟩ := f
      by_cases hk : k ∈ unsupportedKeywords
      · rw [strictifyFields_cons_of_unsupported hk] at h
        rw [ih h, List.map_cons, List.mem_cons]
        constructor
        · exact fun hkey => ⟨.inr hkey.1, hkey.2⟩
        · rintro ⟨rfl | hkey, hnot⟩
          · exact absurd hk hnot
          · exact ⟨hkey, hnot⟩
      · obtain ⟨w, ws, hw, hws, rfl⟩ := strictifyFields_cons hk h
        rw [List.map_cons, List.mem_cons, ih hws, List.map_cons, List.mem_cons]
        constructor
        · rintro (rfl | hkey)
          · exact ⟨.inl rfl, hk⟩
          · exact ⟨.inr hkey.1, hkey.2⟩
        · rintro ⟨rfl | hkey, hnot⟩
          · exact .inl rfl
          · exact .inr ⟨hkey, hnot⟩

lemma closeObject_eq_dict (h : closeObject out = some w) : ∃ fields, w = .dict fields := by
  unfold closeObject at h
  split_ifs at h
  · obtain ⟨required, -, hw⟩ := Option.bind_eq_some_iff.mp h
    exact ⟨_, (Option.some.inj hw).symm⟩
  · exact ⟨_, (Option.some.inj h).symm⟩

lemma closeObject_of_isObject (hobject : isObject out = true)
    (h : closeObject out = some (.dict fields)) :
    ∃ required, sortedNames ((out.lookup (pyStr "properties")).getD .none) = some required ∧
      fields = setItem (setItem out (pyStr "additionalProperties") (.bool false)) (pyStr "required")
        (.list required) := by
  rw [closeObject, if_pos hobject] at h
  obtain ⟨required, hrequired, hw⟩ := Option.bind_eq_some_iff.mp h
  exact ⟨required, hrequired, (PyValue.dict.inj (Option.some.inj hw)).symm⟩

lemma closeObject_of_not (hobject : ¬isObject out = true)
    (h : closeObject out = some (.dict fields)) :
    fields = out := by
  rw [closeObject, if_neg hobject] at h
  exact (PyValue.dict.inj (Option.some.inj h)).symm

/-- **What closing an object writes**: two fields, and those of an object only. -/
lemma lookup_closeObject (h : closeObject out = some (.dict fields))
    (hkey : isObject out = true → key ≠ pyStr "additionalProperties" ∧ key ≠ pyStr "required") :
    fields.lookup key = out.lookup key := by
  by_cases hobject : isObject out = true
  · obtain ⟨required, -, rfl⟩ := closeObject_of_isObject hobject h
    obtain ⟨hadditional, hrequired⟩ := hkey hobject
    rw [lookup_setItem_of_ne hrequired, lookup_setItem_of_ne hadditional]
  · rw [closeObject_of_not hobject h]

end

/-- What is made of a value. -/
def Makes (v w : PyValue) : Prop := strictify v = some w

section

variable {fields out fields' : Fields} {items : List PyValue} {key : PyStr} {v w u : PyValue}

lemma lookup_isSome : (fields.lookup key).isSome = true ↔ key ∈ fields.map Prod.fst := by
  rw [← not_iff_not, Bool.not_eq_true, Option.isSome_eq_false_iff, Option.isNone_iff_eq_none,
    List.lookup_eq_none_iff, List.mem_map]
  constructor
  · rintro h ⟨f, hf, rfl⟩
    exact absurd (h f hf) (by simp)
  · intro h f hf
    exact bne_iff_ne.mpr fun heq => h ⟨f, hf, heq.symm⟩

/-- A field that is not dropped is made strict. -/
lemma lookup_strictifyFields_rel (h : strictifyFields fields = some out)
    (hkey : key ∉ unsupportedKeywords) :
    Option.Rel Makes (fields.lookup key) (out.lookup key) := by
  have hlookup := lookup_strictifyFields h key
  rw [if_neg hkey] at hlookup
  cases hfield : fields.lookup key with
  | none =>
      rw [hlookup, hfield]
      exact .none
  | some u =>
      have hmem : key ∈ out.map Prod.fst :=
        (keys_strictifyFields h).mpr ⟨lookup_isSome.mp (by rw [hfield]; rfl), hkey⟩
      obtain ⟨u', hu'⟩ := Option.isSome_iff_exists.mp (lookup_isSome.mpr hmem)
      rw [hfield, Option.bind_some, hu'] at hlookup
      rw [hu']
      exact .some hlookup.symm

/-- **What a value is made into**: a list of a list, a dictionary of a dictionary, and anything else
stays. -/
lemma makes_cases (h : Makes v w) :
    (∃ items items', v = .list items ∧ w = .list items' ∧ strictifyItems items = some items') ∨
      (∃ fields fields', v = .dict fields ∧ w = .dict fields') ∨
      (w = v ∧ (∀ items, v ≠ .list items) ∧ ∀ fields, v ≠ .dict fields) := by
  cases v with
  | list items =>
      obtain ⟨items', hitems, rfl⟩ := strictify_list h
      exact .inl ⟨items, items', rfl, rfl, hitems⟩
  | dict fields =>
      obtain ⟨_, -, hclose⟩ := strictify_dict h
      obtain ⟨fields', rfl⟩ := closeObject_eq_dict hclose
      exact .inr (.inl ⟨fields, fields', rfl, rfl⟩)
  | none => exact .inr (.inr ⟨(Option.some.inj h).symm, nofun, nofun⟩)
  | bool b => exact .inr (.inr ⟨(Option.some.inj h).symm, nofun, nofun⟩)
  | int n => exact .inr (.inr ⟨(Option.some.inj h).symm, nofun, nofun⟩)
  | float bits => exact .inr (.inr ⟨(Option.some.inj h).symm, nofun, nofun⟩)
  | str s => exact .inr (.inr ⟨(Option.some.inj h).symm, nofun, nofun⟩)

lemma eq_dict_of_makes (h : Makes v (.dict fields')) : ∃ fields, v = .dict fields := by
  obtain ⟨_, _, -, hw, -⟩ | ⟨fields, _, rfl, -⟩ | ⟨hw, -, hdict⟩ := makes_cases h
  · cases hw
  · exact ⟨fields, rfl⟩
  · exact absurd hw.symm (hdict _)

lemma isObject_strictifyFields (h : strictifyFields fields = some out) :
    isObject out = isObject fields := by
  have htype := @lookup_strictifyFields_rel _ _ (pyStr "type") h (by decide)
  have hproperties := @lookup_strictifyFields_rel _ _ (pyStr "properties") h (by decide)
  unfold isObject
  generalize fields.lookup (pyStr "type") = type at htype
  generalize out.lookup (pyStr "type") = type' at htype
  generalize fields.lookup (pyStr "properties") = properties at hproperties
  generalize out.lookup (pyStr "properties") = properties' at hproperties
  congr 1
  · cases htype with
    | none => rfl
    | some hmakes =>
        obtain ⟨_, _, rfl, rfl, -⟩ | ⟨_, _, rfl, rfl⟩ | ⟨rfl, -, -⟩ := makes_cases hmakes <;> rfl
  · cases hproperties <;> rfl

lemma isObject_closeObject (h : closeObject out = some (.dict fields)) :
    isObject fields = isObject out := by
  have htype := @lookup_closeObject _ _ (pyStr "type") h (fun _ => ⟨by decide, by decide⟩)
  have hproperties :=
    @lookup_closeObject _ _ (pyStr "properties") h (fun _ => ⟨by decide, by decide⟩)
  unfold isObject
  rw [htype, hproperties]

/-- **A dictionary in one pass.** -/
lemma makes_dict (h : Makes (.dict fields) w) :
    ∃ out fields', w = .dict fields' ∧ strictifyFields fields = some out ∧
      closeObject out = some (.dict fields') ∧
      isObject out = isObject fields ∧ isObject fields' = isObject fields := by
  obtain ⟨out, hout, hclose⟩ := strictify_dict h
  obtain ⟨fields', rfl⟩ := closeObject_eq_dict hclose
  have hobject := isObject_strictifyFields hout
  exact ⟨out, fields', rfl, hout, hclose, hobject, (isObject_closeObject hclose).trans hobject⟩

/-- **A field that is not lost is made strict.** -/
lemma fieldOf_makes (h : Makes v w) (hkey : ∀ fields, v = .dict fields → ¬Lost fields key) :
    Option.Rel Makes (fieldOf key v) (fieldOf key w) := by
  obtain ⟨_, _, rfl, rfl, -⟩ | ⟨fields, _, rfl, rfl⟩ | ⟨rfl, -, hdict⟩ := makes_cases h
  · exact .none
  · obtain ⟨out, fields', hw, hout, hclose, hobject, -⟩ := makes_dict h
    obtain rfl := PyValue.dict.inj hw
    have hnot := hkey fields rfl
    unfold Lost at hnot
    push Not at hnot
    have hlookup := @lookup_closeObject _ _ key hclose fun ho => hnot.2 (hobject ▸ ho)
    show Option.Rel Makes (fields.lookup key) _
    rw [fieldOf, hlookup]
    exact lookup_strictifyFields_rel hout hnot.1
  · cases w with
    | dict fields => exact absurd rfl (hdict fields)
    | _ => exact .none

end

/-! ## Along a path -/

section

variable {fields fields' : Fields} {key : PyStr} {v w u : PyValue} {s : Step} {path : List Step}

/-- The step takes no entry that is lost. -/
def Step.Kept (v : PyValue) : Step → Prop
  | .entry m name => ∀ fields, fieldOf m.keyword v = some (.dict fields) → ¬Lost fields name
  | .items => True
  | .anyOf _ => True

lemma rel_bind {a b : Option PyValue} {f : PyValue → Option PyValue} (h : Option.Rel Makes a b)
    (hf : ∀ u w, Makes u w → a = some u → Option.Rel Makes (f u) (f w)) :
    Option.Rel Makes (a.bind f) (b.bind f) := by
  cases h with
  | none => exact .none
  | some hmakes => exact hf _ _ hmakes rfl

lemma not_lost_of_keyword
    (hkey : key ∈ [pyStr "properties", pyStr "$defs", pyStr "items", pyStr "anyOf"]) :
    ¬Lost fields key := by
  have hnone : ∀ key ∈ [pyStr "properties", pyStr "$defs", pyStr "items", pyStr "anyOf"],
      key ∉ unsupportedKeywords ∧ key ≠ pyStr "additionalProperties" ∧ key ≠ pyStr "required" := by
        decide
  obtain ⟨hsupported, hadditional, hrequired⟩ := hnone key hkey
  rintro (h | ⟨-, h | h⟩)
  · exact hsupported h
  · exact hadditional h
  · exact hrequired h

lemma NameMap.keyword_mem (m : NameMap) :
    m.keyword ∈ [pyStr "properties", pyStr "$defs", pyStr "items", pyStr "anyOf"] := by
  cases m <;> decide

lemma getElem?_strictifyItems {items items' : List PyValue} (h : strictifyItems items = some items')
    (i : ℕ) :
    Option.Rel Makes items[i]? items'[i]? := by
  induction items generalizing items' i with
  | nil =>
      obtain rfl := Option.some.inj h
      exact .none
  | cons v vs ih =>
      obtain ⟨w, ws, hw, hws, rfl⟩ := strictifyItems_cons h
      cases i with
      | zero => exact .some hw
      | succ i => exact ih hws i

lemma itemOf_makes (h : Makes v w) (i : ℕ) : Option.Rel Makes (itemOf i v) (itemOf i w) := by
  obtain ⟨items, items', rfl, rfl, hitems⟩ | ⟨_, _, rfl, rfl⟩ | ⟨rfl, hlist, -⟩ := makes_cases h
  · exact getElem?_strictifyItems hitems i
  · exact .none
  · cases w with
    | list items => exact absurd rfl (hlist items)
    | _ => exact .none

/-- **A step that is kept leads to what is made of what it led to.** -/
lemma from_makes (h : Makes v w) (hkept : s.Kept v) : Option.Rel Makes (s.from v) (s.from w) := by
  cases s with
  | entry m name =>
      have hmap := fieldOf_makes h fun _ _ => not_lost_of_keyword m.keyword_mem
      refine rel_bind hmap fun u u' hmakes hu => fieldOf_makes hmakes ?_
      rintro fields rfl
      exact hkept fields hu
  | items => exact fieldOf_makes h fun _ _ => not_lost_of_keyword (by decide)
  | anyOf i =>
      have hlist := @fieldOf_makes (pyStr "anyOf") _ _ h fun _ _ => not_lost_of_keyword (by decide)
      exact rel_bind hlist fun u u' hmakes _ => itemOf_makes hmakes i

lemma schemaAt_append (v : PyValue) (path path' : List Step) :
    schemaAt v (path ++ path') = (schemaAt v path).bind fun w => schemaAt w path' := by
  induction path generalizing v with
  | nil => rfl
  | cons s path ih =>
      rw [List.cons_append, schemaAt, schemaAt, Option.bind_assoc]
      exact congrArg _ (funext fun w => ih w)

/-- No dictionary stands in it. -/
def Dictless (v : PyValue) : Prop := ∀ path fields, schemaAt v path ≠ some (.dict fields)

lemma Dictless.barren (h : Dictless v) : Barren v := by
  intro path
  rw [namesAt]
  cases hat : schemaAt v path with
  | none => rfl
  | some w =>
      cases w with
      | dict fields => exact absurd hat (h path fields)
      | _ => rfl

lemma dictless_of_fieldOf (hdict : ∀ fields, v ≠ .dict fields)
    (hfield : ∀ key, fieldOf key v = none) :
    Dictless v := by
  intro path fields hat
  cases path with
  | nil => exact hdict fields (Option.some.inj hat)
  | cons s path =>
      have hnone : s.from v = none := by
        cases s with
        | entry m name => rw [Step.from, hfield, Option.bind_none]
        | items => exact hfield _
        | anyOf i => rw [Step.from, hfield, Option.bind_none]
      rw [schemaAt, hnone] at hat
      cases hat

/-- **What stands where an entry was lost**: nothing, or what closing an object wrote there. -/
lemma fieldOf_of_lost (h : Makes (.dict fields) w) (hlost : Lost fields key)
    (hu : fieldOf key w = some u) :
    Dictless u := by
  obtain ⟨out, fields', rfl, hout, hclose, hobject, -⟩ := makes_dict h
  have hvalue : fields'.lookup key = some u := hu
  by_cases hwritten : isObject fields = true ∧
    (key = pyStr "additionalProperties" ∨ key = pyStr "required")
  · obtain ⟨required, -, rfl⟩ := closeObject_of_isObject (hobject.trans hwritten.1) hclose
    rcases hwritten.2 with rfl | rfl
    · rw [lookup_setItem_of_ne (by decide), lookup_setItem] at hvalue
      obtain rfl := Option.some.inj hvalue
      exact dictless_of_fieldOf nofun fun _ => rfl
    · rw [lookup_setItem] at hvalue
      obtain rfl := Option.some.inj hvalue
      exact dictless_of_fieldOf nofun fun _ => rfl
  · have hdropped : key ∈ unsupportedKeywords := hlost.resolve_right hwritten
    have hkeep : isObject out = true → key ≠ pyStr "additionalProperties" ∧
        key ≠ pyStr "required" :=
      fun ho => not_or.mp fun hkey => hwritten ⟨hobject ▸ ho, hkey⟩
    rw [lookup_closeObject hclose hkeep, lookup_strictifyFields hout, if_pos hdropped] at hvalue
    cases hvalue

/-- A step that is not kept leads nowhere after the pass. -/
lemma dictless_of_not_kept (h : Makes v w) (hkept : ¬s.Kept v) (hu : s.from w = some u) :
    Dictless u := by
  cases s with
  | entry m name =>
      simp only [Step.Kept] at hkept
      push Not at hkept
      obtain ⟨fields, hfields, hlost⟩ := hkept
      have hmap := fieldOf_makes h fun _ _ => not_lost_of_keyword m.keyword_mem
      rw [hfields] at hmap
      rw [Step.from] at hu
      generalize fieldOf m.keyword w = b at hmap hu
      cases hmap with
      | some hmakes => exact fieldOf_of_lost hmakes hlost hu
  | items => exact absurd trivial hkept
  | anyOf i => exact absurd trivial hkept

/-- **The dictionaries that stand in what is made of a value are made of dictionaries in it.** -/
lemma schemaAt_makes (h : Makes v w) (hat : schemaAt w path = some (.dict fields')) :
    ∃ fields, Makes (.dict fields) (.dict fields') ∧ schemaAt v path = some (.dict fields) := by
  induction path generalizing v w with
  | nil =>
      obtain rfl := Option.some.inj hat
      obtain ⟨fields, rfl⟩ := eq_dict_of_makes h
      exact ⟨fields, h, rfl⟩
  | cons s path ih =>
      obtain ⟨u', hu', hat⟩ := Option.bind_eq_some_iff.mp hat
      by_cases hkept : s.Kept v
      · have hrel := from_makes h hkept
        rw [hu'] at hrel
        rw [schemaAt]
        generalize s.from v = a at hrel
        cases hrel with
        | some hmakes => exact ih hmakes hat
      · exact absurd hat (dictless_of_not_kept h hkept hu' path fields')

end

/-! ## What a strict schema is -/

section

variable {fields fields' : Fields} {key : PyStr} {v w u : PyValue} {path : List Step}

lemma mem_of_lookup (h : fields.lookup key = some v) : (key, v) ∈ fields := by
  obtain ⟨l, r, rfl, -⟩ := List.lookup_eq_some_iff.mp h
  exact List.mem_append_right l List.mem_cons_self

lemma Shaped.of_fieldOf (h : Shaped v) (hu : fieldOf key v = some u) : Shaped u := by
  cases h with
  | dict hproperties hfields => exact hfields _ (mem_of_lookup hu)
  | _ => cases hu

lemma Shaped.of_itemOf {i : ℕ} (h : Shaped v) (hu : itemOf i v = some u) : Shaped u := by
  cases h with
  | list hitems => exact hitems u (List.mem_of_getElem? hu)
  | _ => cases hu

lemma Shaped.of_from {s : Step} (h : Shaped v) (hu : s.from v = some u) : Shaped u := by
  cases s with
  | entry m name =>
      obtain ⟨entries, hentries, hu⟩ := Option.bind_eq_some_iff.mp hu
      exact (h.of_fieldOf hentries).of_fieldOf hu
  | items => exact h.of_fieldOf hu
  | anyOf i =>
      obtain ⟨alternatives, halternatives, hu⟩ := Option.bind_eq_some_iff.mp hu
      exact (h.of_fieldOf halternatives).of_itemOf hu

lemma Shaped.of_schemaAt (h : Shaped v) (hat : schemaAt v path = some u) : Shaped u := by
  induction path generalizing v with
  | nil => rwa [← Option.some.inj hat]
  | cons s path ih =>
      obtain ⟨w, hw, hat⟩ := Option.bind_eq_some_iff.mp hat
      exact ih (h.of_from hw) hat

lemma sortedNames_eq {out : Fields} (hshaped : Shaped (.dict fields))
    (hout : strictifyFields fields = some out) :
    sortedNames ((out.lookup (pyStr "properties")).getD .none) =
      some (((propertyNames out).insertionSort (· ≤ ·)).map .str) := by
  have hrel := @lookup_strictifyFields_rel _ _ (pyStr "properties") hout (by decide)
  have hdict : ∀ v, fields.lookup (pyStr "properties") = some v → ∃ m, v = .dict m := by
    cases hshaped with
    | dict hproperties _ => exact hproperties
  unfold propertyNames
  generalize fields.lookup (pyStr "properties") = a at hrel hdict
  generalize out.lookup (pyStr "properties") = b at hrel
  cases hrel with
  | none => rfl
  | some hmakes =>
      obtain ⟨m, rfl⟩ := hdict _ rfl
      obtain ⟨_, m', rfl, -⟩ := makes_dict hmakes
      rfl

lemma exists_strictifyItems {items : List PyValue} (h : ∀ v ∈ items, ∃ w, Makes v w) :
    ∃ ws, strictifyItems items = some ws := by
  induction items with
  | nil => exact ⟨[], rfl⟩
  | cons v vs ih =>
      obtain ⟨hv, hvs⟩ := List.forall_mem_cons.mp h
      obtain ⟨w, hw⟩ := hv
      obtain ⟨ws, hws⟩ := ih hvs
      have hw : strictify v = some w := hw
      exact ⟨w :: ws, by rw [strictifyItems, hw, hws]; rfl⟩

lemma exists_strictifyFields (h : ∀ f ∈ fields, ∃ w, Makes f.2 w) :
    ∃ out, strictifyFields fields = some out := by
  induction fields with
  | nil => exact ⟨[], rfl⟩
  | cons f fields ih =>
      obtain ⟨key, v⟩ := f
      obtain ⟨hv, hfields⟩ := List.forall_mem_cons.mp h
      obtain ⟨out, hout⟩ := ih hfields
      by_cases hkey : key ∈ unsupportedKeywords
      · exact ⟨out, (strictifyFields_cons_of_unsupported hkey).trans hout⟩
      · obtain ⟨w, hw⟩ := hv
        have hw : strictify v = some w := hw
        exact ⟨(key, w) :: out, by rw [strictifyFields, if_neg hkey, strictifyField, hw, hout]; rfl⟩

/-- **A schema can be made strict.** -/
lemma Shaped.exists_makes (h : Shaped v) : ∃ w, Makes v w := by
  induction h with
  | list h ih =>
      obtain ⟨ws, hws⟩ := exists_strictifyItems ih
      exact ⟨.list ws, by rw [Makes, strictify, hws]; rfl⟩
  | @dict fields hproperties h ih =>
      obtain ⟨out, hout⟩ := exists_strictifyFields ih
      have hnames := sortedNames_eq (.dict hproperties h) hout
      have hclose : ∃ w, closeObject out = some w := by
        rw [closeObject, hnames]
        split_ifs <;> exact ⟨_, rfl⟩
      obtain ⟨w, hw⟩ := hclose
      exact ⟨w, by rw [Makes, strictify, hout]; exact hw⟩
  | none => exact ⟨_, rfl⟩
  | bool b => exact ⟨_, rfl⟩
  | int n => exact ⟨_, rfl⟩
  | float bits => exact ⟨_, rfl⟩
  | str s => exact ⟨_, rfl⟩

/-- An object is closed and requires its properties. -/
lemma closed_of_makes (hshaped : Shaped (.dict fields)) (h : Makes (.dict fields) (.dict fields'))
    (hobject : isObject fields' = true) :
    fields'.lookup (pyStr "additionalProperties") = some (.bool false) ∧
      fields'.lookup (pyStr "required") =
        some (.list (((propertyNames fields').insertionSort (· ≤ ·)).map .str)) := by
  obtain ⟨out, _, hw, hout, hclose, hin, hend⟩ := makes_dict h
  obtain rfl := PyValue.dict.inj hw
  have hopen : isObject out = true := hin.trans (hend.symm.trans hobject)
  have hproperties := @lookup_closeObject _ _ (pyStr "properties") hclose fun _ =>
    ⟨by decide, by decide⟩
  have hsame : propertyNames fields' = propertyNames out := by
    rw [propertyNames, propertyNames, hproperties]
  obtain ⟨required, hrequired, rfl⟩ := closeObject_of_isObject hopen hclose
  rw [sortedNames_eq hshaped hout] at hrequired
  refine ⟨?_, ?_⟩
  · rw [lookup_setItem_of_ne (by decide), lookup_setItem]
  · rw [lookup_setItem, hsame, Option.some.inj hrequired]

/-- No refused keyword is left. -/
lemma supported_of_makes (h : Makes (.dict fields) (.dict fields')) {f : PyStr × PyValue}
    (hf : f ∈ fields') :
    f.1 ∉ unsupportedKeywords := by
  obtain ⟨out, _, hw, hout, hclose, -, -⟩ := makes_dict h
  obtain rfl := PyValue.dict.inj hw
  by_cases hobject : isObject out = true
  · obtain ⟨required, -, rfl⟩ := closeObject_of_isObject hobject hclose
    have hwritten : pyStr "additionalProperties" ∉ unsupportedKeywords ∧
        pyStr "required" ∉ unsupportedKeywords := by
      decide
    rcases mem_setItem hf with rfl | ⟨hf, -⟩
    · exact hwritten.2
    · rcases mem_setItem hf with rfl | ⟨hf, -⟩
      · exact hwritten.1
      · exact (mem_strictifyFields hout hf).1
  · rw [closeObject_of_not hobject hclose] at hf
    exact (mem_strictifyFields hout hf).1

lemma strictifyItems_eq_self {items : List PyValue} (h : ∀ v ∈ items, Makes v v) :
    strictifyItems items = some items := by
  induction items with
  | nil => rfl
  | cons v vs ih =>
      obtain ⟨hv, hvs⟩ := List.forall_mem_cons.mp h
      have hv : strictify v = some v := hv
      rw [strictifyItems, hv, ih hvs]
      rfl

lemma strictifyFields_eq_self (h : ∀ f ∈ fields, f.1 ∉ unsupportedKeywords ∧ Makes f.2 f.2) :
    strictifyFields fields = some fields := by
  induction fields with
  | nil => rfl
  | cons f fields ih =>
      obtain ⟨key, v⟩ := f
      obtain ⟨⟨hkey, hv⟩, hfields⟩ := List.forall_mem_cons.mp h
      have hv : strictify v = some v := hv
      rw [strictifyFields, if_neg hkey, strictifyField, hv, ih hfields]
      rfl

lemma mem_strictifyItems {items items' : List PyValue} (h : strictifyItems items = some items')
    (hw : w ∈ items') :
    ∃ v ∈ items, Makes v w := by
  obtain ⟨i, hi⟩ := List.getElem?_of_mem hw
  have hrel := getElem?_strictifyItems h i
  rw [hi] at hrel
  generalize hv : items[i]? = a at hrel
  cases hrel with
  | some hmakes => exact ⟨_, List.mem_of_getElem? hv, hmakes⟩

lemma closeObject_again {out : Fields} {required : List PyValue} (hobject : isObject out = true)
    (hrequired : sortedNames ((out.lookup (pyStr "properties")).getD .none) = some required)
      (hclose :
      closeObject out = some (.dict fields)) : closeObject fields = some (.dict fields) := by
  have hlookup := @lookup_closeObject _ _ (pyStr "properties") hclose fun _ =>
    ⟨by decide, by decide⟩
  have hobject' : isObject fields = true := (isObject_closeObject hclose).trans hobject
  obtain ⟨names, hnames, rfl⟩ := closeObject_of_isObject hobject hclose
  obtain rfl := Option.some.inj (hrequired.symm.trans hnames)
  have hadditional :
      setItem (setItem (setItem out (pyStr "additionalProperties") (.bool false)) (pyStr "required")
      (.list required)) (pyStr "additionalProperties") (.bool false) =
      setItem (setItem out (pyStr "additionalProperties") (.bool false)) (pyStr "required")
        (.list required) := by
    refine setItem_eq_self (keys_setItem.mpr (.inr (keys_setItem.mpr (.inl rfl))))
      fun f hf hkey => ?_
    rcases mem_setItem hf with rfl | ⟨hf, -⟩
    · exact absurd hkey (show pyStr "required" ≠ pyStr "additionalProperties" by decide)
    · rcases mem_setItem hf with rfl | ⟨-, hne⟩
      · rfl
      · exact absurd hkey hne
  rw [closeObject, if_pos hobject', hlookup, hrequired, Option.bind_eq_bind, Option.bind_some,
    hadditional]
  refine congrArg (some ∘ PyValue.dict)
    (setItem_eq_self (keys_setItem.mpr (.inl rfl)) fun f hf hkey => ?_)
  rcases mem_setItem hf with rfl | ⟨-, hne⟩
  · rfl
  · exact absurd hkey hne

/-- **A strict schema is made into itself.** -/
lemma makes_again (h : Makes v w) (hshaped : Shaped v) : Makes w w := by
  induction hshaped generalizing w with
  | list hitems ih =>
      obtain ⟨items', hitems', rfl⟩ := strictify_list h
      have hself := strictifyItems_eq_self fun u hu => by
        obtain ⟨v, hv, hmakes⟩ := mem_strictifyItems hitems' hu
        exact ih v hv hmakes
      rw [Makes, strictify, hself]
      rfl
  | @dict fields hproperties hfields ih =>
      obtain ⟨out, fields', rfl, hout, hclose, hin, -⟩ := makes_dict h
      have hsorted := sortedNames_eq (.dict hproperties hfields) hout
      have hpass : ∀ f ∈ out, Makes f.2 f.2 := by
        intro f hf
        obtain ⟨-, v, hv, hmakes⟩ := mem_strictifyFields hout hf
        exact ih _ hv hmakes
      have hself : strictifyFields fields' = some fields' := by
        refine strictifyFields_eq_self fun f hf => ⟨supported_of_makes h hf, ?_⟩
        by_cases hobject : isObject out = true
        · obtain ⟨required, hrequired, rfl⟩ := closeObject_of_isObject hobject hclose
          obtain rfl := Option.some.inj (hsorted.symm.trans hrequired)
          rcases mem_setItem hf with rfl | ⟨hf, -⟩
          · have hnames : strictifyItems (((propertyNames out).insertionSort (· ≤ ·)).map .str) =
                some _ :=
              strictifyItems_eq_self fun v hv => by
                obtain ⟨name, -, rfl⟩ := List.mem_map.mp hv
                rfl
            rw [Makes, strictify, hnames]
            rfl
          · rcases mem_setItem hf with rfl | ⟨hf, -⟩
            · rfl
            · exact hpass f hf
        · rw [closeObject_of_not hobject hclose] at hf
          exact hpass f hf
      have hclosed : closeObject fields' = some (.dict fields') := by
        by_cases hobject : isObject out = true
        · exact closeObject_again hobject hsorted hclose
        · rw [closeObject_of_not hobject hclose, closeObject, if_neg hobject]
      rw [Makes, strictify, hself]
      exact hclosed
  | none =>
      obtain rfl := Option.some.inj h
      rfl
  | bool b =>
      obtain rfl := Option.some.inj h
      rfl
  | int n =>
      obtain rfl := Option.some.inj h
      rfl
  | float bits =>
      obtain rfl := Option.some.inj h
      rfl
  | str s =>
      obtain rfl := Option.some.inj h
      rfl

end

/-! ## The properties -/

section

variable {fields fields' : Fields} {key : PyStr} {v w u : PyValue} {path : List Step}

/-- **The names a map keeps, and those that closing it adds.** -/
lemma keys_makes (h : Makes (.dict fields) (.dict fields')) :
    key ∈ fields'.map Prod.fst ↔ (key ∈ fields.map Prod.fst ∧ key ∉ unsupportedKeywords) ∨
      (isObject fields = true ∧ (key = pyStr "additionalProperties" ∨ key = pyStr "required")) := by
  obtain ⟨out, _, hw, hout, hclose, hin, -⟩ := makes_dict h
  obtain rfl := PyValue.dict.inj hw
  rw [← keys_strictifyFields hout]
  by_cases hobject : isObject out = true
  · obtain ⟨required, -, rfl⟩ := closeObject_of_isObject hobject hclose
    have hobject' : isObject fields = true := hin.symm.trans hobject
    rw [keys_setItem, keys_setItem]
    tauto
  · rw [closeObject_of_not hobject hclose]
    rw [hin] at hobject
    tauto

/-- The names of a map stay if nothing is dropped or added. -/
lemma keys_makes_iff (h : Makes (.dict fields) (.dict fields')) :
    (fields'.map Prod.fst).toFinset = (fields.map Prod.fst).toFinset ↔
      (∀ f ∈ fields, f.1 ∉ unsupportedKeywords) ∧
        (isObject fields = true →
          pyStr "additionalProperties" ∈ fields.map Prod.fst ∧
            pyStr "required" ∈ fields.map Prod.fst) := by
  rw [Finset.ext_iff]
  simp only [List.mem_toFinset, keys_makes h]
  constructor
  · intro hsame
    refine ⟨fun f hf hdropped => ?_, fun hobject => ⟨?_, ?_⟩⟩
    · rcases (hsame f.1).mpr (List.mem_map_of_mem hf) with ⟨-, hkept⟩ | ⟨-, hkey⟩
      · exact hkept hdropped
      · have hwritten : pyStr "additionalProperties" ∉ unsupportedKeywords ∧
            pyStr "required" ∉ unsupportedKeywords := by decide
        rcases hkey with hkey | hkey
        · exact hwritten.1 (hkey ▸ hdropped)
        · exact hwritten.2 (hkey ▸ hdropped)
    · exact (hsame _).mp (.inr ⟨hobject, .inl rfl⟩)
    · exact (hsame _).mp (.inr ⟨hobject, .inr rfl⟩)
  · rintro ⟨hsupported, hpresent⟩ key
    constructor
    · rintro (⟨hkey, -⟩ | ⟨hobject, rfl | rfl⟩)
      · exact hkey
      · exact (hpresent hobject).1
      · exact (hpresent hobject).2
    · intro hkey
      obtain ⟨f, hf, rfl⟩ := List.mem_map.mp hkey
      exact .inl ⟨hkey, hsupported f hf⟩

lemma isObject_of_properties (h : fields.lookup (pyStr "properties") = some v) :
    isObject fields = true := by
  rw [isObject, h, Option.isSome_some, Bool.or_true]

/-- **The properties of an object stay if none is dropped and none is added.** -/
lemma objectNames_makes (h : Makes (.dict fields) (.dict fields')) :
    objectNames (.dict fields') = objectNames (.dict fields) ↔
      ∀ m, fields.lookup (pyStr "properties") = some (.dict m) →
        (∀ f ∈ m, f.1 ∉ unsupportedKeywords) ∧
          (isObject m = true →
            pyStr "additionalProperties" ∈ m.map Prod.fst ∧ pyStr "required" ∈ m.map Prod.fst) := by
  obtain ⟨_, _, hw, -, -, -, hobject⟩ := makes_dict h
  obtain rfl := PyValue.dict.inj hw
  have hrel : Option.Rel Makes (fields.lookup (pyStr "properties"))
      (fields'.lookup (pyStr "properties")) :=
    @fieldOf_makes (pyStr "properties") _ _ h fun _ _ => not_lost_of_keyword (by decide)
  by_cases hobj : isObject fields = true
  · rw [objectNames, objectNames, hobject, if_pos hobj, if_pos hobj, Option.some_inj, propertyNames,
      propertyNames]
    generalize fields.lookup (pyStr "properties") = a at hrel
    generalize fields'.lookup (pyStr "properties") = b at hrel
    cases hrel with
    | none => exact iff_of_true rfl nofun
    | some hmakes =>
        obtain ⟨_, _, rfl, rfl, -⟩ | ⟨m, m', rfl, rfl⟩ | ⟨rfl, -, hdict⟩ := makes_cases hmakes
        · exact iff_of_true rfl nofun
        · refine (keys_makes_iff hmakes).trans ⟨?_, fun hkeeps => hkeeps m rfl⟩
          rintro hkeeps _ heq
          obtain rfl := PyValue.dict.inj (Option.some.inj heq)
          exact hkeeps
        · exact iff_of_true rfl fun m heq => absurd (Option.some.inj heq) (hdict m)
  · rw [objectNames, objectNames, hobject, if_neg hobj, if_neg hobj]
    exact iff_of_true rfl fun m hm => absurd (isObject_of_properties hm) hobj

lemma namesAt_cons (v : PyValue) (s : Step) (path : List Step) :
    namesAt v (s :: path) = (s.from v).bind fun u => namesAt u path := Option.bind_assoc _ _ _

/-- What is lost holds no object. -/
lemma Untouched.barren_of_not_kept {s : Step} (h : ∀ fields, v = .dict fields → Untouched fields)
    (hkept : ¬s.Kept v) (hu : s.from v = some u) : Barren u := by
  cases s with
  | entry k name =>
      simp only [Step.Kept] at hkept
      push Not at hkept
      obtain ⟨m, hm, hlost⟩ := hkept
      rw [Step.from, hm] at hu
      cases v with
      | dict fields => exact (h fields rfl).barren k m hm name u hu hlost
      | _ => cases hm
  | items => exact absurd trivial hkept
  | anyOf i => exact absurd trivial hkept

/-- **An untouched schema keeps its objects and their properties.** -/
lemma namesAt_makes (h : Makes v w)
    (huntouched : ∀ path fields, schemaAt v path = some (.dict fields) → Untouched fields)
    (path : List Step) :
    namesAt w path = namesAt v path := by
  have hroot : ∀ fields, v = .dict fields → Untouched fields :=
    fun fields heq => huntouched [] fields (congrArg some heq)
  induction path generalizing v w with
  | nil =>
      obtain ⟨_, _, rfl, rfl, -⟩ | ⟨fields, fields', rfl, rfl⟩ | ⟨rfl, -, -⟩ := makes_cases h
      · rfl
      · have hkeeps := hroot fields rfl
        exact (objectNames_makes h).mpr fun m hm => ⟨hkeeps.supported m hm, hkeeps.present m hm⟩
      · rfl
  | cons s path ih =>
      rw [namesAt_cons, namesAt_cons]
      by_cases hkept : s.Kept v
      · have hrel := from_makes h hkept
        have hbelow : ∀ u, s.from v = some u →
            ∀ path fields, schemaAt u path = some (.dict fields) → Untouched fields := by
          intro u hu path fields hat
          refine huntouched (s :: path) fields ?_
          rw [schemaAt, hu]
          exact hat
        generalize s.from v = a at hrel hbelow
        generalize s.from w = b at hrel
        cases hrel with
        | none => rfl
        | some hmakes =>
            have hat := hbelow _ rfl
            exact ih hmakes hat fun fields heq => hat [] fields (congrArg some heq)
      · have hbefore : ((s.from v).bind fun u => namesAt u path) = none :=
          Option.bind_eq_none_iff.mpr fun u hu => Untouched.barren_of_not_kept hroot hkept hu path
        have hafter : ((s.from w).bind fun u => namesAt u path) = none :=
          Option.bind_eq_none_iff.mpr fun u hu => (dictless_of_not_kept h hkept hu).barren path
        rw [hbefore, hafter]

/-- Where no object stands, nothing is touched. -/
lemma Barren.untouched (h : Barren v) (hat : schemaAt v path = some (.dict fields)) :
    Untouched fields := by
  have hnot : ∀ w, fields.lookup (pyStr "properties") ≠ some w := by
    intro w hw
    have hnone := h path
    rw [namesAt, hat, Option.bind_some, objectNames, if_pos (isObject_of_properties hw)] at hnone
    cases hnone
  refine ⟨fun m hm => absurd hm (hnot _), fun m hm => absurd hm (hnot _),
    fun k m hm name u hu _ path' => ?_⟩
  have hbelow : schemaAt v (path ++ Step.entry k name :: path') = schemaAt u path' := by
    have hfrom : (Step.entry k name).from (.dict fields) = some u := by
      rw [Step.from, fieldOf, hm]
      exact hu
    rw [schemaAt_append, hat, Option.bind_some, schemaAt, hfrom, Option.bind_some]
  rw [namesAt, ← hbelow]
  exact h _

/-- What is lost of a schema that keeps its objects holds none. -/
lemma barren_of_namesAt {s : Step} (h : Makes v w)
    (hnames : ∀ path, namesAt w path = namesAt v path) (hkept : ¬s.Kept v)
    (hu : s.from v = some u) : Barren u := by
  intro path
  have hafter : ((s.from w).bind fun u => namesAt u path) = none :=
    Option.bind_eq_none_iff.mpr fun u hu => (dictless_of_not_kept h hkept hu).barren path
  rw [← namesAt_cons, hnames, namesAt_cons, hu] at hafter
  exact hafter

/-- **A schema that keeps its objects and their properties is untouched.** -/
lemma untouched_of_namesAt (h : Makes v w) (hnames : ∀ path, namesAt w path = namesAt v path)
    (hat : schemaAt v path = some (.dict fields)) : Untouched fields := by
  induction path generalizing v w with
  | nil =>
      obtain rfl := Option.some.inj hat
      obtain ⟨-, fields', rfl, -, -, -, -⟩ := makes_dict h
      have hkeeps := (objectNames_makes h).mp (hnames [])
      refine ⟨fun m hm => (hkeeps m hm).1, fun m hm => (hkeeps m hm).2,
        fun k m hm name u hu hname => ?_⟩
      have hkept : ¬(Step.entry k name).Kept (.dict fields) := fun hkept => hkept m hm hname
      refine barren_of_namesAt h hnames hkept ?_
      rw [Step.from, fieldOf, hm]
      exact hu
  | cons s path ih =>
      obtain ⟨u, hu, hat⟩ := Option.bind_eq_some_iff.mp hat
      by_cases hkept : s.Kept v
      · have hrel := from_makes h hkept
        rw [hu] at hrel
        generalize hw : s.from w = b at hrel
        cases hrel with
        | @some _ u' hmakes =>
            refine ih hmakes (fun path => ?_) hat
            have hsame := hnames (s :: path)
            rw [namesAt_cons, namesAt_cons, hw, hu] at hsame
            exact hsame
      · exact (barren_of_namesAt h hnames hkept hu).untouched hat

end

/-! ## Strict schemas keep their fields -/

/-- **What is made of a schema is strict**, whether or not it keeps the fields. -/
theorem strictify_strict {v : PyValue} (h : Shaped v) :
    ∃ w, strictify v = some w ∧ strictify w = some w ∧
      ∀ path fields, schemaAt w path = some (.dict fields) →
        (∀ f ∈ fields, f.1 ∉ unsupportedKeywords) ∧
          (isObject fields = true →
            fields.lookup (pyStr "additionalProperties") = some (.bool false) ∧
              fields.lookup (pyStr "required") =
                some (.list (((propertyNames fields).insertionSort (· ≤ ·)).map .str))) := by
  obtain ⟨w, hmakes⟩ := h.exists_makes
  refine ⟨w, hmakes, makes_again hmakes h, fun path fields' hat => ?_⟩
  obtain ⟨fields, hfields, hbefore⟩ := schemaAt_makes hmakes hat
  exact ⟨fun f hf => supported_of_makes hfields hf, closed_of_makes (h.of_schemaAt hbefore) hfields⟩

/-- **A schema keeps its fields exactly when it is untouched everywhere.** -/
theorem strict_keeps_iff {v : PyValue} (h : Shaped v) :
    (∃ w, strictify v = some w ∧ MadeStrict v w) ↔
      ∀ path fields, schemaAt v path = some (.dict fields) → Untouched fields := by
  constructor
  · rintro ⟨w, hmakes, hstrict⟩ path fields hat
    exact untouched_of_namesAt hmakes hstrict.names hat
  · intro huntouched
    obtain ⟨w, hmakes, hagain, hstrict⟩ := strictify_strict h
    exact ⟨w, hmakes, fun path fields hat => (hstrict path fields hat).1,
      fun path fields hat => (hstrict path fields hat).2, namesAt_makes hmakes huntouched, hagain⟩

/-- An object with one property, a positive integer. -/
def oneField (name : String) : PyValue :=
  .dict [(pyStr "type", .str (pyStr "object")),
    (pyStr "properties", .dict [(pyStr name,
      .dict [(pyStr "type", .str (pyStr "integer")), (pyStr "exclusiveMinimum", .int 0)])])]

lemma oneField_shaped (name : String) (h : pyStr "properties" ≠ pyStr name) :
    Shaped (oneField name) := by
  have hinteger : Shaped (.dict [(pyStr "type", .str (pyStr "integer")),
      (pyStr "exclusiveMinimum", .int 0)]) := by
    refine .dict nofun fun f hf => ?_
    simp only [List.mem_cons, List.not_mem_nil, or_false] at hf
    rcases hf with rfl | rfl
    · exact .str _
    · exact .int 0
  have hproperties : Shaped (.dict [(pyStr name,
      .dict [(pyStr "type", .str (pyStr "integer")), (pyStr "exclusiveMinimum", .int 0)])]) := by
    refine .dict (fun v hv => ?_) fun f hf => ?_
    · rw [List.lookup_cons, beq_false_of_ne h] at hv
      cases hv
    · rw [List.mem_singleton.mp hf]
      exact hinteger
  refine .dict (fun v hv => ⟨_, (Option.some.inj hv).symm⟩) fun f hf => ?_
  simp only [List.mem_cons, List.not_mem_nil, or_false] at hf
  rcases hf with rfl | rfl
  · exact .str _
  · exact hproperties

/-- A schema is untouched if none of its names is a constraint, and none of its maps is taken for an
object. -/
lemma Untouched.of_ordinary {fields : Fields}
    (h : ∀ (k : NameMap) m, fields.lookup k.keyword = some (.dict m) →
      (∀ f ∈ m, f.1 ∉ unsupportedKeywords) ∧ isObject m = false) : Untouched fields := by
  refine ⟨fun m hm => (h .properties m hm).1, fun m hm hobject => ?_, fun k m hm name v hv hlost =>
    ?_⟩
  · exact absurd hobject (Bool.eq_false_iff.mp (h .properties m hm).2)
  · obtain ⟨hsupported, hobject⟩ := h k m hm
    rcases hlost with hdropped | ⟨hobject', -⟩
    · exact absurd hdropped (hsupported _ (mem_of_lookup hv))
    · exact absurd hobject' (Bool.eq_false_iff.mp hobject)

/-- An amount that must be positive keeps its field. -/
theorem strict_keeps_iff_amount :
    ∃ w, strictify (oneField "amount") = some w ∧ MadeStrict (oneField "amount") w := by
  refine (strict_keeps_iff (oneField_shaped "amount" (by decide))).mpr fun path fields hat => ?_
  apply Untouched.of_ordinary
  intro k m hm
  cases path with
  | nil =>
      obtain rfl := PyValue.dict.inj (Option.some.inj hat)
      cases k with
      | defs => cases hm
      | properties =>
          obtain rfl := PyValue.dict.inj (Option.some.inj hm)
          refine ⟨fun f hf => ?_, rfl⟩
          rw [List.mem_singleton.mp hf]
          exact (by decide : pyStr "amount" ∉ unsupportedKeywords)
  | cons s path =>
      obtain ⟨u, hu, hat⟩ := Option.bind_eq_some_iff.mp hat
      have hinteger : u = .dict [(pyStr "type", .str (pyStr "integer")),
          (pyStr "exclusiveMinimum", .int 0)] := by
        cases s with
        | items => cases hu
        | anyOf i => cases hu
        | entry k name =>
            cases k with
            | defs => cases hu
            | properties =>
                rw [Step.from, Option.bind_eq_some_iff] at hu
                obtain ⟨m, hm, hu⟩ := hu
                obtain rfl := Option.some.inj hm
                exact (Prod.mk.inj (List.mem_singleton.mp (mem_of_lookup hu))).2
      subst hinteger
      cases path with
      | nil =>
          obtain rfl := PyValue.dict.inj (Option.some.inj hat)
          cases k <;> cases hm
      | cons s path =>
          obtain ⟨u, hu, -⟩ := Option.bind_eq_some_iff.mp hat
          cases s with
          | items => cases hu
          | anyOf i => cases hu
          | entry k name => cases k <;> cases hu

/-- A field called `minimum` is dropped. -/
theorem strict_drops_field :
    Shaped (oneField "minimum") ∧
      ¬∃ w, strictify (oneField "minimum") = some w ∧ MadeStrict (oneField "minimum") w := by
  refine ⟨oneField_shaped "minimum" (by decide), ?_⟩
  rintro ⟨w, hmakes, hstrict⟩
  have huntouched : Untouched _ := @untouched_of_namesAt _ _ _ [] hmakes hstrict.names rfl
  have hdropped : pyStr "minimum" ∉ unsupportedKeywords :=
    huntouched.supported _ rfl _ (List.mem_singleton.mpr rfl)
  exact hdropped (by decide)

end LedgerProof.Triage
