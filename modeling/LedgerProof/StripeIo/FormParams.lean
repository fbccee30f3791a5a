import LedgerProof.Lib.Dict
import LedgerProof.Lib.PyRepr

/-!
# Parameters in bracket notation

`_flatten_params` and `_flatten_value` of `stripe_io/client.py` write the parameters of a request as
pairs for a form: `line_items[0][price]=y` for what stands under `line_items`, in the first item,
under `price`.

`leaves` is what a tree holds, by path and in document order.  `flattenValue_eq` says that the pairs
are the leaves, one each, and nothing else; `decode` reads the pairs back, and `build_leaves` is the
step to the tree again, without the containers that hold nothing.

Two trees make the call fail: one with an integer of more digits than `str` writes, and one that is
nested deeper than the interpreter's stack has room for.  `room` is the number of calls that still
fit, and `callDepth` how many the tree takes.
-/

namespace LedgerProof.Egress

open PyJson

/-! ## Flattening -/

/-- The items of a dictionary. -/
abbrev Params := List (PyStr × PyValue)

/-- A text of ASCII characters. -/
def asciiStr (s : List Char) : PyStr := s.map (·.toNat)

/-- `str(index)`. -/
def indexText (i : ℕ) : PyStr := asciiStr (natDecimal i)

/-- `f"{key}[{name}]"`. -/
def bracket (key name : PyStr) : PyStr := key ++ 0x5b :: (name ++ [0x5d])

/-- `str(x)` of a float. -/
def floatText (bits : BitVec 64) : PyStr :=
  if isFinite bits then asciiStr (reprFloat bits).text
  else if unsignedBits bits = infinityBits then pyStr (if bits.msb then "-inf" else "inf")
  else pyStr "nan"

/-- What `str` raises on an integer that is too long. -/
def tooManyDigits : PyError :=
  .valueError ("Exceeds the limit (4300 digits) for integer string conversion; " ++
    "use sys.set_int_max_str_digits() to increase the limit")

/-- `str(n)`. -/
def intText (n : ℤ) : Except PyError PyStr :=
  if (natDecimal n.natAbs).length ≤ maxStrDigits then .ok (asciiStr (decimal n))
    else .error tooManyDigits

mutual

/-- `_flatten_value`.  A dictionary goes through `_flatten_params`, which is a call of its own. -/
def flattenValue (key : PyStr) : PyValue → ℕ → Except PyError (List (PyStr × PyStr))
  | _, 0 => .error .recursionError
  | .dict _, 1 => .error .recursionError
  | .dict fields, room + 2 => flattenFields key room fields
  | .list items, room + 1 => flattenItems key room 0 items
  | .bool b, _ + 1 => .ok [(key, pyStr (if b then "true" else "false"))]
  | .none, _ + 1 => .ok [(key, [])]
  | .int n, _ + 1 => do return [(key, ← intText n)]
  | .float bits, _ + 1 => .ok [(key, floatText bits)]
  | .str s, _ + 1 => .ok [(key, s)]
termination_by structural v => v

/-- The loop over the parameters. -/
def flattenFields (pfx : PyStr) (room : ℕ) : Params → Except PyError (List (PyStr × PyStr))
  | [] => .ok []
  | f :: fs => do return (← flattenField pfx room f) ++ (← flattenFields pfx room fs)
termination_by structural fs => fs

/-- The body of that loop. -/
def flattenField (pfx : PyStr) (room : ℕ) : PyStr × PyValue → Except PyError (List (PyStr × PyStr))
  | (name, value) => flattenValue (if pfx ≠ [] then bracket pfx name else name) value room
termination_by structural f => f

/-- The loop over the items of a list. -/
def flattenItems (key : PyStr) (room index : ℕ) :
    List PyValue → Except PyError (List (PyStr × PyStr))
  | [] => .ok []
  | v :: vs => do
      return (← flattenValue (bracket key (indexText index)) v room) ++
        (← flattenItems key room (index + 1) vs)
termination_by structural vs => vs

end

/-- `_flatten_params`. -/
def flattenParams (pfx : PyStr) (params : Params) : ℕ → Except PyError (List (PyStr × PyStr))
  | 0 => .error .recursionError
  | room + 1 => flattenFields pfx room params

mutual

/-- How deep the calls for a value nest. -/
def callDepth : PyValue → ℕ
  | .dict fields => callDepthOfFields fields + 2
  | .list items => callDepthOfItems items + 1
  | .bool _ => 1
  | .none => 1
  | .int _ => 1
  | .float _ => 1
  | .str _ => 1
termination_by structural v => v

/-- How deep they nest for the fields of a dictionary. -/
def callDepthOfFields : Params → ℕ
  | [] => 0
  | f :: fs => max (callDepthOfField f) (callDepthOfFields fs)
termination_by structural fs => fs

/-- How deep they nest for a field. -/
def callDepthOfField : PyStr × PyValue → ℕ
  | (_, value) => callDepth value
termination_by structural f => f

/-- How deep they nest for the items of a list. -/
def callDepthOfItems : List PyValue → ℕ
  | [] => 0
  | v :: vs => max (callDepth v) (callDepthOfItems vs)
termination_by structural vs => vs

end

/-! ## Leaves -/

mutual

/-- The scalars of a tree, by path and in document order. -/
def leaves : PyValue → List (List PyStr × PyValue)
  | .dict fields => leavesOfFields fields
  | .list items => leavesOfItems 0 items
  | .bool b => [([], .bool b)]
  | .none => [([], .none)]
  | .int n => [([], .int n)]
  | .float bits => [([], .float bits)]
  | .str s => [([], .str s)]
termination_by structural v => v

/-- The scalars of a dictionary. -/
def leavesOfFields : Params → List (List PyStr × PyValue)
  | [] => []
  | f :: fs => leavesOfField f ++ leavesOfFields fs
termination_by structural fs => fs

/-- The scalars under a name. -/
def leavesOfField : PyStr × PyValue → List (List PyStr × PyValue)
  | (name, value) => (leaves value).map fun l => (name :: l.1, l.2)
termination_by structural f => f

/-- The scalars of a list. -/
def leavesOfItems (index : ℕ) : List PyValue → List (List PyStr × PyValue)
  | [] => []
  | v :: vs =>
      (leaves v).map (fun l => (indexText index :: l.1, l.2)) ++ leavesOfItems (index + 1) vs
termination_by structural vs => vs

end

/-- A path behind a key. -/
def extend (key : PyStr) (path : List PyStr) :
    PyStr := key ++ path.flatMap fun name => 0x5b :: (name ++ [0x5d])

/-- A path as a key: the first name, and the others in brackets. -/
def render : List PyStr → PyStr
  | [] => []
  | name :: path => extend name path

/-- The string form of a scalar. -/
def formText : PyValue → PyStr
  | .bool b => pyStr (if b then "true" else "false")
  | .int n => asciiStr (decimal n)
  | .float bits => floatText bits
  | .str s => s
  | _ => []

/-- `str` writes the scalar. -/
def Short : PyValue → Prop
  | .int n => (natDecimal n.natAbs).length ≤ maxStrDigits
  | _ => True

/-- The pair of a scalar, with its path written as a key. -/
def pairOf (write : List PyStr → PyStr) (l : List PyStr × PyValue) :
    Except PyError (PyStr × PyStr) :=
  match l.2 with
  | .int n => do return (write l.1, ← intText n)
  | v => .ok (write l.1, formText v)

/-! ## Reading -/

/-- What a form says. -/
inductive Form
  | text (s : PyStr)
  | map (fields : List (PyStr × Form))

/-- The path of a key: the name before the first bracket, and those in brackets. -/
def pathOf (key : PyStr) : List PyStr :=
  match key.splitOn 0x5b with
  | [] => []
  | name :: rest => name :: rest.map List.dropLast

/-- A text is written at a path. -/
def insert : List PyStr → PyStr → List (PyStr × Form) → List (PyStr × Form)
  | [], _, fields => fields
  | [name], s, fields => setItem fields name (.text s)
  | name :: path, s, fields =>
      match fields.lookup name with
      | some (.map sub) => setItem fields name (.map (insert path s sub))
      | _ => setItem fields name (.map (insert path s []))

/-- The pairs of a form, read one after the other. -/
def decode (pairs : List (PyStr × PyStr)) : List (PyStr × Form) :=
  pairs.foldl (fun fields pair => insert (pathOf pair.1) pair.2 fields) []

/-- A map, unless it has no fields. -/
def mapOf (fields : List (PyStr × Form)) :
    Option Form := if fields.isEmpty then none else some (.map fields)

mutual

/-- A tree with texts for scalars and maps for containers, without the containers that hold
nothing. -/
def pruned : PyValue → Option Form
  | .dict fields => mapOf (prunedFields fields)
  | .list items => mapOf (prunedItems 0 items)
  | .bool b => some (.text (formText (.bool b)))
  | .none => some (.text (formText .none))
  | .int n => some (.text (formText (.int n)))
  | .float bits => some (.text (formText (.float bits)))
  | .str s => some (.text (formText (.str s)))
termination_by structural v => v

/-- The fields that hold something. -/
def prunedFields : Params → List (PyStr × Form)
  | [] => []
  | f :: fs => prunedField f ++ prunedFields fs
termination_by structural fs => fs

/-- A field, if it holds something. -/
def prunedField : PyStr × PyValue → List (PyStr × Form)
  | (name, value) => (pruned value).toList.map fun v => (name, v)
termination_by structural f => f

/-- The items that hold something, by index. -/
def prunedItems (index : ℕ) : List PyValue → List (PyStr × Form)
  | [] => []
  | v :: vs => (pruned v).toList.map (fun w => (indexText index, w)) ++ prunedItems (index + 1) vs
termination_by structural vs => vs

end

/-- A name that can stand in brackets. -/
def Bracketable (name : PyStr) : Prop := name ≠ [] ∧ 0x5b ∉ name ∧ 0x5d ∉ name

/-- The names in a tree are distinct in each dictionary, not empty and without brackets. -/
inductive Named : PyValue → Prop
  | none : Named .none
  | bool (b : Bool) : Named (.bool b)
  | int (n : ℤ) : Named (.int n)
  | float (bits : BitVec 64) : Named (.float bits)
  | str (s : PyStr) : Named (.str s)
  | list {items : List PyValue} (h : ∀ v ∈ items, Named v) : Named (.list items)
  | dict {fields : Params} (hkeys : (fields.map Prod.fst).Nodup) (hnames : ∀ f ∈ fields,
      Bracketable f.1)
      (h : ∀ f ∈ fields, Named f.2) : Named (.dict fields)

/-! ## The pairs are the leaves -/

section

variable {key name : PyStr} {path : List PyStr}

lemma extend_nil (key : PyStr) : extend key [] = key := List.append_nil key

lemma extend_bracket (key name : PyStr) (path : List PyStr) :
    extend (bracket key name) path = extend key (name :: path) := by
  rw [extend, extend, bracket, List.flatMap_cons, List.append_assoc]

lemma bracket_ne_nil (key name : PyStr) : bracket key name ≠ [] := by simp [bracket]

lemma pairOf_bracket (key name : PyStr) (l : List PyStr × PyValue) :
    pairOf (extend (bracket key name)) l = pairOf (extend key) (name :: l.1, l.2) := by
  rw [pairOf, pairOf]
  simp only [extend_bracket]

end

mutual

/-- **The pairs of a value are its leaves**, one each and in order, if the stack has room for it. -/
lemma flattenValue_eq (key : PyStr) (hkey : key ≠ []) :
    ∀ (v : PyValue) (room : ℕ), callDepth v ≤ room →
    flattenValue key v room = (leaves v).mapM (pairOf (extend key))
  | .dict fields, room, h => by
      rw [callDepth] at h
      obtain ⟨room, rfl⟩ := Nat.exists_eq_add_of_le' (le_of_add_le_right h)
      rw [flattenValue, leaves]
      exact flattenFields_eq key hkey fields room (by omega)
  | .list items, room, h => by
      rw [callDepth] at h
      obtain ⟨room, rfl⟩ := Nat.exists_eq_add_of_le' (le_of_add_le_right h)
      rw [flattenValue, leaves]
      exact flattenItems_eq key items room 0 (by omega)
  | .bool b, room + 1, _ => by
      rw [flattenValue, leaves, List.mapM_cons, pairOf, extend_nil]
      rfl
  | .none, room + 1, _ => by
      rw [flattenValue, leaves, List.mapM_cons, pairOf, extend_nil]
      rfl
  | .int n, room + 1, _ => by
      rw [flattenValue, leaves, List.mapM_cons, List.mapM_nil, pairOf, extend_nil]
      dsimp only
      cases intText n <;> rfl
  | .float bits, room + 1, _ => by
      rw [flattenValue, leaves, List.mapM_cons, pairOf, extend_nil]
      rfl
  | .str s, room + 1, _ => by
      rw [flattenValue, leaves, List.mapM_cons, pairOf, extend_nil]
      rfl
termination_by structural v => v

/-- The pairs of the fields behind a key. -/
lemma flattenFields_eq (key : PyStr) (hkey : key ≠ []) : ∀ (fields : Params) (room : ℕ),
    callDepthOfFields fields ≤ room →
    flattenFields key room fields = (leavesOfFields fields).mapM (pairOf (extend key))
  | [], _, _ => rfl
  | f :: fs, room, h => by
      rw [callDepthOfFields] at h
      rw [flattenFields, flattenField_eq key hkey f room (le_of_max_le_left h),
        flattenFields_eq key hkey fs room (le_of_max_le_right h), leavesOfFields, List.mapM_append]
termination_by structural fields => fields

lemma flattenField_eq (key : PyStr) (hkey : key ≠ []) : ∀ (f : PyStr × PyValue) (room : ℕ),
    callDepthOfField f ≤ room → flattenField key room f = (leavesOfField f).mapM
      (pairOf (extend key))
  | (name, v), room, h => by
      rw [flattenField, if_pos hkey, flattenValue_eq _ (bracket_ne_nil key name) v room h,
        leavesOfField, List.mapM_map]
      exact congrArg (fun g => (leaves v).mapM g) (funext (pairOf_bracket key name))
termination_by structural f => f

lemma flattenItems_eq (key : PyStr) : ∀ (items : List PyValue) (room index : ℕ),
    callDepthOfItems items ≤ room →
    flattenItems key room index items = (leavesOfItems index items).mapM (pairOf (extend key))
  | [], _, _, _ => rfl
  | v :: vs, room, index, h => by
      rw [callDepthOfItems] at h
      rw [flattenItems, flattenValue_eq _ (bracket_ne_nil key _) v room (le_of_max_le_left h),
        flattenItems_eq key vs room (index + 1) (le_of_max_le_right h), leavesOfItems,
          List.mapM_append,
        List.mapM_map]
      refine congrArg (fun x => x >>= _) (congrArg (fun g => (leaves v).mapM g) ?_)
      exact funext (pairOf_bracket key (indexText index))
termination_by structural items => items

end

mutual

/-- A value that the stack has no room for gives no pairs. -/
lemma flattenValue_deep (key : PyStr) : ∀ (v : PyValue) (room : ℕ), room < callDepth v →
    ∀ pairs, flattenValue key v room ≠ .ok pairs
  | .dict fields, 0, _, _ => nofun
  | .dict fields, 1, _, _ => nofun
  | .dict fields, room + 2, h, pairs => by
      rw [callDepth] at h
      rw [flattenValue]
      exact flattenFields_deep key fields room (by omega) pairs
  | .list items, 0, _, _ => nofun
  | .list items, room + 1, h, pairs => by
      rw [callDepth] at h
      rw [flattenValue]
      exact flattenItems_deep key items room 0 (by omega) pairs
  | .bool _, 0, _, _ => nofun
  | .none, 0, _, _ => nofun
  | .int _, 0, _, _ => nofun
  | .float _, 0, _, _ => nofun
  | .str _, 0, _, _ => nofun
termination_by structural v => v

lemma flattenFields_deep (pfx : PyStr) :
    ∀ (fields : Params) (room : ℕ), room < callDepthOfFields fields →
    ∀ pairs, flattenFields pfx room fields ≠ .ok pairs
  | [], _, h, _ => absurd h (Nat.not_lt_zero _)
  | f :: fs, room, h, pairs => by
      rw [callDepthOfFields, lt_max_iff] at h
      intro hok
      rw [flattenFields] at hok
      obtain ⟨ps, hps, hok⟩ := except_bind_eq_ok.mp hok
      obtain ⟨qs, hqs, -⟩ := except_bind_eq_ok.mp hok
      rcases h with h | h
      · exact flattenField_deep pfx f room h ps hps
      · exact flattenFields_deep pfx fs room h qs hqs
termination_by structural fields => fields

lemma flattenField_deep (pfx : PyStr) :
    ∀ (f : PyStr × PyValue) (room : ℕ), room < callDepthOfField f →
    ∀ pairs, flattenField pfx room f ≠ .ok pairs
  | (name, v), room, h, pairs => by
      rw [flattenField]
      exact flattenValue_deep _ v room h pairs
termination_by structural f => f

lemma flattenItems_deep (key : PyStr) : ∀ (items : List PyValue) (room index : ℕ),
    room < callDepthOfItems items → ∀ pairs, flattenItems key room index items ≠ .ok pairs
  | [], _, _, h, _ => absurd h (Nat.not_lt_zero _)
  | v :: vs, room, index, h, pairs => by
      rw [callDepthOfItems, lt_max_iff] at h
      intro hok
      rw [flattenItems] at hok
      obtain ⟨ps, hps, hok⟩ := except_bind_eq_ok.mp hok
      obtain ⟨qs, hqs, -⟩ := except_bind_eq_ok.mp hok
      rcases h with h | h
      · exact flattenValue_deep _ v room h ps hps
      · exact flattenItems_deep key vs room (index + 1) h qs hqs
termination_by structural items => items

end

/-- The pairs of the parameters at the top, where a name is a key as it stands. -/
lemma flattenFields_top {params : Params} (h : ∀ f ∈ params, f.1 ≠ []) {room : ℕ}
    (hroom : callDepthOfFields params ≤ room) :
    flattenFields [] room params = (leavesOfFields params).mapM (pairOf render) := by
  induction params with
  | nil => rfl
  | cons f fs ih =>
      obtain ⟨name, v⟩ := f
      obtain ⟨hname, hnames⟩ := List.forall_mem_cons.mp h
      rw [callDepthOfFields] at hroom
      have htop : (fun l : List PyStr × PyValue => pairOf render (name :: l.1, l.2)) =
          pairOf (extend name) := rfl
      have hfield : flattenField [] room (name, v) = (leavesOfField (name, v)).mapM
          (pairOf render) := by
        rw [flattenField, if_neg (not_not.mpr rfl),
          flattenValue_eq name hname v room (le_of_max_le_left hroom), leavesOfField, List.mapM_map]
        exact congrArg (fun g => (leaves v).mapM g) htop.symm
      rw [flattenFields, hfield, ih hnames (le_of_max_le_right hroom), leavesOfFields,
        List.mapM_append]

/-- **The pairs of the parameters are their leaves**, if the stack has room for the call. -/
lemma flattenParams_top {params : Params} (h : ∀ f ∈ params, f.1 ≠ []) {room : ℕ}
    (hroom : callDepthOfFields params < room) :
    flattenParams [] params room = (leavesOfFields params).mapM (pairOf render) := by
  obtain ⟨room, rfl⟩ := Nat.exists_eq_add_of_lt hroom
  exact flattenFields_top h (Nat.le_add_right _ _)

lemma flattenParams_deep {params : Params} {room : ℕ} (hroom : room ≤ callDepthOfFields params)
    (pairs : List (PyStr × PyStr)) : flattenParams [] params room ≠ .ok pairs := by
  cases room with
  | zero => nofun
  | succ room => exact flattenFields_deep [] params room hroom pairs

/-! ## Keys and paths -/

section

variable {name : PyStr} {path : List PyStr} {v : PyValue} {l : List PyStr × PyValue}

lemma indexText_injective : Function.Injective indexText := by
  intro i j h
  have hchars : Function.Injective Char.toNat := fun _ _ hc => Char.toNat_inj.mp hc
  exact natDecimal_injective (List.map_injective_iff.mpr hchars h)

lemma indexText_bracketable (i : ℕ) : Bracketable (indexText i) := by
  have hdigit : ∀ n ∈ indexText i, 0x30 ≤ n ∧ n < 0x3a := by
    intro n hn
    obtain ⟨c, hc, rfl⟩ := List.mem_map.mp hn
    exact natDecimal_isDecimal i hc
  refine ⟨fun hnil => natDecimal_ne_nil i (List.map_eq_nil_iff.mp hnil), fun h => ?_, fun h => ?_⟩
  · have := hdigit _ h
    omega
  · have := hdigit _ h
    omega

/-- A key as its names with brackets between them. -/
lemma extend_eq_intercalate (name : PyStr) (path : List PyStr) :
    extend name path = [0x5b].intercalate (name :: path.map (· ++ [0x5d])) := by
  induction path generalizing name with
  | nil => simp [extend]
  | cons p path ih =>
      rw [List.map_cons, List.intercalate_cons_cons, ← ih (p ++ [0x5d]), extend, extend,
        List.flatMap_cons]
      simp

/-- **A key is read as the path it was written for.** -/
lemma pathOf_render (hne : path ≠ []) (h : ∀ name ∈ path, Bracketable name) :
    pathOf (render path) = path := by
  cases path with
  | nil => exact absurd rfl hne
  | cons name path =>
      obtain ⟨hname, hpath⟩ := List.forall_mem_cons.mp h
      have hsplit : (extend name path).splitOn 0x5b = name :: path.map (· ++ [0x5d]) := by
        rw [extend_eq_intercalate]
        refine List.splitOn_intercalate _ (fun s hs => ?_) (List.cons_ne_nil _ _)
        rcases List.mem_cons.mp hs with rfl | hs
        · exact hname.2.1
        · obtain ⟨p, hp, rfl⟩ := List.mem_map.mp hs
          have hno := (hpath p hp).2.1
          simp [hno]
      have hdrop : (path.map (· ++ [0x5d])).map List.dropLast = path := by
        rw [List.map_map]
        exact (List.map_congr_left fun p _ => List.dropLast_concat).trans (List.map_id path)
      rw [render, pathOf, hsplit]
      exact congrArg (name :: ·) hdrop

/-! ## Paths of a tree -/

lemma leavesOfField_path (hl : l ∈ leavesOfField (name, v)) :
    ∃ l' ∈ leaves v, l = (name :: l'.1, l'.2) := by
  obtain ⟨l', hl', rfl⟩ := List.mem_map.mp hl
  exact ⟨l', hl', rfl⟩

/-- A path in a dictionary starts with one of its names. -/
lemma exists_of_mem_leavesOfFields {fields : Params} (hl : l ∈ leavesOfFields fields) :
    ∃ f ∈ fields, ∃ l' ∈ leaves f.2, l = (f.1 :: l'.1, l'.2) := by
  induction fields with
  | nil => cases hl
  | cons f fs ih =>
      rcases List.mem_append.mp hl with hl | hl
      · obtain ⟨l', hl', rfl⟩ := leavesOfField_path hl
        exact ⟨f, List.mem_cons_self, l', hl', rfl⟩
      · obtain ⟨g, hg, hmore⟩ := ih hl
        exact ⟨g, List.mem_cons_of_mem _ hg, hmore⟩

/-- A path in a list starts with an index from the first one on. -/
lemma exists_of_mem_leavesOfItems {items : List PyValue} {index : ℕ}
    (hl : l ∈ leavesOfItems index items) :
    ∃ i, index ≤ i ∧ ∃ v ∈ items, ∃ l' ∈ leaves v, l = (indexText i :: l'.1, l'.2) := by
  induction items generalizing index with
  | nil => cases hl
  | cons v vs ih =>
      rcases List.mem_append.mp hl with hl | hl
      · obtain ⟨l', hl', rfl⟩ := List.mem_map.mp hl
        exact ⟨index, le_rfl, v, List.mem_cons_self, l', hl', rfl⟩
      · obtain ⟨i, hi, w, hw, hmore⟩ := ih hl
        exact ⟨i, by omega, w, List.mem_cons_of_mem _ hw, hmore⟩

/-- The names on the paths of a tree can stand in brackets. -/
lemma Named.bracketable (h : Named v) : ∀ l ∈ leaves v, ∀ name ∈ l.1, Bracketable name := by
  induction h with
  | list hitems ih =>
      intro l hl name hname
      obtain ⟨i, -, v, hv, l', hl', rfl⟩ := exists_of_mem_leavesOfItems hl
      rcases List.mem_cons.mp hname with rfl | hname
      · exact indexText_bracketable i
      · exact ih v hv l' hl' name hname
  | dict hkeys hnames hfields ih =>
      intro l hl name hname
      obtain ⟨f, hf, l', hl', rfl⟩ := exists_of_mem_leavesOfFields hl
      rcases List.mem_cons.mp hname with rfl | hname
      · exact hnames f hf
      · exact ih f hf l' hl' name hname
  | none => simp [leaves]
  | bool b => simp [leaves]
  | int n => simp [leaves]
  | float bits => simp [leaves]
  | str s => simp [leaves]

lemma map_cons_nodup {ls : List (List PyStr × PyValue)} (name : PyStr)
    (h : (ls.map Prod.fst).Nodup) :
    ((ls.map fun l => (name :: l.1, l.2)).map Prod.fst).Nodup := by
  have hmap : (ls.map fun l => (name :: l.1, l.2)).map Prod.fst =
      (ls.map Prod.fst).map (name :: ·) := by
    rw [List.map_map, List.map_map]
    rfl
  rw [hmap]
  exact h.map fun p q hpq => (List.cons.inj hpq).2

lemma nodup_leavesOfFields {fields : Params} (hkeys : (fields.map Prod.fst).Nodup)
    (h : ∀ f ∈ fields, ((leaves f.2).map Prod.fst).Nodup) :
    ((leavesOfFields fields).map Prod.fst).Nodup := by
  induction fields with
  | nil => exact List.nodup_nil
  | cons f fs ih =>
      obtain ⟨name, v⟩ := f
      obtain ⟨hf, hfs⟩ := List.forall_mem_cons.mp h
      obtain ⟨hnew, hkeys⟩ := List.nodup_cons.mp hkeys
      rw [leavesOfFields, List.map_append]
      refine List.Nodup.append (map_cons_nodup name hf) (ih hkeys hfs) ?_
      intro p hp hp'
      obtain ⟨l, hl, rfl⟩ := List.mem_map.mp hp
      obtain ⟨l', -, rfl⟩ := List.mem_map.mp hl
      obtain ⟨l'', hl'', heq⟩ := List.mem_map.mp hp'
      obtain ⟨g, hg, _, _, rfl⟩ := exists_of_mem_leavesOfFields hl''
      exact hnew (List.mem_map.mpr ⟨g, hg, (List.cons.inj heq).1⟩)

lemma nodup_leavesOfItems {items : List PyValue} (h : ∀ v ∈ items, ((leaves v).map Prod.fst).Nodup)
    (index : ℕ) :
    ((leavesOfItems index items).map Prod.fst).Nodup := by
  induction items generalizing index with
  | nil => exact List.nodup_nil
  | cons v vs ih =>
      obtain ⟨hv, hvs⟩ := List.forall_mem_cons.mp h
      rw [leavesOfItems, List.map_append]
      refine List.Nodup.append (map_cons_nodup _ hv) (ih hvs (index + 1)) ?_
      intro p hp hp'
      obtain ⟨l, hl, rfl⟩ := List.mem_map.mp hp
      obtain ⟨l', -, rfl⟩ := List.mem_map.mp hl
      obtain ⟨l'', hl'', heq⟩ := List.mem_map.mp hp'
      obtain ⟨i, hi, _, _, _, _, rfl⟩ := exists_of_mem_leavesOfItems hl''
      have hindex : i = index := indexText_injective (List.cons.inj heq).1
      omega

/-- **No two leaves have one path.** -/
lemma Named.nodup_leaves (h : Named v) : ((leaves v).map Prod.fst).Nodup := by
  induction h with
  | list hitems ih => exact nodup_leavesOfItems ih 0
  | dict hkeys hnames hfields ih => exact nodup_leavesOfFields hkeys ih
  | none => exact List.nodup_singleton _
  | bool b => exact List.nodup_singleton _
  | int n => exact List.nodup_singleton _
  | float bits => exact List.nodup_singleton _
  | str s => exact List.nodup_singleton _

end

/-! ## Reading the pairs back -/

/-- The leaves written one after the other. -/
def build (ls : List (List PyStr × PyValue)) (fields : List (PyStr × Form)) : List (PyStr × Form) :=
  ls.foldl (fun fields l => insert l.1 (formText l.2) fields) fields

section

variable {name : PyStr} {path : List PyStr} {v : PyValue} {ls : List (List PyStr × PyValue)}
  {acc sub : List (PyStr × Form)} {s : PyStr}

lemma build_append (ls ls' : List (List PyStr × PyValue)) (fields : List (PyStr × Form)) :
    build (ls ++ ls') fields = build ls' (build ls fields) := List.foldl_append

lemma lookup_eq_none (h : name ∉ acc.map Prod.fst) : acc.lookup name = none := by
  refine List.lookup_eq_none_iff.mpr fun f hf => ?_
  exact bne_iff_ne.mpr fun heq => h (List.mem_map.mpr ⟨f, hf, heq.symm⟩)

/-- The first text under a new name starts a map behind the others. -/
lemma insert_cons_new (hpath : path ≠ []) (h : name ∉ acc.map Prod.fst) :
    insert (name :: path) s acc = acc ++ [(name, .map (insert path s []))] := by
  cases path with
  | nil => exact absurd rfl hpath
  | cons p path =>
      rw [insert, lookup_eq_none h, setItem_of_not_mem h]
      exact hpath

/-- Another text under the last name goes into its map. -/
lemma insert_cons_last (hpath : path ≠ []) (h : name ∉ acc.map Prod.fst) :
    insert (name :: path) s (acc ++ [(name, .map sub)]) =
      acc ++ [(name, .map (insert path s sub))] := by
  cases path with
  | nil => exact absurd rfl hpath
  | cons p path =>
      have hlookup : (acc ++ [(name, Form.map sub)]).lookup name = some (.map sub) := by
        rw [List.lookup_append, lookup_eq_none h, Option.none_or, List.lookup_cons,
          beq_self_eq_true]
      rw [insert, hlookup]
      · exact setItem_append_singleton h
      · exact hpath

lemma build_cons_last (hls : ∀ l ∈ ls, l.1 ≠ []) (h : name ∉ acc.map Prod.fst) :
    build (ls.map fun l => (name :: l.1, l.2)) (acc ++ [(name, .map sub)]) =
      acc ++ [(name, .map (build ls sub))] := by
  induction ls generalizing sub with
  | nil => rfl
  | cons l ls ih =>
      obtain ⟨hl, hls⟩ := List.forall_mem_cons.mp hls
      rw [List.map_cons, build, List.foldl_cons, insert_cons_last hl h]
      exact ih hls

/-- **What is written under one new name is a map of its own.** -/
lemma build_cons (hls : ∀ l ∈ ls, l.1 ≠ []) (hne : ls ≠ []) (h : name ∉ acc.map Prod.fst) :
    build (ls.map fun l => (name :: l.1, l.2)) acc = acc ++ [(name, .map (build ls []))] := by
  cases ls with
  | nil => exact absurd rfl hne
  | cons l ls =>
      obtain ⟨hl, hls⟩ := List.forall_mem_cons.mp hls
      rw [List.map_cons, build, List.foldl_cons, insert_cons_new hl h]
      exact build_cons_last hls h

lemma setItem_ne_nil {κ ν : Type} [DecidableEq κ] {fields : List (κ × ν)} {key : κ} {v : ν} :
    setItem fields key v ≠ [] := by
  have hmem : key ∈ (setItem fields key v).map Prod.fst := keys_setItem.mpr (.inl rfl)
  intro hnil
  rw [hnil] at hmem
  cases hmem

lemma insert_ne_nil {fields : List (PyStr × Form)} (hpath : path ≠ []) :
    insert path s fields ≠ [] := by
  cases path with
  | nil => exact absurd rfl hpath
  | cons name path =>
      cases path with
      | nil => exact setItem_ne_nil
      | cons p path =>
          rw [insert]
          · split <;> exact setItem_ne_nil
          · nofun

lemma build_ne_nil (hls : ∀ l ∈ ls, l.1 ≠ []) (hne : ls ≠ []) {fields : List (PyStr × Form)} :
    build ls fields ≠ [] := by
  obtain ⟨ls', l, rfl⟩ := (List.eq_nil_or_concat ls).resolve_left hne
  rw [List.concat_eq_append] at hls ⊢
  rw [build_append]
  exact insert_ne_nil (hls l (by simp))

lemma build_container (hls : ∀ l ∈ ls, l.1 ≠ []) (h : name ∉ acc.map Prod.fst) :
    build (ls.map fun l => (name :: l.1, l.2)) acc =
      acc ++ (mapOf (build ls [])).toList.map fun w => (name, w) := by
  by_cases hne : ls = []
  · subst hne
    exact (List.append_nil acc).symm
  · have hbuilt : (build ls []).isEmpty = false :=
      List.isEmpty_eq_false_iff.mpr (build_ne_nil hls hne)
    rw [build_cons hls hne h, mapOf, hbuilt]
    rfl

lemma keys_pruned (name : PyStr) (w : Option Form) :
    ∀ key ∈ (w.toList.map fun w => (name, w)).map Prod.fst, key = name := by
  intro key hkey
  cases w with
  | none => cases hkey
  | some w => exact List.mem_singleton.mp hkey

/-- The leaves of a dictionary, if those of its values are read back. -/
lemma build_leavesOfFields {fields : Params} (hkeys : (fields.map Prod.fst).Nodup)
    (hvalues : ∀ f ∈ fields, ∀ name acc, name ∉ acc.map Prod.fst →
      build ((leaves f.2).map fun l => (name :: l.1, l.2)) acc =
        acc ++ (pruned f.2).toList.map fun w => (name, w))
    (hacc : ∀ f ∈ fields, f.1 ∉ acc.map Prod.fst) :
    build (leavesOfFields fields) acc = acc ++ prunedFields fields := by
  induction fields generalizing acc with
  | nil => exact (List.append_nil acc).symm
  | cons f fs ih =>
      obtain ⟨name, v⟩ := f
      obtain ⟨hv, hvs⟩ := List.forall_mem_cons.mp hvalues
      obtain ⟨hnew, hkeys⟩ := List.nodup_cons.mp hkeys
      obtain ⟨hname, hnames⟩ := List.forall_mem_cons.mp hacc
      have hrest : ∀ f ∈ fs, f.1 ∉ (acc ++ (pruned v).toList.map fun w =>
          (name, w)).map Prod.fst := by
        intro f hf hmem
        rw [List.map_append] at hmem
        rcases List.mem_append.mp hmem with hmem | hmem
        · exact hnames f hf hmem
        · exact hnew (List.mem_map.mpr ⟨f, hf, keys_pruned name _ _ hmem⟩)
      rw [leavesOfFields, leavesOfField, build_append, hv name acc hname, ih hkeys hvs hrest,
        prunedFields, prunedField, List.append_assoc]

lemma build_leavesOfItems {items : List PyValue} {index : ℕ}
    (hvalues : ∀ v ∈ items, ∀ name acc, name ∉ acc.map Prod.fst →
      build ((leaves v).map fun l => (name :: l.1, l.2)) acc = acc ++ (pruned v).toList.map fun w =>
        (name, w))
    (hacc : ∀ i, index ≤ i → indexText i ∉ acc.map Prod.fst) :
    build (leavesOfItems index items) acc = acc ++ prunedItems index items := by
  induction items generalizing acc index with
  | nil => exact (List.append_nil acc).symm
  | cons v vs ih =>
      obtain ⟨hv, hvs⟩ := List.forall_mem_cons.mp hvalues
      have hrest : ∀ i, index + 1 ≤ i →
          indexText i ∉ (acc ++ (pruned v).toList.map fun w => (indexText index, w)).map
            Prod.fst := by
        intro i hi hmem
        rw [List.map_append] at hmem
        rcases List.mem_append.mp hmem with hmem | hmem
        · exact hacc i (by omega) hmem
        · have hindex := indexText_injective (keys_pruned _ _ _ hmem)
          omega
      rw [leavesOfItems, build_append, hv _ acc (hacc index le_rfl), ih hvs hrest, prunedItems,
        List.append_assoc]

/-- **The leaves of a value under a new name are read back as what the value holds.** -/
lemma build_leaves (h : Named v) (name : PyStr) (acc : List (PyStr × Form))
    (hname : name ∉ acc.map Prod.fst) :
    build ((leaves v).map fun l => (name :: l.1, l.2)) acc = acc ++ (pruned v).toList.map fun w =>
      (name, w) := by
  induction h generalizing name acc with
  | @list items hitems ih =>
      have hls : ∀ l ∈ leavesOfItems 0 items, l.1 ≠ [] := by
        intro l hl
        obtain ⟨i, _, _, _, l', _, rfl⟩ := exists_of_mem_leavesOfItems hl
        exact List.cons_ne_nil _ _
      have hbuild := @build_leavesOfItems [] items 0 (fun v hv => ih v hv) fun _ _ =>
        List.not_mem_nil
      rw [leaves, build_container hls hname, hbuild, List.nil_append, pruned]
  | @dict fields hkeys hnames hfields ih =>
      have hls : ∀ l ∈ leavesOfFields fields, l.1 ≠ [] := by
        intro l hl
        obtain ⟨f, _, l', _, rfl⟩ := exists_of_mem_leavesOfFields hl
        exact List.cons_ne_nil _ _
      have hbuild := @build_leavesOfFields [] fields hkeys (fun f hf => ih f hf) fun _ _ =>
        List.not_mem_nil
      rw [leaves, build_container hls hname, hbuild, List.nil_append, pruned]
  | none => exact setItem_of_not_mem hname
  | bool b => exact setItem_of_not_mem hname
  | int n => exact setItem_of_not_mem hname
  | float bits => exact setItem_of_not_mem hname
  | str s => exact setItem_of_not_mem hname

/-- **The leaves of the parameters are read back.** -/
lemma build_params {params : Params} (h : Named (.dict params)) :
    build (leavesOfFields params) [] = prunedFields params := by
  cases h with
  | dict hkeys hnames hfields =>
      exact @build_leavesOfFields [] params hkeys (fun f hf => build_leaves (hfields f hf)) fun _
        _ => List.not_mem_nil

end

/-! ## The round trip -/

section

variable {params : Params} {write : List PyStr → PyStr} {l : List PyStr × PyValue}

lemma pairOf_of_short (h : Short l.2) : pairOf write l = .ok (write l.1, formText l.2) := by
  obtain ⟨path, v⟩ := l
  cases v with
  | int n =>
      have hn : intText n = .ok (asciiStr (decimal n)) := if_pos h
      show (do return (write path, ← intText n)) = _
      rw [hn]
      rfl
  | _ => rfl

lemma pairOf_of_not_short (h : ¬Short l.2) : pairOf write l = .error tooManyDigits := by
  obtain ⟨path, v⟩ := l
  cases v with
  | int n =>
      have hn : intText n = .error tooManyDigits := if_neg h
      show (do return (write path, ← intText n)) = _
      rw [hn]
      rfl
  | _ => exact absurd trivial h

lemma mapM_pairOf {ls : List (List PyStr × PyValue)} (h : ∀ l ∈ ls, Short l.2) :
    ls.mapM (pairOf write) = .ok (ls.map fun l => (write l.1, formText l.2)) := by
  induction ls with
  | nil => rfl
  | cons l ls ih =>
      obtain ⟨hl, hls⟩ := List.forall_mem_cons.mp h
      rw [List.mapM_cons, pairOf_of_short hl, ih hls]
      rfl

lemma mapM_pairOf_error {ls : List (List PyStr × PyValue)} (h : ∃ l ∈ ls, ¬Short l.2) :
    ls.mapM (pairOf write) = .error tooManyDigits := by
  induction ls with
  | nil =>
      obtain ⟨l, hl, -⟩ := h
      cases hl
  | cons l ls ih =>
      rw [List.mapM_cons]
      by_cases hl : Short l.2
      · have hmore : ∃ l ∈ ls, ¬Short l.2 := by
          obtain ⟨l', hl', hlong⟩ := h
          rcases List.mem_cons.mp hl' with rfl | hl'
          · exact absurd hl hlong
          · exact ⟨l', hl', hlong⟩
        rw [pairOf_of_short hl, ih hmore]
        rfl
      · rw [pairOf_of_not_short hl]
        rfl

end

/-- **Bracket flattening is decodable.**  For parameters whose names are distinct, not empty and
free of brackets: the call gives pairs exactly when `str` writes every integer and the stack has
room for the nesting, and then there is one pair for each scalar, in document order, no key twice,
and the pairs are read back as the tree without the containers that hold nothing. -/
theorem flatten_params_decodable {params : Params} (h : Named (.dict params)) (room : ℕ) :
    ((∃ pairs, flattenParams [] params room = .ok pairs) ↔
      (∀ l ∈ leavesOfFields params, Short l.2) ∧ callDepthOfFields params < room) ∧
      ∀ pairs, flattenParams [] params room = .ok pairs →
        pairs = (leavesOfFields params).map (fun l => (render l.1, formText l.2)) ∧
          (pairs.map Prod.fst).Nodup ∧ decode pairs = prunedFields params := by
  have hnames : ∀ f ∈ params, f.1 ≠ [] := by
    cases h with
    | dict _ hnames _ => exact fun f hf => (hnames f hf).1
  have hpath : ∀ l ∈ leavesOfFields params, pathOf (render l.1) = l.1 := by
    intro l hl
    obtain ⟨f, _, l', _, rfl⟩ := exists_of_mem_leavesOfFields hl
    exact pathOf_render (List.cons_ne_nil _ _) (h.bracketable _ hl)
  have hroom : ∀ pairs, flattenParams [] params room = .ok pairs →
      callDepthOfFields params < room := by
    intro pairs hpairs
    by_contra hdeep
    exact flattenParams_deep (not_lt.mp hdeep) pairs hpairs
  have hshort : ∀ pairs, flattenParams [] params room = .ok pairs → ∀ l ∈ leavesOfFields params,
      Short l.2 := by
    intro pairs hpairs
    by_contra hlong
    push Not at hlong
    rw [flattenParams_top hnames (hroom pairs hpairs), mapM_pairOf_error hlong] at hpairs
    cases hpairs
  refine ⟨⟨fun ⟨pairs, hpairs⟩ => ⟨hshort pairs hpairs, hroom pairs hpairs⟩,
    fun ⟨hall, hfits⟩ => ⟨_, (flattenParams_top hnames hfits).trans (mapM_pairOf hall)⟩⟩, ?_⟩
  · intro pairs hpairs
    have hall := hshort pairs hpairs
    rw [flattenParams_top hnames (hroom pairs hpairs), mapM_pairOf hall] at hpairs
    obtain rfl := Except.ok.inj hpairs
    refine ⟨rfl, ?_, ?_⟩
    · -- the path of a leaf is read off its key
      have hkeys : ((leavesOfFields params).map fun l => (render l.1, formText l.2)).map Prod.fst =
          ((leavesOfFields params).map Prod.fst).map render := by
        rw [List.map_map, List.map_map]
        rfl
      rw [hkeys]
      refine List.Nodup.map_on (fun p hp q hq heq => ?_) h.nodup_leaves
      obtain ⟨l, hl, rfl⟩ := List.mem_map.mp hp
      obtain ⟨l', hl', rfl⟩ := List.mem_map.mp hq
      rw [← hpath l hl, heq, hpath l' hl']
    · rw [decode, List.foldl_map, ← build_params h, build]
      exact List.foldl_ext _ _ _ fun fields l hl => by rw [hpath l hl]

/-- Parameters of a checkout session. -/
def sampleParams : Params :=
  [(pyStr "line_items",
    .list [.dict [(pyStr "price", .str (pyStr "price_1")), (pyStr "adjustable", .bool true)]]),
      (pyStr "metadata", .dict []), (pyStr "customer", .none)]

lemma sampleParams_named : Named (.dict sampleParams) := by
  have hitem : Named (.dict [(pyStr "price", .str (pyStr "price_1")),
      (pyStr "adjustable", .bool true)]) := by
    refine .dict (by decide) (fun f hf => ?_) fun f hf => ?_
    · simp only [List.mem_cons, List.not_mem_nil, or_false] at hf
      rcases hf with rfl | rfl <;> exact ⟨by decide, by decide, by decide⟩
    · simp only [List.mem_cons, List.not_mem_nil, or_false] at hf
      rcases hf with rfl | rfl
      · exact .str _
      · exact .bool _
  refine .dict (by decide) (fun f hf => ?_) fun f hf => ?_
  · simp only [sampleParams, List.mem_cons, List.not_mem_nil, or_false] at hf
    rcases hf with rfl | rfl | rfl <;> exact ⟨by decide, by decide, by decide⟩
  · simp only [sampleParams, List.mem_cons, List.not_mem_nil, or_false] at hf
    rcases hf with rfl | rfl | rfl
    · refine .list fun v hv => ?_
      rw [List.mem_singleton.mp hv]
      exact hitem
    · exact .dict List.nodup_nil nofun nofun
    · exact .none

/-- The parameters of a checkout session are flattened, and read back without the empty metadata. -/
theorem flatten_params_decodable_sample :
    ∃ pairs, flattenParams [] sampleParams 900 = .ok pairs ∧
      decode pairs = prunedFields sampleParams := by
  have hshort : ∀ l ∈ leavesOfFields sampleParams, Short l.2 := by
    intro l hl
    simp only [sampleParams, leavesOfFields, leavesOfField, leaves, leavesOfItems, List.map_cons,
      List.map_nil, List.append_nil, List.cons_append, List.nil_append, List.mem_cons,
      List.not_mem_nil, or_false] at hl
    rcases hl with rfl | rfl | rfl <;> exact trivial
  obtain ⟨pairs, hpairs⟩ :=
    (flatten_params_decodable sampleParams_named 900).1.mpr ⟨hshort, by decide⟩
  exact ⟨pairs, hpairs, ((flatten_params_decodable sampleParams_named 900).2 pairs hpairs).2.2⟩

lemma lt_length_natDecimal {n k : ℕ} (h : 10 ^ k ≤ n) : k < (natDecimal n).length := by
  have hvalue : decimalValueOf (natDecimal n) < 10 ^ (natDecimal n).length :=
    decimalValueOf_lt fun c hc => natDecimal_isDecimal n hc
  rw [decimalValueOf_natDecimal] at hvalue
  exact (Nat.pow_lt_pow_iff_right (by norm_num)).mp (h.trans_lt hvalue)

lemma not_short_pow {k : ℕ} (hk : maxStrDigits ≤ k) : ¬Short (.int (10 ^ k)) := by
  intro hshort
  have habs : (10 ^ k : ℤ).natAbs = 10 ^ k := Int.natAbs_pow 10 k
  have hlength : (natDecimal (10 ^ k : ℤ).natAbs).length ≤ maxStrDigits := hshort
  have hdigits := @lt_length_natDecimal (10 ^ k) k le_rfl
  rw [habs] at hlength
  omega

/-- An amount of 4301 digits is not written. -/
theorem flatten_params_too_long :
    Named (.dict [(pyStr "amount", .int (10 ^ 4300))]) ∧
      leavesOfFields [(pyStr "amount", .int (10 ^ 4300))] = [([pyStr "amount"], .int (10 ^ 4300))] ∧
      flattenParams [] [(pyStr "amount", .int (10 ^ 4300))] 900 = .error tooManyDigits := by
  have hleaves : leavesOfFields [(pyStr "amount", .int (10 ^ 4300))] =
      [([pyStr "amount"], .int (10 ^ 4300))] := by
    rw [leavesOfFields, leavesOfField, leaves, leavesOfFields, List.map_singleton, List.append_nil]
  have hroom : callDepthOfFields [(pyStr "amount", .int (10 ^ 4300))] < 900 := by
    rw [callDepthOfFields, callDepthOfField, callDepth, callDepthOfFields]
    decide
  have hlong : ¬Short (.int (10 ^ 4300)) := not_short_pow le_rfl
  refine ⟨?_, hleaves, ?_⟩
  · refine .dict (List.nodup_singleton _) (fun f hf => ?_) fun f hf => ?_
    · rw [List.mem_singleton.mp hf]
      exact ⟨by decide, by decide, by decide⟩
    · rw [List.mem_singleton.mp hf]
      exact .int _
  · have hname : ∀ f ∈ ([(pyStr "amount", .int (10 ^ 4300))] : Params), f.1 ≠ [] := by
      intro f hf
      rw [List.mem_singleton.mp hf]
      decide
    rw [flattenParams_top hname hroom, hleaves]
    exact mapM_pairOf_error ⟨_, List.mem_singleton.mpr rfl, hlong⟩

end LedgerProof.Egress
