import Mathlib.Tactic

/-!
# JSON values as Python reads them

`json.loads` gives a Python program dictionaries, lists, strings, integers, booleans and
`None`, and the program finds out which one it holds when it uses it.  `Json` is that value and
the functions below are the operations with the failures they have at the wrong type:
`d.get(k)` on something that is not a dictionary is an `AttributeError`, `d[k]` a `TypeError`,
and `d[k]` on a dictionary without `k` a `KeyError`.

`None` is `Json.null`.  Numbers with a fraction or an exponent (Python floats) are not among
the values.  A dictionary is an association list read by first match; Python's have each key
once.

`intOfText` is `int(s)` on text and `upper` is `str.upper`, with the exact character classes of
the language except that `upper` leaves alone the letters whose capital is not ASCII.
-/

namespace LedgerProof

/-- A parsed JSON document without floating-point numbers. -/
inductive Json
  | null
  | bool (b : Bool)
  | int (n : ℤ)
  | str (s : String)
  | arr (items : List Json)
  | obj (fields : List (String × Json))

/-- Built-in Python exceptions. -/
inductive PyError
  | keyError (key : String)
  | typeError
  | attributeError (name : String)
  | valueError (message : String)
  | recursionError
  deriving DecidableEq, Repr

/-! ## Text -/

/-- The code points of the digit zero in every decimal digit block of Unicode 15. -/
def decimalZeros : List ℕ :=
  [0x30, 0x660, 0x6f0, 0x7c0, 0x966, 0x9e6, 0xa66, 0xae6, 0xb66, 0xbe6, 0xc66, 0xce6, 0xd66,
    0xde6, 0xe50, 0xed0, 0xf20, 0x1040, 0x1090, 0x17e0, 0x1810, 0x1946, 0x19d0, 0x1a80, 0x1a90,
    0x1b50, 0x1bb0, 0x1c40, 0x1c50, 0xa620, 0xa8d0, 0xa900, 0xa9d0, 0xa9f0, 0xaa50, 0xabf0,
    0xff10, 0x104a0, 0x10d30, 0x11066, 0x110f0, 0x11136, 0x111d0, 0x112f0, 0x11450, 0x114d0,
    0x11650, 0x116c0, 0x11730, 0x118e0, 0x11950, 0x11c50, 0x11d50, 0x11da0, 0x11f50, 0x16a60,
    0x16ac0, 0x16b50, 0x1d7ce, 0x1d7d8, 0x1d7e2, 0x1d7ec, 0x1d7f6, 0x1e140, 0x1e2f0, 0x1e4f0,
    0x1e950, 0x1fbf0]

/-- The value of a decimal digit in any script. -/
def decimalValue (c : Char) : Option ℕ :=
  (decimalZeros.find? fun z => z ≤ c.toNat ∧ c.toNat < z + 10).map (c.toNat - ·)

/-- The white space `int` strips: the C locale's among ASCII, Unicode's beyond. -/
def isIntSpace (c : Char) : Bool :=
  (9 ≤ c.toNat && c.toNat ≤ 13) || (0x2000 ≤ c.toNat && c.toNat ≤ 0x200a) ||
    c.toNat ∈ [0x20, 0x85, 0xa0, 0x1680, 0x2028, 0x2029, 0x202f, 0x205f, 0x3000]

/-- Digits with single underscores between them, most significant first.  `afterDigit` says
whether an underscore or the end may come next. -/
def digitsValue : List Char → ℕ → Bool → Option ℕ
  | [], acc, afterDigit => if afterDigit then some acc else none
  | c :: cs, acc, afterDigit =>
      if c = '_' then
        if afterDigit then digitsValue cs acc false else none
      else
        match decimalValue c with
        | some d => digitsValue cs (10 * acc + d) true
        | none => none

/-- The most digits `int` converts, `sys.int_info.default_max_str_digits`. -/
def maxStrDigits : ℕ := 4300

/-- `int(s)` in base ten, `none` where it raises `ValueError`. -/
def intOfText (s : String) : Option ℤ :=
  let body := ((s.toList.dropWhile isIntSpace).reverse.dropWhile isIntSpace).reverse
  let magnitude (cs : List Char) : Option ℤ :=
    if (cs.filter (· ≠ '_')).length ≤ maxStrDigits then
      (digitsValue cs 0 false).map Int.ofNat
    else none
  match body with
  | '-' :: cs => (magnitude cs).map (- ·)
  | '+' :: cs => magnitude cs
  | cs => magnitude cs

example : intOfText " 1_059\n" = some 1059 ∧ intOfText "5__9" = none := by decide

/-- The capital of one character: the ASCII letters, and the ten others whose capital is ASCII. -/
def upperChar (c : Char) : List Char :=
  if 'a' ≤ c ∧ c ≤ 'z' then [Char.ofNat (c.toNat - 32)]
  else
    match c.toNat with
    | 0xdf => ['S', 'S']
    | 0x131 => ['I']
    | 0x17f => ['S']
    | 0xfb00 => ['F', 'F']
    | 0xfb01 => ['F', 'I']
    | 0xfb02 => ['F', 'L']
    | 0xfb03 => ['F', 'F', 'I']
    | 0xfb04 => ['F', 'F', 'L']
    | 0xfb05 => ['S', 'T']
    | 0xfb06 => ['S', 'T']
    | _ => [c]

/-- `s.upper()`. -/
def upper (s : String) : String := String.ofList (s.toList.flatMap upperChar)

/-! ## Dictionaries, lists and numbers -/

namespace Json

/-- `isinstance(j, dict)`. -/
def isDict : Json → Bool
  | .obj _ => true
  | _ => false

/-- `j if isinstance(j, str) else None`. -/
def str? : Json → Option String
  | .str s => some s
  | _ => none

/-- `d.get(key, default)`. -/
def getD (j : Json) (key : String) (default : Json) : Except PyError Json :=
  match j with
  | .obj fields => .ok ((fields.lookup key).getD default)
  | _ => .error (.attributeError "get")

/-- `d.get(key)`. -/
def get (j : Json) (key : String) : Except PyError Json := j.getD key .null

/-- `d[key]`. -/
def index (j : Json) (key : String) : Except PyError Json :=
  match j with
  | .obj fields =>
      match fields.lookup key with
      | some v => .ok v
      | none => .error (.keyError key)
  | _ => .error .typeError

/-- `key in d`, for a dictionary. -/
def hasKey (j : Json) (key : String) : Bool :=
  match j with
  | .obj fields => (fields.lookup key).isSome
  | _ => false

/-- `bool(j)`. -/
def truthy : Json → Bool
  | .null => false
  | .bool b => b
  | .int n => n ≠ 0
  | .str s => s ≠ ""
  | .arr items => !items.isEmpty
  | .obj fields => !fields.isEmpty

/-- The values a `for` loop over `j` sees: list items, dictionary keys, characters. -/
def iter : Json → Except PyError (List Json)
  | .arr items => .ok items
  | .obj fields => .ok (fields.map fun f => .str f.1)
  | .str s => .ok (s.toList.map fun c => .str (String.ofList [c]))
  | _ => .error .typeError

/-- `int(j)`. -/
def toInt : Json → Except PyError ℤ
  | .int n => .ok n
  | .bool b => .ok (if b then 1 else 0)
  | .str s =>
      match intOfText s with
      | some n => .ok n
      | none => .error (.valueError "invalid literal for int() with base 10")
  | _ => .error .typeError

@[simp] lemma getD_obj (fields : List (String × Json)) (key : String) (d : Json) :
    (Json.obj fields).getD key d = .ok ((fields.lookup key).getD d) := rfl

@[simp] lemma get_obj (fields : List (String × Json)) (key : String) :
    (Json.obj fields).get key = .ok ((fields.lookup key).getD .null) := rfl

@[simp] lemma toInt_int (n : ℤ) : (Json.int n).toInt = .ok n := rfl

end Json

/-! ## Sequencing -/

section Except

variable {ε α β : Type}

@[simp] lemma except_ok_bind (a : α) (f : α → Except ε β) : (Except.ok a >>= f) = f a := rfl

@[simp] lemma except_error_bind (e : ε) (f : α → Except ε β) :
    ((Except.error e : Except ε α) >>= f) = .error e := rfl

lemma except_map_bind {γ : Type} (x : Except ε α) (f : α → Except ε β) (g : β → γ) :
    (x >>= f).map g = x >>= fun a => (f a).map g := by
  cases x <;> rfl

lemma except_map_pure (a : α) (g : α → β) : Except.map g (pure a : Except ε α) = .ok (g a) := rfl

/-- A sequence that succeeds is two steps that succeed. -/
lemma except_bind_eq_ok {x : Except ε α} {f : α → Except ε β} {b : β} :
    (x >>= f) = .ok b ↔ ∃ a, x = .ok a ∧ f a = .ok b := by
  cases x <;> simp

lemma except_bind_eq_error {x : Except ε α} {f : α → Except ε β} {e : ε} :
    (x >>= f) = .error e ↔ x = .error e ∨ ∃ a, x = .ok a ∧ f a = .error e := by
  cases x <;> simp

/-- A check that raises, with what comes after it. -/
lemma except_guard_eq_ok {c : Prop} [Decidable c] {e : ε} {f : α → Except ε β} {x : Except ε β}
    {b : β} :
    (if c then throw e >>= f else x) = .ok b ↔ ¬c ∧ x = .ok b := by
  split_ifs with h
  · exact iff_of_false (fun heq => by cases heq) fun hand => hand.1 h
  · exact (and_iff_right h).symm

lemma except_map_eq_error {x : Except ε α} {f : α → β} {e : ε} :
    x.map f = .error e ↔ x = .error e := by
  cases x <;> simp [Except.map]

/-- A failing traversal failed at one of the items. -/
lemma except_mapM_error {f : α → Except ε β} {l : List α} {e : ε} (h : l.mapM f = .error e) :
    ∃ x ∈ l, f x = .error e := by
  induction l with
  | nil => simp [pure, Except.pure] at h
  | cons x l ih =>
      rw [List.mapM_cons] at h
      rcases except_bind_eq_error.mp h with hx | ⟨b, -, h⟩
      · exact ⟨x, by simp, hx⟩
      · rcases except_bind_eq_error.mp h with hl | ⟨bs, -, h⟩
        · obtain ⟨y, hy, hfy⟩ := ih hl
          exact ⟨y, by simp [hy], hfy⟩
        · simp [pure, Except.pure] at h

lemma except_mapM_ok {f : α → Except ε β} {l : List α} {bs : List β} (h : l.mapM f = .ok bs) :
    ∀ x ∈ l, ∃ b, f x = .ok b := by
  induction l generalizing bs with
  | nil => simp
  | cons x l ih =>
      rw [List.mapM_cons] at h
      obtain ⟨b, hx, h⟩ := except_bind_eq_ok.mp h
      obtain ⟨bs', hl, -⟩ := except_bind_eq_ok.mp h
      exact List.forall_mem_cons.mpr ⟨⟨b, hx⟩, ih hl⟩

lemma except_mapError_eq_ok {δ : Type} {f : ε → δ} {x : Except ε α} {a : α} :
    x.mapError f = .ok a ↔ x = .ok a := by
  cases x with
  | error err => simp [Except.mapError]
  | ok b => simp [Except.mapError]

/-- The invariant rule for a loop that may raise. -/
lemma except_foldlM_inv {σ : Type} {f : σ → α → Except ε σ} (Inv : σ → Prop)
    {l : List α} (hstep : ∀ s a s', a ∈ l → Inv s → f s a = .ok s' → Inv s') {s s' : σ} (hs : Inv s)
    (h : l.foldlM f s = .ok s') : Inv s' := by
  induction l generalizing s with
  | nil =>
      cases h
      exact hs
  | cons a l ih =>
      rw [List.foldlM_cons] at h
      obtain ⟨s₁, hs₁, h⟩ := except_bind_eq_ok.mp h
      exact ih (fun s a s' ha => hstep s a s' (List.mem_cons_of_mem _ ha))
        (hstep s a s₁ (by simp) hs hs₁) h

/-- What a loop that may raise appends to a list. -/
lemma except_foldlM_out {σ : Type} {f : σ → α → Except ε σ} (out : σ → List β) {g : α → List β}
    (hstep : ∀ s a s', f s a = .ok s' → out s' = out s ++ g a) {l : List α} {s s' : σ}
    (h : l.foldlM f s = .ok s') : out s' = out s ++ l.flatMap g := by
  induction l generalizing s with
  | nil =>
      cases h
      simp
  | cons a l ih =>
      rw [List.foldlM_cons] at h
      obtain ⟨s₁, hs₁, h⟩ := except_bind_eq_ok.mp h
      rw [ih h, hstep s a s₁ hs₁, List.flatMap_cons, List.append_assoc]

/-- The rule for a loop that does not raise: the invariant knows the items that are left. -/
lemma except_foldlM_total {σ : Type} {f : σ → α → Except ε σ} (Inv : List α → σ → Prop)
    (hstep : ∀ a l s, Inv (a :: l) s → ∃ s', f s a = .ok s' ∧ Inv l s') {l : List α} {s : σ}
    (hs : Inv l s) :
    ∃ s', l.foldlM f s = .ok s' ∧ Inv [] s' := by
  induction l generalizing s with
  | nil => exact ⟨s, rfl, hs⟩
  | cons a l ih =>
      obtain ⟨s₁, hone, hs₁⟩ := hstep a l s hs
      obtain ⟨s', hrest, hs'⟩ := ih hs₁
      refine ⟨s', ?_, hs'⟩
      rw [List.foldlM_cons, hone]
      exact hrest

/-- Repeating one check for every item of a list is doing it once, if there are items. -/
lemma except_forM_const (u : Except ε Unit) (l : List α) :
    (l.forM fun _ => u) = if l = [] then .ok () else u := by
  induction l with
  | nil => rfl
  | cons x l ih =>
      show (u >>= fun _ => l.forM fun _ => u) = _
      rw [ih]
      cases u with
      | error e => rfl
      | ok a => by_cases hl : l = [] <;> simp [hl]

end Except

end LedgerProof
