import LedgerProof.Lib.PyJsonDigits

/-!
# A file of JSON lines

Values that are written one to a line by `json.dumps`, and `str.splitlines` that takes the lines
apart again.

`str.splitlines` ends a line at more characters than the newline.  All of them are control
characters or not ASCII, so `dumps` writes none of them (`not_isLineBreak_of_mem_dumps`), and a file
of dictionaries is read back (`loadLines_jsonLines`).
-/

namespace LedgerProof

/-! ## Lines -/

/-- A character that ends a line. -/
def isLineBreak (c : Char) : Bool :=
  (0xa ≤ c.toNat && c.toNat ≤ 0xd) || (0x1c ≤ c.toNat && c.toNat ≤ 0x1e) ||
    c.toNat ∈ [0x85, 0x2028, 0x2029]

/-- The loop of `str.splitlines`, with what the line has so far. -/
def splitlinesFrom : List Char → List Char → List (List Char)
  | line, [] => if line = [] then [] else [line]
  | line, '\r' :: '\n' :: cs => line :: splitlinesFrom [] cs
  | line, c :: cs =>
      if isLineBreak c then line :: splitlinesFrom [] cs else splitlinesFrom (line ++ [c]) cs

/-- `s.splitlines()`. -/
def splitlines (s : List Char) : List (List Char) := splitlinesFrom [] s

example : splitlines "a\r\nb\n\nc".toList = ["a".toList, "b".toList, [], "c".toList] := by decide

/-- The text of some lines, each with a newline behind it. -/
def textOfLines (lines : List (List Char)) : List Char := lines.flatMap fun line => line ++ ['\n']

lemma splitlinesFrom_append {cs : List Char} (h : ∀ c ∈ cs, isLineBreak c = false)
    (line rest : List Char) :
    splitlinesFrom line (cs ++ '\n' :: rest) = (line ++ cs) :: splitlinesFrom [] rest := by
  induction cs generalizing line with
  | nil => simp [splitlinesFrom, show isLineBreak '\n' = true by decide]
  | cons c cs ih =>
      have hc : isLineBreak c = false := h c List.mem_cons_self
      have hreturn : c ≠ '\r' := by
        rintro rfl
        exact absurd hc (by decide)
      rw [List.cons_append, splitlinesFrom, if_neg (by simp [hc]), ih fun d hd =>
        h d (List.mem_cons_of_mem _ hd), List.append_assoc, List.singleton_append]
      exact fun _ heq _ => hreturn heq

/-- **The lines are what they were**, if no character in them ends a line. -/
lemma splitlines_textOfLines {lines : List (List Char)}
    (h : ∀ line ∈ lines, ∀ c ∈ line, isLineBreak c = false) :
    splitlines (textOfLines lines) = lines := by
  induction lines with
  | nil => rfl
  | cons line lines ih =>
      obtain ⟨hline, hlines⟩ := List.forall_mem_cons.mp h
      have htext : textOfLines (line :: lines) = line ++ '\n' :: textOfLines lines := by
        simp [textOfLines]
      rw [splitlines, htext, splitlinesFrom_append hline, List.nil_append]
      exact congrArg (line :: ·) (ih hlines)

lemma strip_ne_nil {s : List Char} {c : Char} (hc : c ∈ s) (hspace : isSpace c = false) :
    strip s ≠ [] := by
  intro hnil
  have hdrop : (s.dropWhile isSpace).reverse.dropWhile isSpace = [] :=
    List.reverse_eq_nil_iff.mp hnil
  have hspaces : ∀ d ∈ s.dropWhile isSpace, isSpace d = true := fun d hd =>
    List.dropWhile_eq_nil_iff.mp hdrop d (List.mem_reverse.mpr hd)
  rcases List.mem_append.mp (List.takeWhile_append_dropWhile (p := isSpace)
    (l := s) ▸ hc) with hmem | hmem
  · exact absurd (List.mem_takeWhile_imp hmem) (by simp [hspace])
  · exact absurd (hspaces c hmem) (by simp [hspace])

namespace PyJson

/-! ## What `dumps` writes -/

section

variable {repr : BitVec 64 → Number} {read : Number → BitVec 64} {sp : ℕ} {c : Char}

lemma Piece.Ok.text_printable {p : Piece} (hp : p.Ok) (hc : c ∈ p.text) : 0x20 ≤ c.toNat := by
  cases p with
  | plain n =>
      obtain ⟨hlow, hhigh, -⟩ := hp
      rw [List.mem_singleton.mp hc, toNat_ofNat (by omega)]
      exact hlow
  | short e =>
      have hall : ∀ e ∈ shortEscapes, 0x20 ≤ e.1.toNat := by decide
      simp only [Piece.text, List.mem_cons, List.not_mem_nil, or_false] at hc
      rcases hc with rfl | rfl
      · decide
      · exact hall e hp
  | unit n =>
      have hdigit : ∀ m, 0x20 ≤ (Nat.digitChar (m % 16)).toNat := fun m => by
        have hall : ∀ k < 16, 0x20 ≤ (Nat.digitChar k).toNat := by decide
        exact hall _ (Nat.mod_lt _ (by norm_num))
      simp only [Piece.text, unicodeEscape, List.mem_cons, List.not_mem_nil, or_false] at hc
      rcases hc with rfl | rfl | rfl | rfl | rfl | rfl
      · decide
      · decide
      all_goals exact hdigit _

lemma printable_of_mem_marksOf {text : List Char} (h : text ∈ marksOf sp) (hc : c ∈ text) :
    0x20 ≤ c.toNat := by
  have hfixed : ∀ text ∈ [['['], [']'], ['{'], ['}']] ++
      [Const.null, .true, .false, .nan, .infinity, .negInfinity].map Const.text, ∀ c ∈ text,
        0x20 ≤ c.toNat := by
    decide
  have hblanks : ∀ b ∈ [',', ':'], ∀ c ∈ b :: blanks sp, 0x20 ≤ c.toNat := fun b hb c hc => by
    rcases List.mem_cons.mp hc with rfl | hc
    · exact (by decide : ∀ b ∈ [',', ':'], 0x20 ≤ b.toNat) c hb
    · rw [List.eq_of_mem_replicate hc]
      decide
  rw [marksOf, List.mem_append] at h
  rcases h with h | h
  · simp only [List.mem_cons, List.not_mem_nil, or_false] at h
    rcases h with rfl | rfl | rfl | rfl | rfl | rfl
    · exact hfixed ['['] (by decide) c hc
    · exact hfixed [']'] (by decide) c hc
    · exact hfixed ['{'] (by decide) c hc
    · exact hfixed ['}'] (by decide) c hc
    · exact hblanks ',' (by decide) c hc
    · exact hblanks ':' (by decide) c hc
  · exact hfixed text (List.mem_append_right _ h) c hc

/-- No control character is written. -/
lemma Spelled.printable {l : Token} (hrepr : SpellsFinite read repr) (hl : Spelled repr sp l)
    (hc : c ∈ l.text) :
    0x20 ≤ c.toNat := by
  have hreadable := hl.readable hrepr
  cases l with
  | mark text =>
      cases hl with
      | mark h => exact printable_of_mem_marksOf h hc
  | number t =>
      rcases hreadable.1.text_char hc with hdigit | hmark
      · have hdecimal := (isDigit_iff.mp hdigit).1
        omega
      · have hall : ∀ c ∈ numberMarks, 0x20 ≤ c.toNat := by decide
        exact hall c hmark
  | str ps =>
      simp only [Token.text, closed, List.mem_cons, List.mem_append, List.mem_flatMap,
        List.not_mem_nil, or_false] at hc
      rcases hc with rfl | ⟨p, hp, hc⟩ | rfl
      · decide
      · exact (hreadable p hp).text_printable hc
      · decide

/-- **No character that `dumps` writes ends a line.** -/
lemma not_isLineBreak_of_mem_dumps {ok : BitVec 64 → Prop} {v : PyValue}
    (hrepr : SpellsFinite read repr) (hv : Loaded ok v) (hc : c ∈ dumps repr sp v) :
    isLineBreak c = false := by
  obtain ⟨l, hl, hc⟩ := List.mem_flatMap.mp hc
  have hspelled : Spelled repr sp l := spelled_docOf v hv l hl
  have hlow := hspelled.printable hrepr hc
  have hhigh := hspelled.ascii hrepr hc
  simp only [isLineBreak, List.mem_cons, List.not_mem_nil, or_false, Bool.or_eq_false_iff,
    Bool.and_eq_false_iff, decide_eq_false_iff_not]
  omega

lemma strip_dumps_ne_nil (fields : List (PyStr × PyValue)) :
    strip (dumps repr sp (.dict fields)) ≠ [] := by
  have hbrace : '{' ∈ dumps repr sp (.dict fields) := by
    cases fields <;> simp [dumps, docOf, fieldsOf, Doc.text, Doc.tokens, Token.text]
  exact strip_ne_nil hbrace (by decide)

end

/-! ## Files -/

section

variable (read : Number → BitVec 64) (repr : BitVec 64 → Number)

/-- Values written one to a line. -/
def jsonLines (sp : ℕ) (vs : List PyValue) : List Char := textOfLines (vs.map (dumps repr sp))

/-- `json.loads` of every line that is not blank. -/
def loadLines (text : List Char) : Option (List PyValue) :=
  ((splitlines text).filter fun line => strip line ≠ []).mapM (loadsText read)

variable {read repr}

/-- **A file of dictionaries is read back.** -/
theorem loadLines_jsonLines {records : List (List (PyStr × PyValue))}
    (hrepr : SpellsFinite read repr)
    (h : ∀ record ∈ records, Loaded (Floats read repr) (.dict record)) (sp : ℕ) :
    loadLines read (jsonLines repr sp (records.map .dict)) = some (records.map .dict) := by
  have hlines : splitlines (jsonLines repr sp (records.map .dict)) = records.map fun r =>
      dumps repr sp (.dict r) := by
    rw [jsonLines, List.map_map]
    refine splitlines_textOfLines fun line hline c hc => ?_
    obtain ⟨record, hrecord, rfl⟩ := List.mem_map.mp hline
    exact not_isLineBreak_of_mem_dumps hrepr (h record hrecord) hc
  have hkept : (records.map fun r => dumps repr sp (.dict r)).filter (fun line => strip line ≠ []) =
      records.map fun r => dumps repr sp (.dict r) := by
    refine List.filter_eq_self.mpr fun line hline => ?_
    obtain ⟨record, -, rfl⟩ := List.mem_map.mp hline
    exact decide_eq_true (strip_dumps_ne_nil record)
  rw [loadLines, hlines, hkept]
  clear hlines hkept
  induction records with
  | nil => rfl
  | cons record records ih =>
      obtain ⟨hrecord, hrecords⟩ := List.forall_mem_cons.mp h
      rw [List.map_cons, List.mapM_cons, loadsText_dumps hrecord, ih hrecords]
      rfl

end

end PyJson

end LedgerProof
