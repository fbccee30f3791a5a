import Mathlib.Data.String.Basic
import LedgerProof.Lib.Run

/-!
# The migration runner

`migrate` of `scripts/migrate.py`, statement by statement.  Every statement commits by itself, and a
file brings its own `BEGIN` and `COMMIT`, so a kill leaves the statements that completed: a run is
given by their number.

That a file took effect and that it is recorded are two statements.  A run that is killed between
them leaves a database that no later run gets past (`Stuck`); every other database that runs leave
is one where both lists agree (`InStep`), and `migration_recovers_iff` says that the window between
the two statements is all that there is.
-/

namespace LedgerProof.Migrate

/-- What a migration run reads and writes of the database. -/
structure Db where
  /-- The rows of `schema_migrations`, once the table exists. -/
  schemaMigrations : Option (List String)
  /-- The files that took effect, in that order. -/
  effects : List String
  deriving DecidableEq, Repr

/-- A database that was just created. -/
def Db.fresh : Db := ⟨none, []⟩

/-- `SELECT filename FROM schema_migrations`. -/
def Db.recorded (db : Db) : List String := db.schemaMigrations.getD []

/-- What the server answers to a statement that fails. -/
inductive DbError
  | undefinedTable
  | duplicateObject (file : String)
  | uniqueViolation (file : String)
  deriving DecidableEq, Repr

/-- The statements of a run that write. -/
inductive Statement
  | createTable
  /-- A file, from its `BEGIN` to its `COMMIT`. -/
  | execute (file : String)
  | insert (file : String)

/-- `conn.execute`.  A second execution of a file runs into the objects that the first one made. -/
def Statement.run : Statement → Db → Except DbError Db
  | .createTable, db => .ok { db with schemaMigrations := some db.recorded }
  | .execute file, db =>
      if file ∈ db.effects then .error (.duplicateObject file)
      else .ok { db with effects := db.effects ++ [file] }
  | .insert file, db =>
      match db.schemaMigrations with
      | none => .error .undefinedTable
      | some rows =>
          if file ∈ rows then .error (.uniqueViolation file)
          else .ok { db with schemaMigrations := some (rows ++ [file]) }

/-- How a run ends. -/
inductive Ending
  | returned (applied : List String)
  | raised (e : DbError)
  | killed
  deriving DecidableEq, Repr

/-- The loop of `migrate`, killed after `kill` more statements if it comes that far. -/
def applyFiles (done : List String) : List String → Option ℕ → Db → List String → Ending × Db
  | [], _, db, applied => (.returned applied, db)
  | file :: files, kill, db, applied =>
      if file ∈ done then applyFiles done files kill db applied
      else if kill = some 0 then (.killed, db)
      else
        match (Statement.execute file).run db with
        | .error e => (.raised e, db)
        | .ok db =>
            if kill = some 1 then (.killed, db)
            else
              match (Statement.insert file).run db with
              | .error e => (.raised e, db)
              | .ok db => applyFiles done files (kill.map (· - 2)) db (applied ++ [file])

/-- `sorted(MIGRATIONS_DIR.glob("*.sql"))`. -/
def sortedFiles (files : List String) : List String := files.insertionSort (· ≤ ·)

/-- `migrate`, on a directory with these files: the `CREATE` and the `SELECT`, and the loop. -/
def migrate (files : List String) (kill : Option ℕ) (db : Db) : Ending × Db :=
  if kill = some 0 then (.killed, db)
  else
    match Statement.createTable.run db with
    | .error e => (.raised e, db)
    | .ok db =>
        if kill = some 1 then (.killed, db)
        else applyFiles db.recorded (sortedFiles files) (kill.map (· - 2)) db []

/-- The database that a run leaves. -/
def next (files : List String) (db : Db) (kill : Option ℕ) : Db := (migrate files kill db).2

/-- The files that a run finds not recorded. -/
def pending (files : List String) (db : Db) :
    List String := (sortedFiles files).filter (· ∉ db.recorded)

/-- The run is killed after the `COMMIT` of a file and before its row in `schema_migrations`: the
last statement that completes is the first of the two for the pending file number `j`. -/
def KilledInWindow (files : List String) (db : Db) (kill : Option ℕ) : Prop :=
  ∃ j < (pending files db).length, kill = some (2 + 2 * j + 1)

/-! ## The loop -/

section Loop

variable {done pre rest applied : List String} {kill : Option ℕ} {db : Db}

lemma applyFiles_skip (h : ∀ f ∈ pre, f ∈ done) :
    applyFiles done (pre ++ rest) kill db applied = applyFiles done rest kill db applied := by
  induction pre with
  | nil => rfl
  | cons f pre ih =>
      have hf : f ∈ done := h f (by simp)
      rw [List.cons_append, applyFiles, if_pos hf]
      exact ih fun g hg => h g (by simp [hg])

/-- A file that took effect and is not recorded stops every run, with nothing written. -/
lemma applyFiles_stuck {f : String} (hdone : f ∉ done) (heff : f ∈ db.effects) :
    (∀ kill, (applyFiles done (f :: rest) kill db applied).2 = db) ∧
      ∀ fs, (applyFiles done (f :: rest) none db applied).1 ≠ .returned fs := by
  constructor
  · intro kill
    rw [applyFiles, if_neg hdone]
    simp only [Statement.run, heff, if_true]
    split_ifs <;> rfl
  · intro fs
    rw [applyFiles, if_neg hdone]
    simp [Statement.run, heff]

/-- One round of the loop over a database that the files before it left in step. -/
lemma applyFiles_cons {f : String} (hdone : f ∉ done) (hpre : f ∉ pre) :
    applyFiles done (f :: rest) kill ⟨some pre, pre⟩ applied =
      if kill = some 0 then (.killed, ⟨some pre, pre⟩)
      else if kill = some 1 then (.killed, ⟨some pre, pre ++ [f]⟩)
      else applyFiles done rest (kill.map (· - 2)) ⟨some (pre ++ [f]), pre ++ [f]⟩
        (applied ++ [f]) := by
  rw [applyFiles, if_neg hdone]
  simp only [Statement.run, hpre, if_false]

lemma applyFiles_all (hdone : ∀ f ∈ rest, f ∉ done) (hnodup : (pre ++ rest).Nodup) :
    applyFiles done rest none ⟨some pre, pre⟩ applied =
      (.returned (applied ++ rest), ⟨some (pre ++ rest), pre ++ rest⟩) := by
  induction rest generalizing pre applied with
  | nil => simp [applyFiles]
  | cons f rest ih =>
      have hpre : f ∉ pre := fun h => (List.nodup_append.mp hnodup).2.2 f h f (by simp) rfl
      rw [applyFiles_cons (hdone f (by simp)) hpre, if_neg (by simp), if_neg (by simp),
        Option.map_none, ih (fun g hg => hdone g (by simp [hg])) (by simpa using hnodup)]
      simp

/-- Killed after `k` statements, it has done as many files as there are whole pairs, and executed
one more if the last pair is not whole. -/
lemma applyFiles_killed (hdone : ∀ f ∈ rest, f ∉ done) (hnodup : (pre ++ rest).Nodup) (k : ℕ) :
    (applyFiles done rest (some k) ⟨some pre, pre⟩ applied).2 =
      ⟨some (pre ++ rest.take (k / 2)), pre ++ rest.take ((k + 1) / 2)⟩ := by
  induction rest generalizing pre applied k with
  | nil => simp [applyFiles]
  | cons f rest ih =>
      have hpre : f ∉ pre := fun h => (List.nodup_append.mp hnodup).2.2 f h f (by simp) rfl
      rw [applyFiles_cons (hdone f (by simp)) hpre]
      match k with
      | 0 => simp
      | 1 => simp
      | k + 2 =>
          have hhalf : (k + 2) / 2 = k / 2 + 1 := by omega
          have hhalf' : (k + 2 + 1) / 2 = (k + 1) / 2 + 1 := by omega
          rw [if_neg (by simp), if_neg (by simp), Option.map_some, Nat.add_sub_cancel,
            ih (fun g hg => hdone g (by simp [hg])) (by simpa using hnodup), hhalf, hhalf']
          simp

end Loop

/-! ## What runs leave -/

/-- What took effect is what is recorded, and it is the first files of the directory. -/
structure InStep (files : List String) (db : Db) : Prop where
  recorded : db.recorded = db.effects
  first : db.effects <+: sortedFiles files

/-- The first file that is not recorded has taken effect. -/
structure Stuck (files : List String) (db : Db) : Prop where
  blocked : ∃ f rest, sortedFiles files = db.recorded ++ f :: rest ∧ f ∈ db.effects

lemma inStep_fresh (files : List String) : InStep files .fresh := ⟨rfl, List.nil_prefix⟩

variable {files : List String} {db : Db}

lemma nodup_sortedFiles (h : files.Nodup) : (sortedFiles files).Nodup :=
  (List.perm_insertionSort _ files).nodup_iff.mpr h

lemma mem_sortedFiles {f : String} : f ∈ sortedFiles files ↔ f ∈ files :=
  (List.perm_insertionSort _ files).mem_iff

/-- The directory, as a run finds it: what is recorded, and what is pending. -/
lemma InStep.split (hfiles : files.Nodup) (h : InStep files db) :
    sortedFiles files = db.recorded ++ pending files db := by
  obtain ⟨rest, hrest⟩ := h.first
  have hnodup := nodup_sortedFiles hfiles
  rw [← hrest] at hnodup
  have hout : ∀ f ∈ rest, f ∉ db.recorded := fun f hf hmem =>
    (List.nodup_append.mp hnodup).2.2 f (h.recorded ▸ hmem) f hf rfl
  have hpending : pending files db = rest := by
    rw [pending, ← hrest, List.filter_append, List.filter_eq_nil_iff.mpr, List.nil_append,
      List.filter_eq_self.mpr]
    · exact fun f hf => by simpa using hout f hf
    · exact fun f hf => by simpa [h.recorded] using hf
  rw [hpending, h.recorded, hrest]

lemma migrate_started (files : List String) (db : Db) (k : Option ℕ) :
    migrate files (k.map (· + 2)) db =
      applyFiles db.recorded (sortedFiles files) k ⟨some db.recorded, db.effects⟩ [] := by
  cases k <;> simp [migrate, Statement.run, Db.recorded]

lemma InStep.migrate_eq (hfiles : files.Nodup) (h : InStep files db) (k : Option ℕ) :
    migrate files (k.map (· + 2)) db =
      applyFiles db.recorded (pending files db) k ⟨some db.recorded, db.recorded⟩ [] := by
  rw [migrate_started, h.split hfiles, ← h.recorded]
  exact applyFiles_skip fun f hf => hf

lemma not_recorded_of_pending : ∀ f ∈ pending files db, f ∉ db.recorded := fun f hf => by
  simpa using (List.mem_filter.mp hf).2

lemma InStep.sorted_take (hfiles : files.Nodup) (h : InStep files db) (n : ℕ) :
    sortedFiles files = (db.recorded ++ (pending files db).take n) ++
      (pending files db).drop n := by
  rw [List.append_assoc, List.take_append_drop]
  exact h.split hfiles

lemma InStep.next_killed (hfiles : files.Nodup) (h : InStep files db) (k : ℕ) :
    next files db (some (k + 2)) =
      ⟨some (db.recorded ++ (pending files db).take (k / 2)),
        db.recorded ++ (pending files db).take ((k + 1) / 2)⟩ := by
  have hnodup : (db.recorded ++ pending files db).Nodup := h.split hfiles ▸ nodup_sortedFiles hfiles
  have hmigrate := h.migrate_eq hfiles (some k)
  rw [Option.map_some] at hmigrate
  rw [next, hmigrate]
  exact applyFiles_killed not_recorded_of_pending hnodup k

lemma InStep.migrate_none (hfiles : files.Nodup) (h : InStep files db) :
    migrate files none db =
      (.returned (pending files db), ⟨some (sortedFiles files), sortedFiles files⟩) := by
  have hnodup : (db.recorded ++ pending files db).Nodup := h.split hfiles ▸ nodup_sortedFiles hfiles
  rw [h.split hfiles, ← List.nil_append (pending files db)]
  exact (h.migrate_eq hfiles none).trans (applyFiles_all not_recorded_of_pending hnodup)

/-- **A run that is not killed in the window** leaves a database in step. -/
lemma InStep.next (hfiles : files.Nodup) (h : InStep files db) {kill : Option ℕ}
    (hkill : ¬ KilledInWindow files db kill) : InStep files (next files db kill) := by
  match kill with
  | none =>
      rw [Migrate.next, h.migrate_none hfiles]
      exact ⟨rfl, List.prefix_refl _⟩
  | some 0 => exact h
  | some 1 => exact ⟨h.recorded, h.first⟩
  | some (k + 2) =>
      have htake : (pending files db).take (k / 2) = (pending files db).take ((k + 1) / 2) := by
        rcases Nat.even_or_odd' k with ⟨j, rfl | rfl⟩
        · congr 1
          omega
        · -- the pairs of all pending files are whole
          have hj : (pending files db).length ≤ j := by
            by_contra hlt
            exact hkill ⟨j, by omega, by congr 1; omega⟩
          rw [List.take_of_length_le (by omega), List.take_of_length_le (by omega)]
      rw [h.next_killed hfiles, htake]
      exact ⟨rfl, _, (h.sorted_take hfiles _).symm⟩

/-- **A run that is killed in the window** leaves the file that it was at executed and not
recorded. -/
lemma InStep.stuck (hfiles : files.Nodup) (h : InStep files db) {kill : Option ℕ}
    (hkill : KilledInWindow files db kill) : Stuck files (Migrate.next files db kill) := by
  obtain ⟨j, hj, rfl⟩ := hkill
  have hk : 2 + 2 * j + 1 = 2 * j + 1 + 2 := by omega
  have hhalf : (2 * j + 1) / 2 = j := by omega
  have hhalf' : (2 * j + 1 + 1) / 2 = j + 1 := by omega
  rw [hk, h.next_killed hfiles, hhalf, hhalf']
  refine ⟨(pending files db)[j], (pending files db).drop (j + 1), ?_, ?_⟩
  · rw [List.getElem_cons_drop]
    exact h.sorted_take hfiles j
  · exact List.mem_append_right _ (List.mem_take_iff_getElem.mpr ⟨j, by omega, rfl⟩)

/-- From the `SELECT` on no run gets past that file, and none writes. -/
lemma Stuck.started (hfiles : files.Nodup) (h : Stuck files db) :
    (∀ k : Option ℕ,
      (Migrate.migrate files (k.map (· + 2)) db).2 = ⟨some db.recorded, db.effects⟩) ∧
      ∀ fs, (Migrate.migrate files none db).1 ≠ .returned fs := by
  obtain ⟨f, rest, hsorted, heff⟩ := h
  have hnodup := nodup_sortedFiles hfiles
  rw [hsorted] at hnodup
  have hdone : f ∉ db.recorded :=
    fun hmem => (List.nodup_append.mp hnodup).2.2 f hmem f (by simp) rfl
  have hloop : ∀ k : Option ℕ, Migrate.migrate files (k.map (· + 2)) db =
      applyFiles db.recorded (f :: rest) k ⟨some db.recorded, db.effects⟩ [] := by
    intro k
    rw [migrate_started, hsorted]
    exact applyFiles_skip fun g hg => hg
  have heff : f ∈ (⟨some db.recorded, db.effects⟩ : Db).effects := heff
  constructor
  · intro k
    rw [hloop]
    exact (applyFiles_stuck hdone heff).1 k
  · have hnone := hloop none
    rw [Option.map_none] at hnone
    rw [hnone]
    exact (applyFiles_stuck hdone heff).2

lemma Stuck.next (hfiles : files.Nodup) (h : Stuck files db) (kill : Option ℕ) :
    Stuck files (Migrate.next files db kill) := by
  have hsame := (h.started hfiles).1
  obtain ⟨f, rest, hsorted, heff⟩ := h
  match kill with
  | none =>
      have hnext : Migrate.next files db none = ⟨some db.recorded, db.effects⟩ := hsame none
      rw [hnext]
      exact ⟨f, rest, hsorted, heff⟩
  | some 0 => exact ⟨f, rest, hsorted, heff⟩
  | some 1 => exact ⟨f, rest, hsorted, heff⟩
  | some (k + 2) =>
      have hnext : Migrate.next files db (some (k + 2)) = ⟨some db.recorded, db.effects⟩ :=
        hsame (some k)
      rw [hnext]
      exact ⟨f, rest, hsorted, heff⟩

/-! ## Any number of runs -/

/-- One run that is killed in the window is enough. -/
lemma stuck_of_window (hfiles : files.Nodup) {kills : List (Option ℕ)} (h : InStep files db)
    (hwindow : ¬ Guarded (next files) (fun db kill => ¬ KilledInWindow files db kill) db kills) :
    Stuck files (kills.foldl (next files) db) := by
  induction kills generalizing db with
  | nil => exact absurd trivial hwindow
  | cons kill kills ih =>
      by_cases hkill : KilledInWindow files db kill
      · exact foldl_inv (Stuck files) (fun db kill h => h.next hfiles kill)
          (h.stuck hfiles hkill) kills
      · exact ih (h.next hfiles hkill) fun hrest => hwindow ⟨hkill, hrest⟩

/-- What is promised of a migrated database. -/
structure Migrated (files : List String) (db : Db) : Prop where
  once : ∀ f ∈ files, db.effects.count f = 1
  nothing_else : ∀ f ∈ db.effects, f ∈ files
  lexicographic : db.effects.Pairwise (· < ·)
  recorded : ∀ f, f ∈ db.recorded ↔ f ∈ files

lemma migrated_sorted (hfiles : files.Nodup) :
    Migrated files ⟨some (sortedFiles files), sortedFiles files⟩ where
  once := fun f hf => List.count_eq_one_of_mem (nodup_sortedFiles hfiles) (mem_sortedFiles.mpr hf)
  nothing_else := fun f hf => mem_sortedFiles.mp hf
  lexicographic := by
    have hsorted : (sortedFiles files).SortedLE := List.sortedLE_insertionSort
    exact (hsorted.sortedLT_of_nodup (nodup_sortedFiles hfiles)).pairwise
  recorded := fun f => mem_sortedFiles

/-- **When migration recovers.**  From a database that was just created, after any sequence of runs
that are killed anywhere: the next run that is left alone succeeds and leaves the directory migrated
exactly when no run was killed between the `COMMIT` of a file and its row. -/
theorem migration_recovers_iff (files : List String) (hfiles : files.Nodup)
    (kills : List (Option ℕ)) :
    ((∃ applied, (migrate files none (kills.foldl (next files) .fresh)).1 = .returned applied) ∧
        Migrated files (migrate files none (kills.foldl (next files) .fresh)).2) ↔
      Guarded (next files) (fun db kill => ¬ KilledInWindow files db kill) .fresh kills := by
  constructor
  · rintro ⟨⟨applied, hreturned⟩, -⟩
    by_contra hwindow
    have hstuck := stuck_of_window hfiles (inStep_fresh files) hwindow
    exact (hstuck.started hfiles).2 applied hreturned
  · intro hkills
    have hstep : InStep files (kills.foldl (next files) .fresh) :=
      hkills.inv (InStep files) (fun db kill h hkill => h.next hfiles hkill) (inStep_fresh files)
    rw [hstep.migrate_none hfiles]
    exact ⟨⟨_, rfl⟩, migrated_sorted hfiles⟩

/-- A directory with two files. -/
def twoFiles : List String := ["001_ledger.sql", "002_seed_accounts.sql"]

/-- One run is killed in the transaction of the first file, and the next one after the row of that
file: the third one finds the second file pending. -/
theorem migration_recovers_iff_two :
    (∃ applied, (migrate twoFiles none ([some 2, some 4].foldl (next twoFiles) .fresh)).1 =
      .returned applied) ∧
      Migrated twoFiles
        (migrate twoFiles none ([some 2, some 4].foldl (next twoFiles) .fresh)).2 := by
  refine (migration_recovers_iff twoFiles (by decide) [some 2, some 4]).mpr ⟨?_, ?_, trivial⟩
  all_goals
    rintro ⟨j, -, hj⟩
    have := Option.some.inj hj
    omega

/-- Killed a statement later than the first of these, between the `COMMIT` of the first file and its
row, a run leaves a database that no run can migrate. -/
theorem migration_stuck_in_window :
    let db := (migrate twoFiles (some 3) .fresh).2
    db = ⟨some [], ["001_ledger.sql"]⟩ ∧
      migrate twoFiles none db = (.raised (.duplicateObject "001_ledger.sql"), db) := by
  decide

end LedgerProof.Migrate
