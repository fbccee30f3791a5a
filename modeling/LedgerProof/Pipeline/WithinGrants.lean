import LedgerProof.Ledger.Grants
import LedgerProof.Pipeline.Invariants

/-!
# The pipeline runs within its grants

Ingest and the workers connect as `ledger_app`.  Every step of `Pipeline/System.lean` changes the
ledger or the event log by at most one transaction, of statements that this role is allowed to send
(`pipeline_within_grants`).  So the grants that `Ledger/Grants.lean` reads off the migrations are
enough for everything the application does, and what that module proves of every transaction of
`ledger_app` holds of the pipeline.
-/

namespace LedgerProof

open Grants

/-! ## Transactions of the application -/

/-- A transaction of `ledger_app` whose triggers see everything that is committed. -/
def Grants.Txn.ofApp (commands : List Command) :
    Txn := ⟨.ledgerApp, false, commands, fun _ _ => true, fun _ _ => true⟩

/-- The transaction that posts these rows. -/
def Grants.Txn.posting (W : Ledger) : Txn :=
  .ofApp [.insert .transactions W.transactions, .insert .entries W.entries]

/-- No statement of the transaction is refused, and it commits. -/
def Grants.Database.Commits (db : Database) (t : Txn) : Prop :=
  ∃ s, t.commands.foldlM (Session.exec t.role t.readOnly) ⟨db, .empty⟩ = .ok s ∧
    (⟨s.writes, t.balancedSees, t.minEntriesSees⟩ : Commit).Accepted s.db.chart s.db.history

namespace Grants

variable {db : Database} {chart : Chart} {history : List Ledger} {L W : Ledger}
  {txn : LedgerTransaction}
  {log log' : EventLog}

lemma visible_all (history : List Ledger) : visible (fun _ => true) history = history := by
  simp [visible]

/-- The checks at `COMMIT`, with everything in sight. -/
lemma accepted_of_writes (hL : (committed history).Admitted chart)
    (hfree : (committed history).conflict txn.row = none) (hW : txn.writes chart = .ok W) :
    (⟨W, fun _ _ => true, fun _ _ => true⟩ : Commit).Accepted chart history := by
  have hadm := hL.append_writes hfree hW
  obtain ⟨-, rows, hrows, rfl, hmin, hmax, -⟩ := LedgerTransaction.writes_ok_iff.mp hW
  have hnone : (committed history).txnEntries txn.id = [] :=
    hL.txnEntries_eq_nil (Ledger.conflict_eq_none_iff.mp hfree).1
  refine ⟨hadm.toRowsAdmitted, fun e _ => ?_, fun t ht => ?_⟩
  · rw [snapshot, visible_all]
    exact Ledger.assertTxnBalanced_ok.mpr fun c => hadm.balanced _ c
  · rw [snapshot, visible_all]
    have hid : t.1.id = txn.id := by
      have hmem := List.fst_mem_of_mem_zipIdx ht
      rw [List.mem_singleton.mp hmem]
      rfl
    have hown := txnEntries_of_mapM_row hrows [txn.row]
    refine Ledger.assertTxnMinEntries_ok.mpr ?_
    rw [hid, Ledger.txnEntries_append, hnone, List.nil_append, hown]
    exact ⟨hmin, hmax⟩

lemma append_empty (L : Ledger) : L.append .empty = L := by
  simp [Ledger.append, Ledger.empty]

lemma accepted_empty (hL : (committed history).Admitted chart) :
    (⟨.empty, fun _ _ => true, fun _ _ => true⟩ : Commit).Accepted chart history := by
  refine ⟨?_, by simp [Ledger.empty], by simp [Ledger.empty]⟩
  rw [append_empty]
  exact hL.toRowsAdmitted

lemma keyed_of_wf (h : log.Wf) : Keyed log := by
  refine ⟨h.id_nodup, ?_⟩
  have hids : log.Pairwise fun r s => r.id ≠ s.id := List.pairwise_map.mp h.id_nodup
  refine hids.imp_of_mem fun {r s} hr hs hne => ?_
  by_contra hkey
  simp only [Bool.and_eq_false_iff, not_or, Bool.not_eq_false, decide_eq_true_eq] at hkey
  exact hne (h.object_dedupe r hr s hs hkey.1 hkey.2)

/-! ## One change, one transaction -/

/-- A statement that `ledger_app` may send and that fires no trigger. -/
lemma exec_eq_effect {s : Session} {cmd : Command} (hcat : s.db.catalog = migrated)
    (hperm : migrated.permits .ledgerApp cmd = true)
    (hops : ∀ f ∈ cmd.operations, f ∉ migrated.forbidden) :
    s.exec .ledgerApp false cmd = s.effect cmd := by
  have hnone : cmd.operations.find? (· ∈ migrated.forbidden) = none :=
    List.find?_eq_none.mpr fun f hf => by simpa using hops f hf
  rw [Session.exec, hcat, if_neg (by simp [hperm]), if_neg (by simp), hnone]

/-- The database holds the rows of these tables, under the migrated schema. -/
structure Holds (chart : Chart) (db : Database) (L : Ledger) (log : EventLog) : Prop where
  kept : db.Kept chart
  ledger : db.ledger = L
  events : db.events = log

lemma transact_of_commits {t : Txn} {s : Session}
    (hrun : t.commands.foldlM (Session.exec t.role t.readOnly) ⟨db, .empty⟩ = .ok s)
    (hacc : (⟨s.writes, t.balancedSees, t.minEntriesSees⟩ : Commit).Accepted s.db.chart
      s.db.history) :
    db.transact t = { s.db with history := s.db.history ++ [s.writes] } := by
  rw [Database.transact, hrun]
  exact if_pos hacc

lemma Holds.post (h : Holds chart db L log) (hL : L.Admitted chart)
    (hfree : L.conflict txn.row = none) (hW : txn.writes chart = .ok W) :
    db.Commits (.posting W) ∧ Holds chart (db.transact (.posting W)) (L.append W) log := by
  obtain ⟨hkept, rfl, rfl⟩ := h
  have hrun : (Txn.posting W).commands.foldlM (Session.exec .ledgerApp false) ⟨db, .empty⟩ =
      .ok ⟨db, W⟩ := by
    have htxn : Session.exec .ledgerApp false ⟨db, .empty⟩ (.insert .transactions W.transactions) =
        .ok ⟨db, ⟨W.transactions, []⟩⟩ :=
      exec_eq_effect hkept.catalog rfl (by simp [Command.operations, migrated_forbidden])
    have hentries : Session.exec .ledgerApp false ⟨db, ⟨W.transactions, []⟩⟩
        (.insert .entries W.entries) =
        .ok ⟨db, ⟨W.transactions ++ [], W.entries⟩⟩ :=
      exec_eq_effect hkept.catalog rfl (by simp [Command.operations, migrated_forbidden])
    rw [List.append_nil] at hentries
    simp only [Txn.posting, Txn.ofApp, List.foldlM_cons, List.foldlM_nil, htxn]
    exact congrArg (· >>= pure) hentries
  have hacc : (⟨W, fun _ _ => true, fun _ _ => true⟩ : Commit).Accepted db.chart db.history := by
    rw [hkept.accounts]
    exact accepted_of_writes hL hfree hW
  refine ⟨⟨_, hrun, hacc⟩, hkept.transact (.inl rfl), ?_, ?_⟩
  · rw [transact_of_commits hrun hacc]
    exact committed_append db.history W
  · rw [transact_of_commits hrun hacc]

/-- A statement on the event log, in a transaction of its own. -/
lemma Holds.event {cmd : Command} (h : Holds chart db L log) (hL : L.Admitted chart) (hwf : log'.Wf)
    (hperm : migrated.permits .ledgerApp cmd = true)
    (hops : ∀ f ∈ cmd.operations, f ∉ migrated.forbidden)
    (heff : Session.effect ⟨db, .empty⟩ cmd = Session.withEvents ⟨db, .empty⟩ log') :
    db.Commits (.ofApp [cmd]) ∧ Holds chart (db.transact (.ofApp [cmd])) L log' := by
  obtain ⟨hkept, rfl, rfl⟩ := h
  have hrun : (Txn.ofApp [cmd]).commands.foldlM (Session.exec .ledgerApp false) ⟨db, .empty⟩ =
      .ok ⟨{ db with events := log' }, .empty⟩ := by
    rw [Txn.ofApp, List.foldlM_cons, exec_eq_effect hkept.catalog hperm hops, heff,
      Session.withEvents, if_pos (keyed_of_wf hwf)]
    rfl
  have hacc : (⟨.empty, fun _ _ => true, fun _ _ => true⟩ : Commit).Accepted db.chart
      db.history := by
    rw [hkept.accounts]
    exact accepted_empty hL
  refine ⟨⟨_, hrun, hacc⟩, hkept.transact (.inl rfl), ?_, ?_⟩
  · rw [transact_of_commits hrun hacc]
    exact (committed_append db.history .empty).trans (append_empty _)
  · rw [transact_of_commits hrun hacc]

/-- The transaction of a call, if it has one, is one of `ledger_app` and commits. -/
def Runs (db : Database) (call : Option Txn) :
    Prop := ∀ t ∈ call, t.role = .ledgerApp ∧ db.Commits t

/-- The database after a call. -/
def Database.call (db : Database) (call : Option Txn) : Database := db.run call.toList

/-- **Every change of the event log** is a statement that `ledger_app` may send. -/
lemma Holds.logStep {Rec : Event → Prop} {Mark : Event → Status → Prop} (h : Holds chart db L log)
    (hL : L.Admitted chart) (hwf : log.Wf) (hstep : LogStep Rec Mark log log') :
    ∃ call, Runs db call ∧ Holds chart (db.call call) L log' := by
  have hone : ∀ cmd : Command,
      db.Commits (.ofApp [cmd]) ∧ Holds chart (db.transact (.ofApp [cmd])) L log' →
      ∃ call, Runs db call ∧ Holds chart (db.call call) L log' := by
    intro cmd hcmd
    refine ⟨some (.ofApp [cmd]), fun t ht => ?_, hcmd.2⟩
    cases ht
    exact ⟨rfl, hcmd.1⟩
  have hwf' := hstep.wf hwf
  have hev := h.events
  cases hstep with
  | unchanged => exact ⟨none, by simp [Runs], h⟩
  | @record e oid hrec hoid hfree =>
      refine hone (.insert .stripeEvents [⟨e.id, e.type, oid, e, .received⟩]) ?_
      refine h.event hL hwf' rfl (by simp [Command.operations, migrated_forbidden]) ?_
      rw [← hev]
      rfl
  | queue id =>
      refine hone (.updateColumns [.status] (fun r => { r with status := .queued })
        fun r => r.id = id && r.status = .received) ?_
      refine h.event hL hwf' rfl (by simp [Command.operations, migrated_forbidden]) ?_
      rw [← hev]
      rfl
  | @mark e st hmark =>
      refine hone (.updateColumns [.status] (fun r => { r with status := st }) fun r =>
        r.id = e.id) ?_
      refine h.event hL hwf' rfl (by simp [Command.operations, migrated_forbidden]) ?_
      rw [← hev]
      rfl
  | @insert e st oid hmark hoid hfree =>
      refine hone (.upsertStatus ⟨e.id, e.type, oid, e, st⟩) ?_
      refine h.event hL hwf' rfl (by simp [Command.operations, migrated_forbidden]) ?_
      have hid : log.hasId e.id = false := (Bool.or_eq_false_iff.mp hfree).1
      simp only [Session.effect, hev, hid, Bool.false_eq_true, if_false]
      rfl

end Grants

/-! ## Runs -/

variable {uuid5 : String → Uuid} {chart : Chart} {s : State} {db : Database}

/-- **One step of the pipeline** is at most one transaction of `ledger_app`, and that commits. -/
lemma Grants.Holds.next (h : Holds chart db s.ledger s.log) (hb : s.Base chart) (a : Act) :
    ∃ call, Runs db call ∧
      Holds chart (db.call call) (s.next uuid5 chart a).ledger (s.next uuid5 chart a).log := by
  have hlog : LogStep _ _ s.log (s.next uuid5 chart a).log :=
    State.next_log hb.ledger.toRowsAdmitted a
  rcases @State.next_ledger uuid5 chart s hb.ledger.toRowsAdmitted a with
    heq | ⟨i, l, t, txn, n, W, rfl, ht, hpc, hfree, hW, heq⟩
  · rw [heq]
    exact h.logStep hb.ledger hb.log hlog
  · -- a step that posts leaves the log alone
    have hsame : (s.next uuid5 chart (.work i l)).log = s.log := by
      simp only [State.next, ht]
      exact (Task.step_spec hb.ledger.toRowsAdmitted s.log t l).log_of_post hpc
    obtain ⟨hcommits, hposted⟩ := h.post hb.ledger hfree hW
    refine ⟨some (.posting W), fun t' ht' => ?_, ?_⟩
    · cases ht'
      exact ⟨rfl, hcommits⟩
    · rw [heq, hsame]
      exact hposted

/-- **The pipeline runs within its grants.**  Whatever happens to ingest, the broker and the
workers, every step of the run makes at most one transaction of `ledger_app`, no statement of it is
refused and it commits; and after each step the rows of the ledger and of the event log are those
that these transactions have left on a migrated database. -/
theorem pipeline_within_grants (uuid5 : String → Uuid) (chart : Chart) (acts : List Act) :
    ∃ calls : List (Option Txn), calls.length = acts.length ∧
      Guarded Database.call Runs (.fresh chart) calls ∧
      ∀ k ≤ acts.length,
        ((calls.take k).foldl Database.call (.fresh chart)).ledger =
          (run uuid5 chart (acts.take k)).ledger ∧
        ((calls.take k).foldl Database.call (.fresh chart)).events =
          (run uuid5 chart (acts.take k)).log := by
  -- from any reachable state on, with the database that holds its rows
  have hfrom : ∀ (acts : List Act) (s : State) (db : Database), s.Base chart →
      Holds chart db s.ledger s.log → ∃ calls : List (Option Txn), calls.length = acts.length ∧
        Guarded Database.call Runs db calls ∧
        ∀ k ≤ acts.length, Holds chart ((calls.take k).foldl Database.call db)
          ((acts.take k).foldl (State.next uuid5 chart) s).ledger
          ((acts.take k).foldl (State.next uuid5 chart) s).log := by
    intro acts
    induction acts with
    | nil =>
        intro s db _ h
        refine ⟨[], rfl, trivial, fun k hk => ?_⟩
        obtain rfl : k = 0 := Nat.le_zero.mp hk
        exact h
    | cons a acts ih =>
        intro s db hb h
        obtain ⟨call, hruns, hholds⟩ := @Grants.Holds.next uuid5 _ _ _ h hb a
        obtain ⟨calls, hlen, hguard, hall⟩ := ih _ _ (hb.next a) hholds
        refine ⟨call :: calls, by simp [hlen], ⟨hruns, hguard⟩, fun k hk => ?_⟩
        cases k with
        | zero => exact h
        | succ k => exact hall k (Nat.le_of_succ_le_succ hk)
  obtain ⟨calls, hlen, hguard, hall⟩ :=
    hfrom acts .init (.fresh chart) .init ⟨Database.kept_fresh chart, rfl, rfl⟩
  exact ⟨calls, hlen, hguard, fun k hk => ⟨(hall k hk).ledger, (hall k hk).events⟩⟩

end LedgerProof
