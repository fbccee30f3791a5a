import LedgerProof.Ledger.Conservation
import LedgerProof.Ingest.EventLog
import LedgerProof.Lib.Text

/-!
# Who may change which rows

The part of the migrations that is not about rows: the triggers of `migrations/001_ledger.sql` that
call `forbid_mutation`, and the grants to `ledger_app` of 001, 003 and 004.  `Catalog` is what these
statements leave in the system tables, `Command` is a statement that a client may send, and
`Database.transact` runs a transaction of such statements with the rights of its role.

`Ledger/Conservation.lean` assumes that writers only insert.  Here that is a result: whatever
statements of `Command` are sent, a transaction that neither changes the schema nor writes
`accounts` as its owner commits a write set that `commitStep` accepts, or nothing
(`Database.transact_spec`).  Hence `append_only` for the ledger, and `event_columns_immutable` for
what `ledger_app` may do to the event log.

`Command` has the statements on the four tables, and the statements on their grants and triggers.
Other statements are not modelled, among them two that get round the triggers:
`SET session_replication_role`, which only a superuser may send, and `CREATE TEMP TABLE`, which
anyone may and which can put an `entries` of the session's own in front of the one that the trigger
functions mean to read.

The owner of the tables is one role here, and superusers are that role too.  The grants on the
schema, the sequences and the view `account_balances` decide nothing about these rows and are left
out, as is `stripe_events.received_at`.
-/

namespace LedgerProof.Grants

/-! ## The catalog -/

/-- Who sends a statement. -/
inductive Role
  /-- The role that ran the migrations. -/
  | owner
  | ledgerApp
  deriving DecidableEq, Repr

/-- The tables. -/
inductive Table
  | accounts
  | transactions
  | entries
  | stripeEvents
  deriving DecidableEq, Repr

/-- The columns of `stripe_events`. -/
inductive Column
  | id
  | eventType
  | objectId
  | payload
  | status
  deriving DecidableEq, Repr

/-- Table privileges. -/
inductive Privilege
  | select
  | insert
  | update
  | delete
  | truncate
  deriving DecidableEq, Repr

/-- What a statement trigger may fire on (`TG_OP`). -/
inductive Operation
  | insert
  | update
  | delete
  | truncate
  deriving DecidableEq, Repr

/-- A privilege on a table, or on one column of it. -/
structure Grant where
  privilege : Privilege
  table : Table
  column : Option Column
  deriving DecidableEq, Repr

/-- The grants of `ledger_app`, and the operations on which `forbid_mutation` is called. -/
structure Catalog where
  grants : List Grant
  forbidden : List (Operation × Table)
  deriving DecidableEq, Repr

/-- Statements about the catalog: those of the migrations, and one that disarms triggers. -/
inductive Ddl
  /-- `GRANT … ON … TO ledger_app`. -/
  | grant (g : Grant)
  /-- `REVOKE … ON … FROM ledger_app`, which takes the grants on columns with it. -/
  | revoke (p : Privilege) (t : Table)
  /-- `CREATE TRIGGER … BEFORE … FOR EACH STATEMENT EXECUTE FUNCTION forbid_mutation()`. -/
  | createTrigger (ops : List Operation) (t : Table)
  /-- `ALTER TABLE … DISABLE TRIGGER ALL`. -/
  | disableTriggers (t : Table)

/-- What a statement leaves in the catalog. -/
def Ddl.run (c : Catalog) : Ddl → Catalog
  | .grant g => { c with grants := c.grants ++ [g] }
  | .revoke p t => { c with grants := c.grants.filter fun g => ¬(g.privilege = p ∧ g.table = t) }
  | .createTrigger ops t => { c with forbidden := c.forbidden ++ ops.map fun op => (op, t) }
  | .disableTriggers t => { c with forbidden := c.forbidden.filter fun f => f.2 ≠ t }

/-- `migrations/001_ledger.sql`. -/
def ledgerMigration : List Ddl :=
  [.createTrigger [.update, .delete] .entries,
    .createTrigger [.update, .delete] .transactions,
    .createTrigger [.truncate] .entries,
    .createTrigger [.truncate] .transactions,
    .grant ⟨.select, .accounts, none⟩, .grant ⟨.select, .transactions, none⟩,
    .grant ⟨.select, .entries, none⟩,
    .grant ⟨.insert, .transactions, none⟩, .grant ⟨.insert, .entries, none⟩]

/-- `migrations/003_stripe_events.sql`. -/
def stripeEventsMigration : List Ddl :=
  [.grant ⟨.select, .stripeEvents, none⟩, .grant ⟨.insert, .stripeEvents, none⟩,
    .grant ⟨.update, .stripeEvents, none⟩]

/-- `migrations/004_hardening.sql`. -/
def hardeningMigration : List Ddl :=
  [.revoke .update .stripeEvents, .grant ⟨.update, .stripeEvents, some .status⟩]

/-- The catalog after some migrations. -/
def catalogAfter (ddl : List Ddl) : Catalog := ddl.foldl Ddl.run ⟨[], []⟩

/-- The catalog of a migrated database. -/
def migrated :
    Catalog := catalogAfter (ledgerMigration ++ stripeEventsMigration ++ hardeningMigration)

/-! ## Statements -/

/-- A row of a table. -/
abbrev Table.Row : Table → Type
  | .accounts => Account
  | .transactions => TransactionRow
  | .entries => EntryRow
  | .stripeEvents => EventRow

/-- A statement of a client. -/
inductive Command
  | select (t : Table)
  | insert (t : Table) (rows : List t.Row)
  /-- `UPDATE … SET … WHERE …`, with every column assigned. -/
  | update (t : Table) (set : t.Row → t.Row) (p : t.Row → Bool)
  /-- `UPDATE stripe_events SET … WHERE …`, with these columns assigned. -/
  | updateColumns (columns : List Column) (set : EventRow → EventRow) (p : EventRow → Bool)
  /-- `INSERT INTO stripe_events … ON CONFLICT (id) DO UPDATE SET status = EXCLUDED.status`. -/
  | upsertStatus (row : EventRow)
  | delete (t : Table) (p : t.Row → Bool)
  | truncate (ts : List Table)
  | ddl (d : Ddl)

/-- The privileges a statement asks for.  A `WHERE` reads the table, and so does a conflict
target. -/
def Command.needs : Command → List Grant
  | .select t => [⟨.select, t, none⟩]
  | .insert t _ => [⟨.insert, t, none⟩]
  | .update t _ _ => [⟨.select, t, none⟩, ⟨.update, t, none⟩]
  | .updateColumns columns _ _ =>
      ⟨.select, .stripeEvents, none⟩ :: columns.map fun c => ⟨.update, .stripeEvents, some c⟩
  | .upsertStatus _ => [⟨.select, .stripeEvents, none⟩, ⟨.insert, .stripeEvents, none⟩,
      ⟨.update, .stripeEvents, some .status⟩]
  | .delete t _ => [⟨.select, t, none⟩, ⟨.delete, t, none⟩]
  | .truncate ts => ts.map fun t => ⟨.truncate, t, none⟩
  | .ddl _ => []

/-- The statement triggers that a statement fires, before it touches a row. -/
def Command.operations : Command → List (Operation × Table)
  | .select _ => []
  | .insert t _ => [(.insert, t)]
  | .update t _ _ => [(.update, t)]
  | .updateColumns _ _ _ => [(.update, .stripeEvents)]
  | .upsertStatus _ => [(.insert, .stripeEvents), (.update, .stripeEvents)]
  | .delete t _ => [(.delete, t)]
  | .truncate ts => ts.map fun t => (.truncate, t)
  | .ddl _ => []

/-- The statement writes. -/
def Command.writes : Command → Bool
  | .select _ => false
  | _ => true

/-- A grant is held by itself, or through the whole table. -/
def Catalog.holds (c : Catalog) (g : Grant) : Bool :=
  g ∈ c.grants || ⟨g.privilege, g.table, none⟩ ∈ c.grants

/-- The privilege check.  The owner passes it, and only the owner may change the schema. -/
def Catalog.permits (c : Catalog) (role : Role) (cmd : Command) : Bool :=
  match role, cmd with
  | .owner, _ => true
  | .ledgerApp, .ddl _ => false
  | .ledgerApp, cmd => cmd.needs.all c.holds

/-- Why a statement is refused. -/
inductive Refusal
  | insufficientPrivilege
  | readOnlyTransaction
  /-- `ledger is append-only: % on % is forbidden`. -/
  | appendOnly (op : Operation) (t : Table)
  /-- A key or a foreign key. -/
  | constraint
  deriving DecidableEq, Repr

/-! ## The database -/

/-- The catalog, the accounts, the committed write sets of the ledger, and the event log. -/
structure Database where
  catalog : Catalog
  chart : Chart
  history : List Ledger
  events : EventLog

/-- What an open transaction sees, and the rows it has inserted into the ledger. -/
structure Session where
  db : Database
  writes : Ledger

/-- The columns that are assigned, taken from `new`. -/
def assignColumns (columns : List Column) (old new : EventRow) : EventRow where
  id := if .id ∈ columns then new.id else old.id
  eventType := if .eventType ∈ columns then new.eventType else old.eventType
  objectId := if .objectId ∈ columns then new.objectId else old.objectId
  payload := if .payload ∈ columns then new.payload else old.payload
  status := if .status ∈ columns then new.status else old.status

/-- The two keys of `stripe_events`. -/
def Keyed (events : EventLog) : Prop :=
  (events.map (·.id)).Nodup ∧ events.Pairwise fun r s =>
    (decide (r.eventType = s.eventType) && sqlEq r.objectId s.objectId) = false

instance (events : EventLog) : Decidable (Keyed events) := inferInstanceAs (Decidable (_ ∧ _))

namespace Session

/-- The event log after a statement, unless a key is violated. -/
def withEvents (s : Session) (events : EventLog) : Except Refusal Session :=
  if Keyed events then .ok { s with db := { s.db with events := events } } else .error .constraint

/-- The accounts after a statement, unless a key is violated or a name cannot be stored. -/
def withAccounts (s : Session) (accounts : List Account) : Except Refusal Session :=
  if h : (accounts.map (·.id)).Nodup ∧ (accounts.map (·.name)).Nodup ∧
      ∀ a ∈ accounts, NulFree a.name then
    .ok { s with db := { s.db with chart := ⟨accounts, h.1, h.2.1, h.2.2⟩ } }
  else .error .constraint

/-- The ledger after a statement on rows that may be there already. -/
def mapLedger (s : Session) (f : Ledger → Ledger) : Session :=
  ⟨{ s.db with history := s.db.history.map f }, f s.writes⟩

/-- `INSERT`. -/
def insert (s : Session) : (t : Table) → List t.Row → Except Refusal Session
  | .accounts, rows => s.withAccounts (s.db.chart.accounts ++ rows)
  | .transactions, rows => .ok { s with writes := s.writes.append ⟨rows, []⟩ }
  | .entries, rows => .ok { s with writes := s.writes.append ⟨[], rows⟩ }
  | .stripeEvents, rows => s.withEvents (s.db.events ++ rows)

/-- `UPDATE`. -/
def update (s : Session) : (t : Table) → (t.Row → t.Row) → (t.Row → Bool) → Except Refusal Session
  | .accounts, set, p => s.withAccounts (s.db.chart.accounts.map fun a => if p a then set a else a)
  | .transactions, set, p => .ok <| s.mapLedger fun L =>
      { L with transactions := L.transactions.map fun r => if p r then set r else r }
  | .entries, set, p => .ok <| s.mapLedger fun L =>
      { L with entries := L.entries.map fun r => if p r then set r else r }
  | .stripeEvents, set, p => s.withEvents (s.db.events.map fun r => if p r then set r else r)

/-- `DELETE`. -/
def delete (s : Session) : (t : Table) → (t.Row → Bool) → Except Refusal Session
  | .accounts, p => s.withAccounts (s.db.chart.accounts.filter fun a => ¬ p a)
  | .transactions, p => .ok <| s.mapLedger fun L =>
      { L with transactions := L.transactions.filter fun r => ¬ p r }
  | .entries, p => .ok <| s.mapLedger fun L => { L with entries := L.entries.filter fun r => ¬ p r }
  | .stripeEvents, p => s.withEvents (s.db.events.filter fun r => ¬ p r)

/-- A statement that passed the privilege check and the triggers. -/
def effect (s : Session) : Command → Except Refusal Session
  | .select _ => .ok s
  | .insert t rows => s.insert t rows
  | .update t set p => s.update t set p
  | .updateColumns columns set p =>
      s.withEvents (s.db.events.map fun r => if p r then assignColumns columns r (set r) else r)
  | .upsertStatus row =>
      if s.db.events.hasId row.id then s.withEvents (s.db.events.setStatus row.id row.status)
      else s.withEvents (s.db.events ++ [row])
  | .delete t p => s.delete t p
  | .truncate ts =>
      -- a table is not truncated without the one that refers to it
      if (.accounts ∈ ts ∨ .transactions ∈ ts) ∧ .entries ∉ ts then .error .constraint
      else ts.foldlM (fun s t => s.delete t fun _ => true) s
  | .ddl d => .ok { s with db := { s.db with catalog := d.run s.db.catalog } }

/-- One statement: the privileges, the mode of the transaction, the statement triggers, the rows. -/
def exec (role : Role) (readOnly : Bool) (s : Session) (cmd : Command) : Except Refusal Session :=
  if ¬ s.db.catalog.permits role cmd then .error .insufficientPrivilege
  else if readOnly && cmd.writes then .error .readOnlyTransaction
  else
    match cmd.operations.find? (· ∈ s.db.catalog.forbidden) with
    | some (op, t) => .error (.appendOnly op t)
    | none => s.effect cmd

end Session

/-- A transaction: who runs it, `conn.read_only`, its statements, and what the queries of its
deferred triggers see. -/
structure Txn where
  role : Role
  readOnly : Bool
  commands : List Command
  balancedSees : ℕ → ℕ → Bool
  minEntriesSees : ℕ → ℕ → Bool

namespace Database

/-- A database that was just migrated. -/
def fresh (chart : Chart) : Database := ⟨migrated, chart, [], []⟩

/-- The rows of the ledger. -/
def ledger (db : Database) : Ledger := committed db.history

/-- One transaction.  It commits if no statement is refused and the checks at `COMMIT` pass. -/
def transact (db : Database) (t : Txn) : Database :=
  match t.commands.foldlM (Session.exec t.role t.readOnly) ⟨db, .empty⟩ with
  | .error _ => db
  | .ok s =>
      if (⟨s.writes, t.balancedSees, t.minEntriesSees⟩ : Commit).Accepted s.db.chart
          s.db.history then
        { s.db with history := s.db.history ++ [s.writes] }
      else db

/-- A run of transactions. -/
def run (db : Database) (ts : List Txn) : Database := ts.foldl transact db

end Database

/-- The statement leaves the schema and the chart of accounts alone. -/
def Command.Ordinary : Command → Prop
  | .ddl _ => False
  | .insert t _ => t ≠ .accounts
  | .update t _ _ => t ≠ .accounts
  | .delete t _ => t ≠ .accounts
  | .truncate ts => .accounts ∉ ts
  | _ => True

/-- A transaction of `ledger_app`, whatever it tries, or one of ordinary statements. -/
def Txn.Ordinary (t : Txn) : Prop := t.role = .ledgerApp ∨ ∀ c ∈ t.commands, c.Ordinary

/-! ## What a statement may do -/

lemma migrated_grants : migrated.grants =
    [⟨.select, .accounts, none⟩, ⟨.select, .transactions, none⟩, ⟨.select, .entries, none⟩,
      ⟨.insert, .transactions, none⟩, ⟨.insert, .entries, none⟩, ⟨.select, .stripeEvents, none⟩,
      ⟨.insert, .stripeEvents, none⟩, ⟨.update, .stripeEvents, some .status⟩] := by
  decide

lemma migrated_forbidden : migrated.forbidden =
    [(.update, .entries), (.delete, .entries), (.update, .transactions), (.delete, .transactions),
      (.truncate, .entries), (.truncate, .transactions)] := by
  decide

/-- **What `ledger_app` holds**: it reads, it inserts rows that are not accounts, and of what is
there it changes the status of an event. -/
lemma holds_migrated {g : Grant} (h : migrated.holds g = true) :
    g.privilege = .select ∨ (g.privilege = .insert ∧ g.table ≠ .accounts) ∨
      (g.privilege = .update ∧ g.table = .stripeEvents ∧ g.column = some .status) := by
  obtain ⟨p, t, c⟩ := g
  simp only [Catalog.holds, migrated_grants, List.mem_cons, Grant.mk.injEq, List.not_mem_nil,
    or_false, Bool.or_eq_true, decide_eq_true_eq, reduceCtorEq, and_false, and_true] at h
  rcases h with h | h
  · rcases h with h | h | h | h | h | h | h | h <;> obtain ⟨rfl, rfl, rfl⟩ := h <;> simp
  · rcases h with h | h | h | h | h | h | h <;> obtain ⟨rfl, rfl⟩ := h <;> simp

section

variable {s s' : Session} {role : Role} {readOnly : Bool} {cmd : Command} {events : EventLog}

lemma holds_of_permits (h : migrated.permits .ledgerApp cmd = true) {g : Grant}
    (hg : g ∈ cmd.needs) :
    migrated.holds g = true := by
  cases cmd with
  | ddl d => simp [Catalog.permits] at h
  | _ => exact List.all_eq_true.mp h g hg

/-- What `ledger_app` is allowed to send. -/
lemma permits_cases (h : migrated.permits .ledgerApp cmd = true) :
    (∃ t, cmd = .select t) ∨ (∃ t rows, cmd = .insert t rows ∧ t ≠ .accounts) ∨
      (∃ columns set p, cmd = .updateColumns columns set p ∧ ∀ c ∈ columns, c = .status) ∨
      (∃ row, cmd = .upsertStatus row) ∨ cmd = .truncate [] := by
  cases cmd with
  | select t => exact .inl ⟨t, rfl⟩
  | insert t rows =>
      have hgrant := holds_migrated (holds_of_permits h (g := ⟨.insert, t, none⟩)
        (by simp [Command.needs]))
      exact .inr (.inl ⟨t, rows, rfl, by simpa using hgrant⟩)
  | update t set p =>
      have hgrant := holds_migrated (holds_of_permits h (g := ⟨.update, t, none⟩)
        (by simp [Command.needs]))
      simp at hgrant
  | updateColumns columns set p =>
      refine .inr (.inr (.inl ⟨columns, set, p, rfl, fun c hc => ?_⟩))
      have hgrant := holds_migrated (holds_of_permits h (g := ⟨.update, .stripeEvents, some c⟩)
        (List.mem_cons_of_mem _ (List.mem_map_of_mem hc)))
      simpa using hgrant
  | upsertStatus row => exact .inr (.inr (.inr (.inl ⟨row, rfl⟩)))
  | delete t p =>
      have hgrant := holds_migrated (holds_of_permits h (g := ⟨.delete, t, none⟩)
        (by simp [Command.needs]))
      simp at hgrant
  | truncate ts =>
      cases ts with
      | nil => exact .inr (.inr (.inr (.inr rfl)))
      | cons t ts =>
          have hgrant := holds_migrated (holds_of_permits h (g := ⟨.truncate, t, none⟩)
            (by simp [Command.needs]))
          simp at hgrant
  | ddl d => simp [Catalog.permits] at h

/-- The statement left the catalog, the accounts and the committed rows of the ledger as they
are. -/
structure Session.Frame (s s' : Session) : Prop where
  catalog : s'.db.catalog = s.db.catalog
  chart : s'.db.chart = s.db.chart
  history : s'.db.history = s.db.history

lemma Session.Frame.refl (s : Session) : s.Frame s := ⟨rfl, rfl, rfl⟩

lemma Session.Frame.trans {s'' : Session} (h : s.Frame s') (h' : s'.Frame s'') : s.Frame s'' :=
  ⟨h'.catalog.trans h.catalog, h'.chart.trans h.chart, h'.history.trans h.history⟩

lemma Session.withEvents_ok (h : s.withEvents events = .ok s') :
    s' = { s with db := { s.db with events := events } } := by
  unfold Session.withEvents at h
  split_ifs at h
  exact (Except.ok.inj h).symm

lemma Session.frame_withEvents (h : s.withEvents events = .ok s') : s.Frame s' := by
  rw [Session.withEvents_ok h]
  exact ⟨rfl, rfl, rfl⟩

lemma Session.frame_insert {t : Table} {rows : List t.Row} (ht : t ≠ .accounts)
    (h : s.insert t rows = .ok s') : s.Frame s' := by
  cases t with
  | accounts => exact absurd rfl ht
  | transactions =>
      rw [← Except.ok.inj h]
      exact ⟨rfl, rfl, rfl⟩
  | entries =>
      rw [← Except.ok.inj h]
      exact ⟨rfl, rfl, rfl⟩
  | stripeEvents => exact Session.frame_withEvents h

lemma Session.frame_truncate {ts : List Table} (hts : ∀ t ∈ ts, t = .stripeEvents)
    (h : ts.foldlM (fun s t => s.delete t fun _ => true) s = .ok s') : s.Frame s' := by
  induction ts generalizing s with
  | nil =>
      obtain rfl : s = s' := Except.ok.inj h
      exact .refl s
  | cons t ts ih =>
      obtain ⟨rfl, hall⟩ := List.forall_mem_cons.mp hts
      rw [List.foldlM_cons] at h
      obtain ⟨s₁, h₁, hrest⟩ := except_bind_eq_ok.mp h
      exact (Session.frame_withEvents h₁).trans (ih hall hrest)

/-- A statement that is not refused had the privileges, fired no trigger, and took effect. -/
lemma Session.exec_ok (h : s.exec role readOnly cmd = .ok s') :
    s.db.catalog.permits role cmd = true ∧ (readOnly && cmd.writes) = false ∧
      (∀ f ∈ cmd.operations, f ∉ s.db.catalog.forbidden) ∧ s.effect cmd = .ok s' := by
  unfold Session.exec at h
  split_ifs at h with hperm hread
  split at h
  · simp at h
  · rename_i hnone
    refine ⟨by simpa using hperm, by simpa using hread, fun f hf => ?_, h⟩
    simpa using List.find?_eq_none.mp hnone f hf

/-- **What `ledger_app` does to the rest of the database with one statement**: nothing. -/
lemma Session.frame_of_app (hcat : s.db.catalog = migrated)
    (h : s.exec .ledgerApp readOnly cmd = .ok s') :
    s.Frame s' := by
  obtain ⟨hperm, -, -, heff⟩ := Session.exec_ok h
  rw [hcat] at hperm
  rcases permits_cases hperm with ⟨t, rfl⟩ | ⟨t, rows, rfl, ht⟩ | ⟨columns, set, p, rfl, -⟩ | ⟨row,
    rfl⟩ | rfl
  · obtain rfl : s = s' := Except.ok.inj heff
    exact .refl s
  · exact Session.frame_insert ht heff
  · exact Session.frame_withEvents heff
  · simp only [Session.effect] at heff
    split_ifs at heff
    · exact Session.frame_withEvents heff
    · exact Session.frame_withEvents heff
  · obtain rfl : s = s' := Except.ok.inj heff
    exact .refl s

/-- **An ordinary statement**, whoever sends it: the triggers refuse what the privileges do not. -/
lemma Session.frame_of_ordinary (hcat : s.db.catalog = migrated) (hcmd : cmd.Ordinary)
    (h : s.exec role readOnly cmd = .ok s') : s.Frame s' := by
  obtain ⟨-, -, hfire, heff⟩ := Session.exec_ok h
  rw [hcat, migrated_forbidden] at hfire
  cases cmd with
  | select t =>
      obtain rfl : s = s' := Except.ok.inj heff
      exact .refl s
  | insert t rows => exact Session.frame_insert hcmd heff
  | update t set p =>
      cases t with
      | accounts => exact absurd rfl hcmd
      | stripeEvents => exact Session.frame_withEvents heff
      | _ => simp [Command.operations] at hfire
  | updateColumns columns set p => exact Session.frame_withEvents heff
  | upsertStatus row =>
      simp only [Session.effect] at heff
      split_ifs at heff
      · exact Session.frame_withEvents heff
      · exact Session.frame_withEvents heff
  | delete t p =>
      cases t with
      | accounts => exact absurd rfl hcmd
      | stripeEvents => exact Session.frame_withEvents heff
      | _ => simp [Command.operations] at hfire
  | truncate ts =>
      have hts : ∀ t ∈ ts, t = .stripeEvents := by
        intro t ht
        have hfree := hfire (.truncate, t) (List.mem_map_of_mem ht)
        cases t with
        | accounts => exact absurd ht hcmd
        | stripeEvents => rfl
        | _ => simp at hfree
      simp only [Session.effect] at heff
      split_ifs at heff
      exact Session.frame_truncate hts heff
  | ddl d => exact hcmd.elim

/-! ## Transactions -/

lemma Session.frame_commands {commands : List Command} (hcat : s.db.catalog = migrated)
    (hord : role = .ledgerApp ∨ ∀ c ∈ commands, c.Ordinary)
    (h : commands.foldlM (Session.exec role readOnly) s = .ok s') : s.Frame s' := by
  induction commands generalizing s with
  | nil =>
      obtain rfl : s = s' := Except.ok.inj h
      exact .refl s
  | cons cmd commands ih =>
      rw [List.foldlM_cons] at h
      obtain ⟨s₁, h₁, hrest⟩ := except_bind_eq_ok.mp h
      have hone : s.Frame s₁ := by
        rcases hord with rfl | hord
        · exact Session.frame_of_app hcat h₁
        · exact Session.frame_of_ordinary hcat (hord cmd (by simp)) h₁
      refine hone.trans (ih (hone.catalog.trans hcat) ?_ hrest)
      exact hord.imp id fun hord c hc => hord c (by simp [hc])

end

namespace Database

variable {db : Database} {t : Txn} {chart : Chart}

/-- **What an ordinary transaction does to the ledger**: it commits a write set that the checks at
`COMMIT` accept, or leaves it alone. -/
lemma transact_spec (hcat : db.catalog = migrated) (hord : t.Ordinary) :
    (db.transact t).catalog = migrated ∧ (db.transact t).chart = db.chart ∧
      ((db.transact t).history = db.history ∨
        ∃ c, (db.transact t).history = commitStep db.chart db.history c) := by
  unfold transact
  cases hrun : t.commands.foldlM (Session.exec t.role t.readOnly) ⟨db, .empty⟩ with
  | error err => exact ⟨hcat, rfl, .inl rfl⟩
  | ok s =>
      have hframe : Session.Frame ⟨db, .empty⟩ s := Session.frame_commands hcat hord hrun
      dsimp only
      split_ifs with hacc
      · refine ⟨hframe.catalog.trans hcat, hframe.chart,
          .inr ⟨⟨s.writes, t.balancedSees, t.minEntriesSees⟩, ?_⟩⟩
        rw [hframe.chart, hframe.history] at hacc
        rw [commitStep, if_pos hacc, ← hframe.history]
      · exact ⟨hcat, rfl, .inl rfl⟩

/-- The schema is as migrated, and the ledger is what a run of committed write sets leaves. -/
structure Kept (chart : Chart) (db : Database) : Prop where
  catalog : db.catalog = migrated
  accounts : db.chart = chart
  history : ∃ cs, db.history = commitRun chart cs

lemma kept_fresh (chart : Chart) : (fresh chart).Kept chart := ⟨rfl, rfl, [], rfl⟩

lemma Kept.transact (h : db.Kept chart) (hord : t.Ordinary) : (db.transact t).Kept chart := by
  obtain ⟨hcat, hchart, hhist⟩ := transact_spec h.catalog hord
  refine ⟨hcat, hchart.trans h.accounts, ?_⟩
  obtain ⟨cs, hcs⟩ := h.history
  rcases hhist with heq | ⟨c, hc⟩
  · exact ⟨cs, heq.trans hcs⟩
  · refine ⟨cs ++ [c], ?_⟩
    rw [hc, hcs, h.accounts, commitRun, commitRun, List.foldl_append]
    rfl

lemma Kept.run (h : db.Kept chart) {ts : List Txn} (hts : ∀ t ∈ ts, t.Ordinary) :
    (db.run ts).Kept chart := by
  refine List.foldlRecOn ts Database.transact (motive := Kept chart) h ?_
  intro db' h' t ht
  exact h'.transact (hts t ht)

lemma history_prefix (h : db.Kept chart) {ts : List Txn} (hts : ∀ t ∈ ts, t.Ordinary) :
    db.history <+: (db.run ts).history := by
  induction ts generalizing db with
  | nil => exact List.prefix_refl _
  | cons t ts ih =>
      obtain ⟨hord, hrest⟩ := List.forall_mem_cons.mp hts
      refine List.IsPrefix.trans ?_ (ih (h.transact hord) hrest)
      rcases (transact_spec h.catalog hord).2.2 with heq | ⟨c, hc⟩
      · rw [heq]
      · rw [hc, commitStep]
        split_ifs
        · exact List.prefix_append _ _
        · exact List.prefix_refl _

end Database

lemma committed_prefix {history history' : List Ledger} (h : history <+: history') :
    (committed history).transactions <+: (committed history').transactions ∧
      (committed history).entries <+: (committed history').entries := by
  obtain ⟨more, rfl⟩ := h
  have hsplit : committed (history ++ more) = (committed history).append (committed more) := by
    rw [committed, List.foldl_append, foldl_append_eq]
    rfl
  rw [hsplit]
  exact ⟨List.prefix_append _ _, List.prefix_append _ _⟩

/-- **The ledger is append-only, and stays balanced.**  On a migrated database, after any
transactions of `ledger_app` (whatever it tries of the statements of `Command`) and any of the owner
that leave the schema and the accounts alone: every row that was ever committed to the ledger is
still there, unchanged and in its place, the accounts are the seeded ones, and the ledger is one
that the schema admits, with difference `0` in every currency. -/
theorem append_only (chart : Chart) (ts ts' : List Txn) (hord : ∀ t ∈ ts ++ ts', t.Ordinary) :
    let db := (Database.fresh chart).run ts
    let db' := db.run ts'
    db.ledger.transactions <+: db'.ledger.transactions ∧ db.ledger.entries <+: db'.ledger.entries ∧
      db'.chart = chart ∧ db'.ledger.Admitted chart ∧
        ∀ c ∈ (check chart db'.ledger).perCurrency, c.difference = 0 := by
  intro db db'
  have hkept : db.Kept chart := (Database.kept_fresh chart).run fun t ht =>
    hord t (List.mem_append_left _ ht)
  have hrest : ∀ t ∈ ts', t.Ordinary := fun t ht => hord t (List.mem_append_right _ ht)
  have hkept' : db'.Kept chart := hkept.run hrest
  obtain ⟨htxns, hentries⟩ := committed_prefix (Database.history_prefix hkept hrest)
  obtain ⟨cs, hcs⟩ := hkept'.history
  have hadmitted : db'.ledger.Admitted chart := by
    rw [Database.ledger, hcs]
    exact commitRun_admitted chart cs
  exact ⟨htxns, hentries, hkept'.accounts, hadmitted, fun c hc =>
    hadmitted.check_difference_eq_zero hc⟩

/-- One payment, as `ledger_app` posts it. -/
def samplePosting : Txn where
  role := .ledgerApp
  readOnly := false
  commands := [.insert .transactions [⟨"u1", some "evt_1", some "ch_1", some "charge.succeeded", 0,
    none⟩], .insert .entries [⟨"u1", 1, .debit, 970, usd⟩, ⟨"u1", 3, .debit, 30, usd⟩,
      ⟨"u1", 6, .credit, 1000, usd⟩]]
  balancedSees := fun _ _ => true
  minEntriesSees := fun _ _ => true

/-- `ledger_app` tries to disarm the triggers and to raise the amounts. -/
def sampleTampering : Txn where
  role := .ledgerApp
  readOnly := false
  commands := [.ddl (.disableTriggers .entries),
    .update .entries (fun e => { e with amountMinor := 5 }) fun _ => true]
  balancedSees := fun _ _ => true
  minEntriesSees := fun _ _ => true

/-- The owner tries to delete entries. -/
def sampleDeletion : Txn where
  role := .owner
  readOnly := false
  commands := [.delete .entries fun e => e.accountId = 3]
  balancedSees := fun _ _ => true
  minEntriesSees := fun _ _ => true

theorem append_only_sample :
    let db := (Database.fresh seedChart).run [samplePosting]
    let db' := db.run [sampleTampering, sampleDeletion]
    db.ledger.transactions <+: db'.ledger.transactions ∧ db.ledger.entries <+: db'.ledger.entries ∧
      db'.chart = seedChart ∧ db'.ledger.Admitted seedChart ∧
        ∀ c ∈ (check seedChart db'.ledger).perCurrency, c.difference = 0 := by
  refine append_only seedChart [samplePosting] [sampleTampering, sampleDeletion] fun t ht => ?_
  simp only [List.cons_append, List.nil_append, List.mem_cons, List.not_mem_nil, or_false] at ht
  rcases ht with rfl | rfl | rfl
  · exact .inl rfl
  · exact .inl rfl
  · refine .inr fun c hc => ?_
    obtain rfl := List.mem_singleton.mp hc
    simp [Command.Ordinary]

/-- The posting of the sample does commit, and the two attempts on it are refused. -/
example : ((Database.fresh seedChart).run [samplePosting, sampleTampering,
    sampleDeletion]).ledger.entries =
    [⟨"u1", 1, .debit, 970, usd⟩, ⟨"u1", 3, .debit, 30, usd⟩, ⟨"u1", 6, .credit, 1000, usd⟩] := by
  decide

/-! ## The event log -/

/-- What a row of `stripe_events` records of its event. -/
def recorded (r : EventRow) :
    String × String × Option String × Event := (r.id, r.eventType, r.objectId, r.payload)

section

variable {s s' : Session} {readOnly : Bool} {cmd : Command} {events : EventLog}

lemma map_recorded_update {p : EventRow → Bool} {set : EventRow → EventRow}
    (hset : ∀ r, recorded (set r) = recorded r) :
    (events.map fun r => if p r then set r else r).map recorded = events.map recorded := by
  rw [List.map_map]
  refine List.map_congr_left fun r _ => ?_
  simp only [Function.comp_apply]
  split
  · exact hset r
  · rfl

lemma map_recorded_setStatus (id : String) (st : Status) :
    (events.setStatus id st).map recorded = events.map recorded :=
  map_recorded_update fun _ => rfl

lemma recorded_assignColumns {columns : List Column} (h : ∀ c ∈ columns, c = .status)
    (old new : EventRow) :
    recorded (assignColumns columns old new) = recorded old := by
  have hout : ∀ c, c ≠ .status → c ∉ columns := fun c hc hmem => hc (h c hmem)
  simp [recorded, assignColumns, hout]

/-- **What `ledger_app` does to the event log with one statement**: rows are added, and of those
that are there the statuses may change. -/
lemma Session.recorded_of_app (hcat : s.db.catalog = migrated)
    (h : s.exec .ledgerApp readOnly cmd = .ok s') :
    s.db.events.map recorded <+: s'.db.events.map recorded := by
  obtain ⟨hperm, -, -, heff⟩ := Session.exec_ok h
  rw [hcat] at hperm
  rcases permits_cases hperm with ⟨t, rfl⟩ | ⟨t, rows, rfl, ht⟩ | ⟨columns, set, p, rfl,
    hcols⟩ | ⟨row, rfl⟩ | rfl
  · obtain rfl : s = s' := Except.ok.inj heff
    exact List.prefix_refl _
  · cases t with
    | accounts => exact absurd rfl ht
    | stripeEvents =>
        rw [Session.withEvents_ok heff, List.map_append]
        exact List.prefix_append _ _
    | _ =>
        rw [← Except.ok.inj heff]
  · rw [Session.withEvents_ok heff]
    dsimp only
    rw [map_recorded_update fun r => recorded_assignColumns hcols r (set r)]
  · simp only [Session.effect] at heff
    split_ifs at heff
    · rw [Session.withEvents_ok heff, map_recorded_setStatus]
    · rw [Session.withEvents_ok heff, List.map_append]
      exact List.prefix_append _ _
  · obtain rfl : s = s' := Except.ok.inj heff
    exact List.prefix_refl _

lemma Session.recorded_commands {commands : List Command} (hcat : s.db.catalog = migrated)
    (h : commands.foldlM (Session.exec .ledgerApp readOnly) s = .ok s') :
    s.db.events.map recorded <+: s'.db.events.map recorded := by
  induction commands generalizing s with
  | nil =>
      obtain rfl : s = s' := Except.ok.inj h
      exact List.prefix_refl _
  | cons cmd commands ih =>
      rw [List.foldlM_cons] at h
      obtain ⟨s₁, h₁, hrest⟩ := except_bind_eq_ok.mp h
      have hcat₁ : s₁.db.catalog = migrated := (Session.frame_of_app hcat h₁).catalog.trans hcat
      exact (Session.recorded_of_app hcat h₁).trans (ih hcat₁ hrest)

end

namespace Database

variable {db : Database} {t : Txn} {chart : Chart}

lemma recorded_transact (hcat : db.catalog = migrated) (happ : t.role = .ledgerApp) :
    db.events.map recorded <+: (db.transact t).events.map recorded := by
  unfold transact
  rw [happ]
  cases hrun : t.commands.foldlM (Session.exec .ledgerApp t.readOnly) ⟨db, .empty⟩ with
  | error err => exact List.prefix_refl _
  | ok s =>
      dsimp only
      split_ifs
      · exact Session.recorded_commands (s := ⟨db, .empty⟩) hcat hrun
      · exact List.prefix_refl _

lemma recorded_run (hcat : db.catalog = migrated) {ts : List Txn}
    (hts : ∀ t ∈ ts, t.role = .ledgerApp) :
    db.events.map recorded <+: (db.run ts).events.map recorded := by
  induction ts generalizing db with
  | nil => exact List.prefix_refl _
  | cons t ts ih =>
      obtain ⟨happ, hrest⟩ := List.forall_mem_cons.mp hts
      have hcat' : (db.transact t).catalog = migrated := (transact_spec hcat (.inl happ)).1
      exact (recorded_transact hcat happ).trans (ih hcat' hrest)

end Database

/-- **The application cannot rewrite what it received.**  On any database with the migrated catalog,
whatever its rows are, through any transactions of `ledger_app`, with any of these statements, every
row of the event log keeps its place, id, event type, object id and payload; what `ledger_app` can
change of it is its status. -/
theorem event_columns_immutable (db : Database) (ts : List Txn) (hcat : db.catalog = migrated)
    (happ : ∀ t ∈ ts, t.role = .ledgerApp) :
    db.events.map recorded <+: (db.run ts).events.map recorded :=
  Database.recorded_run hcat happ

/-- A delivery that `ledger_app` records. -/
def sampleRecording : Txn where
  role := .ledgerApp
  readOnly := false
  commands := [.insert .stripeEvents
    [⟨"evt_1", "payout.paid", some "po_1", ⟨"evt_1", "payout.paid", []⟩, .received⟩]]
  balancedSees := fun _ _ => true
  minEntriesSees := fun _ _ => true

/-- `ledger_app` advances the status of every row, and tries to move the rows to another event
type. -/
def sampleRewriting (columns : List Column) : Txn where
  role := .ledgerApp
  readOnly := false
  commands := [.updateColumns columns
    (fun r => { r with eventType := "charge.succeeded", status := .processed }) fun _ => true]
  balancedSees := fun _ _ => true
  minEntriesSees := fun _ _ => true

theorem event_columns_immutable_sample :
    let db := (Database.fresh seedChart).run [sampleRecording]
    db.events.map recorded <+:
      (db.run [sampleRewriting [.status], sampleRewriting [.eventType]]).events.map recorded := by
  refine event_columns_immutable _ _ (by decide) fun t ht => ?_
  simp only [List.mem_cons, List.not_mem_nil, or_false] at ht
  rcases ht with rfl | rfl
  · rfl
  · rfl

/-- Before 004 the second attempt succeeds. -/
example :
    let db : Database := ⟨catalogAfter (ledgerMigration ++ stripeEventsMigration), seedChart, [],
      []⟩
    (db.run [sampleRecording, sampleRewriting [.eventType]]).events.map (·.eventType) =
      ["charge.succeeded"] := by
  decide

end LedgerProof.Grants
