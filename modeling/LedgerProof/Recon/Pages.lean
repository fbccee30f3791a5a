import LedgerProof.Recon.Reconciler

/-!
# Paging through the balance transactions

`_iter_balance_transactions` asks for one page after the other, with the id of the last item it has
read as the cursor, until a page says that nothing is left, is empty, or ends in a cursor that was
used before.

The server is any function of its own state and the request's parameters.  `serveList` is the server
of Stripe's contract: a fixed list, of which it returns up to `limit` items after the cursor.
`iterLoop_serveList` says that paging through it, with any page size, is the list.  Against any
other server the cursors are all different, so there are no more requests than ids
(`iterLoop_stops`).
-/

namespace LedgerProof

/-- The `params` of a request. -/
structure PageParams where
  limit : ℕ
  createdGte : Option ℤ
  startingAfter : Option String
  deriving DecidableEq, Repr

/-- What is read of a page: `page.get("data") or []`, and whether `page.get("has_more")` is true. -/
structure Page where
  data : List ListedTransaction
  hasMore : Bool

/-- `client.get("/v1/balance_transactions", params)`. -/
abbrev PageServer (σ : Type) := σ → PageParams → Page × σ

section

variable {σ : Type} (get : PageServer σ) (limit : ℕ) (createdGte : Option ℤ)

/-- The loop of `_iter_balance_transactions`, for the requests the first argument allows: `none`
when it would make one more. -/
def iterLoop : ℕ → σ → Option String → List String → Option (List ListedTransaction)
  | 0, _, _, _ => none
  | requests + 1, s, cursor, seenCursors =>
      let (page, s) := get s ⟨limit, createdGte, cursor⟩
      if !page.hasMore || page.data.isEmpty then some page.data
      else
        match page.data.getLast?.bind (·.id) with
        | none => some page.data
        | some cursor =>
            if cursor ∈ seenCursors then some page.data
            else (iterLoop requests s (some cursor) (cursor :: seenCursors)).map (page.data ++ ·)

/-- `_iter_balance_transactions`, read to its end with at most so many requests. -/
def iterBalanceTransactions (requests : ℕ) (s : σ) : Option (List ListedTransaction) :=
  iterLoop get limit createdGte requests s none []

/-- `reconcile_stripe` with a client.  Pages are read as the loop over their items goes on; an item
that makes the loop raise makes it raise whatever pages come after it. -/
def reconcileStripeWith (chart : Chart) (L : Ledger) (requests : ℕ) (s : σ) :
    Option (Except PyError ReconResult) :=
  (iterBalanceTransactions get limit createdGte requests s).map fun bts =>
    reconcileStripe chart L bts createdGte

end

/-! ## A server of a fixed list -/

/-- The items after the cursor. -/
def afterCursor (bts : List ListedTransaction) : Option String → List ListedTransaction
  | none => bts
  | some c => (bts.dropWhile (·.id ≠ some c)).tail

/-- The items after `starting_after`, `limit` of them, and `has_more` when there are others. -/
def serveList (bts : List ListedTransaction) : PageServer Unit := fun s p =>
  let rest := afterCursor bts p.startingAfter
  (⟨rest.take p.limit, p.limit < rest.length⟩, s)

section

variable {bts : List ListedTransaction} {limit : ℕ} {createdGte : Option ℤ}

lemma afterCursor_append {pre post : List ListedTransaction} {b : ListedTransaction} {c : String}
    (hid : b.id = some c) (hpre : ∀ b' ∈ pre, b'.id ≠ some c) :
    afterCursor (pre ++ b :: post) (some c) = post := by
  rw [afterCursor, List.dropWhile_append_of_pos (by simpa using hpre),
    List.dropWhile_cons_of_neg (by simp [hid]), List.tail_cons]

/-- **Paging is complete**: from any point of the list on the loop yields what is left of it. -/
lemma iterLoop_serveList (hlimit : 1 ≤ limit) (hids : (bts.map (·.id)).Nodup)
    (hstr : ∀ b ∈ bts, b.id.isSome = true) {requests : ℕ} {done rest : List ListedTransaction}
    {cursor : Option String} {seen : List String} (hbts : bts = done ++ rest)
    (hcursor : afterCursor bts cursor = rest) (hseen : ∀ c ∈ seen, some c ∈ done.map (·.id))
    (hfuel : rest.length < requests) :
    iterLoop (serveList bts) limit createdGte requests () cursor seen = some rest := by
  induction requests generalizing done rest cursor seen with
  | zero => omega
  | succ requests ih =>
      rw [iterLoop]
      simp only [serveList, hcursor]
      by_cases hmore : limit < rest.length
      · -- the page ends in an item with an id that was not seen before
        obtain ⟨init, b, hpage⟩ : ∃ init b, rest.take limit = init ++ [b] := by
          have hne : rest.take limit ≠ [] := by
            rw [← List.length_pos_iff, List.length_take]
            omega
          exact ⟨_, _, (List.dropLast_append_getLast hne).symm⟩
        have hread : bts = (done ++ rest.take limit) ++ rest.drop limit := by
          rw [List.append_assoc, List.take_append_drop, hbts]
        have hsplit : bts = (done ++ init) ++ b :: rest.drop limit := by
          rw [hread, hpage]
          simp
        obtain ⟨c, hc⟩ := Option.isSome_iff_exists.mp (hstr b (by rw [hsplit]; simp))
        have hbefore : some c ∉ (done ++ init).map (·.id) := by
          rw [hsplit, List.map_append, List.map_cons, hc] at hids
          exact fun hmem => List.disjoint_of_nodup_append hids hmem (by simp)
        have hnew : c ∉ seen := fun hmem => hbefore (by
          rw [List.map_append]
          exact List.mem_append_left _ (hseen c hmem))
        have hnext : afterCursor bts (some c) = rest.drop limit := by
          rw [hsplit]
          exact afterCursor_append hc fun b' hb' h => hbefore (List.mem_map.mpr ⟨b', hb', h⟩)
        have hlast : (rest.take limit).getLast?.bind (·.id) = some c := by
          rw [hpage, List.getLast?_concat, Option.bind_some, hc]
        have hnonempty : (rest.take limit).isEmpty = false := by simp [hpage]
        rw [hlast, hnonempty]
        simp only [hmore, decide_true, Bool.not_true, Bool.or_self, Bool.false_eq_true, if_false,
          hnew]
        rw [ih hread hnext ?_ (by rw [List.length_drop]; omega), Option.map_some,
          List.take_append_drop]
        intro c' hc'
        rcases List.mem_cons.mp hc' with rfl | hc'
        · rw [hpage]
          simp [hc]
        · rw [List.map_append]
          exact List.mem_append_left _ (hseen c' hc')
      · simp only [hmore, decide_false, Bool.not_false, Bool.true_or, if_true]
        rw [List.take_of_length_le (by omega)]

end

/-! ## Any server -/

section

variable {σ : Type} {get : PageServer σ} {limit : ℕ} {createdGte : Option ℤ} {ids : Finset String}

/-- **Paging ends.**  Every request but the last has a cursor that was not seen before, so there is
room for as many as there are ids that were not. -/
lemma iterLoop_stops (hids : ∀ s p, ∀ b ∈ (get s p).1.data, ∀ c, b.id = some c → c ∈ ids)
    {requests : ℕ} {s : σ} {cursor : Option String} {seen : List String} (hnd : seen.Nodup)
    (hseen : ∀ c ∈ seen, c ∈ ids) (hroom : ids.card < requests + seen.length) :
    ∃ bts, iterLoop get limit createdGte requests s cursor seen = some bts := by
  induction requests generalizing s cursor seen with
  | zero =>
      have hcard : seen.length ≤ ids.card := by
        rw [← List.toFinset_card_of_nodup hnd]
        exact Finset.card_le_card fun c hc => hseen c (List.mem_toFinset.mp hc)
      omega
  | succ requests ih =>
      rw [iterLoop]
      rcases hpage : get s ⟨limit, createdGte, cursor⟩ with ⟨page, s'⟩
      dsimp only
      by_cases hend : (!page.hasMore || page.data.isEmpty) = true
      · rw [if_pos hend]
        exact ⟨_, rfl⟩
      · rw [if_neg hend]
        cases hlast : page.data.getLast?.bind (·.id) with
        | none => exact ⟨_, rfl⟩
        | some c =>
            dsimp only
            by_cases hold : c ∈ seen
            · rw [if_pos hold]
              exact ⟨_, rfl⟩
            · rw [if_neg hold]
              obtain ⟨b, hb, hid⟩ := Option.bind_eq_some_iff.mp hlast
              have hc : c ∈ ids := by
                refine hids s ⟨limit, createdGte, cursor⟩ b ?_ c hid
                rw [hpage]
                exact List.mem_of_getLast? hb
              obtain ⟨bts, hbts⟩ := @ih s' (some c) _ (List.nodup_cons.mpr ⟨hold, hnd⟩)
                (List.forall_mem_cons.mpr ⟨hc, hseen⟩) (by rw [List.length_cons]; omega)
              rw [hbts]
              exact ⟨_, rfl⟩

end

/-- **Paging is complete and always ends.**  Against a server of a fixed list with ids that are
distinct strings, whatever the page size, what is yielded is the list, in its order and each item
once; against any server whose string ids are among `m` ones there are at most `m + 1` requests,
whatever its pages say. -/
theorem pagination_complete_and_ends :
    (∀ (bts : List ListedTransaction) (limit : ℕ) (createdGte : Option ℤ), 1 ≤ limit →
      (bts.map (·.id)).Nodup → (∀ b ∈ bts, b.id.isSome = true) →
      ∀ requests, bts.length < requests →
        iterBalanceTransactions (serveList bts) limit createdGte requests () = some bts) ∧
    ∀ (σ : Type) (get : PageServer σ) (limit : ℕ) (createdGte : Option ℤ) (s : σ)
      (ids : Finset String),
      (∀ s p, ∀ b ∈ (get s p).1.data, ∀ c, b.id = some c → c ∈ ids) →
      ∃ bts, iterBalanceTransactions get limit createdGte (ids.card + 1) s = some bts := by
  refine ⟨fun bts limit createdGte hlimit hids hstr requests hrequests => ?_,
    fun σ get limit createdGte s ids hids => ?_⟩
  · exact iterLoop_serveList hlimit hids hstr (List.nil_append bts).symm rfl (by simp) hrequests
  · exact iterLoop_stops hids List.nodup_nil (by simp) (by simp)

/-- A balance transaction with this id. -/
def listed (id : String) :
    ListedTransaction := ⟨some id, some "charge", .str "ch_1", .int 1000, .int 59⟩

/-- Three items on pages of two; and a page that never changes and always has more is read twice. -/
theorem pagination_complete_and_ends_stuck :
    iterBalanceTransactions (serveList [listed "txn_1", listed "txn_2", listed "txn_3"]) 2 none 4
        () =
        some [listed "txn_1", listed "txn_2", listed "txn_3"] ∧
      ∃ bts, iterBalanceTransactions (fun s (_ : PageParams) => (⟨[listed "txn_1"], true⟩, s)) 100
        none 2 () =
        some bts := by
  refine ⟨pagination_complete_and_ends.1 _ 2 none (by decide) (by decide) (by decide) 4 (by decide),
    ?_⟩
  refine pagination_complete_and_ends.2 Unit _ 100 none () {"txn_1"} ?_
  intro s p b hb c hc
  obtain rfl := List.mem_singleton.mp hb
  exact Finset.mem_singleton.mpr (Option.some_inj.mp hc).symm

end LedgerProof
