import WalletLedger.Sequential.Conservation

/-!
# Postings of any caller

The gate of `post` adds the lines of an aggregate up by the currency they carry.  It looks
neither at their status nor at the currency of their account, and it adds amounts up before
the column has rounded them.

* `postAlone` — a caller that posts an aggregate and commits.
* `Books.settledIn` — the settled balances in a currency, added up.
* `post_conserves_iff` — which accepted aggregates keep these sums; `post_creates_money` is one
  that does not.
-/

namespace WalletLedger

variable {cfg : Config} {s : Store} {b b' : Books}

/-! ## Posting -/

/-- A caller of `post`, to its commit. -/
def postAlone (transaction : TransactionAggregate) (transactionId : Id) : App Unit := do
  LedgerService.post transaction transactionId
  ask .commit
  return ()

/-- The amount of a line as its column keeps it. -/
def PostingLine.stored (line : PostingLine) : Decimal :=
  (Decimal.storeNumeric 28 8 line.amount).getD 0

/-- The line, with this amount. -/
def PostingLine.store (line : PostingLine) : PostingLine := { line with amount := line.stored }

theorem stored_lines_ok {id : Id} {lines : List PostingLine} {u : Unit}
    (h : Returns cfg (Program.forEach lines fun line =>
      ask (.mutate (.insertEntry line.accountId id line.amount line.entryType line.status
        line.currency))) b u b') :
    ∃ es, Posted id (lines.map PostingLine.store) es ∧ b' = b.addEntries es := by
  induction lines generalizing b with
  | nil =>
    obtain ⟨rfl, -⟩ := returns_ret h
    exact ⟨[], ⟨rfl, by simp⟩, by simp [Books.addEntries]⟩
  | cons line lines ih =>
    obtain ⟨_, b₁, h₁, h₂⟩ := returns_bind h
    obtain ⟨seqs, db, w, rfl, hm, rfl⟩ := returns_mutate h₁
    obtain ⟨stored, hs, -, -, rfl⟩ := Mutation.exec_insertEntry hm
    obtain ⟨es, hes, rfl⟩ := ih h₂
    have hstored : line.stored = stored := by
      rw [PostingLine.stored, hs]
      rfl
    refine ⟨⟨seqs.nextId, seqs.nextSeq, line.accountId, id, stored, line.entryType, line.status,
      line.currency⟩ :: es, ⟨?_, ?_⟩, by simp [Books.addEntries, Write.applyBooks]⟩
    · rw [List.map_cons, List.map_cons, hes.lines, PostingLine.store, hstored]
      rfl
    · intro e he
      rcases List.mem_cons.1 he with rfl | he
      · rfl
      · exact hes.transaction e he

/-- What a caller that returns has added to the books. -/
theorem postAlone_books {transaction : TransactionAggregate} {id : Id}
    (hok : (runOn cfg (postAlone transaction id) ⟨s, Session.fresh⟩).1 = .ok ()) :
    ∃ es, Posted id (transaction.lines.map PostingLine.store) es ∧
      (runOn cfg (postAlone transaction id) ⟨s, Session.fresh⟩).2.store.db.books =
        s.db.books.addEntries es := by
  let P : Books → Prop := fun b => ∃ es,
    Posted id (transaction.lines.map PostingLine.store) es ∧ b = s.db.books.addEntries es
  have hcommits : Commits cfg P (postAlone transaction id) s.db.books := by
    refine Commits.bind (quiet_post _ _) fun _ b₁ h => Commits.commit (Program.all_ret ()) ?_
    obtain ⟨_, b₂, h₁, h₂⟩ := returns_bind h
    obtain ⟨rfl, -⟩ := returns_ofExcept h₁
    exact stored_lines_ok h₂
  refine hcommits.run_ok (c := ⟨s, Session.fresh⟩) ?_ rfl (by rw [hok]; rfl)
  exact CommitsFirst.bind (quiet_post _ _) fun _ => CommitsFirst.commit

/-! ## The sums it must keep -/

namespace Books

theorem settledIn_addEntries (hids : (b.accounts.map Account.id).Nodup) (es : List LedgerEntry)
    (c : String) : (b.addEntries es).settledIn c = b.settledIn c +
      tally (fun e => e.status = .success ∧ e.accountId ∈ b.holders c) LedgerEntry.amount es := by
  rw [settledIn_eq hids, settledIn_eq (b := b.addEntries es) hids]
  exact tally_append _ _ _ _

end Books

theorem tally_stored {id : Id} {lines : List PostingLine} {es : List LedgerEntry}
    (h : Posted id (lines.map PostingLine.store) es) (ids : List Id) :
    tally (fun e => e.status = .success ∧ e.accountId ∈ ids) LedgerEntry.amount es =
      tally (fun line => line.status = .success ∧ line.accountId ∈ ids) PostingLine.stored
        lines := by
  have hlines := congrArg (tally (fun line : PostingLine => line.status = .success ∧
    line.accountId ∈ ids) PostingLine.amount) h.lines
  rwa [tally_map, tally_map] at hlines

/-- **Which postings make money.**  An aggregate that `post` accepts keeps the settled balances
of every currency as they add up, exactly when its settled lines on the accounts of each
currency sum to zero, as the column stores them. -/
theorem post_conserves_iff {transaction : TransactionAggregate} {id : Id}
    (hk : s.db.books.Keyed s.seqs)
    (hok : (runOn cfg (postAlone transaction id) ⟨s, Session.fresh⟩).1 = .ok ()) :
    (∀ c, (runOn cfg (postAlone transaction id) ⟨s, Session.fresh⟩).2.store.db.books.settledIn c =
        s.db.books.settledIn c) ↔
      ∀ c, tally (fun line => line.status = .success ∧ line.accountId ∈ s.db.books.holders c)
        PostingLine.stored transaction.lines = 0 := by
  obtain ⟨es, hes, hbooks⟩ := postAlone_books hok
  rw [hbooks]
  refine forall_congr' fun c => ?_
  rw [Books.settledIn_addEntries hk.accountIds, tally_stored hes, add_eq_left]

/-- Alice and bob hold nothing, and a deposit of hers waits. -/
def emptyHanded : Store :=
  runAll (offlineConfig 1000)
    [.createAccount "alice" "EUR", .createAccount "bob" "EUR",
      .initiateDeposit 0 10 "stripe" ⟨none, none⟩ (some "c1")] Store.empty

/-- Alice is credited 100, and bob's debit of 100 is left pending. -/
theorem post_creates_money :
    let transaction :=
      ((TransactionAggregate.new "EUR").record 1 (-100) .debit "EUR" .pending).record 0 100 .credit
        "EUR" .success
    let run := runOn (offlineConfig 1000) (postAlone transaction 2) ⟨emptyHanded, Session.fresh⟩
    run.1 = .ok () ∧ emptyHanded.db.books.settledIn "EUR" = 0 ∧
      run.2.store.db.books.settledIn "EUR" = 100 := by
  decide +kernel

/-- Settled on both sides, the posting moves the 100 from one to the other. -/
theorem post_keeps_money :
    let transaction :=
      ((TransactionAggregate.new "EUR").record 1 (-100) .debit "EUR" .success).record 0 100 .credit
        "EUR" .success
    let run := runOn (offlineConfig 1000) (postAlone transaction 2) ⟨emptyHanded, Session.fresh⟩
    run.1 = .ok () ∧
      ∀ c, run.2.store.db.books.settledIn c = emptyHanded.db.books.settledIn c := by
  intro transaction run
  have hrun : Run (Operation.run (offlineConfig 1000)) anyOp Store.empty emptyHanded := Run.foldl _
  have hok : run.1 = .ok () := by decide +kernel
  refine ⟨hok, (post_conserves_iff (sound_of_run hrun).keyed hok).2 fun c => ?_⟩
  have hboth : (1 ∈ emptyHanded.db.books.holders c) = (0 ∈ emptyHanded.db.books.holders c) := by
    have haccounts : emptyHanded.db.books.accounts =
        [⟨0, "2000000000", "alice", "EUR"⟩, ⟨1, "2000000001", "bob", "EUR"⟩] := by decide +kernel
    unfold Books.holders
    rw [haccounts]
    by_cases hc : "EUR" = c <;> simp [hc]
  have hstored : (Decimal.storeNumeric 28 8 100).getD 0 = 100 ∧
      (Decimal.storeNumeric 28 8 (-100)).getD 0 = -100 := by decide +kernel
  by_cases hzero : 0 ∈ emptyHanded.db.books.holders c <;>
    simp [transaction, TransactionAggregate.record, TransactionAggregate.new, PostingLine.stored,
      hstored, hboth, hzero]

end WalletLedger
