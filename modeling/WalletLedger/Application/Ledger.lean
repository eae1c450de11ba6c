import WalletLedger.Application.Accounts

/-!
# The ledger service

`application/ledger.py`: balances derived from the entries, the double-entry gate,
and the snapshots that shorten the sums.
-/

namespace WalletLedger

namespace LedgerService

/-- `post`: materialise an aggregate once it has checked itself. -/
def post (transaction : TransactionAggregate) (transactionId : Id) : App Unit := do
  Program.ofExcept transaction.assertBalanced
  Program.forEach transaction.lines fun line =>
    ask (.mutate (.insertEntry line.accountId transactionId line.amount line.entryType line.status
      line.currency))

/-- The aggregate rebuilt from existing lines. -/
def rebuild (entries : List PostingLine) : TransactionAggregate :=
  entries.foldl (fun t e => t.record e.accountId e.amount e.entryType e.currency e.status)
    (.new (entries.head?.elim "" PostingLine.currency))

theorem rebuild_lines (lines : List PostingLine) : (rebuild lines).lines = lines := by
  have main : ∀ t₀ : TransactionAggregate,
      (lines.foldl (fun t e => t.record e.accountId e.amount e.entryType e.currency e.status)
        t₀).lines = t₀.lines ++ lines := by
    induction lines with
    | nil => simp
    | cons line lines ih =>
      intro t₀
      rw [List.foldl_cons, ih]
      simp [TransactionAggregate.record]
  rw [rebuild, main]
  rfl

/-- `assert_balanced`: replay double entry on existing lines. -/
def assertBalanced (entries : List PostingLine) : Except Exn Unit :=
  (rebuild entries).assertBalanced

/-- `post_entries`: add entries that are already built, each with its transaction. -/
def postEntries (entries : List (PostingLine × Id)) : App Unit := do
  Program.ofExcept (assertBalanced (entries.map Prod.fst))
  Program.forEach entries fun (line, transactionId) =>
    ask (.mutate (.insertEntry line.accountId transactionId line.amount line.entryType line.status
      line.currency))

/-- `_latest_snapshot`. -/
def latestSnapshot (accountId : Id) : App (Option BalanceSnapshot) :=
  ask (.select (.latestSnapshot accountId))

/-- `_sum`. -/
def sum (accountId : Id) (afterSeq : ℕ) (statuses : List EntryStatus)
    (entryType : Option EntryType) : App Decimal :=
  ask (.select (.sumEntries accountId afterSeq statuses entryType))

/-- `snapshot.balance if snapshot else Decimal(0)`. -/
def snapshotBase (snapshot : Option BalanceSnapshot) : Decimal :=
  snapshot.elim 0 BalanceSnapshot.balance

/-- `snapshot.last_entry_seq if snapshot else 0`. -/
def snapshotCursor (snapshot : Option BalanceSnapshot) : ℕ :=
  snapshot.elim 0 BalanceSnapshot.lastEntrySeq

/-- `balance`: the latest snapshot and the settled entries beyond it. -/
def balance (account : Account) : App Money := do
  let snapshot ← latestSnapshot account.id
  let base := snapshotBase snapshot
  let cursor := snapshotCursor snapshot
  let delta ← sum account.id cursor [.success] none
  Program.ofExcept (Money.make (base + delta) account.currency)

/-- `available_balance`: the settled balance less the reserved debits. -/
def availableBalance (account : Account) : App Money := do
  let settled ← balance account
  let pendingDebits ← sum account.id 0 [.pending] (some .debit)
  Program.ofExcept (Money.make (settled.amount + pendingDebits) account.currency)

/-- `maybe_snapshot`: cut a snapshot once enough entries have accumulated.  The entries are added
up exactly, where the code rounds to the digits of the context after each of them: the two sums
are one as long as the context can write down every partial sum (`Decimal.contextSum_eq`), 28
digits of it. -/
def maybeSnapshot (cfg : Config) (account : Account) : App Unit := do
  let snapshot ← latestSnapshot account.id
  let cursor := snapshotCursor snapshot
  let previousCount := snapshot.elim 0 BalanceSnapshot.entryCount
  let newEntries ← ask (.select (.entriesAfter account.id cursor))
  if (newEntries.length : ℤ) < cfg.snapshotEveryNEntries then
    return ()
  else do
    let newBalance := snapshotBase snapshot + (newEntries.map Prod.snd).sum
    -- an empty list has no last entry
    let last ← ofOption .indexError newEntries.getLast?
    ask (.mutate (.insertSnapshot account.id newBalance last.1
      (previousCount + newEntries.length)))

end LedgerService

namespace RiskService

/-- `assess`: above the limit a human has to decide. -/
def assess (cfg : Config) (amount : Money) : App Unit :=
  raiseIf (cfg.autoApprovalLimit < amount.amount)
    (.domain (.riskRejected amount.amount amount.currency))

end RiskService

end WalletLedger
