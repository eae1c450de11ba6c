import WalletLedger.Models.Integrity
import WalletLedger.Application.Ledger
import WalletLedger.Lib.Checkpoint

/-!
# What the accounts hold

The amounts an account holds according to the whole ledger, and what the queries
behind a balance return in terms of them.

* `Books.settled`, `reserved`, `available` — the sum of all the settled entries of an
  account, of its pending debits, and both together.
* `Frozen` — a base and a cursor that hold the settled total up to that cursor;
  `Frozen.read` is the total a reader gets through it, `Frozen.cut` the snapshot that
  may be cut from it.
* `latestSnapshot_mem`, `cursor_le_latest` — the latest snapshot is one of the
  account's, and no other has a higher cursor.
-/

namespace WalletLedger

namespace Books

/-- The sum of all the settled entries of the account. -/
def settled (b : Books) (accountId : Id) : Decimal :=
  tally (fun e => e.accountId = accountId ∧ e.status = .success) LedgerEntry.amount b.entries

/-- The sum of its pending debits. -/
def reserved (b : Books) (accountId : Id) : Decimal :=
  tally (fun e => e.accountId = accountId ∧ e.status = .pending ∧ e.entryType = .debit)
    LedgerEntry.amount b.entries

/-- What the account may still spend. -/
def available (b : Books) (accountId : Id) : Decimal := b.settled accountId + b.reserved accountId

end Books

/-- The base is the settled total of the account up to the cursor. -/
abbrev Frozen (accountId : Id) (cursor : ℕ) (base : Decimal) (entries : List LedgerEntry) : Prop :=
  Checkpoint.Exact (fun e : LedgerEntry => e.accountId = accountId ∧ e.status = .success)
    LedgerEntry.seq LedgerEntry.amount cursor base entries

/-- A snapshot that holds the settled total up to its cursor. -/
def BalanceSnapshot.ExactOn (s : BalanceSnapshot) (entries : List LedgerEntry) : Prop :=
  Frozen s.accountId s.lastEntrySeq s.balance entries

section queries

variable {b : Books} {accountId : Id} {cursor : ℕ}

/-- The settled sum beyond a cursor is what a checkpoint leaves to add. -/
theorem sumEntries_settled :
    b.sumEntries accountId cursor [.success] none =
      Checkpoint.delta (fun e : LedgerEntry => e.accountId = accountId ∧ e.status = .success)
        LedgerEntry.seq LedgerEntry.amount cursor b.entries := by
  refine tally_congr (fun e _ => ?_) fun _ _ _ => rfl
  simp only [List.mem_singleton, Option.not_mem_none, IsEmpty.forall_iff, implies_true, and_true,
    and_assoc]

/-- Every entry has a positive number, so the pending debits from 0 are all of them. -/
theorem sumEntries_reserved (h : ∀ e ∈ b.entries, 0 < e.seq) :
    b.sumEntries accountId 0 [.pending] (some .debit) = b.reserved accountId := by
  refine tally_congr (fun e he => ?_) fun _ _ _ => rfl
  simp [h e he]

theorem mem_settledAfter {e : LedgerEntry} :
    e ∈ b.settledAfter accountId cursor ↔
      e ∈ b.entries ∧ (e.accountId = accountId ∧ e.status = .success) ∧ cursor < e.seq := by
  rw [Books.settledAfter, List.mem_insertionSort, List.mem_filter, LedgerEntry.isSettledAfter,
    decide_eq_true_iff, and_assoc]

/-- The rows `maybe_snapshot` adds up are those of the settled sum. -/
theorem sum_settledAfter :
    ((b.settledAfter accountId cursor).map LedgerEntry.amount).sum =
      Checkpoint.delta (fun e : LedgerEntry => e.accountId = accountId ∧ e.status = .success)
        LedgerEntry.seq LedgerEntry.amount cursor b.entries := by
  have hperm := (List.perm_insertionSort (fun e f : LedgerEntry => e.seq ≤ f.seq)
    (b.entries.filter (LedgerEntry.isSettledAfter accountId cursor))).map LedgerEntry.amount
  rw [Books.settledAfter, hperm.sum_eq, Checkpoint.delta, tally]
  simp only [and_assoc]
  rfl

/-- They come in the order of their numbers, so none exceeds the last. -/
theorem le_getLast_settledAfter {last : LedgerEntry}
    (h : (b.settledAfter accountId cursor).getLast? = some last) :
    ∀ e ∈ b.settledAfter accountId cursor, e.seq ≤ last.seq := by
  have hsorted : (b.settledAfter accountId cursor).Pairwise fun e f => e.seq ≤ f.seq :=
    List.pairwise_insertionSort _ _
  obtain ⟨l, hl⟩ := List.getLast?_eq_some_iff.1 h
  rw [hl] at hsorted ⊢
  intro e he
  rcases List.mem_append.1 he with he | he
  · exact (List.pairwise_append.1 hsorted).2.2 e he last (by simp)
  · rw [List.mem_singleton.1 he]

theorem latestSnapshot_mem {s : BalanceSnapshot} (h : b.latestSnapshot accountId = some s) :
    s ∈ b.snapshots ∧ s.accountId = accountId := by
  have hmem := List.argmax_mem (Option.mem_def.2 h)
  rw [List.mem_filter] at hmem
  exact ⟨hmem.1, of_decide_eq_true hmem.2⟩

theorem cursor_le_latest {s : BalanceSnapshot} (hs : s ∈ b.snapshots) :
    s.lastEntrySeq ≤ LedgerService.snapshotCursor (b.latestSnapshot s.accountId) := by
  have hmem : s ∈ b.snapshots.filter fun x => x.accountId = s.accountId :=
    List.mem_filter.2 ⟨hs, decide_eq_true rfl⟩
  cases hl : b.latestSnapshot s.accountId with
  | none =>
    rw [Books.latestSnapshot, List.argmax_eq_none] at hl
    rw [hl] at hmem
    cases hmem
  | some m => exact List.le_of_mem_argmax hmem (Option.mem_def.2 hl)

end queries

end WalletLedger
