import WalletLedger.Concurrent.Payments

/-!
# Overdrafts at the same time

Any number of payments that run at the same time, while no snapshot is cut.  Credits
arrive on an account without its lock, and debits only under it, so what the funds check
has read is still there when the debit is committed.

* `NoCut` — the condition on turns.
* `covered_together` — if the balances are right at the start, no customer account is
  ever overdrawn; `overdrawn_together` is an interleaving that starts from a snapshot an
  earlier `commit` has left behind.
-/

namespace WalletLedger

variable {ι : Type} {cfg : Config}

instance (b : Books) : Decidable b.Covered :=
  inferInstanceAs (Decidable (∀ a ∈ b.accounts, ¬ a.IsInternal → 0 ≤ b.available a.id))

/-- The request cuts a snapshot. -/
def Request.cutsSnapshot : Request → Bool
  | .mutate (.insertSnapshot _ _ _ _) => true
  | _ => false

/-- No snapshot is cut. -/
def NoCut (_ : ι) (r : Request) (_ : Shared ι) : Prop := r.cutsSnapshot = false

instance (i : ι) (r : Request) (s : Shared ι) : Decidable (NoCut i r s) :=
  inferInstanceAs (Decidable (_ = _))

/-- The account is a customer's. -/
def Books.Customer (b : Books) (a : Id) : Prop := ∃ x ∈ b.accounts, x.id = a ∧ ¬ x.IsInternal

variable [DecidableEq ι]

/-- **No overdraft.**  If no customer account is overdrawn and their latest snapshots are
exact at the start, then in every interleaving of payments that cuts no snapshot, no
committed state overdraws a customer account. -/
theorem covered_together {s₀ : Store} (hs : s₀.Regular) (hcovered : s₀.db.books.Covered)
    (hexact : ∀ a ∈ s₀.db.books.accounts, ¬ a.IsInternal → s₀.db.books.ReadsExactly a.id)
    {calls : ι → Operation} (hcalls : ∀ i, (calls i).Pays)
    {w : World ι Request Request.Answer Exn Unit (Shared ι)}
    (h : Reaches (machine ι cfg) NoCut (paying cfg s₀ calls) w) :
    w.shared.store.db.books.Covered := by
  have hC : CutsExactly cfg (NoCut : ι → Request → Shared ι → Prop) :=
    .never fun _ _ _ _ _ _ hcut => by cases hcut
  have hinv : Consistent s₀.db.books s₀.db.books.Customer s₀.db.books.Customer w.shared := by
    refine consistent_of_reaches hC (fun _ => id) hs (fun _ => id) ?_ ?_ hcalls h
    · rintro _ ⟨a, ha, rfl, hc⟩
      exact hexact a ha hc
    · rintro _ ⟨a, ha, rfl, hc⟩
      exact hcovered a ha hc
  intro a ha hc
  rw [Books.available_eq_weight]
  exact (hinv.funds a.id ⟨a, hinv.customers a (.inl ha) hc, rfl, hc⟩).published

/-- The late commit has left Alice 60, and a snapshot that says 110. -/
def staleStore : Store := runAll (offlineConfig 1) lateCommit Store.empty

/-- Alice is then let send 110. -/
theorem overdrawn_together :
    staleStore.db.books.Covered ∧
      ∃ w, Reaches (machine (Fin 2) (offlineConfig 100)) NoCut
          (paying (offlineConfig 100) staleStore fun i =>
            if i = 0 then .execute 0 1 110 (some "c4") else .execute 1 0 10 (some "c5")) w ∧
        w.Quiescent ∧ ∃ a ∈ w.shared.store.db.books.accounts, ¬ a.IsInternal ∧
          w.shared.store.db.books.available a.id = -40 := by
  refine ⟨by decide +kernel, exists_reaches (List.replicate 21 0 ++ List.replicate 21 1) ?_⟩
  decide +kernel

/-- Alice's deposit of 100, and nothing else yet. -/
def fundedStore : Store :=
  runAll (offlineConfig 100)
    [.createAccount "alice" "EUR", .createAccount "bob" "EUR",
      .initiateDeposit 0 100 "stripe" ⟨none, none⟩ (some "c1"), .settle "2" none none] Store.empty

/-- Two payments of 60 out of the 100: the second waits for the lock, and is refused. -/
theorem covered_together_refused :
    ∃ w, Reaches (machine (Fin 2) (offlineConfig 100)) NoCut
        (paying (offlineConfig 100) fundedStore fun _ => .execute 0 1 60 none) w ∧
      w.Quiescent ∧ (w.tasks 0).outcome = some (.ok ()) ∧
      (w.tasks 1).outcome = some (.error (.domain (.insufficientFunds 40 60))) ∧
      w.shared.store.db.books.Covered := by
  have hs : fundedStore.Regular := (sound_of_run (Run.foldl _)).regular
  have hcalls : ∀ _ : Fin 2, (Operation.execute 0 1 60 none).Pays := fun _ => trivial
  obtain ⟨w, hw, hq, hfirst, hsecond⟩ : ∃ w, Reaches (machine (Fin 2) (offlineConfig 100)) NoCut
      (paying (offlineConfig 100) fundedStore fun _ => .execute 0 1 60 none) w ∧
      w.Quiescent ∧ (w.tasks 0).outcome = some (.ok ()) ∧
      (w.tasks 1).outcome = some (.error (.domain (.insufficientFunds 40 60))) :=
    exists_reaches (List.replicate 22 0 ++ List.replicate 6 1) (by decide +kernel)
  exact ⟨w, hw, hq, hfirst, hsecond, covered_together hs (by decide +kernel) (by decide +kernel)
    hcalls hw⟩

end WalletLedger
