import WalletLedger.Concurrent.Guarded
import WalletLedger.Sequential.Progress

/-!
# Deciding a transfer at the same time

Any number of `commit` and `fail` calls on one two-phase transfer.  Each reads the
status of the transfer without a lock, and commits later without reading it again.

* `Decision` — the two calls, and `deciding`, any number of them.
* `decided_once` — as long as every call commits while the transfer still waits, it is
  decided at most once; `settled_twice` is an interleaving in which it is settled twice.
-/

namespace WalletLedger

variable {cfg : Config} {b b' : Books} {s s' : Sequences}

/-! ## Any number of calls -/

/-- The two calls that decide a transfer. -/
inductive Decision where
  | commit
  | fail
  deriving DecidableEq, Repr

def Decision.operation (transactionId : Id) : Decision → Operation
  | commit => .commit transactionId
  | fail => .fail transactionId

/-- A decided transfer waits no longer. -/
theorem Effect.decided {id : Id} {call : Decision} (he : Effect cfg b (call.operation id) b') :
    ¬ b'.HasStatus id .pending := by
  cases call with
  | commit =>
    cases he with
    | commit t money debit credit sender receiver _ found pending money_eq approved reserved
        sender_mem sender_id receiver_id receiver_mem line transaction balanced cuts =>
      obtain ⟨-, rfl⟩ := transaction_of_find found
      rw [Books.HasStatus.congr cuts.rest.2.1]
      exact Books.not_hasStatus_setTransaction t.id (by simp)
  | fail =>
    cases he with
    | fail t found pending =>
      obtain ⟨-, rfl⟩ := transaction_of_find found
      exact Books.not_hasStatus_setTransaction t.id (by simp)

variable {ι : Type} [DecidableEq ι]

/-- The world in which any number of calls start to decide the transfer. -/
def deciding (cfg : Config) (s₀ : Store) (transactionId : Id) (calls : ι → Decision) :
    World ι Request Request.Answer Exn Unit (Shared ι) :=
  World.start (Shared.start s₀) fun i => ((calls i).operation transactionId).program cfg

/-- **One decision.**  As long as every call commits its writes while the transfer still
stands as pending, at most one call takes effect: the transfer is settled with one debit
and one credit of its amount, or released, or still reserved, and its settled entries
sum to zero. -/
theorem decided_once {s₀ : Store} (hs : s₀.Sound) {t : Transaction} {d : LedgerEntry}
    (hr : Reserved s₀.db.books t d) {calls : ι → Decision}
    {w : World ι Request Request.Answer Exn Unit (Shared ι)}
    (h : Reaches (machine ι cfg) (CommitsWhile fun b => b.HasStatus t.id .pending)
      (deciding cfg s₀ t.id calls) w) :
    let b := w.shared.store.db.books
    w.shared.effects.length ≤ 1 ∧ (Reserved b t d ∨ Settled b t d ∨ Released b t d) ∧
      ∀ c : String, tally (fun e => e.transactionId = t.id ∧ e.currency = c ∧ e.status = .success)
        LedgerEntry.amount b.entries = 0 := by
  have honce : Once s₀.db.books
      (fun i => Effect cfg s₀.db.books ((calls i).operation t.id)) w.shared :=
    once_of_reaches (fun i => Operation.commits hs.keyed _) (fun i b he => he.decided) h
  cases honce with
  | untouched heff hb =>
    rw [hb, heff]
    exact ⟨by simp, .inl hr, hs.balanced t.id⟩
  | committed i ws heff he =>
    refine ⟨by simp [heff], .inr ?_, he.balanced hs.keyed hs.linked hs.balanced t.id⟩
    cases hcall : calls i with
    | commit =>
      rw [hcall] at he
      exact .inl (he.settled hr hs.keyed hs.linked)
    | fail =>
      rw [hcall] at he
      exact .inr (he.released hr hs.keyed)

/-! ## Two calls -/

/-- Alice reserves 50 for Bob. -/
def reservation : List Operation :=
  [.createAccount "alice" "EUR", .createAccount "bob" "EUR",
    .initiateDeposit 0 100 "stripe" ⟨none, none⟩ (some "c1"), .settle "2" none none,
    .initiate 0 1 50 (some "c2")]

/-- The books after it. -/
def reservationStore : Store := runAll (offlineConfig 100) reservation Store.empty

theorem reservation_reserved :
    Reserved reservationStore.db.books
      ⟨6, .transfer, .pending, 50, "EUR", .transfer 0 1, none, some "c2"⟩
      ⟨7, 3, 0, 6, -50, .debit, .pending, "EUR"⟩ :=
  ⟨by decide +kernel, rfl, by decide +kernel, by decide +kernel, by decide +kernel⟩

/-- Two calls settle the reservation, both having read its status and its debit before
the other commits: Bob is credited twice. -/
theorem settled_twice :
    ∃ w, Reaches (machine (Fin 2) (offlineConfig 100)) anyTurn
        (deciding (offlineConfig 100) reservationStore 6 fun _ => .commit) w ∧
      w.Quiescent ∧ w.shared.effects.length = 2 ∧
      tally (fun e => e.transactionId = 6 ∧ e.currency = "EUR" ∧ e.status = .success)
        LedgerEntry.amount w.shared.store.db.books.entries = 50 := by
  exact exists_reaches (List.replicate 2 0 ++ List.replicate 20 1 ++ List.replicate 18 0)
    (by decide +kernel)

/-- One call settles the reservation, and the other finds it settled. -/
theorem decided_once_in_turn :
    ∃ w, Reaches (machine (Fin 2) (offlineConfig 100))
        (CommitsWhile fun b => b.HasStatus 6 .pending)
        (deciding (offlineConfig 100) reservationStore 6
          fun i => if i = 0 then .commit else .fail) w ∧
      w.Quiescent ∧ w.shared.store.db.books.HasStatus 6 .success ∧
      w.shared.effects.length ≤ 1 := by
  obtain ⟨w, hw, hq, hsuccess⟩ : ∃ w, Reaches (machine (Fin 2) (offlineConfig 100))
      (CommitsWhile fun b => b.HasStatus 6 .pending)
      (deciding (offlineConfig 100) reservationStore 6
        fun i => if i = 0 then .commit else .fail) w ∧
      w.Quiescent ∧ w.shared.store.db.books.HasStatus 6 .success :=
    exists_reaches (List.replicate 20 0 ++ List.replicate 2 1) (by decide +kernel)
  have hs : reservationStore.Sound := sound_of_run (Run.foldl reservation)
  exact ⟨w, hw, hq, hsuccess, (decided_once hs reservation_reserved hw).1⟩

end WalletLedger
