import WalletLedger.Concurrent.Settlement
import WalletLedger.Sequential.Reversals

/-!
# Reversing a transaction at the same time

Any number of `reverse` calls on one transaction.  Each reads its status without a lock,
waits for the accounts, and writes the mirror without reading the status again.

* `Effect.reversed` — what a lone reversal does to the settled amounts.
* `reversed_once` — as long as every call commits while the transaction still stands as
  successful, it is reversed at most once; `reversed_twice` is an interleaving in which
  it is reversed twice.
-/

namespace WalletLedger

variable {cfg : Config} {b b' : Books} {s s' : Sequences}

/-- Settled lines add up on the settled amount of their accounts. -/
theorem Posted.settled {id : Id} {lines : List PostingLine} {es : List LedgerEntry}
    (hp : Posted id lines es) (hs : ∀ line ∈ lines, line.status = .success) (a : Id) :
    (b.addEntries es).settled a =
      b.settled a + tally (fun line => line.accountId = a) PostingLine.amount lines := by
  rw [Books.settled, Books.addEntries, tally_append, Books.settled, ← hp.lines, tally_map]
  congr 1
  refine tally_congr (fun e he => ?_) fun _ _ _ => rfl
  have hstatus : e.status = .success := hs e.line (hp.lines ▸ List.mem_map_of_mem he)
  simp [hstatus, LedgerEntry.line]

/-- A lone reversal is one more reversal, and takes back from every account what the
transaction had moved there. -/
theorem Effect.reversed {id : Id} {correlationId : Option String} (hl : b.Linked)
    (he : Effect cfg b (.reverse id correlationId) b') :
    (b'.reversalsOf id).length = (b.reversalsOf id).length + 1 ∧
      ∀ a, b'.settled a = b.settled a - b.moved id a := by
  cases he with
  | reverse t reversal lines es _ found success original records mirrored balanced posted cuts =>
    obtain ⟨ht, rfl⟩ := transaction_of_find found
    obtain ⟨-, htx, hes⟩ := cuts.rest
    constructor
    · have hrows : b'.reversalsOf t.id =
          modify Transaction.id t.id (fun x => { x with status := .reversed })
            ((b.addTransaction reversal).reversalsOf t.id) := by
        unfold Books.reversalsOf
        rw [htx]
        exact filter_modify fun _ => rfl
      have hnew : (b.addTransaction reversal).reversalsOf t.id =
          b.reversalsOf t.id ++ [reversal] := by
        unfold Books.reversalsOf Books.addTransaction
        rw [List.filter_append]
        simp [records.type, records.details]
      rw [hrows, hnew, modify, List.length_map, List.length_append, List.length_singleton]
    · intro a
      have hstatus : ∀ line ∈ lines, line.status = .success := fun line hline =>
        (exists_of_mirrored mirrored hline).choose_spec.2.status
      have hlines : ∀ e ∈ b.entries.filter (LedgerEntry.isOf t.id .success), LineOk b e.line :=
        fun e he => hl.entries e (List.mem_of_mem_filter he)
      have hposted : (b.addEntries es).settled a = _ := posted.settled hstatus a
      have hsettled : b'.settled a = (b.addEntries es).settled a := by
        unfold Books.settled
        rw [hes]
        rfl
      rw [hsettled, hposted, tally_mirrored (fun x _ => x = a) mirrored hl hlines, sub_eq_add_neg]
      rfl

/-- A reversed transaction no longer stands as successful. -/
theorem Effect.not_success {id : Id} {correlationId : Option String}
    (he : Effect cfg b (.reverse id correlationId) b') : ¬ b'.HasStatus id .success := by
  cases he with
  | reverse t reversal lines es _ found success original records mirrored balanced posted cuts =>
    obtain ⟨-, rfl⟩ := transaction_of_find found
    rw [Books.HasStatus.congr cuts.rest.2.1]
    exact Books.not_hasStatus_setTransaction t.id (by simp)

variable {ι : Type} [DecidableEq ι]

/-- The world in which any number of calls start to reverse the transaction. -/
def reversing (cfg : Config) (s₀ : Store) (transactionId : Id) (calls : ι → Option String) :
    World ι Request Request.Answer Exn Unit (Shared ι) :=
  World.start (Shared.start s₀) fun i => (Operation.reverse transactionId (calls i)).program cfg

/-- **One reversal.**  As long as every call commits its writes while the transaction
still stands as successful, at most one more reversal of it is committed, and every
account gets back what the transaction had moved there as many times: once or not at
all. -/
theorem reversed_once {s₀ : Store} (hs : s₀.Sound) {id : Id} {calls : ι → Option String}
    {w : World ι Request Request.Answer Exn Unit (Shared ι)}
    (h : Reaches (machine ι cfg) (CommitsWhile fun b => b.HasStatus id .success)
      (reversing cfg s₀ id calls) w) :
    let b := w.shared.store.db.books
    ∃ k ≤ 1, (b.reversalsOf id).length = (s₀.db.books.reversalsOf id).length + k ∧
      ∀ a, b.settled a = s₀.db.books.settled a - k * s₀.db.books.moved id a := by
  have honce : Once s₀.db.books
      (fun i => Effect cfg s₀.db.books (.reverse id (calls i))) w.shared :=
    once_of_reaches (fun i => Operation.commits hs.keyed _) (fun i b he => he.not_success) h
  cases honce with
  | untouched heff hb =>
    refine ⟨0, by omega, ?_, fun a => ?_⟩
    · rw [hb, add_zero]
    · rw [hb, Nat.cast_zero, zero_mul, sub_zero]
  | committed i ws heff he =>
    obtain ⟨hcount, hsettled⟩ := he.reversed hs.linked
    refine ⟨1, le_rfl, hcount, fun a => ?_⟩
    rw [hsettled a, Nat.cast_one, one_mul]

/-! ## Two calls -/

/-- Alice sends 50 to Bob. -/
def payment : List Operation :=
  [.createAccount "alice" "EUR", .createAccount "bob" "EUR",
    .initiateDeposit 0 100 "stripe" ⟨none, none⟩ (some "c1"), .settle "2" none none,
    .execute 0 1 50 (some "c2")]

/-- The store after it. -/
def paymentStore : Store := runAll (offlineConfig 100) payment Store.empty

/-- Two calls reverse the payment, both having read its status before the other commits:
Bob pays it back twice. -/
theorem reversed_twice :
    ∃ w, Reaches (machine (Fin 2) (offlineConfig 100)) anyTurn
        (reversing (offlineConfig 100) paymentStore 6 fun _ => some "c3") w ∧
      w.Quiescent ∧ (w.shared.store.db.books.reversalsOf 6).length = 2 ∧
      paymentStore.db.books.settled 1 = 50 ∧ w.shared.store.db.books.settled 1 = -50 :=
  exists_reaches (List.replicate 2 0 ++ List.replicate 16 1 ++ List.replicate 14 0)
    (by decide +kernel)

/-- One call reverses the payment, and the other finds it reversed. -/
theorem reversed_once_in_turn :
    ∃ w, Reaches (machine (Fin 2) (offlineConfig 100))
        (CommitsWhile fun b => b.HasStatus 6 .success)
        (reversing (offlineConfig 100) paymentStore 6 fun _ => some "c3") w ∧
      w.Quiescent ∧ w.shared.store.db.books.HasStatus 6 .reversed ∧
      ∃ k ≤ 1, (w.shared.store.db.books.reversalsOf 6).length =
        (paymentStore.db.books.reversalsOf 6).length + k := by
  obtain ⟨w, hw, hq, hreversed⟩ : ∃ w, Reaches (machine (Fin 2) (offlineConfig 100))
      (CommitsWhile fun b => b.HasStatus 6 .success)
      (reversing (offlineConfig 100) paymentStore 6 fun _ => some "c3") w ∧
      w.Quiescent ∧ w.shared.store.db.books.HasStatus 6 .reversed :=
    exists_reaches (List.replicate 16 0 ++ List.replicate 2 1) (by decide +kernel)
  have hs : paymentStore.Sound := sound_of_run (Run.foldl payment)
  obtain ⟨k, hk, hcount, -⟩ := reversed_once hs hw
  exact ⟨w, hw, hq, hreversed, k, hk, hcount⟩

end WalletLedger
