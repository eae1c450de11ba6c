import WalletLedger.Concurrent.Sessions
import WalletLedger.Lib.Protocol
import WalletLedger.Operations.Refinement
import WalletLedger.Operations.Views
import WalletLedger.Sequential.Runs

/-!
# Locks in one order

An operation locks the account it takes from, and the account of the other party only when
its entry references it.

* `Operation.Ordered`, `FindsInOrder` — the condition on what an operation finds: the accounts
  it has still to lock come later in one order.
* `lockOrder` — the protocol of an operation then: what it may claim, and what it holds.
* `Shared.Stands` — a session holds what its protocol says; its turns and those of the others
  keep it.
-/

namespace WalletLedger

variable {ι : Type} {cfg : Config}

/-! ## Who waits for whom -/

/-- The locks in question: `FOR UPDATE` on an account or a transaction, and `FOR KEY SHARE` on
an account that is referenced. -/
def Row.counts : Row → LockMode → Bool
  | .account _, .update => true
  | .account _, .keyShare => true
  | .transaction _, .update => true
  | _, _ => false

/-! ## The order of the accounts -/

/-- The account whose row the request locks, and the mode. -/
def Request.claim : Request → Option (Id × LockMode)
  | .select (.accountForUpdate id) => some (id, .update)
  | .mutate (.insertEntry accountId _ _ _ _ _) => some (accountId, .keyShare)
  | .mutate (.insertSnapshot accountId _ _ _) => some (accountId, .keyShare)
  | _ => none

/-- The accounts among the rows that are held `FOR UPDATE`. -/
def forUpdate (held : List (Row × LockMode)) : List Id :=
  held.filterMap fun
    | (.account a, .update) => some a
    | _ => none

@[simp] theorem mem_forUpdate {held : List (Row × LockMode)} {a : Id} :
    a ∈ forUpdate held ↔ (.account a, .update) ∈ held := by
  simp only [forUpdate, List.mem_filterMap]
  constructor
  · rintro ⟨⟨row, m⟩, hx, h⟩
    split at h
    · rename_i heq
      cases heq
      cases h
      exact hx
    · cases h
  · exact fun h => ⟨_, h, rfl⟩

/-- The account that an answer hands on: of `get`, or of `get_or_create_internal`. -/
def Request.finds : (r : Request) → r.Answer → Option Account
  | .select (.account _), .ok a => a
  | .select (.accountByOwner _ _), .ok a => a
  | .mutate (.insertAccount _ _), .ok a => some a
  | _, _ => none

/-- The accounts a reversal locks after the answer, in its order. -/
def Request.mirrored : (r : Request) → r.Answer → List Id
  | .select (.entriesOf _ .success), .ok es =>
      (es.map LedgerEntry.accountId).dedup.insertionSort (· ≤ ·)
  | _, _ => []

/-- What the operation finds comes in order, while it holds some accounts `FOR UPDATE`: an
account it is to write on comes after them.  The accounts of a reversal ascend, all but its
first are `late`, and no exchange uses a pool that is. -/
def Operation.Ordered (rank : Id → ℕ) (late : Id → Prop) (held : List Id) (r : Request)
    (v : r.Answer) : Operation → Prop
  | .initiate _ _ _ _ => True
  | .reverse _ _ =>
      (r.mirrored v).Pairwise (fun a b => rank a < rank b) ∧ ∀ a ∈ (r.mirrored v).tail, late a
  | .executeFxTransfer _ _ _ _ _ => ∀ x ∈ r.finds v,
      (∀ a ∈ held, a = x.id ∨ rank a < rank x.id) ∧ (x.ownerId = fxPoolOwner → ¬ late x.id)
  | _ => ∀ x ∈ r.finds v, ∀ a ∈ held, a = x.id ∨ rank a < rank x.id

instance (rank : Id → ℕ) (late : Id → Prop) [DecidablePred late] (held : List Id) (r : Request)
    (v : r.Answer) : (op : Operation) → Decidable (op.Ordered rank late held r v)
  | .initiate _ _ _ _ => isTrue trivial
  | .reverse _ _ => inferInstanceAs (Decidable (_ ∧ _))
  | .executeFxTransfer _ _ _ _ _ => inferInstanceAs (Decidable (∀ x ∈ r.finds v,
      (∀ a ∈ held, a = x.id ∨ rank a < rank x.id) ∧ (x.ownerId = fxPoolOwner → ¬ late x.id)))
  | .createAccount _ _ | .initiateDeposit _ _ _ _ _ | .settle _ _ _ | .execute _ _ _ _
  | .commit _ | .fail _ => inferInstanceAs (Decidable (∀ x ∈ r.finds v,
      ∀ a ∈ held, a = x.id ∨ rank a < rank x.id))

theorem Operation.Ordered.mono {rank : Id → ℕ} {late : Id → Prop} {held held' : List Id}
    {r : Request} {v : r.Answer} {op : Operation} (h : op.Ordered rank late held r v)
    (hsub : ∀ a ∈ held', a ∈ held) : op.Ordered rank late held' r v := by
  cases op with
  | initiate => trivial
  | reverse => exact h
  | executeFxTransfer => exact fun x hx => ⟨fun a ha => (h x hx).1 a (hsub a ha), (h x hx).2⟩
  | _ => exact fun x hx a ha => h x hx a (hsub a ha)

/-- The rows the session holds. -/
def Shared.held [DecidableEq ι] (s : Shared ι) (i : ι) : List (Row × LockMode) :=
  (s.locks.filter fun l => l.owner = i).map fun l => (l.row, l.mode)

theorem Shared.mem_held [DecidableEq ι] {s : Shared ι} {i : ι} {row : Row} {m : LockMode} :
    (row, m) ∈ s.held i ↔ s.locks.Holds i row m := by
  unfold Shared.held LockTable.Holds
  rw [List.mem_map]
  constructor
  · rintro ⟨l, hl, heq⟩
    obtain ⟨hmem, ho⟩ := List.mem_filter.1 hl
    obtain rfl : l.owner = i := of_decide_eq_true ho
    cases heq
    exact hmem
  · exact fun h => ⟨_, List.mem_filter.2 ⟨h, decide_eq_true rfl⟩, rfl⟩

/-- Whatever the operations find comes in order. -/
def FindsInOrder [DecidableEq ι] (cfg : Config) (rank : Id → ℕ) (late : Id → Prop)
    (calls : ι → Operation) (i : ι) (r : Request) (s : Shared ι) : Prop :=
  (calls i).Ordered rank late (forUpdate (s.held i)) r (Conn.exec cfg r (s.conn i)).1

instance [DecidableEq ι] (rank : Id → ℕ) (late : Id → Prop) [DecidablePred late]
    (calls : ι → Operation) (i : ι) (r : Request) (s : Shared ι) :
    Decidable (FindsInOrder cfg rank late calls i r s) :=
  inferInstanceAs (Decidable ((calls i).Ordered _ _ _ _ _))

/-! ## The protocol -/

section protocol

variable (cfg : Config) (rank : Id → ℕ) (late : Id → Prop)

/-- The session may lock the account: it holds it already, or it comes after those it holds. -/
inductive Claimable (held : List (Row × LockMode)) (a : Id) (m : LockMode) : Prop
  | again : m = .keyShare → (.account a, .update) ∈ held ∨ (.account a, .keyShare) ∈ held →
      Claimable held a m
  | ahead : (∀ b, (.account b, .update) ∈ held → rank b < rank a) →
      (∀ b, (.account b, .keyShare) ∈ held → (.account b, .update) ∈ held ∨ ¬ late b) →
      (m = .update → (∃ b m', (.account b, m') ∈ held) → late a) → Claimable held a m

/-- An answer is about what was asked. -/
def Request.Named : (r : Request) → r.Answer → Prop
  | .select (.account id), .ok (some a) => a.id = id
  | .select (.accountForUpdate id), .ok (some a) => a.id = id
  | .select (.accountByOwner ownerId _), .ok (some a) => a.ownerId = ownerId
  | .mutate (.insertAccount ownerId _), .ok a => a.ownerId = ownerId
  | _, _ => True

/-- The rows the answer leaves locked, of those in question. -/
def Request.taken : (r : Request) → r.Answer → List (Row × LockMode)
  | .select (.accountForUpdate _), .ok (some a) => [(.account a.id, .update)]
  | .select (.transactionForUpdate _), .ok (some t) => [(.transaction t.id, .update)]
  | .mutate (.insertEntry accountId _ _ _ _ _), .ok _ => [(.account accountId, .keyShare)]
  | .mutate (.insertSnapshot accountId _ _ _), .ok _ => [(.account accountId, .keyShare)]
  | _, _ => []

/-- Locks are taken in order, and a transaction's row before any other. -/
def lockOrder (op : Operation) : Protocol (List (Row × LockMode)) Request Request.Answer where
  allows held r := (∀ a m, r.claim = some (a, m) → Claimable rank late held a m) ∧
    ∀ reference, r = .select (.transactionForUpdate reference) → held = []
  expects held r v := r.Named v ∧ op.Ordered rank late (forUpdate held) r v
  next held r v :=
    if r.ends then []
    else
      match v with
      | .error _ => []
      | .ok v => held ++ r.taken (.ok v)

/-- The list names the rows in question that the session holds. -/
structure Shared.Stands (i : ι) (held : List (Row × LockMode)) (s : Shared ι) : Prop where
  counted : ∀ row m, row.counts m = true → s.locks.Holds i row m → (row, m) ∈ held
  holds : ∀ row m, (row, m) ∈ held → (m = .keyShare → cfg.foreignKeyLocks = true) →
    s.locks.Holds i row m
  refused : (s.sessions i).failed = true → held = []

variable {cfg rank late} {held : List (Row × LockMode)} {s : Shared ι} {i : ι}

theorem named_of_exec {r : Request} {c : Conn} : r.Named (Conn.exec cfg r c).1 := by
  cases hv : (Conn.exec cfg r c).1 with
  | error e => cases r with
    | select q => cases q <;> trivial
    | mutate m => cases m <;> trivial
    | _ => trivial
  | ok v =>
    cases r with
    | select q =>
      obtain ⟨-, rfl, -⟩ := Conn.exec_select_ok cfg c hv
      have hfind : ∀ {α : Type} {p : α → Prop} [DecidablePred p] {l : List α},
          ∀ x ∈ l.find? fun a => p a, p x := fun {_ _ _ _} x hx => by
        simpa using List.find?_some hx
      cases q with
      | account id =>
        cases ha : (Query.account id).eval c.view with
        | none => trivial
        | some a => exact hfind (p := fun a : Account => a.id = id) a ha
      | accountForUpdate id =>
        cases ha : (Query.accountForUpdate id).eval c.view with
        | none => trivial
        | some a => exact hfind (p := fun a : Account => a.id = id) a ha
      | accountByOwner ownerId currency =>
        cases ha : (Query.accountByOwner ownerId currency).eval c.view with
        | none => trivial
        | some a =>
          exact (hfind (p := fun a : Account => a.ownerId = ownerId ∧ a.currency = currency) a ha).1
      | _ => trivial
    | mutate m =>
      obtain ⟨-, w, hw, -⟩ := Conn.exec_mutate_ok cfg c hv
      cases m with
      | insertAccount ownerId currency =>
        unfold Mutation.exec at hw
        dsimp only at hw
        split at hw
        · cases hw
        · split at hw
          · cases hw
          · cases hw
            rfl
      | _ => trivial
    | _ => trivial

/-- A statement locks an account's row by a foreign key alone. -/
theorem mem_locks_mutate {u : Mutation} {seqs : Sequences} {db : Database} {row : Row}
    {m : LockMode} (hm : row.counts m = true) :
    (row, m) ∈ u.locks cfg seqs db ↔
      m = .keyShare ∧ cfg.foreignKeyLocks = true ∧
        ∃ a, (Request.mutate u).claim = some (a, .keyShare) ∧ row = .account a := by
  have hrow : (∃ a, row = .account a ∧ (m = .update ∨ m = .keyShare)) ∨
      ∃ t, row = .transaction t ∧ m = .update := by
    cases row <;> cases m <;> simp [Row.counts] at hm ⊢
  rcases hrow with ⟨a, rfl, rfl | rfl⟩ | ⟨t, rfl, rfl⟩ <;> cases u <;>
    cases hfk : cfg.foreignKeyLocks <;> simp [Mutation.locks, Request.claim, hfk]

theorem counts_taken {r : Request} {v : r.Answer} {row : Row} {m : LockMode}
    (h : (row, m) ∈ r.taken v) : row.counts m = true := by
  unfold Request.taken at h
  split at h
  all_goals first | (cases List.mem_singleton.1 h; rfl) | cases h

/-- The rows in question that an answered request locks are those it is known to take. -/
theorem taken_iff {r : Request} {c : Conn} {v : r.Result} (hv : (Conn.exec cfg r c).1 = .ok v)
    {row : Row} {m : LockMode} (hm : row.counts m = true) :
    (row, m) ∈ r.locks cfg c ↔
      (row, m) ∈ r.taken (.ok v) ∧ (m = .keyShare → cfg.foreignKeyLocks = true) := by
  cases r with
  | select q =>
    obtain ⟨-, rfl, -⟩ := Conn.exec_select_ok cfg c hv
    cases q with
    | accountForUpdate id =>
      show (row, m) ∈ ((Query.accountForUpdate id).eval c.view).toList.map _ ↔ _
      cases (Query.accountForUpdate id).eval c.view with
      | none => simp [Request.taken]
      | some a => simp +contextual [Request.taken]
    | transactionForUpdate reference =>
      show (row, m) ∈ ((Query.transactionForUpdate reference).eval c.view).toList.map _ ↔ _
      cases (Query.transactionForUpdate reference).eval c.view with
      | none => simp [Request.taken]
      | some t => simp +contextual [Request.taken]
    | _ => simp [Request.locks, Query.locks, Request.taken]
  | mutate u =>
    rw [show Request.locks cfg c (.mutate u) = u.locks cfg c.store.seqs c.view from rfl,
      mem_locks_mutate hm]
    cases u with
    | insertEntry => simp +contextual [Request.claim, Request.taken]; tauto
    | insertSnapshot => simp [Request.claim, Request.taken]; tauto
    | _ => simp [Request.claim, Request.taken]
  | _ => simp [Request.locks, Request.taken]

/-! ## What the machine keeps of it -/

variable [DecidableEq ι] {j : ι} {op : Operation}

omit [DecidableEq ι] in
/-- A request inside a transaction fails with its session, or leaves it as it was. -/
theorem exec_failed (cfg : Config) (c : Conn) {r : Request} (hr : r.ends = false) :
    (∃ e, (Conn.exec cfg r c).1 = .error e ∧ (Conn.exec cfg r c).2.session.failed = true) ∨
      ∃ v, (Conn.exec cfg r c).1 = .ok v ∧
        (Conn.exec cfg r c).2.session.failed = c.session.failed ∧
        (c.session.failed = true → r.taken (.ok v) = [] ∧ r.locks cfg c = []) := by
  cases r with
  | select q =>
    rw [Conn.exec_select]
    split
    · exact .inl ⟨_, rfl, ‹_›⟩
    · exact .inr ⟨_, rfl, rfl, fun hf => absurd hf ‹_›⟩
  | mutate m =>
    rw [Conn.exec_mutate]
    split
    · exact .inl ⟨_, rfl, ‹_›⟩
    · rename_i hf
      split
      · refine .inr ⟨_, rfl, ?_, fun h => absurd h hf⟩
        rw [Bool.not_eq_true] at hf
        exact hf.symm
      · exact .inl ⟨_, rfl, rfl⟩
  | commit => cases hr
  | rollback => cases hr
  | _ => exact .inr ⟨_, rfl, rfl, fun _ => ⟨rfl, rfl⟩⟩

/-- An answered request of the session itself. -/
theorem Shared.Stands.after {r : Request} (h : s.Stands cfg i held) :
    (s.after cfg i r).Stands cfg i
      ((lockOrder rank late op).next held r (Conn.exec cfg r (s.conn i)).1) := by
  have hlocks : (s.after cfg i r).locks =
      if r.ends || (Conn.exec cfg r (s.conn i)).2.session.failed then s.locks.release i
      else s.locks.grant i (s.wanted cfg i r) := rfl
  have hfailed : ((s.after cfg i r).sessions i).failed =
      (Conn.exec cfg r (s.conn i)).2.session.failed := by rw [Shared.after_self]
  -- a session whose locks are released holds nothing
  have released : (s.after cfg i r).locks = s.locks.release i →
      (s.after cfg i r).Stands cfg i [] := by
    intro hlocks
    refine ⟨fun row m _ hh => ?_, fun _ _ hmem => (List.not_mem_nil hmem).elim, fun _ => rfl⟩
    rw [hlocks] at hh
    simpa using (List.mem_filter.1 hh).2
  show Shared.Stands cfg i (ite _ _ _) _
  cases hr : r.ends with
  | true =>
    rw [hr, Bool.true_or, if_pos rfl] at hlocks
    rw [if_pos rfl]
    exact released hlocks
  | false =>
    rw [hr, Bool.false_or] at hlocks
    rw [if_neg (by simp)]
    rcases exec_failed cfg (s.conn i) hr with ⟨e, hv, hf⟩ | ⟨v, hv, hf, hnone⟩
    · rw [if_pos hf] at hlocks
      rw [hv]
      exact released hlocks
    rw [hv]
    show Shared.Stands cfg i (held ++ r.taken (.ok v)) _
    rw [hf] at hfailed hlocks
    cases hs : (s.conn i).session.failed with
    | true =>
      rw [hs, if_pos rfl] at hlocks
      rw [(hnone hs).1, h.refused hs]
      exact released hlocks
    | false =>
      have hs' : (s.sessions i).failed = false := hs
      rw [hs, if_neg (by simp), Shared.wanted, hs', if_neg (by simp)] at hlocks
      refine ⟨fun row m hm hh => ?_, fun row m hmem hfk => ?_, fun hf' => ?_⟩
      · rw [hlocks] at hh
        rcases List.mem_append.1 hh with hh | hh
        · exact List.mem_append_left _ (h.counted row m hm hh)
        · obtain ⟨x, hx, heq⟩ := List.mem_map.1 hh
          cases heq
          exact List.mem_append_right _ ((taken_iff hv hm).1 hx).1
      · rw [hlocks]
        rcases List.mem_append.1 hmem with hmem | hmem
        · exact LockTable.holds_grant_of_holds (h.holds row m hmem hfk)
        · exact LockTable.holds_grant ((taken_iff hv (counts_taken hmem)).2 ⟨hmem, hfk⟩)
      · rw [hfailed, hs] at hf'
        cases hf'

/-- A turn of another session. -/
theorem Shared.Stands.other {r : Request} (h : s.Stands cfg j held) (hj : j ≠ i) :
    (s.after cfg i r).Stands cfg j held := by
  have hholds : ∀ row m, (s.after cfg i r).locks.Holds j row m ↔ s.locks.Holds j row m := by
    intro row m
    show LockTable.Holds (ite _ _ _) _ _ _ ↔ _
    split
    · exact LockTable.holds_release_iff hj
    · exact LockTable.holds_grant_iff_of_ne hj
  refine ⟨fun row m hm hh => h.counted row m hm ((hholds row m).1 hh),
    fun row m hmem hfk => (hholds row m).2 (h.holds row m hmem hfk), fun hf => h.refused ?_⟩
  rwa [(Shared.after_frame hj).session] at hf

theorem Shared.Stands.finish (h : s.Stands cfg j held) (hj : j ≠ i) :
    (s.finish i).Stands cfg j held := by
  have hholds : ∀ row m, (s.finish i).locks.Holds j row m ↔ s.locks.Holds j row m := fun row m =>
    LockTable.holds_release_iff hj
  refine ⟨fun row m hm hh => h.counted row m hm ((hholds row m).1 hh),
    fun row m hmem hfk => (hholds row m).2 (h.holds row m hmem hfk), fun hf => h.refused ?_⟩
  rwa [(Shared.finish_frame hj).session] at hf

end protocol

end WalletLedger
