import WalletLedger.Concurrent.Locked
import WalletLedger.Concurrent.Settlement

/-!
# Settling a deposit at the same time

Any number of `settle` calls with one reference.  Each takes the row of the deposit
`FOR UPDATE`, reads its status under the lock and keeps the lock to its commit.

* `Authorized`, `Credited` — the two states of the deposit, by its row and its entries.
* `Effect.authorized`, `Effect.credited` — what `initiate` leaves, and what a lone
  settlement makes of it.
* `settle_decides` — the program of a settlement decides under the lock.
* `settled_under_lock` — in every interleaving at most one call settles the deposit, and
  every other call raises.
-/

namespace WalletLedger

variable {cfg : Config} {b b' : Books} {s s' : Sequences} {t : Transaction} {reference : String}

/-- The deposit waits for its settlement, and has no entry. -/
structure Authorized (b : Books) (t : Transaction) : Prop where
  transaction : t ∈ b.transactions
  pending : t.status = .pending
  positive : 0 < t.amount
  entries : b.entriesOf t.id = []

/-- A debit of the clearing account and a credit of the stored account by the amount of
the deposit. -/
def depositLines (t : Transaction) (clearingId accountId : Id) : List PostingLine :=
  [⟨clearingId, -t.amount, .debit, t.currency, .success⟩,
    ⟨accountId, t.amount, .credit, t.currency, .success⟩]

/-- The entries are those two. -/
def Credits (b : Books) (t : Transaction) (es : List LedgerEntry) : Prop :=
  ∃ clearing ∈ b.accounts, clearing.ownerId = clearingOwner ∧ clearing.currency = t.currency ∧
    ∃ accountId, t.details.accountId = .ok accountId ∧
      es.map LedgerEntry.line = depositLines t clearing.id accountId

/-- They are all the entries of the deposit. -/
def Credited (b : Books) (t : Transaction) : Prop := Credits b t (b.entriesOf t.id)

/-- What `initiate` leaves is an authorised deposit. -/
theorem Effect.authorized {accountId : Id} {amount : Decimal} {provider : String}
    {context : DepositContext} {correlationId : Option String} (hk : b.Keyed s)
    (hk' : b'.Keyed s')
    (he : Effect cfg b (.initiateDeposit accountId amount provider context correlationId) b') :
    ∃ t, Authorized b' t := by
  cases he with
  | initiateDeposit account money t reference account_mem account_id money_eq positive records =>
    refine ⟨{ t with reference := some reference }, ?_, records.status, ?_, ?_⟩
    · exact mem_modify.2 ⟨t, List.mem_append_right _ (by simp), by simp⟩
    · exact records.amount ▸ positive
    · -- no earlier entry belongs to the new transaction
      refine List.filter_eq_nil_iff.2 fun x hx hxt => ?_
      obtain ⟨y, hy, hyx⟩ := hk.entryTransaction x hx
      have hids : ((b.transactions ++ [t]).map Transaction.id).Nodup := by
        have hmap : ((Write.setReference t.id reference).applyBooks
            (b.addTransaction t)).transactions.map Transaction.id =
            (b.transactions ++ [t]).map Transaction.id := map_modify fun _ => rfl
        exact hmap ▸ hk'.transactionIds
      rw [List.map_append, List.nodup_append] at hids
      exact hids.2.2 y.id (List.mem_map_of_mem hy) t.id (by simp)
        (hyx.trans (of_decide_eq_true hxt))

/-- In both states the deposit is successful exactly when it has been credited. -/
theorem credited_iff (hk : b.Keyed s) (hmem : t ∈ b.transactions)
    (ht : Authorized b t ∨ t.status = .success ∧ Credited b t) :
    b.HasStatus t.id .success ↔ Credited b t := by
  rcases ht with ha | ⟨hsuccess, hcredited⟩
  · refine iff_of_false ?_ ?_
    · rintro ⟨x, hx, hid, hstatus⟩
      obtain rfl : x = t := eq_of_key_eq hk.transactionIds hx hmem hid
      rw [ha.pending] at hstatus
      cases hstatus
    · rintro ⟨clearing, -, -, -, accountId, -, hlines⟩
      rw [ha.entries] at hlines
      cases hlines
  · exact iff_of_true ⟨t, hmem, rfl, hsuccess⟩ hcredited

section settlement

variable {confirmedAmount : Option Decimal} {confirmedCurrency : Option String}

/-- A lone settlement adds the two entries, and nothing else is left of the deposit. -/
theorem Effect.credited (hk : b.Keyed s) (hl : b.Linked)
    (hfound : b.transactions.find? (fun x => x.reference = some reference) = some t)
    (ha : Authorized b t)
    (he : Effect cfg b (.settle reference confirmedAmount confirmedCurrency) b') :
    b'.HasStatus t.id .success ∧ Credited b' t ∧
      b'.entries = b.entries ++ b'.entriesOf t.id := by
  cases he with
  | settle t' authorized account clearing b₁ _ es found pending authorized_eq reconciled account_id
      account_mem owner code opened posted cuts =>
    obtain rfl : t' = t := Option.some.inj (found.symm.trans hfound)
    obtain ⟨haccounts, htx, hes⟩ := cuts.rest
    have hamount : authorized.amount = t'.amount := hl.amount_of_make ha.transaction authorized_eq
    have hcurrency : authorized.currency = t'.currency :=
      hl.currency_of_make ha.transaction authorized_eq
    have haccount : account.currency = t'.currency :=
      hl.currency_of_names hk ha.transaction pending account_mem (.inl account_id)
    have hentries : b'.entries = b.entries ++ es := by
      rw [hes]
      show b₁.entries ++ es = _
      rw [opened.rest.2.1]
    have hof : b'.entriesOf t'.id = es := by
      have hold : b.entries.filter (fun e => decide (e.transactionId = t'.id)) = [] := ha.entries
      rw [Books.entriesOf, hentries, List.filter_append, hold, List.nil_append, List.filter_eq_self]
      exact fun e he => decide_eq_true (posted.transaction e he)
    refine ⟨?_, ⟨clearing, ?_, owner, ?_, account.id, account_id, ?_⟩, hof.symm ▸ hentries⟩
    · rw [Books.HasStatus.congr htx]
      refine ⟨_, Books.mem_setTransaction (t := t') ?_ .success, rfl, rfl⟩
      show t' ∈ b₁.transactions
      rw [opened.rest.1]
      exact ha.transaction
    · rw [haccounts]
      exact opened.mem
    · rw [code, hl.codes _ account_mem, haccount]
    · rw [hof, posted.lines, depositLines, debitLine, creditLine, hamount, hcurrency,
        abs_of_pos ha.positive]

/-- A settlement finds the deposit pending. -/
theorem Effect.found_pending
    (hfound : b.transactions.find? (fun x => x.reference = some reference) = some t)
    (he : Effect cfg b (.settle reference confirmedAmount confirmedCurrency) b') :
    t.status = .pending := by
  cases he with
  | settle t' authorized account clearing b₁ _ es found pending authorized_eq reconciled account_id
      account_mem owner code opened posted cuts =>
    obtain rfl : t' = t := Option.some.inj (found.symm.trans hfound)
    exact pending

/-- After it the row found by the reference is no longer pending. -/
theorem Effect.found_settled
    (hfound : b.transactions.find? (fun x => x.reference = some reference) = some t)
    (he : Effect cfg b (.settle reference confirmedAmount confirmedCurrency) b') :
    b'.transactions.find? (fun x => x.reference = some reference) =
        some { t with status := .success } ∧ ¬ b'.HasStatus t.id .pending := by
  cases he with
  | settle t' authorized account clearing b₁ _ es found pending authorized_eq reconciled account_id
      account_mem owner code opened posted cuts =>
    obtain rfl : t' = t := Option.some.inj (found.symm.trans hfound)
    have htx : b'.transactions = (b.setTransaction t'.id .success).transactions := by
      rw [cuts.rest.2.1]
      show modify Transaction.id t'.id _ b₁.transactions = _
      rw [opened.rest.1]
      rfl
    constructor
    · rw [htx]
      have hfind : (b.setTransaction t'.id .success).transactions.find?
          (fun x => decide (x.reference = some reference)) = _ :=
        find?_modify (g := fun x : Transaction => { x with status := .success }) fun _ => rfl
      rw [hfound, Option.map_some, if_pos rfl] at hfind
      exact hfind
    · rw [Books.HasStatus.congr htx]
      exact Books.not_hasStatus_setTransaction t'.id (by simp)

/-! ## The program -/

theorem settle_committing :
    Committing (DepositService.settle cfg reference confirmedAmount confirmedCurrency) := by
  refine .bind (quiet_select _) fun found => .bind (quiet_ofOption _ _) fun t => ?_
  refine .bind (quiet_raiseIf _ _) fun _ => .bind (quiet_ofExcept _) fun authorized => ?_
  refine .bind (quiet_ofExcept _) fun _ => .bind (quiet_ofExcept _) fun accountId => ?_
  refine .bind (quiet_lock _) fun account => ?_
  refine .bind (quiet_getOrCreateInternal _ _) fun clearing => ?_
  refine .bind (quiet_post _ _) fun _ => .bind (quiet_mutate _) fun _ => ?_
  refine .bind (quiet_maybeSnapshot _) fun _ => .bind (quiet_maybeSnapshot _) fun _ => ?_
  exact .commit _

/-- The program of a settlement locks the row it decides on, and gives up on a row that
is not pending. -/
theorem settle_decides {Found : Books → Prop}
    (hfound : ∀ b, Found b → ∃ x ∈ b.transactions, x.id = t.id ∧
      b.transactions.find? (fun x => x.reference = some reference) = some x) :
    Decides (.transaction t.id) (fun b => b.HasStatus t.id .pending) Found
      ((Operation.settle reference confirmedAmount confirmedCurrency).program cfg) := by
  refine ⟨settle_committing.map _, _, _, rfl, fun db hdb => ?_⟩
  obtain ⟨x, hx, hid, hfind⟩ := hfound _ hdb
  have heval : (Query.transactionForUpdate (some reference)).eval db = some x := hfind
  by_cases hpending : x.status = .pending
  · refine .inr ⟨?_, x, hx, hid, hpending⟩
    rw [Query.locks, heval, Option.toList_some, List.map_singleton, hid]
    exact List.mem_singleton_self _
  · refine .inl ⟨.domain (.invalidTransactionState x.status "dépôt déjà traité"), ?_⟩
    rw [heval]
    show (raiseIf (x.status ≠ .pending) _ >>= _ : App Transaction).bind _ = _
    rw [raiseIf, if_pos hpending]
    rfl

end settlement

/-! ## Any number of calls -/

variable {ι : Type} [DecidableEq ι]

/-- The world in which any number of calls start to settle the deposit, each with the
amount and the currency its provider confirms. -/
def settling (cfg : Config) (s₀ : Store) (reference : String)
    (calls : ι → Option Decimal × Option String) :
    World ι Request Request.Answer Exn Unit (Shared ι) :=
  World.start (Shared.start s₀) fun i =>
    (Operation.settle reference (calls i).1 (calls i).2).program cfg

/-- **One settlement.**  In every interleaving at most one call commits anything to the
books; it adds a debit of the clearing account and a credit of the stored account by the
authorised amount.  The deposit is successful exactly when these are its entries, and
every call that has ended without committing them has raised. -/
theorem settled_under_lock {s₀ : Store} (hs : s₀.Sound)
    (hfound : s₀.db.books.transactions.find? (fun x => x.reference = some reference) = some t)
    (ht : Authorized s₀.db.books t ∨ t.status = .success ∧ Credited s₀.db.books t)
    {calls : ι → Option Decimal × Option String}
    {w : World ι Request Request.Answer Exn Unit (Shared ι)}
    (h : Reaches (machine ι cfg) anyTurn (settling cfg s₀ reference calls) w) :
    let b := w.shared.store.db.books
    (w.shared.effects = [] ∧ b = s₀.db.books ∨
      ∃ i ws es, w.shared.effects = [(i, ws)] ∧ b.entries = s₀.db.books.entries ++ es ∧
        (∀ e ∈ es, e.transactionId = t.id) ∧ Credits b t es) ∧
      (b.HasStatus t.id .success ↔ Credited b t) ∧
      ∀ i o, (w.tasks i).outcome = some o → ¬ w.shared.Decided i → ∃ e, o = .error e := by
  have hmem := List.mem_of_find?_eq_some hfound
  have hrow : ∀ b, Found s₀.db.books
      (fun i => Effect cfg s₀.db.books (.settle reference (calls i).1 (calls i).2)) b →
      ∃ x ∈ b.transactions, x.id = t.id ∧
        b.transactions.find? (fun x => x.reference = some reference) = some x := by
    rintro b (rfl | ⟨i, he⟩)
    · exact ⟨t, hmem, rfl, hfound⟩
    · have hfind := (he.found_settled hfound).1
      exact ⟨_, List.mem_of_find?_eq_some hfind, rfl, hfind⟩
  obtain ⟨honce, hreturned⟩ := decided_of_reaches (fun i => Operation.commits hs.keyed _)
    (fun i => settle_decides hrow) (fun i b he => (he.found_settled hfound).2) h
  have hraised : ∀ i o, (w.tasks i).outcome = some o → ¬ w.shared.Decided i →
      ∃ e, o = .error e := by
    intro i o ho hno
    cases o with
    | error e => exact ⟨e, rfl⟩
    | ok u => exact absurd (hreturned i u ho) hno
  cases honce with
  | untouched heff hb =>
    refine ⟨.inl ⟨heff, hb⟩, ?_, hraised⟩
    rw [hb]
    exact credited_iff hs.keyed hmem ht
  | committed i ws heff he =>
    rcases ht with ha | ⟨hsuccess, -⟩
    · obtain ⟨hstatus, hcredited, hentries⟩ := he.credited hs.keyed hs.linked hfound ha
      refine ⟨.inr ⟨i, ws, _, heff, hentries, fun e he => ?_, hcredited⟩,
        iff_of_true hstatus hcredited, hraised⟩
      exact of_decide_eq_true (List.mem_filter.1 he).2
    · rw [he.found_pending hfound] at hsuccess
      cases hsuccess

/-! ## Two calls -/

/-- Alice has deposited 100, and the provider has not confirmed yet. -/
def deposit : List Operation :=
  [.createAccount "alice" "EUR", .initiateDeposit 0 100 "stripe" ⟨none, none⟩ (some "c1")]

/-- The store after it. -/
def depositStore : Store := runAll (offlineConfig 100) deposit Store.empty

/-- The deposit of 100. -/
def deposited : Transaction :=
  ⟨1, .deposit, .pending, 100, "EUR", .deposit "stripe" 0 ⟨none, none⟩, some "1", some "c1"⟩

theorem deposit_authorized : Authorized depositStore.db.books deposited :=
  ⟨by decide +kernel, rfl, by decide +kernel, by decide +kernel⟩

/-- A confirmation is replayed with another amount before the first call has ended: it
waits for the lock, then raises. -/
theorem settled_under_lock_replayed :
    ∃ w, Reaches (machine (Fin 2) (offlineConfig 100)) anyTurn
        (settling (offlineConfig 100) depositStore "1"
          fun i => if i = 0 then (none, none) else (some 90, some "EUR")) w ∧
      w.Quiescent ∧ w.shared.store.db.books.HasStatus 1 .success ∧
      Credited w.shared.store.db.books deposited := by
  obtain ⟨w, hw, hq, hsuccess⟩ : ∃ w, Reaches (machine (Fin 2) (offlineConfig 100)) anyTurn
      (settling (offlineConfig 100) depositStore "1"
        fun i => if i = 0 then (none, none) else (some 90, some "EUR")) w ∧
      w.Quiescent ∧ w.shared.store.db.books.HasStatus 1 .success :=
    exists_reaches (List.replicate 18 0 ++ List.replicate 2 1) (by decide +kernel)
  have hs : depositStore.Sound := sound_of_run (Run.foldl deposit)
  have hfound : depositStore.db.books.transactions.find? (fun x => x.reference = some "1") =
      some deposited := by decide +kernel
  exact ⟨w, hw, hq, hsuccess,
    (settled_under_lock hs hfound (.inl deposit_authorized) hw).2.1.1 hsuccess⟩

end WalletLedger
