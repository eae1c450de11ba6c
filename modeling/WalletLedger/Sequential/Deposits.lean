import WalletLedger.Sequential.Reservations

/-!
# Deposits that wait

A deposit waits for its provider's confirmation with the status that two-phase transfers
wait in, and the transfer endpoints take any transaction.

* `Operation.Spares` — an operation that does not settle the deposit, nor is a `fail` call
  on it; `Effect.spares`: it leaves the deposit alone.
* `settle_throws` — what is left of a settlement once the status has been checked does not
  refuse the state.
* `pending_deposits_kept` — the theorem, for every run; `deposit_failed` is a `fail` call
  that takes a deposit away from its provider.
-/

namespace WalletLedger

variable {cfg : Config} {b b' : Books} {s s' : Sequences}

/-- The operation does not settle the deposit, nor is it a `fail` call on it. -/
def Operation.Spares (t : Transaction) : Operation → Store → Prop
  | .settle reference _ _, s =>
      s.db.books.transactions.find? (fun x => x.reference = some reference) ≠ some t
  | .fail transactionId, _ => transactionId ≠ t.id
  | _, _ => True

instance (t : Transaction) : (op : Operation) → (s : Store) → Decidable (op.Spares t s)
  | .settle _ _ _, _ => inferInstanceAs (Decidable (_ ≠ _))
  | .fail _, _ => inferInstanceAs (Decidable (_ ≠ _))
  | .createAccount _ _, _ => isTrue trivial
  | .initiateDeposit _ _ _ _ _, _ => isTrue trivial
  | .execute _ _ _ _, _ => isTrue trivial
  | .initiate _ _ _ _, _ => isTrue trivial
  | .commit _, _ => isTrue trivial
  | .executeFxTransfer _ _ _ _ _, _ => isTrue trivial
  | .reverse _ _, _ => isTrue trivial

/-- A change to another row. -/
theorem mem_modify_of_ne {t : Transaction} {id : Id} {g : Transaction → Transaction}
    {l : List Transaction} (ht : t ∈ l) (hid : t.id ≠ id) : t ∈ modify Transaction.id id g l :=
  mem_modify.2 ⟨t, ht, by rw [if_neg hid]⟩

/-- A deposit that waits is left alone by an operation that spares it. -/
theorem Effect.spares {st : Store} (hs : st.Ordered) {op : Operation}
    (he : Effect cfg st.db.books op b') (hk' : b'.Keyed s') {t : Transaction}
    (ht : t ∈ st.db.books.transactions) (hd : t.type = .deposit) (hp : t.status = .pending)
    (hspares : op.Spares t st) : t ∈ b'.transactions := by
  have hrow : ∀ x ∈ st.db.books.transactions, x.id = t.id → x = t := fun x hx hid =>
    eq_of_key_eq hs.keyed.transactionIds hx ht hid
  have hids := hk'.transactionIds
  cases he with
  | createAccount a owner code new => exact ht
  | initiateDeposit account money u reference account_mem account_id money_eq positive records =>
    refine mem_modify_of_ne (List.mem_append_left _ ht) ?_
    have hsame : ((Write.setReference u.id reference).applyBooks
        (st.db.books.addTransaction u)).transactions.map Transaction.id =
        (st.db.books.transactions ++ [u]).map Transaction.id := map_modify fun _ => rfl
    rw [hsame] at hids
    exact fresh_of_nodup hids t ht
  | settle u authorized account clearing b₁ _ es found pending authorized_eq reconciled account_id
      account_mem owner code opened posted cuts =>
    rw [cuts.rest.2.1]
    refine mem_modify_of_ne (opened.rest.1.symm ▸ ht) fun hid => hspares ?_
    rw [found, hrow u (List.mem_of_find?_eq_some found) hid.symm]
  | execute k u es _ records posted cuts =>
    rw [cuts.rest.2.1]
    exact List.mem_append_left _ ht
  | initiate k u e records line transaction => exact List.mem_append_left _ ht
  | commit u money debit credit sender receiver _ found pending money_eq approved reserved
      sender_mem sender_id receiver_id receiver_mem line transaction balanced cuts =>
    rw [cuts.rest.2.1]
    refine mem_modify_of_ne ht fun hid => ?_
    -- what `commit` finds a debit for is a transfer
    obtain ⟨hu, -⟩ := transaction_of_find found
    have hdebit := List.find?_some reserved
    simp only [LedgerEntry.isOf, decide_eq_true_eq] at hdebit
    obtain ⟨htype, -⟩ := hs.reservations.reserved hs.keyed (List.mem_of_find?_eq_some reserved)
      hdebit.1.2 hu hdebit.1.1
    rw [hrow u hu hid.symm, hd] at htype
    cases htype
  | fail u found pending =>
    refine mem_modify_of_ne ?_ ?_
    · rw [(Books.setEntries_rest _ _ _).2]
      exact ht
    · rw [(transaction_of_find found).2]
      exact Ne.symm hspares
  | executeFxTransfer k received poolFrom poolTo b₁ b₂ _ u es exchange received_eq owner_from
      code_from opened_from owner_to code_to opened_to records posted cuts =>
    rw [cuts.rest.2.1]
    have hb₂ : b₂.transactions = st.db.books.transactions :=
      opened_to.rest.1.trans opened_from.rest.1
    exact List.mem_append_left _ (hb₂.symm ▸ ht)
  | reverse u reversal lines es _ found success original records mirrored balanced posted cuts =>
    rw [cuts.rest.2.1]
    refine mem_modify_of_ne (List.mem_append_left _ ht) fun hid => ?_
    rw [hrow u (transaction_of_find found).1 hid.symm, hp] at success
    cases success

/-! ## A settlement and the state of its deposit -/

/-- The exception refuses the state of a transaction. -/
def Exn.refusesState : Exn → Bool
  | .domain (.invalidTransactionState _ _) => true
  | _ => false

section throws

variable {α β : Type}

/-- The program never refuses the state of a transaction. -/
abbrev AcceptsState (p : App α) : Prop := p.Throws fun e => e.refusesState = false

theorem acceptsState_ask (r : Request) : AcceptsState (ask r) := fun v => by
  cases v <;> trivial

theorem acceptsState_ofOption {e : Exn} (he : e.refusesState = false) (o : Option α) :
    AcceptsState (ofOption e o) := by
  cases o with
  | none => exact he
  | some a => trivial

theorem make_accepts {amount : Decimal} {currency : String} {e : Exn}
    (h : Money.make amount currency = .error e) : e.refusesState = false := by
  unfold Money.make at h
  split at h <;> cases h
  rfl

theorem acceptsState_post (transaction : TransactionAggregate) (id : Id) :
    AcceptsState (LedgerService.post transaction id) := by
  have hcheck : ∀ (totals : List (String × Decimal)) (e : Exn),
      TransactionAggregate.checkTotals totals = .error e → e.refusesState = false := by
    intro totals e he
    induction totals with
    | nil => cases he
    | cons t totals ih =>
      unfold TransactionAggregate.checkTotals at he
      split at he
      · cases he
        rfl
      · exact ih he
  exact (Program.throws_ofExcept (hcheck _)).bind fun _ => .forEach fun _ _ => acceptsState_ask _

theorem acceptsState_maybeSnapshot (account : Account) :
    AcceptsState (LedgerService.maybeSnapshot cfg account) := by
  refine (acceptsState_ask _).bind fun snapshot => (acceptsState_ask _).bind fun entries => ?_
  split
  · trivial
  · exact (acceptsState_ofOption rfl _).bind fun _ => acceptsState_ask _

theorem acceptsState_getOrCreateInternal (ownerId currency : String) :
    AcceptsState (AccountService.getOrCreateInternal ownerId currency) := by
  refine (acceptsState_ask _).bind fun found => ?_
  cases found with
  | none => exact acceptsState_ask _
  | some a => trivial

theorem acceptsState_publish (event : DomainEvent) :
    AcceptsState (EventBus.publish (subscribers cfg) event) :=
  .forEach fun _ _ => .attempt fun _ => trivial

/-- A sequence of pure computations raises what its parts raise. -/
theorem error_of_bind {E : Exn → Prop} {x : Except Exn α} {f : α → Except Exn β}
    (hx : ∀ e, x = .error e → E e) (hf : ∀ a e, f a = .error e → E e) {e : Exn}
    (h : (x >>= f) = .error e) : E e := by
  cases x with
  | error e' =>
    cases h
    exact hx _ rfl
  | ok a => exact hf a e h

theorem reconcile_accepts {t : Transaction} {authorized : Money} {amount : Option Decimal}
    {currency : Option String} {e : Exn}
    (h : DepositService.reconcile t authorized amount currency = .error e) :
    e.refusesState = false := by
  have hcompare : ∀ (m : Money) (e : Exn), (if m ≠ authorized then
      throw (.domain (.depositAmountMismatch authorized.amount none (some m.amount) none))
      else pure () : Except Exn Unit) = .error e → e.refusesState = false := by
    intro m e he
    split at he <;> cases he
    rfl
  unfold DepositService.reconcile at h
  cases currency with
  | none =>
    cases amount with
    | none => exact hcompare _ e h
    | some amount => exact error_of_bind (fun _ => make_accepts) hcompare h
  | some c =>
    dsimp only at h
    split at h
    · cases h
      rfl
    · cases amount with
      | none => exact hcompare _ e h
      | some amount => exact error_of_bind (fun _ => make_accepts) hcompare h

theorem accountId_accepts {details : Details} {e : Exn} (h : details.accountId = .error e) :
    e.refusesState = false := by
  cases details <;> cases h <;> rfl

/-- A settlement whose transaction waits is not refused for its state. -/
theorem settle_throws {c : Conn} {b₀ : Books} (ho : c.Open b₀ b) {reference : String}
    {t : Transaction}
    (hfound : b.transactions.find? (fun x => x.reference = some reference) = some t)
    (hp : t.status = .pending) (amount : Option Decimal) (currency : Option String) :
    Ends cfg (DepositService.settle cfg reference amount currency) c fun o _ =>
      ∀ e, o = .error e → e.refusesState = false := by
  unfold DepositService.settle DepositService.settleFound
  have hquery : (Query.transactionForUpdate (some reference)).eval c.view = some t := by
    show c.view.books.transactions.find? _ = _
    rwa [ho.sees]
  refine ends_select ho ?_
  rw [hquery]
  refine ends_ofOption rfl (ends_raiseIf (by simp [hp]) ?_)
  -- the status has been checked, and the rest raises other exceptions
  refine fun e he => Program.Throws.run (E := fun e => e.refusesState = false) ?_ he
  refine (Program.throws_ofExcept fun _ => make_accepts).bind fun authorized => ?_
  refine (Program.throws_ofExcept fun _ => reconcile_accepts).bind fun _ => ?_
  refine (Program.throws_ofExcept fun _ => accountId_accepts).bind fun accountId => ?_
  refine ((acceptsState_ask _).bind fun _ => acceptsState_ofOption rfl _).bind fun account => ?_
  refine (acceptsState_getOrCreateInternal _ _).bind fun clearing => ?_
  refine (acceptsState_post _ _).bind fun _ => (acceptsState_ask _).bind fun _ => ?_
  refine (acceptsState_maybeSnapshot _).bind fun _ => ?_
  refine (acceptsState_maybeSnapshot _).bind fun _ => ?_
  refine (acceptsState_ask _).bind fun _ => ?_
  refine ((acceptsState_ask _).bind fun _ => acceptsState_ofOption rfl _).bind fun txn => ?_
  refine ((acceptsState_ask _).bind fun _ => acceptsState_ofOption rfl _).bind fun account => ?_
  exact (acceptsState_publish _).bind fun _ => trivial

end throws

/-! ## Every run -/

theorem Store.Ordered.spares {s : Store} (h : s.Ordered) {op : Operation} {t : Transaction}
    (ht : t ∈ s.db.books.transactions) (hd : t.type = .deposit) (hp : t.status = .pending)
    (hspares : op.Spares t s) : t ∈ (op.run cfg s).db.books.transactions := by
  rcases Operation.run_effect h.keyed op with hb | he
  · rw [hb]
    exact ht
  · exact he.spares h (h.toSound.run op).keyed ht hd hp hspares

/-- **Deposits wait.**  In every run without a `fail` call on it, a pending deposit stays as
it is until it is settled, and a settlement that finds it is not refused for its state; a
`fail` call on it, in any of these states, makes it a failed one. -/
theorem pending_deposits_kept {s₀ s : Store} {t : Transaction}
    (h₀ : Run (Operation.run cfg) anyOp Store.empty s₀) (ht : t ∈ s₀.db.books.transactions)
    (hd : t.type = .deposit) (hp : t.status = .pending)
    (h : Run (Operation.run cfg) (Operation.Spares t) s₀ s) :
    t ∈ s.db.books.transactions ∧
      (∀ reference amount currency,
        s.db.books.transactions.find? (fun x => x.reference = some reference) = some t →
        ∀ e, (Operation.settle reference amount currency).outcome cfg s = .error e →
          e.refusesState = false) ∧
      { t with status := .failed } ∈
        ((Operation.fail t.id).run cfg s).db.books.transactions := by
  have hinv : s.Ordered ∧ t ∈ s.db.books.transactions :=
    h.invariant (I := fun s => s.Ordered ∧ t ∈ s.db.books.transactions) ⟨ordered_of_run h₀, ht⟩
      fun op s hs hC => ⟨hs.1.run op, hs.1.spares hs.2 hd hp hC⟩
  obtain ⟨hs, hmem⟩ := hinv
  have hopen : Conn.Open ⟨s, Session.fresh⟩ s.db.books s.db.books := Conn.open_fresh hs.keyed
  refine ⟨hmem, fun reference amount currency hfound e he => ?_, ?_⟩
  · have hends : Ends cfg ((Operation.settle reference amount currency).program cfg)
        ⟨s, Session.fresh⟩ fun o _ => ∀ e, o = .error e → e.refusesState = false := by
      refine ends_map ?_
      have hsettle : Ends cfg (DepositService.settle cfg reference amount currency)
          ⟨s, Session.fresh⟩ fun o _ => ∀ e, o = .error e → e.refusesState = false :=
        settle_throws hopen hfound hp amount currency
      intro e he
      refine hsettle e ?_
      cases ho : (runOn cfg (DepositService.settle cfg reference amount currency)
          ⟨s, Session.fresh⟩).1 <;> rw [ho] at he <;> cases he
      rfl
    exact hends e he
  · have hends : Ends cfg (TransferService.fail cfg t.id) ⟨s, Session.fresh⟩ fun o c =>
        o.isOk = true ∧ c.store.db.books = s.db.books.released t.id := fail_ends hopen hmem hp
    have hprogram : Ends cfg ((Operation.fail t.id).program cfg) ⟨s, Session.fresh⟩ fun _ c =>
        c.store.db.books = s.db.books.released t.id := ends_map hends.2
    have hbooks : ((Operation.fail t.id).run cfg s).db.books = s.db.books.released t.id := hprogram
    rw [hbooks]
    refine Books.mem_setTransaction ?_ .failed
    rw [(Books.setEntries_rest _ _ _).2]
    exact hmem

/-- A deposit of 100 that its provider has not confirmed yet. -/
def waitingDeposit : List Operation :=
  [.createAccount "alice" "EUR", .initiateDeposit 0 100 "stripe" ⟨none, none⟩ (some "c1")]

/-- A `fail` call takes it, and the provider's confirmation is refused. -/
theorem deposit_failed :
    let s := runAll (offlineConfig 100) waitingDeposit Store.empty
    let s' := (Operation.fail 1).run (offlineConfig 100) s
    ∃ t ∈ s.db.books.transactions, t.type = .deposit ∧ t.status = .pending ∧
      t ∉ s'.db.books.transactions ∧ { t with status := .failed } ∈ s'.db.books.transactions ∧
      (Operation.settle "1" (some 100) (some "eur")).outcome (offlineConfig 100) s' =
        .error (.domain (.invalidTransactionState .failed "dépôt déjà traité")) := by
  decide +kernel

/-- Through the settlement of another deposit it keeps waiting. -/
theorem deposit_waits :
    let s := runAll (offlineConfig 100) waitingDeposit Store.empty
    let s' := runAll (offlineConfig 100)
      [.initiateDeposit 0 30 "stripe" ⟨none, none⟩ (some "c2"), .settle "2" (some 30) none] s
    ∃ t ∈ s'.db.books.transactions, t.type = .deposit ∧ t.status = .pending ∧
      t.reference = some "1" := by
  intro s s'
  have hrun : Run (Operation.run (offlineConfig 100)) anyOp Store.empty s := Run.foldl _
  have hspared : Run (Operation.run (offlineConfig 100))
      (Operation.Spares ⟨1, .deposit, .pending, 100, "EUR", .deposit "stripe" 0 ⟨none, none⟩,
        some "1", some "c1"⟩) s s' := Run.of_along (by decide +kernel)
  have hkept := pending_deposits_kept hrun (by decide +kernel) rfl rfl hspared
  exact ⟨_, hkept.1, rfl, rfl, rfl⟩

end WalletLedger
