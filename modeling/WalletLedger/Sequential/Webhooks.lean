import WalletLedger.Sequential.Settling
import WalletLedger.Api.Webhooks

/-!
# Webhooks

A webhook request is processed alone, like an operation: it does what a settlement does, or
nothing.

* `Books.Charged` — every deposit is positive and carries the reference that its provider
  has returned.
-/

namespace WalletLedger

variable {cfg : Config} {b b' : Books} {s s' : Sequences}

/-! ## Deposits as they were initiated -/

/-- The row of a deposit: positive, with the reference that its provider has returned. -/
structure Transaction.Charged (cfg : Config) (t : Transaction) (provider : String)
    (context : DepositContext) : Prop where
  positive : 0 < t.amount
  reference : ∃ adapter reference, cfg.getPaymentProvider provider = .ok adapter ∧
    adapter.createDeposit t.amount t.currency t.id.text context = .ok reference ∧
    t.reference = some reference

/-- Every deposit is. -/
def Books.Charged (cfg : Config) (b : Books) : Prop :=
  ∀ t ∈ b.transactions, ∀ provider accountId context,
    t.details = .deposit provider accountId context → t.Charged cfg provider context

namespace Books.Charged

theorem congr (h : b.Charged cfg) (ht : b'.transactions = b.transactions) : b'.Charged cfg := by
  unfold Books.Charged
  rw [ht]
  exact h

/-- A new row that is no deposit. -/
theorem addTransaction (h : b.Charged cfg) {t : Transaction}
    (ht : ∀ p a x, t.details ≠ .deposit p a x) : (b.addTransaction t).Charged cfg := by
  intro y hy p a x hd
  rcases List.mem_append.1 hy with hy | hy
  · exact h y hy p a x hd
  · rw [List.mem_singleton.1 hy] at hd
    exact absurd hd (ht p a x)

theorem setTransaction (h : b.Charged cfg) (id : Id) (status : TransactionStatus) :
    (b.setTransaction id status).Charged cfg := by
  intro y hy p a x hd
  obtain ⟨u, hu, rfl⟩ := mem_modify.1 hy
  split at hd
  · rename_i hid
    rw [if_pos hid]
    exact ⟨(h u hu p a x hd).positive, (h u hu p a x hd).reference⟩
  · rename_i hid
    rw [if_neg hid]
    exact h u hu p a x hd

end Books.Charged

theorem Effect.charged {op : Operation} (hk' : b'.Keyed s') (h : b.Charged cfg)
    (he : Effect cfg b op b') : b'.Charged cfg := by
  cases he with
  | createAccount a owner code new => exact h.congr rfl
  | initiateDeposit account money t reference account_mem account_id money_eq positive records
      charged =>
    have hids : ((Write.setReference t.id reference).applyBooks
        (b.addTransaction t)).transactions.map Transaction.id =
        (b.transactions ++ [t]).map Transaction.id := map_modify fun _ => rfl
    have hfresh := fresh_of_nodup (hids ▸ hk'.transactionIds)
    intro y hy p a x hd
    obtain ⟨u, hu, rfl⟩ := mem_modify.1 hy
    rcases List.mem_append.1 hu with hu | hu
    · rw [if_neg (hfresh u hu)] at hd ⊢
      exact h u hu p a x hd
    · obtain rfl := List.mem_singleton.1 hu
      obtain ⟨adapter, hadapter, hreference⟩ := charged
      rw [if_pos rfl] at hd ⊢
      have hdetails : u.details = .deposit p a x := hd
      rw [records.details] at hdetails
      cases hdetails
      rw [← records.amount, ← records.currency] at hreference
      exact ⟨records.amount ▸ positive, adapter, reference, hadapter, hreference, rfl⟩
  | settle t authorized account clearing b₁ _ es found pending authorized_eq reconciled account_id
      account_mem owner code opened posted cuts =>
    have h₁ : b₁.Charged cfg := h.congr opened.rest.1
    have hset : ((b₁.addEntries es).setTransaction t.id .success).Charged cfg :=
      (h₁.congr rfl).setTransaction _ _
    exact hset.congr cuts.rest.2.1
  | execute k t es _ records posted cuts =>
    exact (h.addTransaction (t := t) (by simp [records.details])).congr cuts.rest.2.1
  | initiate k t e records line transaction =>
    exact (h.addTransaction (t := t) (by simp [records.details])).congr rfl
  | commit t money debit credit sender receiver _ found pending money_eq approved reserved
      sender_mem sender_id receiver_id receiver_mem line transaction balanced cuts =>
    have hset : (((b.setEntry debit.id .success).addEntries [credit]).setTransaction t.id
        .success).Charged cfg := (h.congr rfl).setTransaction _ _
    exact hset.congr cuts.rest.2.1
  | fail t found pending =>
    exact (h.congr (Books.setEntries_rest _ _ _).2).setTransaction _ _
  | executeFxTransfer k received poolFrom poolTo b₁ b₂ _ t es exchange received_eq owner_from
      code_from opened_from owner_to code_to opened_to records posted cuts =>
    have h₂ : b₂.Charged cfg := (h.congr opened_from.rest.1).congr opened_to.rest.1
    exact (h₂.addTransaction (t := t) (by simp [records.details])).congr cuts.rest.2.1
  | reverse t reversal lines es _ found success original records mirrored balanced posted cuts =>
    have hadd : (b.addTransaction reversal).Charged cfg :=
      h.addTransaction (by simp [records.details])
    have hset : (((b.addTransaction reversal).addEntries es).setTransaction t.id
        .reversed).Charged cfg := (hadd.congr rfl).setTransaction _ _
    exact hset.congr cuts.rest.2.1

/-! ## A request, alone on the store -/

/-- A webhook request alone on the store. -/
def WebhookRequest.run (cfg : Config) (pay : Payments) (r : WebhookRequest) (s : Store) : Store :=
  (Program.run (Conn.exec cfg) (r.process cfg pay) ⟨s, Session.fresh⟩).2.store

/-- What reaches the ledger: an operation, or a webhook request. -/
inductive Call where
  | operation (op : Operation)
  | webhook (r : WebhookRequest)

/-- A call alone on the store. -/
def Call.run (cfg : Config) (pay : Payments) : Call → Store → Store
  | .operation op, s => op.run cfg s
  | .webhook r, s => r.run cfg pay s

/-- The checks of a request: the deposit it would settle, its authorised amount and its
account; `none` where there is nothing to credit. -/
def WebhookRequest.cleared (pay : Payments) (r : WebhookRequest) (b : Books) :
    Except Exn (Option (Transaction × Money × Id)) := do
  let result ← r.callback pay
  if ¬ result.isSuccess then return none
  else do
    let reference ← pay.services.bound result.reference
    some <$> DepositService.cleared
      (.domain (.transactionNotFound (pay.services.referenceText result.reference)))
      result.reconcile (b.transactions.find? fun t => t.reference = reference)

variable {pay : Payments} {r : WebhookRequest} {st : Store}

namespace DepositService

/-- The posting, alone on the store. -/
def creditOn (cfg : Config) (x : Transaction × Money × Id) (s : Store) : Store :=
  (runOn cfg (credit cfg x.1 x.2.1 x.2.2) ⟨s, Session.fresh⟩).2.store

theorem settleFound_store (missing : Exn) (check : Transaction → Money → Except Exn Unit)
    (reference : Option String) :
    (runOn cfg (ask (.select (.transactionForUpdate reference)) >>=
      settleFound cfg missing check) ⟨st, Session.fresh⟩).2.store =
      match cleared missing check
        (st.db.books.transactions.find? fun t => t.reference = reference) with
      | .ok x => creditOn cfg x st
      | .error _ => st := by
  have hx : Conn.exec cfg (.select (.transactionForUpdate reference)) ⟨st, Session.fresh⟩ =
      (.ok (st.db.books.transactions.find? fun t => t.reference = reference),
        ⟨st, Session.fresh⟩) := rfl
  rw [run_ask_ok hx, settleFound_eq]
  cases cleared missing check (st.db.books.transactions.find? fun t => t.reference = reference) <;>
    rfl

end DepositService

/-- Alone on the store, a settlement posts what its checks have cleared. -/
theorem Operation.settle_run {reference : String} {amount : Option Decimal}
    {currency : Option String} :
    (Operation.settle reference amount currency).run cfg st =
      match DepositService.cleared (.domain (.transactionNotFound reference))
        (fun t authorized => DepositService.reconcile t authorized amount currency)
        (st.db.books.transactions.find? fun t => t.reference = some reference) with
      | .ok x => DepositService.creditOn cfg x st
      | .error _ => st := by
  have hmap : runOn cfg ((Operation.settle reference amount currency).program cfg)
      ⟨st, Session.fresh⟩ = _ := Program.run_map _ _ _ _
  unfold Operation.run
  rw [← runOn, hmap]
  exact DepositService.settleFound_store _ _ (some reference)

/-- Selecting a row again changes nothing. -/
theorem reload_same {α : Type} {id : Id} {f : Transaction → α} (c : Conn) :
    (Program.run (Conn.exec cfg) (reloadTransaction id >>= fun t => pure (f t)) c).2 = c := by
  unfold reloadTransaction
  rw [Program.bind_assoc]
  cases hf : c.session.failed with
  | true =>
    have hx : Conn.exec cfg (.select (.transaction id)) c = (.error .pendingRollback, c) := by
      rw [Conn.exec_select, hf]
      rfl
    rw [run_refused hx]
  | false =>
    have hx : Conn.exec cfg (.select (.transaction id)) c =
        (.ok ((Query.transaction id).eval c.view), c) := by
      rw [Conn.exec_select, hf]
      rfl
    rw [run_answered hx]
    cases (Query.transaction id).eval c.view <;> rfl

/-- Alone on the store, a request posts what its checks have cleared. -/
theorem WebhookRequest.run_eq :
    r.run cfg pay st =
      match r.cleared pay st.db.books with
      | .ok (some x) => DepositService.creditOn cfg x st
      | _ => st := by
  unfold WebhookRequest.run WebhookRequest.process WebhookRequest.cleared
  cases r.callback pay with
  | error e => rfl
  | ok result =>
    show (Program.run (Conn.exec cfg) (ite _ _ _) ⟨st, Session.fresh⟩).2.store =
      match (ite _ _ _ : Except Exn (Option (Transaction × Money × Id))) with
      | .ok (some x) => DepositService.creditOn cfg x st
      | _ => st
    by_cases hsuccess : ¬ result.isSuccess
    · rw [if_pos hsuccess, if_pos hsuccess]
      rfl
    rw [if_neg hsuccess, if_neg hsuccess, Program.run_bind_of_same _ fun t c => reload_same c]
    unfold DepositService.settleCallback
    cases pay.services.bound result.reference with
    | error e => rfl
    | ok reference =>
      refine (DepositService.settleFound_store _ _ reference).trans ?_
      show _ = match some <$> DepositService.cleared _ _ _ with
        | .ok (some x) => DepositService.creditOn cfg x st
        | _ => st
      cases DepositService.cleared (.domain (.transactionNotFound
        (pay.services.referenceText result.reference))) result.reconcile
        (st.db.books.transactions.find? fun t => t.reference = reference) <;> rfl

/-! ## What the checks clear -/

/-- What the checks clear: a pending row with what it says of itself. -/
theorem DepositService.cleared_ok_iff {missing : Exn}
    {check : Transaction → Money → Except Exn Unit} {found : Option Transaction}
    {t : Transaction} {authorized : Money} {accountId : Id} :
    cleared missing check found = .ok (t, authorized, accountId) ↔
      found = some t ∧ t.status = .pending ∧ Money.make t.amount t.currency = .ok authorized ∧
        check t authorized = .ok () ∧ t.details.accountId = .ok accountId := by
  cases found with
  | none => simp [cleared]
  | some u =>
    dsimp only [cleared]
    by_cases hp : u.status = .pending
    · rw [if_neg (not_not.2 hp)]
      simp only [except_bind_ok]
      constructor
      · rintro ⟨m, hm, _, hc, a, ha, h⟩
        cases h
        exact ⟨rfl, hp, hm, hc, ha⟩
      · rintro ⟨h, -, hm, hc, ha⟩
        cases h
        exact ⟨authorized, hm, (), hc, accountId, ha, rfl⟩
    · rw [if_pos hp]
      constructor
      · intro h
        cases h
      · rintro ⟨hu, hpending, -⟩
        cases hu
        exact absurd hpending hp

/-- The amounts agree: a stated one makes the authorised one. -/
theorem DepositService.reconcile_none_ok_iff {t : Transaction} {authorized : Money}
    {amount : Option Decimal} :
    reconcile t authorized amount none = .ok () ↔
      ∀ x ∈ amount, Money.make x t.currency = .ok authorized := by
  have hcompare : ∀ (e : Exn) (m : Money), (if m ≠ authorized then throw e else pure () :
      Except Exn Unit) = .ok () ↔ m = authorized := by
    intro e m
    by_cases hm : m = authorized
    · rw [if_neg (not_not.2 hm)]
      exact iff_of_true rfl hm
    · rw [if_pos hm]
      refine iff_of_false ?_ hm
      rintro ⟨⟩
  cases amount with
  | none => exact iff_of_true ((hcompare _ authorized).2 rfl) (by simp)
  | some x =>
    refine (except_bind_ok (x := Money.make x t.currency)).trans ?_
    constructor
    · rintro ⟨m, hm, hc⟩ y hy
      cases hy
      rwa [← (hcompare _ m).1 hc]
    · exact fun h => ⟨authorized, h x rfl, (hcompare _ _).2 rfl⟩

/-- The comparison goes through: a stated currency is the authorised one, and so is the amount. -/
theorem DepositService.reconcile_ok_iff {t : Transaction} {authorized : Money}
    {amount : Option Decimal} {currency : Option String} :
    reconcile t authorized amount currency = .ok () ↔
      (∀ c ∈ currency, c.toUpper = t.currency) ∧
        ∀ x ∈ amount, Money.make x t.currency = .ok authorized := by
  rw [← reconcile_none_ok_iff]
  cases currency with
  | none => simp
  | some c =>
    by_cases hc : c.toUpper = t.currency
    · have heq : reconcile t authorized amount (some c) = reconcile t authorized amount none := by
        unfold reconcile
        dsimp only
        rw [if_neg (not_not.2 hc)]
      rw [heq]
      simp [hc]
    · refine iff_of_false ?_ fun h => hc (h.1 c rfl)
      unfold reconcile
      dsimp only
      rw [if_pos hc]
      rintro ⟨⟩

/-- On the values of a callback: the currency is absent, or a text that is the authorised one,
and the amount is absent, or a number that makes the authorised one. -/
theorem CallbackResult.reconcile_ok_iff {result : CallbackResult} {t : Transaction}
    {authorized : Money} :
    result.reconcile t authorized = .ok () ↔
      (result.currency = .null ∨ ∃ c, result.currency = .str c ∧ c.toUpper = t.currency) ∧
        (result.amount = none ∨ ∃ x, result.amount = some (.finite x) ∧
          Money.make x t.currency = .ok authorized) := by
  obtain ⟨reference, isSuccess, amount, currency⟩ := result
  have hspecial : ∀ (v : DecimalValue) (checked : Except Exn Unit), (do
      checked
      if v = .nan then
        throw (.domain (.depositAmountMismatch authorized.amount none none none))
      else throw .invalidOperation : Except Exn Unit) ≠ .ok () := by
    intro v checked h
    obtain ⟨_, -, h⟩ := except_bind_ok.1 h
    split at h <;> cases h
  have hagree : ∀ (c : Option String) (x : Option Decimal),
      CallbackResult.reconcile ⟨reference, isSuccess, x.map .finite, c.elim .null .str⟩ t
        authorized = DepositService.reconcile t authorized x c := by
    intro c x
    cases c <;> cases x <;> rfl
  have hamount : ∀ c : Option String,
      CallbackResult.reconcile ⟨reference, isSuccess, amount, c.elim .null .str⟩ t authorized =
          .ok () ↔
        (∀ x ∈ c, x.toUpper = t.currency) ∧ (amount = none ∨ ∃ x, amount = some (.finite x) ∧
          Money.make x t.currency = .ok authorized) := by
    intro c
    cases amount with
    | none =>
      have hnone := hagree c none
      rw [Option.map_none] at hnone
      rw [hnone, DepositService.reconcile_ok_iff]
      simp
    | some v =>
      cases v with
      | finite x =>
        have hsome := hagree c (some x)
        rw [Option.map_some] at hsome
        rw [hsome, DepositService.reconcile_ok_iff]
        simp
      | infinite => cases c <;> exact iff_of_false (hspecial .infinite _) (by simp)
      | nan => cases c <;> exact iff_of_false (hspecial .nan _) (by simp)
      | snan => cases c <;> exact iff_of_false (hspecial .snan _) (by simp)
  cases currency with
  | null => exact (hamount none).trans (by simp)
  | str c => exact (hamount (some c)).trans (by simp)
  | bool _ | int _ | float _ | arr _ | obj _ =>
    refine iff_of_false ?_ (by simp)
    rintro ⟨⟩

/-! ## Requests that credit a deposit -/

/-- The request is verified and reports a success, and what its callback states finds the
deposit and agrees with it. -/
structure WebhookRequest.Accepted (pay : Payments) (r : WebhookRequest) (b : Books)
    (t : Transaction) (result : CallbackResult) : Prop where
  callback : r.callback pay = .ok result
  success : result.isSuccess = true
  found : ∃ reference, pay.services.bound result.reference = .ok reference ∧
    b.transactions.find? (fun t => t.reference = reference) = some t
  reconciled : ∃ authorized, Money.make t.amount t.currency = .ok authorized ∧
    result.reconcile t authorized = .ok ()

/-- What a request clears is a pending deposit for which it is accepted. -/
theorem WebhookRequest.cleared_ok_iff {t : Transaction} {authorized : Money} {accountId : Id} :
    r.cleared pay b = .ok (some (t, authorized, accountId)) ↔
      (∃ result, r.Accepted pay b t result) ∧ t.status = .pending ∧
        Money.make t.amount t.currency = .ok authorized ∧ t.details.accountId = .ok accountId := by
  unfold cleared
  rw [except_bind_ok]
  constructor
  · rintro ⟨result, hcallback, h⟩
    by_cases hsuccess : ¬ result.isSuccess
    · rw [if_pos hsuccess] at h
      cases h
    rw [if_neg hsuccess, except_bind_ok] at h
    obtain ⟨reference, hbound, h⟩ := h
    obtain ⟨x, hx, hsome⟩ := except_bind_ok.1 ((map_eq_pure_bind _ _).symm.trans h)
    cases hsome
    obtain ⟨hfound, hp, hmake, hreconcile, haccount⟩ := DepositService.cleared_ok_iff.1 hx
    exact ⟨⟨result, hcallback, not_not.1 hsuccess, ⟨reference, hbound, hfound⟩,
      ⟨authorized, hmake, hreconcile⟩⟩, hp, hmake, haccount⟩
  · rintro ⟨⟨result, h⟩, hp, hmake, haccount⟩
    obtain ⟨reference, hbound, hfound⟩ := h.found
    obtain ⟨authorized', hmake', hreconcile⟩ := h.reconciled
    cases hmake.symm.trans hmake'
    refine ⟨result, h.callback, ?_⟩
    rw [if_neg (not_not.2 h.success), hbound]
    have hcleared := (@DepositService.cleared_ok_iff (.domain (.transactionNotFound
      (pay.services.referenceText result.reference))) result.reconcile _ t authorized accountId).2
        ⟨hfound, hp, hmake, hreconcile, haccount⟩
    exact congrArg (some <$> ·) hcleared

/-! ## The states that calls reach -/

/-- The state every call keeps. -/
structure Store.Served (cfg : Config) (s : Store) : Prop extends s.Ordered where
  scaled : s.db.books.Scaled
  charged : s.db.books.Charged cfg

theorem Store.served_empty : Store.empty.Served cfg :=
  { Store.ordered_empty with
    scaled := by simp [Books.Scaled, Store.empty, Database.empty]
    charged := by simp [Books.Charged, Store.empty, Database.empty] }

/-- A transaction with an account to credit is a deposit. -/
theorem Details.eq_deposit {d : Details} {a : Id} (h : d.accountId = .ok a) :
    ∃ p x, d = .deposit p a x := by
  cases d with
  | deposit p a' x =>
    cases h
    exact ⟨p, x, rfl⟩
  | transfer _ _ => cases h
  | fxTransfer _ _ _ _ => cases h
  | reversal _ => cases h
  | empty => cases h

namespace Store.Served

theorem run (h : st.Served cfg) (op : Operation) : (op.run cfg st).Served cfg :=
  { h.toOrdered.run op with
    scaled := h.scaled.run (op.program cfg)
    charged := op.run_keeps (I := Books.Charged cfg) h.keyed h.charged fun he =>
      he.charged (h.toSound.run op).keyed h.charged }

/-- A webhook request does what a settlement does, or nothing. -/
theorem webhook_cases (h : st.Served cfg) (pay : Payments) (r : WebhookRequest) :
    r.run cfg pay st = st ∨ ∃ op : Operation, r.run cfg pay st = op.run cfg st := by
  rw [WebhookRequest.run_eq]
  cases hc : r.cleared pay st.db.books with
  | error e => exact .inl rfl
  | ok x =>
    cases x with
    | none => exact .inl rfl
    | some x =>
      obtain ⟨t, authorized, accountId⟩ := x
      obtain ⟨⟨result, haccepted⟩, hp, hmake, haccount⟩ := WebhookRequest.cleared_ok_iff.1 hc
      obtain ⟨reference, hbound, hfound⟩ := haccepted.found
      -- the deposit has a reference, so the callback has one
      obtain ⟨p, context, hdetails⟩ := Details.eq_deposit haccount
      obtain ⟨-, -, ref, -, -, href⟩ :=
        h.charged t (List.mem_of_find?_eq_some hfound) p accountId context hdetails
      have hselected := List.find?_some hfound
      rw [decide_eq_true_eq, href] at hselected
      subst hselected
      refine .inr ⟨.settle ref none none, ?_⟩
      rw [Operation.settle_run, DepositService.cleared_ok_iff.2 ⟨hfound, hp, hmake,
        DepositService.reconcile_ok_iff.2 (by simp), haccount⟩]

theorem call (h : st.Served cfg) (call : Call) : (call.run cfg pay st).Served cfg := by
  cases call with
  | operation op => exact h.run op
  | webhook r =>
    show (r.run cfg pay st).Served cfg
    rcases h.webhook_cases pay r with hsame | ⟨op, hop⟩
    · exact hsame.symm ▸ h
    · exact hop.symm ▸ h.run op

end Store.Served

theorem served_of_run {C : Call → Store → Prop} {s : Store}
    (h : Run (Call.run cfg pay) C Store.empty s) : s.Served cfg :=
  h.invariant Store.served_empty fun call _ hs _ => hs.call call

/-! ## When a request credits a deposit -/

/-- Processing the request makes a deposit a success. -/
def WebhookRequest.Settles (cfg : Config) (pay : Payments) (r : WebhookRequest) (s : Store)
    (t : Transaction) : Prop :=
  t.status ≠ .success ∧ (r.run cfg pay s).db.books.HasStatus t.id .success

instance (s : Store) (t : Transaction) : Decidable (r.Settles cfg pay s t) :=
  inferInstanceAs (Decidable (_ ∧ _))

variable {t : Transaction} {accountId : Id}

/-- A request that is accepted for a pending deposit settles it, unless its posting cannot be
written. -/
theorem Store.Served.accepted (h : st.Served cfg) {result : CallbackResult}
    (hr : r.Accepted pay st.db.books t result) (hp : t.status = .pending)
    (ha : t.details.accountId = .ok accountId) :
    st.db.books.CanSettle cfg st.seqs t accountId ∧
        st.db.books.SettledFor t accountId (r.run cfg pay st).db.books ∨
      ¬ st.db.books.CanSettle cfg st.seqs t accountId ∧
        (r.run cfg pay st).db.books = st.db.books := by
  obtain ⟨reference, -, hfound⟩ := hr.found
  obtain ⟨authorized, hmake, -⟩ := hr.reconciled
  have ht := List.mem_of_find?_eq_some hfound
  obtain ⟨p, context, hdetails⟩ := Details.eq_deposit ha
  have hends : Ends cfg (DepositService.credit cfg t authorized accountId) ⟨st, Session.fresh⟩ _ :=
    credit_ends (Conn.open_fresh h.keyed) h.linked h.fits h.cursors h.scaled ht hp
      (h.charged t ht p accountId context hdetails).positive hmake ha
  rw [WebhookRequest.run_eq, WebhookRequest.cleared_ok_iff.2 ⟨⟨result, hr⟩, hp, hmake, ha⟩]
  rcases hends with ⟨hcan, -, hsettled⟩ | ⟨hcan, -, hbooks⟩
  · exact .inl ⟨hcan, hsettled⟩
  · exact .inr ⟨hcan, hbooks⟩

/-- In the status it has, and in no other. -/
theorem Books.Keyed.hasStatus_iff {seqs : Sequences} (hk : b.Keyed seqs) (ht : t ∈ b.transactions)
    {status : TransactionStatus} : b.HasStatus t.id status ↔ t.status = status := by
  constructor
  · rintro ⟨u, hu, hid, hstatus⟩
    exact eq_of_key_eq hk.transactionIds hu ht hid ▸ hstatus
  · exact fun hstatus => ⟨t, ht, rfl, hstatus⟩

theorem Books.SettledFor.hasStatus {t : Transaction} (h : b.SettledFor t accountId b')
    (ht : t ∈ b.transactions) : b'.HasStatus t.id .success := by
  refine ⟨{ t with status := .success }, ?_, rfl, rfl⟩
  rw [h.transactions]
  exact mem_modify.2 ⟨t, ht, by simp⟩

/-- The other transactions keep their status. -/
theorem Books.SettledFor.hasStatus_of_ne (h : b.SettledFor t accountId b')
    {id : Id} {status : TransactionStatus} (hid : id ≠ t.id) :
    b'.HasStatus id status ↔ b.HasStatus id status := by
  unfold Books.HasStatus
  rw [h.transactions]
  constructor
  · rintro ⟨u, hu, rfl, hstatus⟩
    obtain ⟨v, hv, rfl⟩ := mem_modify.1 hu
    split at hid
    · exact absurd ‹v.id = t.id› hid
    · rename_i hne
      rw [if_neg hne] at hstatus ⊢
      exact ⟨v, hv, rfl, hstatus⟩
  · rintro ⟨u, hu, rfl, hstatus⟩
    exact ⟨u, mem_modify.2 ⟨u, hu, (if_neg hid).symm⟩, rfl, hstatus⟩

/-- A deposit is settled by exactly the requests that are accepted for it while it is pending,
if its posting can be written. -/
theorem Store.Served.settles_iff (h : st.Served cfg) (ht : t ∈ st.db.books.transactions)
    (ha : t.details.accountId = .ok accountId) :
    r.Settles cfg pay st t ↔ t.status = .pending ∧
      (∃ result, r.Accepted pay st.db.books t result) ∧
        st.db.books.CanSettle cfg st.seqs t accountId := by
  constructor
  · rintro ⟨hne, hafter⟩
    have hbefore : ¬ st.db.books.HasStatus t.id .success :=
      fun hs => hne ((h.keyed.hasStatus_iff ht).1 hs)
    have hchanged : (r.run cfg pay st).db.books ≠ st.db.books :=
      fun hsame => hbefore (hsame ▸ hafter)
    cases hc : r.cleared pay st.db.books with
    | error e =>
      rw [WebhookRequest.run_eq, hc] at hchanged
      exact absurd rfl hchanged
    | ok x =>
      cases x with
      | none =>
        rw [WebhookRequest.run_eq, hc] at hchanged
        exact absurd rfl hchanged
      | some x =>
        obtain ⟨t', authorized, a⟩ := x
        obtain ⟨⟨result, hr⟩, hp, -, ha'⟩ := WebhookRequest.cleared_ok_iff.1 hc
        obtain ⟨reference, -, hfound⟩ := hr.found
        rcases h.accepted hr hp ha' with ⟨hcan, hsettled⟩ | ⟨-, hsame⟩
        · by_cases hid : t.id = t'.id
          · have hmem := List.mem_of_find?_eq_some hfound
            obtain rfl := eq_of_key_eq h.keyed.transactionIds ht hmem hid
            cases ha.symm.trans ha'
            exact ⟨hp, ⟨result, hr⟩, hcan⟩
          · exact absurd ((hsettled.hasStatus_of_ne hid).1 hafter) hbefore
        · exact absurd hsame hchanged
  · rintro ⟨hp, ⟨result, hr⟩, hcan⟩
    refine ⟨by rw [hp]; decide, ?_⟩
    rcases h.accepted hr hp ha with ⟨-, hsettled⟩ | ⟨hnot, -⟩
    · exact hsettled.hasStatus ht
    · exact absurd hcan hnot

end WalletLedger
