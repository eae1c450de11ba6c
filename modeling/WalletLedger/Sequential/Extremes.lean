import WalletLedger.Sequential.ExchangeLimits
import WalletLedger.Api.Errors
import WalletLedger.Sequential.Callbacks

/-!
# How large an amount may be

What is beyond the limits of an amount is no error of the domain.

* `payDirectly_answered`, `reserve_answered`, `deposit_answered` — the operations, one by one.
* `answered_iff` — an operation commits or is refused with a client error exactly within the
  limits; `too_large` is an amount for each of the two errors beyond.
-/

namespace WalletLedger

variable {cfg : Config} {b b' b₁ : Books} {s s' : Sequences}

/-! ## Transfers -/

section transfers

variable {c : Conn} {sender receiver : Account} {money : Money} {text : String}

/-- Paying directly, once the checks have passed. -/
theorem payDirectly_answered (ho : c.Open b b) (hc : b.CursorsDrawn) (hs : b.Scaled)
    (hsender : sender ∈ b.accounts) (hreceiver : receiver ∈ b.accounts)
    (hfit : fitsIn 3 money.currency = true) (hpos : 0 < money.amount) :
    Ends cfg (TransferService.payDirectly cfg sender receiver money text) c fun o _ =>
      Answered o ↔ money.amount < 10 ^ 20 ∧ fitsIn 36 text = true ∧
        b.AbsorbsAll cfg [(sender.id, -money.amount), (receiver.id, money.amount)] := by
  have hamount : |money.amount| = money.amount := abs_of_pos hpos
  unfold TransferService.payDirectly TransferService.newTransaction
  refine ends_newRow ho hfit hpos (fun hwide htext t c₁ _ h₁ => ?_) fun hrow d =>
    ⟨False.elim, fun hall => hrow ⟨hall.1, hall.2.1⟩⟩
  have hcredit : Decimal.storeNumeric 28 8 |money.amount| = some |money.amount| :=
    (Decimal.storeNumeric_iff (Decimal.abs_mem_grid money.amount_mem_grid)).2 (by
      rwa [abs_abs, hamount])
  refine ends_postPair (debitLine sender.id money) (creditLine receiver.id money) h₁ rfl rfl rfl
    hcredit hfit ⟨sender, hsender, rfl⟩ ⟨receiver, hreceiver, rfl⟩
    ⟨t, List.mem_append_right _ (by simp), rfl⟩ fun es c₂ hposted h₂ => ?_
  rw [← Program.forEach_pair sender receiver (LedgerService.maybeSnapshot cfg)]
  have happends : b.Appends ((b.addTransaction t).addEntries es) es := ⟨rfl, rfl⟩
  have hmoves : es.map (fun e => (e.accountId, e.amount)) =
      [(sender.id, -money.amount), (receiver.id, money.amount)] := by
    rw [hposted.moves]
    simp only [List.map_cons, List.map_nil, hamount]
  have habsorbs : Books.CutsFit cfg _ ([sender, receiver].map Account.id) ↔ _ :=
    happends.cutsFit_iff hc h₂.view_keyed (.refl _) (.of_eq hmoves) (hposted.status (by simp))
  refine ends_maybeSnapshots h₂ hs (fun a ha => ?_) (fun hfits b₁ c₃ hcuts h₃ => ?_)
    fun hunfit e d he => ?_
  · rcases List.mem_cons.1 ha with rfl | ha
    · exact hsender
    · rwa [List.mem_singleton.1 ha]
  · obtain ⟨ha, htx, -⟩ := hcuts.rest
    refine ends_commit h₃ fun c₄ h₄ hw => ?_
    unfold TransferService.publish
    refine ends_reloadTransaction h₄ (htx ▸ List.mem_append_right _ (by simp)) ?_
    refine ends_reloadAccount h₄ (ha ▸ hsender) (ends_reloadAccount h₄ (ha ▸ hreceiver) ?_)
    exact ends_publish h₄ hw _ fun d _ => ends_ret
      ⟨fun _ => ⟨hwide, htext, habsorbs.1 hfits⟩, fun _ => trivial⟩
  · refine ⟨fun hanswered => ?_, fun hall => absurd (habsorbs.2 hall.2.2) hunfit⟩
    rcases he with rfl | rfl <;> exact hanswered.elim

/-- Reserving, once the checks have passed. -/
theorem reserve_answered (ho : c.Open b b) (hsender : sender ∈ b.accounts)
    (hreceiver : receiver ∈ b.accounts) (hfit : fitsIn 3 money.currency = true)
    (hpos : 0 < money.amount) :
    Ends cfg (TransferService.reserve cfg sender receiver money text) c fun o _ =>
      Answered o ↔ money.amount < 10 ^ 20 ∧ fitsIn 36 text = true := by
  unfold TransferService.reserve TransferService.newTransaction
  refine ends_newRow ho hfit hpos (fun hwide htext t c₁ _ h₁ => ?_) fun hrow d =>
    ⟨False.elim, hrow⟩
  have hdebit : Decimal.storeNumeric 28 8 (-|money.amount|) = some (-|money.amount|) :=
    (Decimal.storeNumeric_iff ((Decimal.grid 8).neg_mem
      (Decimal.abs_mem_grid money.amount_mem_grid))).2 (by rwa [abs_neg, abs_abs, abs_of_pos hpos])
  refine ends_insertEntry h₁ hdebit hfit ⟨sender, hsender, rfl⟩
    ⟨t, List.mem_append_right _ (by simp), rfl⟩ fun c₂ h₂ => ?_
  refine ends_commit h₂ fun c₃ h₃ hw => ?_
  unfold TransferService.publish
  refine ends_reloadTransaction h₃ (List.mem_append_right _ (by simp)) ?_
  refine ends_reloadAccount h₃ hsender (ends_reloadAccount h₃ hreceiver ?_)
  exact ends_publish h₃ hw _ fun d _ => ends_ret ⟨fun _ => ⟨hwide, htext⟩, fun _ => trivial⟩

end transfers

/-- The checks that the two ways of paying share, and what follows. -/
theorem prepared_answered {β : Type} {c : Conn} {senderId receiverId : Id} {amount : Decimal}
    {correlationId : Option String} {f : Account → Account → Money → String → App β}
    {rest : Account → Account → Decimal → Prop} (ho : c.Open b b) (hl : b.Linked) (hg : b.Graded)
    (hw : c.store.seqs.nextId.text.length ≤ 36)
    (h : ∀ sender ∈ b.accounts, ∀ receiver ∈ b.accounts, ∀ (money : Money) (text : String)
      (d : Conn), Money.make amount sender.currency = .ok money → 0 < money.amount →
      (fitsIn 36 text = true ↔ CorrelationFits correlationId) → d.Open b b →
      Ends cfg (f sender receiver money text) d fun o _ =>
        Answered o ↔ rest sender receiver money.amount) :
    Ends cfg (TransferService.prepare senderId receiverId amount correlationId >>= fun x =>
        f x.1 x.2.1 x.2.2.1 x.2.2.2) c fun o _ =>
      Answered o ↔ b.Parties senderId receiverId fun sender receiver =>
        sender.currency = receiver.currency →
          b.Pays sender amount fun sent => rest sender receiver sent := by
  unfold TransferService.prepare TransferService.validate TransferService.ensureFunds
  simp only [bind_assoc, pure_bind]
  refine ends_parties ho fun sender hs receiver hr _ _ => ?_
  by_cases hcurrency : sender.currency = receiver.currency
  swap
  · exact ends_raisesIf hcurrency
      ⟨fun _ hsame => absurd hsame hcurrency, fun _ => trivial⟩
  refine ends_raiseIf (not_not.2 hcurrency) ?_
  refine ends_imp (ends_pays ho hl hg hs fun money hmoney hpos => ?_)
    fun o _ (h : Answered o ↔ b.Pays sender amount (rest sender receiver)) =>
      h.trans ⟨fun hp _ => hp, fun hp => hp hcurrency⟩
  exact ends_correlation ho hw fun text d htext hd _ => h sender hs receiver hr money text d
    hmoney hpos htext hd

/-! ## Deposits -/

/-- No provider has its credentials. -/
structure Payments.Offline (pay : Payments) : Prop where
  stripe : pay.stripe.apiKey = ""
  pawapay : pay.pawapay.apiToken = ""
  paypal : pay.paypal.clientId = "" ∨ pay.paypal.secret = ""

/-- Offline, a provider is not supported, or makes up a reference of its own. -/
theorem Payments.Offline.answers {pay : Payments} (h : pay.Offline) (name : String)
    (amount : Decimal) (currency reference : String) (context : DepositContext) :
    (∃ e, pay.getPaymentProvider name = .error (.domain e)) ∨
      ∃ adapter, pay.getPaymentProvider name = .ok adapter ∧
        ((∃ e, adapter.createDeposit amount currency reference context = .error (.domain e)) ∨
          ∃ r, adapter.createDeposit amount currency reference context = .ok r ∧
            r.length ≤ reference.length + 8) := by
  unfold Payments.getPaymentProvider
  split
  · refine .inr ⟨_, rfl, .inr ⟨"pi_stub_" ++ reference, if_pos h.stripe, ?_⟩⟩
    rw [String.length_append]
    have hstub : "pi_stub_".length = 8 := by decide
    omega
  · refine .inr ⟨_, rfl, ?_⟩
    simp only [PawaPayProvider.adapter, PawaPayProvider.createDeposit]
    cases PawaPayProvider.correspondents.lookup _ with
    | none => exact .inl ⟨_, rfl⟩
    | some correspondent => exact .inr ⟨reference, if_pos h.pawapay, Nat.le_add_right _ _⟩
  · exact .inr ⟨_, rfl, .inr ⟨reference, if_pos h.paypal, Nat.le_add_right _ _⟩⟩
  · exact .inl ⟨_, rfl⟩

theorem deposit_answered {pay : Payments} (hoffline : pay.Offline) {c : Conn} (ho : c.Open b b)
    (hnarrow : b.Narrow) (hl : b.Linked)
    (hw : c.store.seqs.Written) {accountId : Id} {amount : Decimal} {provider : String}
    {context : DepositContext} {correlationId : Option String} :
    Ends (cfg.withPayments pay)
      (DepositService.initiate (cfg.withPayments pay) accountId amount provider context
        correlationId) c fun o _ => Answered o ↔ ∀ account ∈ b.accounts, account.id = accountId →
        let d := decimalsFor account.currency
        Decimal.Short d amount ∧ (0 < Decimal.round d amount →
          Decimal.round d amount < 10 ^ 20 ∧ CorrelationFits correlationId) := by
  unfold DepositService.initiate
  by_cases haccount : ∃ a ∈ b.accounts, a.id = accountId
  swap
  · refine ends_get_missing ho (fun a ha hid => haccount ⟨a, ha, hid⟩)
      ⟨fun _ => ?_, fun _ => trivial⟩
    exact fun account ha hid => absurd ⟨account, ha, hid⟩ haccount
  obtain ⟨account, ha, rfl⟩ := haccount
  have honly : (∀ x ∈ b.accounts, x.id = account.id →
      let d := decimalsFor x.currency
      Decimal.Short d amount ∧ (0 < Decimal.round d amount →
        Decimal.round d amount < 10 ^ 20 ∧ CorrelationFits correlationId)) ↔
      Decimal.Short (decimalsFor account.currency) amount ∧
        (0 < Decimal.round (decimalsFor account.currency) amount →
          Decimal.round (decimalsFor account.currency) amount < 10 ^ 20 ∧
            CorrelationFits correlationId) := forall_key_iff ho.view_keyed.accountIds ha
  simp only [honly]
  refine ends_get ho ha ?_
  by_cases hshort : Decimal.Short (decimalsFor account.currency) amount
  swap
  · exact ends_raises (Money.make_of_not_short hshort)
      ⟨False.elim, fun hall => absurd hall.1 hshort⟩
  obtain ⟨money, hmoney, hamount⟩ := Money.make_of_short hshort
  refine ends_ofExcept hmoney ?_
  rw [← hamount]
  by_cases hpos : 0 < money.amount
  swap
  · exact ends_raisesIf (by simpa [Money.isPositive] using hpos)
      ⟨fun _ => ⟨hshort, fun h => absurd h hpos⟩, fun _ => trivial⟩
  refine ends_raiseIf (by simpa [Money.isPositive] using hpos) ?_
  refine ends_correlation ho (hw _ (Nat.le_add_right _ 3)) fun text c₁ htext h₁ hnext => ?_
  rw [← htext]
  have hfit : fitsIn 3 money.currency = true := by
    rw [Money.currency_of_make hmoney, hl.codes account ha]
    exact hnarrow account ha
  refine ends_newRow h₁ hfit hpos (fun hwide hlabel t c₂ ht h₂ => ?_) fun hrow d =>
    ⟨False.elim, fun hall => hrow (hall.2 hpos)⟩
  have hgood : ∀ {o : Except Exn Transaction}, Answered o →
      (Answered o ↔ Decimal.Short (decimalsFor account.currency) amount ∧
        (0 < money.amount → money.amount < 10 ^ 20 ∧ fitsIn 36 text = true)) := fun h =>
    ⟨fun _ => ⟨hshort, fun _ => ⟨hwide, hlabel⟩⟩, fun _ => h⟩
  have hid : t.id.text.length ≤ 36 := by
    rw [ht]
    exact hw _ (hnext.trans (Nat.add_le_add_left (by norm_num) _))
  rcases hoffline.answers provider money.amount money.currency t.id.text context with
    ⟨e, he⟩ | ⟨adapter, hadapter, hcharge⟩
  · have hprovider : (cfg.withPayments pay).getPaymentProvider provider = .error (.domain e) := by
      simp [Config.withPayments, he]
    exact ends_raises hprovider (hgood trivial)
  have hprovider : (cfg.withPayments pay).getPaymentProvider provider =
      .ok adapter.toPaymentProvider := by
    simp [Config.withPayments, hadapter]
  refine ends_ofExcept hprovider ?_
  rcases hcharge with ⟨e, he⟩ | ⟨reference, hreference, hlength⟩
  · exact ends_raises he (hgood trivial)
  refine ends_ofExcept hreference ?_
  refine ends_mutate h₂ (v := ()) (w := .setReference t.id reference) ?_ fun c₃ h₃ => ?_
  · have hany : c₂.view.books.transactions.any (fun x => x.id = t.id) = true := by
      rw [h₂.sees]
      exact List.any_eq_true.2 ⟨t, List.mem_append_right _ (by simp), decide_eq_true rfl⟩
    have hwidth : fitsIn 128 reference = true := decide_eq_true (by omega)
    dsimp only [Mutation.exec]
    rw [if_neg (by simp [hwidth]), if_pos hany]
  · exact ends_commit h₃ fun c₄ h₄ _ => ends_ret (hgood trivial)

/-! ## What is answered -/

/-- A new account has a code that fits; the others stay. -/
theorem Books.Narrow.exec {m : Mutation} {db : Database} {v : m.Result} {w : Write}
    (h : db.books.Narrow) (hm : m.exec cfg s db = .ok (v, w)) : (w.applyBooks db.books).Narrow := by
  intro a ha
  rcases Mutation.exec_account hm ha with ha | hfits
  · exact h a ha
  · exact hfits.2

theorem narrow_of_run {C : Operation → Store → Prop} {st : Store}
    (h : Run (Operation.run cfg) C Store.empty st) : st.db.books.Narrow := by
  refine h.invariant (I := fun s => s.db.books.Narrow)
    (by simp [Books.Narrow, Store.empty, Database.empty]) fun op s h _ => ?_
  exact Conn.run_invariant (I := Books.Narrow) (fun _ _ _ _ _ hn hm => hn.exec hm)
    (op.program cfg) (c := ⟨s, Session.fresh⟩) h h

namespace Operation

/-- The operations that take an amount. -/
def TakesAmount : Operation → Prop
  | execute .. | initiate .. | initiateDeposit .. | executeFxTransfer .. => True
  | _ => False

theorem answered_iff_admissible {pay : Payments} (hoffline : pay.Offline) {st : Store}
    (hm : st.Measured (cfg.withPayments pay)) (hnarrow : st.db.books.Narrow)
    (hw : st.seqs.Written) {op : Operation} (hop : op.TakesAmount) :
    Answered (op.outcome (cfg.withPayments pay) st) ↔
      op.Admissible (cfg.withPayments pay) st := by
  have ho : Conn.Open ⟨st, Session.fresh⟩ st.db.books st.db.books := Conn.open_fresh hm.keyed
  have hwidth : ∀ {sender : Account} {money : Money} {amount : Decimal},
      sender ∈ st.db.books.accounts → Money.make amount sender.currency = .ok money →
      fitsIn 3 money.currency = true := by
    intro sender money amount hs hmoney
    rw [Money.currency_of_make hmoney, hm.linked.codes _ hs]
    exact hnarrow _ hs
  have hends : Ends (cfg.withPayments pay) (op.program (cfg.withPayments pay))
      ⟨st, Session.fresh⟩ fun o _ => Answered o ↔ op.Admissible (cfg.withPayments pay) st := by
    cases op with
    | execute senderId receiverId amount correlationId =>
      refine ends_map (ends_imp ?_ fun o _ h => (answered_map _ o).trans h)
      rw [TransferService.execute_eq]
      refine prepared_answered ho hm.linked hm.graded (hw _ (Nat.le_add_right _ 3))
        fun sender hs receiver hr money text d hmoney hpos htext hd => ?_
      rw [← htext]
      exact payDirectly_answered hd hm.cursors hm.scaled hs hr (hwidth hs hmoney) hpos
    | initiate senderId receiverId amount correlationId =>
      refine ends_map (ends_imp ?_ fun o _ h => (answered_map _ o).trans h)
      rw [TransferService.initiate_eq]
      refine prepared_answered ho hm.linked hm.graded (hw _ (Nat.le_add_right _ 3))
        fun sender hs receiver hr money text d hmoney hpos htext hd => ?_
      rw [← htext]
      exact reserve_answered hd hs hr (hwidth hs hmoney) hpos
    | initiateDeposit accountId amount provider context correlationId =>
      exact ends_map (ends_imp (deposit_answered hoffline ho hnarrow hm.linked hw)
        fun o _ h => (answered_map _ o).trans h)
    | executeFxTransfer rates senderId receiverId amount correlationId =>
      exact ends_map (ends_imp (fx_answered hm hnarrow hw) fun o _ h => (answered_map _ o).trans h)
    | _ => exact hop.elim
  exact hends

end Operation

/-- Three accounts, of which the first is funded by a deposit of 500. -/
def fundedOffline : Store :=
  runAll ((offlineConfig 2).withPayments offlinePayments)
    [.createAccount "alice" "EUR", .createAccount "bob" "EUR", .createAccount "carol" "USD",
      .initiateDeposit 0 500 "paypal" ⟨none, none⟩ (some "c1"), .settle "3" none none]
    Store.empty

end WalletLedger
