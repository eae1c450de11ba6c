import WalletLedger.Operations.Effects

/-!
# The code has the effects

Each operation, taken apart statement by statement, either leaves the books as they
are or has its `Effect` on them (`Operation.run_effect`), and keeps what the database
guarantees (`Operation.keyed_run`).
-/

namespace WalletLedger

section

variable {cfg : Config} {b b' : Books}

/-! ## The amounts of a posting are on the columns' grid -/

theorem debitLine_mem_grid (a : Id) (m : Money) : (debitLine a m).amount ∈ Decimal.grid 8 :=
  (Decimal.grid 8).neg_mem (Decimal.abs_mem_grid m.amount_mem_grid)

theorem creditLine_mem_grid (a : Id) (m : Money) : (creditLine a m).amount ∈ Decimal.grid 8 :=
  Decimal.abs_mem_grid m.amount_mem_grid

theorem transferLines_mem_grid (a₁ a₂ : Id) (m : Money) :
    ∀ line ∈ [debitLine a₁ m, creditLine a₂ m], line.amount ∈ Decimal.grid 8 := by
  simp only [List.mem_cons, List.not_mem_nil, or_false]
  rintro line (rfl | rfl)
  · exact debitLine_mem_grid _ _
  · exact creditLine_mem_grid _ _

theorem exchangeLines_mem_grid (a₁ a₂ a₃ a₄ : Id) (sent received : Money) :
    ∀ line ∈ [debitLine a₁ sent, creditLine a₂ sent, debitLine a₃ received, creditLine a₄ received],
      line.amount ∈ Decimal.grid 8 := by
  simp only [List.mem_cons, List.not_mem_nil, or_false]
  rintro line (rfl | rfl | rfl | rfl)
  · exact debitLine_mem_grid _ _
  · exact creditLine_mem_grid _ _
  · exact debitLine_mem_grid _ _
  · exact creditLine_mem_grid _ _

theorem MirrorLine.mem_grid {e : LedgerEntry} {line : PostingLine} (h : MirrorLine e line) :
    line.amount ∈ Decimal.grid 8 := by
  obtain ⟨m, -, rfl⟩ := h
  split
  · exact creditLine_mem_grid _ _
  · exact debitLine_mem_grid _ _

theorem mem_grid_of_mirrored {es : List LedgerEntry} {lines : List PostingLine}
    (h : List.Forall₂ MirrorLine es lines) : ∀ line ∈ lines, line.amount ∈ Decimal.grid 8 := by
  intro line hl
  obtain ⟨e, -, he⟩ := exists_of_mirrored h hl
  exact he.mem_grid

/-! ## The steps the operations share -/

theorem quiet_validate (sender receiver : Account) (amount : Decimal) :
    Quiet (TransferService.validate sender receiver amount) :=
  (quiet_raiseIf _ _).bind fun _ => (quiet_ofExcept _).bind fun _ =>
    (quiet_raiseIf _ _).bind fun _ => quiet_pure _

theorem validate_ok {sender receiver : Account} {amount : Decimal} {m : Money}
    (h : Returns cfg (TransferService.validate sender receiver amount) b m b') :
    b' = b ∧ sender.currency = receiver.currency ∧ Money.make amount sender.currency = .ok m ∧
      0 < m.amount := by
  obtain ⟨_, u, h₁, h₂⟩ := returns_bind h
  obtain ⟨rfl, hcur⟩ := returns_raiseIf h₁
  obtain ⟨money, u, h₃, h₄⟩ := returns_bind h₂
  obtain ⟨rfl, hmoney⟩ := returns_ofExcept h₃
  obtain ⟨_, u, h₅, h₆⟩ := returns_bind h₄
  obtain ⟨rfl, hpos⟩ := returns_raiseIf h₅
  obtain ⟨rfl, rfl⟩ := returns_ret h₆
  refine ⟨rfl, not_not.1 hcur, hmoney, ?_⟩
  simpa [Money.isPositive] using hpos

theorem quiet_ensureFunds (sender : Account) (money : Money) :
    Quiet (TransferService.ensureFunds sender money) :=
  (quiet_availableBalance _).bind fun _ => quiet_ofExcept _

theorem ensureFunds_ok {sender : Account} {money : Money} {u : Unit}
    (h : Returns cfg (TransferService.ensureFunds sender money) b u b') :
    b' = b ∧ ∃ available, b.availableBalance sender = .ok available ∧
      money.amount ≤ available.amount := by
  obtain ⟨available, u, h₁, h₂⟩ := returns_bind h
  obtain ⟨rfl, hav⟩ := availableBalance_ok h₁
  obtain ⟨rfl, hfunds⟩ := returns_ofExcept h₂
  exact ⟨rfl, available, hav, AccountAggregate.le_of_ensureCanDebit hfunds⟩

/-- Inserting the transaction of an amount on the columns' grid. -/
theorem insertTransaction_ok {type : TransactionType} {status : TransactionStatus}
    {amount : Decimal} {currency : String} {details : Details} {correlationId : Option String}
    {t : Transaction} (hgrid : amount ∈ Decimal.grid 8)
    (h : Returns cfg
      (ask (.mutate (.insertTransaction type status amount currency details correlationId))) b t
      b') :
    t.Records type status amount currency details ∧ b' = b.addTransaction t := by
  obtain ⟨seqs, db, w, rfl, hm, rfl⟩ := returns_mutate h
  obtain ⟨stored, hs, rfl, rfl⟩ := Mutation.exec_insertTransaction hm
  obtain rfl : stored = amount := Decimal.eq_of_storeNumeric le_rfl hgrid hs
  exact ⟨⟨rfl, rfl, rfl, rfl, rfl⟩, rfl⟩

theorem setTransaction_ok {id : Id} {status : TransactionStatus} {u : Unit}
    (h : Returns cfg (ask (.mutate (.updateTransactionStatus id status))) b u b') :
    b' = b.setTransaction id status := by
  obtain ⟨seqs, db, w, rfl, hm, rfl⟩ := returns_mutate h
  obtain rfl := Mutation.exec_updateTransactionStatus hm
  rfl

theorem setEntry_ok {id : Id} {status : EntryStatus} {u : Unit}
    (h : Returns cfg (ask (.mutate (.updateEntryStatus id status))) b u b') :
    b' = b.setEntry id status := by
  obtain ⟨seqs, db, w, rfl, hm, rfl⟩ := returns_mutate h
  obtain rfl := Mutation.exec_updateEntryStatus hm
  rfl

/-! ## The operations -/

theorem createAccount_effect {ownerId currency : String} :
    Commits cfg (Effect cfg b (.createAccount ownerId currency))
      (AccountService.create ownerId currency) b := by
  refine .attempt ?_ fun e => ?_
  · refine .bind (quiet_mutate _) fun a b₁ h₁ => ?_
    obtain ⟨seqs, db, w, rfl, hm, rfl⟩ := returns_mutate h₁
    obtain ⟨rfl, rfl, hnew⟩ := Mutation.exec_insertAccount hm
    exact .commit trivial (.createAccount _ rfl rfl hnew)
  · have hrollback : Harmless (ask .rollback) := harmless_ask rfl
    split
    · exact ⟨hrollback.bind fun _ => trivial, fun b => .rollback trivial⟩
    · exact ⟨trivial, fun b => trivial⟩

theorem initiateDeposit_effect {accountId : Id} {amount : Decimal} {provider : String}
    {context : DepositContext} {correlationId : Option String} :
    Commits cfg (Effect cfg b (.initiateDeposit accountId amount provider context correlationId))
      (DepositService.initiate cfg accountId amount provider context correlationId) b := by
  refine .bind (quiet_get _) fun account b₁ h₁ => ?_
  obtain ⟨rfl, ha, hid⟩ := get_ok h₁
  refine .bind (quiet_ofExcept _) fun money b₂ h₂ => ?_
  obtain ⟨rfl, hmoney⟩ := returns_ofExcept h₂
  refine .bind (quiet_raiseIf _ _) fun _ b₃ h₃ => ?_
  obtain ⟨rfl, hpos⟩ := returns_raiseIf h₃
  refine .bind (quiet_correlationIdOr _) fun corr b₄ h₄ => ?_
  obtain rfl := correlationIdOr_ok h₄
  refine .bind (quiet_mutate _) fun t b₅ h₅ => ?_
  obtain ⟨hrec, rfl⟩ := insertTransaction_ok money.amount_mem_grid h₅
  refine .bind (quiet_ofExcept _) fun prov b₆ h₆ => ?_
  obtain ⟨rfl, hprov⟩ := returns_ofExcept h₆
  refine .bind (quiet_ofExcept _) fun reference b₇ h₇ => ?_
  obtain ⟨rfl, hreference⟩ := returns_ofExcept h₇
  refine .bind (quiet_mutate _) fun _ b₈ h₈ => ?_
  obtain ⟨seqs, db, w, -, hm, rfl⟩ := returns_mutate h₈
  obtain rfl := Mutation.exec_updateReference hm
  exact .commit trivial (.initiateDeposit account money t reference ha hid hmoney
    (by simpa [Money.isPositive] using hpos) hrec ⟨prov, hprov, hreference⟩)

theorem settle_effect {reference : String} {confirmedAmount : Option Decimal}
    {confirmedCurrency : Option String} :
    Commits cfg (Effect cfg b (.settle reference confirmedAmount confirmedCurrency))
      (DepositService.settle cfg reference confirmedAmount confirmedCurrency) b := by
  refine .bind (quiet_select _) fun found b₁ h₁ => ?_
  obtain ⟨rfl, keys, trail, hfound⟩ := returns_select h₁
  refine .bind (quiet_ofOption _ _) fun t b₂ h₂ => ?_
  obtain ⟨rfl, ht⟩ := returns_ofOption h₂
  refine .bind (quiet_raiseIf _ _) fun _ b₃ h₃ => ?_
  obtain ⟨rfl, hpending⟩ := returns_raiseIf h₃
  refine .bind (quiet_ofExcept _) fun authorized b₄ h₄ => ?_
  obtain ⟨rfl, hauth⟩ := returns_ofExcept h₄
  refine .bind (quiet_ofExcept _) fun _ b₅ h₅ => ?_
  obtain ⟨rfl, hrecon⟩ := returns_ofExcept h₅
  refine .bind (quiet_ofExcept _) fun accountId b₆ h₆ => ?_
  obtain ⟨rfl, hacc⟩ := returns_ofExcept h₆
  refine .bind (quiet_lock _) fun account b₇ h₇ => ?_
  obtain ⟨rfl, ha, rfl⟩ := lock_ok h₇
  refine .bind (quiet_getOrCreateInternal _ _) fun clearing b₈ h₈ => ?_
  obtain ⟨⟨howner, hcode⟩, hopened⟩ := getOrCreateInternal_ok h₈
  refine .bind (quiet_post _ _) fun _ b₉ h₉ => ?_
  obtain ⟨-, es, hes, rfl⟩ := post_ok (transferLines_mem_grid clearing.id account.id authorized) h₉
  refine .bind (quiet_mutate _) fun _ b₁₀ h₁₀ => ?_
  obtain rfl := setTransaction_ok h₁₀
  refine .bind (quiet_maybeSnapshot _) fun _ b₁₁ h₁₁ => ?_
  refine .bind (quiet_maybeSnapshot _) fun _ b₁₂ h₁₂ => ?_
  have hcuts := Cuts.pair (maybeSnapshot_ok h₁₁) (maybeSnapshot_ok h₁₂)
  refine .commit ?_ (.settle t authorized account clearing _ _ es (hfound.symm.trans ht)
    (not_not.1 hpending) hauth hrecon hacc ha howner hcode hopened hes hcuts)
  exact (harmless_reloadTransaction _).bind fun _ => (harmless_reloadAccount _).bind fun _ =>
    (harmless_publish _).bind fun _ => Program.all_ret _

theorem execute_effect {senderId receiverId : Id} {amount : Decimal}
    {correlationId : Option String} :
    Commits cfg (Effect cfg b (.execute senderId receiverId amount correlationId))
      (TransferService.execute cfg senderId receiverId amount correlationId) b := by
  refine .bind (quiet_lock _) fun sender b₁ h₁ => ?_
  obtain ⟨rfl, hs, hsid⟩ := lock_ok h₁
  refine .bind (quiet_get _) fun receiver b₂ h₂ => ?_
  obtain ⟨rfl, hr, hrid⟩ := get_ok h₂
  refine .bind (quiet_validate _ _ _) fun money b₃ h₃ => ?_
  obtain ⟨rfl, hcur, hmoney, hpos⟩ := validate_ok h₃
  refine .bind (quiet_ensureFunds _ _) fun _ b₄ h₄ => ?_
  obtain ⟨rfl, available, hav, hle⟩ := ensureFunds_ok h₄
  refine .bind (quiet_correlationIdOr _) fun corr b₅ h₅ => ?_
  obtain rfl := correlationIdOr_ok h₅
  refine .bind (quiet_mutate _) fun t b₆ h₆ => ?_
  obtain ⟨hrec, rfl⟩ := insertTransaction_ok money.amount_mem_grid h₆
  refine .bind (quiet_post _ _) fun _ b₇ h₇ => ?_
  obtain ⟨-, es, hes, rfl⟩ := post_ok (transferLines_mem_grid sender.id receiver.id money) h₇
  refine .bind (quiet_maybeSnapshot _) fun _ b₈ h₈ => ?_
  refine .bind (quiet_maybeSnapshot _) fun _ b₉ h₉ => ?_
  have hcuts := Cuts.pair (maybeSnapshot_ok h₈) (maybeSnapshot_ok h₉)
  exact .commit (harmless_transferPublish _ _ _ _ _)
    (.execute ⟨⟨sender, receiver, money, available, hs, hsid, hr, hrid, hmoney, hpos, hav, hle⟩,
      hcur⟩ t es _ hrec hes hcuts)

theorem initiate_effect {senderId receiverId : Id} {amount : Decimal}
    {correlationId : Option String} :
    Commits cfg (Effect cfg b (.initiate senderId receiverId amount correlationId))
      (TransferService.initiate cfg senderId receiverId amount correlationId) b := by
  refine .bind (quiet_lock _) fun sender b₁ h₁ => ?_
  obtain ⟨rfl, hs, hsid⟩ := lock_ok h₁
  refine .bind (quiet_get _) fun receiver b₂ h₂ => ?_
  obtain ⟨rfl, hr, hrid⟩ := get_ok h₂
  refine .bind (quiet_validate _ _ _) fun money b₃ h₃ => ?_
  obtain ⟨rfl, hcur, hmoney, hpos⟩ := validate_ok h₃
  refine .bind (quiet_ensureFunds _ _) fun _ b₄ h₄ => ?_
  obtain ⟨rfl, available, hav, hle⟩ := ensureFunds_ok h₄
  refine .bind (quiet_correlationIdOr _) fun corr b₅ h₅ => ?_
  obtain rfl := correlationIdOr_ok h₅
  refine .bind (quiet_mutate _) fun t b₆ h₆ => ?_
  obtain ⟨hrec, rfl⟩ := insertTransaction_ok money.amount_mem_grid h₆
  refine .bind (quiet_mutate _) fun _ b₇ h₇ => ?_
  obtain ⟨e, hline, htxn, rfl⟩ := insertEntry_ok (debitLine_mem_grid sender.id money) h₇
  refine .commit (harmless_transferPublish _ _ _ _ _) ?_
  exact .initiate ⟨⟨sender, receiver, money, available, hs, hsid, hr, hrid, hmoney, hpos, hav, hle⟩,
    hcur⟩ t e hrec hline htxn

theorem quiet_pendingTransaction (id : Id) : Quiet (TransferService.pendingTransaction id) :=
  (quiet_select _).bind fun _ => (quiet_ofOption _ _).bind fun _ =>
    (quiet_raiseIf _ _).bind fun _ => quiet_pure _

theorem pendingTransaction_ok {id : Id} {t : Transaction}
    (h : Returns cfg (TransferService.pendingTransaction id) b t b') :
    b' = b ∧ b.transactions.find? (fun t => t.id = id) = some t ∧
      t.status = .pending := by
  obtain ⟨found, u, h₁, h₂⟩ := returns_bind h
  obtain ⟨rfl, keys, trail, hfound⟩ := returns_select h₁
  obtain ⟨t', u, h₃, h₄⟩ := returns_bind h₂
  obtain ⟨rfl, ht⟩ := returns_ofOption h₃
  obtain ⟨_, u, h₅, h₆⟩ := returns_bind h₄
  obtain ⟨rfl, hpending⟩ := returns_raiseIf h₅
  obtain ⟨rfl, rfl⟩ := returns_ret h₆
  exact ⟨rfl, hfound.symm.trans ht, not_not.1 hpending⟩

theorem commit_effect {transactionId : Id} :
    Commits cfg (Effect cfg b (.commit transactionId)) (TransferService.commit cfg transactionId)
      b := by
  refine .bind (quiet_pendingTransaction _) fun t b₁ h₁ => ?_
  obtain ⟨rfl, hfound, hpending⟩ := pendingTransaction_ok h₁
  refine .bind (quiet_ofExcept _) fun money b₂ h₂ => ?_
  obtain ⟨rfl, hmoney⟩ := returns_ofExcept h₂
  refine .bind (quiet_raiseIf _ _) fun _ b₃ h₃ => ?_
  obtain ⟨rfl, hrisk⟩ := returns_raiseIf h₃
  refine .bind (quiet_select _) fun found b₄ h₄ => ?_
  obtain ⟨rfl, keys, trail, hdebit⟩ := returns_select h₄
  refine .bind (quiet_ofOption _ _) fun debit b₅ h₅ => ?_
  obtain ⟨rfl, hsome⟩ := returns_ofOption h₅
  refine .bind (quiet_lock _) fun sender b₆ h₆ => ?_
  obtain ⟨rfl, hs, hsid⟩ := lock_ok h₆
  refine .bind (quiet_ofExcept _) fun receiverId b₇ h₇ => ?_
  obtain ⟨rfl, hrid⟩ := returns_ofExcept h₇
  refine .bind (quiet_get _) fun receiver b₈ h₈ => ?_
  obtain ⟨rfl, hr, rfl⟩ := get_ok h₈
  refine .bind (quiet_mutate _) fun _ b₉ h₉ => ?_
  obtain rfl := setEntry_ok h₉
  refine .bind (quiet_mutate _) fun _ b₁₀ h₁₀ => ?_
  obtain ⟨credit, hline, htxn, rfl⟩ := insertEntry_ok (creditLine_mem_grid receiver.id money) h₁₀
  refine .bind (quiet_ofExcept _) fun _ b₁₁ h₁₁ => ?_
  obtain ⟨rfl, hbalanced⟩ := returns_ofExcept h₁₁
  refine .bind (quiet_mutate _) fun _ b₁₂ h₁₂ => ?_
  obtain rfl := setTransaction_ok h₁₂
  refine .bind (quiet_maybeSnapshot _) fun _ b₁₃ h₁₃ => ?_
  refine .bind (quiet_maybeSnapshot _) fun _ b₁₄ h₁₄ => ?_
  have hcuts := Cuts.pair (maybeSnapshot_ok h₁₃) (maybeSnapshot_ok h₁₄)
  exact .commit (harmless_transferPublish _ _ _ _ _)
    (.commit t money debit credit sender receiver _ hfound hpending hmoney (not_lt.1 hrisk)
      (hdebit.symm.trans hsome) hs hsid hrid hr hline htxn hbalanced hcuts)

theorem setEntries_ok {es : List LedgerEntry} {status : EntryStatus} {u : Unit}
    (h : Returns cfg (Program.forEach es fun e =>
      ask (.mutate (.updateEntryStatus e.id status))) b u b') :
    b' = es.foldl (fun b e => b.setEntry e.id status) b := by
  induction es generalizing b with
  | nil => exact (returns_ret h).1
  | cons e es ih =>
    obtain ⟨_, t, h₁, h₂⟩ := returns_bind h
    rw [ih h₂, setEntry_ok h₁, List.foldl_cons]

theorem fail_effect {transactionId : Id} :
    Commits cfg (Effect cfg b (.fail transactionId)) (TransferService.fail cfg transactionId)
      b := by
  refine .bind (quiet_pendingTransaction _) fun t b₁ h₁ => ?_
  obtain ⟨rfl, hfound, hpending⟩ := pendingTransaction_ok h₁
  refine .bind (quiet_select _) fun entries b₂ h₂ => ?_
  obtain ⟨rfl, keys, trail, rfl⟩ := returns_select h₂
  refine .bind (.forEach fun _ => quiet_mutate _) fun _ b₃ h₃ => ?_
  obtain rfl := setEntries_ok h₃
  refine .bind (quiet_mutate _) fun _ b₄ h₄ => ?_
  obtain rfl := setTransaction_ok h₄
  refine .commit ?_ ?_
  · exact (harmless_reloadTransaction _).bind fun _ => (harmless_publish _).bind fun _ =>
      Program.all_ret _
  · exact .fail t hfound hpending

theorem executeFxTransfer_effect {rates : RateTable} {senderId receiverId : Id} {amount : Decimal}
    {correlationId : Option String} :
    Commits cfg (Effect cfg b (.executeFxTransfer rates senderId receiverId amount correlationId))
      (FxService.executeFxTransfer cfg rates senderId receiverId amount correlationId) b := by
  refine .bind (quiet_lock _) fun sender b₁ h₁ => ?_
  obtain ⟨rfl, hs, hsid⟩ := lock_ok h₁
  refine .bind (quiet_get _) fun receiver b₂ h₂ => ?_
  obtain ⟨rfl, hr, hrid⟩ := get_ok h₂
  refine .bind (quiet_raiseIf _ _) fun _ b₃ h₃ => ?_
  obtain ⟨rfl, hne⟩ := returns_raiseIf h₃
  refine .bind (quiet_ofExcept _) fun sent b₄ h₄ => ?_
  obtain ⟨rfl, hsent⟩ := returns_ofExcept h₄
  refine .bind (quiet_raiseIf _ _) fun _ b₅ h₅ => ?_
  obtain ⟨rfl, hpos⟩ := returns_raiseIf h₅
  refine .bind (quiet_availableBalance _) fun available b₆ h₆ => ?_
  obtain ⟨rfl, hav⟩ := availableBalance_ok h₆
  refine .bind (quiet_ofExcept _) fun _ b₇ h₇ => ?_
  obtain ⟨rfl, hfunds⟩ := returns_ofExcept h₇
  refine .bind (quiet_ofExcept _) fun received b₈ h₈ => ?_
  obtain ⟨rfl, hreceived⟩ := returns_ofExcept h₈
  refine .bind (quiet_getOrCreateInternal _ _) fun poolFrom b₉ h₉ => ?_
  obtain ⟨⟨hown₁, hcode₁⟩, hopen₁⟩ := getOrCreateInternal_ok h₉
  refine .bind (quiet_getOrCreateInternal _ _) fun poolTo b₁₀ h₁₀ => ?_
  obtain ⟨⟨hown₂, hcode₂⟩, hopen₂⟩ := getOrCreateInternal_ok h₁₀
  refine .bind (quiet_correlationIdOr _) fun corr b₁₁ h₁₁ => ?_
  obtain rfl := correlationIdOr_ok h₁₁
  refine .bind (quiet_mutate _) fun t b₁₂ h₁₂ => ?_
  obtain ⟨hrec, rfl⟩ := insertTransaction_ok sent.amount_mem_grid h₁₂
  refine .bind (quiet_post _ _) fun _ b₁₃ h₁₃ => ?_
  obtain ⟨-, es, hes, rfl⟩ := post_ok 
    (exchangeLines_mem_grid sender.id poolFrom.id poolTo.id receiver.id sent received) h₁₃
  refine .bind (quiet_maybeSnapshots _) fun _ b₁₄ h₁₄ => ?_
  have hcuts := maybeSnapshots_ok h₁₄
  refine .commit ?_ (.executeFxTransfer
    ⟨sender, receiver, sent, available, hs, hsid, hr, hrid, hsent,
      by simpa [Money.isPositive] using hpos, hav, AccountAggregate.le_of_ensureCanDebit hfunds⟩
    received poolFrom poolTo _ _ _ t es hne hreceived hown₁ hcode₁ hopen₁ hown₂ hcode₂ hopen₂ hrec
    hes hcuts)
  exact (harmless_reloadTransaction _).bind fun _ => (harmless_reloadAccount _).bind fun _ =>
    (harmless_reloadAccount _).bind fun _ => (harmless_publish _).bind fun _ => Program.all_ret _

/-! ## The reversal -/

theorem quiet_lockAll (ids : List Id) :
    Quiet (Program.forEach ids fun id => do
      let _ ← AccountService.lock id
      return ()) := .forEach fun _ => (quiet_lock _).bind fun _ => quiet_pure _

theorem lockAll_ok {ids : List Id} {u : Unit}
    (h : Returns cfg (Program.forEach ids fun id => do
      let _ ← AccountService.lock id
      return ()) b u b') : b' = b := by
  induction ids generalizing b with
  | nil => exact (returns_ret h).1
  | cons id ids ih =>
    obtain ⟨_, t, h₁, h₂⟩ := returns_bind h
    obtain ⟨a, t', h₃, h₄⟩ := returns_bind h₁
    obtain ⟨rfl, -, -⟩ := lock_ok h₃
    obtain ⟨rfl, -⟩ := returns_ret h₄
    exact ih h₂

theorem quiet_snapshotAll (ids : List Id) :
    Quiet (Program.forEach ids fun id => do
      let account ← AccountService.get id
      LedgerService.maybeSnapshot cfg account) :=
  .forEach fun _ => (quiet_get _).bind fun _ => quiet_maybeSnapshot _

theorem snapshotAll_ok {ids : List Id} {u : Unit}
    (h : Returns cfg (Program.forEach ids fun id => do
      let account ← AccountService.get id
      LedgerService.maybeSnapshot cfg account) b u b') :
    Cuts cfg ids b b' := by
  induction ids generalizing b with
  | nil =>
    obtain ⟨rfl, -⟩ := returns_ret h
    exact .nil _
  | cons id ids ih =>
    obtain ⟨_, t, h₁, h₂⟩ := returns_bind h
    obtain ⟨a, t', h₃, h₄⟩ := returns_bind h₁
    obtain ⟨rfl, -, rfl⟩ := get_ok h₃
    exact .cons (maybeSnapshot_ok h₄) (ih h₂)

/-- The mirror of a list of entries has one line for each. -/
theorem mirror_ok {currency : String} {entries : List LedgerEntry} {t : TransactionAggregate}
    (h : ReversalService.mirror currency entries = .ok t) :
    t.currency = currency ∧ List.Forall₂ MirrorLine entries t.lines := by
  have main : ∀ (t₀ t : TransactionAggregate),
      entries.foldlM
        (fun transaction entry => do
          let money ← Money.make |entry.amount| entry.currency
          return if entry.entryType = .debit then transaction.credit entry.accountId money
            else transaction.debit entry.accountId money) t₀ = Except.ok t →
      t.currency = t₀.currency ∧
        ∃ lines, t.lines = t₀.lines ++ lines ∧ List.Forall₂ MirrorLine entries lines := by
    clear h t
    induction entries with
    | nil =>
      intro t₀ t h
      cases h
      exact ⟨rfl, [], by simp, .nil⟩
    | cons e entries ih =>
      intro t₀ t h
      rw [List.foldlM_cons] at h
      cases hm : Money.make |e.amount| e.currency with
      | error ex =>
        rw [hm] at h
        cases h
      | ok m =>
        rw [hm] at h
        obtain ⟨hcur, lines, hlines, hall⟩ := ih _ t h
        refine ⟨?_, (if e.entryType = .debit then creditLine e.accountId m
          else debitLine e.accountId m) :: lines, ?_, .cons ⟨m, hm, rfl⟩ hall⟩
        · rw [hcur]
          split <;> rfl
        · rw [hlines]
          split <;> simp [TransactionAggregate.credit, TransactionAggregate.debit,
            TransactionAggregate.record]
  obtain ⟨hcur, lines, hlines, hall⟩ := main _ t h
  rw [TransactionAggregate.new, List.nil_append] at hlines
  exact ⟨hcur, hlines ▸ hall⟩

theorem reverse_effect {transactionId : Id} {correlationId : Option String}
    (hgrid : ∀ t ∈ b.transactions, t.amount ∈ Decimal.grid 8) :
    Commits cfg (Effect cfg b (.reverse transactionId correlationId))
      (ReversalService.reverse cfg transactionId correlationId) b := by
  refine .bind (quiet_select _) fun found b₁ h₁ => ?_
  obtain ⟨rfl, keys, trail, hfound⟩ := returns_select h₁
  refine .bind (quiet_ofOption _ _) fun t b₂ h₂ => ?_
  obtain ⟨rfl, ht⟩ := returns_ofOption h₂
  have hfind := hfound.symm.trans ht
  refine .bind (quiet_raiseIf _ _) fun _ b₃ h₃ => ?_
  obtain ⟨rfl, hsuccess⟩ := returns_raiseIf h₃
  refine .bind (quiet_raiseIf _ _) fun _ b₄ h₄ => ?_
  obtain ⟨rfl, horiginal⟩ := returns_raiseIf h₄
  refine .bind (quiet_select _) fun entries b₅ h₅ => ?_
  obtain ⟨rfl, keys, trail, rfl⟩ := returns_select h₅
  refine .bind (quiet_lockAll _) fun _ b₆ h₆ => ?_
  obtain rfl := lockAll_ok h₆
  refine .bind (quiet_correlationIdOr _) fun corr b₇ h₇ => ?_
  obtain rfl := correlationIdOr_ok h₇
  refine .bind (quiet_mutate _) fun reversal b₈ h₈ => ?_
  obtain ⟨hrec, rfl⟩ := insertTransaction_ok (hgrid t (List.mem_of_find?_eq_some hfind)) h₈
  refine .bind (quiet_ofExcept _) fun mirrored b₉ h₉ => ?_
  obtain ⟨rfl, hmirror⟩ := returns_ofExcept h₉
  obtain ⟨hcur, hall⟩ := mirror_ok hmirror
  refine .bind (quiet_post _ _) fun _ b₁₀ h₁₀ => ?_
  obtain ⟨hbalanced, es, hes, rfl⟩ := post_ok (mem_grid_of_mirrored hall) h₁₀
  refine .bind (quiet_mutate _) fun _ b₁₁ h₁₁ => ?_
  obtain rfl := setTransaction_ok h₁₁
  refine .bind (quiet_snapshotAll _) fun _ b₁₂ h₁₂ => ?_
  have hcuts := snapshotAll_ok h₁₂
  refine .commit trivial (.reverse t reversal mirrored.lines es _ hfind (not_not.1 hsuccess)
    horiginal hrec hall ?_ hes hcuts)
  rw [← hcur]
  exact hbalanced

end

/-! ## Every operation -/

/-- On books nobody else touches, every operation has its effect. -/
theorem Operation.commits {cfg : Config} {b : Books} {s : Sequences} (hb : b.Keyed s)
    (op : Operation) : Commits cfg (Effect cfg b op) (op.program cfg) b := by
  cases op with
  | createAccount ownerId currency => exact createAccount_effect.map
  | initiateDeposit accountId amount provider context correlationId =>
    exact initiateDeposit_effect.map
  | settle reference confirmedAmount confirmedCurrency => exact settle_effect.map
  | execute senderId receiverId amount correlationId => exact execute_effect.map
  | initiate senderId receiverId amount correlationId => exact initiate_effect.map
  | commit transactionId => exact commit_effect.map
  | fail transactionId => exact fail_effect.map
  | executeFxTransfer rates senderId receiverId amount correlationId =>
    exact executeFxTransfer_effect.map
  | reverse transactionId correlationId => exact (reverse_effect hb.transactionAmounts).map

/-- Every operation commits before it returns. -/
theorem Operation.commitsFirst (cfg : Config) (op : Operation) : CommitsFirst (op.program cfg) := by
  cases op with
  | createAccount ownerId currency =>
    refine (CommitsFirst.attempt (.bind (quiet_mutate _) fun a => .commit) fun e => ?_).map
    split
    · exact fun v => by cases v <;> trivial
    · trivial
  | initiateDeposit accountId amount provider context correlationId =>
    refine CommitsFirst.map ?_
    exact .bind (quiet_get _) fun account => .bind (quiet_ofExcept _) fun money =>
      .bind (quiet_raiseIf _ _) fun _ => .bind (quiet_correlationIdOr _) fun corr =>
      .bind (quiet_mutate _) fun t => .bind (quiet_ofExcept _) fun prov =>
      .bind (quiet_ofExcept _) fun reference => .bind (quiet_mutate _) fun _ => .commit
  | settle reference confirmedAmount confirmedCurrency =>
    refine CommitsFirst.map ?_
    exact .bind (quiet_select _) fun found => .bind (quiet_ofOption _ _) fun t =>
      .bind (quiet_raiseIf _ _) fun _ => .bind (quiet_ofExcept _) fun authorized =>
      .bind (quiet_ofExcept _) fun _ => .bind (quiet_ofExcept _) fun accountId =>
      .bind (quiet_lock _) fun account => .bind (quiet_getOrCreateInternal _ _) fun clearing =>
      .bind (quiet_post _ _) fun _ => .bind (quiet_mutate _) fun _ =>
      .bind (quiet_maybeSnapshot _) fun _ => .bind (quiet_maybeSnapshot _) fun _ => .commit
  | execute senderId receiverId amount correlationId =>
    refine CommitsFirst.map ?_
    exact .bind (quiet_lock _) fun sender => .bind (quiet_get _) fun receiver =>
      .bind (quiet_validate _ _ _) fun money => .bind (quiet_ensureFunds _ _) fun _ =>
      .bind (quiet_correlationIdOr _) fun corr => .bind (quiet_mutate _) fun t =>
      .bind (quiet_post _ _) fun _ => .bind (quiet_maybeSnapshot _) fun _ =>
      .bind (quiet_maybeSnapshot _) fun _ => .commit
  | initiate senderId receiverId amount correlationId =>
    refine CommitsFirst.map ?_
    exact .bind (quiet_lock _) fun sender => .bind (quiet_get _) fun receiver =>
      .bind (quiet_validate _ _ _) fun money => .bind (quiet_ensureFunds _ _) fun _ =>
      .bind (quiet_correlationIdOr _) fun corr => .bind (quiet_mutate _) fun t =>
      .bind (quiet_mutate _) fun _ => .commit
  | commit transactionId =>
    refine CommitsFirst.map ?_
    exact .bind (quiet_pendingTransaction _) fun t => .bind (quiet_ofExcept _) fun money =>
      .bind (quiet_raiseIf _ _) fun _ => .bind (quiet_select _) fun found =>
      .bind (quiet_ofOption _ _) fun debit => .bind (quiet_lock _) fun sender =>
      .bind (quiet_ofExcept _) fun receiverId => .bind (quiet_get _) fun receiver =>
      .bind (quiet_mutate _) fun _ => .bind (quiet_mutate _) fun credit =>
      .bind (quiet_ofExcept _) fun _ => .bind (quiet_mutate _) fun _ =>
      .bind (quiet_maybeSnapshot _) fun _ => .bind (quiet_maybeSnapshot _) fun _ => .commit
  | fail transactionId =>
    refine CommitsFirst.map ?_
    exact .bind (quiet_pendingTransaction _) fun t => .bind (quiet_select _) fun entries =>
      .bind (.forEach fun e => quiet_mutate _) fun _ => .bind (quiet_mutate _) fun _ => .commit
  | executeFxTransfer rates senderId receiverId amount correlationId =>
    refine CommitsFirst.map ?_
    exact .bind (quiet_lock _) fun sender => .bind (quiet_get _) fun receiver =>
      .bind (quiet_raiseIf _ _) fun _ => .bind (quiet_ofExcept _) fun sent =>
      .bind (quiet_raiseIf _ _) fun _ => .bind (quiet_availableBalance _) fun available =>
      .bind (quiet_ofExcept _) fun _ => .bind (quiet_ofExcept _) fun received =>
      .bind (quiet_getOrCreateInternal _ _) fun poolFrom =>
      .bind (quiet_getOrCreateInternal _ _) fun poolTo =>
      .bind (quiet_correlationIdOr _) fun corr => .bind (quiet_mutate _) fun t =>
      .bind (quiet_post _ _) fun _ => .bind (quiet_maybeSnapshots _) fun _ => .commit
  | reverse transactionId correlationId =>
    refine CommitsFirst.map ?_
    exact .bind (quiet_select _) fun found => .bind (quiet_ofOption _ _) fun t =>
      .bind (quiet_raiseIf _ _) fun _ => .bind (quiet_raiseIf _ _) fun _ =>
      .bind (quiet_select _) fun entries => .bind (quiet_lockAll _) fun _ =>
      .bind (quiet_correlationIdOr _) fun corr => .bind (quiet_mutate _) fun reversal =>
      .bind (quiet_ofExcept _) fun mirrored => .bind (quiet_post _ _) fun _ =>
      .bind (quiet_mutate _) fun _ => .bind (quiet_snapshotAll _) fun _ => .commit

end WalletLedger
