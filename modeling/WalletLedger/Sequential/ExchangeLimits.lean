import WalletLedger.Sequential.Limits

/-!
# How large an exchange may be

An exchange crosses the limits twice, in both currencies, and moves the pools as well, which are
opened when they are not there.

* `ends_convert` — the rate and the amount that is received.
* `Store.CanExchange` — what must still fit then.
* `fx_answered` — an exchange commits or is refused with an error of the domain exactly within
  the limits.
-/

namespace WalletLedger

variable {cfg : Config} {b b' b₁ : Books} {s s' : Sequences}

section exchanges

variable {β : Type} {c : Conn}

/-- The lines of a transaction that is there: an amount that is too wide is refused. -/
theorem ends_insertLines {Q : Except Exn β → Conn → Prop} {b₀ : Books} {f : Unit → App β} {id : Id}
    {lines : List PostingLine} (ho : c.Open b₀ b)
    (hlines : ∀ line ∈ lines, line.amount ∈ Decimal.grid 8 ∧ fitsIn 3 line.currency = true ∧
      ∃ a ∈ b.accounts, a.id = line.accountId)
    (ht : ∃ t ∈ b.transactions, t.id = id)
    (h : (∀ line ∈ lines, |line.amount| < 10 ^ 20) → ∀ (es : List LedgerEntry) (d : Conn),
      Posted id lines es → d.Open b₀ (b.addEntries es) → Ends cfg (f ()) d Q)
    (he : ¬ (∀ line ∈ lines, |line.amount| < 10 ^ 20) → ∀ d : Conn,
      Q (.error (.service .data)) d) :
    Ends cfg ((Program.forEach lines fun line =>
      ask (.mutate (.insertEntry line.accountId id line.amount line.entryType line.status
        line.currency))) >>= f) c Q := by
  induction lines generalizing b c with
  | nil => exact h (by simp) [] c ⟨rfl, by simp⟩ (by simpa [Books.addEntries] using ho)
  | cons line lines ih =>
    rw [Program.forEach, Program.bind_assoc]
    obtain ⟨hgrid, hcur, haccount⟩ := hlines line (by simp)
    by_cases hwide : |line.amount| < 10 ^ 20
    · refine ends_insertEntry ho ((Decimal.storeNumeric_iff hgrid).2 hwide) hcur haccount ht
        fun d hd => ih hd (fun l hl => hlines l (List.mem_cons_of_mem _ hl)) ht
          (fun hall es d' hes hd' => ?_) fun hnot d => he (fun hall => hnot fun l hl => ?_) d
      · refine h (List.forall_mem_cons.2 ⟨hwide, hall⟩) (_ :: es) d' ⟨?_, ?_⟩
          (by simpa [Books.addEntries] using hd')
        · rw [List.map_cons, hes.lines]
          rfl
        · intro e hmem
          rcases List.mem_cons.1 hmem with rfl | hmem
          · rfl
          · exact hes.transaction e hmem
      · exact hall l (List.mem_cons_of_mem _ hl)
    · refine ends_refused ho (e := .data) ?_ fun d _ =>
        he (fun hall => hwide (hall line (by simp))) d
      have hnone : Decimal.storeNumeric 28 8 line.amount = none := by
        cases hstore : Decimal.storeNumeric 28 8 line.amount with
        | none => rfl
        | some x =>
          obtain rfl := Decimal.eq_of_storeNumeric le_rfl hgrid hstore
          exact absurd ((Decimal.storeNumeric_iff hgrid).1 hstore) hwide
      dsimp only [Mutation.exec]
      rw [hnone]

/-- Each currency of an exchange balances. -/
theorem assertBalanced_exchange {sent received : Money} (hne : sent.currency ≠ received.currency)
    (a₁ a₂ a₃ a₄ : Id) :
    (((((TransactionAggregate.new sent.currency).debit a₁ sent).credit a₂ sent).debit a₃
      received).credit a₄ received).assertBalanced = .ok () := by
  have hround : ∀ m : Money, Decimal.roundContext (-|m.amount|) = -|m.amount| := fun m =>
    Decimal.roundContext_of_fits ((Decimal.grid _).neg_mem (Decimal.abs_mem_grid m.onGrid))
      (by rw [abs_mul, abs_neg, abs_abs, ← abs_mul]; exact m.fits)
  have hzero : Decimal.roundContext 0 = 0 := if_pos rfl
  simp [TransactionAggregate.assertBalanced, TransactionAggregate.debit,
    TransactionAggregate.credit, TransactionAggregate.record, TransactionAggregate.new,
    TransactionAggregate.totals, TransactionAggregate.addTotal, TransactionAggregate.checkTotals,
    hne, hround, hzero]

section rates

variable {rates : RateTable} {base quote : String} {perBase perQuote : Decimal}

/-- A currency that is not on the table is an error of the domain. -/
theorem getRate_unknown (hupper : base.toUpper = base) (hupper' : quote.toUpper = quote)
    (hne : base ≠ quote) (h : ∀ perBase ∈ rates.lookup base, rates.lookup quote = none) :
    ∃ currency, getRate rates base quote = .error (.domain (.unknownCurrency currency)) := by
  unfold getRate
  rw [hupper, hupper', if_neg hne]
  cases hbase : rates.lookup base with
  | none => exact ⟨base, by simp [RateTable.find, hbase, bind, Except.bind]⟩
  | some perBase =>
    have hquote := h perBase hbase
    exact ⟨quote, by simp [RateTable.find, hbase, hquote, bind, Except.bind]⟩

/-- Two rates on the table, within the limits. -/
theorem getRate_of_short (hupper : base.toUpper = base) (hupper' : quote.toUpper = quote)
    (hne : base ≠ quote) (hbase : rates.lookup base = some perBase)
    (hquote : rates.lookup quote = some perQuote) (hzero : perBase ≠ 0)
    (hshort : Decimal.Short 8 (Decimal.roundContext (perQuote / perBase))) :
    getRate rates base quote =
      .ok (Decimal.round 8 (Decimal.roundContext (perQuote / perBase))) := by
  have hquoted := Decimal.quantize_of_short hshort
  unfold getRate
  rw [hupper, hupper', if_neg hne]
  simp [RateTable.find, hbase, hquote, hzero, hquoted, bind, Except.bind, pure, Except.pure]

/-- Two rates on the table, beyond the limits. -/
theorem getRate_of_not_short (hupper : base.toUpper = base) (hupper' : quote.toUpper = quote)
    (hne : base ≠ quote) (hbase : rates.lookup base = some perBase)
    (hquote : rates.lookup quote = some perQuote)
    (h : perBase ≠ 0 → ¬ Decimal.Short 8 (Decimal.roundContext (perQuote / perBase))) :
    ∃ e, (e = .invalidOperation ∨ e = .divisionByZero) ∧ getRate rates base quote = .error e := by
  unfold getRate
  rw [hupper, hupper', if_neg hne]
  by_cases hzero : perBase = 0
  · refine ⟨if perQuote = 0 then .invalidOperation else .divisionByZero, ?_, ?_⟩
    · split
      · exact .inl rfl
      · exact .inr rfl
    · simp [RateTable.find, hbase, hquote, hzero, bind, Except.bind, throw, throwThe,
        MonadExceptOf.throw]
  · have hnone := Decimal.quantize_of_not_short (h hzero)
    exact ⟨_, .inl rfl, by simp [RateTable.find, hbase, hquote, hzero, hnone, bind, Except.bind,
      throw, throwThe, MonadExceptOf.throw]⟩

/-- The rates on either side of their limits. -/
theorem ends_convert {f : Money → App β} {sent : Money} {rest : Decimal → Prop}
    (hbase : sent.currency = base) (hupper : base.toUpper = base)
    (hupper' : quote.toUpper = quote) (hne : base ≠ quote)
    (h : ∀ received, FxService.convert rates sent quote = .ok received →
      Ends cfg (f received) c fun o _ => Answered o ↔ rest |received.amount|) :
    Ends cfg (Program.ofExcept (FxService.convert rates sent quote) >>= f) c fun o _ =>
      Answered o ↔ Store.Converts rates sent.amount base quote rest := by
  have hconvert : FxService.convert rates sent quote =
      getRate rates base quote >>= fun rate =>
        Money.make (Decimal.roundContext (sent.amount * rate)) quote := by
    rw [← hbase]
    rfl
  have hraise : ∀ {e : Exn}, getRate rates base quote = .error e →
      FxService.convert rates sent quote = .error e := by
    intro e he
    rw [hconvert, he]
    rfl
  by_cases hunknown : ∀ perBase ∈ rates.lookup base, rates.lookup quote = none
  · obtain ⟨currency, herror⟩ := getRate_unknown hupper hupper' hne hunknown
    refine ends_raises (hraise herror) ⟨fun _ perBase hx perQuote hy => ?_, fun _ => trivial⟩
    rw [hunknown perBase hx] at hy
    cases hy
  push Not at hunknown
  obtain ⟨perBase, hperBase, hsome⟩ := hunknown
  obtain ⟨perQuote, hperQuote⟩ := Option.ne_none_iff_exists'.1 hsome
  set rate := Decimal.roundContext (perQuote / perBase)
  set bought := Decimal.roundContext (sent.amount * Decimal.round 8 rate)
  have honly : Store.Converts rates sent.amount base quote rest ↔
      perBase ≠ 0 ∧ Decimal.Short 8 rate ∧ Decimal.Short (decimalsFor quote) bought ∧
        rest |Decimal.round (decimalsFor quote) bought| := by
    constructor
    · exact fun hall => hall perBase hperBase perQuote hperQuote
    · intro hone x hx y hy
      cases hperBase.symm.trans hx
      cases hperQuote.symm.trans hy
      exact hone
  rw [honly]
  by_cases hrate : perBase ≠ 0 ∧ Decimal.Short 8 rate
  swap
  · obtain ⟨e, he, herror⟩ := getRate_of_not_short hupper hupper' hne hperBase hperQuote
      fun hzero hshort => hrate ⟨hzero, hshort⟩
    refine ends_raises (hraise herror) ⟨fun hanswered => ?_, fun hall => ?_⟩
    · rcases he with rfl | rfl <;> exact hanswered.elim
    · exact absurd ⟨hall.1, hall.2.1⟩ hrate
  have hmade : FxService.convert rates sent quote = Money.make bought quote := by
    rw [hconvert, getRate_of_short hupper hupper' hne hperBase hperQuote hrate.1 hrate.2]
    rfl
  by_cases hshort : Decimal.Short (decimalsFor quote) bought
  · obtain ⟨received, hreceived, hamount⟩ := Money.make_of_short hshort
    refine ends_ofExcept (hmade.trans hreceived) ?_
    have hall : (perBase ≠ 0 ∧ Decimal.Short 8 rate ∧ Decimal.Short (decimalsFor quote) bought ∧
        rest |Decimal.round (decimalsFor quote) bought|) ↔ rest |received.amount| := by
      rw [hamount]
      exact ⟨fun hall => hall.2.2.2, fun hrest => ⟨hrate.1, hrate.2, hshort, hrest⟩⟩
    rw [hall]
    exact h received (hmade.trans hreceived)
  · exact ends_raises (hmade.trans (Money.make_of_not_short hshort))
      ⟨False.elim, fun hall => absurd hall.2.2.1 hshort⟩

end rates

/-- What an exchange writes once its pools are there. -/
def FxService.record (cfg : Config) (correlationId : Option String)
    (sender receiver poolFrom poolTo : Account) (sent received : Money) : App Transaction := do
  let correlationId ← correlationIdOr correlationId
  let txn ← ask (.mutate (.insertTransaction .fxTransfer .success sent.amount sent.currency
    (.fxTransfer sender.id receiver.id received.text received.currency) (some correlationId)))
  let transaction :=
    ((((TransactionAggregate.new sent.currency).debit sender.id sent).credit poolFrom.id sent).debit
      poolTo.id received).credit receiver.id received
  LedgerService.post transaction txn.id
  Program.forEach [sender, receiver, poolFrom, poolTo] (LedgerService.maybeSnapshot cfg)
  ask .commit
  let txn ← reloadTransaction txn.id
  let sender ← reloadAccount sender.id
  let receiver ← reloadAccount receiver.id
  EventBus.publish (subscribers cfg)
    { eventType := .transferCompleted
      payload :=
        { transactionId := txn.id
          senderId := some sender.id
          receiverId := some receiver.id
          amount := some sent.text
          currency := some sent.currency
          targetAmount := some received.text
          targetCurrency := some received.currency }
      correlationId := some correlationId }
  return txn

theorem executeFxTransfer_eq {rates : RateTable} {senderId receiverId : Id} {amount : Decimal}
    {correlationId : Option String} :
    FxService.executeFxTransfer cfg rates senderId receiverId amount correlationId = (do
      let sender ← AccountService.lock senderId
      let receiver ← AccountService.get receiverId
      raiseIf (sender.currency = receiver.currency) (.domain (.sameCurrency sender.currency))
      let sent ← Program.ofExcept (Money.make amount sender.currency)
      raiseIf (¬ sent.isPositive) (.domain .invalidAmount)
      let available ← LedgerService.availableBalance sender
      Program.ofExcept (AccountAggregate.ensureCanDebit sent available)
      let received ← Program.ofExcept (FxService.convert rates sent receiver.currency)
      let poolFrom ← AccountService.getOrCreateInternal fxPoolOwner sender.currency
      let poolTo ← AccountService.getOrCreateInternal fxPoolOwner receiver.currency
      FxService.record cfg correlationId sender receiver poolFrom poolTo sent received) := rfl

/-- The accounts that are there, and what they are moved by. -/
theorem fxRecord_answered {b₀ b₂ : Books} {correlationId : Option String}
    {sender receiver poolFrom poolTo : Account} {sent received : Money} (ho : c.Open b₀ b₂)
    (hentries : b₂.entries = b.entries) (hsnapshots : b₂.snapshots = b.snapshots)
    (hc : b.CursorsDrawn) (hs : b.Scaled)
    (haccounts : ∀ a ∈ [sender, receiver, poolFrom, poolTo], a ∈ b₂.accounts)
    (hfit : fitsIn 3 sent.currency = true) (hfit' : fitsIn 3 received.currency = true)
    (hne : sent.currency ≠ received.currency) (hpos : 0 < sent.amount)
    (hw : c.store.seqs.nextId.text.length ≤ 36) :
    Ends cfg (FxService.record cfg correlationId sender receiver poolFrom poolTo sent received) c
      fun o _ => Answered o ↔ sent.amount < 10 ^ 20 ∧ |received.amount| < 10 ^ 20 ∧
        CorrelationFits correlationId ∧ b.AbsorbsAll cfg
          [(sender.id, -sent.amount), (receiver.id, |received.amount|), (poolFrom.id, sent.amount),
            (poolTo.id, -|received.amount|)] := by
  have hsender := haccounts sender (by simp)
  have hreceiver := haccounts receiver (by simp)
  have hamount : |sent.amount| = sent.amount := abs_of_pos hpos
  unfold FxService.record
  refine ends_correlation ho hw fun text c₁ htext h₁ _ => ?_
  rw [← htext]
  refine ends_newRow h₁ hfit hpos (fun hrow hlabel t c₂ _ h₂ => ?_) fun hrow d =>
    ⟨False.elim, fun hall => hrow ⟨hall.1, hall.2.2.1⟩⟩
  dsimp only
  unfold LedgerService.post
  rw [Program.bind_assoc]
  refine ends_ofExcept (assertBalanced_exchange hne _ _ _ _) ?_
  have hlines : ((((TransactionAggregate.new sent.currency).debit sender.id sent).credit poolFrom.id
      sent).debit poolTo.id received |>.credit receiver.id received).lines =
      [debitLine sender.id sent, creditLine poolFrom.id sent, debitLine poolTo.id received,
        creditLine receiver.id received] := rfl
  rw [hlines]
  have hwide : (∀ line ∈ [debitLine sender.id sent, creditLine poolFrom.id sent,
      debitLine poolTo.id received, creditLine receiver.id received], |line.amount| < 10 ^ 20) ↔
      sent.amount < 10 ^ 20 ∧ |received.amount| < 10 ^ 20 := by
    simp [hamount]
  refine ends_insertLines h₂ (fun line hl => ?_) ⟨t, List.mem_append_right _ (by simp), rfl⟩
    (fun hnarrow es c₃ hposted h₃ => ?_) fun hnot d =>
      ⟨False.elim, fun hall => absurd (hwide.2 ⟨hall.1, hall.2.1⟩) hnot⟩
  · simp only [List.mem_cons, List.not_mem_nil, or_false] at hl
    rcases hl with rfl | rfl | rfl | rfl
    · exact ⟨debitLine_mem_grid _ _, hfit, sender, hsender, rfl⟩
    · exact ⟨creditLine_mem_grid _ _, hfit, poolFrom, haccounts poolFrom (by simp), rfl⟩
    · exact ⟨debitLine_mem_grid _ _, hfit', poolTo, haccounts poolTo (by simp), rfl⟩
    · exact ⟨creditLine_mem_grid _ _, hfit', receiver, hreceiver, rfl⟩
  have happends : b.Appends ((b₂.addTransaction t).addEntries es) es :=
    ⟨by rw [← hentries]; rfl, by rw [← hsnapshots]; rfl⟩
  have hmoves : (es.map fun e => (e.accountId, e.amount)).Perm
      [(sender.id, -sent.amount), (receiver.id, |received.amount|), (poolFrom.id, sent.amount),
        (poolTo.id, -|received.amount|)] := by
    rw [hposted.moves]
    simp only [List.map_cons, List.map_nil, hamount]
    exact .cons _ (List.perm_append_singleton (receiver.id, |received.amount|)
      [(poolFrom.id, sent.amount), (poolTo.id, -|received.amount|)])
  have habsorbs : Books.CutsFit cfg _ ([sender, receiver, poolFrom, poolTo].map Account.id) ↔ _ :=
    happends.cutsFit_iff hc h₃.view_keyed (.refl _) hmoves (hposted.status (by simp))
  have hs₂ : ((b₂.addTransaction t).addEntries es).Scaled := hs.congr happends.snapshots
  refine ends_maybeSnapshots h₃ hs₂ haccounts (fun hfits b₃ c₄ hcuts h₄ => ?_)
    fun hunfit e d he => ?_
  · obtain ⟨ha, htx, -⟩ := hcuts.rest
    refine ends_commit h₄ fun c₅ h₅ hwrites => ?_
    refine ends_reloadTransaction h₅ (htx ▸ List.mem_append_right _ (by simp)) ?_
    refine ends_reloadAccount h₅ (ha ▸ hsender) (ends_reloadAccount h₅ (ha ▸ hreceiver) ?_)
    exact ends_publish h₅ hwrites _ fun d _ => ends_ret
      ⟨fun _ => ⟨hrow, (hwide.1 hnarrow).2, hlabel, habsorbs.1 hfits⟩, fun _ => trivial⟩
  · refine ⟨fun hanswered => ?_, fun hall => absurd (habsorbs.2 hall.2.2.2) hunfit⟩
    rcases he with rfl | rfl <;> exact hanswered.elim

namespace Books

theorem absorbsAll_perm {moves moves' : List (Id × Decimal)} (h : moves.Perm moves') :
    b.AbsorbsAll cfg moves ↔ b.AbsorbsAll cfg moves' := by
  unfold AbsorbsAll
  rw [(h.map Prod.fst).nodup_iff]
  refine and_congr_right fun _ => forall_congr' fun a => ?_
  rw [(h.map Prod.fst).mem_iff, tally_perm h, tally_perm h]

/-- An account that is not there yet absorbs what its column can hold. -/
theorem absorbsAll_fresh (hk : b.Keyed s) (hc : b.CursorsDrawn) {p : Id} {v : Decimal}
    (before after : List (Id × Decimal)) (hfresh : ∀ x ∈ b.accounts, x.id ≠ p)
    (hnot : ∀ m ∈ before ++ after, m.1 ≠ p) (hgrid : v ∈ Decimal.grid 8) (hv : |v| < 10 ^ 20) :
    b.AbsorbsAll cfg (before ++ (p, v) :: after) ↔ b.AbsorbsAll cfg (before ++ after) := by
  rw [absorbsAll_perm List.perm_middle]
  generalize before ++ after = moves at hnot
  have hmem : p ∉ moves.map Prod.fst := by
    intro hp
    obtain ⟨m, hm, hmp⟩ := List.mem_map.1 hp
    exact hnot m hm hmp
  have hself : b.Absorbs cfg p (tally (fun m => m.1 = p) (fun _ => 1) ((p, v) :: moves))
      (tally (fun m => m.1 = p) Prod.snd ((p, v) :: moves)) := by
    intro _
    have hzero : tally (fun m : Id × Decimal => m.1 = p) Prod.snd moves = 0 :=
      tally_eq_zero fun m hm hmp => absurd hmp (hnot m hm)
    rw [tally_cons, if_pos rfl, hzero, add_zero, (read_of_absent hk hc hfresh).1, zero_add,
      (Decimal.storeNumeric_iff hgrid).2 hv]
    rfl
  have hother : ∀ a ∈ moves.map Prod.fst,
      (b.Absorbs cfg a (tally (fun m => m.1 = a) (fun _ => 1) ((p, v) :: moves))
        (tally (fun m => m.1 = a) Prod.snd ((p, v) :: moves)) ↔
      b.Absorbs cfg a (tally (fun m => m.1 = a) (fun _ => 1) moves)
        (tally (fun m => m.1 = a) Prod.snd moves)) := by
    intro a ha
    have hpa : p ≠ a := fun hpa => hmem (hpa ▸ ha)
    rw [tally_cons, tally_cons, if_neg hpa, if_neg hpa, zero_add, zero_add]
  unfold AbsorbsAll
  rw [List.map_cons, List.nodup_cons, and_iff_right hmem, List.forall_mem_cons,
    and_iff_right hself]
  exact and_congr_right fun _ => forall₂_congr fun a ha => hother a ha

/-- The pool of a currency that an exchange uses: the one that is there, or else another account
than those that are. -/
def PoolFor (b : Books) (currency : String) (pool : Account) : Prop :=
  b.pool currency = some pool ∨ b.pool currency = none ∧ ∀ x ∈ b.accounts, x.id ≠ pool.id

/-- Only a pool that was there may absorb too little. -/
theorem absorbsAll_pool (hk : b.Keyed s) (hc : b.CursorsDrawn) {currency : String} {pool : Account}
    {v : Decimal} (hp : b.PoolFor currency pool) (before after : List (Id × Decimal))
    (hnot : b.pool currency = none → ∀ m ∈ before ++ after, m.1 ≠ pool.id)
    (hgrid : v ∈ Decimal.grid 8) (hv : |v| < 10 ^ 20) :
    b.AbsorbsAll cfg (before ++ (pool.id, v) :: after) ↔
      b.AbsorbsAll cfg
        (before ++ ((b.pool currency).toList.map fun a => (a.id, v)) ++ after) := by
  rcases hp with hfound | ⟨hnone, hfresh⟩
  · simp [hfound]
  · rw [absorbsAll_fresh hk hc before after hfresh (hnot hnone) hgrid hv]
    simp [hnone]

/-- An exchange moves its amounts on the pools; those that are opened for it do not count. -/
theorem absorbsAll_pools (hk : b.Keyed s) (hc : b.CursorsDrawn)
    {sender receiver poolFrom poolTo : Account} {sent received : Decimal}
    (hsender : sender ∈ b.accounts) (hreceiver : receiver ∈ b.accounts)
    (hfrom : b.PoolFor sender.currency poolFrom) (hto : b.PoolFor receiver.currency poolTo)
    (hother : b.pool sender.currency = none → poolTo.id ≠ poolFrom.id)
    (hsent : sent ∈ Decimal.grid 8) (hwide : |sent| < 10 ^ 20)
    (hreceived : received ∈ Decimal.grid 8) (hwide' : |received| < 10 ^ 20) :
    b.AbsorbsAll cfg [(sender.id, -sent), (receiver.id, received), (poolFrom.id, sent),
        (poolTo.id, -received)] ↔
      b.AbsorbsAll cfg (Store.exchangeMoves b sender receiver sent received) := by
  have hleft : ∀ m ∈ [(sender.id, -sent), (receiver.id, received)], ∃ x ∈ b.accounts,
      x.id = m.1 := by
    simp only [List.mem_cons, List.not_mem_nil, or_false]
    rintro m (rfl | rfl)
    · exact ⟨sender, hsender, rfl⟩
    · exact ⟨receiver, hreceiver, rfl⟩
  have hfirst : b.AbsorbsAll cfg _ ↔ _ := absorbsAll_pool hk hc hfrom
    [(sender.id, -sent), (receiver.id, received)] [(poolTo.id, -received)] ?_ hsent hwide
  have hsecond : b.AbsorbsAll cfg _ ↔ _ := absorbsAll_pool hk hc hto
    ([(sender.id, -sent), (receiver.id, received)] ++
      (b.pool sender.currency).toList.map fun a => (a.id, sent)) [] ?_
    ((Decimal.grid _).neg_mem hreceived) (by rwa [abs_neg])
  · rw [List.append_nil] at hsecond
    exact hfirst.trans hsecond
  · intro hnone m hm
    have hfresh := (hto.resolve_left (by simp [hnone])).2
    rw [List.append_nil] at hm
    rcases List.mem_append.1 hm with hm | hm
    · obtain ⟨x, hx, hxm⟩ := hleft m hm
      exact hxm ▸ hfresh x hx
    · obtain ⟨a, ha, rfl⟩ := List.mem_map.1 hm
      exact hfresh a (List.mem_of_find?_eq_some (Option.mem_toList.1 ha))
  · intro hnone m hm
    have hfresh := (hfrom.resolve_left (by simp [hnone])).2
    rcases List.mem_append.1 hm with hm | hm
    · obtain ⟨x, hx, hxm⟩ := hleft m hm
      exact hxm ▸ hfresh x hx
    · obtain rfl := List.mem_singleton.1 hm
      exact hother hnone

/-- An account in another currency is no pool of this one. -/
theorem pool_append {currency : String} {a : Account} (h : a.currency ≠ currency) :
    { b with accounts := b.accounts ++ [a] }.pool currency = b.pool currency := by
  unfold pool
  rw [List.find?_append]
  simp [h]

end Books

/-- The pool of a currency is found, or opened. -/
theorem ends_pool {Q : Except Exn β → Conn → Prop} {b₀ : Books} {currency : String}
    {f : Account → App β} (ho : c.Open b₀ b) (hupper : currency.toUpper = currency)
    (hcur : fitsIn 3 currency = true)
    (hfound : ∀ pool ∈ b.accounts, b.pool currency = some pool → Ends cfg (f pool) c Q)
    (hopened : b.pool currency = none →
      (∀ x ∈ b.accounts, x.number ≠ c.store.seqs.nextNumber cfg) →
      ∀ (pool : Account) (d : Conn), pool.currency = currency →
        pool.number = c.store.seqs.nextNumber cfg → (∀ x ∈ b.accounts, x.id ≠ pool.id) →
        d.Open b₀ { b with accounts := b.accounts ++ [pool] } →
        d.store.seqs = (Mutation.insertAccount fxPoolOwner currency).advance c.store.seqs →
        Ends cfg (f pool) d Q)
    (htaken : b.pool currency = none →
      (∃ x ∈ b.accounts, x.number = c.store.seqs.nextNumber cfg) →
      ∀ d : Conn, Q (.error (.service .integrity)) d) :
    Ends cfg (AccountService.getOrCreateInternal fxPoolOwner currency >>= f) c Q := by
  have hnone : (∀ x ∈ b.accounts, ¬ (x.ownerId = fxPoolOwner ∧ x.currency = currency)) →
      b.pool currency = none := fun h => List.find?_eq_none.2 fun x hx => by simpa using h x hx
  refine ends_getOrCreateInternal_next ho rfl (by rwa [hupper]) ?_ ?_ ?_ <;> rw [hupper]
  · exact fun pool hpool => hfound pool (List.mem_of_find?_eq_some hpool) hpool
  · intro habsent hfree pool d howner hnumber hd hseqs
    exact hopened (hnone habsent) hfree pool d howner.2 hnumber
      (fresh_of_nodup hd.view_keyed.accountIds) hd hseqs
  · exact fun habsent hnumber d _ => htaken (hnone habsent) hnumber d

namespace Store

/-- An exchange that has passed its checks, in a state that operations reach. -/
structure Exchanges (cfg : Config) (st : Store) (sender receiver : Account)
    (sent received : Money) : Prop extends st.Measured cfg where
  narrow : st.db.books.Narrow
  written : st.seqs.Written
  sender_mem : sender ∈ st.db.books.accounts
  receiver_mem : receiver ∈ st.db.books.accounts
  sent_currency : sent.currency = sender.currency
  received_currency : received.currency = receiver.currency
  ne : sender.currency ≠ receiver.currency
  pos : 0 < sent.amount

/-- What the rest of it needs. -/
def CanExchange (cfg : Config) (st : Store) (correlationId : Option String)
    (sender receiver : Account) (sent received : Decimal) : Prop :=
  sent < 10 ^ 20 ∧ received < 10 ^ 20 ∧ CorrelationFits correlationId ∧
    st.PoolsOpen cfg sender.currency receiver.currency ∧
    st.db.books.AbsorbsAll cfg (exchangeMoves st.db.books sender receiver sent received)

namespace Exchanges

variable {st : Store} {correlationId : Option String} {receiver : Account} {sent received : Money}

/-- The exchange is written over the pools, once both are there. -/
theorem record_answered (h : st.Exchanges cfg sender receiver sent received) {b₂ : Books}
    {poolFrom poolTo : Account} (ho : c.Open st.db.books b₂)
    (hentries : b₂.entries = st.db.books.entries)
    (hsnapshots : b₂.snapshots = st.db.books.snapshots)
    (haccounts : ∀ a ∈ st.db.books.accounts, a ∈ b₂.accounts)
    (hmem : poolFrom ∈ b₂.accounts) (hmem' : poolTo ∈ b₂.accounts)
    (hfrom : st.db.books.PoolFor sender.currency poolFrom)
    (hto : st.db.books.PoolFor receiver.currency poolTo)
    (hother : st.db.books.pool sender.currency = none → poolTo.id ≠ poolFrom.id)
    (hnext : c.store.seqs.nextId ≤ st.seqs.nextId + 3)
    (hopen : st.PoolsOpen cfg sender.currency receiver.currency) :
    Ends cfg (FxService.record cfg correlationId sender receiver poolFrom poolTo sent received) c
      fun o _ => Answered o ↔
        st.CanExchange cfg correlationId sender receiver sent.amount |received.amount| := by
  have hmoves : sent.amount < 10 ^ 20 → |received.amount| < 10 ^ 20 →
      (st.db.books.AbsorbsAll cfg [(sender.id, -sent.amount), (receiver.id, |received.amount|),
          (poolFrom.id, sent.amount), (poolTo.id, -|received.amount|)] ↔
        st.db.books.AbsorbsAll cfg
          (exchangeMoves st.db.books sender receiver sent.amount |received.amount|)) :=
    fun hwide hwide' => Books.absorbsAll_pools h.keyed h.cursors h.sender_mem h.receiver_mem hfrom
      hto hother sent.amount_mem_grid (by rwa [abs_of_pos h.pos])
      (Decimal.abs_mem_grid received.amount_mem_grid) (by rwa [abs_abs])
  have hfit : fitsIn 3 sent.currency = true := h.sent_currency ▸ h.narrow _ h.sender_mem
  have hfit' : fitsIn 3 received.currency = true :=
    h.received_currency ▸ h.narrow _ h.receiver_mem
  refine ends_imp (fxRecord_answered ho hentries hsnapshots h.cursors h.scaled
    (by simp [haccounts _ h.sender_mem, haccounts _ h.receiver_mem, hmem, hmem']) hfit hfit'
    (by rw [h.sent_currency, h.received_currency]; exact h.ne) h.pos (h.written _ hnext))
    fun o _ hrecord => hrecord.trans ?_
  constructor
  · rintro ⟨h₁, h₂, h₃, h₄⟩
    exact ⟨h₁, h₂, h₃, hopen, (hmoves h₁ h₂).1 h₄⟩
  · rintro ⟨h₁, h₂, h₃, -, h₄⟩
    exact ⟨h₁, h₂, h₃, (hmoves h₁ h₂).2 h₄⟩

/-- The pools are found or opened, and the exchange is written. -/
theorem pools_answered (h : st.Exchanges cfg sender receiver sent received)
    (ho : c.Open st.db.books st.db.books) (hseqs : c.store.seqs = st.seqs) :
    Ends cfg (do
        let poolFrom ← AccountService.getOrCreateInternal fxPoolOwner sender.currency
        let poolTo ← AccountService.getOrCreateInternal fxPoolOwner receiver.currency
        FxService.record cfg correlationId sender receiver poolFrom poolTo sent received) c
      fun o _ => Answered o ↔
        st.CanExchange cfg correlationId sender receiver sent.amount |received.amount| := by
  set b := st.db.books with hb
  have hnumber₀ : c.store.seqs.nextNumber cfg = st.seqs.number cfg 0 := by
    rw [hseqs]
    rfl
  -- a number that is taken
  have taken : ¬ st.PoolsOpen cfg sender.currency receiver.currency →
      (Answered (.error (.service .integrity) : Except Exn Transaction) ↔
        st.CanExchange cfg correlationId sender receiver sent.amount |received.amount|) :=
    fun hclosed => ⟨False.elim, fun hall => absurd hall.2.2.2.1 hclosed⟩
  refine ends_pool ho (h.linked.codes _ h.sender_mem) (h.narrow _ h.sender_mem) ?_ ?_ ?_
  · intro poolFrom hmem hfrom
    have hthere : b.pool sender.currency ≠ none := by simp [hfrom]
    refine ends_pool ho (h.linked.codes _ h.receiver_mem) (h.narrow _ h.receiver_mem) ?_ ?_ ?_
    · intro poolTo hmem' hto
      refine h.record_answered ho rfl rfl (fun _ hx => hx) hmem hmem' (.inl hfrom) (.inl hto)
        (fun hnone => absurd hnone hthere) (by rw [hseqs]; exact Nat.le_add_right _ _) ?_
      simp only [PoolsOpen, ← hb, hfrom, hto]
    · intro hto hfree poolTo d _ _ hfresh hd hseqs'
      refine h.record_answered hd rfl rfl (fun _ hx => List.mem_append_left _ hx)
        (List.mem_append_left _ hmem) (by simp) (.inl hfrom) (.inr ⟨hto, hfresh⟩)
        (fun hnone => absurd hnone hthere)
        (by rw [hseqs', hseqs]; exact Nat.add_le_add_left (by norm_num) _) ?_
      simp only [PoolsOpen, ← hb, hfrom, hto]
      exact fun x hx => hnumber₀ ▸ hfree x hx
    · rintro hto ⟨x, hx, htaken⟩ d
      refine taken fun hopen => ?_
      simp only [PoolsOpen, ← hb, hfrom, hto] at hopen
      exact hopen x hx (hnumber₀ ▸ htaken)
  · intro hfrom hfree poolFrom d hcurrency hnumber hfresh hd hseqs'
    -- the pool that has just been opened is not the one of the other currency
    have hother : { b with accounts := b.accounts ++ [poolFrom] }.pool receiver.currency =
        b.pool receiver.currency := Books.pool_append (by rw [hcurrency]; exact h.ne)
    have hnumber₁ : d.store.seqs.nextNumber cfg = st.seqs.number cfg 1 := by
      rw [hseqs', hseqs]
      rfl
    have hfree₀ : st.NumberFree cfg 0 := fun x hx => hnumber₀ ▸ hfree x hx
    refine ends_pool hd (h.linked.codes _ h.receiver_mem) (h.narrow _ h.receiver_mem) ?_ ?_ ?_
    · intro poolTo hmem' hto
      rw [hother] at hto
      have hmem : poolTo ∈ b.accounts := List.mem_of_find?_eq_some hto
      refine h.record_answered hd rfl rfl (fun _ hx => List.mem_append_left _ hx) (by simp) hmem'
        (.inr ⟨hfrom, hfresh⟩) (.inl hto) (fun _ => hfresh _ hmem)
        (by rw [hseqs', hseqs]; exact Nat.add_le_add_left (by norm_num) _) ?_
      simp only [PoolsOpen, ← hb, hfrom, hto]
      exact hfree₀
    · intro hto hfree' poolTo d' _ _ hfresh' hd' hseqs''
      rw [hother] at hto
      refine h.record_answered hd' rfl rfl
        (fun _ hx => List.mem_append_left _ (List.mem_append_left _ hx)) (by simp) (by simp)
        (.inr ⟨hfrom, hfresh⟩)
        (.inr ⟨hto, fun x hx => hfresh' x (List.mem_append_left _ hx)⟩)
        (fun _ => (hfresh' poolFrom (by simp)).symm)
        (by rw [hseqs'', hseqs', hseqs]; exact Nat.le_succ _) ?_
      simp only [PoolsOpen, ← hb, hfrom, hto]
      refine ⟨hfree₀, fun x hx => ?_, ?_⟩
      · exact hnumber₁ ▸ hfree' x (List.mem_append_left _ hx)
      · have hdrawn := hfree' poolFrom (by simp)
        rw [hnumber, hnumber₀, hnumber₁] at hdrawn
        exact hdrawn.symm
    · rintro hto ⟨x, hx, htaken⟩ d'
      rw [hother] at hto
      refine taken fun hopen => ?_
      simp only [PoolsOpen, ← hb, hfrom, hto] at hopen
      rcases List.mem_append.1 hx with hx | hx
      · exact hopen.2.1 x hx (hnumber₁ ▸ htaken)
      · obtain rfl := List.mem_singleton.1 hx
        exact hopen.2.2 (by rw [← hnumber₁, ← htaken, hnumber, hnumber₀])
  · rintro hfrom ⟨x, hx, htaken⟩ d
    refine taken fun hopen => ?_
    have hfree : st.NumberFree cfg 0 := by
      cases hto : b.pool receiver.currency <;>
        simp only [PoolsOpen, ← hb, hfrom, hto] at hopen
      · exact hopen.1
      · exact hopen
    exact hfree x hx (hnumber₀ ▸ htaken)

end Exchanges

end Store

theorem fx_answered {st : Store} {rates : RateTable} {senderId receiverId : Id} {amount : Decimal}
    {correlationId : Option String} (hm : st.Measured cfg)
    (hnarrow : st.db.books.Narrow) (hw : st.seqs.Written) :
    Ends cfg (FxService.executeFxTransfer cfg rates senderId receiverId amount correlationId)
      ⟨st, Session.fresh⟩ fun o _ => Answered o ↔
        (Operation.executeFxTransfer rates senderId receiverId amount correlationId).Admissible
          cfg st := by
  have ho : Conn.Open ⟨st, Session.fresh⟩ st.db.books st.db.books := Conn.open_fresh hm.keyed
  have hl := hm.linked
  rw [executeFxTransfer_eq]
  refine ends_parties ho fun sender hs receiver hr _ _ => ?_
  by_cases hcurrency : sender.currency = receiver.currency
  · exact ends_raisesIf hcurrency ⟨fun _ hne => absurd hcurrency hne, fun _ => trivial⟩
  refine ends_raiseIf hcurrency ?_
  refine ends_imp (ends_pays ho hl hm.graded hs fun sent hsent hpos => ?_)
    fun o _ (h : Answered o ↔ st.db.books.Pays sender amount fun sent =>
      Store.Converts rates sent sender.currency receiver.currency _) =>
      h.trans ⟨fun hp _ => hp, fun hp => hp hcurrency⟩
  have hbase : sent.currency = sender.currency :=
    (Money.currency_of_make hsent).trans (hl.codes _ hs)
  refine ends_convert hbase (hl.codes _ hs) (hl.codes _ hr) hcurrency fun received hreceived => ?_
  obtain ⟨rate, -, hmade⟩ := except_bind_ok.1 hreceived
  exact Store.Exchanges.pools_answered ⟨hm, hnarrow, hw, hs, hr, hbase,
    (Money.currency_of_make hmade).trans (hl.codes _ hr), hcurrency, hpos⟩ ho rfl

end exchanges

end WalletLedger
