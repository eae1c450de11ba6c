import WalletLedger.Concurrent.Services
import WalletLedger.Operations.Operation

/-!
# Paying at the same time

The operations that move money in one step, or reserve it: any number of them may run at
the same time and write only what they are permitted to, if the turns cut snapshots
exactly.

* `Shared.CanDebit` — what the funds check leaves: the lock is held, nothing is drafted,
  and the account has the money.
* `Operation.Pays` — the operations; `Operation.behaves` — each keeps the discipline.
* `Store.Regular` — what they need to find at the start; `paid_of_reaches` — the
  invariant holds in every world they reach.
-/

namespace WalletLedger

variable {ι : Type} {cfg : Config} {b₀ : Books} {tracked funded : Id → Prop}
  {C : ι → Request → Shared ι → Prop} {i : ι} {s t : Shared ι} {α : Type}

/-! ## The funds check -/

/-- The session holds the account's row and has drafted nothing, and the money is there. -/
structure Shared.CanDebit (funded : Id → Prop) (s : Shared ι) (i : ι) (a : Account) (m : Money) :
    Prop where
  account : a ∈ (s.conn i).view.books.accounts
  locked : s.locks.Holds i (.account a.id) .update
  undrafted : drafts (s.sessions i).writes = []
  funds : funded a.id → m.amount ≤ s.store.db.books.available a.id

theorem Shared.CanDebit.later {a : Account} {m : Money} (h : s.CanDebit funded i a m)
    (hl : Later funded i [] s t) : t.CanDebit funded i a m where
  account := hl.accounts a h.account
  locked := hl.holds h.locked
  undrafted := by rw [hl.drafted, h.undrafted]; rfl
  funds hf := (h.funds hf).trans (hl.available_le hf h.locked)

/-- A debit of the amount is covered. -/
theorem Shared.CanDebit.covered {a : Account} {m : Money} (h : s.CanDebit funded i a m)
    (hpos : 0 < m.amount) (hf : funded a.id) (_ : -|m.amount| < 0) :
    drafts (s.sessions i).writes = [] ∧ s.locks.Holds i (.account a.id) .update ∧
      -(-|m.amount|) ≤ s.store.db.books.available a.id := by
  rw [neg_neg, abs_of_pos hpos]
  exact ⟨h.undrafted, h.locked, h.funds hf⟩

/-- Amounts of the account's own money fit it. -/
theorem Shared.fitsOn {a : Account} {m : Money} (ha : a ∈ (s.conn i).view.books.accounts)
    (hm : decimalsFor m.currency = decimalsFor a.currency) :
    s.FitsOn i a.id (-|m.amount|) ∧ s.FitsOn i a.id |m.amount| := by
  have hgrid : |m.amount| ∈ Decimal.grid (decimalsFor a.currency) :=
    hm ▸ Decimal.abs_mem_grid m.onGrid
  exact ⟨⟨a, ha, rfl, (Decimal.grid _).neg_mem hgrid⟩, ⟨a, ha, rfl, hgrid⟩⟩

theorem decimals_of_make {x : Decimal} {c : String} {m : Money} (h : Money.make x c = .ok m) :
    decimalsFor m.currency = decimalsFor c := by
  rw [Money.currency_of_make h, decimalsFor_toUpper]

variable [DecidableEq ι]

theorem behaves_validate {sender receiver : Account} {amount : Decimal} {f : Money → App α}
    (h : ∀ m, sender.currency = receiver.currency → Money.make amount sender.currency = .ok m →
      0 < m.amount → Behaves cfg b₀ tracked funded C i (f m) s) :
    Behaves cfg b₀ tracked funded C i
      (TransferService.validate sender receiver amount >>= f) s := by
  simp only [TransferService.validate, bind_assoc]
  refine behaves_raiseIf fun hcur => behaves_ofExcept fun m hm => behaves_raiseIf fun hpos => ?_
  exact h m (not_not.1 hcur) hm (by simpa [Money.isPositive] using hpos)

theorem behaves_ensureFunds (hsub : ∀ a, funded a → tracked a) {sender : Account} {money : Money}
    {f : Unit → App α} (hmem : sender ∈ (s.conn i).view.books.accounts)
    (hlock : s.locks.Holds i (.account sender.id) .update)
    (hdrafts : drafts (s.sessions i).writes = [])
    (h : ∀ t, Later funded i [] s t → Consistent b₀ tracked funded t →
      t.CanDebit funded i sender money → Behaves cfg b₀ tracked funded C i (f ()) t) :
    Behaves cfg b₀ tracked funded C i (TransferService.ensureFunds sender money >>= f) s := by
  rw [TransferService.ensureFunds, bind_assoc]
  refine behaves_availableBalance hsub hdrafts hmem hlock fun t m hl hinv hle => ?_
  refine behaves_ofExcept fun _ hcheck => h t hl hinv ?_
  exact ⟨hl.accounts _ hmem, hl.holds hlock, by rw [hl.drafted, hdrafts]; rfl, fun hf =>
    (AccountAggregate.le_of_ensureCanDebit hcheck).trans (hle hf)⟩

/-! ## The operations -/

section operations

variable (hC : CutsExactly cfg C) (hsub : ∀ a, funded a → tracked a)
  (hcustomers : ∀ a, funded a → ∃ x ∈ b₀.accounts, x.id = a ∧ ¬ x.IsInternal)
  (halive : (s.sessions i).failed = false) (hdrafts : drafts (s.sessions i).writes = [])

include hsub hdrafts halive in
/-- The beginning of a transfer: its checks, up to the transaction. -/
theorem behaves_checked {senderId receiverId : Id} {amount : Decimal}
    {correlationId : Option String} {type : TransactionType} {status : TransactionStatus}
    {f : Account → Account → Money → Transaction → App α}
    (h : ∀ t sender receiver money txn, Later funded i [] s t → Consistent b₀ tracked funded t →
      receiver ∈ (t.conn i).view.books.accounts → sender.currency = receiver.currency →
      decimalsFor money.currency = decimalsFor sender.currency → 0 < money.amount →
      t.CanDebit funded i sender money →
      Behaves cfg b₀ tracked funded C i (f sender receiver money txn) t) :
    Behaves cfg b₀ tracked funded C i (do
      let sender ← AccountService.lock senderId
      let receiver ← AccountService.get receiverId
      let money ← TransferService.validate sender receiver amount
      TransferService.ensureFunds sender money
      let correlationId ← correlationIdOr correlationId
      let txn ← TransferService.newTransaction type status money sender receiver correlationId
      f sender receiver money txn) s := by
  refine behaves_lock fun t₁ sender hl₁ _ hsender hid hlock => ?_
  refine behaves_get fun t₂ receiver hl₂ _ hreceiver _ => ?_
  refine behaves_validate fun money hcur hmoney hpos => ?_
  have hl₁₂ := hl₁.trans hl₂
  refine behaves_ensureFunds hsub (hl₂.accounts _ hsender) (hl₂.holds (hid ▸ hlock))
    (by rw [hl₁₂.drafted, hdrafts]; rfl) fun t₃ hl₃ _ hdebit => ?_
  have hl₁₃ := hl₁₂.trans hl₃
  refine behaves_correlationIdOr (hl₁₃.alive halive) fun t₄ c hl₄ _ => ?_
  refine behaves_insertTransaction (fun _ => ⟨_, rfl⟩) fun t₅ txn hl₅ hinv₅ => ?_
  have hl₃₅ := hl₄.trans hl₅
  exact h t₅ sender receiver money txn (hl₁₃.trans hl₃₅) hinv₅
    ((hl₃.trans hl₃₅).accounts _ hreceiver) hcur (decimals_of_make hmoney) hpos (hdebit.later hl₃₅)

include hC hsub hdrafts halive in
theorem execute_behaves {senderId receiverId : Id} {amount : Decimal}
    {correlationId : Option String} :
    Behaves cfg b₀ tracked funded C i
      (TransferService.execute cfg senderId receiverId amount correlationId) s := by
  refine behaves_checked hsub halive hdrafts
    fun t sender receiver money txn _ _ hreceiver hcur hdec hpos hdebit => ?_
  refine behaves_post (debitLine sender.id money) [creditLine receiver.id money]
    rfl (Shared.fitsOn hdebit.account hdec).1 (hdebit.covered hpos) ?_ fun _ _ _ _ => ?_
  · intro line hline
    rw [List.mem_singleton.1 hline]
    exact ⟨(Shared.fitsOn hreceiver (hcur ▸ hdec)).2, fun _ => abs_nonneg _⟩
  · refine behaves_maybeSnapshot hC fun _ _ _ => behaves_maybeSnapshot hC fun _ _ _ => ?_
    exact behaves_commit (harmless_transferPublish _ _ _ _ _)

include hsub hdrafts halive in
theorem initiate_behaves {senderId receiverId : Id} {amount : Decimal}
    {correlationId : Option String} :
    Behaves cfg b₀ tracked funded C i
      (TransferService.initiate cfg senderId receiverId amount correlationId) s := by
  refine behaves_checked hsub halive hdrafts
    fun t sender receiver money txn _ _ _ _ hdec hpos hdebit => ?_
  refine behaves_insertEntry (Shared.fitsOn hdebit.account hdec).1 (hdebit.covered hpos)
    fun _ _ _ _ => ?_
  exact behaves_commit (harmless_transferPublish _ _ _ _ _)

omit [DecidableEq ι] in
include hcustomers in
/-- Nobody watches over the money of an internal account. -/
theorem Consistent.not_funded (h : Consistent b₀ tracked funded s) {a : Account}
    (ha : a ∈ (s.conn i).view.books.accounts) (hi : a.IsInternal) : ¬ funded a.id := by
  intro hf
  obtain ⟨x, hx, hid, hc⟩ := hcustomers _ hf
  obtain rfl : x = a := h.ids x a (.inl (h.base x hx)) (known s ha) hid
  exact hc hi

theorem decimals_of_convert {rates : RateTable} {money m : Money} {c : String}
    (h : FxService.convert rates money c = .ok m) : decimalsFor m.currency = decimalsFor c := by
  unfold FxService.convert at h
  cases hr : getRate rates money.currency c with
  | error e => rw [hr] at h; cases h
  | ok rate =>
    rw [hr] at h
    exact decimals_of_make h

theorem behaves_maybeSnapshots (hC : CutsExactly cfg C) {accounts : List Account}
    {f : Unit → App α}
    (h : ∀ t, Later funded i [] s t → Consistent b₀ tracked funded t →
      Behaves cfg b₀ tracked funded C i (f ()) t) :
    Behaves cfg b₀ tracked funded C i
      (Program.forEach accounts (LedgerService.maybeSnapshot cfg) >>= f) s := by
  induction accounts generalizing s with
  | nil => exact wp_intro h
  | cons a accounts ih =>
    rw [Program.forEach, bind_assoc]
    exact behaves_maybeSnapshot hC fun t hl _ => ih fun u hu => h u (hl.trans hu)

include hC hsub hcustomers halive hdrafts in
theorem executeFxTransfer_behaves {rates : RateTable} {senderId receiverId : Id}
    {amount : Decimal} {correlationId : Option String} :
    Behaves cfg b₀ tracked funded C i
      (FxService.executeFxTransfer cfg rates senderId receiverId amount correlationId) s := by
  refine behaves_lock fun t₁ sender hl₁ _ hsender hid hlock => ?_
  refine behaves_get fun t₂ receiver hl₂ _ hreceiver _ => behaves_raiseIf fun _ => ?_
  refine behaves_ofExcept fun sent hsent => behaves_raiseIf fun hpos => ?_
  have hpos : 0 < sent.amount := by simpa [Money.isPositive] using hpos
  have hl₁₂ := hl₁.trans hl₂
  refine behaves_availableBalance hsub (by rw [hl₁₂.drafted, hdrafts]; rfl)
    (hl₂.accounts _ hsender) (hl₂.holds (hid ▸ hlock)) fun t₃ available hl₃ _ hle => ?_
  have hl₁₃ := hl₁₂.trans hl₃
  refine behaves_ofExcept fun _ hcheck => behaves_ofExcept fun received hreceived => ?_
  have hdebit : t₃.CanDebit funded i sender sent :=
    ⟨(hl₂.trans hl₃).accounts _ hsender, (hl₂.trans hl₃).holds (hid ▸ hlock),
      by rw [hl₁₃.drafted, hdrafts]; rfl,
      fun hf => (AccountAggregate.le_of_ensureCanDebit hcheck).trans (hle hf)⟩
  refine behaves_getOrCreateInternal (.inr rfl) fun t₄ poolFrom hl₄ _ hfrom hfi hfc => ?_
  refine behaves_getOrCreateInternal (.inr rfl) fun t₅ poolTo hl₅ _ hto hti htc => ?_
  have hl₃₅ := hl₄.trans hl₅
  refine behaves_correlationIdOr ((hl₁₃.trans hl₃₅).alive halive) fun t₆ c hl₆ _ => ?_
  refine behaves_insertTransaction (fun _ => ⟨_, rfl⟩) fun t₇ txn hl₇ hinv₇ => ?_
  have hl₅₇ := hl₆.trans hl₇
  have hl₃₇ := hl₃₅.trans hl₅₇
  have hfrom₇ := (hl₅.trans hl₅₇).accounts _ hfrom
  have hto₇ := hl₅₇.accounts _ hto
  have hsender₇ := hdebit.later hl₃₇
  refine behaves_post (debitLine sender.id sent)
    [creditLine poolFrom.id sent, debitLine poolTo.id received, creditLine receiver.id received]
    rfl (Shared.fitsOn hsender₇.account (decimals_of_make hsent)).1 (hsender₇.covered hpos) ?_
    fun _ _ _ _ => ?_
  · intro line hline
    simp only [List.mem_cons, List.not_mem_nil, or_false] at hline
    rcases hline with rfl | rfl | rfl
    · refine ⟨(Shared.fitsOn hfrom₇ ?_).2, fun _ => abs_nonneg _⟩
      rw [hfc, decimalsFor_toUpper, decimals_of_make hsent]
    · refine ⟨(Shared.fitsOn hto₇ ?_).1, fun hf =>
        absurd hf (hinv₇.not_funded hcustomers hto₇ hti)⟩
      rw [htc, decimalsFor_toUpper, decimals_of_convert hreceived]
    · have hreceiver₇ := (hl₃.trans hl₃₇).accounts _ hreceiver
      exact ⟨(Shared.fitsOn hreceiver₇ (decimals_of_convert hreceived)).2, fun _ => abs_nonneg _⟩
  · refine behaves_maybeSnapshots hC fun _ _ _ => behaves_commit ?_
    exact (harmless_reloadTransaction _).bind fun _ => (harmless_reloadAccount _).bind fun _ =>
      (harmless_reloadAccount _).bind fun _ => (harmless_publish _).bind fun _ => Program.all_ret _

omit [DecidableEq ι] in
/-- A pending deposit the session sees is for an account of its currency. -/
theorem Consistent.deposit_account (h : Consistent b₀ tracked funded s) {x : Transaction}
    (hx : x ∈ (s.conn i).view.books.transactions) (hp : x.status = .pending) {id : Id}
    (hid : x.details.accountId = .ok id) {t : Shared ι} (ht : Consistent b₀ tracked funded t)
    {a : Account} (ha : a ∈ (t.conn i).view.books.accounts) (haid : a.id = id) :
    a.currency = x.currency := by
  have hon : (s.conn i).view.books.DepositsOn b₀.accounts := by
    unfold Conn.view
    rw [replay_books]
    exact h.deposits.replay (h.pending i)
  obtain ⟨y, hy, hyid, hycur⟩ := hon x hx hp id hid
  obtain rfl : y = a := ht.ids y a (.inl (ht.base y hy)) (known t ha) (hyid.trans haid.symm)
  exact hycur

include hC hcustomers in
theorem settle_behaves {reference : String} {confirmedAmount : Option Decimal}
    {confirmedCurrency : Option String} :
    Behaves cfg b₀ tracked funded C i
      (DepositService.settle cfg reference confirmedAmount confirmedCurrency) s := by
  refine behaves_select fun t₁ _ hinv₁ _ => behaves_ofOption fun txn htxn => ?_
  refine behaves_raiseIf fun hpending => behaves_ofExcept fun authorized hauth => ?_
  refine behaves_ofExcept fun _ _ => behaves_ofExcept fun accountId hacc => ?_
  refine behaves_lock fun t₂ account hl₂ hinv₂ haccount hid _ => ?_
  have hcur : account.currency = txn.currency :=
    hinv₁.deposit_account (List.mem_of_find?_eq_some htxn) (not_not.1 hpending) hacc hinv₂
      haccount hid
  have hdec : decimalsFor authorized.currency = decimalsFor account.currency :=
    hcur ▸ decimals_of_make hauth
  refine behaves_getOrCreateInternal (.inl rfl) fun t₃ clearing hl₃ hinv₃ hclearing hci hcc => ?_
  refine behaves_post (debitLine clearing.id authorized)
    [creditLine account.id authorized] rfl (Shared.fitsOn hclearing ?_).1
    (fun hf => absurd hf (hinv₃.not_funded hcustomers hclearing hci)) ?_ fun _ _ _ _ => ?_
  · rw [hcc, decimalsFor_toUpper, hdec]
  · intro line hline
    rw [List.mem_singleton.1 hline]
    exact ⟨(Shared.fitsOn (hl₃.accounts _ haccount) hdec).2, fun _ => abs_nonneg _⟩
  · refine behaves_updateTransactionStatus (by simp) fun _ _ _ => ?_
    refine behaves_maybeSnapshot hC fun _ _ _ => behaves_maybeSnapshot hC fun _ _ _ => ?_
    refine behaves_commit ?_
    exact (harmless_reloadTransaction _).bind fun _ => (harmless_reloadAccount _).bind fun _ =>
      (harmless_publish _).bind fun _ => Program.all_ret _

end operations

/-- The operations that move money at once, or reserve it. -/
def Operation.Pays : Operation → Prop
  | .settle _ _ _ => True
  | .execute _ _ _ _ => True
  | .initiate _ _ _ _ => True
  | .executeFxTransfer _ _ _ _ _ => True
  | _ => False

/-- A payment keeps the discipline, from a session that has written nothing. -/
theorem Operation.behaves (hC : CutsExactly cfg C) (hsub : ∀ a, funded a → tracked a)
    (hcustomers : ∀ a, funded a → ∃ x ∈ b₀.accounts, x.id = a ∧ ¬ x.IsInternal)
    (hs : s.sessions i = Session.fresh) {op : Operation} (hop : op.Pays) :
    Behaves cfg b₀ tracked funded C i (op.program cfg) s := by
  have halive : (s.sessions i).failed = false := by rw [hs]; rfl
  have hdrafts : drafts (s.sessions i).writes = [] := by rw [hs]; rfl
  cases op with
  | settle reference confirmedAmount confirmedCurrency =>
    exact behaves_map (settle_behaves hC hcustomers)
  | execute senderId receiverId amount correlationId =>
    exact behaves_map (execute_behaves hC hsub halive hdrafts)
  | initiate senderId receiverId amount correlationId =>
    exact behaves_map (initiate_behaves hsub halive hdrafts)
  | executeFxTransfer rates senderId receiverId amount correlationId =>
    exact behaves_map (executeFxTransfer_behaves hC hsub hcustomers halive hdrafts)
  | createAccount ownerId currency => exact hop.elim
  | initiateDeposit accountId amount provider context correlationId => exact hop.elim
  | commit transactionId => exact hop.elim
  | fail transactionId => exact hop.elim
  | reverse transactionId correlationId => exact hop.elim

/-! ## The start -/

/-- The latest snapshot of the account holds the settled total up to its cursor, so a
balance read through it is the settled total. -/
def Books.ReadsExactly (b : Books) (a : Id) : Prop :=
  Frozen a (LedgerService.snapshotCursor (b.latestSnapshot a))
    (LedgerService.snapshotBase (b.latestSnapshot a)) b.entries

instance (b : Books) (a : Id) : Decidable (b.ReadsExactly a) :=
  inferInstanceAs (Decidable (_ = _))

/-- What the payments need to find: accounts with keys of their own, entries at the
precision of their accounts, and everything below the generators. -/
structure Store.Regular (s : Store) : Prop where
  ids : (s.db.books.accounts.map Account.id).Nodup
  ids_lt : ∀ a ∈ s.db.books.accounts, a.id < s.seqs.nextId
  codes : ∀ a ∈ s.db.books.accounts, a.currency.toUpper = a.currency
  seq_pos : 0 < s.seqs.nextSeq
  numbered : ∀ e ∈ s.db.books.entries, 0 < e.seq ∧ e.seq < s.seqs.nextSeq
  entries : ∀ e ∈ s.db.books.entries, e.Fits s.db.books.accounts
  deposits : s.db.books.DepositsOn s.db.books.accounts
  snapshots : ∀ x ∈ s.db.books.snapshots,
    (∃ a ∈ s.db.books.accounts, a.id = x.accountId) ∧ x.lastEntrySeq < s.seqs.nextSeq

/-- Every store that operations have reached one after the other is regular. -/
theorem Store.Sound.regular {s : Store} (h : s.Sound) : s.Regular where
  ids := h.keyed.accountIds
  ids_lt := h.keyed.accountIds_lt
  codes := h.linked.codes
  seq_pos := h.keyed.seq_pos
  numbered := h.keyed.seqs_lt
  entries e he := by
    obtain ⟨a, ha, hid, hcur⟩ := (h.linked.entries e he).account
    exact ⟨a, ha, hid, hcur ▸ (h.linked.entries e he).amount⟩
  deposits t ht hp id hid := h.linked.parties t ht hp id (.inl hid)
  snapshots x hx := by
    obtain ⟨e, he, ha, hseq⟩ := h.cursors x hx
    exact ⟨ha ▸ h.keyed.entryAccount e he, hseq ▸ (h.keyed.seqs_lt e he).2⟩

omit [DecidableEq ι] in
/-- The invariant holds before the first request. -/
theorem Store.Regular.consistent {s₀ : Store} (h : s₀.Regular)
    (htracked : ∀ a, tracked a → s₀.db.books.ReadsExactly a)
    (hfunded : ∀ a, funded a → 0 ≤ s₀.db.books.available a) :
    Consistent s₀.db.books tracked funded (Shared.start s₀ : Shared ι) := by
  have hknown : ∀ a, (Shared.start s₀ : Shared ι).Known a → a ∈ s₀.db.books.accounts := by
    rintro a (ha | ⟨i, ha⟩)
    · exact ha
    · cases ha
  refine
    { exclusive := LockTable.exclusive_nil
      refused := fun i hf => by cases hf
      ids_lt := fun a ha => h.ids_lt a (hknown a ha)
      ids := fun a a' ha ha' => eq_of_key_eq h.ids (hknown a ha) (hknown a' ha')
      codes := fun a ha => h.codes a (hknown a ha)
      customers := fun a ha _ => hknown a ha
      base := fun a ha => ha
      seq_pos := h.seq_pos
      numbered := ?_
      entries := h.entries
      pending := fun i w hw => by cases hw
      deposits := h.deposits
      latest := fun a ha => ?_
      cuts := fun i x hx => by cases hx
      funds := fun a ha => ?_ }
  · rintro e (he | ⟨i, he⟩)
    · exact h.numbered e he
    · cases he
  · refine DraftLog.settled_of_exact (htracked a ha) (fun _ => rfl) ?_
    show LedgerService.snapshotCursor (s₀.db.books.latestSnapshot a) < s₀.seqs.nextSeq
    cases hl : s₀.db.books.latestSnapshot a with
    | none => exact h.seq_pos
    | some x => exact (h.snapshots x (latestSnapshot_mem hl).1).2
  · have hpos : 0 ≤ tally (LedgerEntry.Weighs a) LedgerEntry.amount s₀.db.books.entries := by
      rw [← weight, ← Books.available_eq_weight]
      exact hfunded a ha
    refine ⟨hpos, fun i => ?_, fun i x hx => by cases hx⟩
    show 0 ≤ _ + tally _ _ []
    rw [tally_nil, add_zero]
    exact hpos

/-! ## Any number of payments -/

/-- The world in which any number of calls start to pay. -/
def paying (cfg : Config) (s₀ : Store) (calls : ι → Operation) :
    World ι Request Request.Answer Exn Unit (Shared ι) :=
  World.start (Shared.start s₀) fun i => (calls i).program cfg

/-- In every interleaving whose snapshots are cut exactly, the invariant holds. -/
theorem consistent_of_reaches (hC : CutsExactly cfg C) (hsub : ∀ a, funded a → tracked a)
    {s₀ : Store} (hs : s₀.Regular)
    (hcustomers : ∀ a, funded a → ∃ x ∈ s₀.db.books.accounts, x.id = a ∧ ¬ x.IsInternal)
    (htracked : ∀ a, tracked a → s₀.db.books.ReadsExactly a)
    (hfunded : ∀ a, funded a → 0 ≤ s₀.db.books.available a) {calls : ι → Operation}
    (hcalls : ∀ i, (calls i).Pays) {w : World ι Request Request.Answer Exn Unit (Shared ι)}
    (h : Reaches (machine ι cfg) C (paying cfg s₀ calls) w) :
    Consistent s₀.db.books tracked funded w.shared := by
  let Q : ι → Except Exn Unit → Shared ι → Prop := fun _ _ _ => True
  have hstart : ∀ i, TaskOk (machine ι cfg) (together ι s₀.db.books tracked funded) C Q Q i
      (Shared.start s₀) (.running ((calls i).program cfg)) := fun i =>
    Operation.behaves hC hsub hcustomers rfl (hcalls i)
  have hfinish : ∀ i o s, (together ι s₀.db.books tracked funded).inv s → Q i o s →
      (together ι s₀.db.books tracked funded).Keeps i s (s.finish i) ∧ Q i o (s.finish i) :=
    fun i _ s hs _ => ⟨⟨hs.finish, fun j hj => Consistent.later_finish hj⟩, trivial⟩
  exact (h.sound hfinish (fun _ _ _ _ _ _ _ => trivial) (hs.consistent htracked hfunded) hstart).1

end WalletLedger
