import WalletLedger.Sequential.Runs

/-!
# The invariants of the books

What holds of the books after every operation, beyond what the database enforces.

* `Books.Linked` — every entry is in the currency of its account, at its precision and
  with the sign of its type; every pending transaction names accounts of its currency.
* `Books.Balanced` — the settled entries of a transaction sum to zero, currency by
  currency.
* `Books.CursorsDrawn` — the cursor of a snapshot is the number of an entry.
* `Effect.linked`, `Effect.balanced`, `Effect.cursorsDrawn` — every effect keeps them,
  and so does every operation: `Store.Sound.run`, `sound_of_run`.
-/

namespace WalletLedger

variable {cfg : Config} {b b₁ b' : Books} {s s' : Sequences}

/-! ## Parts of the books an effect leaves alone -/

theorem Cut.rest {a : Id} (h : Cut cfg a b b') :
    b'.accounts = b.accounts ∧ b'.transactions = b.transactions ∧ b'.entries = b.entries := by
  cases h <;> exact ⟨rfl, rfl, rfl⟩

theorem Cuts.rest {as : List Id} (h : Cuts cfg as b b') :
    b'.accounts = b.accounts ∧ b'.transactions = b.transactions ∧ b'.entries = b.entries := by
  induction h with
  | nil b => exact ⟨rfl, rfl, rfl⟩
  | cons h _ ih =>
    obtain ⟨ha, ht, he⟩ := h.rest
    exact ⟨ih.1.trans ha, ih.2.1.trans ht, ih.2.2.trans he⟩

theorem Opened.rest {ownerId currency : String} {a : Account} (h : Opened ownerId currency b a b₁) :
    b₁.transactions = b.transactions ∧ b₁.entries = b.entries ∧ b₁.snapshots = b.snapshots := by
  cases h <;> exact ⟨rfl, rfl, rfl⟩

theorem Opened.mem {ownerId currency : String} {a : Account} (h : Opened ownerId currency b a b₁) :
    a ∈ b₁.accounts := by
  cases h with
  | found ha => exact ha
  | created _ => exact List.mem_append_right _ (by simp)

theorem Opened.subset {ownerId currency : String} {a x : Account}
    (h : Opened ownerId currency b a b₁) (hx : x ∈ b.accounts) : x ∈ b₁.accounts := by
  cases h with
  | found _ => exact hx
  | created _ => exact List.mem_append_left _ hx

/-- The entries of a transaction. -/
def Books.entriesOf (b : Books) (id : Id) : List LedgerEntry :=
  b.entries.filter fun e => e.transactionId = id

/-! ## Links -/

/-- A line is in the currency of its account, at its precision and with the sign of its
type. -/
structure LineOk (b : Books) (line : PostingLine) : Prop where
  account : ∃ a ∈ b.accounts, a.id = line.accountId ∧ a.currency = line.currency
  amount : line.amount ∈ Decimal.grid (decimalsFor line.currency)
  debit : line.entryType = .debit → line.amount ≤ 0
  credit : line.entryType = .credit → 0 ≤ line.amount

theorem lineOk_debit {a : Account} {m : Money} (ha : a ∈ b.accounts) (h : a.currency = m.currency) :
    LineOk b (debitLine a.id m) :=
  { account := ⟨a, ha, rfl, h⟩
    amount := (Decimal.grid _).neg_mem (Decimal.abs_mem_grid m.onGrid)
    debit := fun _ => neg_nonpos.2 (abs_nonneg _)
    credit := fun h => by cases h }

theorem lineOk_credit {a : Account} {m : Money} (ha : a ∈ b.accounts)
    (h : a.currency = m.currency) : LineOk b (creditLine a.id m) :=
  { account := ⟨a, ha, rfl, h⟩
    amount := Decimal.abs_mem_grid m.onGrid
    debit := fun h => by cases h
    credit := fun _ => abs_nonneg _ }

theorem LineOk.mono {line : PostingLine} (h : LineOk b line)
    (hb : ∀ a ∈ b.accounts, a ∈ b'.accounts) : LineOk b' line :=
  { h with
    account := by
      obtain ⟨a, ha, hid, hcur⟩ := h.account
      exact ⟨a, hb a ha, hid, hcur⟩ }

/-- The accounts a pending transaction will be settled on. -/
def Details.Names (d : Details) (id : Id) : Prop := d.accountId = .ok id ∨ d.receiverId = .ok id

/-- Entries and pending transactions agree with their accounts. -/
structure Books.Linked (b : Books) : Prop where
  codes : ∀ a ∈ b.accounts, a.currency.toUpper = a.currency
  entries : ∀ e ∈ b.entries, LineOk b e.line
  transactions : ∀ t ∈ b.transactions,
    t.currency.toUpper = t.currency ∧ t.amount ∈ Decimal.grid (decimalsFor t.currency)
  parties : ∀ t ∈ b.transactions, t.status = .pending → ∀ id, t.details.Names id →
    ∃ a ∈ b.accounts, a.id = id ∧ a.currency = t.currency

namespace Books.Linked

theorem congr (h : b.Linked) (ha : b'.accounts = b.accounts)
    (ht : b'.transactions = b.transactions) (he : b'.entries = b.entries) : b'.Linked := by
  have hmem : ∀ a ∈ b.accounts, a ∈ b'.accounts := fun a hx => ha.symm ▸ hx
  refine ⟨ha.symm ▸ h.codes, ?_, ht.symm ▸ h.transactions, ?_⟩
  · intro e hx
    rw [he] at hx
    exact (h.entries e hx).mono hmem
  · intro t hx hp id hn
    rw [ht] at hx
    rw [ha]
    exact h.parties t hx hp id hn

theorem addAccount (h : b.Linked) {a : Account} (ha : a.currency.toUpper = a.currency) :
    Linked { b with accounts := b.accounts ++ [a] } := by
  refine ⟨?_, ?_, h.transactions, ?_⟩
  · intro x hx
    rcases List.mem_append.1 hx with hx | hx
    · exact h.codes x hx
    · rwa [List.mem_singleton.1 hx]
  · exact fun e he => (h.entries e he).mono fun a ha => List.mem_append_left _ ha
  · intro t ht hp id hn
    obtain ⟨x, hx, hid, hcur⟩ := h.parties t ht hp id hn
    exact ⟨x, List.mem_append_left _ hx, hid, hcur⟩

theorem opened (h : b.Linked) {ownerId currency : String} {a : Account}
    (ho : Opened ownerId currency b a b₁) (ha : a.currency.toUpper = a.currency) : b₁.Linked := by
  cases ho with
  | found _ => exact h
  | created _ => exact h.addAccount ha

theorem addTransaction (h : b.Linked) {t : Transaction}
    (ht : t.currency.toUpper = t.currency ∧ t.amount ∈ Decimal.grid (decimalsFor t.currency))
    (hparties : t.status = .pending → ∀ id, t.details.Names id →
      ∃ a ∈ b.accounts, a.id = id ∧ a.currency = t.currency) : (b.addTransaction t).Linked := by
  refine ⟨h.codes, fun e he => (h.entries e he).mono fun a ha => ha, ?_, ?_⟩
  · intro x hx
    rcases List.mem_append.1 hx with hx | hx
    · exact h.transactions x hx
    · rwa [List.mem_singleton.1 hx]
  · intro x hx
    rcases List.mem_append.1 hx with hx | hx
    · exact h.parties x hx
    · rwa [List.mem_singleton.1 hx]

/-- The row of an amount of money. -/
theorem addRecorded (h : b.Linked) {t : Transaction} {type : TransactionType}
    {status : TransactionStatus} {m : Money} {details : Details}
    (hr : t.Records type status m.amount m.currency details)
    (hparties : status = .pending → ∀ id, details.Names id →
      ∃ a ∈ b.accounts, a.id = id ∧ a.currency = m.currency) : (b.addTransaction t).Linked := by
  refine h.addTransaction ?_ fun hp id hn => ?_
  · rw [hr.currency, hr.amount]
    exact ⟨m.isUpper, m.onGrid⟩
  · rw [hr.status] at hp
    rw [hr.details] at hn
    rw [hr.currency]
    exact hparties hp id hn

theorem addEntries (h : b.Linked) {es : List LedgerEntry} (hes : ∀ e ∈ es, LineOk b e.line) :
    (b.addEntries es).Linked := by
  refine ⟨h.codes, ?_, h.transactions, h.parties⟩
  intro e he
  rcases List.mem_append.1 he with he | he
  · exact (h.entries e he).mono fun a ha => ha
  · exact (hes e he).mono fun a ha => ha

theorem posted (h : b.Linked) {id : Id} {lines : List PostingLine} {es : List LedgerEntry}
    (hp : Posted id lines es) (hl : ∀ line ∈ lines, LineOk b line) : (b.addEntries es).Linked :=
  h.addEntries fun _ he => hl _ (hp.lines ▸ List.mem_map_of_mem he)

/-- A change to a transaction that keeps its currency, amount and details, and does not
make it pending. -/
theorem modifyTransaction (h : b.Linked) {id : Id} {g : Transaction → Transaction}
    (hcur : ∀ t, (g t).currency = t.currency) (hamount : ∀ t, (g t).amount = t.amount)
    (hdetails : ∀ t, (g t).details = t.details)
    (hstatus : ∀ t, (g t).status = .pending → t.status = .pending) :
    Linked { b with transactions := modify Transaction.id id g b.transactions } := by
  refine ⟨h.codes, fun e he => (h.entries e he).mono fun a ha => ha, ?_, ?_⟩
  · intro x hx
    obtain ⟨t, ht, rfl⟩ := mem_modify.1 hx
    split
    · rw [hcur, hamount]
      exact h.transactions t ht
    · exact h.transactions t ht
  · intro x hx
    obtain ⟨t, ht, rfl⟩ := mem_modify.1 hx
    split
    · rw [hcur, hdetails]
      exact fun hp => h.parties t ht (hstatus t hp)
    · exact h.parties t ht

theorem setTransaction (h : b.Linked) (id : Id) {status : TransactionStatus}
    (hstatus : status ≠ .pending) : (b.setTransaction id status).Linked :=
  h.modifyTransaction (fun _ => rfl) (fun _ => rfl) (fun _ => rfl)
    fun _ hp => absurd hp hstatus

theorem setEntry (h : b.Linked) (id : Id) (status : EntryStatus) :
    (b.setEntry id status).Linked := by
  refine ⟨h.codes, ?_, h.transactions, h.parties⟩
  intro e he
  obtain ⟨f, hf, rfl⟩ := mem_modify.1 he
  have hline := h.entries f hf
  split
  · exact ⟨hline.account, hline.amount, hline.debit, hline.credit⟩
  · exact ⟨hline.account, hline.amount, hline.debit, hline.credit⟩

/-- The account of an identifier a pending transaction names is in its currency. -/
theorem currency_of_names (h : b.Linked) (hk : b.Keyed s) {t : Transaction} {a : Account}
    (ht : t ∈ b.transactions) (hp : t.status = .pending) (ha : a ∈ b.accounts)
    (hn : t.details.Names a.id) : a.currency = t.currency := by
  obtain ⟨x, hx, hid, hcur⟩ := h.parties t ht hp a.id hn
  obtain rfl : x = a := eq_of_key_eq hk.accountIds hx ha hid
  exact hcur

/-- Money at the precision of the currency is stored as it is. -/
theorem amount_of_make (h : b.Linked) {t : Transaction} (ht : t ∈ b.transactions) {m : Money}
    (hm : Money.make t.amount t.currency = .ok m) : m.amount = t.amount :=
  Money.amount_of_make (h.transactions t ht).2 hm

theorem currency_of_make (h : b.Linked) {t : Transaction} (ht : t ∈ b.transactions) {m : Money}
    (hm : Money.make t.amount t.currency = .ok m) : m.currency = t.currency :=
  (Money.currency_of_make hm).trans (h.transactions t ht).1

end Books.Linked

theorem DebitCheck.currency_eq {senderId receiverId : Id} {amount : Decimal} (h : b.Linked)
    (k : DebitCheck b senderId receiverId amount) : k.sender.currency = k.money.currency :=
  ((Money.currency_of_make k.money_eq).trans (h.codes _ k.sender_mem)).symm

/-- The mirror of an entry fits its account again. -/
theorem Books.Linked.mirror (h : b.Linked) {e : LedgerEntry} (he : e ∈ b.entries)
    {line : PostingLine} (hl : MirrorLine e line) : LineOk b line := by
  obtain ⟨m, hm, rfl⟩ := hl
  obtain ⟨a, ha, hid, hcur⟩ := (h.entries e he).account
  have hid : a.id = e.accountId := hid
  have hcode : a.currency = m.currency := by
    rw [Money.currency_of_make hm]
    have hcur : a.currency = e.currency := hcur
    rw [← hcur, h.codes a ha]
  rw [← hid]
  split
  · exact lineOk_credit ha hcode
  · exact lineOk_debit ha hcode

/-- The two lines of an amount that passes from one account to another. -/
theorem lineOk_transfer {x y : Account} {m : Money} (hx : x ∈ b.accounts) (hy : y ∈ b.accounts)
    (hxc : x.currency = m.currency) (hyc : y.currency = m.currency) :
    ∀ line ∈ [debitLine x.id m, creditLine y.id m], LineOk b line := by
  simp only [List.mem_cons, List.not_mem_nil, or_false]
  rintro line (rfl | rfl)
  · exact lineOk_debit hx hxc
  · exact lineOk_credit hy hyc

/-- A row found by a query is a row of its table. -/
theorem transaction_of_find {id : Id} {t : Transaction}
    (h : b.transactions.find? (fun t => t.id = id) = some t) : t ∈ b.transactions ∧ t.id = id :=
  ⟨List.mem_of_find?_eq_some h, by simpa using List.find?_some h⟩

/-- A mirrored line has the opposite amount. -/
theorem MirrorLine.amount_eq {e : LedgerEntry} {line : PostingLine} (h : MirrorLine e line)
    (he : LineOk b e.line) : line.accountId = e.accountId ∧ line.amount = -e.amount := by
  obtain ⟨m, hm, rfl⟩ := h
  have hamount : m.amount = |e.amount| :=
    Money.amount_of_make (Decimal.abs_mem_grid he.amount) hm
  cases htype : e.entryType with
  | debit =>
    have hneg : e.amount ≤ 0 := he.debit htype
    simp [creditLine, hamount, abs_of_nonpos hneg]
  | credit =>
    have hpos : 0 ≤ e.amount := he.credit htype
    simp [debitLine, hamount, abs_of_nonneg hpos]

/-- A mirrored line is in the currency of its entry. -/
theorem MirrorLine.currency_eq {e : LedgerEntry} {line : PostingLine} (h : MirrorLine e line)
    (hl : b.Linked) (he : LineOk b e.line) : line.currency = e.currency := by
  obtain ⟨m, hm, rfl⟩ := h
  obtain ⟨a, ha, -, hcur⟩ := he.account
  have hcode : e.currency.toUpper = e.currency := by
    have hcur : a.currency = e.currency := hcur
    rw [← hcur, hl.codes a ha]
  have hmoney : m.currency = e.currency := by rw [Money.currency_of_make hm, hcode]
  split <;> exact hmoney

/-- The mirror takes back what the originals gave, on whatever accounts and in whatever
currencies. -/
theorem tally_mirrored (p : Id → String → Prop) [∀ a c, Decidable (p a c)]
    {es : List LedgerEntry} {lines : List PostingLine} (h : List.Forall₂ MirrorLine es lines)
    (hl : b.Linked) (hes : ∀ e ∈ es, LineOk b e.line) :
    tally (fun line => p line.accountId line.currency) PostingLine.amount lines =
      -tally (fun e => p e.accountId e.currency) LedgerEntry.amount es := by
  induction h with
  | nil => simp
  | @cons e _ _ _ hm _ ih =>
    have hline := hes e (by simp)
    obtain ⟨hacc, hamount⟩ := hm.amount_eq hline
    rw [tally_cons, tally_cons, ih fun e he => hes e (by simp [he]), hacc,
      hm.currency_eq hl hline, hamount]
    split <;> ring

theorem Books.Linked.settle {reference : String} {confirmedAmount : Option Decimal}
    {confirmedCurrency : Option String} (h : b.Linked) (hk : b.Keyed s)
    (he : Effect cfg b (.settle reference confirmedAmount confirmedCurrency) b') : b'.Linked := by
  cases he with
  | settle t authorized account clearing b₁ _ es found pending authorized_eq reconciled account_id
      account_mem owner code opened posted cuts =>
    have ht := List.mem_of_find?_eq_some found
    have hauth : authorized.currency = t.currency := h.currency_of_make ht authorized_eq
    have hacc : account.currency = authorized.currency := by
      rw [hauth]
      exact h.currency_of_names hk ht pending account_mem (.inl account_id)
    have hclear : clearing.currency = authorized.currency := by
      rw [code, h.codes _ account_mem, hacc]
    have h₁ : b₁.Linked := h.opened opened (by rw [code, toUpper_toUpper])
    have hpost : (b₁.addEntries es).Linked :=
      h₁.posted posted (lineOk_transfer opened.mem (opened.subset account_mem) hclear hacc)
    obtain ⟨ha, htx, hes⟩ := cuts.rest
    exact (hpost.setTransaction t.id (by simp)).congr ha htx hes

theorem Books.Linked.initiate {senderId receiverId : Id} {amount : Decimal}
    {correlationId : Option String} (h : b.Linked)
    (he : Effect cfg b (.initiate senderId receiverId amount correlationId) b') : b'.Linked := by
  cases he with
  | initiate k t e records line transaction =>
    have hcur := k.currency_eq h
    have ht : (b.addTransaction t).Linked := by
      refine h.addRecorded records fun _ id hn => ?_
      rcases hn with hn | hn
      · cases hn
      · cases hn
        exact ⟨k.receiver, k.receiver_mem, rfl, k.currency ▸ hcur⟩
    refine ht.addEntries fun f hf => ?_
    rw [List.mem_singleton.1 hf, line]
    have hd : LineOk (b.addTransaction t) (debitLine k.sender.id k.money) :=
      lineOk_debit k.sender_mem hcur
    exact ⟨hd.account, hd.amount, hd.debit, hd.credit⟩

theorem Books.Linked.commit {transactionId : Id} (h : b.Linked) (hk : b.Keyed s)
    (he : Effect cfg b (.commit transactionId) b') : b'.Linked := by
  cases he with
  | commit t money debit credit sender receiver _ found pending money_eq approved reserved
      sender_mem sender_id receiver_id receiver_mem line transaction balanced cuts =>
    have ht := (transaction_of_find found).1
    have hmoney : money.currency = t.currency := h.currency_of_make ht money_eq
    have hrec : receiver.currency = money.currency := by
      rw [hmoney]
      exact h.currency_of_names hk ht pending receiver_mem (.inr receiver_id)
    have hpost : ((b.setEntry debit.id .success).addEntries [credit]).Linked := by
      refine (h.setEntry debit.id .success).addEntries fun f hf => ?_
      rw [List.mem_singleton.1 hf, line]
      exact lineOk_credit receiver_mem hrec
    obtain ⟨ha, htx, hes⟩ := cuts.rest
    exact (hpost.setTransaction t.id (by simp)).congr ha htx hes

/-- What an exchange pays is in the currency of its receiver. -/
theorem Books.Linked.currency_of_convert {rates : RateTable} {receiver : Account}
    {sent received : Money} (h : b.Linked) (hmem : receiver ∈ b.accounts)
    (hconvert : FxService.convert rates sent receiver.currency = .ok received) :
    receiver.currency = received.currency := by
  unfold FxService.convert at hconvert
  cases hr : getRate _ sent.currency receiver.currency with
  | error e =>
    rw [hr] at hconvert
    cases hconvert
  | ok rate =>
    rw [hr] at hconvert
    exact ((Money.currency_of_make hconvert).trans (h.codes _ hmem)).symm

theorem Books.Linked.executeFxTransfer {rates : RateTable} {senderId receiverId : Id}
    {amount : Decimal} {correlationId : Option String} (h : b.Linked)
    (he : Effect cfg b (.executeFxTransfer rates senderId receiverId amount correlationId) b') :
    b'.Linked := by
  cases he with
  | executeFxTransfer k received poolFrom poolTo b₁ b₂ _ t es exchange received_eq owner_from
      code_from opened_from owner_to code_to opened_to records posted cuts =>
    have hcur := k.currency_eq h
    have hrec := h.currency_of_convert k.receiver_mem received_eq
    have h₁ : b₁.Linked := h.opened opened_from (by rw [code_from, toUpper_toUpper])
    have h₂ : b₂.Linked := h₁.opened opened_to (by rw [code_to, toUpper_toUpper])
    have ht : (b₂.addTransaction t).Linked := h₂.addRecorded records fun hp => by cases hp
    have hfrom : poolFrom.currency = k.money.currency := by
      rw [code_from, h.codes _ k.sender_mem, hcur]
    have hto : poolTo.currency = received.currency := by
      rw [code_to, h.codes _ k.receiver_mem, hrec]
    have hpost : ((b₂.addTransaction t).addEntries es).Linked := by
      refine ht.posted posted fun line hl => ?_
      simp only [List.mem_cons, List.not_mem_nil, or_false] at hl
      rcases hl with rfl | rfl | rfl | rfl
      · exact lineOk_debit (opened_to.subset (opened_from.subset k.sender_mem)) hcur
      · exact lineOk_credit (opened_to.subset opened_from.mem) hfrom
      · exact lineOk_debit opened_to.mem hto
      · exact lineOk_credit (opened_to.subset (opened_from.subset k.receiver_mem)) hrec
    obtain ⟨ha, htx, hes⟩ := cuts.rest
    exact hpost.congr ha htx hes

theorem Books.Linked.reverse {transactionId : Id} {correlationId : Option String} (h : b.Linked)
    (he : Effect cfg b (.reverse transactionId correlationId) b') : b'.Linked := by
  cases he with
  | reverse t reversal lines es _ found success original records mirrored balanced posted cuts =>
    have ht := (transaction_of_find found).1
    have hrev : (b.addTransaction reversal).Linked := by
      refine h.addTransaction ?_ fun hp => ?_
      · rw [records.currency, records.amount]
        exact h.transactions t ht
      · rw [records.status] at hp
        cases hp
    have hlines : ∀ line ∈ lines, LineOk (b.addTransaction reversal) line := by
      intro line hl
      obtain ⟨e, he, hm⟩ := exists_of_mirrored mirrored hl
      exact (h.mirror (List.mem_of_mem_filter he) hm).mono fun a ha => ha
    obtain ⟨ha, htx, hes⟩ := cuts.rest
    exact ((hrev.posted posted hlines).setTransaction t.id (by simp)).congr ha htx hes

theorem Effect.linked {op : Operation} (hk : b.Keyed s) (h : b.Linked) (he : Effect cfg b op b') :
    b'.Linked := by
  cases op with
  | createAccount ownerId currency =>
    cases he with
    | createAccount a owner code new =>
      refine h.addAccount ?_
      rw [code, toUpper_toUpper]
  | initiateDeposit accountId amount provider context correlationId =>
    cases he with
    | initiateDeposit account money t reference account_mem account_id money_eq positive records =>
      have hcur : money.currency = account.currency :=
        (Money.currency_of_make money_eq).trans (h.codes _ account_mem)
      have ht : (b.addTransaction t).Linked := by
        refine h.addRecorded records fun _ id hn => ?_
        rcases hn with hn | hn
        · cases hn
          exact ⟨account, account_mem, rfl, hcur.symm⟩
        · cases hn
      exact ht.modifyTransaction (fun _ => rfl) (fun _ => rfl) (fun _ => rfl) fun _ hp => hp
  | settle reference confirmedAmount confirmedCurrency => exact h.settle hk he
  | execute senderId receiverId amount correlationId =>
    cases he with
    | execute k t es _ records posted cuts =>
      have hcur := k.currency_eq h
      have ht : (b.addTransaction t).Linked := h.addRecorded records fun hp => by cases hp
      have hpost : ((b.addTransaction t).addEntries es).Linked :=
        ht.posted posted (lineOk_transfer k.sender_mem k.receiver_mem hcur (k.currency ▸ hcur))
      obtain ⟨ha, htx, hes⟩ := cuts.rest
      exact hpost.congr ha htx hes
  | initiate senderId receiverId amount correlationId => exact h.initiate he
  | commit transactionId => exact h.commit hk he
  | fail transactionId =>
    cases he with
    | fail t found pending =>
      refine Books.Linked.setTransaction ?_ t.id (by simp)
      exact List.foldlRecOn _ _ h fun b hb e _ => hb.setEntry e.id .failed
  | executeFxTransfer rates senderId receiverId amount correlationId => exact h.executeFxTransfer he
  | reverse transactionId correlationId => exact h.reverse he

/-! ## Double entry -/

/-- The settled entries of a transaction in a currency sum to zero. -/
def Books.Balanced (b : Books) : Prop :=
  ∀ (id : Id) (c : String),
    tally (fun e => e.transactionId = id ∧ e.currency = c ∧ e.status = .success)
      LedgerEntry.amount b.entries = 0

theorem zeroSum_pair (a a' : Id) (m : Money) : ZeroSum [debitLine a m, creditLine a' m] := by
  intro c
  by_cases h : m.currency = c <;> simp [h]

theorem ZeroSum.append {l l' : List PostingLine} (h : ZeroSum l) (h' : ZeroSum l') :
    ZeroSum (l ++ l') := by
  intro c
  rw [tally_append, h c, h' c, add_zero]

/-- The statuses after the pending entries of a transaction have failed. -/
theorem Books.failed_entries (hk : b.Keyed s) (id : Id) :
    ((b.entries.filter (LedgerEntry.isOf id .pending)).foldl
      (fun b e => b.setEntry e.id .failed) b).entries =
      b.entries.map fun e => if e.isOf id .pending then { e with status := .failed } else e := by
  have main : ∀ (es : List LedgerEntry) (b : Books),
      (es.foldl (fun b e => b.setEntry e.id .failed) b).entries =
        b.entries.map fun e =>
          if e.id ∈ es.map LedgerEntry.id then { e with status := .failed } else e := by
    intro es
    induction es with
    | nil => simp
    | cons x es ih =>
      intro b
      rw [List.foldl_cons, ih]
      simp only [setEntry, Write.applyBooks, modify, List.map_map]
      refine List.map_congr_left fun e _ => ?_
      by_cases hx : e.id = x.id
      · simp [hx]
      · simp [hx]
  rw [main]
  refine List.map_congr_left fun e he => ?_
  have hiff : e.id ∈ (b.entries.filter (LedgerEntry.isOf id .pending)).map LedgerEntry.id ↔
      e.isOf id .pending = true := by
    constructor
    · intro h
      obtain ⟨f, hf, hid⟩ := List.mem_map.1 h
      rw [List.mem_filter] at hf
      obtain rfl : f = e := eq_of_key_eq hk.entryIds hf.1 he hid
      exact hf.2
    · exact fun h => List.mem_map_of_mem (List.mem_filter.2 ⟨he, h⟩)
  simp only [hiff]

/-- Setting the status of entries leaves the other tables alone. -/
theorem Books.setEntries_rest (es : List LedgerEntry) (status : EntryStatus) (b : Books) :
    (es.foldl (fun b e => b.setEntry e.id status) b).accounts = b.accounts ∧
      (es.foldl (fun b e => b.setEntry e.id status) b).transactions = b.transactions := by
  induction es generalizing b with
  | nil => exact ⟨rfl, rfl⟩
  | cons e es ih => exact ih _

/-- What a sum over the entries gains when the status of one of them is set. -/
theorem Books.tally_setEntry (hk : b.Keyed s) {e : LedgerEntry} (he : e ∈ b.entries)
    (status : EntryStatus) (p : LedgerEntry → Prop) [DecidablePred p] :
    tally p LedgerEntry.amount (b.setEntry e.id status).entries + (if p e then e.amount else 0) =
      tally p LedgerEntry.amount b.entries +
        if p { e with status := status } then e.amount else 0 :=
  tally_modify (g := fun e => { e with status := status }) hk.entryIds he rfl

namespace Books.Balanced

theorem congr (h : b.Balanced) (he : b'.entries = b.entries) : b'.Balanced := by
  intro id c
  rw [he]
  exact h id c

/-- Settled lines that sum to zero, posted to one transaction. -/
theorem posted (h : b.Balanced) {id : Id} {lines : List PostingLine} {es : List LedgerEntry}
    (hp : Posted id lines es) (hs : ∀ line ∈ lines, line.status = .success) (hz : ZeroSum lines) :
    (b.addEntries es).Balanced := by
  intro id' c
  rw [addEntries, tally_append, h id' c, zero_add]
  by_cases hid : id' = id
  · subst hid
    rw [← hz c, ← hp.lines, tally_map]
    refine tally_congr (fun e he => ?_) fun _ _ _ => rfl
    have hstatus : e.status = .success := hs e.line (hp.lines ▸ List.mem_map_of_mem he)
    simp [hp.transaction e he, hstatus, LedgerEntry.line]
  · exact tally_eq_zero fun e he hx => absurd (hx.1.symm.trans (hp.transaction e he)) hid

end Books.Balanced

theorem MirrorLine.status {e : LedgerEntry} {line : PostingLine} (h : MirrorLine e line) :
    line.status = .success := by
  obtain ⟨m, -, rfl⟩ := h
  split <;> rfl

/-- The mirror of a transaction that sums to zero does so. -/
theorem Books.Balanced.mirrored (h : b.Balanced) (hl : b.Linked) {id : Id}
    {lines : List PostingLine}
    (hm : List.Forall₂ MirrorLine (b.entries.filter (LedgerEntry.isOf id .success)) lines) :
    ZeroSum lines := by
  intro c
  have hmirror := tally_mirrored (fun _ y => y = c) hm hl fun e he =>
    hl.entries e (List.mem_of_mem_filter he)
  rw [hmirror, tally_filter, neg_eq_zero, ← h id c]
  refine tally_congr (fun e _ => ?_) fun _ _ _ => rfl
  simp only [LedgerEntry.isOf, decide_eq_true_eq, and_comm, and_left_comm]

/-- The reserved debit is settled against the credit that `assert_balanced` has let pass. -/
theorem Books.Balanced.commit {transactionId : Id} (h : b.Balanced) (hk : b.Keyed s)
    (he : Effect cfg b (.commit transactionId) b') : b'.Balanced := by
  cases he with
  | commit t money debit credit sender receiver _ found pending money_eq approved reserved
      sender_mem sender_id receiver_id receiver_mem line transaction balanced cuts =>
    have hmem := List.mem_of_find?_eq_some reserved
    have hdebit := List.find?_some reserved
    simp only [LedgerEntry.isOf, decide_eq_true_eq] at hdebit
    obtain ⟨⟨htxn, hpend⟩, -⟩ := hdebit
    have hwritten : Decimal.roundContext debit.amount = debit.amount :=
      Decimal.roundContext_of_fits (hk.entryAmounts debit hmem) (hk.entryWidths debit hmem)
    have hzero := TransactionAggregate.tally_of_assertBalanced (LedgerService.rebuild_lines _)
      hwritten balanced
    rw [LedgerService.rebuild_lines] at hzero
    refine Books.Balanced.congr (b := (b.setEntry debit.id .success).addEntries [credit]) ?_
      cuts.rest.2.2
    intro id c
    have hflip := Books.tally_setEntry hk hmem .success
      fun e => e.transactionId = id ∧ e.currency = c ∧ e.status = .success
    rw [Books.addEntries, tally_append, tally_cons, tally_nil, add_zero]
    have hold := h id c
    have hcredit : credit.currency = money.currency ∧ credit.status = .success ∧
        credit.amount = |money.amount| :=
      ⟨congrArg PostingLine.currency line, congrArg PostingLine.status line,
        congrArg PostingLine.amount line⟩
    have hzero := hzero c
    simp only [tally_cons, tally_nil, add_zero] at hzero
    by_cases hid : t.id = id
    · simp only [htxn, hid, hpend, true_and, and_true, reduceCtorEq, and_false, if_false,
        hold, zero_add, add_zero] at hflip
      simp only [hflip, transaction, hid, hcredit, true_and, and_true]
      exact hzero
    · simp only [htxn, hid, false_and, if_false, add_zero, hold] at hflip
      simp only [hflip, transaction, hid, false_and, if_false, add_zero]

/-- What has failed was not settled. -/
theorem Books.Balanced.fail {transactionId : Id} (h : b.Balanced) (hk : b.Keyed s)
    (he : Effect cfg b (.fail transactionId) b') : b'.Balanced := by
  cases he with
  | fail t found pending =>
    intro id c
    have hentries := Books.failed_entries hk t.id
    rw [← h id c, Books.setTransaction, Write.applyBooks, hentries, tally_map]
    refine tally_congr (fun e _ => ?_) fun e _ hs => ?_
    · by_cases he : e.isOf t.id .pending = true
      · have hpend : e.status = .pending := (of_decide_eq_true he).2
        simp [he, hpend]
      · simp [he]
    · split <;> rfl

theorem Effect.balanced {op : Operation} (hk : b.Keyed s) (hl : b.Linked) (h : b.Balanced)
    (he : Effect cfg b op b') : b'.Balanced := by
  cases op with
  | createAccount ownerId currency =>
    cases he with
    | createAccount a owner code new => exact h.congr rfl
  | initiateDeposit accountId amount provider context correlationId =>
    cases he with
    | initiateDeposit account money t reference account_mem account_id money_eq positive records =>
      exact h.congr rfl
  | settle reference confirmedAmount confirmedCurrency =>
    cases he with
    | settle t authorized account clearing b₁ _ es found pending authorized_eq reconciled account_id
        account_mem owner code opened posted cuts =>
      have h₁ : b₁.Balanced := h.congr opened.rest.2.1
      have hpost := h₁.posted posted (by simp) (zeroSum_pair _ _ _)
      exact hpost.congr cuts.rest.2.2
  | execute senderId receiverId amount correlationId =>
    cases he with
    | execute k t es _ records posted cuts =>
      have ht : (b.addTransaction t).Balanced := h.congr rfl
      have hpost := ht.posted posted (by simp) (zeroSum_pair _ _ _)
      exact hpost.congr cuts.rest.2.2
  | initiate senderId receiverId amount correlationId =>
    cases he with
    | initiate k t e records line transaction =>
      intro id c
      have hstatus : e.status = .pending := congrArg PostingLine.status line
      rw [Books.addEntries, tally_append]
      have hlone : tally
          (fun e => e.transactionId = id ∧ e.currency = c ∧ e.status = EntryStatus.success)
          LedgerEntry.amount [e] = 0 := by
        simp [hstatus]
      rw [hlone, add_zero]
      exact h id c
  | commit transactionId => exact h.commit hk he
  | fail transactionId => exact h.fail hk he
  | executeFxTransfer rates senderId receiverId amount correlationId =>
    cases he with
    | executeFxTransfer k received poolFrom poolTo b₁ b₂ _ t es exchange received_eq owner_from
        code_from opened_from owner_to code_to opened_to records posted cuts =>
      have h₂ : b₂.Balanced := (h.congr opened_from.rest.2.1).congr opened_to.rest.2.1
      have ht : (b₂.addTransaction t).Balanced := h₂.congr rfl
      have hpost := ht.posted posted (by simp) ((zeroSum_pair _ _ _).append (zeroSum_pair _ _ _))
      exact hpost.congr cuts.rest.2.2
  | reverse transactionId correlationId =>
    cases he with
    | reverse t reversal lines es _ found success original records mirrored balanced posted cuts =>
      have ht : (b.addTransaction reversal).Balanced := h.congr rfl
      have hpost := ht.posted posted
        (fun line hl => (exists_of_mirrored mirrored hl).choose_spec.2.status)
        (h.mirrored hl mirrored)
      exact hpost.congr cuts.rest.2.2

/-! ## Cursors -/

/-- The cursor of every snapshot is the number of an entry of its account. -/
def Books.CursorsDrawn (b : Books) : Prop :=
  ∀ x ∈ b.snapshots, ∃ e ∈ b.entries, e.accountId = x.accountId ∧ e.seq = x.lastEntrySeq

namespace Books.CursorsDrawn

/-- No snapshot is added, and the entries stay where they are. -/
theorem mono (h : b.CursorsDrawn) (hs : b'.snapshots = b.snapshots)
    (he : ∀ e ∈ b.entries, ∃ f ∈ b'.entries, f.accountId = e.accountId ∧ f.seq = e.seq) :
    b'.CursorsDrawn := by
  intro x hx
  rw [hs] at hx
  obtain ⟨e, hmem, ha, hseq⟩ := h x hx
  obtain ⟨f, hf, hfa, hfseq⟩ := he e hmem
  exact ⟨f, hf, hfa.trans ha, hfseq.trans hseq⟩

theorem addEntries (h : b.CursorsDrawn) (es : List LedgerEntry) :
    (b.addEntries es).CursorsDrawn :=
  h.mono rfl fun e he => ⟨e, List.mem_append_left _ he, rfl, rfl⟩

theorem setEntry (h : b.CursorsDrawn) (id : Id) (status : EntryStatus) :
    (b.setEntry id status).CursorsDrawn := by
  refine h.mono rfl fun e he => ⟨_, mem_modify.2 ⟨e, he, rfl⟩, ?_⟩
  split <;> exact ⟨rfl, rfl⟩

theorem opened (h : b.CursorsDrawn) {ownerId currency : String} {a : Account}
    (ho : Opened ownerId currency b a b₁) : b₁.CursorsDrawn :=
  h.mono ho.rest.2.2 fun e he => ⟨e, ho.rest.2.1 ▸ he, rfl, rfl⟩

theorem cuts (h : b.CursorsDrawn) {as : List Id} (hcuts : Cuts cfg as b b') : b'.CursorsDrawn := by
  induction hcuts with
  | nil b => exact h
  | cons hcut _ ih =>
    cases hcut with
    | skip _ => exact ih h
    | cut x last haccount hlast hseq _ =>
      refine ih fun y hy => ?_
      rcases List.mem_append.1 hy with hy | hy
      · exact h y hy
      · have hmem := mem_settledAfter.1 (List.mem_of_getLast? hlast)
        rw [List.mem_singleton.1 hy]
        exact ⟨last, hmem.1, hmem.2.1.1.trans haccount.symm, hseq.symm⟩

end Books.CursorsDrawn

theorem Effect.cursorsDrawn {op : Operation} (h : b.CursorsDrawn) (he : Effect cfg b op b') :
    b'.CursorsDrawn := by
  cases he with
  | createAccount a owner code new => exact h
  | initiateDeposit account money t reference account_mem account_id money_eq positive records =>
    exact h
  | settle t authorized account clearing b₁ _ es found pending authorized_eq reconciled account_id
      account_mem owner code opened posted cuts =>
    have hpost : ((b₁.addEntries es).setTransaction t.id .success).CursorsDrawn :=
      (h.opened opened).addEntries es
    exact hpost.cuts cuts
  | execute k t es _ records posted cuts =>
    have hpost : ((b.addTransaction t).addEntries es).CursorsDrawn := h.addEntries es
    exact hpost.cuts cuts
  | initiate k t e records line transaction => exact h.addEntries [e]
  | commit t money debit credit sender receiver _ found pending money_eq approved reserved
      sender_mem sender_id receiver_id receiver_mem line transaction balanced cuts =>
    have hpost : (((b.setEntry debit.id .success).addEntries [credit]).setTransaction t.id
        .success).CursorsDrawn := (h.setEntry debit.id .success).addEntries [credit]
    exact hpost.cuts cuts
  | fail t found pending =>
    have hfold : ∀ (es : List LedgerEntry) (b : Books), b.CursorsDrawn →
        (es.foldl (fun b e => b.setEntry e.id .failed) b).CursorsDrawn := fun es _ hb =>
      List.foldlRecOn es _ hb fun b hb e _ => hb.setEntry e.id .failed
    exact hfold _ b h
  | executeFxTransfer k received poolFrom poolTo b₁ b₂ _ t es exchange received_eq owner_from
      code_from opened_from owner_to code_to opened_to records posted cuts =>
    have hpost : ((b₂.addTransaction t).addEntries es).CursorsDrawn :=
      ((h.opened opened_from).opened opened_to).addEntries es
    exact hpost.cuts cuts
  | reverse t reversal lines es _ found success original records mirrored balanced posted cuts =>
    have hpost : (((b.addTransaction reversal).addEntries es).setTransaction t.id
        .reversed).CursorsDrawn := h.addEntries es
    exact hpost.cuts cuts

/-! ## Every reachable state -/

/-- The invariant of the stored state. -/
structure Store.Sound (s : Store) : Prop where
  keyed : s.db.books.Keyed s.seqs
  linked : s.db.books.Linked
  balanced : s.db.books.Balanced
  cursors : s.db.books.CursorsDrawn

theorem Store.sound_empty : Store.empty.Sound :=
  { keyed := Books.keyed_empty
    linked := ⟨by simp [Store.empty, Database.empty], by simp [Store.empty, Database.empty],
      by simp [Store.empty, Database.empty], by simp [Store.empty, Database.empty]⟩
    balanced := fun _ _ => rfl
    cursors := by simp [Books.CursorsDrawn, Store.empty, Database.empty] }

/-- Every operation keeps the invariant. -/
theorem Store.Sound.run {s : Store} (h : s.Sound) (op : Operation) : (op.run cfg s).Sound := by
  have hkeyed := Operation.keyed_run cfg h.keyed op
  rcases Operation.run_effect h.keyed op with hb | he
  · exact ⟨hkeyed, hb.symm ▸ h.linked, hb.symm ▸ h.balanced, hb.symm ▸ h.cursors⟩
  · exact ⟨hkeyed, he.linked h.keyed h.linked, he.balanced h.keyed h.linked h.balanced,
      he.cursorsDrawn h.cursors⟩

/-- Every state of a run is sound. -/
theorem sound_of_run {C : Operation → Store → Prop} {s : Store}
    (h : Run (Operation.run cfg) C Store.empty s) : s.Sound :=
  h.invariant Store.sound_empty fun op _ hs _ => hs.run op

end WalletLedger
