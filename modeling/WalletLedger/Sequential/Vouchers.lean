import WalletLedger.Sequential.Cache
import WalletLedger.Sequential.Crashes
import WalletLedger.Sequential.Reservations
import WalletLedger.Sequential.Reversals

/-!
# What the row of a transaction says

The row of a transaction vouches for its entries: read with its status, it says which entries
there are.  The row of an operator's fund is the only one that does not name the account.

* `Vouches` — the lines of a transaction, by its row.
* `Books.Vouched` — every row vouches for its entries; `opened`, `closed`, `reversed` — what
  becomes of it when a transaction is recorded, ends, or is reversed.
* `Effect.vouched`, by one lemma an operation, and `OperatorFund.vouched`, by `stored_credit_eq`:
  the entries of a fund are of the amount of its row.
* `LedgerStep.vouched` — every movement of the ledger keeps it.
* `Books.Recorded`, `recorded_of_crashes` — what holds wherever processes are killed.
-/

namespace WalletLedger

variable {cfg : Config} {web : Web} {pay : Payments} {b b' : Books} {s s' : Sequences}
  {F : Books → String → Decimal → Prop}

/-! ## Vouchers -/

/-- The line that takes a line back. -/
def PostingLine.mirror (line : PostingLine) : PostingLine :=
  { line with
    amount := -line.amount
    entryType := if line.entryType = .debit then .credit else .debit }

/-- The lines of the entries of a transaction. -/
def Books.linesOf (b : Books) (id : Id) : List PostingLine :=
  (b.entriesOf id).map LedgerEntry.line

/-- The settled lines of an amount that leaves one account for another. -/
abbrev settledPair (fromId toId : Id) (amount : Decimal) (currency : String) :
    List PostingLine :=
  [⟨fromId, -amount, .debit, currency, .success⟩, ⟨toId, amount, .credit, currency, .success⟩]

/-- The transaction has been carried out, and reversed since or not. -/
def Transaction.Done (t : Transaction) : Prop := t.status = .success ∨ t.status = .reversed

/-- The row of a transaction vouches for these lines. -/
inductive Vouches (b : Books) (t : Transaction) : List PostingLine → Prop
  | transfer (senderId receiverId : Id) (type : t.type = .transfer)
      (details : t.details = .transfer senderId receiverId) (positive : 0 < t.amount)
      (done : t.Done) : Vouches b t (settledPair senderId receiverId t.amount t.currency)
  | reserved (senderId receiverId : Id) (type : t.type = .transfer)
      (details : t.details = .transfer senderId receiverId) (positive : 0 < t.amount)
      (status : t.status = .pending) :
      Vouches b t [⟨senderId, -t.amount, .debit, t.currency, .pending⟩]
  | released (senderId receiverId : Id) (type : t.type = .transfer)
      (details : t.details = .transfer senderId receiverId) (positive : 0 < t.amount)
      (status : t.status = .failed) :
      Vouches b t [⟨senderId, -t.amount, .debit, t.currency, .failed⟩]
  | promised (provider : String) (accountId : Id) (context : DepositContext)
      (type : t.type = .deposit) (details : t.details = .deposit provider accountId context)
      (positive : 0 < t.amount) (status : t.status = .pending ∨ t.status = .failed) :
      Vouches b t []
  | deposit (provider : String) (accountId : Id) (context : DepositContext) (clearing : Account)
      (type : t.type = .deposit) (details : t.details = .deposit provider accountId context)
      (positive : 0 < t.amount) (done : t.Done) (mem : clearing ∈ b.accounts)
      (owner : clearing.ownerId = clearingOwner) :
      Vouches b t (settledPair clearing.id accountId t.amount t.currency)
  | fund (account clearing : Account) (type : t.type = .deposit) (details : t.details = .empty)
      (done : t.Done) (account_mem : account ∈ b.accounts) (mem : clearing ∈ b.accounts)
      (owner : clearing.ownerId = clearingOwner) :
      Vouches b t (settledPair clearing.id account.id |t.amount| t.currency)
  | exchange (senderId receiverId : Id) (received : Money) (poolFrom poolTo : Account)
      (type : t.type = .fxTransfer)
      (details : t.details = .fxTransfer senderId receiverId received.text received.currency)
      (positive : 0 < t.amount) (done : t.Done) (from_mem : poolFrom ∈ b.accounts)
      (from_owner : poolFrom.ownerId = fxPoolOwner) (to_mem : poolTo ∈ b.accounts)
      (to_owner : poolTo.ownerId = fxPoolOwner) :
      Vouches b t (settledPair senderId poolFrom.id t.amount t.currency ++
        settledPair poolTo.id receiverId |received.amount| received.currency)
  | reversal (original : Transaction) (type : t.type = .reversal)
      (details : t.details = .reversal original.id) (status : t.status = .success)
      (mem : original ∈ b.transactions) (reversed : original.status = .reversed) :
      Vouches b t ((b.linesOf original.id).map PostingLine.mirror)

/-- Every row vouches for its entries. -/
def Books.Vouched (b : Books) : Prop := ∀ t ∈ b.transactions, Vouches b t (b.linesOf t.id)

/-! ## What becomes of a voucher -/

/-- A voucher that stays where it is. -/
theorem Vouches.mono {t : Transaction} {lines : List PostingLine} (h : Vouches b t lines)
    (ha : ∀ a ∈ b.accounts, a ∈ b'.accounts)
    (hr : ∀ x ∈ b.transactions, x.status = .reversed → x ∈ b'.transactions ∧
      b'.linesOf x.id = b.linesOf x.id) : Vouches b' t lines := by
  cases h with
  | transfer senderId receiverId type details positive done =>
    exact .transfer senderId receiverId type details positive done
  | reserved senderId receiverId type details positive status =>
    exact .reserved senderId receiverId type details positive status
  | released senderId receiverId type details positive status =>
    exact .released senderId receiverId type details positive status
  | promised provider accountId context type details positive status =>
    exact .promised provider accountId context type details positive status
  | deposit provider accountId context clearing type details positive done mem owner =>
    exact .deposit provider accountId context clearing type details positive done (ha _ mem) owner
  | fund account clearing type details done account_mem mem owner =>
    exact .fund account clearing type details done (ha _ account_mem) (ha _ mem) owner
  | exchange senderId receiverId received poolFrom poolTo type details positive done from_mem
      from_owner to_mem to_owner =>
    exact .exchange senderId receiverId received poolFrom poolTo type details positive done
      (ha _ from_mem) from_owner (ha _ to_mem) to_owner
  | reversal original type details status mem reversed =>
    obtain ⟨hmem, hlines⟩ := hr original mem reversed
    exact hlines ▸ .reversal original type details status hmem reversed

/-- What is carried out vouches for the same lines once it is reversed. -/
theorem Vouches.reverse {t : Transaction} {lines : List PostingLine} (h : Vouches b t lines)
    (hs : t.status = .success) (htype : t.type ≠ .reversal) :
    Vouches b { t with status := .reversed } lines := by
  have hdone : Transaction.Done { t with status := .reversed } := .inr rfl
  cases h with
  | transfer senderId receiverId type details positive done =>
    exact .transfer (t := { t with status := .reversed }) senderId receiverId type details positive
      hdone
  | reserved senderId receiverId type details positive status => cases hs.symm.trans status
  | released senderId receiverId type details positive status => cases hs.symm.trans status
  | promised provider accountId context type details positive status =>
    rcases status with status | status <;> cases hs.symm.trans status
  | deposit provider accountId context clearing type details positive done mem owner =>
    exact .deposit (t := { t with status := .reversed }) provider accountId context clearing type
      details positive hdone mem owner
  | fund account clearing type details done account_mem mem owner =>
    exact .fund (t := { t with status := .reversed }) account clearing type details hdone
      account_mem mem owner
  | exchange senderId receiverId received poolFrom poolTo type details positive done from_mem
      from_owner to_mem to_owner =>
    exact .exchange (t := { t with status := .reversed }) senderId receiverId received poolFrom
      poolTo type details positive hdone from_mem from_owner to_mem to_owner
  | reversal original type details status mem reversed => exact absurd type htype

/-- The settled entries of a transaction that has been carried out are all its entries. -/
theorem Vouches.settled {t : Transaction} {lines : List PostingLine} (h : Vouches b t lines)
    (hs : t.status = .success) (htype : t.type ≠ .reversal) :
    ∀ line ∈ lines, line.status = .success := by
  cases h with
  | reserved senderId receiverId type details positive status => cases hs.symm.trans status
  | released senderId receiverId type details positive status => cases hs.symm.trans status
  | reversal original type details status mem reversed => exact absurd type htype
  | _ => simp

theorem Books.linesOf_congr {id : Id} (h : b'.entriesOf id = b.entriesOf id) :
    b'.linesOf id = b.linesOf id := congrArg (List.map LedgerEntry.line) h

/-- The entries of one transaction come after those it has. -/
theorem Books.linesOf_append {id : Id} {es : List LedgerEntry} (he : b'.entries = b.entries ++ es)
    (own : ∀ e ∈ es, e.transactionId = id) :
    b'.linesOf id = b.linesOf id ++ es.map LedgerEntry.line := by
  have hall : es.filter (fun e => decide (e.transactionId = id)) = es :=
    List.filter_eq_self.2 fun e hmem => decide_eq_true (own e hmem)
  rw [linesOf, linesOf, entriesOf, entriesOf, he, List.filter_append, hall, List.map_append]

/-- The lines of a new transaction are those it comes with. -/
theorem Books.linesOf_new (hk : b.Keyed s) {id : Id} {es : List LedgerEntry}
    (fresh : ∀ x ∈ b.transactions, x.id ≠ id) (he : b'.entries = b.entries ++ es)
    (own : ∀ e ∈ es, e.transactionId = id) : b'.linesOf id = es.map LedgerEntry.line := by
  have hnone : b.entriesOf id = [] := by
    refine List.filter_eq_nil_iff.2 fun e hmem hid => ?_
    obtain ⟨x, hx, hxid⟩ := hk.entryTransaction e hmem
    exact fresh x hx (hxid.trans (of_decide_eq_true hid))
  rw [linesOf_append he own, linesOf, hnone, List.map_nil, List.nil_append]

namespace Books.Vouched

variable {t : Transaction} {es : List LedgerEntry}

/-- Neither the rows nor their lines change. -/
theorem congr (h : b.Vouched) (ha : ∀ a ∈ b.accounts, a ∈ b'.accounts)
    (ht : b'.transactions = b.transactions) (he : b'.entries = b.entries) : b'.Vouched := by
  have hlines : ∀ id, b'.linesOf id = b.linesOf id := fun id =>
    linesOf_congr (by rw [entriesOf, he, entriesOf])
  intro x hx
  rw [ht] at hx
  rw [hlines]
  exact (h x hx).mono ha fun y hy _ => ⟨ht ▸ hy, hlines y.id⟩

/-- A new transaction, with its entries. -/
theorem opened (h : b.Vouched) (hk : b.Keyed s) (ha : ∀ a ∈ b.accounts, a ∈ b'.accounts)
    (fresh : ∀ x ∈ b.transactions, x.id ≠ t.id) (ht : b'.transactions = b.transactions ++ [t])
    (he : b'.entries = b.entries ++ es) (own : ∀ e ∈ es, e.transactionId = t.id)
    (hnew : Vouches b' t (es.map LedgerEntry.line)) : b'.Vouched := by
  have hold : ∀ x ∈ b.transactions, b'.linesOf x.id = b.linesOf x.id := fun x hx =>
    linesOf_congr (entriesOf_append he own (fresh x hx))
  intro x hx
  rw [ht] at hx
  rcases List.mem_append.1 hx with hx | hx
  · rw [hold x hx]
    exact (h x hx).mono ha fun y hy _ => ⟨ht ▸ List.mem_append_left _ hy, hold y hy⟩
  · rw [List.mem_singleton.1 hx, linesOf_new hk fresh he own]
    exact hnew

/-- A pending transaction ends. -/
theorem closed (h : b.Vouched) (hk : b.Keyed s) (ha : ∀ a ∈ b.accounts, a ∈ b'.accounts)
    (mem : t ∈ b.transactions) (pending : t.status = .pending) {status : TransactionStatus}
    (ht : b'.transactions =
      modify Transaction.id t.id (fun x => { x with status := status }) b.transactions)
    (hothers : ∀ id, id ≠ t.id → b'.entriesOf id = b.entriesOf id)
    (hrow : Vouches b' { t with status := status } (b'.linesOf t.id)) : b'.Vouched := by
  intro x hx
  rw [ht] at hx
  obtain ⟨y, hy, rfl⟩ := mem_modify.1 hx
  by_cases hid : y.id = t.id
  · obtain rfl : y = t := eq_of_key_eq hk.transactionIds hy mem hid
    rw [if_pos rfl]
    exact hrow
  · rw [if_neg hid, linesOf_congr (hothers y.id hid)]
    refine (h y hy).mono ha fun z hz hreversed => ?_
    have hne : z.id ≠ t.id := fun hzt => by
      obtain rfl : z = t := eq_of_key_eq hk.transactionIds hz mem hzt
      cases pending.symm.trans hreversed
    exact ⟨ht ▸ mem_modify.2 ⟨z, hz, by rw [if_neg hne]⟩, linesOf_congr (hothers z.id hne)⟩

/-- A successful transaction is reversed. -/
theorem reversed (h : b.Vouched) (hk : b.Keyed s) (ha : ∀ a ∈ b.accounts, a ∈ b'.accounts)
    {reversal : Transaction} (mem : t ∈ b.transactions) (success : t.status = .success)
    (original : t.type ≠ .reversal) (fresh : ∀ x ∈ b.transactions, x.id ≠ reversal.id)
    (type : reversal.type = .reversal) (details : reversal.details = .reversal t.id)
    (status : reversal.status = .success)
    (ht : b'.transactions = modify Transaction.id t.id (fun x => { x with status := .reversed })
      (b.transactions ++ [reversal]))
    (he : b'.entries = b.entries ++ es) (own : ∀ e ∈ es, e.transactionId = reversal.id)
    (hmirror : es.map LedgerEntry.line = (b.linesOf t.id).map PostingLine.mirror) :
    b'.Vouched := by
  have hold : ∀ x ∈ b.transactions, b'.linesOf x.id = b.linesOf x.id := fun x hx =>
    linesOf_congr (entriesOf_append he own (fresh x hx))
  have hrow : { t with status := .reversed } ∈ b'.transactions :=
    ht ▸ mem_modify.2 ⟨t, List.mem_append_left _ mem, by rw [if_pos rfl]⟩
  have hkept : ∀ y ∈ b.transactions, y.status = .reversed → y ∈ b'.transactions ∧
      b'.linesOf y.id = b.linesOf y.id := fun y hy hreversed => by
    have hne : y.id ≠ t.id := fun hyt => by
      obtain rfl : y = t := eq_of_key_eq hk.transactionIds hy mem hyt
      cases success.symm.trans hreversed
    exact ⟨ht ▸ mem_modify.2 ⟨y, List.mem_append_left _ hy, by rw [if_neg hne]⟩, hold y hy⟩
  intro x hx
  rw [ht] at hx
  obtain ⟨y, hy, rfl⟩ := mem_modify.1 hx
  rcases List.mem_append.1 hy with hy | hy
  · by_cases hid : y.id = t.id
    · obtain rfl : y = t := eq_of_key_eq hk.transactionIds hy mem hid
      rw [if_pos rfl]
      show Vouches b' _ (b'.linesOf y.id)
      rw [hold y mem]
      exact ((h y mem).mono ha hkept).reverse success original
    · rw [if_neg hid, hold y hy]
      exact (h y hy).mono ha hkept
  · obtain rfl := List.mem_singleton.1 hy
    rw [if_neg fun hid => fresh t mem hid.symm, linesOf_new hk fresh he own, hmirror, ← hold t mem]
    exact .reversal { t with status := .reversed } type details status hrow rfl

end Books.Vouched

/-! ## What a movement writes -/

/-- A debit and a credit of the same amount. -/
theorem lines_eq_settledPair {m : Money} {amount : Decimal} {currency : String}
    (hamount : m.amount = amount) (hcurrency : m.currency = currency) (hpos : 0 < amount)
    (fromId toId : Id) :
    [debitLine fromId m, creditLine toId m] = settledPair fromId toId amount currency := by
  rw [debitLine, creditLine, hamount, hcurrency, abs_of_pos hpos]

theorem MirrorLine.eq_mirror {e : LedgerEntry} {line : PostingLine} (hm : MirrorLine e line)
    (hl : b.Linked) (he : e ∈ b.entries) (hs : e.status = .success) : line = e.line.mirror := by
  have hline := hl.entries e he
  obtain ⟨haccount, hamount⟩ := hm.amount_eq hline
  have hcurrency := hm.currency_eq hl hline
  have hstatus := hm.status
  have htype : line.entryType = e.line.mirror.entryType := by
    obtain ⟨m, -, rfl⟩ := hm
    show _ = if e.entryType = .debit then _ else _
    split <;> rfl
  calc line = ⟨line.accountId, line.amount, line.entryType, line.currency, line.status⟩ := rfl
    _ = e.line.mirror := by
      rw [haccount, hamount, htype, hcurrency, hstatus, ← hs]
      rfl

/-- The mirrored lines are the mirrors of the lines. -/
theorem lines_eq_mirrors {es : List LedgerEntry} {lines : List PostingLine} (hl : b.Linked)
    (h : List.Forall₂ MirrorLine es lines) (hes : ∀ e ∈ es, e ∈ b.entries ∧ e.status = .success) :
    lines = (es.map LedgerEntry.line).map PostingLine.mirror := by
  induction h with
  | nil => rfl
  | @cons e line _ _ hm _ ih =>
    obtain ⟨hmem, hstatus⟩ := hes e (by simp)
    rw [List.map_cons, List.map_cons, ← ih fun e he => hes e (by simp [he]),
      hm.eq_mirror hl hmem hstatus]

/-- The lines of a transaction whose pending entries have failed. -/
theorem Books.linesOf_failed {id : Id}
    (he : b'.entries = b.entries.map fun e =>
      if e.isOf id .pending then { e with status := .failed } else e) :
    b'.linesOf id = (b.linesOf id).map fun line =>
      if line.status = .pending then { line with status := .failed } else line := by
  have hown : (fun e : LedgerEntry => decide (e.transactionId = id)) ∘
      (fun e : LedgerEntry =>
        if e.isOf id .pending then { e with status := EntryStatus.failed } else e) =
      fun e => decide (e.transactionId = id) := by
    funext e
    simp only [Function.comp_apply]
    split <;> rfl
  rw [linesOf, linesOf, entriesOf, entriesOf, he, List.filter_map, hown, List.map_map,
    List.map_map]
  refine List.map_congr_left fun e hmem => ?_
  rw [List.mem_filter, decide_eq_true_eq] at hmem
  by_cases hp : e.status = .pending
  · simp [LedgerEntry.isOf, LedgerEntry.line, hmem.2, hp]
  · simp [LedgerEntry.isOf, LedgerEntry.line, hp]

/-- What a pending transaction with an account vouches for: it is a deposit, and has moved
nothing. -/
theorem Vouches.waits {t : Transaction} {lines : List PostingLine} (h : Vouches b t lines)
    (hp : t.status = .pending) {accountId : Id} (haccount : t.details.accountId = .ok accountId) :
    lines = [] ∧ t.type = .deposit ∧ 0 < t.amount ∧
      ∃ provider context, t.details = .deposit provider accountId context := by
  have hdone : ¬ t.Done := by
    rintro (hs | hs) <;> cases hp.symm.trans hs
  cases h with
  | transfer senderId receiverId type details positive done => exact absurd done hdone
  | reserved senderId receiverId type details positive status =>
    rw [details] at haccount
    cases haccount
  | released senderId receiverId type details positive status => cases hp.symm.trans status
  | promised provider _ context type details positive status =>
    rw [details] at haccount
    obtain rfl := Except.ok.inj haccount
    exact ⟨rfl, type, positive, provider, context, details⟩
  | deposit provider _ context clearing type details positive done => exact absurd done hdone
  | fund account clearing type details done => exact absurd done hdone
  | exchange senderId receiverId received poolFrom poolTo type details positive done =>
    exact absurd done hdone
  | reversal original type details status => cases hp.symm.trans status

/-- A pending transaction that fails. -/
theorem Vouches.fail {t : Transaction} {lines : List PostingLine} (h : Vouches b t lines)
    (hp : t.status = .pending) (b' : Books) :
    Vouches b' { t with status := .failed } (lines.map fun line =>
      if line.status = .pending then { line with status := .failed } else line) := by
  have hdone : ¬ t.Done := by
    rintro (hs | hs) <;> cases hp.symm.trans hs
  cases h with
  | transfer senderId receiverId type details positive done => exact absurd done hdone
  | reserved senderId receiverId type details positive status =>
    exact .released (t := { t with status := .failed }) senderId receiverId type details positive
      rfl
  | released senderId receiverId type details positive status => cases hp.symm.trans status
  | promised provider accountId context type details positive status =>
    exact .promised (t := { t with status := .failed }) provider accountId context type details
      positive (.inr rfl)
  | deposit provider _ context clearing type details positive done => exact absurd done hdone
  | fund account clearing type details done => exact absurd done hdone
  | exchange senderId receiverId received poolFrom poolTo type details positive done =>
    exact absurd done hdone
  | reversal original type details status => cases hp.symm.trans status

/-! ## What the operations keep -/

theorem Books.Vouched.initiateDeposit {accountId : Id} {amount : Decimal} {provider : String}
    {context : DepositContext} {correlationId : Option String} (h : b.Vouched) (hk : b.Keyed s)
    (hk' : b'.Keyed s')
    (he : Effect cfg b (.initiateDeposit accountId amount provider context correlationId) b') :
    b'.Vouched := by
  have ha : ∀ a ∈ b.accounts, a ∈ b'.accounts := fun a hmem => he.accounts_subset hk hmem
  have hids := hk'.transactionIds
  cases he with
  | initiateDeposit account money t reference account_mem account_id money_eq positive records =>
    have hfresh : ∀ x ∈ b.transactions, x.id ≠ t.id := by
      refine fresh_of_nodup ?_
      have hsame : ((Write.setReference t.id reference).applyBooks
          (b.addTransaction t)).transactions.map Transaction.id =
          (b.transactions ++ [t]).map Transaction.id := map_modify fun _ => rfl
      rwa [← hsame]
    have htx : ((Write.setReference t.id reference).applyBooks
        (b.addTransaction t)).transactions = b.transactions ++
          [{ t with reference := some reference }] := by
      show modify Transaction.id t.id _ (b.transactions ++ [t]) = _
      rw [modify_append, modify_of_forall_ne hfresh]
      simp [modify]
    have hes : ((Write.setReference t.id reference).applyBooks
        (b.addTransaction t)).entries = b.entries ++ [] := (List.append_nil _).symm
    refine h.opened (t := { t with reference := some reference }) hk ha hfresh htx hes (by simp) ?_
    exact .promised _ account.id _ records.type records.details
      (lt_of_lt_of_eq positive records.amount.symm) (.inl records.status)

theorem Books.Vouched.settle {reference : String} {confirmedAmount : Option Decimal}
    {confirmedCurrency : Option String} (h : b.Vouched) (hk : b.Keyed s) (hl : b.Linked)
    (he : Effect cfg b (.settle reference confirmedAmount confirmedCurrency) b') :
    b'.Vouched := by
  have ha : ∀ a ∈ b.accounts, a ∈ b'.accounts := fun a hmem => he.accounts_subset hk hmem
  cases he with
  | settle t authorized account clearing b₁ _ es found pending authorized_eq reconciled account_id
      account_mem owner code opened posted cuts =>
    obtain ⟨-, htx, hes⟩ := cuts.rest
    obtain ⟨hot, hoe, -⟩ := opened.rest
    have ht := List.mem_of_find?_eq_some found
    have hes : b'.entries = b.entries ++ es := by
      rw [hes, ← hoe]
      rfl
    have htx : b'.transactions =
        modify Transaction.id t.id (fun x => { x with status := .success }) b.transactions := by
      rw [htx, ← hot]
      rfl
    refine h.closed hk ha ht pending htx
      (fun id hid => Books.entriesOf_append hes posted.transaction hid) ?_
    obtain ⟨hnone, htype, hpos, provider, context, hdetails⟩ := (h t ht).waits pending account_id
    have hclearing : clearing ∈ b'.accounts := by
      rw [cuts.rest.1]
      exact opened.mem
    rw [Books.linesOf_append hes posted.transaction, hnone, List.nil_append, posted.lines,
      lines_eq_settledPair (hl.amount_of_make ht authorized_eq)
        (hl.currency_of_make ht authorized_eq) hpos]
    exact .deposit (t := { t with status := .success }) provider account.id context clearing htype
      hdetails hpos (.inl rfl) hclearing owner

theorem Books.Vouched.execute {senderId receiverId : Id} {amount : Decimal}
    {correlationId : Option String} (h : b.Vouched) (hk : b.Keyed s) (hk' : b'.Keyed s')
    (he : Effect cfg b (.execute senderId receiverId amount correlationId) b') :
    b'.Vouched := by
  have ha : ∀ a ∈ b.accounts, a ∈ b'.accounts := fun a hmem => he.accounts_subset hk hmem
  have hids := hk'.transactionIds
  cases he with
  | execute k t es _ records posted cuts =>
    obtain ⟨-, htx, hes⟩ := cuts.rest
    have hpos : 0 < t.amount := lt_of_lt_of_eq k.positive records.amount.symm
    rw [htx] at hids
    refine h.opened hk ha (fresh_of_nodup hids) htx hes posted.transaction ?_
    rw [posted.lines, lines_eq_settledPair records.amount.symm records.currency.symm hpos]
    exact .transfer _ _ records.type records.details hpos (.inl records.status)

theorem Books.Vouched.initiate {senderId receiverId : Id} {amount : Decimal}
    {correlationId : Option String} (h : b.Vouched) (hk : b.Keyed s) (hk' : b'.Keyed s')
    (he : Effect cfg b (.initiate senderId receiverId amount correlationId) b') :
    b'.Vouched := by
  have ha : ∀ a ∈ b.accounts, a ∈ b'.accounts := fun a hmem => he.accounts_subset hk hmem
  have hids := hk'.transactionIds
  cases he with
  | initiate k t e records line transaction =>
    have hpos : 0 < t.amount := lt_of_lt_of_eq k.positive records.amount.symm
    have hes : ((b.addTransaction t).addEntries [e]).entries = b.entries ++ [e] := rfl
    refine h.opened hk ha (fresh_of_nodup hids) rfl hes (by simp [transaction]) ?_
    rw [List.map_singleton, line, abs_of_pos k.positive, ← records.amount, ← records.currency]
    exact .reserved _ _ records.type records.details hpos records.status

theorem Books.Vouched.commit {transactionId : Id} (h : b.Vouched) (hk : b.Keyed s)
    (hl : b.Linked) (hr : b.Reservations) (he : Effect cfg b (.commit transactionId) b') :
    b'.Vouched := by
  have ha : ∀ a ∈ b.accounts, a ∈ b'.accounts := fun a hmem => he.accounts_subset hk hmem
  have he₀ := he
  cases he with
  | commit t money debit credit sender receiver _ found pending money_eq approved reserved
      sender_mem sender_id receiver_id receiver_mem line transaction balanced cuts =>
    obtain ⟨-, htx, hes⟩ := cuts.rest
    obtain ⟨ht, rfl⟩ := transaction_of_find found
    have hmem := List.mem_of_find?_eq_some reserved
    have hdebit := List.find?_some reserved
    simp only [LedgerEntry.isOf, decide_eq_true_eq] at hdebit
    obtain ⟨htype, hreserved, r, hdetails⟩ := hr.reserved hk hmem hdebit.1.2 ht hdebit.1.1
    obtain ⟨-, c, receiverId, hentries, hreceiver, hline⟩ := Effect.settled hreserved hk hl he₀
    have hes : b'.entries = b.entries.map (fun e =>
        if decide (e.id = debit.id) then { e with status := .success } else e) ++ [credit] := by
      rw [hes]
      simp [Books.setTransaction, Books.setEntry, Write.applyBooks, Books.addEntries, modify]
    refine h.closed hk ha ht pending htx
      (fun id hid => Books.entriesOf_closed hes (fun e he hid => ?_) (by simp [transaction]) hid) ?_
    · obtain rfl : e = debit := eq_of_key_eq hk.entryIds he hmem (of_decide_eq_true hid)
      exact hdebit.1.1
    · have hd := hreserved.line
      rw [hdetails] at hreceiver
      obtain rfl := Except.ok.inj hreceiver
      have hlines : b'.linesOf t.id = settledPair debit.accountId r t.amount t.currency := by
        rw [Books.linesOf, hentries, List.map_cons, List.map_singleton, hline]
        simp only [LedgerEntry.line, PostingLine.mk.injEq, true_and] at hd ⊢
        rw [hd.1, hd.2.1, hd.2.2.1]
      rw [hlines]
      exact .transfer (t := { t with status := .success }) debit.accountId r htype hdetails
        hreserved.positive (.inl rfl)

theorem Books.Vouched.fail {transactionId : Id} (h : b.Vouched) (hk : b.Keyed s)
    (he : Effect cfg b (.fail transactionId) b') : b'.Vouched := by
  have ha : ∀ a ∈ b.accounts, a ∈ b'.accounts := fun a hmem => he.accounts_subset hk hmem
  cases he with
  | fail t found pending =>
    obtain ⟨ht, -⟩ := transaction_of_find found
    have hes : (b.released t.id).entries = b.entries.map fun e =>
        if e.isOf t.id .pending then { e with status := .failed } else e :=
      Books.failed_entries hk t.id
    have htx := (Books.setEntries_rest (b.entries.filter (LedgerEntry.isOf t.id .pending))
      .failed b).2
    show (b.released t.id).Vouched
    refine h.closed hk ha ht pending (congrArg (modify _ _ _) htx) (fun id hid => ?_) ?_
    · have hes : (b.released t.id).entries = b.entries.map (fun e =>
          if e.isOf t.id .pending then { e with status := .failed } else e) ++ [] := by
        rw [hes, List.append_nil]
      refine Books.entriesOf_closed hes (fun e _ he => ?_) (by simp) hid
      exact (of_decide_eq_true he : e.transactionId = t.id ∧ e.status = .pending).1
    · rw [Books.linesOf_failed hes]
      exact (h t ht).fail pending _

theorem Books.Vouched.executeFxTransfer {rates : RateTable} {senderId receiverId : Id}
    {amount : Decimal} {correlationId : Option String} (h : b.Vouched) (hk : b.Keyed s)
    (hk' : b'.Keyed s')
    (he : Effect cfg b (.executeFxTransfer rates senderId receiverId amount correlationId) b') :
    b'.Vouched := by
  have ha : ∀ a ∈ b.accounts, a ∈ b'.accounts := fun a hmem => he.accounts_subset hk hmem
  have hids := hk'.transactionIds
  cases he with
  | executeFxTransfer k received poolFrom poolTo b₁ b₂ _ t es exchange received_eq owner_from
      code_from opened_from owner_to code_to opened_to records posted cuts =>
    obtain ⟨hac, htx, hes⟩ := cuts.rest
    obtain ⟨hft, hfe, -⟩ := opened_from.rest
    obtain ⟨htt, hte, -⟩ := opened_to.rest
    have hpos : 0 < t.amount := lt_of_lt_of_eq k.positive records.amount.symm
    have htx : b'.transactions = b.transactions ++ [t] := by
      rw [htx, ← hft, ← htt]
      rfl
    have hes : b'.entries = b.entries ++ es := by
      rw [hes, ← hfe, ← hte]
      rfl
    rw [htx] at hids
    refine h.opened hk ha (fresh_of_nodup hids) htx hes posted.transaction ?_
    have hfrom : poolFrom ∈ b'.accounts := by
      rw [hac]
      exact opened_to.subset opened_from.mem
    have hto : poolTo ∈ b'.accounts := by
      rw [hac]
      exact opened_to.mem
    have hpair := lines_eq_settledPair records.amount.symm records.currency.symm hpos k.sender.id
      poolFrom.id
    have hlines : es.map LedgerEntry.line =
        settledPair k.sender.id poolFrom.id t.amount t.currency ++
          settledPair poolTo.id k.receiver.id |received.amount| received.currency := by
      rw [posted.lines, ← hpair]
      rfl
    rw [hlines]
    exact .exchange _ _ received poolFrom poolTo records.type records.details hpos
      (.inl records.status) hfrom owner_from hto owner_to

theorem Books.Vouched.reverse {transactionId : Id} {correlationId : Option String}
    (h : b.Vouched) (hk : b.Keyed s) (hk' : b'.Keyed s') (hl : b.Linked)
    (he : Effect cfg b (.reverse transactionId correlationId) b') : b'.Vouched := by
  have ha : ∀ a ∈ b.accounts, a ∈ b'.accounts := fun a hmem => he.accounts_subset hk hmem
  have hids := hk'.transactionIds
  cases he with
  | reverse t reversal lines es _ found success original records mirrored balanced posted cuts =>
    obtain ⟨-, htx, hes⟩ := cuts.rest
    obtain ⟨ht, -⟩ := transaction_of_find found
    rw [htx, Books.ids_setTransaction] at hids
    have hsettled : b.entries.filter (LedgerEntry.isOf t.id .success) = b.entriesOf t.id := by
      rw [Books.filter_isOf]
      refine List.filter_eq_self.2 fun e he => decide_eq_true ?_
      exact (h t ht).settled success original e.line (List.mem_map_of_mem he)
    rw [hsettled] at mirrored
    have hlines := lines_eq_mirrors hl mirrored fun e he =>
      ⟨List.mem_of_mem_filter he,
        (h t ht).settled success original e.line (List.mem_map_of_mem he)⟩
    exact h.reversed hk ha ht success original (fresh_of_nodup hids) records.type records.details
      records.status htx hes posted.transaction (posted.lines.trans hlines)

/-- Every operation keeps the vouchers. -/
theorem Effect.vouched {op : Operation} (hk : b.Keyed s) (hk' : b'.Keyed s') (hl : b.Linked)
    (hr : b.Reservations) (h : b.Vouched) (he : Effect cfg b op b') : b'.Vouched := by
  cases op with
  | createAccount ownerId currency =>
    have ha : ∀ a ∈ b.accounts, a ∈ b'.accounts := fun a hmem => he.accounts_subset hk hmem
    cases he with
    | createAccount a owner code new => exact h.congr ha rfl rfl
  | initiateDeposit accountId amount provider context correlationId =>
    exact h.initiateDeposit hk hk' he
  | settle reference confirmedAmount confirmedCurrency => exact h.settle hk hl he
  | execute senderId receiverId amount correlationId => exact h.execute hk hk' he
  | initiate senderId receiverId amount correlationId => exact h.initiate hk hk' he
  | commit transactionId => exact h.commit hk hl hr he
  | fail transactionId => exact h.fail hk he
  | executeFxTransfer rates senderId receiverId amount correlationId =>
    exact h.executeFxTransfer hk hk' he
  | reverse transactionId correlationId => exact h.reverse hk hk' hl he

/-! ## What a fund keeps -/

/-- The entries of an exact fund are of the amount of its row: the columns have rounded the two of
them by less than the currency counts. -/
theorem stored_credit_eq {accountId : Id} {amount x : Decimal} {currency : String}
    (hrow : Decimal.storeNumeric 28 8 amount = some x)
    (hx : x ∈ Decimal.grid (decimalsFor currency))
    (hentry : (LedgerEntry.credit accountId amount currency).stored ∈
      Decimal.grid (decimalsFor currency)) :
    (LedgerEntry.credit accountId amount currency).stored = |x| := by
  obtain ⟨y, hy, hnear⟩ :=
    Decimal.exists_storeNumeric_roundContext (Decimal.storeNumeric_abs_left hrow)
  have hstored : (LedgerEntry.credit accountId amount currency).stored = y := by
    show (Decimal.storeNumeric 28 8 (Decimal.roundContext |amount|)).getD 0 = y
    exact congrArg (Option.getD · 0) hy
  rw [hstored] at hentry ⊢
  refine Decimal.eq_of_abs_sub_lt hentry (Decimal.abs_mem_grid hx) (hnear.trans_le ?_)
  have hcoarse : (10 : ℚ) ^ decimalsFor currency ≤ 10 ^ 7 :=
    pow_le_pow_right₀ (by norm_num) (Nat.le_of_lt_succ (decimalsFor_lt currency))
  calc (2 : ℚ) / 10 ^ 8 ≤ 1 / 10 ^ 7 := by norm_num
    _ ≤ 1 / 10 ^ decimalsFor currency :=
      one_div_le_one_div_of_le (by positivity) hcoarse

/-- The lines of a fund are a settled pair. -/
theorem fundLines_eq (clearingId accountId : Id) (amount : Decimal) (currency : String) :
    fundLines clearingId accountId amount currency = settledPair clearingId accountId
      (LedgerEntry.credit accountId amount currency).stored currency := by
  have hneg := stored_debit clearingId accountId amount currency
  simp only [fundLines, List.map_cons, List.map_nil, PostingLine.store, hneg]
  rfl

/-- So does a fund of whole cents. -/
theorem OperatorFund.vouched {number : String} {amount : Decimal} (hk : b.Keyed s)
    (hk' : b'.Keyed s') (h : b.Vouched) (hexact : b.ExactFund number amount)
    (hf : OperatorFund b number amount b') : b'.Vouched := by
  have hids := hk'.transactionIds
  obtain ⟨account, clearing, b₁, t, es, ha, hnumber, howner, -, hopened, hstored, htype, hdetails,
    hsettled, hcurrency, hposted⟩ := hf
  obtain ⟨hrow, hentry⟩ := hexact account ha hnumber
  obtain ⟨hot, hoe, -⟩ := hopened.rest
  have htx : ((b₁.addTransaction t).addEntries es).transactions = b.transactions ++ [t] :=
    congrArg (· ++ [t]) hot
  rw [htx] at hids
  refine h.opened hk (fun a ha => hopened.subset ha) (fresh_of_nodup hids) htx
    (congrArg (· ++ es) hoe) hposted.transaction ?_
  rw [hposted.lines, fundLines_eq, stored_credit_eq hstored (hrow _ hstored) hentry, ← hcurrency]
  exact .fund account clearing htype hdetails (.inl hsettled) (hopened.subset ha) hopened.mem
    howner

/-- A fund is one more transaction that has been carried out. -/
theorem OperatorFund.progress {number : String} {amount : Decimal} (hk' : b'.Keyed s')
    (hf : OperatorFund b number amount b') : Progress b b' := by
  have hids := hk'.transactionIds
  obtain ⟨account, clearing, b₁, t, es, -, -, -, -, hopened, -, htype, -, hsettled, -, hposted⟩ :=
    hf
  obtain ⟨hot, hoe, -⟩ := hopened.rest
  have htx : ((b₁.addTransaction t).addEntries es).transactions = b.transactions ++ [t] :=
    congrArg (· ++ [t]) hot
  rw [htx] at hids
  refine .opened t es (fresh_of_nodup hids) (.inr hsettled) (by simp [htype]) htx
    (congrArg (· ++ es) hoe) hposted.transaction (.settled (by simp [htype]) ?_)
  rw [fundLines_eq] at hposted
  exact hposted.status (by simp)

/-! ## Wherever processes are killed -/

theorem LedgerStep.progress (h : LedgerStep cfg F b b') (hk : b.Keyed s) (hk' : b'.Keyed s')
    (hl : b.Linked) : Progress b b' := by
  cases h with
  | service op _ he => exact he.progress hk hk' hl
  | fund number amount _ _ he => exact he.progress hk'

theorem LedgerStep.vouched (h : LedgerStep cfg Books.ExactFund b b') (hk : b.Keyed s)
    (hk' : b'.Keyed s') (hl : b.Linked) (hr : b.Reservations) (hv : b.Vouched) : b'.Vouched := by
  cases h with
  | service op _ he => exact he.vouched hk hk' hl hr hv
  | fund number amount _ hexact he => exact he.vouched hk hk' hv hexact

/-- What is on record between two processes. -/
structure Books.Recorded (b : Books) : Prop where
  upright : b.Upright
  reservations : b.Reservations
  reversals : b.ReversalsExact
  vouched : b.Vouched

theorem Books.recorded_empty : Store.empty.db.books.Recorded where
  upright := ⟨Store.sound_empty.linked, Store.sound_empty.balanced, Store.sound_empty.cursors⟩
  reservations := by constructor <;> simp [Store.empty, Database.empty]
  reversals := by constructor <;> simp [Store.empty, Database.empty]
  vouched := by simp [Books.Vouched, Store.empty, Database.empty]

/-- Every movement keeps the records. -/
theorem LedgerStep.recorded (h : LedgerStep cfg Books.ExactFund b b') (hk : b.Keyed s)
    (hk' : b'.Keyed s') (hb : b.Recorded) : b'.Recorded := by
  have hprogress := h.progress hk hk' hb.upright.linked
  exact { upright := h.upright hk (fun _ _ _ hx => hx) hb.upright
          reservations := hprogress.reservations hk hb.reservations
          reversals := hprogress.reversalsExact hk hb.reversals
          vouched := h.vouched hk hk' hb.upright.linked hb.reservations hb.vouched }

/-- Any number of them. -/
theorem LedgerSteps.recorded (h : LedgerSteps cfg Books.ExactFund b b')
    (hk : ∃ s : Sequences, b.Keyed s) (hb : b.Recorded) : b'.Recorded :=
  h.invariant hk hb fun _ _ _ _ hk hk' hstep hb => hstep.recorded hk hk' hb

/-- Every store whose processes have been killed anywhere is on record. -/
theorem recorded_of_crashes {st : Store}
    (h : Run (crash cfg web pay) Entry.Exact Store.empty st) :
    st.db.books.Recorded ∧ st.Restartable cfg := by
  obtain ⟨hsteps, hs⟩ := ledger_of_crashes Store.restartable_empty h
  exact ⟨hsteps.recorded ⟨_, Store.sound_empty.keyed⟩ Books.recorded_empty, hs⟩

end WalletLedger
