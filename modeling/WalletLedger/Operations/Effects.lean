import WalletLedger.Operations.Services
import WalletLedger.Operations.Operation

/-!
# What an operation can do to the books

`Effect cfg b op b'` says everything a successful operation does to the books: what it
has checked, the rows it adds and the statuses it changes.  It is the abstract
transition relation of the ledger; `Operation.run_effect` connects it to the code:
an operation either leaves the books as they are or has its effect on them.
-/

namespace WalletLedger

/-! ## The checks -/

/-- What has been checked before an amount leaves an account. -/
structure DebitCheck (b : Books) (senderId receiverId : Id) (amount : Decimal) where
  sender : Account
  receiver : Account
  money : Money
  available : Money
  sender_mem : sender ∈ b.accounts
  sender_id : sender.id = senderId
  receiver_mem : receiver ∈ b.accounts
  receiver_id : receiver.id = receiverId
  money_eq : Money.make amount sender.currency = .ok money
  positive : 0 < money.amount
  available_eq : b.availableBalance sender = .ok available
  covered : money.amount ≤ available.amount

/-- A transfer stays within one currency. -/
structure TransferCheck (b : Books) (senderId receiverId : Id) (amount : Decimal) extends
    DebitCheck b senderId receiverId amount where
  currency : sender.currency = receiver.currency

/-- The row of a new transaction. -/
structure Transaction.Records (t : Transaction) (type : TransactionType)
    (status : TransactionStatus) (amount : Decimal) (currency : String) (details : Details) :
    Prop where
  type : t.type = type
  status : t.status = status
  amount : t.amount = amount
  currency : t.currency = currency
  details : t.details = details

/-- A settled line on an account. -/
abbrev debitLine (accountId : Id) (m : Money) : PostingLine :=
  ⟨accountId, -|m.amount|, .debit, m.currency, .success⟩

abbrev creditLine (accountId : Id) (m : Money) : PostingLine :=
  ⟨accountId, |m.amount|, .credit, m.currency, .success⟩

/-- The mirror of an entry. -/
def MirrorLine (e : LedgerEntry) (line : PostingLine) : Prop :=
  ∃ m, Money.make |e.amount| e.currency = .ok m ∧
    line = if e.entryType = .debit then creditLine e.accountId m else debitLine e.accountId m

theorem MirrorLine.account {e : LedgerEntry} {line : PostingLine} (h : MirrorLine e line) :
    line.accountId = e.accountId := by
  obtain ⟨m, -, rfl⟩ := h
  split <;> rfl

theorem exists_of_mirrored {es : List LedgerEntry} {lines : List PostingLine}
    (h : List.Forall₂ MirrorLine es lines) {line : PostingLine} (hl : line ∈ lines) :
    ∃ e ∈ es, MirrorLine e line := by
  induction h with
  | nil => cases hl
  | cons h _ ih =>
    rcases List.mem_cons.1 hl with rfl | hl
    · exact ⟨_, List.mem_cons_self, h⟩
    · obtain ⟨e, he, hm⟩ := ih hl
      exact ⟨e, List.mem_cons_of_mem _ he, hm⟩

namespace Books

def addTransaction (b : Books) (t : Transaction) : Books :=
  { b with transactions := b.transactions ++ [t] }

def addEntries (b : Books) (es : List LedgerEntry) : Books := { b with entries := b.entries ++ es }

def setTransaction (b : Books) (id : Id) (status : TransactionStatus) : Books :=
  (Write.setTransactionStatus id status).applyBooks b

def setEntry (b : Books) (id : Id) (status : EntryStatus) : Books :=
  (Write.setEntryStatus id status).applyBooks b

end Books

/-! ## The effects -/

/-- The effect of a successful operation on the books. -/
inductive Effect (cfg : Config) (b : Books) : Operation → Books → Prop
  | createAccount {ownerId currency : String} (a : Account)
      (owner : a.ownerId = ownerId) (code : a.currency = currency.toUpper)
      (new : ∀ x ∈ b.accounts, ¬ (x.ownerId = ownerId ∧ x.currency = currency.toUpper)) :
      Effect cfg b (.createAccount ownerId currency) { b with accounts := b.accounts ++ [a] }
  | initiateDeposit {accountId : Id} {amount : Decimal} {provider : String}
      {context : DepositContext} {correlationId : Option String} (account : Account)
      (money : Money) (t : Transaction) (reference : String)
      (account_mem : account ∈ b.accounts) (account_id : account.id = accountId)
      (money_eq : Money.make amount account.currency = .ok money) (positive : 0 < money.amount)
      (records : t.Records .deposit .pending money.amount money.currency
        (.deposit provider account.id context))
      (charged : ∃ adapter, cfg.getPaymentProvider provider = .ok adapter ∧
        adapter.createDeposit money.amount money.currency t.id.text context = .ok reference) :
      Effect cfg b (.initiateDeposit accountId amount provider context correlationId)
        ((Write.setReference t.id reference).applyBooks (b.addTransaction t))
  | settle {reference : String} {confirmedAmount : Option Decimal}
      {confirmedCurrency : Option String} (t : Transaction) (authorized : Money)
      (account clearing : Account) (b₁ b' : Books) (es : List LedgerEntry)
      (found : b.transactions.find? (fun t => t.reference = some reference) = some t)
      (pending : t.status = .pending)
      (authorized_eq : Money.make t.amount t.currency = .ok authorized)
      (reconciled :
        DepositService.reconcile t authorized confirmedAmount confirmedCurrency = .ok ())
      (account_id : t.details.accountId = .ok account.id) (account_mem : account ∈ b.accounts)
      (owner : clearing.ownerId = clearingOwner)
      (code : clearing.currency = account.currency.toUpper)
      (opened : Opened clearingOwner account.currency.toUpper b clearing b₁)
      (posted : Posted t.id [debitLine clearing.id authorized, creditLine account.id authorized] es)
      (cuts : Cuts cfg [account.id, clearing.id]
        ((b₁.addEntries es).setTransaction t.id .success) b') :
      Effect cfg b (.settle reference confirmedAmount confirmedCurrency) b'
  | execute {senderId receiverId : Id} {amount : Decimal} {correlationId : Option String}
      (k : TransferCheck b senderId receiverId amount) (t : Transaction) (es : List LedgerEntry)
      (b' : Books)
      (records : t.Records .transfer .success k.money.amount k.money.currency
        (.transfer k.sender.id k.receiver.id))
      (posted : Posted t.id [debitLine k.sender.id k.money, creditLine k.receiver.id k.money] es)
      (cuts : Cuts cfg [k.sender.id, k.receiver.id] ((b.addTransaction t).addEntries es) b') :
      Effect cfg b (.execute senderId receiverId amount correlationId) b'
  | initiate {senderId receiverId : Id} {amount : Decimal} {correlationId : Option String}
      (k : TransferCheck b senderId receiverId amount) (t : Transaction) (e : LedgerEntry)
      (records : t.Records .transfer .pending k.money.amount k.money.currency
        (.transfer k.sender.id k.receiver.id))
      (line : e.line = ⟨k.sender.id, -|k.money.amount|, .debit, k.money.currency, .pending⟩)
      (transaction : e.transactionId = t.id) :
      Effect cfg b (.initiate senderId receiverId amount correlationId)
        ((b.addTransaction t).addEntries [e])
  | commit {transactionId : Id} (t : Transaction) (money : Money) (debit credit : LedgerEntry)
      (sender receiver : Account) (b' : Books)
      (found : b.transactions.find? (fun t => t.id = transactionId) = some t)
      (pending : t.status = .pending) (money_eq : Money.make t.amount t.currency = .ok money)
      (approved : money.amount ≤ cfg.autoApprovalLimit)
      (reserved : b.entries.find?
        (fun e => e.isOf t.id .pending ∧ e.entryType = .debit) = some debit)
      (sender_mem : sender ∈ b.accounts) (sender_id : sender.id = debit.accountId)
      (receiver_id : t.details.receiverId = .ok receiver.id) (receiver_mem : receiver ∈ b.accounts)
      (line : credit.line = creditLine receiver.id money)
      (transaction : credit.transactionId = t.id)
      (balanced : LedgerService.assertBalanced
        [⟨debit.accountId, debit.amount, debit.entryType, debit.currency, .success⟩,
          creditLine receiver.id money] = .ok ())
      (cuts : Cuts cfg [sender.id, receiver.id]
        (((b.setEntry debit.id .success).addEntries [credit]).setTransaction t.id .success) b') :
      Effect cfg b (.commit transactionId) b'
  | fail {transactionId : Id} (t : Transaction)
      (found : b.transactions.find? (fun t => t.id = transactionId) = some t)
      (pending : t.status = .pending) :
      Effect cfg b (.fail transactionId)
        (((b.entries.filter (LedgerEntry.isOf t.id .pending)).foldl
          (fun b e => b.setEntry e.id .failed) b).setTransaction t.id .failed)
  | executeFxTransfer {rates : RateTable} {senderId receiverId : Id} {amount : Decimal}
      {correlationId : Option String} (k : DebitCheck b senderId receiverId amount)
      (received : Money) (poolFrom poolTo : Account) (b₁ b₂ b' : Books) (t : Transaction)
      (es : List LedgerEntry)
      (exchange : k.sender.currency ≠ k.receiver.currency)
      (received_eq : FxService.convert rates k.money k.receiver.currency = .ok received)
      (owner_from : poolFrom.ownerId = fxPoolOwner)
      (code_from : poolFrom.currency = k.sender.currency.toUpper)
      (opened_from : Opened fxPoolOwner k.sender.currency.toUpper b poolFrom b₁)
      (owner_to : poolTo.ownerId = fxPoolOwner)
      (code_to : poolTo.currency = k.receiver.currency.toUpper)
      (opened_to : Opened fxPoolOwner k.receiver.currency.toUpper b₁ poolTo b₂)
      (records : t.Records .fxTransfer .success k.money.amount k.money.currency
        (.fxTransfer k.sender.id k.receiver.id received.text received.currency))
      (posted : Posted t.id
        [debitLine k.sender.id k.money, creditLine poolFrom.id k.money,
          debitLine poolTo.id received, creditLine k.receiver.id received] es)
      (cuts : Cuts cfg [k.sender.id, k.receiver.id, poolFrom.id, poolTo.id]
        ((b₂.addTransaction t).addEntries es) b') :
      Effect cfg b (.executeFxTransfer rates senderId receiverId amount correlationId) b'
  | reverse {transactionId : Id} {correlationId : Option String} (t reversal : Transaction)
      (lines : List PostingLine) (es : List LedgerEntry) (b' : Books)
      (found : b.transactions.find? (fun t => t.id = transactionId) = some t)
      (success : t.status = .success) (original : t.type ≠ .reversal)
      (records : reversal.Records .reversal .success t.amount t.currency (.reversal t.id))
      (mirrored : List.Forall₂ MirrorLine (b.entries.filter (LedgerEntry.isOf t.id .success)) lines)
      (balanced : TransactionAggregate.assertBalanced ⟨t.currency, lines⟩ = .ok ())
      (posted : Posted reversal.id lines es)
      (cuts : Cuts cfg
        ((b.entries.filter (LedgerEntry.isOf t.id .success)).map LedgerEntry.accountId).dedup
        (((b.addTransaction reversal).addEntries es).setTransaction t.id .reversed) b') :
      Effect cfg b (.reverse transactionId correlationId) b'

end WalletLedger
