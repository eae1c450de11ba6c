import WalletLedger.Application.Ledger
import WalletLedger.Application.Notifications

/-!
# Transfers

`application/transfers.py`: the direct transfer, which writes debit and credit at
once, and the two-phase one, which reserves the funds with a lone pending debit and
settles or releases them later.
-/

namespace WalletLedger

namespace TransferService

/-- `_validate`. -/
def validate (sender receiver : Account) (amount : Decimal) : App Money := do
  raiseIf (sender.currency ≠ receiver.currency)
    (.domain (.currencyMismatch sender.currency receiver.currency))
  let money ← Program.ofExcept (Money.make amount sender.currency)
  raiseIf (¬ money.isPositive) (.domain .invalidAmount)
  return money

/-- `_ensure_funds`. -/
def ensureFunds (sender : Account) (money : Money) : App Unit := do
  let available ← LedgerService.availableBalance sender
  Program.ofExcept (AccountAggregate.ensureCanDebit money available)

/-- `_new_transaction`. -/
def newTransaction (type : TransactionType) (status : TransactionStatus) (money : Money)
    (sender receiver : Account) (correlationId : String) : App Transaction :=
  ask (.mutate (.insertTransaction type status money.amount money.currency
    (.transfer sender.id receiver.id) (some correlationId)))

/-- `_pending_transaction`: the status is read without a lock. -/
def pendingTransaction (transactionId : Id) : App Transaction := do
  let found ← ask (.select (.transaction transactionId))
  let txn ← ofOption (.domain (.transactionNotFound transactionId.text)) found
  raiseIf (txn.status ≠ .pending)
    (.domain (.invalidTransactionState txn.status "opération sur transaction non PENDING"))
  return txn

/-- `_publish`: the commit has expired the three objects, so building the payload
selects them again. -/
def publish (cfg : Config) (eventType : EventType) (txn : Transaction) (money : Money)
    (sender receiver : Account) : App Transaction := do
  let txn ← reloadTransaction txn.id
  let sender ← reloadAccount sender.id
  let receiver ← reloadAccount receiver.id
  EventBus.publish (subscribers cfg)
    { eventType := eventType
      payload :=
        { transactionId := txn.id
          senderId := some sender.id
          receiverId := some receiver.id
          amount := some money.text
          currency := some money.currency }
      correlationId := txn.correlationId }
  return txn

/-- `execute`: debit and credit in one database transaction. -/
def execute (cfg : Config) (senderId receiverId : Id) (amount : Decimal)
    (correlationId : Option String) : App Transaction := do
  let sender ← AccountService.lock senderId
  let receiver ← AccountService.get receiverId
  let money ← validate sender receiver amount
  ensureFunds sender money
  let correlationId ← correlationIdOr correlationId
  let txn ← newTransaction .transfer .success money sender receiver correlationId
  let transaction :=
    ((TransactionAggregate.new money.currency).debit sender.id money).credit receiver.id money
  LedgerService.post transaction txn.id
  LedgerService.maybeSnapshot cfg sender
  LedgerService.maybeSnapshot cfg receiver
  ask .commit
  publish cfg .transferCompleted txn money sender receiver

/-- `initiate`: reserve the funds with a pending debit; nothing is settled. -/
def initiate (cfg : Config) (senderId receiverId : Id) (amount : Decimal)
    (correlationId : Option String) : App Transaction := do
  let sender ← AccountService.lock senderId
  let receiver ← AccountService.get receiverId
  let money ← validate sender receiver amount
  ensureFunds sender money
  let correlationId ← correlationIdOr correlationId
  let txn ← newTransaction .transfer .pending money sender receiver correlationId
  ask (.mutate (.insertEntry sender.id txn.id (-|money.amount|) .debit .pending money.currency))
  ask .commit
  publish cfg .fundsReserved txn money sender receiver

/-- `commit`: after the risk check the debit is settled and the credit created. -/
def commit (cfg : Config) (transactionId : Id) : App Transaction := do
  let txn ← pendingTransaction transactionId
  let money ← Program.ofExcept (Money.make txn.amount txn.currency)
  RiskService.assess cfg money
  let found ← ask (.select (.entryOf txn.id .debit .pending))
  let debit ← ofOption
    (.domain (.invalidTransactionState txn.status "commit sans débit réservé")) found
  let sender ← AccountService.lock debit.accountId
  let receiverId ← Program.ofExcept txn.details.receiverId
  let receiver ← AccountService.get receiverId
  ask (.mutate (.updateEntryStatus debit.id .success))
  ask (.mutate (.insertEntry receiver.id txn.id |money.amount| .credit .success money.currency))
  Program.ofExcept (LedgerService.assertBalanced
    [⟨debit.accountId, debit.amount, debit.entryType, debit.currency, .success⟩,
      ⟨receiver.id, |money.amount|, .credit, money.currency, .success⟩])
  ask (.mutate (.updateTransactionStatus txn.id .success))
  LedgerService.maybeSnapshot cfg sender
  LedgerService.maybeSnapshot cfg receiver
  ask .commit
  publish cfg .transferCompleted txn money sender receiver

/-- `fail`: the pending entries become failed, which frees the funds. -/
def fail (cfg : Config) (transactionId : Id) : App Transaction := do
  let txn ← pendingTransaction transactionId
  let entries ← ask (.select (.entriesOf txn.id .pending))
  Program.forEach entries fun entry => ask (.mutate (.updateEntryStatus entry.id .failed))
  ask (.mutate (.updateTransactionStatus txn.id .failed))
  ask .commit
  let txn ← reloadTransaction txn.id
  EventBus.publish (subscribers cfg)
    { eventType := .transferFailed
      payload := { transactionId := txn.id }
      correlationId := txn.correlationId }
  return txn

end TransferService

end WalletLedger
