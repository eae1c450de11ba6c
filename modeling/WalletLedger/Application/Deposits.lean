import WalletLedger.Application.Ledger
import WalletLedger.Application.Notifications

/-!
# Deposits

`application/deposits.py`: a deposit records the authorised amount while it is
pending, and is settled by the provider's confirmation, which is reconciled with
that amount.
-/

namespace WalletLedger

namespace DepositService

/-- `initiate`: a pending deposit, and the provider asked to collect. -/
def initiate (cfg : Config) (accountId : Id) (amount : Decimal) (providerName : String)
    (context : DepositContext) (correlationId : Option String) : App Transaction := do
  let account ← AccountService.get accountId
  let money ← Program.ofExcept (Money.make amount account.currency)
  raiseIf (¬ money.isPositive) (.domain .invalidAmount)
  let correlationId ← correlationIdOr correlationId
  let txn ← ask (.mutate (.insertTransaction .deposit .pending money.amount money.currency
    (.deposit providerName account.id context) (some correlationId)))
  let provider ← Program.ofExcept (cfg.getPaymentProvider providerName)
  let reference ← Program.ofExcept
    (provider.createDeposit money.amount money.currency txn.id.text context)
  ask (.mutate (.updateReference txn.id reference))
  ask .commit
  return txn

/-- The confirmed amount and currency against the authorised ones. -/
def reconcile (txn : Transaction) (authorized : Money) (confirmedAmount : Option Decimal)
    (confirmedCurrency : Option String) : Except Exn Unit := do
  match confirmedCurrency with
  | some c =>
      if c.toUpper ≠ txn.currency then
        throw (.domain (.depositAmountMismatch authorized.amount (some txn.currency)
          confirmedAmount confirmedCurrency))
  | none => pure ()
  let confirmed ← match confirmedAmount with
    | none => pure authorized
    | some amount => Money.make amount txn.currency
  if confirmed ≠ authorized then
    throw (.domain (.depositAmountMismatch authorized.amount none (some confirmed.amount) none))

/-- `settle` from the row it has selected; `missing` is raised where there is none, and
`check` is the comparison with the authorised amount. -/
def settleFound (cfg : Config) (missing : Exn) (check : Transaction → Money → Except Exn Unit)
    (found : Option Transaction) : App Transaction := do
  let txn ← ofOption missing found
  raiseIf (txn.status ≠ .pending)
    (.domain (.invalidTransactionState txn.status "dépôt déjà traité"))
  let authorized ← Program.ofExcept (Money.make txn.amount txn.currency)
  Program.ofExcept (check txn authorized)
  let accountId ← Program.ofExcept txn.details.accountId
  let account ← AccountService.lock accountId
  let clearing ← AccountService.getOrCreateInternal clearingOwner account.currency
  let transaction :=
    ((TransactionAggregate.new authorized.currency).debit clearing.id authorized).credit
      account.id authorized
  LedgerService.post transaction txn.id
  ask (.mutate (.updateTransactionStatus txn.id .success))
  LedgerService.maybeSnapshot cfg account
  LedgerService.maybeSnapshot cfg clearing
  ask .commit
  -- the payload selects the expired transaction and account again
  let txn ← reloadTransaction txn.id
  let account ← reloadAccount account.id
  EventBus.publish (subscribers cfg)
    { eventType := .depositCompleted
      payload :=
        { transactionId := txn.id
          accountId := some account.id
          amount := some authorized.text
          currency := some authorized.currency }
      correlationId := txn.correlationId }
  return txn

/-- `settle`: the transaction's row is locked from the status check to the commit. -/
def settle (cfg : Config) (reference : String) (confirmedAmount : Option Decimal)
    (confirmedCurrency : Option String) : App Transaction := do
  let found ← ask (.select (.transactionForUpdate (some reference)))
  settleFound cfg (.domain (.transactionNotFound reference))
    (fun txn authorized => reconcile txn authorized confirmedAmount confirmedCurrency) found

end DepositService

end WalletLedger
