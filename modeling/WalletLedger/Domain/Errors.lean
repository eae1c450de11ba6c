import WalletLedger.Lib.Decimal

/-!
# States, kinds and errors of the domain

The enumerations of `domain/enums.py`, the business errors of `domain/errors.py`,
and the other exceptions the code can meet: what the database driver, the decimal
context and the language raise.  An error keeps the values its message is built
from.
-/

namespace WalletLedger

/-- The side of an entry. -/
inductive EntryType where
  | debit
  | credit
  deriving DecidableEq, Repr

/-- A reserved entry (`pending`) weighs on the available amount, not on the
settled one. -/
inductive EntryStatus where
  | pending
  | success
  | failed
  deriving DecidableEq, Repr

inductive TransactionType where
  | deposit
  | transfer
  | fxTransfer
  | reversal
  deriving DecidableEq, Repr

/-- `pending` to `success` or `failed`, then `success` to `reversed`. -/
inductive TransactionStatus where
  | pending
  | success
  | failed
  | reversed
  deriving DecidableEq, Repr

/-- Primary keys: the values of `uuid4()`, here numbered in the order they are
drawn. -/
abbrev Id := ℕ

/-- The business errors. -/
inductive DomainError where
  | accountNotFound (identifier : String)
  | duplicateAccount (ownerId currency : String)
  | insufficientFunds (available requested : Decimal)
  | invalidAmount
  | currencyMismatch (expected actual : String)
  | sameCurrency (currency : String)
  | unknownCurrency (currency : String)
  | transactionNotFound (transactionId : String)
  | invalidTransactionState (current : TransactionStatus) (attempted : String)
  | ledgerNotBalanced (currency : String) (total : Decimal)
  | depositAmountMismatch (authorized : Decimal) (authorizedCurrency : Option String)
      (confirmed : Option Decimal) (confirmedCurrency : Option String)
  | webhookVerification (provider : String)
  | unsupportedProvider (provider : String)
  | riskRejected (amount : Decimal) (currency : String)
  deriving DecidableEq

/-- The `code` attribute of a business error. -/
def DomainError.code : DomainError → String
  | .accountNotFound _ => "ACCOUNT_NOT_FOUND"
  | .duplicateAccount _ _ => "DUPLICATE_ACCOUNT"
  | .insufficientFunds _ _ => "INSUFFICIENT_FUNDS"
  | .invalidAmount => "INVALID_AMOUNT"
  | .currencyMismatch _ _ => "CURRENCY_MISMATCH"
  | .sameCurrency _ => "SAME_CURRENCY"
  | .unknownCurrency _ => "UNKNOWN_CURRENCY"
  | .transactionNotFound _ => "TRANSACTION_NOT_FOUND"
  | .invalidTransactionState _ _ => "INVALID_TRANSACTION_STATE"
  | .ledgerNotBalanced _ _ => "LEDGER_NOT_BALANCED"
  | .depositAmountMismatch _ _ _ _ => "DEPOSIT_AMOUNT_MISMATCH"
  | .webhookVerification _ => "WEBHOOK_VERIFICATION_FAILED"
  | .unsupportedProvider _ => "UNSUPPORTED_PROVIDER"
  | .riskRejected _ _ => "RISK_REJECTED"

/-- What a statement, a `COMMIT` or another service call can fail with. -/
inductive ServiceError where
  /-- `IntegrityError`: a unique or foreign-key constraint refused the row. -/
  | integrity
  /-- `DataError`: a value does not fit its column. -/
  | data
  /-- `OperationalError`: the statement did not go through. -/
  | operational
  /-- `StaleDataError`: the row to update is gone. -/
  | staleData
  /-- `PendingRollbackError`: the transaction has failed and must be rolled back. -/
  | pendingRollback
  deriving DecidableEq, Repr

/-- Everything the code may raise. -/
inductive Exn where
  | domain (e : DomainError)
  | service (e : ServiceError)
  /-- `decimal.InvalidOperation`. -/
  | invalidOperation
  /-- `decimal.DivisionByZero`. -/
  | divisionByZero
  /-- `KeyError` on a dictionary key. -/
  | keyError (key : String)
  /-- `IndexError` on an empty list. -/
  | indexError
  /-- `AttributeError` on a value of another type. -/
  | attributeError
  | typeError
  | valueError
  /-- `ObjectDeletedError`: the row of an expired object is gone. -/
  | objectDeleted
  /-- `marshmallow.ValidationError`. -/
  | validationError
  /-- A payment provider's HTTP call failed. -/
  | httpError
  deriving DecidableEq

end WalletLedger
