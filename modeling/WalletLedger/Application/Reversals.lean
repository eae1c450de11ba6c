import WalletLedger.Application.Ledger

/-!
# Reversals

`application/reversals.py`: a finished transaction is never undone; a compensating
transaction whose entries mirror the original ones is recorded instead.
-/

namespace WalletLedger

namespace ReversalService

/-- The mirror of each entry: a debit becomes a credit and a credit a debit. -/
def mirror (currency : String) (entries : List LedgerEntry) : Except Exn TransactionAggregate :=
  entries.foldlM
    (fun transaction entry => do
      let money ← Money.make |entry.amount| entry.currency
      return if entry.entryType = .debit then transaction.credit entry.accountId money
        else transaction.debit entry.accountId money)
    (TransactionAggregate.new currency)

/-- `reverse`: the status is read, then the accounts are locked in order. -/
def reverse (cfg : Config) (transactionId : Id) (correlationId : Option String) :
    App Transaction := do
  let found ← ask (.select (.transaction transactionId))
  let txn ← ofOption (.domain (.transactionNotFound transactionId.text)) found
  raiseIf (txn.status ≠ .success)
    (.domain (.invalidTransactionState txn.status "annulation d'une transaction non SUCCESS"))
  raiseIf (txn.type = .reversal)
    (.domain (.invalidTransactionState txn.status "annulation d'une transaction d'annulation"))
  let originalEntries ← ask (.select (.entriesOf txn.id .success))
  let accountIds := (originalEntries.map LedgerEntry.accountId).dedup
  Program.forEach (accountIds.insertionSort (· ≤ ·)) fun accountId => do
    let _ ← AccountService.lock accountId
    return ()
  let correlationId ← correlationIdOr correlationId
  let reversal ← ask (.mutate (.insertTransaction .reversal .success txn.amount txn.currency
    (.reversal txn.id) (some correlationId)))
  let mirrored ← Program.ofExcept (mirror txn.currency originalEntries)
  LedgerService.post mirrored reversal.id
  ask (.mutate (.updateTransactionStatus txn.id .reversed))
  Program.forEach accountIds fun accountId => do
    let account ← AccountService.get accountId
    LedgerService.maybeSnapshot cfg account
  ask .commit
  return reversal

end ReversalService

end WalletLedger
