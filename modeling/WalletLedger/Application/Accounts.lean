import WalletLedger.Domain.Events

/-!
# Accounts

`application/accounts.py`: creation, lookup and locking of accounts.
-/

namespace WalletLedger

namespace AccountService

/-- `create`: the unique constraint on owner and currency refuses a duplicate. -/
def create (ownerId currency : String) : App Account :=
  Program.attempt
    (do
      let account ← ask (.mutate (.insertAccount ownerId currency.toUpper))
      ask .commit
      return account)
    fun e =>
      match e with
      | .service .integrity => do
          ask .rollback
          .raise (.domain (.duplicateAccount ownerId currency))
      | e => .raise e

def get (accountId : Id) : App Account := do
  let account ← ask (.select (.account accountId))
  ofOption (.domain (.accountNotFound accountId.text)) account

def getByNumber (number : String) : App Account := do
  let account ← ask (.select (.accountByNumber number))
  ofOption (.domain (.accountNotFound number)) account

/-- `lock`: the row is read `FOR UPDATE`. -/
def lock (accountId : Id) : App Account := do
  let account ← ask (.select (.accountForUpdate accountId))
  ofOption (.domain (.accountNotFound accountId.text)) account

/-- `get_or_create_internal`: the clearing and pool accounts, created on demand. -/
def getOrCreateInternal (ownerId currency : String) : App Account := do
  let account ← ask (.select (.accountByOwner ownerId currency.toUpper))
  match account with
  | some account => return account
  | none => ask (.mutate (.insertAccount ownerId currency.toUpper))

end AccountService

/-- The owner of the clearing account, the counterpart of every deposit. -/
def clearingOwner : String := "PLATFORM_CLEARING"

/-- The owner of the exchange pools. -/
def fxPoolOwner : String := "FX_POOL"

/-- Reading an expired transaction selects it again. -/
def reloadTransaction (id : Id) : App Transaction := do
  let txn ← ask (.select (.transaction id))
  ofOption .objectDeleted txn

/-- Reading an expired account selects it again. -/
def reloadAccount (id : Id) : App Account := do
  let account ← ask (.select (.account id))
  ofOption .objectDeleted account

/-- `correlation_id or str(uuid.uuid4())`. -/
def correlationIdOr (correlationId : Option String) : App String :=
  match correlationId with
  | some c => if c = "" then Id.text <$> ask .uuid4 else return c
  | none => Id.text <$> ask .uuid4

end WalletLedger
