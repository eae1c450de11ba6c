import WalletLedger.Api.Endpoints
import WalletLedger.Application.BalanceQuery
import WalletLedger.Infrastructure.Payments

/-!
# The account endpoints

`api/accounts.py`: accounts are opened, looked up, and read.  None of these endpoints is
decorated, and none but the first writes to the database.  When an object was created is left
out of its responses.

* `CreateAccountSchema.load` — the body that opens an account.
* `createAccount`, `getAccount`, `accountBalance` — the views; the history of an account is in
  `Api/History.lean`.
-/

namespace WalletLedger

/-- The body that opens an account. -/
structure AccountBody where
  ownerId : String
  currency : String
  deriving DecidableEq

/-- `fields.String(required=True)`. -/
def requiredString (fields : List (String × PyJson)) (name : String) : Option String :=
  match fields.lookup name with
  | some (.str s) => some s
  | _ => none

/-- `CreateAccountSchema().load`: a field that the schema does not know is refused. -/
def CreateAccountSchema.load : PyJson → Option AccountBody
  | .obj fields => do
      let ownerId ← requiredString fields "owner_id"
      let currency ← requiredString fields "currency"
      if 1 ≤ ownerId.length ∧ currency.length = 3 ∧
          fields.all (fun field => field.1 ∈ ["owner_id", "currency"]) then
        some ⟨ownerId, currency⟩
      else none
  | _ => none

/-- `request.get_json(silent=True) or {}`. -/
def jsonPayload (json : Option PyJson) : PyJson := (json.getD .null).orElse (.obj [])

/-- `serialize_account`. -/
def serializeAccount (account : Account) : Json :=
  [("id", .id account.id), ("number", .text account.number), ("owner_id", .text account.ownerId),
    ("currency", .text account.currency)]

/-- `serialize_balance`. -/
def serializeBalance (account : Account) (balance : Money) : Json :=
  [("account_number", .text account.number), ("balance", .text balance.text),
    ("currency", .text balance.currency)]

/-- `POST /accounts`; the response selects the expired account again. -/
def createAccount (json : Option PyJson) : App Response := do
  let data ← ofOption .validationError (CreateAccountSchema.load (jsonPayload json))
  let account ← AccountService.create data.ownerId data.currency
  let account ← reloadAccount account.id
  return ⟨201, serializeAccount account⟩

/-- `GET /accounts/<number>`. -/
def getAccount (number : String) : App Response := do
  let account ← AccountService.getByNumber number
  return ⟨200, serializeAccount account⟩

/-- `GET /accounts/<number>/balance`. -/
def accountBalance (number : String) : App Response := do
  let account ← AccountService.getByNumber number
  let balance ← BalanceQuery.get account
  return ⟨200, serializeBalance account balance⟩

end WalletLedger
