import WalletLedger.Application.Transfers
import WalletLedger.Application.Deposits
import WalletLedger.Application.Fx
import WalletLedger.Application.Reversals
import WalletLedger.Infrastructure.Idempotency

/-!
# The POST endpoints

The decorated views of `api/transfers.py`, `api/deposits.py`, `api/fx.py` and
`api/transactions.py`, and the serialisation of a transaction.  A body that its
schema refuses is `none`.  The request's correlation identifier is an argument.

* `Endpoint` — the decorated endpoints, with their path parameters.
* `HttpRequest.handle` — a request to one of them, from its raw body to its response.
-/

namespace WalletLedger

/-- The `value` of an enumeration. -/
def TransactionType.value : TransactionType → String
  | .deposit => "DEPOSIT"
  | .transfer => "TRANSFER"
  | .fxTransfer => "FX_TRANSFER"
  | .reversal => "REVERSAL"

def TransactionStatus.value : TransactionStatus → String
  | .pending => "PENDING"
  | .success => "SUCCESS"
  | .failed => "FAILED"
  | .reversed => "REVERSED"

/-- `serialize_transaction`; a stored amount has the scale of its column. -/
def serializeTransaction (transaction : Transaction) : Json :=
  [("transaction_id", .id transaction.id),
    ("type", .text transaction.type.value),
    ("status", .text transaction.status.value),
    ("amount", .text (Decimal.text 8 transaction.amount)),
    ("currency", .text transaction.currency),
    ("correlation_id", transaction.correlationId.elim .null .text)]

/-- The body of a transfer. -/
structure TransferBody where
  senderAccountNumber : String
  receiverAccountNumber : String
  amount : Decimal
  deriving DecidableEq

/-- The body of a deposit. -/
structure DepositBody where
  accountNumber : String
  amount : Decimal
  provider : String
  context : DepositContext
  deriving DecidableEq

/-- `_resolve_pair`. -/
def resolvePair (data : TransferBody) : App (Id × Id) := do
  let sender ← AccountService.getByNumber data.senderAccountNumber
  let receiver ← AccountService.getByNumber data.receiverAccountNumber
  return (sender.id, receiver.id)

/-- The transaction as it reads after a commit has expired it. -/
def serializeExpired (txn : Transaction) : App Json := do
  let txn ← reloadTransaction txn.id
  return serializeTransaction txn

/-- `POST /transfers`. -/
def executeTransfer (cfg : Config) (correlationId : Option String) (data : Option TransferBody) :
    App Response := do
  let data ← ofOption .validationError data
  let (senderId, receiverId) ← resolvePair data
  let txn ← TransferService.execute cfg senderId receiverId data.amount correlationId
  let body ← serializeExpired txn
  return ⟨201, body⟩

/-- `POST /transfers/initiate`. -/
def initiateTransfer (cfg : Config) (correlationId : Option String) (data : Option TransferBody) :
    App Response := do
  let data ← ofOption .validationError data
  let (senderId, receiverId) ← resolvePair data
  let txn ← TransferService.initiate cfg senderId receiverId data.amount correlationId
  return ⟨201, serializeTransaction txn⟩

/-- `POST /transfers/<transaction_id>/commit`. -/
def commitTransfer (cfg : Config) (transactionId : Id) : App Response := do
  let txn ← TransferService.commit cfg transactionId
  let body ← serializeExpired txn
  return ⟨200, body⟩

/-- `POST /transfers/<transaction_id>/fail`. -/
def failTransfer (cfg : Config) (transactionId : Id) : App Response := do
  let txn ← TransferService.fail cfg transactionId
  return ⟨200, serializeTransaction txn⟩

/-- `POST /transactions/<transaction_id>/reverse`. -/
def reverseTransaction (cfg : Config) (correlationId : Option String) (transactionId : Id) :
    App Response := do
  let reversal ← ReversalService.reverse cfg transactionId correlationId
  let body ← serializeExpired reversal
  return ⟨201, body⟩

/-- `POST /deposits`. -/
def createDeposit (cfg : Config) (correlationId : Option String) (data : Option DepositBody) :
    App Response := do
  let data ← ofOption .validationError data
  let account ← AccountService.getByNumber data.accountNumber
  let txn ← DepositService.initiate cfg account.id data.amount data.provider data.context
    correlationId
  let body ← serializeExpired txn
  return ⟨201, body⟩

/-- `POST /fx/transfer`. -/
def fxTransfer (cfg : Config) (rates : RateTable) (correlationId : Option String)
    (data : Option TransferBody) : App Response := do
  let data ← ofOption .validationError data
  let sender ← AccountService.getByNumber data.senderAccountNumber
  let receiver ← AccountService.getByNumber data.receiverAccountNumber
  let txn ← FxService.executeFxTransfer cfg rates sender.id receiver.id data.amount correlationId
  let body ← serializeExpired txn
  return ⟨201, body⟩

/-! ## Requests -/

/-- The decorated endpoints, with their path parameters. -/
inductive Endpoint where
  | executeTransfer
  | initiateTransfer
  | commitTransfer (transactionId : Id)
  | failTransfer (transactionId : Id)
  | reverseTransaction (transactionId : Id)
  | createDeposit
  | fxTransfer
  deriving DecidableEq

/-- What the libraries do with a raw body: the schemas load it, and SHA-256 digests it. -/
structure Web where
  transferSchema : String → Option TransferBody
  depositSchema : String → Option DepositBody
  sha256 : String → String

/-- A request: its endpoint, its body, the key in its header, and what the application
knows when it handles it. -/
structure HttpRequest where
  endpoint : Endpoint
  body : String
  key : Option String
  correlationId : Option String
  rates : RateTable

/-- The view of the endpoint. -/
def HttpRequest.view (cfg : Config) (web : Web) (r : HttpRequest) : App Response :=
  match r.endpoint with
  | .executeTransfer => executeTransfer cfg r.correlationId (web.transferSchema r.body)
  | .initiateTransfer => initiateTransfer cfg r.correlationId (web.transferSchema r.body)
  | .commitTransfer transactionId => commitTransfer cfg transactionId
  | .failTransfer transactionId => failTransfer cfg transactionId
  | .reverseTransaction transactionId => reverseTransaction cfg r.correlationId transactionId
  | .createDeposit => createDeposit cfg r.correlationId (web.depositSchema r.body)
  | .fxTransfer => fxTransfer cfg r.rates r.correlationId (web.transferSchema r.body)

/-- `_request_hash`. -/
def HttpRequest.requestHash (web : Web) (r : HttpRequest) : String := web.sha256 r.body

/-- The decorated view. -/
def HttpRequest.handle (cfg : Config) (web : Web) (r : HttpRequest) : App Response :=
  idempotent r.key (r.requestHash web) (r.view cfg web)

end WalletLedger
