import WalletLedger.Api.Accounts
import WalletLedger.Api.Errors
import WalletLedger.Api.Webhooks
import WalletLedger.Application.Seeds
import WalletLedger.Operations.Operation

/-!
# The application

Everything the outside can ask of the application that goes through its database: the requests
to its endpoints and the commands of its operator, as `create_app` wires them.

* `Entry` — the entry points, with what they are given; `Entry.program` — what they run.
* `httpStatus` — the status a client receives, error handlers included.
* `HttpRequest.operation` — the service operation that a request to a decorated endpoint asks
  for.
-/

namespace WalletLedger

/-- What can be asked of the application. -/
inductive Entry where
  | post (r : HttpRequest)
  | createAccount (json : Option PyJson)
  | getAccount (number : String)
  | accountBalance (number : String)
  | webhook (r : WebhookRequest)
  | fund (number : String) (amount : Decimal)
  | seed

/-- The response of a webhook. -/
def WebhookResponse.response : WebhookResponse → Response
  | .ignored => ⟨200, [("status", .text "ignored")]⟩
  | .settled transactionId status =>
      ⟨200, [("transaction_id", .id transactionId), ("status", .text status.value)]⟩

/-- What an entry point runs; the commands of the operator respond to nobody. -/
def Entry.program (cfg : Config) (web : Web) (pay : Payments) : Entry → App (Option Response)
  | post r => some <$> r.handle cfg web
  | createAccount json => some <$> WalletLedger.createAccount json
  | getAccount number => some <$> WalletLedger.getAccount number
  | accountBalance number => some <$> WalletLedger.accountBalance number
  | webhook r => (fun response => some response.response) <$> r.process cfg pay
  | fund number amount => (fun _ => none) <$> Seeds.fundAccount number amount
  | seed => (fun _ => none) <$> Seeds.seed cfg

/-- The status of what a view returns or raises: the handlers of `register_error_handlers`, and
500 for what none of them handles. -/
def httpStatus : Except Exn Response → ℕ
  | .ok response => response.status
  | .error (.domain e) => e.status
  | .error .validationError => 400
  | .error _ => 500

/-- What the handlers answer to is an error. -/
theorem httpStatus_error (e : Exn) : 400 ≤ httpStatus (.error e) := by
  cases e with
  | domain e => exact e.status_client.1
  | validationError => exact le_rfl
  | _ => exact (by decide : 400 ≤ 500)

/-! ## The operation a request asks for -/

/-- The account with a number. -/
def Books.numbered (b : Books) (number : String) : Option Account :=
  b.accounts.find? fun a => a.number = number

/-- The operation that a request to a decorated endpoint asks for, on these books; none where
its body is refused or names no account. -/
def HttpRequest.operation (web : Web) (b : Books) (r : HttpRequest) : Option Operation :=
  match r.endpoint with
  | .executeTransfer => do
      let data ← web.transferSchema r.body
      let sender ← b.numbered data.senderAccountNumber
      let receiver ← b.numbered data.receiverAccountNumber
      return .execute sender.id receiver.id data.amount r.correlationId
  | .initiateTransfer => do
      let data ← web.transferSchema r.body
      let sender ← b.numbered data.senderAccountNumber
      let receiver ← b.numbered data.receiverAccountNumber
      return .initiate sender.id receiver.id data.amount r.correlationId
  | .commitTransfer transactionId => some (.commit transactionId)
  | .failTransfer transactionId => some (.fail transactionId)
  | .reverseTransaction transactionId => some (.reverse transactionId r.correlationId)
  | .createDeposit => do
      let data ← web.depositSchema r.body
      let account ← b.numbered data.accountNumber
      return .initiateDeposit account.id data.amount data.provider data.context r.correlationId
  | .fxTransfer => do
      let data ← web.transferSchema r.body
      let sender ← b.numbered data.senderAccountNumber
      let receiver ← b.numbered data.receiverAccountNumber
      return .executeFxTransfer r.rates sender.id receiver.id data.amount r.correlationId

end WalletLedger
