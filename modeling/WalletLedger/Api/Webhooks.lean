import WalletLedger.Application.Deposits
import WalletLedger.Infrastructure.Payments

/-!
# The webhook endpoints

`api/webhooks.py`: the confirmation of a payment by its provider.  The provider is chosen by
the request, its adapter verifies the signature and reads the callback, and a successful
callback settles the deposit its reference finds.

* `WebhookRequest.callback` — everything up to the ledger: the callback as it is verified and
  parsed.
* `WebhookRequest.process` — the request, from its headers and body to its response.
-/

namespace WalletLedger

/-- A request to one of the two endpoints. -/
structure WebhookRequest where
  /-- The provider in the path; `none` on `/payments/webhook`. -/
  path : Option String
  stripeSignature : Option String
  xSignature : Option String
  xProvider : Option String
  rawBody : Bytes
  /-- `request.get_json(silent=True)`: what the framework makes of the body, if it can. -/
  json : Option PyJson

namespace WebhookRequest

/-- `headers.get("Stripe-Signature") or headers.get("X-Signature", "")`. -/
def signature (r : WebhookRequest) : String :=
  match r.stripeSignature with
  | some signature => if signature = "" then r.xSignature.getD "" else signature
  | none => r.xSignature.getD ""

/-- `request.get_json(silent=True) or {}`. -/
def payload (r : WebhookRequest) : PyJson := (r.json.getD .null).orElse (.obj [])

/-- The provider that `payment_webhook_alias` finds in the header or the body. -/
def aliasProvider (r : WebhookRequest) : Except Exn PyJson :=
  if r.xProvider.getD "" = "" then r.payload.get "provider" else .ok (.str (r.xProvider.getD ""))

/-- The name of the provider the request is processed for. -/
def providerName (r : WebhookRequest) : Except Exn String :=
  match r.path with
  | some name => .ok name
  | none => do
      let provider ← r.aliasProvider
      if ¬ provider.truthy then
        throw (.domain (.unsupportedProvider "(absent du corps et de l'en-tête X-Provider)"))
      match provider with
      | .str name => return name
      | _ => throw .attributeError

/-- `_process` up to the ledger: the callback is parsed once its signature is verified. -/
def callback (pay : Payments) (r : WebhookRequest) : Except Exn CallbackResult := do
  let name ← r.providerName
  let adapter ← pay.getPaymentProvider name
  let verified ← adapter.verifyWebhook r.rawBody r.signature
  if ¬ verified then throw (.domain (.webhookVerification name))
  adapter.parseCallback r.payload

end WebhookRequest

/-! ## Settling what a callback says -/

/-- The value a reference is looked up by. -/
def PaymentServices.bound (services : PaymentServices) : PyJson → Except Exn (Option String)
  | .null => .ok none
  | .str reference => .ok (some reference)
  | value => some <$> services.varchar value

/-- The reference in a message. -/
def PaymentServices.referenceText (services : PaymentServices) : PyJson → String
  | .str reference => reference
  | value => services.text value

/-- `settle`'s comparison with the authorised amount and currency, on the values of a
callback: a currency that is no text has no `upper`, and a special value is no amount. -/
def CallbackResult.reconcile (result : CallbackResult) (txn : Transaction) (authorized : Money) :
    Except Exn Unit := do
  let currency ←
    match result.currency with
    | .null => pure none
    | .str c => pure (some c)
    | _ => throw .attributeError
  match result.amount with
  | none => DepositService.reconcile txn authorized none currency
  | some (.finite x) => DepositService.reconcile txn authorized (some x) currency
  | some v => do
      DepositService.reconcile txn authorized none currency
      if v = .nan then
        throw (.domain (.depositAmountMismatch authorized.amount none none none))
      else throw .invalidOperation

/-- `DepositService.settle` on the values of a callback. -/
def DepositService.settleCallback (cfg : Config) (services : PaymentServices)
    (result : CallbackResult) : App Transaction := do
  let reference ← Program.ofExcept (services.bound result.reference)
  let found ← ask (.select (.transactionForUpdate reference))
  settleFound cfg (.domain (.transactionNotFound (services.referenceText result.reference)))
    result.reconcile found

/-! ## Responses -/

inductive WebhookResponse where
  | ignored
  | settled (transactionId : Id) (status : TransactionStatus)
  deriving DecidableEq

/-- `_process`; the response selects the expired transaction again. -/
def WebhookRequest.process (cfg : Config) (pay : Payments) (r : WebhookRequest) :
    App WebhookResponse := do
  let result ← Program.ofExcept (r.callback pay)
  if ¬ result.isSuccess then
    -- a failure or a cancellation: nothing to credit
    return .ignored
  else do
    let txn ← DepositService.settleCallback cfg pay.services result
    let txn ← reloadTransaction txn.id
    return .settled txn.id txn.status

end WalletLedger
