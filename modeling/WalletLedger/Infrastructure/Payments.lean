import WalletLedger.Models.Statements
import WalletLedger.Lib.DecimalText

/-!
# Payment providers

The adapters of `infrastructure/payments/*.py` and their factory.  An adapter asks its
provider to collect a deposit, verifies the signature of a webhook, and reads the callback
the webhook carries.  A callback is a JSON document, read with Python's own operations on
dictionaries, truth values and decimals.

The signature function and the providers' HTTP interfaces are parameters.  Addresses,
tokens and timeouts of the calls are left out, and so are the exponents a decimal cannot have.

* `PyJson` — a document, with `truthy`, `get` and `toDecimal`.
* `StripeProvider`, `PawaPayProvider`, `PayPalProvider` — the three adapters.
* `Payments.getPaymentProvider` — the factory.
-/

namespace WalletLedger

/-! ## Documents -/

/-- A JSON document as `json.loads` returns it.  A dictionary is its list of fields; a float
is its exact value. -/
inductive PyJson where
  | null
  | bool (b : Bool)
  | int (n : ℤ)
  | float (x : DecimalValue)
  | str (s : String)
  | arr (items : List PyJson)
  | obj (fields : List (String × PyJson))

namespace PyJson

/-- `bool(value)`. -/
def truthy : PyJson → Bool
  | null => false
  | bool b => b
  | int n => n ≠ 0
  | float x => x ≠ .finite 0
  | str s => s ≠ ""
  | arr items => ¬ items.isEmpty
  | obj fields => ¬ fields.isEmpty

/-- `value or other`. -/
def orElse (value other : PyJson) : PyJson := if value.truthy then value else other

/-- `value.get(key, default)`. -/
def getD (value : PyJson) (key : String) (default : PyJson) : Except Exn PyJson :=
  match value with
  | obj fields => .ok ((fields.lookup key).getD default)
  | _ => .error .attributeError

/-- `value.get(key)`. -/
def get (value : PyJson) (key : String) : Except Exn PyJson := value.getD key null

/-- `value == text`. -/
def isText (value : PyJson) (text : String) : Bool :=
  match value with
  | str s => s = text
  | _ => false

/-- An integer, or a truth value, which is one. -/
def asInt : PyJson → Option ℤ
  | int n => some n
  | bool b => some (if b then 1 else 0)
  | _ => none

def asDigit (value : PyJson) : Option ℕ :=
  value.asInt.bind fun n => if 0 ≤ n ∧ n ≤ 9 then some n.toNat else none

/-- A decimal from its sign, its digits and its exponent. -/
def tupleToDecimal (sign digits exponent : PyJson) : Option DecimalValue := do
  let sign ← sign.asInt
  let digits ←
    match digits with
    | arr items => items.mapM asDigit
    | _ => none
  if sign ≠ 0 ∧ sign ≠ 1 then none
  else
    match exponent with
    | str "F" => some .infinite
    | str "n" => some .nan
    | str "N" => some .snan
    | exponent => do
        let exponent ← exponent.asInt
        let magnitude : Decimal := (digits.foldl (fun n d => 10 * n + d) 0 : ℕ)
        return .finite ((if sign = 1 then -magnitude else magnitude) * 10 ^ exponent)

/-- `Decimal(value)`. -/
def toDecimal : PyJson → Except Exn DecimalValue
  | null => .error .typeError
  | bool b => .ok (.finite (if b then 1 else 0))
  | int n => .ok (.finite n)
  | float x => .ok x
  | str s => ((DecimalValue.ofString s).map .ok).getD (.error .invalidOperation)
  | arr [sign, digits, exponent] =>
      ((tupleToDecimal sign digits exponent).map .ok).getD (.error .valueError)
  | arr _ => .error .valueError
  | obj _ => .error .typeError

example : toDecimal (.arr [.int 1, .arr [.int 1, .int 2, .int 5], .int (-2)]) =
    .ok (.finite (-1.25)) := by decide +kernel

end PyJson

/-! ## The port -/

abbrev Bytes := List UInt8

/-- `text.encode()`. -/
def encode (text : String) : Bytes := text.toUTF8.data.toList

/-- `CallbackResult`: whatever the document carries as reference and currency. -/
structure CallbackResult where
  reference : PyJson
  isSuccess : Bool
  amount : Option DecimalValue
  currency : PyJson

/-- The port `PaymentProvider`. -/
structure PaymentAdapter extends PaymentProvider where
  verifyWebhook : (rawBody : Bytes) → (signature : String) → Except Exn Bool
  parseCallback : (payload : PyJson) → Except Exn CallbackResult

/-- The body of Stripe's payment intents. -/
structure StripeIntent where
  amount : ℤ
  currency : String
  transactionId : String
  deriving DecidableEq

/-- The body of PawaPay's deposits; `correspondent` is the payer's provider. -/
structure PawaPayDeposit where
  depositId : String
  amount : String
  currency : String
  correspondent : String
  phoneNumber : String
  deriving DecidableEq

/-- The purchase unit of PayPal's orders. -/
structure PayPalOrder where
  currencyCode : String
  value : String
  customId : String
  deriving DecidableEq

/-- What is called outside the application. -/
structure PaymentServices where
  /-- `hmac_sha256_hex`. -/
  hmacSha256Hex : (secret : String) → (message : Bytes) → String
  /-- `POST` of an intent: the `id` of the answer. -/
  stripeIntents : StripeIntent → Except Exn String
  pawapayDeposits : PawaPayDeposit → Except Exn Unit
  paypalOrders : PayPalOrder → Except Exn Unit
  /-- What the database driver sends for a value, neither a string nor `None`, that is
  compared with a `VARCHAR`. -/
  varchar : PyJson → Except Exn String
  /-- `str(value)`. -/
  text : PyJson → String

/-- `hmac.compare_digest`, which takes ASCII strings only. -/
def compareDigest (expected provided : String) : Except Exn Bool :=
  if (expected ++ provided).toList.all fun c => c.toNat < 128 then .ok (expected = provided)
  else .error .typeError

/-- A signature that is the digest of the body; refused without a secret or a signature. -/
def verifySigned (services : PaymentServices) (webhookSecret : String) (rawBody : Bytes)
    (signature : String) : Except Exn Bool :=
  if webhookSecret = "" ∨ signature = "" then .ok false
  else compareDigest (services.hmacSha256Hex webhookSecret rawBody) signature

/-! ## Stripe -/

/-- `_ZERO_DECIMAL`. -/
def zeroDecimal : List String := ["JPY", "XAF", "XOF"]

structure StripeProvider where
  apiKey : String
  webhookSecret : String

namespace StripeProvider

/-- `int(number)`. -/
def truncate (x : Decimal) : ℤ := if 0 ≤ x then ⌊x⌋ else ⌈x⌉

/-- What is sent: the amount in the smallest unit. -/
def intent (amount : Decimal) (currency reference : String) : StripeIntent :=
  { amount :=
      truncate
        (if currency.toUpper ∈ zeroDecimal then amount else Decimal.roundContext (amount * 100))
    currency := currency.toLower
    transactionId := reference }

/-- `create_deposit`; offline, the reference is made up. -/
def createDeposit (provider : StripeProvider) (services : PaymentServices) (amount : Decimal)
    (currency reference : String) (_context : DepositContext) : Except Exn String :=
  if provider.apiKey = "" then .ok ("pi_stub_" ++ reference)
  else services.stripeIntents (intent amount currency reference)

/-- The `key=value` pieces of the header, the last one of a key first. -/
def signatureParts (signature : String) : List (String × String) :=
  ((signature.toList.splitOn ',').filterMap fun piece =>
    match piece.dropWhile (· ≠ '=') with
    | [] => none
    | _ :: value => some (String.ofList (piece.takeWhile (· ≠ '=')), String.ofList value)).reverse

/-- `verify_webhook`: the timestamp is signed with the body. -/
def verifyWebhook (provider : StripeProvider) (services : PaymentServices) (rawBody : Bytes)
    (signature : String) : Except Exn Bool :=
  if provider.webhookSecret = "" ∨ signature = "" then .ok false
  else
    let parts := signatureParts signature
    let timestamp := (parts.lookup "t").getD ""
    let provided := (parts.lookup "v1").getD ""
    if timestamp = "" ∨ provided = "" then .ok false
    else
      compareDigest
        (services.hmacSha256Hex provider.webhookSecret (encode (timestamp ++ ".") ++ rawBody))
        provided

/-- `Decimal / divisor`. -/
def divide (divisor : ℕ) : DecimalValue → Except Exn DecimalValue
  | .finite x => .ok (.finite (Decimal.roundContext (x / divisor)))
  | .snan => .error .invalidOperation
  | v => .ok v

/-- `(value or "").upper()`. -/
def upperOrEmpty (value : PyJson) : Except Exn String :=
  match value.orElse (.str "") with
  | .str s => .ok s.toUpper
  | _ => .error .attributeError

/-- `parse_callback`: the amount is in the smallest unit of the currency. -/
def parseCallback (payload : PyJson) : Except Exn CallbackResult := do
  let data ← payload.getD "data" (.obj [])
  let object ← data.getD "object" (.obj [])
  let metadata ← object.getD "metadata" (.obj [])
  let reference ← metadata.getD "transaction_id" (.str "")
  let type ← payload.get "type"
  let stated ← object.get "amount"
  let code ← object.get "currency"
  let amount ←
    match stated with
    | .null => pure none
    | stated => do
        let currency ← upperOrEmpty code
        let value ← stated.toDecimal
        some <$> divide (if currency ∈ zeroDecimal then 1 else 100) value
  let currency ← upperOrEmpty code
  return { reference := reference
           isSuccess := type.isText "payment_intent.succeeded"
           amount := amount
           currency := if currency = "" then .null else .str currency }

def adapter (provider : StripeProvider) (services : PaymentServices) : PaymentAdapter :=
  { createDeposit := provider.createDeposit services
    verifyWebhook := provider.verifyWebhook services
    parseCallback := parseCallback }

end StripeProvider

/-! ## PawaPay -/

structure PawaPayProvider where
  apiToken : String
  webhookSecret : String

namespace PawaPayProvider

/-- `_CORRESPONDENTS`: by operator and currency. -/
def correspondents : List ((String × String) × String) :=
  [(("mtn", "XAF"), "MTN_MOMO_CMR"), (("orange", "XAF"), "ORANGE_CMR"),
    (("mtn", "XOF"), "MTN_MOMO_CIV"), (("orange", "XOF"), "ORANGE_CIV")]

/-- What is sent: the amount in plain notation. -/
def deposit (amount : Decimal) (currency reference correspondent : String)
    (context : DepositContext) : PawaPayDeposit :=
  { depositId := reference
    amount := Decimal.text (decimalsFor currency) amount
    currency := currency.toUpper
    correspondent := correspondent
    phoneNumber := context.phoneNumber.getD "" }

/-- `create_deposit`: the reference is kept. -/
def createDeposit (provider : PawaPayProvider) (services : PaymentServices) (amount : Decimal)
    (currency reference : String) (context : DepositContext) : Except Exn String :=
  let operator := (context.operator.getD "").toLower
  match correspondents.lookup (operator, currency.toUpper) with
  | none => .error (.domain (.unsupportedProvider ("pawapay " ++ operator ++ "/" ++ currency)))
  | some correspondent =>
      if provider.apiToken = "" then .ok reference
      else do
        services.pawapayDeposits (deposit amount currency reference correspondent context)
        return reference

/-- `verify_webhook`. -/
def verifyWebhook (provider : PawaPayProvider) (services : PaymentServices) :
    Bytes → String → Except Exn Bool :=
  verifySigned services provider.webhookSecret

/-- `parse_callback`. -/
def parseCallback (payload : PyJson) : Except Exn CallbackResult := do
  let stated ← payload.get "amount"
  let amount ← if stated.truthy then some <$> stated.toDecimal else pure none
  let reference ← payload.getD "depositId" (.str "")
  let status ← payload.get "status"
  let currency ← payload.get "currency"
  return { reference := reference
           isSuccess := status.isText "COMPLETED"
           amount := amount
           currency := currency }

def adapter (provider : PawaPayProvider) (services : PaymentServices) : PaymentAdapter :=
  { createDeposit := provider.createDeposit services
    verifyWebhook := provider.verifyWebhook services
    parseCallback := parseCallback }

end PawaPayProvider

/-! ## PayPal -/

structure PayPalProvider where
  clientId : String
  secret : String
  webhookSecret : String

namespace PayPalProvider

/-- What is sent. -/
def order (amount : Decimal) (currency reference : String) : PayPalOrder :=
  { currencyCode := currency.toUpper
    value := Decimal.text (decimalsFor currency) amount
    customId := reference }

/-- `create_deposit`: the reference is kept. -/
def createDeposit (provider : PayPalProvider) (services : PaymentServices) (amount : Decimal)
    (currency reference : String) (_context : DepositContext) : Except Exn String :=
  if provider.clientId = "" ∨ provider.secret = "" then .ok reference
  else do
    services.paypalOrders (order amount currency reference)
    return reference

/-- `verify_webhook`. -/
def verifyWebhook (provider : PayPalProvider) (services : PaymentServices) :
    Bytes → String → Except Exn Bool :=
  verifySigned services provider.webhookSecret

/-- `parse_callback`. -/
def parseCallback (payload : PyJson) : Except Exn CallbackResult := do
  let resource ← payload.getD "resource" (.obj [])
  let amountObj ← resource.getD "amount" (.obj [])
  let value ← amountObj.get "value"
  let reference ← resource.getD "custom_id" (.str "")
  let eventType ← payload.get "event_type"
  let amount ← if value.truthy then some <$> value.toDecimal else pure none
  let currency ← amountObj.get "currency_code"
  return { reference := reference
           isSuccess := eventType.isText "PAYMENT.CAPTURE.COMPLETED"
           amount := amount
           currency := currency }

def adapter (provider : PayPalProvider) (services : PaymentServices) : PaymentAdapter :=
  { createDeposit := provider.createDeposit services
    verifyWebhook := provider.verifyWebhook services
    parseCallback := parseCallback }

end PayPalProvider

/-! ## The factory -/

/-- The adapters as they are configured, and what they call. -/
structure Payments where
  stripe : StripeProvider
  pawapay : PawaPayProvider
  paypal : PayPalProvider
  services : PaymentServices

/-- `get_payment_provider`. -/
def Payments.getPaymentProvider (pay : Payments) (name : String) : Except Exn PaymentAdapter :=
  match name.toLower with
  | "stripe" => .ok (pay.stripe.adapter pay.services)
  | "pawapay" => .ok (pay.pawapay.adapter pay.services)
  | "paypal" => .ok (pay.paypal.adapter pay.services)
  | _ => .error (.domain (.unsupportedProvider name))

/-- The configuration with these payment providers. -/
def Config.withPayments (cfg : Config) (pay : Payments) : Config :=
  { cfg with
    getPaymentProvider := fun name =>
      PaymentAdapter.toPaymentProvider <$> pay.getPaymentProvider name }

end WalletLedger
