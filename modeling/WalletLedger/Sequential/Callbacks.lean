import WalletLedger.Sequential.Webhooks
import WalletLedger.Infrastructure.Verification

/-!
# What settles a deposit

The evidence a webhook brings for a deposit: who has signed it, and what it states.

* `settled_on_evidence_iff` — when a deposit is settled on evidence of its own provider.
* `Provider.Agrees` — what a payload states is the deposit's; `settled_as_authorized`: of a
  request that settles a deposit it does.
-/

namespace WalletLedger

variable {cfg : Config} {pay : Payments} {r : WebhookRequest} {s : Store} {t : Transaction}

/-! ## The provider a request is verified for -/

/-- The request is processed for this provider. -/
def WebhookRequest.Names (r : WebhookRequest) (p : Provider) : Prop :=
  ∃ name, r.providerName = .ok name ∧ Provider.ofName name = some p

theorem WebhookRequest.Names.unique {p q : Provider} (hp : r.Names p) (hq : r.Names q) : q = p := by
  obtain ⟨name, hname, hp⟩ := hp
  obtain ⟨name', hname', hq⟩ := hq
  cases hname.symm.trans hname'
  cases hp.symm.trans hq
  rfl

/-- The request is verified, with this secret. -/
def WebhookRequest.VerifiedWith (pay : Payments) (r : WebhookRequest) (secret : String) : Prop :=
  ∃ p, r.Names p ∧ pay.webhookSecret p = secret ∧
    (pay.adapter p).verifyWebhook r.rawBody r.signature = .ok true

/-- A callback is what the adapter of the named provider reads, once it has verified it. -/
theorem WebhookRequest.callback_ok_iff {result : CallbackResult} :
    r.callback pay = .ok result ↔
      ∃ p, r.Names p ∧ (pay.adapter p).verifyWebhook r.rawBody r.signature = .ok true ∧
        (pay.adapter p).parseCallback r.payload = .ok result := by
  unfold callback
  simp only [except_bind_ok]
  constructor
  · rintro ⟨name, hname, adapter, hadapter, verified, hverified, h⟩
    obtain ⟨p, hp, rfl⟩ := Payments.getPaymentProvider_ok_iff.1 hadapter
    cases verified with
    | false => cases h
    | true => exact ⟨p, ⟨name, hname, hp⟩, hverified, h⟩
  · rintro ⟨p, ⟨name, hname, hp⟩, hverified, h⟩
    exact ⟨name, hname, _, Payments.getPaymentProvider_ok_iff.2 ⟨p, hp, rfl⟩, true, hverified, h⟩

/-- **Evidence.**  In every state that operations and webhooks reach, a request settles a
deposit only when it was verified with the secret of the deposit's own provider, exactly if a
request that is accepted for the pending deposit names a provider with that secret. -/
theorem settled_on_evidence_iff
    (h : Run (Call.run (cfg.withPayments pay) pay) anyOp Store.empty s) (r : WebhookRequest)
    (ht : t ∈ s.db.books.transactions) {name : String} {accountId : Id} {context : DepositContext}
    (hd : t.details = .deposit name accountId context) :
    ∀ p, Provider.ofName name = some p →
      ((r.Settles (cfg.withPayments pay) pay s t → r.VerifiedWith pay (pay.webhookSecret p)) ↔
        (t.status = .pending → (∃ result, r.Accepted pay s.db.books t result) →
          s.db.books.CanSettle (cfg.withPayments pay) s.seqs t accountId →
            ∀ q, r.Names q → pay.webhookSecret q = pay.webhookSecret p)) := by
  intro p _
  have ha : t.details.accountId = .ok accountId := by rw [hd]; rfl
  rw [(served_of_run h).settles_iff ht ha]
  constructor
  · intro hverified hpending haccepted hcan q hq
    obtain ⟨q', hq', hsecret, -⟩ := hverified ⟨hpending, haccepted, hcan⟩
    rw [hq'.unique hq, hsecret]
  · rintro hsame ⟨hpending, ⟨result, hresult⟩, hcan⟩
    obtain ⟨q, hq, hverified, -⟩ := WebhookRequest.callback_ok_iff.1 hresult.callback
    exact ⟨q, hq, hsame hpending ⟨result, hresult⟩ hcan q hq, hverified⟩

/-- The calls of the list, in order. -/
def callAll (cfg : Config) (pay : Payments) (calls : List Call) (s : Store) : Store :=
  calls.foldl (fun s call => call.run cfg pay s) s

/-- Bodies of webhooks: a payment by Stripe, a capture by PayPal, and two confirmations by
PawaPay, of which the second states neither amount nor currency. -/
def intentBody : Bytes :=
  encode ("\x7b\"type\":\"payment_intent.succeeded\",\"data\":\x7b\"object\":\x7b" ++
    "\"amount\":20000,\"currency\":\"usd\",\"metadata\":\x7b\"transaction_id\":\"1\"\x7d\x7d\x7d\x7d")

def captureBody : Bytes :=
  encode ("\x7b\"event_type\":\"PAYMENT.CAPTURE.COMPLETED\",\"resource\":\x7b" ++
    "\"custom_id\":\"1\",\"amount\":\x7b\"value\":\"5000\",\"currency_code\":\"XAF\"\x7d\x7d\x7d")

def confirmationBody : Bytes :=
  encode ("\x7b\"depositId\":\"1\",\"status\":\"COMPLETED\"," ++
    "\"amount\":\"5000\",\"currency\":\"XAF\"\x7d")

def silentBody : Bytes := encode "\x7b\"depositId\":\"1\",\"status\":\"COMPLETED\"\x7d"

/-- Their digests, Stripe's with the timestamp it signs. -/
def digests : List ((String × Bytes) × String) :=
  [(("stripe-secret", encode "1." ++ intentBody),
      "d0b77804f8415f0f8832617646441a7631b2f43522f671b585366a3e0080ddff"),
    (("paypal-secret", captureBody),
      "35341112ff534b4a768399a19abb07d0a1175d2cababfb38e2906d808b0d45e4"),
    (("pawapay-secret", confirmationBody),
      "833ecbda93522da7c5bc7fb18aaa6b64ad6e6a44d606132e6921616a2aae0d1b"),
    (("pawapay-secret", silentBody),
      "d34b07946b12f4ec3e0283f3eb29546eedf8d1ed91f47401ad08a3e46fc9de3b")]

/-- Providers that are offline, each with a secret of its own. -/
def offlinePayments : Payments :=
  { stripe := ⟨"", "stripe-secret"⟩
    pawapay := ⟨"", "pawapay-secret"⟩
    paypal := ⟨"", "", "paypal-secret"⟩
    services :=
      { hmacSha256Hex := fun secret message => (digests.lookup (secret, message)).getD ""
        stripeIntents := fun _ => .error .httpError
        pawapayDeposits := fun _ => .error .httpError
        paypalOrders := fun _ => .error .httpError
        varchar := fun _ => .error (.service .operational)
        text := fun _ => "" } }

/-- A deposit of 5000 through PawaPay. -/
def pawapayDeposit : List Call :=
  [.operation (.createAccount "kamga" "XAF"),
    .operation (.initiateDeposit 0 5000 "pawapay" ⟨some "mtn", some "237650000000"⟩ (some "c1"))]

/-- A webhook of PayPal whose `custom_id` is that deposit. -/
def foreignWebhook : WebhookRequest :=
  { path := some "paypal"
    stripeSignature := none
    xSignature := some "35341112ff534b4a768399a19abb07d0a1175d2cababfb38e2906d808b0d45e4"
    xProvider := none
    rawBody := captureBody
    json := some (.obj [("event_type", .str "PAYMENT.CAPTURE.COMPLETED"),
      ("resource", .obj [("custom_id", .str "1"),
        ("amount", .obj [("value", .str "5000"), ("currency_code", .str "XAF")])])]) }

/-- PayPal settles it. -/
theorem settled_by_other_provider :
    let cfg := (offlineConfig 3).withPayments offlinePayments
    let s := callAll cfg offlinePayments pawapayDeposit Store.empty
    Run (Call.run cfg offlinePayments) anyOp Store.empty s ∧
      (∃ t ∈ s.db.books.transactions,
        t.details = .deposit "pawapay" 0 ⟨some "mtn", some "237650000000"⟩ ∧
          foreignWebhook.Settles cfg offlinePayments s t) ∧
      ¬ foreignWebhook.VerifiedWith offlinePayments (offlinePayments.webhookSecret .pawapay) := by
  refine ⟨Run.foldl _, by decide +kernel, ?_⟩
  rintro ⟨p, hp, hsecret, -⟩
  obtain rfl : p = .paypal := WebhookRequest.Names.unique ⟨"paypal", rfl, by decide +kernel⟩ hp
  exact absurd hsecret (by decide)

/-- The webhook of PawaPay itself. -/
def ownWebhook : WebhookRequest :=
  { path := some "pawapay"
    stripeSignature := none
    xSignature := some "833ecbda93522da7c5bc7fb18aaa6b64ad6e6a44d606132e6921616a2aae0d1b"
    xProvider := none
    rawBody := confirmationBody
    json := some (.obj [("depositId", .str "1"), ("status", .str "COMPLETED"),
      ("amount", .str "5000"), ("currency", .str "XAF")]) }

theorem settled_by_own_provider :
    let cfg := (offlineConfig 3).withPayments offlinePayments
    let s := callAll cfg offlinePayments pawapayDeposit Store.empty
    ∃ t ∈ s.db.books.transactions,
      t.details = .deposit "pawapay" 0 ⟨some "mtn", some "237650000000"⟩ ∧
        ownWebhook.Settles cfg offlinePayments s t ∧
        ownWebhook.VerifiedWith offlinePayments (offlinePayments.webhookSecret .pawapay) := by
  intro cfg s
  have hsettles : ∃ t ∈ s.db.books.transactions,
      t.details = .deposit "pawapay" 0 ⟨some "mtn", some "237650000000"⟩ ∧
        ownWebhook.Settles cfg offlinePayments s t := by decide +kernel
  obtain ⟨t, ht, hd, hs⟩ := hsettles
  refine ⟨t, ht, hd, hs, (settled_on_evidence_iff (Run.foldl _) ownWebhook ht hd .pawapay
    (by decide +kernel)).2 (fun _ _ _ q hq => ?_) hs⟩
  obtain rfl : q = .pawapay := WebhookRequest.Names.unique ⟨"pawapay", rfl, by decide +kernel⟩ hq
  rfl

/-! ## What a payload states -/

namespace Provider

/-- The amount and the currency of a payload, as they stand in it. -/
def statedFields (p : Provider) (payload : PyJson) : Except Exn (PyJson × PyJson) :=
  match p with
  | .stripe => do
      let data ← payload.getD "data" (.obj [])
      let object ← data.getD "object" (.obj [])
      let amount ← object.get "amount"
      let code ← object.get "currency"
      return (amount, code)
  | .pawapay => do
      let amount ← payload.get "amount"
      let code ← payload.get "currency"
      return (amount, code)
  | .paypal => do
      let resource ← payload.getD "resource" (.obj [])
      let amountObj ← resource.getD "amount" (.obj [])
      let amount ← amountObj.get "value"
      let code ← amountObj.get "currency_code"
      return (amount, code)

/-- How many of the units an amount is stated in make one of the currency: Stripe counts in the
smallest unit. -/
def divisor : Provider → PyJson → ℕ
  | .stripe, .str code => if code.toUpper ∈ zeroDecimal then 1 else 100
  | .stripe, _ => 100
  | _, _ => 1

/-- The value is an amount that is stated; for PawaPay and PayPal it is none when it is false. -/
def statesAmount (p : Provider) (amount : PyJson) : Prop :=
  amount.truthy = true ∨ p = .stripe ∧ amount ≠ .null

/-- The value is a currency that is stated; for Stripe it is none when it is false. -/
def statesCurrency (p : Provider) (code : PyJson) : Prop :=
  code.truthy = true ∨ p ≠ .stripe ∧ code ≠ .null

/-- What the payload states, if it does, is the deposit's: a number which, unless it has more
decimals than the currency, is the amount, and a text which is the currency up to case. -/
def Agrees (p : Provider) (payload : PyJson) (t : Transaction) : Prop :=
  ∃ amount code, p.statedFields payload = .ok (amount, code) ∧
    (p.statesAmount amount → ∃ x, amount.toDecimal = .ok (.finite x) ∧
      (x / p.divisor code ∈ Decimal.grid (decimalsFor t.currency) →
        x / p.divisor code = t.amount)) ∧
    (p.statesCurrency code → ∃ c, code = .str c ∧ c.toUpper = t.currency)

/-- A callback carries what the payload states. -/
structure Carries (p : Provider) (amount code : PyJson) (result : CallbackResult) : Prop where
  amounts : p.statesAmount amount → ∃ w, result.amount = some w ∧ ∀ x, w = .finite x →
    ∃ y, amount.toDecimal = .ok (.finite y) ∧
      (x = y / p.divisor code ∨ x = Decimal.roundContext (y / p.divisor code))
  currencies : p.statesCurrency code → result.currency ≠ .null ∧
    ∀ c, result.currency = .str c → ∃ c', code = .str c' ∧ c.toUpper = c'.toUpper
  nothing : amount = .null → code = .null → result.amount = none ∧ result.currency = .null

end Provider

namespace Provider

/-- PawaPay's and PayPal's callbacks pass on what they are given. -/
theorem carries_plain {p : Provider} (hp : p ≠ .stripe) {amount code : PyJson}
    {result : CallbackResult} (hcode : result.currency = code)
    (hstated : amount.truthy = true → ∃ v, amount.toDecimal = .ok v ∧ result.amount = some v)
    (hnone : ¬ amount.truthy = true → result.amount = none) : p.Carries amount code result where
  amounts := by
    intro hamount
    obtain ⟨v, hv, hresult⟩ := hstated (hamount.resolve_right fun h => hp h.1)
    refine ⟨v, hresult, ?_⟩
    rintro x rfl
    refine ⟨x, hv, .inl ?_⟩
    cases p with
    | stripe => exact absurd rfl hp
    | pawapay => simp [divisor]
    | paypal => simp [divisor]
  currencies := by
    subst hcode
    intro hcurrency
    refine ⟨?_, fun c hc => ⟨c, hc, rfl⟩⟩
    rcases hcurrency with htruthy | ⟨-, hne⟩
    · intro hnull
      rw [hnull] at htruthy
      cases htruthy
    · exact hne
  nothing := by
    rintro rfl rfl
    exact ⟨hnone (by decide), hcode⟩

end Provider

theorem PawaPayProvider.parseCallback_carries {payload : PyJson} {result : CallbackResult}
    (h : parseCallback payload = .ok result) :
    ∃ amount code, Provider.statedFields .pawapay payload = .ok (amount, code) ∧
      Provider.Carries .pawapay amount code result := by
  unfold parseCallback at h
  obtain ⟨amount, hamount, h⟩ := except_bind_ok.1 h
  have hfields : ∀ code, payload.get "currency" = .ok code →
      Provider.statedFields .pawapay payload = .ok (amount, code) := by
    intro code hcode
    simp only [Provider.statedFields, hamount, hcode]
    rfl
  by_cases htruthy : amount.truthy = true
  · rw [if_pos htruthy] at h
    simp only [except_bind_ok, except_map_ok] at h
    obtain ⟨_, ⟨v, hv, rfl⟩, reference, -, status, -, code, hcode, h⟩ := h
    cases h
    exact ⟨amount, code, hfields code hcode,
      Provider.carries_plain (by decide) rfl (fun _ => ⟨v, hv, rfl⟩) (absurd htruthy)⟩
  · rw [if_neg htruthy] at h
    simp only [except_bind_ok] at h
    obtain ⟨_, hnone, reference, -, status, -, code, hcode, h⟩ := h
    cases hnone
    cases h
    exact ⟨amount, code, hfields code hcode,
      Provider.carries_plain (by decide) rfl (fun h => absurd h htruthy) fun _ => rfl⟩

theorem PayPalProvider.parseCallback_carries {payload : PyJson} {result : CallbackResult}
    (h : parseCallback payload = .ok result) :
    ∃ amount code, Provider.statedFields .paypal payload = .ok (amount, code) ∧
      Provider.Carries .paypal amount code result := by
  unfold parseCallback at h
  obtain ⟨resource, hresource, h⟩ := except_bind_ok.1 h
  obtain ⟨amountObj, hobj, h⟩ := except_bind_ok.1 h
  obtain ⟨amount, hamount, h⟩ := except_bind_ok.1 h
  have hfields : ∀ code, amountObj.get "currency_code" = .ok code →
      Provider.statedFields .paypal payload = .ok (amount, code) := by
    intro code hcode
    refine except_bind_ok.2 ⟨resource, hresource, except_bind_ok.2 ⟨amountObj, hobj,
      except_bind_ok.2 ⟨amount, hamount, except_bind_ok.2 ⟨code, hcode, rfl⟩⟩⟩⟩
  obtain ⟨reference, -, h⟩ := except_bind_ok.1 h
  obtain ⟨eventType, -, h⟩ := except_bind_ok.1 h
  by_cases htruthy : amount.truthy = true
  · rw [if_pos htruthy] at h
    simp only [except_bind_ok, except_map_ok] at h
    obtain ⟨_, ⟨v, hv, rfl⟩, code, hcode, h⟩ := h
    cases h
    exact ⟨amount, code, hfields code hcode,
      Provider.carries_plain (by decide) rfl (fun _ => ⟨v, hv, rfl⟩) (absurd htruthy)⟩
  · rw [if_neg htruthy] at h
    simp only [except_bind_ok] at h
    obtain ⟨_, hnone, code, hcode, h⟩ := h
    cases hnone
    cases h
    exact ⟨amount, code, hfields code hcode,
      Provider.carries_plain (by decide) rfl (fun h => absurd h htruthy) fun _ => rfl⟩

/-- A code in upper case: it was a text, or nothing. -/
theorem StripeProvider.upperOrEmpty_ok {code : PyJson} {c : String}
    (h : upperOrEmpty code = .ok c) :
    (∃ c', code = .str c' ∧ c = c'.toUpper) ∨ ¬ code.truthy = true ∧ c = "" := by
  unfold upperOrEmpty PyJson.orElse at h
  by_cases htruthy : code.truthy = true
  · rw [if_pos htruthy] at h
    cases code <;> cases h
    exact .inl ⟨_, rfl, rfl⟩
  · rw [if_neg htruthy] at h
    cases h
    exact .inr ⟨htruthy, by decide +kernel⟩

/-- The amount of a callback, from the one that is stated. -/
def StripeProvider.readAmount (stated code : PyJson) : Except Exn (Option DecimalValue) :=
  match stated with
  | .null => pure none
  | stated => do
      let currency ← upperOrEmpty code
      let value ← stated.toDecimal
      some <$> divide (if currency ∈ zeroDecimal then 1 else 100) value

/-- A stated amount is read as a decimal and divided. -/
theorem StripeProvider.readAmount_ok {stated code : PyJson} {a : Option DecimalValue}
    (hne : stated ≠ .null) (h : readAmount stated code = .ok a) :
    ∃ c v w, upperOrEmpty code = .ok c ∧ stated.toDecimal = .ok v ∧
      divide (if c ∈ zeroDecimal then 1 else 100) v = .ok w ∧ a = some w := by
  have h : (do
      let currency ← upperOrEmpty code
      let value ← stated.toDecimal
      some <$> divide (if currency ∈ zeroDecimal then 1 else 100) value) = .ok a := by
    cases stated <;> first | exact h | exact absurd rfl hne
  simp only [except_bind_ok, except_map_ok] at h
  obtain ⟨c, hc, v, hv, w, hw, rfl⟩ := h
  exact ⟨c, v, w, hc, hv, hw, rfl⟩

/-- The divisor goes by the code in upper case. -/
theorem StripeProvider.divisor_eq {code : PyJson} {c : String} (h : upperOrEmpty code = .ok c) :
    (if c ∈ zeroDecimal then 1 else 100) = Provider.divisor .stripe code := by
  rcases upperOrEmpty_ok h with ⟨c', rfl, rfl⟩ | ⟨hfalse, rfl⟩
  · rfl
  · cases code with
    | str s =>
      obtain rfl : s = "" := by simpa [PyJson.truthy] using hfalse
      decide +kernel
    | _ => rfl

theorem StripeProvider.parseCallback_carries {payload : PyJson} {result : CallbackResult}
    (h : parseCallback payload = .ok result) :
    ∃ amount code, Provider.statedFields .stripe payload = .ok (amount, code) ∧
      Provider.Carries .stripe amount code result := by
  unfold parseCallback at h
  obtain ⟨data, hdata, h⟩ := except_bind_ok.1 h
  obtain ⟨object, hobject, h⟩ := except_bind_ok.1 h
  obtain ⟨metadata, -, h⟩ := except_bind_ok.1 h
  obtain ⟨reference, -, h⟩ := except_bind_ok.1 h
  obtain ⟨type, -, h⟩ := except_bind_ok.1 h
  obtain ⟨amount, hamount, h⟩ := except_bind_ok.1 h
  obtain ⟨code, hcode, h⟩ := except_bind_ok.1 h
  have hfields : Provider.statedFields .stripe payload = .ok (amount, code) :=
    except_bind_ok.2 ⟨data, hdata, except_bind_ok.2 ⟨object, hobject,
      except_bind_ok.2 ⟨amount, hamount, except_bind_ok.2 ⟨code, hcode, rfl⟩⟩⟩⟩
  have h : (do
      let read ← readAmount amount code
      let currency ← upperOrEmpty code
      return { reference := reference
               isSuccess := type.isText "payment_intent.succeeded"
               amount := read
               currency := if currency = "" then .null else .str currency }) =
            Except.ok result := by
    cases amount <;> simpa [readAmount] using h
  obtain ⟨read, hread, h⟩ := except_bind_ok.1 h
  obtain ⟨c, hc, h⟩ := except_bind_ok.1 h
  cases h
  refine ⟨amount, code, hfields, ?_, ?_, ?_⟩
  · intro hstated
    have hne : amount ≠ .null := by
      rintro rfl
      exact hstated.elim (by simp [PyJson.truthy]) fun h => h.2 rfl
    obtain ⟨c', v, w, hc', hv, hw, rfl⟩ := readAmount_ok hne hread
    refine ⟨w, rfl, ?_⟩
    rintro x rfl
    rw [divisor_eq hc'] at hw
    cases v with
    | finite y =>
      cases hw
      exact ⟨y, hv, .inr rfl⟩
    | infinite | nan | snan => cases hw
  · intro hstated
    have htruthy : code.truthy = true := hstated.resolve_right fun h => h.1 rfl
    rcases upperOrEmpty_ok hc with ⟨c', rfl, rfl⟩ | ⟨hfalse, -⟩
    · have hne : c'.toUpper ≠ "" := by
        intro hempty
        have hlist : c'.toList.map Char.toUpper = [] := by
          rw [← String.toList_map]
          exact congrArg String.toList hempty
        obtain rfl : c' = "" := String.toList_eq_nil_iff.1 (List.map_eq_nil_iff.1 hlist)
        exact absurd htruthy (by decide)
      rw [if_neg hne]
      refine ⟨by simp, fun d hd => ⟨c', rfl, ?_⟩⟩
      cases hd
      exact toUpper_toUpper c'
    · exact absurd htruthy hfalse
  · rintro rfl rfl
    cases hread
    rcases upperOrEmpty_ok hc with ⟨c', hnull, -⟩ | ⟨-, rfl⟩
    · cases hnull
    · exact ⟨rfl, rfl⟩

theorem parseCallback_carries {p : Provider} {payload : PyJson} {result : CallbackResult}
    (h : (pay.adapter p).parseCallback payload = .ok result) :
    ∃ amount code, p.statedFields payload = .ok (amount, code) ∧ p.Carries amount code result := by
  cases p with
  | stripe => exact StripeProvider.parseCallback_carries h
  | pawapay => exact PawaPayProvider.parseCallback_carries h
  | paypal => exact PayPalProvider.parseCallback_carries h

/-- A callback that is accepted for a deposit agrees with it in what it states. -/
theorem Provider.Carries.agrees {p : Provider} {payload amount code : PyJson}
    {result : CallbackResult} {authorized : Money}
    (hfields : p.statedFields payload = .ok (amount, code)) (h : p.Carries amount code result)
    (hamount : authorized.amount = t.amount) (hr : result.reconcile t authorized = .ok ()) :
    p.Agrees payload t := by
  obtain ⟨hcurrency, hmade⟩ := CallbackResult.reconcile_ok_iff.1 hr
  refine ⟨amount, code, hfields, fun hstated => ?_, fun hstated => ?_⟩
  · obtain ⟨w, hw, hread⟩ := h.amounts hstated
    rcases hmade with hnone | ⟨x, hx, hmake⟩
    · rw [hnone] at hw
      cases hw
    rw [hx] at hw
    obtain ⟨y, hy, hxy⟩ := hread x (Option.some.inj hw).symm
    refine ⟨y, hy, fun hgrid => ?_⟩
    -- the rounding of the division is lost in the rounding of the amount
    have hquantize : Decimal.quantize (decimalsFor t.currency) (y / p.divisor code) =
        some t.amount := by
      rw [← hamount, ← (Money.quantize_of_make hmake).1]
      rcases hxy with rfl | rfl
      · rfl
      · exact (Decimal.quantize_roundContext hgrid).symm
    exact (Decimal.eq_of_quantize hgrid hquantize).symm
  · obtain ⟨hne, hread⟩ := h.currencies hstated
    obtain ⟨c, hc, hcode⟩ := hcurrency.resolve_left hne
    obtain ⟨c', hc', heq⟩ := hread c hc
    exact ⟨c', hc', heq.symm.trans hcode⟩

/-- **Reconciliation.**  In every state that operations and webhooks reach, a request credits a
deposit only if what its payload states agrees with the deposit.  A payload that states neither
amount nor currency confirms the authorised ones. -/
theorem settled_as_authorized (h : Run (Call.run (cfg.withPayments pay) pay) anyOp Store.empty s)
    (r : WebhookRequest) (ht : t ∈ s.db.books.transactions) {accountId : Id}
    (ha : t.details.accountId = .ok accountId) {p : Provider} (hp : r.Names p) :
    (r.Settles (cfg.withPayments pay) pay s t → p.Agrees r.payload t) ∧
      ∀ result, r.callback pay = .ok result → result.isSuccess = true →
        (∃ reference, pay.services.bound result.reference = .ok reference ∧
          s.db.books.transactions.find? (fun t => t.reference = reference) = some t) →
        t.status = .pending → s.db.books.CanSettle (cfg.withPayments pay) s.seqs t accountId →
        p.statedFields r.payload = .ok (.null, .null) →
          r.Settles (cfg.withPayments pay) pay s t := by
  have hs := served_of_run h
  constructor
  · intro hsettles
    obtain ⟨-, ⟨result, hresult⟩, -⟩ := (hs.settles_iff ht ha).1 hsettles
    obtain ⟨q, hq, -, hparsed⟩ := WebhookRequest.callback_ok_iff.1 hresult.callback
    obtain rfl := hp.unique hq
    obtain ⟨amount, code, hfields, hcarries⟩ := parseCallback_carries hparsed
    obtain ⟨authorized, hmake, hreconcile⟩ := hresult.reconciled
    exact hcarries.agrees hfields (hs.linked.amount_of_make ht hmake) hreconcile
  · intro result hcallback hsuccess hfound hpending hcan hnothing
    obtain ⟨q, hq, -, hparsed⟩ := WebhookRequest.callback_ok_iff.1 hcallback
    obtain rfl := hp.unique hq
    obtain ⟨amount, code, hfields, hcarries⟩ := parseCallback_carries hparsed
    cases hfields.symm.trans hnothing
    obtain ⟨hamount, hcurrency⟩ := hcarries.nothing rfl rfl
    obtain ⟨authorized, hmake, -⟩ := hs.linked.make_amount hs.fits ht
    exact (hs.settles_iff ht ha).2 ⟨hpending, ⟨result, hcallback, hsuccess, hfound, authorized,
      hmake, CallbackResult.reconcile_ok_iff.2 ⟨.inl hcurrency, .inl hamount⟩⟩, hcan⟩

/-- A webhook of PawaPay that says no more than that the deposit is completed. -/
def silentWebhook : WebhookRequest :=
  { path := some "pawapay"
    stripeSignature := none
    xSignature := some "d34b07946b12f4ec3e0283f3eb29546eedf8d1ed91f47401ad08a3e46fc9de3b"
    xProvider := none
    rawBody := silentBody
    json := some (.obj [("depositId", .str "1"), ("status", .str "COMPLETED")]) }

/-- It credits the deposit, and states no amount. -/
theorem settled_without_amount :
    let cfg := (offlineConfig 3).withPayments offlinePayments
    let s := callAll cfg offlinePayments pawapayDeposit Store.empty
    Run (Call.run cfg offlinePayments) anyOp Store.empty s ∧
      (∃ t ∈ s.db.books.transactions, t.status = .pending ∧
        silentWebhook.Settles cfg offlinePayments s t) ∧
      Provider.statedFields .pawapay silentWebhook.payload = .ok (.null, .null) ∧
      ¬ ∃ x, PyJson.toDecimal .null = .ok (.finite x) := by
  refine ⟨Run.foldl _, by decide +kernel, rfl, ?_⟩
  rintro ⟨x, ⟨⟩⟩

/-- The payload of the other one agrees with the deposit. -/
theorem own_payload_agrees :
    let cfg := (offlineConfig 3).withPayments offlinePayments
    let s := callAll cfg offlinePayments pawapayDeposit Store.empty
    ∃ t ∈ s.db.books.transactions, ownWebhook.Settles cfg offlinePayments s t ∧
      Provider.Agrees .pawapay ownWebhook.payload t := by
  intro cfg s
  have hsettles : ∃ t ∈ s.db.books.transactions, t.details.accountId = .ok 0 ∧
      ownWebhook.Settles cfg offlinePayments s t := by decide +kernel
  obtain ⟨t, ht, ha, hs⟩ := hsettles
  exact ⟨t, ht, hs, (settled_as_authorized (Run.foldl _) ownWebhook ht ha
    ⟨"pawapay", rfl, by decide +kernel⟩).1 hs⟩

end WalletLedger
