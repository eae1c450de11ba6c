import WalletLedger.Sequential.Callbacks
import WalletLedger.Infrastructure.Units

/-!
# From a deposit to its callback

What a provider is sent when a deposit is initiated, and what comes back of it when the
provider confirms the deposit.

* `Provider.Echoes` — a success callback that returns what was sent.
* `Provider.Echoes.parsed` — it is read back as it was sent, in every unit and notation.
* `settled_round_trip_iff` — when it settles the deposit it is about.
-/

namespace WalletLedger

variable {cfg : Config} {pay : Payments} {r : WebhookRequest} {s : Store} {t : Transaction}

/-! ## What is sent, and what comes back -/

/-- The payload is the provider's success callback, with the reference, the amount and the
currency that it was sent for the deposit. -/
def Provider.Echoes (p : Provider) (payload : PyJson) (t : Transaction) : Prop :=
  match p with
  | .stripe =>
      let sent := StripeProvider.intent t.amount t.currency t.id.text
      payload.get "type" = .ok (.str "payment_intent.succeeded") ∧
        ∃ data object metadata, payload.getD "data" (.obj []) = .ok data ∧
          data.getD "object" (.obj []) = .ok object ∧
          object.getD "metadata" (.obj []) = .ok metadata ∧
          metadata.getD "transaction_id" (.str "") = .ok (.str sent.transactionId) ∧
          object.get "amount" = .ok (.int sent.amount) ∧
          object.get "currency" = .ok (.str sent.currency)
  | .pawapay =>
      ∃ correspondent context,
        let sent := PawaPayProvider.deposit t.amount t.currency t.id.text correspondent context
        payload.get "status" = .ok (.str "COMPLETED") ∧
          payload.getD "depositId" (.str "") = .ok (.str sent.depositId) ∧
          payload.get "amount" = .ok (.str sent.amount) ∧
          payload.get "currency" = .ok (.str sent.currency)
  | .paypal =>
      let sent := PayPalProvider.order t.amount t.currency t.id.text
      payload.get "event_type" = .ok (.str "PAYMENT.CAPTURE.COMPLETED") ∧
        ∃ resource amountObj, payload.getD "resource" (.obj []) = .ok resource ∧
          resource.getD "amount" (.obj []) = .ok amountObj ∧
          resource.getD "custom_id" (.str "") = .ok (.str sent.customId) ∧
          amountObj.get "value" = .ok (.str sent.value) ∧
          amountObj.get "currency_code" = .ok (.str sent.currencyCode)

/-- The callback says what was sent: a success, for this deposit, of its amount in its
currency. -/
structure CallbackResult.Confirms (result : CallbackResult) (t : Transaction) : Prop where
  reference : result.reference = .str t.id.text
  success : result.isSuccess = true
  amount : result.amount = some (.finite t.amount)
  currency : result.currency = .null ∨ ∃ c, result.currency = .str c ∧ c.toUpper = t.currency

/-- What echoes is read back as it was sent. -/
theorem Provider.Echoes.parsed {p : Provider} {payload : PyJson} (h : p.Echoes payload t)
    (hgrid : t.amount ∈ Decimal.grid (decimalsFor t.currency))
    (hfits : |t.amount * 10 ^ decimalsFor t.currency| < 10 ^ Decimal.precision)
    (hcode : t.currency.toUpper = t.currency) :
    ∃ result, (pay.adapter p).parseCallback payload = .ok result ∧ result.Confirms t := by
  have htext : PyJson.toDecimal (.str (Decimal.text (decimalsFor t.currency) t.amount)) =
      .ok (.finite t.amount) := by
    have hstr : ∀ x, PyJson.toDecimal (.str x) =
        ((DecimalValue.ofString x).map .ok).getD (.error .invalidOperation) := fun _ => rfl
    rw [hstr, DecimalValue.ofString_text hgrid]
    rfl
  have hstated : PyJson.truthy (.str (Decimal.text (decimalsFor t.currency) t.amount)) = true := by
    by_contra hempty
    have hnil : Decimal.text (decimalsFor t.currency) t.amount = "" := by
      simpa [PyJson.truthy] using hempty
    rw [hnil] at htext
    have herror : PyJson.toDecimal (.str "") = .error .invalidOperation := by decide +kernel
    rw [herror] at htext
    cases htext
  cases p with
  | stripe =>
    have hevent : StripeProvider.Event payload (.str "payment_intent.succeeded") (.str t.id.text)
        (.int (StripeProvider.intent t.amount t.currency t.id.text).amount)
        (.str (StripeProvider.intent t.amount t.currency t.id.text).currency) := ⟨h.1, h.2⟩
    have hparsed := StripeProvider.parseCallback_event hevent hgrid hfits
    rw [hcode] at hparsed
    refine ⟨_, hparsed, ⟨rfl, rfl, rfl, ?_⟩⟩
    by_cases hempty : t.currency = ""
    · exact .inl (if_pos hempty)
    · exact .inr ⟨t.currency, if_neg hempty, hcode⟩
  | pawapay =>
    obtain ⟨correspondent, context, hstatus, hreference, hamount, hcurrency⟩ := h
    refine ⟨⟨.str t.id.text, true, some (.finite t.amount), .str t.currency.toUpper⟩, ?_,
      ⟨rfl, rfl, rfl, .inr ⟨_, rfl, by rw [hcode, hcode]⟩⟩⟩
    refine except_bind_ok.2 ⟨_, hamount, (if_pos hstated).trans ?_⟩
    exact except_bind_ok.2 ⟨_, except_map_ok.2 ⟨_, htext, rfl⟩, except_bind_ok.2 ⟨_, hreference,
      except_bind_ok.2 ⟨_, hstatus, except_bind_ok.2 ⟨_, hcurrency, rfl⟩⟩⟩⟩
  | paypal =>
    obtain ⟨htype, resource, amountObj, hresource, hobj, hreference, hvalue, hcurrency⟩ := h
    refine ⟨⟨.str t.id.text, true, some (.finite t.amount), .str t.currency.toUpper⟩, ?_,
      ⟨rfl, rfl, rfl, .inr ⟨_, rfl, by rw [hcode, hcode]⟩⟩⟩
    refine except_bind_ok.2 ⟨_, hresource, except_bind_ok.2 ⟨_, hobj, except_bind_ok.2 ⟨_, hvalue,
      except_bind_ok.2 ⟨_, hreference, except_bind_ok.2 ⟨_, htype, (if_pos hstated).trans ?_⟩⟩⟩⟩⟩
    exact except_bind_ok.2 ⟨_, except_map_ok.2 ⟨_, htext, rfl⟩,
      except_bind_ok.2 ⟨_, hcurrency, rfl⟩⟩

/-! ## The reference that is stored -/

/-- PawaPay and PayPal keep the deposit's own id; Stripe, offline, makes another reference of it. -/
theorem Transaction.Charged.reference_eq {name : String} {context : DepositContext}
    (h : t.Charged (cfg.withPayments pay) name context) {p : Provider}
    (hp : Provider.ofName name = some p) :
    (p ≠ .stripe → t.reference = some t.id.text) ∧
      (p = .stripe → pay.stripe.apiKey = "" → t.reference = some ("pi_stub_" ++ t.id.text)) := by
  obtain ⟨port, reference, hport, hcreate, href⟩ := h.reference
  have hprovider : PaymentAdapter.toPaymentProvider <$> pay.getPaymentProvider name =
      .ok port := hport
  rw [Payments.getPaymentProvider_eq, hp] at hprovider
  obtain rfl : (pay.adapter p).toPaymentProvider = port := Except.ok.inj hprovider
  rw [href]
  cases p with
  | stripe =>
    refine ⟨absurd rfl, fun _ hoffline => ?_⟩
    have hstub : Except.ok ("pi_stub_" ++ t.id.text) = Except.ok reference :=
      (if_pos hoffline).symm.trans hcreate
    cases hstub
    rfl
  | pawapay =>
    refine ⟨fun _ => ?_, nofun⟩
    have hcreate : pay.pawapay.createDeposit pay.services t.amount t.currency t.id.text context =
        .ok reference := hcreate
    unfold PawaPayProvider.createDeposit at hcreate
    dsimp only at hcreate
    split at hcreate
    · cases hcreate
    · split at hcreate
      · cases hcreate
        rfl
      · obtain ⟨_, -, hsame⟩ := except_bind_ok.1 hcreate
        cases hsame
        rfl
  | paypal =>
    refine ⟨fun _ => ?_, nofun⟩
    have hcreate : pay.paypal.createDeposit pay.services t.amount t.currency t.id.text context =
        .ok reference := hcreate
    unfold PayPalProvider.createDeposit at hcreate
    split at hcreate
    · cases hcreate
      rfl
    · obtain ⟨_, -, hsame⟩ := except_bind_ok.1 hcreate
      cases hsame
      rfl

/-- **Round trip.**  In every state that operations and webhooks reach, the authentic success
callback for a pending deposit settles exactly this deposit, with exactly its amount, if and only
if the deposit is the first transaction to be stored under its own id as reference, and its
posting can be written.  PawaPay and PayPal store that id; Stripe does not when it is offline. -/
theorem settled_round_trip_iff (h : Run (Call.run (cfg.withPayments pay) pay) anyOp Store.empty s)
    (ht : t ∈ s.db.books.transactions) (hpending : t.status = .pending) {name : String}
    {accountId : Id} {context : DepositContext} (hd : t.details = .deposit name accountId context)
    {p : Provider} (hp : Provider.ofName name = some p) (hn : r.Names p)
    (hv : (pay.adapter p).verifyWebhook r.rawBody r.signature = .ok true)
    (he : p.Echoes r.payload t) :
    (s.db.books.SettledFor t accountId (r.run (cfg.withPayments pay) pay s).db.books ↔
      s.db.books.transactions.find? (fun u => u.reference = some t.id.text) = some t ∧
        s.db.books.CanSettle (cfg.withPayments pay) s.seqs t accountId) ∧
      (p ≠ .stripe → t.reference = some t.id.text) ∧
      (p = .stripe → pay.stripe.apiKey = "" →
        ¬ s.db.books.SettledFor t accountId (r.run (cfg.withPayments pay) pay s).db.books) := by
  have hs := served_of_run h
  have ha : t.details.accountId = .ok accountId := by rw [hd]; rfl
  obtain ⟨authorized, hmake, hamount, hcurrency⟩ := hs.linked.make_amount hs.fits ht
  have hfits := authorized.fits
  have hcode := authorized.isUpper
  rw [hamount, hcurrency] at hfits
  rw [hcurrency] at hcode
  obtain ⟨result, hparsed, hconfirms⟩ :=
    he.parsed (hs.linked.transactions t ht).2 hfits hcode
  have hcallback : r.callback pay = .ok result :=
    WebhookRequest.callback_ok_iff.2 ⟨p, hn, hv, hparsed⟩
  have hbound : pay.services.bound result.reference = .ok (some t.id.text) := by
    rw [hconfirms.reference]
    rfl
  have hreconcile : result.reconcile t authorized = .ok () :=
    CallbackResult.reconcile_ok_iff.2 ⟨hconfirms.currency, .inr ⟨t.amount, hconfirms.amount, hmake⟩⟩
  have hiff : s.db.books.SettledFor t accountId (r.run (cfg.withPayments pay) pay s).db.books ↔
      s.db.books.transactions.find? (fun u => u.reference = some t.id.text) = some t ∧
        s.db.books.CanSettle (cfg.withPayments pay) s.seqs t accountId := by
    constructor
    · intro hsettled
      have hsettles : r.Settles (cfg.withPayments pay) pay s t :=
        ⟨by rw [hpending]; decide, hsettled.hasStatus ht⟩
      obtain ⟨-, ⟨result', hresult⟩, hcan⟩ := (hs.settles_iff ht ha).1 hsettles
      cases hcallback.symm.trans hresult.callback
      obtain ⟨reference, hreference, hfound⟩ := hresult.found
      cases hbound.symm.trans hreference
      exact ⟨hfound, hcan⟩
    · rintro ⟨hfound, hcan⟩
      have haccepted : r.Accepted pay s.db.books t result :=
        ⟨hcallback, hconfirms.success, ⟨_, hbound, hfound⟩, ⟨authorized, hmake, hreconcile⟩⟩
      rcases hs.accepted haccepted hpending ha with ⟨-, hsettled⟩ | ⟨hnot, -⟩
      · exact hsettled
      · exact absurd hcan hnot
  have hreference := (hs.charged t ht name accountId context hd).reference_eq hp
  refine ⟨hiff, hreference.1, fun hstripe hoffline hsettled => ?_⟩
  have hfound := List.find?_some (hiff.1 hsettled).1
  rw [decide_eq_true_eq, hreference.2 hstripe hoffline, Option.some_inj] at hfound
  have hlength := congrArg String.length hfound
  rw [String.length_append] at hlength
  have hstub : "pi_stub_".length = 8 := by decide
  omega

/-- A deposit of 200 through Stripe, which is offline. -/
def stripeDeposit : List Call :=
  [.operation (.createAccount "alice" "USD"),
    .operation (.initiateDeposit 0 200 "stripe" ⟨none, none⟩ (some "c1"))]

/-- The event Stripe sends when it is paid. -/
def intentWebhook : WebhookRequest :=
  { path := some "stripe"
    stripeSignature := some
      "t=1,v1=d0b77804f8415f0f8832617646441a7631b2f43522f671b585366a3e0080ddff"
    xSignature := none
    xProvider := none
    rawBody := intentBody
    json := some (.obj [("type", .str "payment_intent.succeeded"),
      ("data", .obj [("object", .obj [("amount", .int 20000), ("currency", .str "usd"),
        ("metadata", .obj [("transaction_id", .str "1")])])])]) }

/-- The event carries the deposit's id and finds nothing: the deposit stays pending. -/
theorem stripe_event_unmatched :
    let cfg := (offlineConfig 3).withPayments offlinePayments
    let s := callAll cfg offlinePayments stripeDeposit Store.empty
    Run (Call.run cfg offlinePayments) anyOp Store.empty s ∧
      ∃ t ∈ s.db.books.transactions, t.status = .pending ∧
        t.details = .deposit "stripe" 0 ⟨none, none⟩ ∧
        (offlinePayments.adapter .stripe).verifyWebhook intentWebhook.rawBody
          intentWebhook.signature = .ok true ∧
        Provider.Echoes .stripe intentWebhook.payload t ∧
        ¬ s.db.books.SettledFor t 0 (intentWebhook.run cfg offlinePayments s).db.books := by
  intro cfg s
  have hstate : ∃ t ∈ s.db.books.transactions, (t.status = .pending ∧
      t.details = .deposit "stripe" 0 ⟨none, none⟩ ∧ t.amount = 200 ∧ t.currency = "USD" ∧
      t.id = 1) ∧ ¬ (intentWebhook.run cfg offlinePayments s).db.books.HasStatus t.id .success := by
    decide +kernel
  obtain ⟨t, ht, ⟨hp, hd, hamount, hcurrency, hid⟩, hnot⟩ := hstate
  have hsent : StripeProvider.intent t.amount t.currency t.id.text = ⟨20000, "usd", "1"⟩ := by
    rw [hamount, hcurrency, hid]
    decide +kernel
  refine ⟨Run.foldl _, t, ht, hp, hd, by decide +kernel, ?_, fun hsettled =>
    hnot (hsettled.hasStatus ht)⟩
  unfold Provider.Echoes
  rw [hsent]
  exact ⟨rfl, _, _, _, rfl, rfl, rfl, rfl, rfl, rfl⟩

/-- The confirmation of PawaPay settles its deposit. -/
theorem pawapay_round_trip :
    let cfg := (offlineConfig 3).withPayments offlinePayments
    let s := callAll cfg offlinePayments pawapayDeposit Store.empty
    ∃ t ∈ s.db.books.transactions, t.amount = 5000 ∧
      s.db.books.SettledFor t 0 (ownWebhook.run cfg offlinePayments s).db.books := by
  intro cfg s
  have hstate : ∃ t ∈ s.db.books.transactions, t.status = .pending ∧
      t.details = .deposit "pawapay" 0 ⟨some "mtn", some "237650000000"⟩ ∧ t.amount = 5000 ∧
      t.currency = "XAF" ∧ t.id = 1 ∧
      s.db.books.transactions.find? (fun u => u.reference = some t.id.text) = some t ∧
      s.db.books.CanSettle cfg s.seqs t 0 := by decide +kernel
  obtain ⟨t, ht, hp, hd, hamount, hcurrency, hid, hfound, hcan⟩ := hstate
  refine ⟨t, ht, hamount, (settled_round_trip_iff (Run.foldl _) ht hp hd (p := .pawapay)
    (by decide +kernel) ⟨"pawapay", rfl, by decide +kernel⟩ (by decide +kernel) ?_).1.2
      ⟨hfound, hcan⟩⟩
  have hsent : PawaPayProvider.deposit t.amount t.currency t.id.text "MTN_MOMO_CMR"
      ⟨some "mtn", some "237650000000"⟩ = ⟨"1", "5000", "XAF", "MTN_MOMO_CMR", "237650000000"⟩ := by
    rw [hamount, hcurrency, hid]
    decide +kernel
  refine ⟨"MTN_MOMO_CMR", ⟨some "mtn", some "237650000000"⟩, ?_⟩
  rw [hsent]
  exact ⟨rfl, rfl, rfl, rfl⟩

end WalletLedger
