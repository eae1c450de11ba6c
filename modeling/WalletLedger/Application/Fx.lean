import WalletLedger.Application.Ledger
import WalletLedger.Application.Notifications

/-!
# Currency exchange

`application/fx.py` and `infrastructure/fx_rates.py`: an exchange passes through two
internal pool accounts, one per currency, so that each currency balances on its own.
-/

namespace WalletLedger

/-- Units of each currency for one euro. -/
abbrev RateTable := List (String × Decimal)

/-- `_REFERENCE_PER_EUR`: the table to fall back on. -/
def referencePerEur : RateTable :=
  [("EUR", 1), ("USD", 1.08), ("GBP", 0.85), ("JPY", 169.50), ("XAF", 655.957), ("XOF", 655.957)]

/-- `rates[base]`, which must be on the table. -/
def RateTable.find (rates : RateTable) (currency : String) : Except Exn Decimal :=
  match rates.lookup currency with
  | some rate => .ok rate
  | none => .error (.domain (.unknownCurrency currency))

/-- `get_rate`: the euro is the pivot, and the rate is quantised to eight decimals. -/
def getRate (rates : RateTable) (base quote : String) : Except Exn Decimal :=
  if base.toUpper = quote.toUpper then .ok 1
  else do
    let perBase ← rates.find base.toUpper
    let perQuote ← rates.find quote.toUpper
    if perBase = 0 then throw (if perQuote = 0 then .invalidOperation else .divisionByZero)
    match Decimal.quantize 8 (Decimal.roundContext (perQuote / perBase)) with
    | some rate => return rate
    | none => throw .invalidOperation

namespace FxService

/-- `convert`. -/
def convert (rates : RateTable) (money : Money) (toCurrency : String) : Except Exn Money := do
  let rate ← getRate rates money.currency toCurrency
  Money.make (Decimal.roundContext (money.amount * rate)) toCurrency

/-- `execute_fx_transfer`, at the rates of the moment. -/
def executeFxTransfer (cfg : Config) (rates : RateTable) (senderId receiverId : Id)
    (amount : Decimal) (correlationId : Option String) : App Transaction := do
  let sender ← AccountService.lock senderId
  let receiver ← AccountService.get receiverId
  raiseIf (sender.currency = receiver.currency) (.domain (.sameCurrency sender.currency))
  let sent ← Program.ofExcept (Money.make amount sender.currency)
  raiseIf (¬ sent.isPositive) (.domain .invalidAmount)
  let available ← LedgerService.availableBalance sender
  Program.ofExcept (AccountAggregate.ensureCanDebit sent available)
  let received ← Program.ofExcept (convert rates sent receiver.currency)
  let poolFrom ← AccountService.getOrCreateInternal fxPoolOwner sender.currency
  let poolTo ← AccountService.getOrCreateInternal fxPoolOwner receiver.currency
  let correlationId ← correlationIdOr correlationId
  let txn ← ask (.mutate (.insertTransaction .fxTransfer .success sent.amount sent.currency
    (.fxTransfer sender.id receiver.id received.text received.currency) (some correlationId)))
  let transaction :=
    ((((TransactionAggregate.new sent.currency).debit sender.id sent).credit poolFrom.id sent).debit
      poolTo.id received).credit receiver.id received
  LedgerService.post transaction txn.id
  Program.forEach [sender, receiver, poolFrom, poolTo] (LedgerService.maybeSnapshot cfg)
  ask .commit
  -- the payload selects the expired objects again
  let txn ← reloadTransaction txn.id
  let sender ← reloadAccount sender.id
  let receiver ← reloadAccount receiver.id
  EventBus.publish (subscribers cfg)
    { eventType := .transferCompleted
      payload :=
        { transactionId := txn.id
          senderId := some sender.id
          receiverId := some receiver.id
          amount := some sent.text
          currency := some sent.currency
          targetAmount := some received.text
          targetCurrency := some received.currency }
      correlationId := some correlationId }
  return txn

end FxService

end WalletLedger
