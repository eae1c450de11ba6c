import WalletLedger.Application.Fx
import WalletLedger.Infrastructure.Idempotency

/-!
# Quotes

`GET /fx/convert` of `api/fx.py`: what an amount of one currency is worth in another.  It reads
the rates and nothing else.

* `fxConvert` — the endpoint.
-/

namespace WalletLedger

/-- The arguments of a quote, as `FxConvertSchema` loads them. -/
structure FxConvertQuery where
  fromCurrency : String
  toCurrency : String
  amount : Decimal
  deriving DecidableEq

/-- `GET /fx/convert`; arguments that the schema refuses are `none`. -/
def fxConvert (rates : RateTable) (data : Option FxConvertQuery) : Except Exn Response :=
  match data with
  | none => .error .validationError
  | some data => do
      let money ← Money.make data.amount data.fromCurrency
      let converted ← FxService.convert rates money data.toCurrency
      return ⟨200, [("converted_amount", .text converted.text),
        ("currency", .text converted.currency)]⟩

theorem fxConvert_ok {rates : RateTable} {data : FxConvertQuery} {money converted : Money}
    (hmoney : Money.make data.amount data.fromCurrency = .ok money)
    (hconverted : FxService.convert rates money data.toCurrency = .ok converted) :
    fxConvert rates (some data) = .ok ⟨200, [("converted_amount", .text converted.text),
      ("currency", .text converted.currency)]⟩ := by
  unfold fxConvert
  dsimp only
  rw [hmoney]
  show (FxService.convert rates money data.toCurrency).bind _ = _
  rw [hconverted]
  rfl

end WalletLedger
