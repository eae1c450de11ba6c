import WalletLedger.Application.Fx
import WalletLedger.Lib.Rounding

/-!
# What a conversion yields

A conversion multiplies by a rate of eight decimals and rounds half to even, to the
precision of the target currency.  Small amounts can vanish in it, or grow.

* `convert_ok` — the amount a conversion yields, from the rate that is quoted.
* `converted_pos_iff` — it yields something as soon as the product exceeds half a unit.
* `round_trip_bounded` — how much there and back can yield; `round_trip_gain` is a gain.
-/

namespace WalletLedger

variable {rates : RateTable} {base quote currency : String} {rate : Decimal}

/-! ## Rates -/

/-- A rate on the table. -/
theorem RateTable.mem_of_find (h : rates.find currency = .ok rate) : (currency, rate) ∈ rates := by
  unfold find at h
  split at h
  · cases h
    obtain ⟨l, m, hl, -⟩ := List.lookup_eq_some_iff.1 ‹_›
    rw [hl]
    simp
  · cases h

/-- A quoted rate is one, or the quotient of two rates on the table, to eight decimals. -/
theorem getRate_ok (h : getRate rates base quote = .ok rate) :
    rate = 1 ∨ ∃ perBase perQuote, rates.find base.toUpper = .ok perBase ∧
      rates.find quote.toUpper = .ok perQuote ∧
      Decimal.quantize 8 (Decimal.roundContext (perQuote / perBase)) = some rate := by
  unfold getRate at h
  split at h
  · exact .inl (Except.ok.inj h).symm
  · obtain ⟨perBase, hbase, h⟩ := except_bind_ok.1 h
    obtain ⟨perQuote, hquote, h⟩ := except_bind_ok.1 h
    refine .inr ⟨perBase, perQuote, hbase, hquote, ?_⟩
    dsimp only at h
    split at h
    · cases h
    · split at h
      · cases h
        assumption
      · cases h

theorem getRate_mem_grid (h : getRate rates base quote = .ok rate) : rate ∈ Decimal.grid 8 := by
  rcases getRate_ok h with rfl | ⟨perBase, perQuote, -, -, hquantize⟩
  · exact Decimal.mem_grid_iff.2 ⟨10 ^ 8, by norm_num⟩
  · exact Decimal.quantize_mem_grid hquantize

/-- No quoted rate is negative if no rate on the table is. -/
theorem getRate_nonneg (hrates : ∀ p ∈ rates, 0 ≤ p.2) (h : getRate rates base quote = .ok rate) :
    0 ≤ rate := by
  rcases getRate_ok h with rfl | ⟨perBase, perQuote, hbase, hquote, hquantize⟩
  · norm_num
  · have hb := hrates _ (RateTable.mem_of_find hbase)
    have hq := hrates _ (RateTable.mem_of_find hquote)
    exact Decimal.quantize_nonneg (Decimal.roundContext_nonneg (div_nonneg hq hb)) hquantize

/-! ## Conversions -/

variable {m y z : Money}

theorem convert_ok (h : FxService.convert rates m currency = .ok y) :
    ∃ rate, getRate rates m.currency currency = .ok rate ∧
      Decimal.quantize (decimalsFor currency) (Decimal.roundContext (m.amount * rate)) =
        some y.amount ∧ y.currency = currency.toUpper := by
  obtain ⟨rate, hrate, hmake⟩ := except_bind_ok.1 h
  exact ⟨rate, hrate, Money.quantize_of_make hmake⟩

theorem convert_nonneg (hrates : ∀ p ∈ rates, 0 ≤ p.2) (hm : 0 ≤ m.amount)
    (h : FxService.convert rates m currency = .ok y) : 0 ≤ y.amount := by
  obtain ⟨rate, hrate, hquantize, -⟩ := convert_ok h
  have hr := getRate_nonneg hrates hrate
  exact Decimal.quantize_nonneg (Decimal.roundContext_nonneg (mul_nonneg hm hr)) hquantize

/-- Something is left as soon as the product exceeds half a unit of the target currency. -/
theorem converted_pos_iff (hrates : ∀ p ∈ rates, 0 ≤ p.2) (hm : 0 ≤ m.amount)
    (h : FxService.convert rates m currency = .ok y)
    (hrate : getRate rates m.currency currency = .ok rate) :
    0 < y.amount ↔ 1 / 2 < m.amount * rate * 10 ^ decimalsFor currency := by
  obtain ⟨rate', hrate', hquantize, -⟩ := convert_ok h
  obtain rfl : rate = rate' := Except.ok.inj (hrate.symm.trans hrate')
  have hx : 0 ≤ m.amount * rate := mul_nonneg hm (getRate_nonneg hrates hrate)
  rw [Decimal.quantize_pos_iff (Decimal.roundContext_nonneg hx) hquantize]
  have hgrid : m.amount * rate ∈ Decimal.grid 16 := by
    obtain ⟨k, hk⟩ := Decimal.mem_grid_iff.1 m.amount_mem_grid
    obtain ⟨l, hl⟩ := Decimal.mem_grid_iff.1 (getRate_mem_grid hrate)
    exact Decimal.mem_grid_iff.2 ⟨k * l, by rw [hk, hl]; push_cast; ring⟩
  by_cases hfits : |m.amount * rate * 10 ^ 16| < 10 ^ Decimal.precision
  · rw [Decimal.roundContext_of_fits hgrid hfits]
  · -- the product is so large that no rounding comes near half a unit
    have hone : 1 ≤ m.amount * rate := by
      rw [abs_of_nonneg (by positivity)] at hfits
      unfold Decimal.precision at hfits
      linarith
    have hround : 1 ≤ Decimal.roundContext (m.amount * rate) :=
      Decimal.le_roundContext (d := 0) (by norm_num) (Decimal.mem_grid_iff.2 ⟨1, by norm_num⟩)
        (by norm_num [Decimal.precision]) hone
    have hpow : (1 : ℚ) ≤ 10 ^ decimalsFor currency := one_le_pow₀ (by norm_num)
    exact iff_of_true (by nlinarith) (by nlinarith)

/-- **There and back.**  Converting an amount and converting the result back yields at most
what the two quoted rates make of it, with each leg rounded up by eleven twentieths of a unit;
and it yields no more than the amount itself unless the intermediate result is worth more at
the rate back. -/
theorem round_trip_bounded {rate' : Decimal} (hrates : ∀ p ∈ rates, 0 < p.2) (hm : 0 < m.amount)
    (hrate : getRate rates m.currency currency = .ok rate)
    (hrate' : getRate rates y.currency m.currency = .ok rate')
    (hthere : FxService.convert rates m currency = .ok y)
    (hback : FxService.convert rates y m.currency = .ok z) :
    z.amount ≤ (m.amount * rate + 11 / 20 / 10 ^ decimalsFor currency) * rate' +
        11 / 20 / 10 ^ decimalsFor m.currency ∧
      (y.amount * rate' ≤ m.amount → z.amount ≤ m.amount) := by
  have hrates' : ∀ p ∈ rates, 0 ≤ p.2 := fun p hp => (hrates p hp).le
  have hr' := getRate_nonneg hrates' hrate'
  have hy := convert_nonneg hrates' hm.le hthere
  obtain ⟨r, hr, hquantize, -⟩ := convert_ok hthere
  obtain rfl : rate = r := Except.ok.inj (hrate.symm.trans hr)
  obtain ⟨r, hr, hquantize', -⟩ := convert_ok hback
  obtain rfl : rate' = r := Except.ok.inj (hrate'.symm.trans hr)
  constructor
  · have hleg := (abs_le.1 (Decimal.abs_quantize_roundContext_sub_le hquantize)).2
    have hleg' := (abs_le.1 (Decimal.abs_quantize_roundContext_sub_le hquantize')).2
    calc z.amount ≤ y.amount * rate' + 11 / 20 / 10 ^ decimalsFor m.currency := by linarith
      _ ≤ _ := by
        gcongr
        linarith
  · intro hle
    have hround := Decimal.roundContext_le (mul_nonneg hy hr') m.onGrid m.fits hle
    exact Decimal.quantize_le m.onGrid hround hquantize'

/-- At the reference rates, one yen buys a cent, and the cent buys two. -/
theorem yen_there_and_back :
    ∃ m y z : Money, m.amount = 1 ∧ m.currency = "JPY" ∧ y.currency = "EUR" ∧ z.amount = 2 ∧
      FxService.convert referencePerEur m "EUR" = .ok y ∧
      FxService.convert referencePerEur y m.currency = .ok z := by
  have hrun : (do
      let m ← Money.make 1 "JPY"
      let y ← FxService.convert referencePerEur m "EUR"
      let z ← FxService.convert referencePerEur y m.currency
      return (m.amount, m.currency, y.currency, z.amount)) =
      (.ok (1, "JPY", "EUR", 2) : Except Exn (Decimal × String × String × Decimal)) := by
    decide +kernel
  obtain ⟨m, -, h⟩ := except_bind_ok.1 hrun
  obtain ⟨y, hy, h⟩ := except_bind_ok.1 h
  obtain ⟨z, hz, h⟩ := except_bind_ok.1 h
  simp only [pure, Except.pure, Except.ok.injEq, Prod.mk.injEq] at h
  exact ⟨m, y, z, h.1, h.2.1, h.2.2.1, h.2.2.2, hy, hz⟩

theorem round_trip_gain :
    ¬ ∀ (rates : RateTable) (m y z : Money) (currency : String), (∀ p ∈ rates, 0 < p.2) →
      0 < m.amount → currency.toUpper ≠ m.currency → FxService.convert rates m currency = .ok y →
      FxService.convert rates y m.currency = .ok z → z.amount ≤ m.amount := by
  intro hclaim
  obtain ⟨m, y, z, hm, hcurrency, -, hz, hthere, hback⟩ := yen_there_and_back
  have hle := hclaim referencePerEur m y z "EUR" (by decide +kernel) (by rw [hm]; norm_num)
    (by rw [hcurrency]; decide +kernel) hthere hback
  rw [hm, hz] at hle
  norm_num at hle

/-- The gain is within the bound. -/
theorem round_trip_bounded_yen :
    ∃ m y z : Money, m.amount = 1 ∧ FxService.convert referencePerEur m "EUR" = .ok y ∧
      FxService.convert referencePerEur y m.currency = .ok z ∧
      z.amount ≤ (1 * 0.00589971 + 11 / 20 / 10 ^ 2) * 169.5 + 11 / 20 / 10 ^ 0 := by
  obtain ⟨m, y, z, hm, hcurrency, hy, -, hthere, hback⟩ := yen_there_and_back
  have hrate : getRate referencePerEur m.currency "EUR" = .ok 0.00589971 := by
    rw [hcurrency]
    decide +kernel
  have hrate' : getRate referencePerEur y.currency m.currency = .ok 169.5 := by
    rw [hy, hcurrency]
    decide +kernel
  have hbound := round_trip_bounded (by decide +kernel) (by rw [hm]; norm_num) hrate hrate' hthere
    hback
  have hdecimals : decimalsFor "EUR" = 2 ∧ decimalsFor "JPY" = 0 := by decide +kernel
  rw [hm, hcurrency, hdecimals.1, hdecimals.2] at hbound
  exact ⟨m, y, z, hm, hthere, hback, hbound.1⟩

end WalletLedger
