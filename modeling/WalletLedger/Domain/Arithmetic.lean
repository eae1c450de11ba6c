import WalletLedger.Domain.Money
import WalletLedger.Lib.Rounding

/-!
# The laws of money

The constructor rounds to the nearest amount of the currency, half to even.  Between values of
one currency nothing is left to round: `+`, `-` and the comparisons are those of the amounts.

* `make_ok_iff`, `add_ok_iff`, `sub_ok_iff`, `neg_ok_iff` — what is returned, if the amount fits
  the digits of the context.
* `Quantises`, `ExactGroup`, `Compares`, `RefusesMixed` — the laws, one group each.
* `money_laws` — they hold in every currency.
-/

namespace WalletLedger

namespace Money

variable {m n p : Money} {x y : Decimal} {c : String}

/-! ## What the operations return -/

theorem make_ok_iff : make x c = .ok m ↔
    Decimal.quantize (decimalsFor c) x = some m.amount ∧ m.currency = c.toUpper := by
  constructor
  · exact quantize_of_make
  · rintro ⟨hq, hc⟩
    unfold make
    split
    · rename_i h
      rw [hq] at h
      cases h
    · rename_i z h
      rw [hq] at h
      cases h
      exact congrArg Except.ok (Money.ext rfl hc.symm)

/-- The constructor and the context together, on an amount at the precision of the currency. -/
theorem make_roundContext (hx : x ∈ Decimal.grid (decimalsFor m.currency)) :
    make (Decimal.roundContext x) m.currency = .ok p ↔ p.amount = x ∧ p.currency = m.currency := by
  rw [make_ok_iff, Decimal.quantize_roundContext hx, m.isUpper]
  refine and_congr_left fun hc => ⟨fun hq => Decimal.eq_of_quantize hx hq, ?_⟩
  rintro rfl
  rw [Decimal.quantize_of_mem_grid hx, if_pos (hc ▸ p.fits)]

theorem ensureSameCurrency_of_eq (h : m.currency = n.currency) :
    ensureSameCurrency m n = .ok () := if_neg (not_not.2 h)

theorem ensureSameCurrency_of_ne (h : m.currency ≠ n.currency) :
    ensureSameCurrency m n = .error (.domain (.currencyMismatch m.currency n.currency)) := if_pos h

/-- The sum is exact; it is returned if it fits. -/
theorem add_ok_iff : m.add n = .ok p ↔
    m.currency = n.currency ∧ p.currency = m.currency ∧ p.amount = m.amount + n.amount := by
  by_cases hc : m.currency = n.currency
  · have hgrid : m.amount + n.amount ∈ Decimal.grid (decimalsFor m.currency) :=
      (Decimal.grid _).add_mem m.onGrid (hc ▸ n.onGrid)
    rw [add, ensureSameCurrency_of_eq hc]
    exact (make_roundContext hgrid).trans (by tauto)
  · rw [add, ensureSameCurrency_of_ne hc]
    exact ⟨fun h => (by cases h), fun h => absurd h.1 hc⟩

theorem sub_ok_iff : m.sub n = .ok p ↔
    m.currency = n.currency ∧ p.currency = m.currency ∧ p.amount = m.amount - n.amount := by
  by_cases hc : m.currency = n.currency
  · have hgrid : m.amount - n.amount ∈ Decimal.grid (decimalsFor m.currency) :=
      (Decimal.grid _).sub_mem m.onGrid (hc ▸ n.onGrid)
    rw [sub, ensureSameCurrency_of_eq hc]
    exact (make_roundContext hgrid).trans (by tauto)
  · rw [sub, ensureSameCurrency_of_ne hc]
    exact ⟨fun h => (by cases h), fun h => absurd h.1 hc⟩

theorem neg_ok_iff : m.neg = .ok p ↔ p.currency = m.currency ∧ p.amount = -m.amount :=
  (make_roundContext ((Decimal.grid _).neg_mem m.onGrid)).trans and_comm

theorem make_error_iff {e : Exn} : make x c = .error e ↔
    Decimal.quantize (decimalsFor c) x = none ∧ e = .invalidOperation := by
  unfold make
  split
  · rename_i hq
    exact ⟨fun h => ⟨hq, (Except.error.inj h).symm⟩, fun h => congrArg Except.error h.2.symm⟩
  · rename_i hq
    constructor
    · intro h
      cases h
    · rintro ⟨hnone, -⟩
      rw [hq] at hnone
      cases hnone

theorem exists_neg (m : Money) : ∃ n, m.neg = .ok n ∧ n.amount = -m.amount ∧
    n.currency = m.currency := by
  have hfits : |-m.amount * 10 ^ decimalsFor m.currency| < 10 ^ Decimal.precision := by
    rw [neg_mul, abs_neg]
    exact m.fits
  exact ⟨⟨-m.amount, m.currency, (Decimal.grid _).neg_mem m.onGrid, hfits, m.isUpper⟩,
    neg_ok_iff.2 ⟨rfl, rfl⟩, rfl, rfl⟩

theorem exists_zero (c : String) : ∃ z, zero c = .ok z ∧ z.amount = 0 ∧ z.currency = c.toUpper := by
  have hq : Decimal.quantize (decimalsFor c) 0 = some 0 := by
    rw [Decimal.quantize_of_mem_grid (Decimal.grid _).zero_mem,
      if_pos (by norm_num [Decimal.precision])]
  cases hz : zero c with
  | error e => rw [zero, make_error_iff, hq] at hz; cases hz.1
  | ok z =>
    obtain ⟨hamount, hcurrency⟩ := make_ok_iff.1 hz
    rw [hq] at hamount
    exact ⟨z, rfl, (Option.some.inj hamount).symm, hcurrency⟩

/-! ## Comparisons -/

theorem lt_of_eq (h : m.currency = n.currency) : m.lt n = .ok (decide (m.amount < n.amount)) := by
  rw [lt, ensureSameCurrency_of_eq h]
  rfl

theorem le_of_eq (h : m.currency = n.currency) : m.le n = .ok (decide (m.amount ≤ n.amount)) := by
  rw [le, ensureSameCurrency_of_eq h]
  rfl

theorem gt_of_eq (h : m.currency = n.currency) : m.gt n = .ok (decide (n.amount < m.amount)) := by
  rw [gt, ensureSameCurrency_of_eq h]
  rfl

theorem ge_of_eq (h : m.currency = n.currency) : m.ge n = .ok (decide (n.amount ≤ m.amount)) := by
  rw [ge, ensureSameCurrency_of_eq h]
  rfl

theorem lt_true_iff : m.lt n = .ok true ↔ m.currency = n.currency ∧ m.amount < n.amount := by
  by_cases hc : m.currency = n.currency
  · simp [lt_of_eq hc, hc]
  · rw [lt, ensureSameCurrency_of_ne hc]
    exact ⟨fun h => (by cases h), fun h => absurd h.1 hc⟩

theorem le_true_iff : m.le n = .ok true ↔ m.currency = n.currency ∧ m.amount ≤ n.amount := by
  by_cases hc : m.currency = n.currency
  · simp [le_of_eq hc, hc]
  · rw [le, ensureSameCurrency_of_ne hc]
    exact ⟨fun h => (by cases h), fun h => absurd h.1 hc⟩

/-! ## The laws -/

/-- The quantum of a currency, its smallest amount. -/
def quantum (currency : String) : Decimal := 1 / 10 ^ decimalsFor currency

/-- The constructor rounds to the nearest multiple of the quantum, half-way to the even one. -/
structure Quantises (c : String) : Prop where
  defined : ∀ x, |x * 10 ^ decimalsFor c| < 10 ^ Decimal.precision - 1 / 2 →
    ∃ m, make x c = .ok m
  idempotent : ∀ x m, make x c = .ok m → make m.amount m.currency = .ok m
  odd : ∀ x, make (-x) c = (make x c >>= neg)
  monotone : ∀ x y m n, x ≤ y → make x c = .ok m → make y c = .ok n → m.le n = .ok true
  multiple : ∀ x m, make x c = .ok m → ∃ k : ℤ, m.amount = k * quantum c
  nearest : ∀ x m, make x c = .ok m → |m.amount - x| ≤ quantum c / 2
  tie : ∀ x m, make x c = .ok m → |m.amount - x| = quantum c / 2 →
    ∃ k : ℤ, Even k ∧ m.amount = k * quantum c

theorem quantises (c : String) : Quantises c where
  defined := by
    intro x hx
    obtain ⟨y, hy⟩ := Decimal.exists_quantize hx
    cases hm : make x c with
    | ok m => exact ⟨m, rfl⟩
    | error e =>
      rw [make_error_iff, hy] at hm
      cases hm.1
  idempotent _ m _ := make_self m
  odd := by
    intro x
    have hq := Decimal.quantize_neg (decimalsFor c) x
    cases hm : make x c with
    | error e =>
      obtain ⟨hnone, rfl⟩ := make_error_iff.1 hm
      rw [hnone] at hq
      exact make_error_iff.2 ⟨hq, rfl⟩
    | ok m =>
      obtain ⟨hsome, hcurrency⟩ := make_ok_iff.1 hm
      obtain ⟨n, hn, hamount, hcurrency'⟩ := exists_neg m
      rw [hsome, Option.map_some, ← hamount] at hq
      show make (-x) c = m.neg
      rw [hn]
      exact make_ok_iff.2 ⟨hq, hcurrency'.trans hcurrency⟩
  monotone := by
    intro x y m n hxy hm hn
    obtain ⟨hx, hc⟩ := make_ok_iff.1 hm
    obtain ⟨hy, hc'⟩ := make_ok_iff.1 hn
    exact le_true_iff.2 ⟨hc.trans hc'.symm, Decimal.quantize_mono hxy hx hy⟩
  multiple := by
    intro x m hm
    obtain ⟨k, hk⟩ := Decimal.mem_grid_iff.1 (amount_mem_grid_of_make hm)
    exact ⟨k, by rw [hk, quantum, mul_one_div]⟩
  nearest := by
    intro x m hm
    refine (Decimal.abs_quantize_sub_le (make_ok_iff.1 hm).1).trans_eq ?_
    rw [quantum, div_right_comm]
  tie := by
    intro x m hm htie
    rw [quantum, div_right_comm] at htie
    obtain ⟨k, heven, hk⟩ := Decimal.even_of_quantize_tie (make_ok_iff.1 hm).1 htie
    exact ⟨k, heven, by rw [hk, quantum, mul_one_div]⟩

/-- Within a currency, the operations are those of the amounts, wherever the result fits. -/
structure ExactGroup : Prop where
  sum : ∀ m n p : Money, m.currency = n.currency →
    (m.add n = .ok p ↔ p.currency = m.currency ∧ p.amount = m.amount + n.amount)
  difference : ∀ m n p : Money, m.currency = n.currency →
    (m.sub n = .ok p ↔ p.currency = m.currency ∧ p.amount = m.amount - n.amount)
  comm : ∀ m n : Money, m.currency = n.currency → m.add n = n.add m
  assoc : ∀ m n p a b : Money, m.add n = .ok a → n.add p = .ok b → a.add p = m.add b
  zero : ∀ m z : Money, Money.zero m.currency = .ok z → m.add z = .ok m
  inverse : ∀ m : Money, ∃ n, m.neg = .ok n ∧ n.currency = m.currency ∧ n.amount = -m.amount ∧
    n.neg = .ok m ∧ m.add n = Money.zero m.currency
  sub_eq : ∀ m n p : Money, m.currency = n.currency → n.neg = .ok p → m.sub n = m.add p
  sub_add : ∀ m n p : Money, m.sub n = .ok p → p.add n = .ok m
  add_sub : ∀ m n p : Money, m.add n = .ok p → p.sub n = .ok m

theorem exactGroup : ExactGroup where
  sum _ _ _ hc := add_ok_iff.trans (and_iff_right hc)
  difference _ _ _ hc := sub_ok_iff.trans (and_iff_right hc)
  comm := by
    intro m n hc
    rw [add, add, ensureSameCurrency_of_eq hc, ensureSameCurrency_of_eq hc.symm, hc, add_comm]
  assoc := by
    intro m n p a b ha hb
    obtain ⟨hmn, hac, haa⟩ := add_ok_iff.1 ha
    obtain ⟨hnp, hbc, hba⟩ := add_ok_iff.1 hb
    have hap : a.currency = p.currency := hac.trans (hmn.trans hnp)
    have hmb : m.currency = b.currency := hmn.trans hbc.symm
    rw [add, add, ensureSameCurrency_of_eq hap, ensureSameCurrency_of_eq hmb, haa, hba, hac,
      add_assoc]
  zero := by
    intro m z hz
    obtain ⟨z', hz', hamount, hcurrency⟩ := exists_zero m.currency
    obtain rfl : z' = z := Except.ok.inj (hz'.symm.trans hz)
    rw [m.isUpper] at hcurrency
    exact add_ok_iff.2 ⟨hcurrency.symm, rfl, by rw [hamount, add_zero]⟩
  inverse := by
    intro m
    obtain ⟨n, hn, hamount, hcurrency⟩ := exists_neg m
    obtain ⟨z, hz, hzamount, hzcurrency⟩ := exists_zero m.currency
    refine ⟨n, hn, hcurrency, hamount, ?_, ?_⟩
    · exact neg_ok_iff.2 ⟨hcurrency.symm, by rw [hamount, neg_neg]⟩
    · rw [hz]
      rw [m.isUpper] at hzcurrency
      exact add_ok_iff.2 ⟨hcurrency.symm, hzcurrency, by rw [hzamount, hamount, add_neg_cancel]⟩
  sub_eq := by
    intro m n p hc hp
    obtain ⟨hcurrency, hamount⟩ := neg_ok_iff.1 hp
    have hmp : m.currency = p.currency := hc.trans hcurrency.symm
    rw [sub, add, ensureSameCurrency_of_eq hc, ensureSameCurrency_of_eq hmp, hamount,
      sub_eq_add_neg]
  sub_add := by
    intro m n p hp
    obtain ⟨hc, hcurrency, hamount⟩ := sub_ok_iff.1 hp
    exact add_ok_iff.2 ⟨hcurrency.trans hc, hcurrency.symm, by rw [hamount, sub_add_cancel]⟩
  add_sub := by
    intro m n p hp
    obtain ⟨hc, hcurrency, hamount⟩ := add_ok_iff.1 hp
    exact sub_ok_iff.2 ⟨hcurrency.trans hc, hcurrency.symm, by rw [hamount, add_sub_cancel_right]⟩

/-- The comparisons are a total order on each currency, which sums keep. -/
structure Compares : Prop where
  refl : ∀ m : Money, m.le m = .ok true
  antisymm : ∀ m n : Money, m.le n = .ok true → n.le m = .ok true → m = n
  trans : ∀ m n p : Money, m.le n = .ok true → n.le p = .ok true → m.le p = .ok true
  total : ∀ m n : Money, m.currency = n.currency → m.le n = .ok true ∨ n.le m = .ok true
  lt_iff : ∀ m n : Money, m.lt n = .ok true ↔ m.le n = .ok true ∧ m ≠ n
  not_le : ∀ m n : Money, m.currency = n.currency → (m.le n = .ok false ↔ n.lt m = .ok true)
  not_lt : ∀ m n : Money, m.currency = n.currency → (m.lt n = .ok false ↔ n.le m = .ok true)
  gt : ∀ m n : Money, m.currency = n.currency → m.gt n = n.lt m
  ge : ∀ m n : Money, m.currency = n.currency → m.ge n = n.le m
  add_le_add : ∀ m n p a b : Money, m.le n = .ok true → m.add p = .ok a → n.add p = .ok b →
    a.le b = .ok true
  add_lt_add : ∀ m n p a b : Money, m.lt n = .ok true → m.add p = .ok a → n.add p = .ok b →
    a.lt b = .ok true

theorem compares : Compares where
  refl _ := le_true_iff.2 ⟨rfl, le_rfl⟩
  antisymm := by
    intro m n hmn hnm
    obtain ⟨hc, hle⟩ := le_true_iff.1 hmn
    exact Money.ext (le_antisymm hle (le_true_iff.1 hnm).2) hc
  trans := by
    intro m n p hmn hnp
    obtain ⟨hc, hle⟩ := le_true_iff.1 hmn
    obtain ⟨hc', hle'⟩ := le_true_iff.1 hnp
    exact le_true_iff.2 ⟨hc.trans hc', hle.trans hle'⟩
  total := by
    intro m n hc
    rcases le_total m.amount n.amount with h | h
    · exact .inl (le_true_iff.2 ⟨hc, h⟩)
    · exact .inr (le_true_iff.2 ⟨hc.symm, h⟩)
  lt_iff := by
    intro m n
    rw [lt_true_iff, le_true_iff]
    constructor
    · rintro ⟨hc, hlt⟩
      refine ⟨⟨hc, hlt.le⟩, ?_⟩
      rintro rfl
      exact lt_irrefl _ hlt
    · rintro ⟨⟨hc, hle⟩, hne⟩
      exact ⟨hc, hle.lt_of_ne fun h => hne (Money.ext h hc)⟩
  not_le := by
    intro m n hc
    rw [le_of_eq hc, lt_of_eq hc.symm]
    simp
  not_lt := by
    intro m n hc
    rw [lt_of_eq hc, le_of_eq hc.symm]
    simp
  gt _ _ hc := (gt_of_eq hc).trans (lt_of_eq hc.symm).symm
  ge _ _ hc := (ge_of_eq hc).trans (le_of_eq hc.symm).symm
  add_le_add := by
    intro m n p a b hmn ha hb
    obtain ⟨hc, hle⟩ := le_true_iff.1 hmn
    obtain ⟨-, hac, haa⟩ := add_ok_iff.1 ha
    obtain ⟨-, hbc, hba⟩ := add_ok_iff.1 hb
    refine le_true_iff.2 ⟨hac.trans (hc.trans hbc.symm), ?_⟩
    rw [haa, hba]
    exact add_le_add_left hle _
  add_lt_add := by
    intro m n p a b hmn ha hb
    obtain ⟨hc, hlt⟩ := lt_true_iff.1 hmn
    obtain ⟨-, hac, haa⟩ := add_ok_iff.1 ha
    obtain ⟨-, hbc, hba⟩ := add_ok_iff.1 hb
    refine lt_true_iff.2 ⟨hac.trans (hc.trans hbc.symm), ?_⟩
    rw [haa, hba]
    exact add_lt_add_left hlt _

/-- Between two currencies everything is refused, with both codes. -/
structure RefusesMixed (m n : Money) : Prop where
  add : m.add n = .error (.domain (.currencyMismatch m.currency n.currency))
  sub : m.sub n = .error (.domain (.currencyMismatch m.currency n.currency))
  lt : m.lt n = .error (.domain (.currencyMismatch m.currency n.currency))
  le : m.le n = .error (.domain (.currencyMismatch m.currency n.currency))
  gt : m.gt n = .error (.domain (.currencyMismatch m.currency n.currency))
  ge : m.ge n = .error (.domain (.currencyMismatch m.currency n.currency))

theorem refusesMixed (hc : m.currency ≠ n.currency) : RefusesMixed m n := by
  have herr := ensureSameCurrency_of_ne hc
  constructor
  · rw [Money.add, herr]; rfl
  · rw [Money.sub, herr]; rfl
  · rw [Money.lt, herr]; rfl
  · rw [Money.le, herr]; rfl
  · rw [Money.gt, herr]; rfl
  · rw [Money.ge, herr]; rfl

/-- Money of a currency is an ordered group, under rounding half to even. -/
theorem money_laws :
    (∀ c, Quantises c) ∧ ExactGroup ∧ Compares ∧
      ∀ m n : Money, m.currency ≠ n.currency → RefusesMixed m n :=
  ⟨quantises, exactGroup, compares, fun _ _ => refusesMixed⟩

end Money

end WalletLedger
