import WalletLedger.Lib.Decimal
import Mathlib.Algebra.Order.Field.Power

/-!
# How far rounding goes

Order and error of the rounding functions.

* `abs_roundHalfEven_sub_le`, `even_of_tie` — rounding to an integer goes to the nearest one, and
  half-way to the even one; `roundHalfEven_unique`: no other integer does, from which
  `roundHalfEven_neg` and `roundHalfEven_mono`.
* `quantize_neg`, `quantize_mono`, `abs_quantize_sub_le`, `even_of_quantize_tie` — the same for
  rounding to decimals.
* `roundContext_le`, `le_roundContext` — the context's rounding crosses no number that it
  could write down.
* `abs_quantize_roundContext_sub_le` — a number rounded to the context and then to `d`
  decimals is off by at most eleven twentieths of the last decimal.
* `exists_storeNumeric_roundContext` — so rounded, what a column can store it stores less than two
  units off; `eq_of_abs_sub_lt`: on a coarser grid, that is not off at all.
-/

namespace WalletLedger

namespace Decimal

/-! ## To an integer -/

theorem abs_roundHalfEven_sub_le (x : ℚ) : |(roundHalfEven x : ℚ) - x| ≤ 1 / 2 := by
  have hlow := Int.floor_le x
  have hhigh := Int.lt_floor_add_one x
  unfold roundHalfEven
  rw [abs_le]
  split_ifs with hdown hup heven
  · constructor <;> linarith
  · push_cast
    constructor <;> linarith
  · constructor <;> linarith
  · push_cast
    constructor <;> linarith

/-- Half-way between two integers, the even one is taken. -/
theorem even_of_tie {x : ℚ} (h : |(roundHalfEven x : ℚ) - x| = 1 / 2) : Even (roundHalfEven x) := by
  have hlow := Int.floor_le x
  have hhigh := Int.lt_floor_add_one x
  revert h
  unfold roundHalfEven
  split_ifs with hdown hup heven <;> intro h
  · rw [abs_sub_comm, abs_of_nonneg (by linarith)] at h
    linarith
  · rw [abs_of_nonneg (by push_cast; linarith)] at h
    push_cast at h
    linarith
  · exact Int.even_iff.2 heven
  · rw [Int.even_iff]
    omega

/-- The nearest integer, even where there are two, is the one taken. -/
theorem roundHalfEven_unique {x : ℚ} {n : ℤ} (hnear : |(n : ℚ) - x| ≤ 1 / 2)
    (htie : |(n : ℚ) - x| = 1 / 2 → Even n) : roundHalfEven x = n := by
  have hround := abs_roundHalfEven_sub_le x
  by_contra hne
  -- two integers within half a unit are half a unit away both, and one of them is odd
  have hapart : (1 : ℚ) ≤ |(roundHalfEven x : ℚ) - n| := by
    have hone : 1 ≤ |roundHalfEven x - n| := Int.one_le_abs (sub_ne_zero.2 hne)
    exact_mod_cast hone
  have htriangle : |(roundHalfEven x : ℚ) - n| ≤ |(roundHalfEven x : ℚ) - x| + |(n : ℚ) - x| := by
    rw [abs_sub_comm (n : ℚ) x]
    exact abs_sub_le _ _ _
  have hround' : |(roundHalfEven x : ℚ) - x| = 1 / 2 := by linarith
  have hnear' : |(n : ℚ) - x| = 1 / 2 := by linarith
  obtain ⟨k, hk⟩ := even_of_tie hround'
  obtain ⟨j, hj⟩ := htie hnear'
  have hone : |roundHalfEven x - n| = 1 := by
    have hle : |(roundHalfEven x : ℚ) - n| ≤ 1 := by linarith
    have heq : |(roundHalfEven x : ℚ) - n| = 1 := le_antisymm hle hapart
    exact_mod_cast heq
  rcases (abs_eq zero_le_one).1 hone with h | h <;> omega

theorem roundHalfEven_neg (x : ℚ) : roundHalfEven (-x) = -roundHalfEven x := by
  have habs : |((-roundHalfEven x : ℤ) : ℚ) - -x| = |(roundHalfEven x : ℚ) - x| := by
    rw [Int.cast_neg, neg_sub_neg, abs_sub_comm]
  refine roundHalfEven_unique ?_ fun htie => ?_
  · rw [habs]
    exact abs_roundHalfEven_sub_le x
  · rw [habs] at htie
    exact (even_of_tie htie).neg

theorem roundHalfEven_mono {x y : ℚ} (h : x ≤ y) : roundHalfEven x ≤ roundHalfEven y := by
  have hx := (abs_le.1 (abs_roundHalfEven_sub_le x)).2
  have hy := (abs_le.1 (abs_roundHalfEven_sub_le y)).1
  by_contra hlt
  -- the two integers are at most one apart, and then the two numbers are equal
  have hstep : (roundHalfEven y : ℚ) + 1 ≤ roundHalfEven x := by
    exact_mod_cast Int.add_one_le_of_lt (not_le.1 hlt)
  obtain rfl : x = y := by linarith
  exact hlt le_rfl

/-- Half a unit is rounded down to zero. -/
theorem roundHalfEven_pos_iff {x : ℚ} (hx : 0 ≤ x) : 0 < roundHalfEven x ↔ 1 / 2 < x := by
  have hlow := Int.floor_le x
  have hnonneg : 0 ≤ ⌊x⌋ := Int.floor_nonneg.2 hx
  constructor
  · intro hpos
    by_contra hle
    have hzero : ⌊x⌋ = 0 := Int.floor_eq_iff.2 ⟨by exact_mod_cast hx, by push_cast; linarith⟩
    rw [roundHalfEven, hzero] at hpos
    push_cast at hpos
    rw [if_neg (show ¬ (1 / 2 < x - 0) by linarith)] at hpos
    split_ifs at hpos <;> simp_all
  · intro hlt
    rcases hnonneg.eq_or_lt with hzero | hpos
    · rw [roundHalfEven, ← hzero]
      push_cast
      rw [if_neg (by linarith), if_pos (by linarith)]
      norm_num
    · unfold roundHalfEven
      split_ifs <;> omega

theorem quantize_eq_some {d : ℕ} {x y : ℚ} (h : quantize d x = some y) :
    y = roundHalfEven (x * 10 ^ d) / 10 ^ d := by
  unfold quantize at h
  split at h
  · exact (Option.some.inj h).symm
  · cases h

theorem quantize_pos_iff {d : ℕ} {x y : ℚ} (hx : 0 ≤ x) (h : quantize d x = some y) :
    0 < y ↔ 1 / 2 < x * 10 ^ d := by
  rw [← roundHalfEven_pos_iff (by positivity), quantize_eq_some h,
    div_pos_iff_of_pos_right (by positivity), Int.cast_pos]

/-- A number with few enough digits is quantised. -/
theorem exists_quantize {d : ℕ} {x : ℚ} (h : |x * 10 ^ d| < 10 ^ precision - 1 / 2) :
    ∃ y, quantize d x = some y := by
  have hround := abs_roundHalfEven_sub_le (x * 10 ^ d)
  have hle : |(roundHalfEven (x * 10 ^ d) : ℚ)| ≤ |x * 10 ^ d| + 1 / 2 := by
    have htriangle := abs_add_le (roundHalfEven (x * 10 ^ d) - x * 10 ^ d) (x * 10 ^ d)
    rw [sub_add_cancel] at htriangle
    linarith
  have hlt : |(roundHalfEven (x * 10 ^ d) : ℚ)| < 10 ^ precision := by linarith
  exact ⟨_, if_pos (by exact_mod_cast hlt)⟩

theorem quantize_neg (d : ℕ) (x : ℚ) : quantize d (-x) = (quantize d x).map fun y => -y := by
  rw [quantize, quantize, neg_mul, roundHalfEven_neg, abs_neg]
  split
  · rw [Option.map_some, Int.cast_neg, neg_div]
  · rfl

theorem quantize_mono {d : ℕ} {x y a b : ℚ} (h : x ≤ y) (hx : quantize d x = some a)
    (hy : quantize d y = some b) : a ≤ b := by
  have hd : (0 : ℚ) < 10 ^ d := by positivity
  rw [quantize_eq_some hx, quantize_eq_some hy]
  refine div_le_div_of_nonneg_right ?_ hd.le
  exact_mod_cast roundHalfEven_mono (mul_le_mul_of_nonneg_right h hd.le)

/-- The error of quantising, in units of the last decimal. -/
theorem quantize_sub_eq {d : ℕ} {x y : ℚ} (h : quantize d x = some y) :
    |y - x| = |(roundHalfEven (x * 10 ^ d) : ℚ) - x * 10 ^ d| / 10 ^ d := by
  have hd : (0 : ℚ) < 10 ^ d := by positivity
  have hunits : (roundHalfEven (x * 10 ^ d) : ℚ) / 10 ^ d - x =
      (roundHalfEven (x * 10 ^ d) - x * 10 ^ d) / 10 ^ d := by
    rw [sub_div, mul_div_cancel_right₀ _ hd.ne']
  rw [quantize_eq_some h, hunits, abs_div, abs_of_pos hd]

theorem abs_quantize_sub_le {d : ℕ} {x y : ℚ} (h : quantize d x = some y) :
    |y - x| ≤ 1 / 2 / 10 ^ d := by
  rw [quantize_sub_eq h]
  exact div_le_div_of_nonneg_right (abs_roundHalfEven_sub_le _) (by positivity)

/-- Half-way between two multiples of the last decimal, the even one is taken. -/
theorem even_of_quantize_tie {d : ℕ} {x y : ℚ} (h : quantize d x = some y)
    (htie : |y - x| = 1 / 2 / 10 ^ d) : ∃ n : ℤ, Even n ∧ y = n / 10 ^ d := by
  have hd : (0 : ℚ) < 10 ^ d := by positivity
  rw [quantize_sub_eq h, div_left_inj' hd.ne'] at htie
  exact ⟨_, even_of_tie htie, quantize_eq_some h⟩

/-- What is below a number on the grid is quantised to no more than it. -/
theorem quantize_le {d : ℕ} {x y m : ℚ} (hm : m ∈ grid d) (hx : x ≤ m)
    (h : quantize d x = some y) : y ≤ m := by
  obtain ⟨n, rfl⟩ := mem_grid_iff.1 hm
  have hd : (0 : ℚ) < 10 ^ d := by positivity
  have hround : roundHalfEven (x * 10 ^ d) ≤ n := roundHalfEven_le ((le_div_iff₀ hd).1 hx)
  rw [quantize_eq_some h]
  exact div_le_div_of_nonneg_right (by exact_mod_cast hround) hd.le

/-! ## To the context -/

/-- The exponent of the last digit the context keeps. -/
def exponent (x : ℚ) : ℤ := Int.log 10 |x| - precision + 1

theorem roundContext_eq {x : ℚ} (hx : x ≠ 0) :
    roundContext x = roundHalfEven (x / 10 ^ exponent x) * 10 ^ exponent x := if_neg hx

theorem roundContext_nonneg {x : ℚ} (hx : 0 ≤ x) : 0 ≤ roundContext x := by
  rcases hx.eq_or_lt with rfl | hpos
  · exact (if_pos rfl).ge
  · have hr := roundHalfEven_nonneg (x := x / 10 ^ exponent x) (by positivity)
    have hr' : (0 : ℚ) ≤ roundHalfEven (x / 10 ^ exponent x) := by exact_mod_cast hr
    rw [roundContext_eq hpos.ne']
    positivity

theorem abs_roundContext_sub_le (x : ℚ) : |roundContext x - x| ≤ 10 ^ exponent x / 2 := by
  have hscale : (0 : ℚ) < 10 ^ exponent x := zpow_pos (by norm_num) _
  by_cases hx : x = 0
  · rw [hx, roundContext, if_pos rfl, sub_zero, abs_zero]
    positivity
  · have herr := abs_roundHalfEven_sub_le (x / 10 ^ exponent x)
    have hfactor : roundContext x - x =
        (roundHalfEven (x / 10 ^ exponent x) - x / 10 ^ exponent x) * 10 ^ exponent x := by
      rw [roundContext_eq hx, sub_mul, div_mul_cancel₀ _ hscale.ne']
    rw [hfactor, abs_mul, abs_of_pos hscale]
    linarith [mul_le_mul_of_nonneg_right herr hscale.le]

/-- Below `10ᵏ`, the exponent is low. -/
theorem exponent_lt {x : ℚ} {k : ℤ} (hx : 0 < |x|) (h : |x| < 10 ^ k) :
    exponent x < k - precision + 1 := by
  have hlog : Int.log 10 |x| < k :=
    (Int.lt_zpow_iff_log_lt (by norm_num) hx).1 (by exact_mod_cast h)
  unfold exponent
  omega

/-- A number on the grid is whole in units of a finer digit. -/
theorem int_of_grid {d : ℕ} {m : ℚ} {k : ℤ} (hm : m ∈ grid d) (hk : k ≤ -d) :
    ∃ n : ℤ, m / 10 ^ k = n := by
  obtain ⟨n, rfl⟩ := mem_grid_iff.1 hm
  obtain ⟨j, hj⟩ : ∃ j : ℕ, k = -d - j := ⟨(-d - k).toNat, by omega⟩
  refine ⟨n * 10 ^ j, ?_⟩
  rw [hj, zpow_sub₀ (by norm_num), zpow_neg, zpow_natCast, zpow_natCast]
  push_cast
  field_simp

/-- What is below a number that the context can write down is rounded to no more than it. -/
theorem roundContext_le {d : ℕ} {x m : ℚ} (hx : 0 ≤ x) (hm : m ∈ grid d)
    (hfits : |m * 10 ^ d| < 10 ^ precision) (h : x ≤ m) : roundContext x ≤ m := by
  rcases hx.eq_or_lt with rfl | hpos
  · exact (if_pos rfl : roundContext 0 = 0).trans_le h
  have hd : (0 : ℚ) < 10 ^ d := by positivity
  have hscale : (0 : ℚ) < 10 ^ exponent x := by positivity
  have hm0 : 0 < m := hpos.trans_le h
  -- the last digit kept is not above the last digit of the bound
  have hexp : exponent x ≤ -d := by
    have hlt : |x| < 10 ^ ((precision : ℤ) - d) := by
      rw [abs_of_pos (by positivity)] at hfits
      rw [abs_of_pos hpos, zpow_sub₀ (by norm_num), zpow_natCast, zpow_natCast, lt_div_iff₀ hd]
      exact (mul_le_mul_of_nonneg_right h hd.le).trans_lt hfits
    have hlt := exponent_lt (abs_pos.2 hpos.ne') hlt
    omega
  obtain ⟨n, hn⟩ := int_of_grid hm hexp
  rw [roundContext_eq hpos.ne', ← le_div_iff₀ hscale, hn]
  have hround : roundHalfEven (x / 10 ^ exponent x) ≤ n := by
    refine roundHalfEven_le ?_
    rw [← hn]
    exact div_le_div_of_nonneg_right h hscale.le
  exact_mod_cast hround

theorem pow_le_roundContext {x : ℚ} (hx : 0 < x) :
    10 ^ (precision - 1) * 10 ^ exponent x ≤ roundContext x := by
  have hscale : (0 : ℚ) < 10 ^ exponent x := by positivity
  have hdigits : (10 : ℤ) ^ (precision - 1) ≤ |roundHalfEven (x / 10 ^ exponent x)| :=
    le_abs_digits hx.ne'
  have hround : (10 : ℤ) ^ (precision - 1) ≤ roundHalfEven (x / 10 ^ exponent x) := by
    rwa [abs_of_nonneg (roundHalfEven_nonneg (by positivity))] at hdigits
  rw [roundContext_eq hx.ne']
  refine mul_le_mul_of_nonneg_right ?_ hscale.le
  exact_mod_cast hround

/-- What is above it, to no less. -/
theorem le_roundContext {d : ℕ} {x m : ℚ} (hm0 : 0 ≤ m) (hm : m ∈ grid d)
    (hfits : |m * 10 ^ d| < 10 ^ precision) (h : m ≤ x) : m ≤ roundContext x := by
  rcases (hm0.trans h).eq_or_lt with rfl | hpos
  · exact h.trans_eq (if_pos rfl : roundContext 0 = 0).symm
  have hscale : (0 : ℚ) < 10 ^ exponent x := by positivity
  by_cases hexp : exponent x ≤ -d
  · obtain ⟨n, hn⟩ := int_of_grid hm hexp
    rw [roundContext_eq hpos.ne', ← div_le_iff₀ hscale, hn]
    have hround : n ≤ roundHalfEven (x / 10 ^ exponent x) := by
      refine le_roundHalfEven ?_
      rw [← hn]
      exact div_le_div_of_nonneg_right h hscale.le
    exact_mod_cast hround
  · -- the number is longer than any that the context can write down with `d` decimals
    have hd : (0 : ℚ) < 10 ^ d := by positivity
    have hstep : (10 : ℚ) ^ (1 - (d : ℤ)) ≤ 10 ^ exponent x :=
      zpow_le_zpow_right₀ (by norm_num) (by omega)
    rw [abs_of_nonneg (by positivity), ← lt_div_iff₀ hd] at hfits
    calc m ≤ 10 ^ precision / 10 ^ d := hfits.le
      _ = 10 ^ (precision - 1) * 10 ^ (1 - (d : ℤ)) := by
        rw [zpow_sub₀ (by norm_num), zpow_one, zpow_natCast, ← mul_div_assoc, ← pow_succ]
        rfl
      _ ≤ 10 ^ (precision - 1) * 10 ^ exponent x := mul_le_mul_of_nonneg_left hstep (by positivity)
      _ ≤ roundContext x := pow_le_roundContext hpos

/-! ## To the context, then to the decimals -/

/-- The two roundings together. -/
theorem abs_quantize_roundContext_sub_le {d : ℕ} {x y : ℚ}
    (h : quantize d (roundContext x) = some y) : |y - x| ≤ 11 / 20 / 10 ^ d := by
  have hd : (0 : ℚ) < 10 ^ d := by positivity
  rcases eq_or_ne x 0 with rfl | hx
  · rw [show roundContext 0 = 0 from if_pos rfl] at h
    rw [eq_of_quantize (grid d).zero_mem h, sub_zero, abs_zero]
    positivity
  have hpos := abs_pos.2 hx
  have hlong : |x * 10 ^ d| < 10 ^ precision := by
    by_contra hle
    rw [quantize_roundContext_of_long (not_lt.1 hle)] at h
    cases h
  rw [abs_mul, abs_of_pos hd, ← lt_div_iff₀ hd] at hlong
  have hexp : exponent x ≤ -d := by
    have hlt : |x| < 10 ^ ((precision : ℤ) - d) := by
      rwa [zpow_sub₀ (by norm_num), zpow_natCast, zpow_natCast]
    have hlt := exponent_lt hpos hlt
    omega
  have hcontext := abs_roundContext_sub_le x
  rcases hexp.eq_or_lt with hlast | hfiner
  · -- the last digit kept is the last decimal: the second rounding changes nothing
    have hgrid : roundContext x ∈ grid d := by
      rw [roundContext_eq hx, hlast, zpow_neg, zpow_natCast, ← div_eq_mul_inv]
      exact int_div_mem_grid d _
    rw [eq_of_quantize hgrid h]
    rw [hlast, zpow_neg, zpow_natCast] at hcontext
    refine hcontext.trans ?_
    rw [inv_eq_one_div, div_right_comm]
    exact div_le_div_of_nonneg_right (by norm_num) hd.le
  · have hfine : (10 : ℚ) ^ exponent x ≤ 1 / 10 / 10 ^ d := by
      calc (10 : ℚ) ^ exponent x ≤ 10 ^ (-1 - (d : ℤ)) :=
            zpow_le_zpow_right₀ (by norm_num) (by omega)
        _ = 1 / 10 / 10 ^ d := by
            rw [zpow_sub₀ (by norm_num), zpow_natCast]
            norm_num
    have hround : |y - roundContext x| ≤ 1 / 2 / 10 ^ d := abs_quantize_sub_le h
    calc |y - x| ≤ |y - roundContext x| + |roundContext x - x| := abs_sub_le _ _ _
      _ ≤ 1 / 2 / 10 ^ d + 1 / 10 / 10 ^ d / 2 := by linarith
      _ = 11 / 20 / 10 ^ d := by ring

/-! ## To a column -/

/-- What is rounded to fewer than `n` units is more than half a unit below. -/
theorem abs_roundHalfAway_lt_iff {x : ℚ} {n : ℤ} :
    |roundHalfAway x| < n ↔ |x| < n - 1 / 2 := by
  have main : ∀ x : ℚ, 0 ≤ x → (|roundHalfAway x| < n ↔ |x| < n - 1 / 2) := by
    intro x hx
    rw [abs_of_nonneg (roundHalfAway_nonneg hx), abs_of_nonneg hx, roundHalfAway, if_pos hx,
      Int.floor_lt]
    constructor <;> intro h <;> linarith
  rcases le_total 0 x with hx | hx
  · exact main x hx
  · rw [← abs_neg (roundHalfAway x), ← abs_neg x, ← roundHalfAway_neg]
    exact main (-x) (neg_nonneg.2 hx)

theorem abs_roundHalfAway_sub_le (x : ℚ) : |(roundHalfAway x : ℚ) - x| ≤ 1 / 2 := by
  rw [abs_le, roundHalfAway]
  split_ifs
  · have hlow := Int.floor_le (x + 1 / 2)
    have hhigh := Int.lt_floor_add_one (x + 1 / 2)
    constructor <;> linarith
  · have hlow := Int.le_ceil (x - 1 / 2)
    have hhigh := Int.ceil_lt_add_one (x - 1 / 2)
    constructor <;> linarith

/-- A column stores just what has few enough digits. -/
theorem storeNumeric_eq_some_iff {p s : ℕ} {x y : ℚ} :
    storeNumeric p s x = some y ↔
      |x * 10 ^ s| < 10 ^ p - 1 / 2 ∧ y = roundHalfAway (x * 10 ^ s) / 10 ^ s := by
  have hfits : |roundHalfAway (x * 10 ^ s)| < 10 ^ p ↔ |x * 10 ^ s| < 10 ^ p - 1 / 2 := by
    rw [abs_roundHalfAway_lt_iff]
    push_cast
    rfl
  unfold storeNumeric
  by_cases h : |x * 10 ^ s| < 10 ^ p - 1 / 2
  · rw [if_pos (hfits.2 h), Option.some_inj, eq_comm, and_iff_right h]
  · rw [if_neg fun hlt => h (hfits.1 hlt)]
    exact ⟨fun hnone => (by cases hnone), fun hboth => absurd hboth.1 h⟩

theorem abs_storeNumeric_sub_le {p s : ℕ} {x y : ℚ} (h : storeNumeric p s x = some y) :
    |y - x| ≤ 1 / 2 / 10 ^ s := by
  have hs : (0 : ℚ) < 10 ^ s := by positivity
  obtain ⟨-, rfl⟩ := storeNumeric_eq_some_iff.1 h
  have hunits : (roundHalfAway (x * 10 ^ s) : ℚ) / 10 ^ s - x =
      (roundHalfAway (x * 10 ^ s) - x * 10 ^ s) / 10 ^ s := by
    rw [sub_div, mul_div_cancel_right₀ _ hs.ne']
  rw [hunits, abs_div, abs_of_pos hs]
  exact div_le_div_of_nonneg_right (abs_roundHalfAway_sub_le _) hs.le

/-- The column stores a number without its sign as it stores the number. -/
theorem storeNumeric_abs_left {p s : ℕ} {x y : ℚ} (h : storeNumeric p s x = some y) :
    storeNumeric p s |x| = some |y| := by
  rcases le_total 0 x with hx | hx
  · rwa [abs_of_nonneg hx, abs_of_nonneg (storeNumeric_nonneg hx h)]
  · have hneg : storeNumeric p s (-x) = some (-y) := by
      rw [storeNumeric_neg, h]
      rfl
    rwa [abs_of_nonpos hx, ← abs_neg y, abs_of_nonneg (storeNumeric_nonneg (neg_nonneg.2 hx) hneg)]

/-- Two numbers on the grid that are less than a unit apart are equal. -/
theorem eq_of_abs_sub_lt {d : ℕ} {x y : ℚ} (hx : x ∈ grid d) (hy : y ∈ grid d)
    (h : |x - y| < 1 / 10 ^ d) : x = y := by
  have hd : (0 : ℚ) < 10 ^ d := by positivity
  obtain ⟨n, hn⟩ := mem_grid_iff.1 ((grid d).sub_mem hx hy)
  rw [hn, abs_div, abs_of_pos hd, div_lt_div_iff_of_pos_right hd] at h
  have hzero : n = 0 := Int.abs_lt_one_iff.1 (by exact_mod_cast h)
  rw [hzero, Int.cast_zero, zero_div] at hn
  exact sub_eq_zero.1 hn

/-- What a column of as many digits as the context can store, it can store once the context has
rounded it. -/
theorem roundContext_fits {s : ℕ} {x : ℚ} (h : |x * 10 ^ s| < 10 ^ precision - 1 / 2) :
    |roundContext x * 10 ^ s| < 10 ^ precision - 1 / 2 ∧
      |roundContext x - x| ≤ 1 / 2 / 10 ^ s := by
  have hs : (0 : ℚ) < 10 ^ s := by positivity
  by_cases hx : x = 0
  · have hzero : roundContext x = x := by rw [hx, roundContext, if_pos rfl]
    rw [hzero, sub_self, abs_zero]
    exact ⟨h, by positivity⟩
  have hpos := abs_pos.2 hx
  have hcontext := abs_roundContext_sub_le x
  have hlong : |x| < 10 ^ ((precision : ℤ) - s) := by
    rw [abs_mul, abs_of_pos hs] at h
    rw [zpow_sub₀ (by norm_num), zpow_natCast, zpow_natCast, lt_div_iff₀ hs]
    linarith
  have hexp := exponent_lt hpos hlong
  have hlast : (10 : ℚ) ^ exponent x ≤ 1 / 10 ^ s := by
    calc (10 : ℚ) ^ exponent x ≤ 10 ^ (-(s : ℤ)) := zpow_le_zpow_right₀ (by norm_num) (by omega)
      _ = 1 / 10 ^ s := by rw [zpow_neg, zpow_natCast, one_div]
  have herror : |roundContext x - x| ≤ 1 / 2 / 10 ^ s := by
    calc |roundContext x - x| ≤ 10 ^ exponent x / 2 := hcontext
      _ ≤ 1 / 10 ^ s / 2 := by linarith
      _ = 1 / 2 / 10 ^ s := by ring
  refine ⟨?_, herror⟩
  have hunits : |roundContext x * 10 ^ s - x * 10 ^ s| ≤ 1 / 2 := by
    rw [← sub_mul, abs_mul, abs_of_pos hs]
    exact (le_div_iff₀ hs).1 herror
  have htriangle := abs_sub_abs_le_abs_sub (roundContext x * 10 ^ s) (x * 10 ^ s)
  by_cases hunit : exponent x = -s
  · -- the context leaves a whole number of units, and there is none between
    have hint : roundContext x * 10 ^ s = (roundHalfEven (x / 10 ^ exponent x) : ℤ) := by
      rw [roundContext_eq hx, hunit, zpow_neg, zpow_natCast, mul_assoc, inv_mul_cancel₀ hs.ne',
        mul_one]
    have hlt : |roundContext x * 10 ^ s| < 10 ^ precision := by linarith
    rw [hint] at hlt ⊢
    have hle : |roundHalfEven (x / 10 ^ exponent x)| ≤ 10 ^ precision - 1 :=
      Int.le_sub_one_of_lt (by exact_mod_cast hlt)
    have hle' : |((roundHalfEven (x / 10 ^ exponent x) : ℤ) : ℚ)| ≤ 10 ^ precision - 1 := by
      exact_mod_cast hle
    linarith
  · -- the number has a digit less than there is room for
    have hshort : |x| < 10 ^ ((precision : ℤ) - 1 - s) := by
      have hlog : Int.log 10 |x| < precision - 1 - s := by
        unfold exponent at hexp hunit
        omega
      exact_mod_cast (Int.lt_zpow_iff_log_lt (by norm_num) hpos).2 hlog
    rw [zpow_sub₀ (by norm_num), zpow_natCast, lt_div_iff₀ hs] at hshort
    rw [abs_mul x, abs_of_pos hs] at htriangle
    have hdigits : (10 : ℚ) ^ ((precision : ℤ) - 1) + 1 < 10 ^ precision - 1 / 2 := by
      norm_num [precision]
    linarith

/-- The rounding of the context moves what a column stores by less than two units. -/
theorem exists_storeNumeric_roundContext {s : ℕ} {x y : ℚ}
    (h : storeNumeric precision s x = some y) :
    ∃ z, storeNumeric precision s (roundContext x) = some z ∧ |z - y| < 2 / 10 ^ s := by
  have hs : (0 : ℚ) < 10 ^ s := by positivity
  obtain ⟨hfits, herror⟩ := roundContext_fits (storeNumeric_eq_some_iff.1 h).1
  obtain ⟨z, hz⟩ : ∃ z, storeNumeric precision s (roundContext x) = some z :=
    ⟨_, storeNumeric_eq_some_iff.2 ⟨hfits, rfl⟩⟩
  refine ⟨z, hz, ?_⟩
  have hfrom := abs_storeNumeric_sub_le h
  have hto := abs_storeNumeric_sub_le hz
  calc |z - y| ≤ |z - roundContext x| + |roundContext x - y| := abs_sub_le _ _ _
    _ ≤ |z - roundContext x| + (|roundContext x - x| + |x - y|) := by
      linarith [abs_sub_le (roundContext x) x y]
    _ ≤ 1 / 2 / 10 ^ s + (1 / 2 / 10 ^ s + 1 / 2 / 10 ^ s) := by
      rw [abs_sub_comm x y]
      linarith
    _ = 3 / 2 / 10 ^ s := by ring
    _ < 2 / 10 ^ s := div_lt_div_of_pos_right (by norm_num) hs

end Decimal

end WalletLedger
