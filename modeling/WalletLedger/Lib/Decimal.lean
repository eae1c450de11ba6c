import Mathlib.Data.Rat.Floor
import Mathlib.Data.Int.Log
import Mathlib.Algebra.Group.Subgroup.ZPowers.Basic
import Mathlib.Algebra.BigOperators.Group.List.Basic
import Mathlib.Tactic.Linarith
import Mathlib.Tactic.FieldSimp
import Mathlib.Tactic.Ring
import Mathlib.Tactic.NormNum
import Mathlib.Tactic.Positivity

/-!
# Decimal numbers, rounding and fixed-point columns

Exact decimal numbers are rationals.  What makes them decimal is where they are
rounded: to a number of decimals (`quantize`), to the significant digits of the
arithmetic context (`roundContext`), or to the scale of a fixed-point column
(`storeNumeric`).

* `grid d` — the multiples of `10⁻ᵈ`, an additive subgroup: sums and differences
  of amounts on the grid stay on it.
* `roundHalfEven` — banker's rounding to an integer, the identity on integers.
* `quantize_mem_grid`, `eq_of_quantize` — quantising lands on the grid, and moves
  no number that is already on it.
* `quantize_roundContext` — the context's rounding does not change how a number on the grid
  is quantised.
* `contextSum_eq` — adding up in the context is exact where it can write down every partial sum.
* `eq_of_storeNumeric` — a column of scale `s` stores a number on a grid no finer
  than `s` unchanged, or refuses it.
-/

namespace WalletLedger

/-- A finite decimal number, by its value. -/
abbrev Decimal := ℚ

namespace Decimal

/-- The significant digits of the arithmetic context. -/
def precision : ℕ := 28

/-! ## Grids -/

/-- The multiples of `10⁻ᵈ`. -/
def grid (d : ℕ) : AddSubgroup ℚ := AddSubgroup.zmultiples ((10 : ℚ) ^ d)⁻¹

theorem mem_grid_iff {d : ℕ} {x : ℚ} : x ∈ grid d ↔ ∃ n : ℤ, x = n / 10 ^ d := by
  rw [grid, AddSubgroup.mem_zmultiples_iff]
  constructor
  · rintro ⟨n, rfl⟩
    exact ⟨n, by rw [zsmul_eq_mul, div_eq_mul_inv]⟩
  · rintro ⟨n, rfl⟩
    exact ⟨n, by rw [zsmul_eq_mul, div_eq_mul_inv]⟩

theorem int_div_mem_grid (d : ℕ) (n : ℤ) : (n : ℚ) / 10 ^ d ∈ grid d := mem_grid_iff.2 ⟨n, rfl⟩

instance (d : ℕ) (x : ℚ) : Decidable (x ∈ grid d) :=
  decidable_of_iff ((x * 10 ^ d).den = 1) <| by
    rw [mem_grid_iff, Rat.den_eq_one_iff]
    constructor
    · exact fun h => ⟨(x * 10 ^ d).num, by rw [h, mul_div_cancel_right₀ _ (by positivity)]⟩
    · rintro ⟨n, rfl⟩
      rw [div_mul_cancel₀ _ (by positivity), Rat.num_intCast]

/-- A finer grid contains a coarser one. -/
theorem grid_le {d e : ℕ} (h : d ≤ e) : grid d ≤ grid e := by
  intro x hx
  obtain ⟨n, rfl⟩ := mem_grid_iff.1 hx
  refine mem_grid_iff.2 ⟨n * 10 ^ (e - d), ?_⟩
  have hpow : (10 : ℚ) ^ e = 10 ^ d * 10 ^ (e - d) := by rw [← pow_add, Nat.add_sub_cancel' h]
  rw [hpow]
  push_cast
  field_simp

theorem abs_mem_grid {d : ℕ} {x : ℚ} (h : x ∈ grid d) : |x| ∈ grid d := by
  rcases abs_choice x with hx | hx <;> rw [hx]
  · exact h
  · exact (grid d).neg_mem h

/-! ## Rounding to an integer -/

/-- Round half to even, the rule `ROUND_HALF_EVEN`. -/
def roundHalfEven (x : ℚ) : ℤ :=
  if x - ⌊x⌋ < 1 / 2 then ⌊x⌋
  else if 1 / 2 < x - ⌊x⌋ then ⌊x⌋ + 1
  else if ⌊x⌋ % 2 = 0 then ⌊x⌋ else ⌊x⌋ + 1

/-- Round half away from zero, as SQL rounds to a column's scale. -/
def roundHalfAway (x : ℚ) : ℤ := if 0 ≤ x then ⌊x + 1 / 2⌋ else ⌈x - 1 / 2⌉

@[simp] theorem roundHalfEven_intCast (n : ℤ) : roundHalfEven n = n := by
  simp [roundHalfEven]

@[simp] theorem roundHalfAway_intCast (n : ℤ) : roundHalfAway n = n := by
  unfold roundHalfAway
  split
  · rw [Int.floor_eq_iff]
    constructor <;> linarith
  · rw [Int.ceil_eq_iff]
    constructor <;> linarith

theorem roundHalfAway_neg (x : ℚ) : roundHalfAway (-x) = -roundHalfAway x := by
  rcases lt_trichotomy x 0 with h | rfl | h
  · rw [roundHalfAway, roundHalfAway, if_pos (by linarith), if_neg (by linarith), ← Int.floor_neg]
    congr 1
    ring
  · have hzero : roundHalfAway 0 = 0 := roundHalfAway_intCast 0
    rw [neg_zero, hzero, neg_zero]
  · rw [roundHalfAway, roundHalfAway, if_neg (by linarith), if_pos h.le, ← Int.ceil_neg]
    congr 1
    ring

theorem roundHalfAway_nonneg {x : ℚ} (hx : 0 ≤ x) : 0 ≤ roundHalfAway x := by
  rw [roundHalfAway, if_pos hx]
  exact Int.floor_nonneg.2 (by linarith)

/-- Rounding does not cross an integer. -/
theorem le_roundHalfEven {m : ℤ} {x : ℚ} (h : (m : ℚ) ≤ x) : m ≤ roundHalfEven x := by
  have hf : m ≤ ⌊x⌋ := Int.le_floor.2 h
  unfold roundHalfEven
  split_ifs <;> omega

theorem roundHalfEven_le {m : ℤ} {x : ℚ} (h : x ≤ m) : roundHalfEven x ≤ m := by
  have hf : ⌊x⌋ ≤ m := by exact_mod_cast (Int.floor_le x).trans h
  by_cases hx : x - ⌊x⌋ < 1 / 2
  · rw [roundHalfEven, if_pos hx]
    exact hf
  · -- there is a fraction, so the floor is below the bound
    have hlt : ⌊x⌋ < m := by
      have hlt : (⌊x⌋ : ℚ) < m := by linarith
      exact_mod_cast hlt
    unfold roundHalfEven
    split_ifs <;> omega

theorem le_abs_roundHalfEven {m : ℤ} {x : ℚ} (h : (m : ℚ) ≤ |x|) : m ≤ |roundHalfEven x| := by
  rcases le_abs.1 h with h | h
  · exact le_abs.2 (.inl (le_roundHalfEven h))
  · refine le_abs.2 (.inr ?_)
    have hle : roundHalfEven x ≤ -m := roundHalfEven_le (by push_cast; linarith)
    omega

theorem roundHalfEven_nonneg {x : ℚ} (hx : 0 ≤ x) : 0 ≤ roundHalfEven x :=
  le_roundHalfEven (by exact_mod_cast hx)

/-! ## Quantising, the context, and columns -/

/-- Round to `d` decimals, half to even; `none` where the result has more digits
than the context's precision. -/
def quantize (d : ℕ) (x : ℚ) : Option ℚ :=
  if |roundHalfEven (x * 10 ^ d)| < 10 ^ precision then
    some (roundHalfEven (x * 10 ^ d) / 10 ^ d)
  else none

/-- Round to the context's significant digits, half to even. -/
def roundContext (x : ℚ) : ℚ :=
  if x = 0 then 0
  else roundHalfEven (x / 10 ^ (Int.log 10 |x| - precision + 1)) *
    10 ^ (Int.log 10 |x| - precision + 1)

/-- A `NUMERIC(p, s)` column stores a number rounded to its scale; `none` where the
result has more than `p` digits. -/
def storeNumeric (p s : ℕ) (x : ℚ) : Option ℚ :=
  if |roundHalfAway (x * 10 ^ s)| < 10 ^ p then some (roundHalfAway (x * 10 ^ s) / 10 ^ s)
  else none

/-- Plain notation with `d` decimals of a number on the grid.  There is one zero here; Python has a
negative one too, and prints its sign. -/
def text (d : ℕ) (x : ℚ) : String :=
  let n := |x * 10 ^ d|.floor.toNat
  let decimals := toString (n % 10 ^ d)
  (if x < 0 then "-" else "") ++ toString (n / 10 ^ d) ++
    if d = 0 then ""
    else "." ++ String.ofList (List.replicate (d - decimals.length) '0') ++ decimals

theorem quantize_mem_grid {d : ℕ} {x y : ℚ} (h : quantize d x = some y) : y ∈ grid d := by
  unfold quantize at h
  split at h
  · cases h
    exact int_div_mem_grid d _
  · cases h

/-- The value of a quantised number times `10ᵈ` has at most `precision` digits. -/
theorem quantize_fits {d : ℕ} {x y : ℚ} (h : quantize d x = some y) :
    |y * 10 ^ d| < 10 ^ precision := by
  unfold quantize at h
  split at h
  · rename_i hlt
    cases h
    rw [div_mul_cancel₀ _ (by positivity)]
    exact_mod_cast hlt
  · cases h

theorem mul_pow_eq {d : ℕ} {n : ℤ} : (n : ℚ) / 10 ^ d * 10 ^ d = n :=
  div_mul_cancel₀ _ (by positivity)

/-- A number on the grid is quantised to itself, if at all. -/
theorem quantize_of_mem_grid {d : ℕ} {x : ℚ} (h : x ∈ grid d) :
    quantize d x = if |x * 10 ^ d| < 10 ^ precision then some x else none := by
  obtain ⟨n, rfl⟩ := mem_grid_iff.1 h
  rw [quantize, mul_pow_eq, roundHalfEven_intCast]
  have hcast : (|n| < 10 ^ precision) ↔ (|(n : ℚ)| < 10 ^ precision) := by norm_cast
  simp only [hcast]

theorem eq_of_quantize {d : ℕ} {x y : ℚ} (hx : x ∈ grid d) (h : quantize d x = some y) :
    y = x := by
  rw [quantize_of_mem_grid hx] at h
  split at h
  · exact (Option.some.inj h).symm
  · cases h

theorem quantize_nonneg {d : ℕ} {x y : ℚ} (hx : 0 ≤ x) (h : quantize d x = some y) : 0 ≤ y := by
  unfold quantize at h
  split at h
  · cases h
    have hr := roundHalfEven_nonneg (x := x * 10 ^ d) (by positivity)
    have hr' : (0 : ℚ) ≤ roundHalfEven (x * 10 ^ d) := by exact_mod_cast hr
    positivity
  · cases h

theorem storeNumeric_mem_grid {p s : ℕ} {x y : ℚ} (h : storeNumeric p s x = some y) :
    y ∈ grid s := by
  unfold storeNumeric at h
  split at h
  · cases h
    exact int_div_mem_grid s _
  · cases h

theorem storeNumeric_fits {p s : ℕ} {x y : ℚ} (h : storeNumeric p s x = some y) :
    |y * 10 ^ s| < 10 ^ p := by
  unfold storeNumeric at h
  split at h
  · rename_i hlt
    cases h
    rw [div_mul_cancel₀ _ (by positivity)]
    exact_mod_cast hlt
  · cases h

/-- A column at least as fine as the grid stores the number itself, if at all. -/
theorem eq_of_storeNumeric {p s d : ℕ} (hds : d ≤ s) {x y : ℚ} (hx : x ∈ grid d)
    (h : storeNumeric p s x = some y) : y = x := by
  obtain ⟨n, rfl⟩ := mem_grid_iff.1 (grid_le hds hx)
  unfold storeNumeric at h
  rw [mul_pow_eq, roundHalfAway_intCast] at h
  split at h
  · exact (Option.some.inj h).symm
  · cases h

theorem storeNumeric_neg (p s : ℕ) (x : ℚ) :
    storeNumeric p s (-x) = (storeNumeric p s x).map fun y => -y := by
  rw [storeNumeric, storeNumeric, neg_mul, roundHalfAway_neg, abs_neg]
  split
  · push_cast
    rw [Option.map_some, neg_div]
  · rfl

theorem storeNumeric_nonneg {p s : ℕ} {x y : ℚ} (hx : 0 ≤ x) (h : storeNumeric p s x = some y) :
    0 ≤ y := by
  unfold storeNumeric at h
  split at h
  · cases h
    have hr := roundHalfAway_nonneg (x := x * 10 ^ s) (by positivity)
    have hr' : (0 : ℚ) ≤ roundHalfAway (x * 10 ^ s) := by exact_mod_cast hr
    positivity
  · cases h

/-- A number on the grid of the column is stored as it is, if at all. -/
theorem storeNumeric_of_mem_grid {p s : ℕ} {x : ℚ} (h : x ∈ grid s) :
    storeNumeric p s x = if |x * 10 ^ s| < 10 ^ p then some x else none := by
  obtain ⟨n, rfl⟩ := mem_grid_iff.1 h
  rw [storeNumeric, mul_pow_eq, roundHalfAway_intCast]
  have hcast : (|n| < 10 ^ p) ↔ (|(n : ℚ)| < 10 ^ p) := by norm_cast
  simp only [hcast]

/-- What a column has stored, it stores again. -/
theorem storeNumeric_stored {p s : ℕ} {x y : ℚ} (h : storeNumeric p s x = some y) :
    storeNumeric p s y = some y := by
  unfold storeNumeric at h ⊢
  split at h
  · cases h
    rw [mul_pow_eq, roundHalfAway_intCast, if_pos ‹_›]
  · cases h

/-- The sign of a number does not matter to its column. -/
theorem storeNumeric_abs {p s : ℕ} {x y : ℚ} (h : storeNumeric p s x = some x) (hxy : |y| = |x|) :
    storeNumeric p s y = some y := by
  have hx := storeNumeric_mem_grid h
  have hy : y ∈ grid s := by
    rcases abs_eq_abs.1 hxy with rfl | rfl
    · exact hx
    · exact (grid s).neg_mem hx
  rw [storeNumeric_of_mem_grid hx] at h
  rw [storeNumeric_of_mem_grid hy, abs_mul, hxy, ← abs_mul]
  split at h
  · rw [if_pos ‹_›]
  · cases h

/-! ## Rounding to the context first -/

/-- The context rounds no number on a grid that has few enough digits. -/
theorem roundContext_of_fits {d : ℕ} {x : ℚ} (hx : x ∈ grid d)
    (h : |x * 10 ^ d| < 10 ^ precision) : roundContext x = x := by
  unfold roundContext
  split
  · rename_i h0
    exact h0.symm
  rename_i h0
  obtain ⟨n, rfl⟩ := mem_grid_iff.1 hx
  set x : ℚ := n / 10 ^ d with hxdef
  have hpos : 0 < |x| := abs_pos.2 h0
  have hlog : Int.log 10 |x| < precision - d := by
    refine (Int.lt_zpow_iff_log_lt (by norm_num) hpos).1 ?_
    rw [abs_mul, abs_of_pos (by positivity : (0 : ℚ) < 10 ^ d)] at h
    rw [Nat.cast_ofNat, zpow_sub₀ (by norm_num), zpow_natCast, zpow_natCast,
      lt_div_iff₀ (by positivity)]
    exact h
  obtain ⟨m, hm⟩ : ∃ m : ℕ, Int.log 10 |x| - precision + 1 = -d - m :=
    ⟨(precision - d - Int.log 10 |x| - 1).toNat, by omega⟩
  have hscaled : x / 10 ^ (Int.log 10 |x| - precision + 1) = ((n * 10 ^ m : ℤ) : ℚ) := by
    rw [hm, zpow_sub₀ (by norm_num), zpow_neg, zpow_natCast, zpow_natCast, hxdef]
    push_cast
    field_simp
  rw [hscaled, roundHalfEven_intCast, ← hscaled]
  exact div_mul_cancel₀ _ (zpow_ne_zero _ (by norm_num))

/-- The context keeps all its digits. -/
theorem le_abs_digits {x : ℚ} (hx : x ≠ 0) :
    (10 : ℤ) ^ (precision - 1) ≤
      |roundHalfEven (x / 10 ^ (Int.log 10 |x| - precision + 1))| := by
  have hpos := abs_pos.2 hx
  have hscale : (0 : ℚ) < 10 ^ (Int.log 10 |x| - precision + 1) := zpow_pos (by norm_num) _
  refine le_abs_roundHalfEven ?_
  rw [abs_div, abs_of_pos hscale, le_div_iff₀ hscale]
  have hself := Int.zpow_log_le_self (b := 10) (by norm_num) hpos
  have hexp : Int.log 10 |x| =
      ((precision - 1 : ℕ) : ℤ) + (Int.log 10 |x| - precision + 1) := by
    unfold precision
    omega
  rw [hexp, Nat.cast_ofNat, zpow_add₀ (by norm_num), zpow_natCast] at hself
  exact_mod_cast hself

/-- Only zero is rounded to zero. -/
theorem roundContext_eq_zero_iff {x : ℚ} : roundContext x = 0 ↔ x = 0 := by
  constructor
  · intro h
    by_contra hx
    have hdigits := le_abs_digits hx
    rw [roundContext, if_neg hx, mul_eq_zero, Int.cast_eq_zero] at h
    rcases h with h | h
    · rw [h, abs_zero] at hdigits
      exact absurd hdigits (by norm_num [precision])
    · exact zpow_ne_zero _ (by norm_num) h
  · rintro rfl
    exact if_pos rfl

/-- A number with too many digits keeps too many. -/
theorem quantize_roundContext_of_long {d : ℕ} {x : ℚ} (h : 10 ^ precision ≤ |x * 10 ^ d|) :
    quantize d (roundContext x) = none := by
  have hd : (0 : ℚ) < 10 ^ d := by positivity
  rw [abs_mul, abs_of_pos hd] at h
  have hpos : 0 < |x| := by
    have hlt : (0 : ℚ) < |x| * 10 ^ d := (pow_pos (by norm_num) precision).trans_le h
    exact (pos_iff_pos_of_mul_pos hlt).2 hd
  have hlog : precision - d ≤ Int.log 10 |x| := by
    refine (Int.zpow_le_iff_le_log (by norm_num) hpos).1 ?_
    rw [Nat.cast_ofNat, zpow_sub₀ (by norm_num), zpow_natCast, zpow_natCast, div_le_iff₀ hd]
    exact h
  set k : ℤ := Int.log 10 |x| - precision + 1 with hk
  have hkpos : (0 : ℚ) < 10 ^ k := zpow_pos (by norm_num) k
  have hdigits : (10 : ℤ) ^ (precision - 1) ≤ |roundHalfEven (x / 10 ^ k)| :=
    le_abs_digits (abs_pos.1 hpos)
  have hlong : (10 : ℤ) ^ precision ≤ |roundHalfEven (roundContext x * 10 ^ d)| := by
    refine le_abs_roundHalfEven ?_
    rw [roundContext, if_neg (abs_pos.1 hpos), abs_mul, abs_mul, abs_of_pos hd, abs_of_pos hkpos]
    have hdigits' : (10 : ℚ) ^ (precision - 1) ≤ |((roundHalfEven (x / 10 ^ k) : ℤ) : ℚ)| := by
      exact_mod_cast hdigits
    have hscale : (10 : ℚ) ≤ 10 ^ k * 10 ^ d := by
      rw [← zpow_natCast, ← zpow_add₀ (by norm_num)]
      calc (10 : ℚ) = 10 ^ (1 : ℤ) := by norm_num
        _ ≤ 10 ^ (k + d) := zpow_le_zpow_right₀ (by norm_num) (by omega)
    calc (((10 : ℤ) ^ precision : ℤ) : ℚ) = 10 ^ (precision - 1) * 10 := by
          push_cast
          rw [← pow_succ]
          rfl
      _ ≤ |((roundHalfEven (x / 10 ^ k) : ℤ) : ℚ)| * (10 ^ k * 10 ^ d) :=
          mul_le_mul hdigits' hscale (by norm_num) (abs_nonneg _)
      _ = _ := by rw [mul_assoc]
  rw [quantize, if_neg (not_lt.2 hlong)]

/-- The context does not change how a number on the grid is quantised. -/
theorem quantize_roundContext {d : ℕ} {x : ℚ} (hx : x ∈ grid d) :
    quantize d (roundContext x) = quantize d x := by
  by_cases h : |x * 10 ^ d| < 10 ^ precision
  · rw [roundContext_of_fits hx h]
  · rw [quantize_roundContext_of_long (not_lt.1 h), quantize_of_mem_grid hx, if_neg h]

/-! ## Adding up in the context -/

/-- The sum of a list, rounded to the context at each addition. -/
def contextSum (l : List ℚ) : ℚ := l.foldl (fun total x => roundContext (total + x)) 0

/-- The context can write down every partial sum. -/
def SumsFit (l : List ℚ) : Prop := ∀ prior, prior <+: l → roundContext prior.sum = prior.sum

instance (l : List ℚ) : Decidable (SumsFit l) :=
  decidable_of_iff (∀ prior ∈ l.inits, roundContext prior.sum = prior.sum) <|
    forall_congr' fun prior => by rw [List.mem_inits]

/-- Then no addition is rounded. -/
theorem contextSum_eq {l : List ℚ} (h : SumsFit l) : contextSum l = l.sum := by
  induction l using List.reverseRecOn with
  | nil => rfl
  | append_singleton l x ih =>
    have hprior : contextSum l = l.sum :=
      ih fun prior hprior => h prior (hprior.trans (List.prefix_append _ _))
    rw [contextSum, List.foldl_append]
    show roundContext (contextSum l + x) = _
    rw [hprior, ← h _ List.prefix_rfl, List.sum_append, List.sum_singleton]

end Decimal

end WalletLedger
