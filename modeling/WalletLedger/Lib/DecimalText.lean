import WalletLedger.Lib.Decimal
import Mathlib.Data.List.DropRight
import Mathlib.Data.List.TakeWhile

/-!
# Decimal numbers and their text

How a decimal library reads a number back: blanks around it and underscores in it are
ignored, then come a sign, digits with an optional point, and an optional exponent, or one
of the special values.  Texts are ASCII.

* `DecimalValue` — a number, or a special value.
* `DecimalValue.ofString` — the reader.
* `ofString_text` — it reads the plain notation of a number on the grid back.
-/

namespace WalletLedger

/-- A value of the decimal library; the special values are without sign and diagnostic. -/
inductive DecimalValue where
  | finite (x : Decimal)
  | infinite
  | nan
  | snan
  deriving DecidableEq

namespace DecimalValue

/-! ## The reader -/

/-- White space. -/
def isBlank (c : Char) : Bool :=
  c = ' ' || (9 ≤ c.toNat && c.toNat ≤ 13) || (28 ≤ c.toNat && c.toNat ≤ 31)

/-- The characters that count. -/
def cleaned (cs : List Char) : List Char :=
  ((cs.dropWhile isBlank).rdropWhile isBlank).filter fun c => c ≠ '_'

/-- A leading sign: whether it is a minus, and what follows. -/
def scanSign : List Char → Bool × List Char
  | '-' :: cs => (true, cs)
  | '+' :: cs => (false, cs)
  | cs => (false, cs)

/-- The exponent after the digits. -/
def scanExponent : List Char → Option ℤ
  | [] => some 0
  | c :: cs =>
      if c = 'e' ∨ c = 'E' then
        let (negative, digits) := scanSign cs
        if digits = [] ∨ ¬ digits.all Char.isDigit then none
        else some ((if negative then -1 else 1) * (Nat.ofDigitChars 10 digits 0 : ℕ))
      else none

/-- Digits, with a point among them or at one of their ends, and an exponent. -/
def scanNumber (cs : List Char) : Option Decimal :=
  let whole := cs.takeWhile Char.isDigit
  let rest := cs.dropWhile Char.isDigit
  let fraction := if rest.head? = some '.' then rest.tail.takeWhile Char.isDigit else []
  let rest := if rest.head? = some '.' then rest.tail.dropWhile Char.isDigit else rest
  if whole = [] ∧ fraction = [] then none
  else
    (scanExponent rest).map fun exponent =>
      (Nat.ofDigitChars 10 (whole ++ fraction) 0 : ℚ) *
        (10 : ℚ) ^ (exponent - fraction.length : ℤ)

/-- A number or a special value, without its sign. -/
def scanMagnitude (cs : List Char) : Option DecimalValue :=
  let lower := cs.map Char.toLower
  if lower = "inf".toList ∨ lower = "infinity".toList then some .infinite
  else if "nan".toList.isPrefixOf lower ∧ (lower.drop 3).all Char.isDigit then some .nan
  else if "snan".toList.isPrefixOf lower ∧ (lower.drop 4).all Char.isDigit then some .snan
  else (scanNumber cs).map .finite

/-- The value with its sign. -/
def signed (negative : Bool) : DecimalValue → DecimalValue
  | .finite x => .finite (if negative then -x else x)
  | v => v

/-- The reader; `none` where the text is no decimal. -/
def ofString (s : String) : Option DecimalValue :=
  let (negative, magnitude) := scanSign (cleaned s.toList)
  (scanMagnitude magnitude).map (signed negative)

/-! ## What the notation of a number reads as -/

theorem isDigit_of_mem_repr {n : ℕ} {c : Char} (h : c ∈ (toString n).toList) : c.isDigit := by
  rw [Nat.toString_eq_repr, Nat.toList_repr] at h
  exact Nat.isDigit_of_mem_toDigits (by norm_num) le_rfl h

theorem ofDigitChars_repr (n : ℕ) : Nat.ofDigitChars 10 (toString n).toList 0 = n := by
  rw [Nat.toString_eq_repr, Nat.toList_repr, Nat.ofDigitChars_ten_toDigits]

theorem repr_ne_nil (n : ℕ) : (toString n).toList ≠ [] := by
  rw [Nat.toString_eq_repr, Nat.toList_repr]
  exact Nat.toDigits_ne_nil

/-- Digits and what may stand between them are kept. -/
theorem cleaned_eq {cs : List Char} (h : ∀ c ∈ cs, c.isDigit ∨ c = '.' ∨ c = '-') :
    cleaned cs = cs := by
  have hblank : ∀ c ∈ cs, isBlank c = false ∧ c ≠ '_' := by
    intro c hc
    rcases h c hc with hd | rfl | rfl
    · rw [Char.isDigit_iff_toNat] at hd
      have h0 : '0'.toNat = 48 := rfl
      have h9 : '9'.toNat = 57 := rfl
      refine ⟨?_, ?_⟩
      · have hspace : c ≠ ' ' := by
          rintro rfl
          exact absurd hd.1 (by decide)
        simp [isBlank, hspace]
        omega
      · rintro rfl
        exact absurd hd.2 (by decide)
    · decide
    · decide
  have hleft : cs.dropWhile isBlank = cs := by
    refine List.dropWhile_eq_self_iff.2 fun hl => ?_
    simp [(hblank _ (List.getElem_mem hl)).1]
  have hright : cs.rdropWhile isBlank = cs := by
    refine List.rdropWhile_eq_self_iff.2 fun hl => ?_
    simp [(hblank _ (List.getLast_mem hl)).1]
  rw [cleaned, hleft, hright, List.filter_eq_self]
  exact fun c hc => by simpa using (hblank c hc).2

/-- Digits alone. -/
theorem scanNumber_digits {ds : List Char} (hne : ds ≠ []) (hds : ∀ c ∈ ds, c.isDigit) :
    scanNumber ds = some (Nat.ofDigitChars 10 ds 0 : ℚ) := by
  have htake : ds.takeWhile Char.isDigit = ds := List.takeWhile_eq_self_iff.2 hds
  have hdrop : ds.dropWhile Char.isDigit = [] := List.dropWhile_eq_nil_iff.2 hds
  simp [scanNumber, htake, hdrop, hne, scanExponent]

/-- Digits, a point and digits. -/
theorem scanNumber_point {ds fs : List Char} (hne : ds ≠ []) (hds : ∀ c ∈ ds, c.isDigit)
    (hfs : ∀ c ∈ fs, c.isDigit) :
    scanNumber (ds ++ '.' :: fs) =
      some ((Nat.ofDigitChars 10 (ds ++ fs) 0 : ℚ) / 10 ^ fs.length) := by
  have htake : (ds ++ '.' :: fs).takeWhile Char.isDigit = ds := by
    rw [List.takeWhile_append_of_pos hds]
    simp
  have hdrop : (ds ++ '.' :: fs).dropWhile Char.isDigit = '.' :: fs := by
    rw [List.dropWhile_append_of_pos hds]
    simp
  have htake' : fs.takeWhile Char.isDigit = fs := List.takeWhile_eq_self_iff.2 hfs
  have hdrop' : fs.dropWhile Char.isDigit = [] := List.dropWhile_eq_nil_iff.2 hfs
  simp [scanNumber, htake, hdrop, htake', hdrop', hne, scanExponent, zpow_neg, div_eq_mul_inv]

theorem toLower_of_isDigit {c : Char} (h : c.isDigit) : c.toLower = c := by
  delta Char.toLower
  rw [dif_neg]
  rintro ⟨hge, -⟩
  rw [Char.isDigit_iff_toNat] at h
  exact absurd (h.2.trans_lt (by decide : '9'.toNat < 'A'.toNat)) (not_lt.2 hge)

/-- What starts with a digit is a number. -/
theorem scanMagnitude_digit {c : Char} {cs : List Char} (hc : c.isDigit) :
    scanMagnitude (c :: cs) = (scanNumber (c :: cs)).map .finite := by
  have hne : ∀ l : Char, l.isDigit = false → l ≠ c := by
    rintro l hl rfl
    rw [hl] at hc
    cases hc
  have hi := hne 'i' (by decide)
  have hn := hne 'n' (by decide)
  have hs := hne 's' (by decide)
  simp [scanMagnitude, toLower_of_isDigit hc, hi.symm, hn, hs, List.isPrefixOf]

/-- The plain notation of `n / 10ᵈ`, as characters. -/
def plainDigits (n d : ℕ) : List Char :=
  (toString (n / 10 ^ d)).toList ++
    if d = 0 then [] else
      '.' :: (List.replicate (d - (toString (n % 10 ^ d)).length) '0' ++
        (toString (n % 10 ^ d)).toList)

theorem toList_text (d : ℕ) (x : Decimal) :
    (Decimal.text d x).toList =
      (if x < 0 then ['-'] else []) ++ plainDigits |x * 10 ^ d|.floor.toNat d := by
  unfold Decimal.text plainDigits
  by_cases hx : x < 0 <;> by_cases hd : d = 0 <;> simp [hx, hd]

/-- The digits after the point: as many as the grid has decimals. -/
theorem fraction_digits {d m : ℕ} (hd : 0 < d) (hm : m < 10 ^ d) :
    let fs := List.replicate (d - (toString m).length) '0' ++ (toString m).toList
    fs.length = d ∧ (∀ c ∈ fs, c.isDigit) ∧
      ∀ k, Nat.ofDigitChars 10 fs k = 10 ^ d * k + m := by
  intro fs
  have hlen : (toString m).length ≤ d := by
    rw [Nat.toString_eq_repr]
    exact (Nat.length_repr_le_iff hd).2 hm
  have hlength : fs.length = d := by
    rw [List.length_append, List.length_replicate, String.length_toList]
    omega
  refine ⟨hlength, fun c hc => ?_, fun k => ?_⟩
  · rcases List.mem_append.1 hc with hc | hc
    · rw [List.eq_of_mem_replicate hc]
      rfl
    · exact isDigit_of_mem_repr hc
  · rw [Nat.ofDigitChars_eq_ofDigitChars_zero, hlength, Nat.ofDigitChars_append,
      Nat.ofDigitChars_replicate_zero, mul_zero, ofDigitChars_repr]

/-- It starts with a digit, and has nothing but digits and a point. -/
theorem plainDigits_eq_cons (n d : ℕ) : ∃ c cs, plainDigits n d = c :: cs ∧ c.isDigit := by
  cases hw : (toString (n / 10 ^ d)).toList with
  | nil => exact absurd hw (repr_ne_nil _)
  | cons c cs =>
    refine ⟨c, _, by rw [plainDigits, hw, List.cons_append], ?_⟩
    exact isDigit_of_mem_repr (n := n / 10 ^ d) (by rw [hw]; simp)

theorem mem_plainDigits {n d : ℕ} {c : Char} (h : c ∈ plainDigits n d) : c.isDigit ∨ c = '.' := by
  rcases List.mem_append.1 h with h | h
  · exact .inl (isDigit_of_mem_repr h)
  · split at h
    · cases h
    · rename_i hd
      rcases List.mem_cons.1 h with rfl | h
      · exact .inr rfl
      · have hm : n % 10 ^ d < 10 ^ d := Nat.mod_lt _ (by positivity)
        exact .inl ((fraction_digits (Nat.pos_of_ne_zero hd) hm).2.1 c h)

theorem scanMagnitude_plainDigits (n d : ℕ) :
    scanMagnitude (plainDigits n d) = some (.finite (n / 10 ^ d)) := by
  obtain ⟨c, cs, hcons, hc⟩ := plainDigits_eq_cons n d
  rw [hcons, scanMagnitude_digit hc, ← hcons, plainDigits]
  have hdigits : ∀ c ∈ (toString (n / 10 ^ d)).toList, c.isDigit := fun c hc =>
    isDigit_of_mem_repr hc
  by_cases hd : d = 0
  · subst hd
    rw [if_pos rfl, List.append_nil, scanNumber_digits (repr_ne_nil _) hdigits, ofDigitChars_repr]
    simp
  · obtain ⟨hlength, hfs, hfraction⟩ :=
      fraction_digits (Nat.pos_of_ne_zero hd) (Nat.mod_lt n (by positivity : 0 < 10 ^ d))
    rw [if_neg hd, scanNumber_point (repr_ne_nil _) hdigits hfs, hlength,
      Nat.ofDigitChars_append, ofDigitChars_repr, hfraction, Nat.div_add_mod]
    rfl

/-- The plain notation of a number on the grid reads as the number. -/
theorem ofString_text {d : ℕ} {x : Decimal} (hx : x ∈ Decimal.grid d) :
    ofString (Decimal.text d x) = some (.finite x) := by
  obtain ⟨k, rfl⟩ := Decimal.mem_grid_iff.1 hx
  have hfloor : |(k : ℚ) / 10 ^ d * 10 ^ d|.floor.toNat = k.natAbs := by
    rw [Decimal.mul_pow_eq, ← Int.cast_abs, Int.abs_eq_natAbs]
    show (⌊((k.natAbs : ℤ) : ℚ)⌋).toNat = k.natAbs
    rw [Int.floor_intCast]
    rfl
  have hlist := toList_text d ((k : ℚ) / 10 ^ d)
  rw [hfloor] at hlist
  obtain ⟨c, cs, hcons, hc⟩ := plainDigits_eq_cons k.natAbs d
  have hclean : cleaned (Decimal.text d ((k : ℚ) / 10 ^ d)).toList =
      (Decimal.text d ((k : ℚ) / 10 ^ d)).toList := by
    refine cleaned_eq fun c hc => ?_
    rw [hlist] at hc
    rcases List.mem_append.1 hc with hc | hc
    · split at hc
      · exact .inr (.inr (List.mem_singleton.1 hc))
      · cases hc
    · exact (mem_plainDigits hc).imp_right .inl
  have hnonneg : (0 : ℚ) < 10 ^ d := by positivity
  have hvalue : (k.natAbs : ℚ) = |(k : ℚ)| := by rw [Nat.cast_natAbs, Int.cast_abs]
  rw [ofString, hclean, hlist]
  by_cases hneg : (k : ℚ) / 10 ^ d < 0
  · have hk : (k : ℚ) < 0 := by
      have hmul := mul_neg_of_neg_of_pos hneg hnonneg
      rwa [Decimal.mul_pow_eq] at hmul
    have hsign : scanSign ('-' :: plainDigits k.natAbs d) = (true, plainDigits k.natAbs d) := rfl
    rw [if_pos hneg, List.singleton_append, hsign]
    dsimp only
    rw [scanMagnitude_plainDigits, hvalue, abs_of_neg hk, Option.map_some, signed, if_pos rfl,
      neg_div, neg_neg]
  · have hk : 0 ≤ (k : ℚ) := by
      have hmul := mul_nonneg (not_lt.1 hneg) hnonneg.le
      rwa [Decimal.mul_pow_eq] at hmul
    have hsign : scanSign (plainDigits k.natAbs d) = (false, plainDigits k.natAbs d) := by
      rw [hcons]
      have hminus : c ≠ '-' := by
        rintro rfl
        exact absurd hc (by decide)
      have hplus : c ≠ '+' := by
        rintro rfl
        exact absurd hc (by decide)
      unfold scanSign
      split <;> simp_all
    rw [if_neg hneg, List.nil_append, hsign]
    dsimp only
    rw [scanMagnitude_plainDigits, hvalue, abs_of_nonneg hk, Option.map_some, signed]
    rfl

example : ofString " -1_000.25 " = some (.finite (-1000.25)) := by decide +kernel
example : ofString "+12e-1" = some (.finite 1.2) := by decide +kernel
example : ofString "sNaN12" = some .snan := by decide +kernel
example : ofString "1,5" = none := by decide +kernel

end DecimalValue

end WalletLedger
