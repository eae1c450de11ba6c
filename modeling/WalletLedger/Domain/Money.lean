import WalletLedger.Domain.Errors

/-!
# Money

The value object of `domain/money.py`.  An amount only exists together with its
currency and at that currency's precision: `Money.make` is the constructor that
rounds, and the fields of the structure say what every value it returns satisfies.

* `decimalsFor` — the decimals of a currency.
* `Money.make` — `Money(amount, currency)`; `Money.make_of_mem_grid` says that it
  leaves an amount of the right precision as it is.
* `Money.ext_iff` — two values are equal when amount and currency are, so
  comparing them is decidable.
-/

namespace WalletLedger

/-! ## Currency codes

A code is written in ASCII letters, and cased as such: other letters have no case here, where
`str.upper` and `str.lower` give them one.  What is said of the case of a code is said of ASCII. -/

/-- A letter in upper case is outside the range of lower-case letters. -/
theorem charToUpper_charToUpper (c : Char) : c.toUpper.toUpper = c.toUpper := by
  delta Char.toUpper
  by_cases h : 'a'.val ≤ c.val ∧ c.val ≤ 'z'.val
  · rw [dif_pos h, dif_neg]
    rintro ⟨hlow, _⟩
    have ha := UInt32.le_iff_toNat_le.1 h.1
    have hz := UInt32.le_iff_toNat_le.1 h.2
    have hlow' := UInt32.le_iff_toNat_le.1 hlow
    have hdiff : ('A'.val - 'a'.val).toNat = 4294967264 := by decide
    have hca : 'a'.val.toNat = 97 := by decide
    have hcz : 'z'.val.toNat = 122 := by decide
    rw [UInt32.toNat_add, hdiff] at hlow'
    rw [hca] at ha hlow'
    rw [hcz] at hz
    generalize c.val.toNat = n at *
    omega
  · rw [dif_neg h, dif_neg h]

theorem toUpper_toUpper (s : String) : s.toUpper.toUpper = s.toUpper := by
  unfold String.toUpper
  rw [String.map_map]
  congr 1
  funext c
  exact charToUpper_charToUpper c

/-- The table of decimals by currency; two where it is silent. -/
def decimalsFor (currency : String) : ℕ :=
  match currency.toUpper with
  | "EUR" => 2
  | "USD" => 2
  | "JPY" => 0
  | "XAF" => 0
  | "XOF" => 0
  | _ => 2

theorem decimalsFor_toUpper (c : String) : decimalsFor c.toUpper = decimalsFor c := by
  unfold decimalsFor
  rw [toUpper_toUpper]

/-- Every currency is coarser than the columns. -/
theorem decimalsFor_lt (c : String) : decimalsFor c < 8 := by
  unfold decimalsFor
  split <;> omega

theorem decimalsFor_le (c : String) : decimalsFor c ≤ 8 := (decimalsFor_lt c).le

/-! ## The value object -/

/-- An amount at the precision of its currency. -/
structure Money where
  amount : Decimal
  currency : String
  /-- The amount is a multiple of the currency's quantum. -/
  onGrid : amount ∈ Decimal.grid (decimalsFor currency)
  /-- It has at most as many digits as the decimal context. -/
  fits : |amount * 10 ^ decimalsFor currency| < 10 ^ Decimal.precision
  /-- The code is in upper case. -/
  isUpper : currency.toUpper = currency

namespace Money

/-- `Money(amount, currency)`: the amount is quantised, half to even. -/
def make (amount : Decimal) (currency : String) : Except Exn Money :=
  match h : Decimal.quantize (decimalsFor currency) amount with
  | none => .error .invalidOperation
  | some x =>
      .ok
        { amount := x
          currency := currency.toUpper
          onGrid := by
            rw [decimalsFor_toUpper]
            exact Decimal.quantize_mem_grid h
          fits := by
            rw [decimalsFor_toUpper]
            exact Decimal.quantize_fits h
          isUpper := toUpper_toUpper currency }

@[ext] theorem ext {m n : Money} (ha : m.amount = n.amount) (hc : m.currency = n.currency) :
    m = n := by
  cases m
  cases n
  cases ha
  cases hc
  rfl

instance : DecidableEq Money := fun m n =>
  decidable_of_iff (m.amount = n.amount ∧ m.currency = n.currency)
    ⟨fun h => Money.ext h.1 h.2, fun h => h ▸ ⟨rfl, rfl⟩⟩

/-- What the constructor returns. -/
theorem quantize_of_make {x : Decimal} {c : String} {m : Money} (h : make x c = .ok m) :
    Decimal.quantize (decimalsFor c) x = some m.amount ∧ m.currency = c.toUpper := by
  unfold make at h
  split at h
  · cases h
  · cases h
    exact ⟨‹_›, rfl⟩

/-- An amount at the currency's precision is kept, or refused for its length. -/
theorem amount_of_make {x : Decimal} {c : String} {m : Money}
    (hx : x ∈ Decimal.grid (decimalsFor c)) (h : make x c = .ok m) : m.amount = x :=
  Decimal.eq_of_quantize hx (quantize_of_make h).1

/-- The amount of a value made of an amount at the currency's precision. -/
theorem amount_make {x : Decimal} {c : String} (hx : x ∈ Decimal.grid (decimalsFor c)) :
    (make x c).map Money.amount =
      if |x * 10 ^ decimalsFor c| < 10 ^ Decimal.precision then .ok x
      else .error .invalidOperation := by
  have hq := Decimal.quantize_of_mem_grid hx
  unfold make
  split
  · rename_i h
    rw [h] at hq
    split at hq
    · cases hq
    · rw [if_neg ‹_›]
      rfl
  · rename_i y h
    rw [h] at hq
    split at hq
    · cases hq
      rw [if_pos ‹_›]
      rfl
    · cases hq

theorem currency_of_make {x : Decimal} {c : String} {m : Money} (h : make x c = .ok m) :
    m.currency = c.toUpper := (quantize_of_make h).2

theorem amount_mem_grid_of_make {x : Decimal} {c : String} {m : Money} (h : make x c = .ok m) :
    m.amount ∈ Decimal.grid (decimalsFor c) :=
  Decimal.quantize_mem_grid (quantize_of_make h).1

/-- An amount is on the grid of the columns. -/
theorem amount_mem_grid (m : Money) : m.amount ∈ Decimal.grid 8 :=
  Decimal.grid_le (decimalsFor_le m.currency) m.onGrid

/-- Rebuilding a value from its own amount and currency gives it back. -/
@[simp] theorem make_self (m : Money) : make m.amount m.currency = .ok m := by
  have hq : Decimal.quantize (decimalsFor m.currency) m.amount = some m.amount := by
    rw [Decimal.quantize_of_mem_grid m.onGrid, if_pos m.fits]
  unfold make
  split
  · rename_i h
    rw [hq] at h
    cases h
  · rename_i x h
    rw [hq] at h
    cases h
    exact congrArg Except.ok (Money.ext rfl m.isUpper)

/-- `_ensure_same_currency`. -/
def ensureSameCurrency (m n : Money) : Except Exn Unit :=
  if m.currency ≠ n.currency then .error (.domain (.currencyMismatch m.currency n.currency))
  else .ok ()

/-- `+`: the sum is rounded to the digits of the context, then by the constructor. -/
def add (m n : Money) : Except Exn Money := do
  ensureSameCurrency m n
  make (Decimal.roundContext (m.amount + n.amount)) m.currency

/-- `-`. -/
def sub (m n : Money) : Except Exn Money := do
  ensureSameCurrency m n
  make (Decimal.roundContext (m.amount - n.amount)) m.currency

/-- The unary `-`. -/
def neg (m : Money) : Except Exn Money := make (Decimal.roundContext (-m.amount)) m.currency

/-- `<`, which refuses to compare two currencies. -/
def lt (m n : Money) : Except Exn Bool := do
  ensureSameCurrency m n
  return decide (m.amount < n.amount)

/-- `<=`. -/
def le (m n : Money) : Except Exn Bool := do
  ensureSameCurrency m n
  return decide (m.amount ≤ n.amount)

/-- `>`. -/
def gt (m n : Money) : Except Exn Bool := do
  ensureSameCurrency m n
  return decide (m.amount > n.amount)

/-- `>=`. -/
def ge (m n : Money) : Except Exn Bool := do
  ensureSameCurrency m n
  return decide (m.amount ≥ n.amount)

/-- `is_positive`. -/
def isPositive (m : Money) : Bool := decide (0 < m.amount)

/-- `zero`. -/
def zero (currency : String) : Except Exn Money := make 0 currency

/-- `str(money.amount)`. -/
def text (m : Money) : String := Decimal.text (decimalsFor m.currency) m.amount

end Money

end WalletLedger
