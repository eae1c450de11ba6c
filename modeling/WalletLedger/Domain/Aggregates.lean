import WalletLedger.Domain.Money
import WalletLedger.Lib.Tally

/-!
# The two aggregates

`domain/aggregates.py`: the transaction, which owns its posting lines and imposes
double entry, and the account, which refuses a debit its available amount does not
cover.

* `TransactionAggregate.debit`, `credit`, `record`, `assertBalanced`.
* `totalled_totals` — the dictionary of totals holds the exact sum of every currency, and
  `assertBalanced_cases`: a list of lines is refused for a currency that does not sum to zero.
* `tally_of_assertBalanced` — two lines are accepted if they sum to zero in every currency.
* `AccountAggregate.ensureCanDebit`, with `le_of_ensureCanDebit`: what the caller
  knows once the check has passed.
-/

namespace WalletLedger

/-- An entry decided by the domain, before it is stored. -/
structure PostingLine where
  accountId : Id
  /-- Signed: negative for a debit, positive for a credit. -/
  amount : Decimal
  entryType : EntryType
  currency : String
  status : EntryStatus
  deriving DecidableEq

/-- The sum of the lines in a currency. -/
abbrev sumIn (currency : String) (lines : List PostingLine) : Decimal :=
  tally (fun line => line.currency = currency) PostingLine.amount lines

/-- The lines sum to zero in every currency. -/
def ZeroSum (lines : List PostingLine) : Prop :=
  ∀ c, tally (fun line => line.currency = c) PostingLine.amount lines = 0

theorem sumIn_concat (c : String) (lines : List PostingLine) (line : PostingLine) :
    sumIn c (lines ++ [line]) = sumIn c lines + if line.currency = c then line.amount else 0 := by
  rw [sumIn, tally_append, tally_cons, tally_nil, add_zero]

/-- Every partial sum of every currency is a number that the context can write down. -/
def PartialSumsFit (lines : List PostingLine) : Prop :=
  ∀ prior, prior <+: lines → ∀ c, Decimal.roundContext (sumIn c prior) = sumIn c prior

instance (lines : List PostingLine) : Decidable (PartialSumsFit lines) :=
  decidable_of_iff
    (∀ prior ∈ lines.inits, ∀ line ∈ lines,
      Decimal.roundContext (sumIn line.currency prior) = sumIn line.currency prior) <| by
    constructor
    · intro h prior hprior c
      by_cases hc : ∃ line ∈ lines, line.currency = c
      · obtain ⟨line, hline, rfl⟩ := hc
        exact h prior ((List.mem_inits _ _).2 hprior) line hline
      · -- no line has the currency: the sum is zero
        have hzero : sumIn c prior = 0 :=
          tally_eq_zero fun line hline heq => absurd ⟨line, hprior.subset hline, heq⟩ hc
        rw [hzero]
        exact if_pos rfl
    · exact fun h prior hprior line _ => h prior ((List.mem_inits _ _).1 hprior) line.currency

/-- The transaction aggregate: its lines, in the order they were recorded. -/
structure TransactionAggregate where
  currency : String
  lines : List PostingLine
  deriving DecidableEq

namespace TransactionAggregate

/-- `TransactionAggregate(currency)`. -/
def new (currency : String) : TransactionAggregate := ⟨currency, []⟩

def record (t : TransactionAggregate) (accountId : Id) (amount : Decimal) (entryType : EntryType)
    (currency : String) (status : EntryStatus) : TransactionAggregate :=
  { t with lines := t.lines ++ [⟨accountId, amount, entryType, currency, status⟩] }

/-- A debit is always negative. -/
def debit (t : TransactionAggregate) (accountId : Id) (money : Money)
    (status : EntryStatus := .success) : TransactionAggregate :=
  t.record accountId (-|money.amount|) .debit money.currency status

def credit (t : TransactionAggregate) (accountId : Id) (money : Money)
    (status : EntryStatus := .success) : TransactionAggregate :=
  t.record accountId |money.amount| .credit money.currency status

/-- `totals[currency] += amount` on a dictionary with default zero; the sum is rounded to the
digits of the context. -/
def addTotal (totals : List (String × Decimal)) (currency : String) (amount : Decimal) :
    List (String × Decimal) :=
  match totals with
  | [] => [(currency, Decimal.roundContext (0 + amount))]
  | (c, total) :: rest =>
      if c = currency then (c, Decimal.roundContext (total + amount)) :: rest
      else (c, total) :: addTotal rest currency amount

/-- The totals by currency, in the order the currencies first appear. -/
def totals (lines : List PostingLine) : List (String × Decimal) :=
  lines.foldl (fun acc line => addTotal acc line.currency line.amount) []

/-- The first total that is not zero is reported. -/
def checkTotals : List (String × Decimal) → Except Exn Unit
  | [] => .ok ()
  | (currency, total) :: rest =>
      if total ≠ 0 then .error (.domain (.ledgerNotBalanced currency total))
      else checkTotals rest

/-- Double entry: the lines sum to zero, currency by currency. -/
def assertBalanced (t : TransactionAggregate) : Except Exn Unit := checkTotals (totals t.lines)

/-! ## The totals -/

theorem lookup_cons_of_ne {totals : List (String × Decimal)} {c c' : String} {total : Decimal}
    (h : c' ≠ c) : ((c, total) :: totals).lookup c' = totals.lookup c' := by
  rw [List.lookup_cons, beq_false_of_ne h]

theorem lookup_addTotal (totals : List (String × Decimal)) (c : String) (x : Decimal)
    (c' : String) :
    (addTotal totals c x).lookup c' =
      if c' = c then some (Decimal.roundContext ((totals.lookup c).getD 0 + x))
      else totals.lookup c' := by
  induction totals with
  | nil =>
    by_cases h : c' = c
    · simp [addTotal, h]
    · rw [addTotal, lookup_cons_of_ne h, if_neg h]
  | cons t totals ih =>
    obtain ⟨d, total⟩ := t
    rw [addTotal]
    by_cases hd : d = c
    · subst hd
      by_cases h : c' = d
      · simp [h]
      · rw [if_pos rfl, lookup_cons_of_ne h, lookup_cons_of_ne h, if_neg h]
    · rw [if_neg hd, lookup_cons_of_ne (Ne.symm hd)]
      by_cases h : c' = d
      · simp [h, hd]
      · rw [lookup_cons_of_ne h, lookup_cons_of_ne h, ih]

theorem mem_keys_addTotal {totals : List (String × Decimal)} {c c' : String} {x : Decimal}
    (h : c' ∈ (addTotal totals c x).map Prod.fst) : c' = c ∨ c' ∈ totals.map Prod.fst := by
  induction totals with
  | nil => exact .inl (by simpa [addTotal] using h)
  | cons t totals ih =>
    rw [addTotal] at h
    split at h
    · exact .inr h
    · rcases List.mem_cons.1 h with rfl | h
      · exact .inr List.mem_cons_self
      · exact (ih h).imp_right (List.mem_cons_of_mem _)

theorem nodup_addTotal {totals : List (String × Decimal)} (h : (totals.map Prod.fst).Nodup)
    (c : String) (x : Decimal) : ((addTotal totals c x).map Prod.fst).Nodup := by
  induction totals with
  | nil => exact List.nodup_singleton c
  | cons t totals ih =>
    rw [List.map_cons, List.nodup_cons] at h
    rw [addTotal]
    split
    · exact List.nodup_cons.2 h
    · rename_i hne
      refine List.nodup_cons.2 ⟨fun hmem => ?_, ih h.2⟩
      rcases mem_keys_addTotal hmem with hc | hmem
      · exact hne hc
      · exact h.1 hmem

/-- The dictionary holds the sum of the lines in each currency. -/
structure Totalled (totals : List (String × Decimal)) (lines : List PostingLine) : Prop where
  distinct : (totals.map Prod.fst).Nodup
  exact : ∀ c, (totals.lookup c).getD 0 = sumIn c lines

/-- One more line, if the sum of its currency fits. -/
theorem Totalled.record {totals : List (String × Decimal)} {lines : List PostingLine}
    {line : PostingLine} (h : Totalled totals lines)
    (hfit : Decimal.roundContext (sumIn line.currency (lines ++ [line])) =
      sumIn line.currency (lines ++ [line])) :
    Totalled (addTotal totals line.currency line.amount) (lines ++ [line]) := by
  refine ⟨nodup_addTotal h.distinct _ _, fun c => ?_⟩
  rw [lookup_addTotal]
  split
  · rename_i hc
    subst hc
    rw [Option.getD_some, h.exact, ← hfit, sumIn_concat, if_pos rfl]
  · rename_i hc
    rw [h.exact, sumIn_concat, if_neg (Ne.symm hc), add_zero]

theorem totalled_totals {lines : List PostingLine} (hfit : PartialSumsFit lines) :
    Totalled (totals lines) lines := by
  induction lines using List.reverseRecOn with
  | nil => exact ⟨List.nodup_nil, fun _ => rfl⟩
  | append_singleton lines line ih =>
    rw [totals, List.foldl_append]
    refine (ih fun prior hprior => hfit prior (hprior.trans (List.prefix_append _ _))).record ?_
    exact hfit _ List.prefix_rfl _

theorem lookup_of_mem {totals : List (String × Decimal)} (h : (totals.map Prod.fst).Nodup)
    {t : String × Decimal} (ht : t ∈ totals) : totals.lookup t.1 = some t.2 := by
  obtain ⟨l₁, l₂, rfl⟩ := List.mem_iff_append.1 ht
  refine List.lookup_eq_some_iff.2 ⟨l₁, l₂, rfl, fun p hp => ?_⟩
  rw [List.map_append, List.map_cons, List.nodup_append] at h
  simpa using fun heq : t.1 = p.1 =>
    h.2.2 p.1 (List.mem_map_of_mem hp) t.1 List.mem_cons_self heq.symm

theorem checkTotals_cases (totals : List (String × Decimal)) :
    (checkTotals totals = .ok () ∧ ∀ t ∈ totals, t.2 = 0) ∨
      ∃ t ∈ totals, t.2 ≠ 0 ∧
        checkTotals totals = .error (.domain (.ledgerNotBalanced t.1 t.2)) := by
  induction totals with
  | nil => exact .inl ⟨rfl, by simp⟩
  | cons t totals ih =>
    rw [checkTotals]
    by_cases hzero : t.2 = 0
    · rw [if_neg (not_not.2 hzero)]
      rcases ih with ⟨hok, hall⟩ | ⟨t', ht', hne, herr⟩
      · refine .inl ⟨hok, fun t' ht' => ?_⟩
        rcases List.mem_cons.1 ht' with rfl | ht'
        · exact hzero
        · exact hall t' ht'
      · exact .inr ⟨t', List.mem_cons_of_mem _ ht', hne, herr⟩
    · exact .inr ⟨t, List.mem_cons_self, hzero, if_pos hzero⟩

theorem eq_zero_of_checkTotals {totals : List (String × Decimal)}
    (h : checkTotals totals = .ok ()) : ∀ t ∈ totals, t.2 = 0 := by
  rcases checkTotals_cases totals with ⟨-, hall⟩ | ⟨_, _, _, herr⟩
  · exact hall
  · rw [h] at herr
    cases herr

/-- The lines are accepted if they sum to zero in every currency; else one that does not is
reported, with its sum. -/
theorem assertBalanced_cases (t : TransactionAggregate) (hfit : PartialSumsFit t.lines) :
    (t.assertBalanced = .ok () ∧ ZeroSum t.lines) ∨
      ∃ c, sumIn c t.lines ≠ 0 ∧
        t.assertBalanced = .error (.domain (.ledgerNotBalanced c (sumIn c t.lines))) := by
  have htotals := totalled_totals hfit
  rcases checkTotals_cases (totals t.lines) with ⟨hok, hall⟩ | ⟨⟨c, total⟩, ht, hne, herr⟩
  · refine .inl ⟨hok, fun c => (htotals.exact c).symm.trans ?_⟩
    cases hlookup : (totals t.lines).lookup c with
    | none => rfl
    | some total =>
      obtain ⟨l₁, l₂, heq, -⟩ := List.lookup_eq_some_iff.1 hlookup
      exact hall (c, total) (by rw [heq]; simp)
  · have hsum := htotals.exact c
    rw [lookup_of_mem htotals.distinct ht, Option.getD_some] at hsum
    subst hsum
    exact .inr ⟨c, hne, herr⟩

/-- Two lines of amounts that the context can write down, if accepted, sum to zero in every
currency. -/
theorem tally_of_assertBalanced {t : TransactionAggregate} {x y : PostingLine}
    (ht : t.lines = [x, y]) (hx : Decimal.roundContext x.amount = x.amount)
    (h : t.assertBalanced = .ok ()) (c : String) :
    tally (fun line => line.currency = c) PostingLine.amount t.lines = 0 := by
  have hzero := eq_zero_of_checkTotals h
  rw [ht] at hzero ⊢
  rw [tally_cons, tally_cons, tally_nil, add_zero]
  by_cases hcur : x.currency = y.currency
  · have hsum : x.amount + y.amount = 0 := by
      have hpair := hzero (x.currency, Decimal.roundContext (x.amount + y.amount))
        (by simp [totals, addTotal, hcur, hx])
      exact Decimal.roundContext_eq_zero_iff.1 hpair
    rw [hcur]
    split
    · exact hsum
    · exact add_zero 0
  · have hx0 : x.amount = 0 := by
      have hfirst := hzero (x.currency, Decimal.roundContext (0 + x.amount))
        (by simp [totals, addTotal, hcur])
      simpa using Decimal.roundContext_eq_zero_iff.1 hfirst
    have hy0 : y.amount = 0 := by
      have hsecond := hzero (y.currency, Decimal.roundContext (0 + y.amount))
        (by simp [totals, addTotal, hcur])
      simpa using Decimal.roundContext_eq_zero_iff.1 hsecond
    rw [hx0, hy0]
    simp

/-- A debit and a credit of one amount in one currency are accepted. -/
theorem assertBalanced_pair {t : TransactionAggregate} {debit credit : PostingLine}
    (ht : t.lines = [debit, credit]) (hcur : debit.currency = credit.currency)
    (hamount : debit.amount = -credit.amount)
    (hdebit : Decimal.roundContext debit.amount = debit.amount) : t.assertBalanced = .ok () := by
  have hzero : Decimal.roundContext (debit.amount + credit.amount) = 0 :=
    Decimal.roundContext_eq_zero_iff.2 (by rw [hamount, neg_add_cancel])
  simp [assertBalanced, ht, totals, addTotal, checkTotals, hcur, hdebit, hzero]

end TransactionAggregate

namespace AccountAggregate

/-- Allow the debit only if the available amount covers it. -/
def ensureCanDebit (amount available : Money) : Except Exn Unit := do
  if ← available.lt amount then
    throw (.domain (.insufficientFunds available.amount amount.amount))
  return ()

theorem le_of_ensureCanDebit {amount available : Money}
    (h : ensureCanDebit amount available = .ok ()) : amount.amount ≤ available.amount := by
  by_contra hlt
  by_cases hc : available.currency = amount.currency
  · simp [ensureCanDebit, Money.lt, Money.ensureSameCurrency, hc, not_le.1 hlt, bind, Except.bind,
      pure, Except.pure, throw, throwThe, MonadExceptOf.throw] at h
  · simp [ensureCanDebit, Money.lt, Money.ensureSameCurrency, hc, bind, Except.bind] at h

end AccountAggregate

end WalletLedger
