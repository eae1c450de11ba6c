import WalletLedger.Domain.Errors

/-!
# Business errors at the HTTP boundary

`api/errors.py`: the status an error of the domain is answered with.  Any other exception is
none of its handlers' business.
-/

namespace WalletLedger

/-- `_STATUS_BY_CODE`. -/
def statusByCode : List (String × ℕ) :=
  [("ACCOUNT_NOT_FOUND", 404), ("TRANSACTION_NOT_FOUND", 404), ("INSUFFICIENT_FUNDS", 422),
    ("CURRENCY_MISMATCH", 422), ("SAME_CURRENCY", 422), ("INVALID_AMOUNT", 422),
    ("UNKNOWN_CURRENCY", 400), ("INVALID_TRANSACTION_STATE", 409), ("LEDGER_NOT_BALANCED", 422),
    ("DEPOSIT_AMOUNT_MISMATCH", 422), ("RISK_REJECTED", 422), ("DUPLICATE_ACCOUNT", 409),
    ("IDEMPOTENCY_CONFLICT", 409), ("WEBHOOK_VERIFICATION_FAILED", 401),
    ("UNSUPPORTED_PROVIDER", 400)]

/-- `_handle_domain_error`: a code that is not on the table falls back on 400. -/
def DomainError.status (e : DomainError) : ℕ := (statusByCode.lookup e.code).getD 400

/-- Every error of the domain is the client's. -/
theorem DomainError.status_client (e : DomainError) : 400 ≤ e.status ∧ e.status < 500 := by
  have htable : ∀ row ∈ statusByCode, 400 ≤ row.2 ∧ row.2 < 500 := by decide
  unfold DomainError.status
  cases h : statusByCode.lookup e.code with
  | none => decide
  | some status =>
    obtain ⟨before, after, hrows, -⟩ := List.lookup_eq_some_iff.1 h
    exact htable (e.code, status) (by rw [hrows]; simp)

end WalletLedger
