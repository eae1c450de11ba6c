import WalletLedger.Application.Ledger

/-!
# Reading a balance

`application/balance_query.py` and `infrastructure/cache.py`: the balance a client sees is
taken from the cache, and computed from the ledger when the cache has none.
-/

namespace WalletLedger

/-- `BalanceCache.get`: a cache that fails has nothing. -/
def BalanceCache.get (accountId : Id) (currency : String) : App (Option Money) := do
  let raw ← (ask (.cacheGet accountId)).attempt fun _ => .ret none
  match raw with
  | none => return none
  | some amount => some <$> Program.ofExcept (Money.make amount currency)

/-- `BalanceCache.set`: a cache that fails is ignored. -/
def BalanceCache.set (accountId : Id) (money : Money) : App Unit :=
  (ask (.cacheSet accountId money.amount)).attempt fun _ => .ret ()

/-- `BalanceQuery.get`. -/
def BalanceQuery.get (account : Account) : App Money := do
  let cached ← BalanceCache.get account.id account.currency
  match cached with
  | some money => return money
  | none => do
    let money ← LedgerService.balance account
    BalanceCache.set account.id money
    return money

/-- The endpoint `get_balance`. -/
def getBalance (number : String) : App Money := do
  let account ← AccountService.getByNumber number
  BalanceQuery.get account

end WalletLedger
