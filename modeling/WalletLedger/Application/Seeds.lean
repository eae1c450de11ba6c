import WalletLedger.Application.Transfers

/-!
# The operator's commands

`seeds.py`: an account is funded from the clearing account, straight through the ledger and
without a provider.  The amount is the operator's, as it is: no `Money` is made of it.

* `Seeds.fundAccount` — the fund command.
* `Seeds.seed` — the accounts of the demonstration, opened and funded where they are missing.
-/

namespace WalletLedger

/-- `LedgerEntry.debit`: negative whatever the sign of the amount, which `abs` rounds to the digits
of the context. -/
def LedgerEntry.debit (accountId : Id) (amount : Decimal) (currency : String)
    (status : EntryStatus := .success) : PostingLine :=
  ⟨accountId, -Decimal.roundContext |amount|, .debit, currency, status⟩

/-- `LedgerEntry.credit`. -/
def LedgerEntry.credit (accountId : Id) (amount : Decimal) (currency : String)
    (status : EntryStatus := .success) : PostingLine :=
  ⟨accountId, Decimal.roundContext |amount|, .credit, currency, status⟩

namespace Seeds

/-- `_fund`. -/
def fund (account : Account) (amount : Decimal) : App Unit := do
  let clearing ← AccountService.getOrCreateInternal clearingOwner account.currency
  let txn ← ask (.mutate (.insertTransaction .deposit .success amount account.currency .empty none))
  LedgerService.postEntries
    [(LedgerEntry.debit clearing.id amount account.currency, txn.id),
      (LedgerEntry.credit account.id amount account.currency, txn.id)]
  ask .commit
  return ()

/-- `fund_account`. -/
def fundAccount (number : String) (amount : Decimal) : App Account := do
  let account ← AccountService.getByNumber number
  fund account amount
  return account

/-- `_ensure`: an account that is there is left as it is, and a new one is funded. -/
def ensure (ownerId currency : String) (fundAmount : Option Decimal) : App (Account × Bool) := do
  let found ← ask (.select (.accountByOwner ownerId currency))
  match found with
  | some account => return (account, false)
  | none => do
    let account ← AccountService.create ownerId currency
    match fundAmount with
    | none => return (account, true)
    | some amount => do
      -- the account has expired with the commit that created it
      let account ← reloadAccount account.id
      fund account amount
      return (account, true)

/-- What `seed` returns: an account that a commit has expired is selected again, and one that has
not reads the same. -/
def numbers (alice bob kamga claire : Account) : App (List (String × String)) := do
  let alice ← reloadAccount alice.id
  let bob ← reloadAccount bob.id
  let kamga ← reloadAccount kamga.id
  let claire ← reloadAccount claire.id
  return [("alice", alice.number), ("bob", bob.number), ("kamga", kamga.number),
    ("claire", claire.number)]

/-- `seed`: the transfer between the first two is made once, when the first one is opened. -/
def seed (cfg : Config) : App (List (String × String)) := do
  let (alice, aliceCreated) ← ensure "alice" "USD" (some 200)
  let (bob, _) ← ensure "bob" "USD" none
  let (kamga, _) ← ensure "kamga" "XAF" (some 5000)
  let (claire, _) ← ensure "claire" "EUR" (some 100)
  if aliceCreated then do
    let alice ← reloadAccount alice.id
    let bob ← reloadAccount bob.id
    let _ ← TransferService.execute cfg alice.id bob.id 30 none
  numbers alice bob kamga claire

end Seeds

end WalletLedger
