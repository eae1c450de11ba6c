import WalletLedger.Sequential.Invariants

/-!
# Conservation of money

Money is moved, never made: in every reachable state the settled entries of each
transaction cancel in each currency, every entry is in the currency of its account,
and so the balances of all the accounts of a currency sum to zero.
-/

namespace WalletLedger

variable {cfg : Config} {b : Books}

namespace Books

/-- The accounts of a currency. -/
def holders (b : Books) (c : String) : List Id :=
  (b.accounts.filter fun a => a.currency = c).map Account.id

/-- Their settled balances, added up. -/
def settledIn (b : Books) (c : String) : Decimal := ((b.holders c).map b.settled).sum

theorem settledIn_eq (hids : (b.accounts.map Account.id).Nodup) (c : String) :
    b.settledIn c = tally (fun e => e.status = .success ∧ e.accountId ∈ b.holders c)
      LedgerEntry.amount b.entries := by
  have hnodup : (b.holders c).Nodup := hids.sublist (List.filter_sublist.map _)
  rw [settledIn, ← sum_tally_fiber LedgerEntry.accountId (fun e => e.status = .success)
    LedgerEntry.amount hnodup]
  congr 1
  refine List.map_congr_left fun a _ => ?_
  exact tally_congr (fun e _ => and_comm) fun _ _ _ => rfl

end Books

/-- The settled entries in a currency, added up account by account. -/
theorem sum_settled_eq {s : Store} (h : s.Sound) (c : String) :
    ((s.db.books.accounts.filter fun a => a.currency = c).map
      fun a => s.db.books.settled a.id).sum =
      tally (fun e => e.currency = c ∧ e.status = .success) LedgerEntry.amount
        s.db.books.entries := by
  have hsum : ((s.db.books.accounts.filter fun a => a.currency = c).map
      fun a => s.db.books.settled a.id).sum = s.db.books.settledIn c := by
    rw [Books.settledIn, Books.holders, List.map_map]
    rfl
  rw [hsum, Books.settledIn_eq h.keyed.accountIds]
  refine tally_congr (fun e he => ?_) fun _ _ _ => rfl
  -- an account with the entry's identifier is the entry's account
  obtain ⟨a, ha, hid, hcur⟩ := (h.linked.entries e he).account
  have hid : a.id = e.accountId := hid
  have hcur : a.currency = e.currency := hcur
  rw [and_comm]
  refine and_congr_left fun _ => ?_
  constructor
  · intro hmem
    obtain ⟨x, hx, hxe⟩ := List.mem_map.1 hmem
    rw [List.mem_filter] at hx
    obtain rfl : x = a := eq_of_key_eq h.keyed.accountIds hx.1 ha (hxe.trans hid.symm)
    exact hcur.symm.trans (of_decide_eq_true hx.2)
  · intro hc
    exact List.mem_map.2 ⟨a, List.mem_filter.2 ⟨ha, decide_eq_true (hcur.trans hc)⟩, hid⟩

/-- The settled entries in a currency cancel. -/
theorem tally_currency_eq_zero {s : Store} (h : s.Sound) (c : String) :
    tally (fun e => e.currency = c ∧ e.status = .success) LedgerEntry.amount
      s.db.books.entries = 0 := by
  have hfiber := sum_tally_fiber LedgerEntry.transactionId
    (fun e => e.currency = c ∧ e.status = .success) LedgerEntry.amount h.keyed.transactionIds
    s.db.books.entries
  have hall : tally (fun e => e.currency = c ∧ e.status = .success) LedgerEntry.amount
      s.db.books.entries =
      tally (fun e => (e.currency = c ∧ e.status = .success) ∧
        e.transactionId ∈ s.db.books.transactions.map Transaction.id) LedgerEntry.amount
        s.db.books.entries := by
    refine tally_congr (fun e he => ?_) fun _ _ _ => rfl
    obtain ⟨t, ht, hid⟩ := h.keyed.entryTransaction e he
    have hmem : e.transactionId ∈ s.db.books.transactions.map Transaction.id :=
      List.mem_map.2 ⟨t, ht, hid⟩
    simp [hmem]
  rw [hall, ← hfiber]
  refine List.sum_eq_zero fun x hx => ?_
  obtain ⟨id, -, rfl⟩ := List.mem_map.1 hx
  rw [← h.balanced id c]
  exact tally_congr (fun e _ => by tauto) fun _ _ _ => rfl

/-- **Conservation of money.**  After any operations with any inputs, the settled
entries of every transaction sum to zero in every currency; every entry is in the
currency of its account; and the settled balances of the accounts of a currency sum to
zero. -/
theorem conservation_of_money (cfg : Config) (ops : List Operation) :
    let b := (runAll cfg ops Store.empty).db.books
    (∀ t ∈ b.transactions, ∀ c : String,
      tally (fun e => e.transactionId = t.id ∧ e.currency = c ∧ e.status = .success)
        LedgerEntry.amount b.entries = 0) ∧
    (∀ e ∈ b.entries, (∃ a ∈ b.accounts, a.id = e.accountId) ∧
      ∀ a ∈ b.accounts, a.id = e.accountId → a.currency = e.currency) ∧
    ∀ c : String,
      ((b.accounts.filter fun a => a.currency = c).map fun a => b.settled a.id).sum = 0 := by
  have h : (runAll cfg ops Store.empty).Sound := sound_of_run (Run.foldl ops)
  refine ⟨fun t _ c => h.balanced t.id c, fun e he => ⟨h.keyed.entryAccount e he, ?_⟩, fun c => ?_⟩
  · intro a ha hid
    obtain ⟨x, hx, hxid, hcur⟩ := (h.linked.entries e he).account
    have hxid : x.id = e.accountId := hxid
    obtain rfl : x = a := eq_of_key_eq h.keyed.accountIds hx ha (hxid.trans hid.symm)
    exact hcur
  · rw [sum_settled_eq h c, tally_currency_eq_zero h c]

end WalletLedger
