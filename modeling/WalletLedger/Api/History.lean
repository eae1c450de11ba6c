import Mathlib.Data.List.Dedup
import Mathlib.Data.List.Sort
import WalletLedger.Api.Application
import WalletLedger.Lib.Paging

/-!
# The history of an account

`list_transactions` of `api/accounts.py`: the transactions with an entry on an account, newest
first, page by page.  The request asks three statements of the database, and each may see another
moment of it.  When a transaction was created is asked of a clock, as no table here records it.

* `Books.historyOf` — the rows of the query, `Newest` — their order, which leaves rows of one
  instant in any.
* `Paginator` — what `paginate` makes of its arguments.
* `Books.Clocked` — no two transactions are of one instant: there is one order then, `sort_eq`.
* `listTransactions` — the endpoint.
-/

namespace WalletLedger

/-- `select(Transaction).join(LedgerEntry, ...).where(...)`: a row for every entry. -/
def Books.joined (b : Books) (accountId : Id) : List Transaction :=
  b.transactions.flatMap fun t =>
    (b.entries.filter fun e => e.transactionId = t.id ∧ e.accountId = accountId).map fun _ => t

/-- The rows of the query, `.distinct()`. -/
def Books.historyOf (b : Books) (accountId : Id) : List Transaction := (b.joined accountId).dedup

/-- `.order_by(Transaction.created_at.desc())`. -/
structure Newest (createdAt : Id → ℕ) where
  sort : List Transaction → List Transaction
  perm : ∀ rows, (sort rows).Perm rows
  newest : ∀ rows, (sort rows).Pairwise fun t u => createdAt u.id ≤ createdAt t.id

/-- One of these orders: rows of one instant as they come. -/
def Newest.insertion (createdAt : Id → ℕ) : Newest createdAt where
  sort := List.insertionSort fun t u => createdAt u.id ≤ createdAt t.id
  perm := List.perm_insertionSort _
  newest := by
    intro rows
    have : Std.Total fun t u : Transaction => createdAt u.id ≤ createdAt t.id :=
      ⟨fun t u => Nat.le_total _ _⟩
    have : IsTrans Transaction fun t u => createdAt u.id ≤ createdAt t.id :=
      ⟨fun t u v h h' => Nat.le_trans h' h⟩
    exact List.pairwise_insertionSort _ rows

/-- What `paginate` makes of its arguments with `error_out=False`: a page and a size that can be
asked for are asked for. -/
structure Paginator where
  page : ℤ → ℕ
  perPage : ℤ → ℕ
  page_pos : ∀ n, 1 ≤ page n
  perPage_pos : ∀ n, 1 ≤ perPage n
  page_eq : ∀ n : ℕ, 1 ≤ n → page n = n

/-- The first page and twenty rows stand for what cannot be asked for. -/
def Paginator.plain : Paginator where
  page n := if 1 ≤ n then n.toNat else 1
  perPage n := if 1 ≤ n then n.toNat else 20
  page_pos n := by split <;> omega
  perPage_pos n := by split <;> omega
  page_eq n h := by rw [if_pos (by omega)]; omega

/-- The response. -/
structure HistoryPage where
  items : List Json
  page : ℕ
  perPage : ℕ
  total : ℕ
  pages : ℕ
  deriving DecidableEq

/-- `GET /accounts/<number>/transactions`; an argument that is no integer is `none`.  The three
statements find the account in `accounts`, the rows in `rows` and their number in `counted`. -/
def listTransactions {createdAt : Id → ℕ} (paginator : Paginator) (order : Newest createdAt)
    (accounts rows counted : Books) (number : String) (page perPage : Option ℤ) :
    Except Exn HistoryPage :=
  match accounts.numbered number with
  | none => .error (.domain (.accountNotFound number))
  | some account =>
      let page := paginator.page (page.getD 1)
      let perPage := paginator.perPage (perPage.getD 20)
      -- the limit and the offset are of type `bigint`
      if 2 ^ 63 ≤ perPage ∨ 2 ^ 63 ≤ (page - 1) * perPage then .error (.service .data)
      else
        let total := (counted.historyOf account.id).length
        .ok
          { items :=
              (pageOf perPage page (order.sort (rows.historyOf account.id))).map
                serializeTransaction
            page := page
            perPage := perPage
            total := total
            pages := pageCount perPage total }

variable {b : Books} {accountId : Id}

theorem Books.mem_historyOf {t : Transaction} :
    t ∈ b.historyOf accountId ↔
      t ∈ b.transactions ∧ ∃ e ∈ b.entries, e.transactionId = t.id ∧ e.accountId = accountId := by
  simp only [historyOf, List.mem_dedup, joined, List.mem_flatMap, List.mem_map, List.mem_filter,
    decide_eq_true_eq]
  constructor
  · rintro ⟨u, hu, e, ⟨he, hte, hea⟩, rfl⟩
    exact ⟨hu, e, he, hte, hea⟩
  · rintro ⟨ht, e, he, hte, hea⟩
    exact ⟨t, ht, e, ⟨he, hte, hea⟩, rfl⟩

theorem Books.nodup_historyOf : (b.historyOf accountId).Nodup := List.nodup_dedup _

/-- No two transactions have been created at the same instant. -/
def Books.Clocked (createdAt : Id → ℕ) (b : Books) : Prop :=
  (b.transactions.map fun t => createdAt t.id).Nodup

instance (createdAt : Id → ℕ) (b : Books) : Decidable (b.Clocked createdAt) :=
  inferInstanceAs (Decidable (List.Nodup _))

theorem Books.Clocked.eq {createdAt : Id → ℕ} (h : b.Clocked createdAt) {t u : Transaction}
    (ht : t ∈ b.transactions) (hu : u ∈ b.transactions) (htime : createdAt t.id = createdAt u.id) :
    t = u :=
  List.inj_on_of_nodup_map h ht hu htime

/-- All the orders are one then. -/
theorem Books.Clocked.sort_eq {createdAt : Id → ℕ} (h : b.Clocked createdAt)
    (order order' : Newest createdAt) :
    order.sort (b.historyOf accountId) = order'.sort (b.historyOf accountId) := by
  have hperm := order.perm (b.historyOf accountId)
  have hperm' := order'.perm (b.historyOf accountId)
  refine (hperm.trans hperm'.symm).eq_of_pairwise (fun t u ht hu hle hle' => ?_) (order.newest _)
    (order'.newest _)
  rw [hperm.mem_iff, mem_historyOf] at ht
  rw [hperm'.mem_iff, mem_historyOf] at hu
  exact h.eq ht.1 hu.1 (le_antisymm hle' hle)

/-- A page of the history of an account, where its size and its offset fit. -/
theorem listTransactions_ok {createdAt : Id → ℕ} {paginator : Paginator} {order : Newest createdAt}
    {accounts rows counted : Books} {number : String} {page perPage : Option ℤ} {r : HistoryPage}
    (h : listTransactions paginator order accounts rows counted number page perPage = .ok r) :
    ∃ account, accounts.numbered number = some account ∧
      r.perPage = paginator.perPage (perPage.getD 20) ∧
      r.page = paginator.page (page.getD 1) ∧
      r.items = (pageOf r.perPage r.page (order.sort (rows.historyOf account.id))).map
        serializeTransaction ∧
      r.total = (counted.historyOf account.id).length ∧
      r.pages = pageCount r.perPage r.total := by
  unfold listTransactions at h
  split at h
  · cases h
  · rename_i account hfound
    simp only at h
    split at h
    · cases h
    · cases h
      exact ⟨account, hfound, rfl, rfl, rfl, rfl, rfl⟩

end WalletLedger
