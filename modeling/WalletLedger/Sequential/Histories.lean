import WalletLedger.Api.History
import WalletLedger.Sequential.Holdings

/-!
# The history of a customer

* `Transaction.Concerns` — the accounts whose history shows a transaction, by its row: the
  receiver of a transfer sees it once it has been carried out, and who deposits once it is paid.
* `Books.Vouched.concerns` — they are the accounts with an entry of it.
* `history_of_crashes` — the result: the pages of a history.
-/

namespace WalletLedger

variable {cfg : Config} {web : Web} {pay : Payments} {b : Books} {s : Sequences}
  {createdAt : Id → ℕ}

/-- The history of the account shows the transaction, by its row; a fund does not name the
account, and a reversal shows where the transaction it takes back does. -/
def Transaction.Concerns (b : Books) (t : Transaction) (accountId : Id) : Prop :=
  match t.details with
  | .transfer senderId receiverId => senderId = accountId ∨ receiverId = accountId ∧ t.Done
  | .deposit _ creditedId _ => creditedId = accountId ∧ t.Done
  | .fxTransfer senderId receiverId _ _ => senderId = accountId ∨ receiverId = accountId
  | .reversal originalId => ∃ line ∈ b.linesOf originalId, line.accountId = accountId
  | .empty => ∃ line ∈ b.linesOf t.id, line.accountId = accountId

theorem Transaction.not_done {t : Transaction} (h : t.status = .pending ∨ t.status = .failed) :
    ¬ t.Done := by
  intro hdone
  rcases h with h | h <;> simp [Done, h] at hdone

/-- The accounts of the lines are those that the row names. -/
theorem Vouches.concerns {t : Transaction} {lines : List PostingLine} (h : Vouches b t lines)
    (hlines : b.linesOf t.id = lines) (hk : b.Keyed s) {a : Account} (ha : a ∈ b.accounts)
    (hcustomer : a.IsCustomer) : (∃ line ∈ lines, line.accountId = a.id) ↔ t.Concerns b a.id := by
  have hinternal : ∀ x ∈ b.accounts, x.ownerId = clearingOwner ∨ x.ownerId = fxPoolOwner →
      x.id ≠ a.id := fun x hx howner => hcustomer.id_ne hk ha hx howner
  unfold Transaction.Concerns
  cases h with
  | transfer senderId receiverId type details positive done => simp [details, done]
  | reserved senderId receiverId type details positive status =>
    simp [details, Transaction.not_done (.inl status)]
  | released senderId receiverId type details positive status =>
    simp [details, Transaction.not_done (.inr status)]
  | promised provider accountId context type details positive status =>
    simp [details, Transaction.not_done status]
  | deposit provider accountId context clearing type details positive done mem owner =>
    simp [details, done, hinternal clearing mem (.inl owner)]
  | fund account clearing type details done account_mem mem owner =>
    rw [details, hlines]
  | exchange senderId receiverId received poolFrom poolTo type details positive done from_mem
      from_owner to_mem to_owner =>
    simp [details, hinternal poolFrom from_mem (.inr from_owner),
      hinternal poolTo to_mem (.inr to_owner)]
  | reversal original type details status mem reversed =>
    rw [details]
    simp only [List.mem_map, exists_exists_and_eq_and]
    rfl

/-- A transaction has an entry on the account of a customer just where its row says so. -/
theorem Books.Vouched.concerns (h : b.Vouched) (hk : b.Keyed s) {a : Account}
    (ha : a ∈ b.accounts) (hcustomer : a.IsCustomer) {t : Transaction} (ht : t ∈ b.transactions) :
    (∃ e ∈ b.entries, e.transactionId = t.id ∧ e.accountId = a.id) ↔ t.Concerns b a.id := by
  rw [← (h t ht).concerns rfl hk ha hcustomer]
  simp only [linesOf, entriesOf, List.mem_map, List.mem_filter, decide_eq_true_eq,
    exists_exists_and_eq_and]
  constructor
  · rintro ⟨e, he, hte, hea⟩
    exact ⟨e, ⟨he, hte⟩, hea⟩
  · rintro ⟨e, ⟨he, hte⟩, hea⟩
    exact ⟨e, he, hte, hea⟩

/-- **The pages of a history.**  Wherever processes have been killed, the pages of the history of
a customer's account, of whatever size is asked for, are those of one list, newest first, that
holds each transaction that concerns the account once, and no other; the response counts them.
Every page is sorted anew: either no two transactions are of one instant, or those that are come
alike each time. -/
theorem history_of_crashes {st : Store} (h : Run (crash cfg web pay) Entry.Exact Store.empty st)
    {number : String} {a : Account} (hfound : st.db.books.numbered number = some a)
    (hcustomer : a.IsCustomer) (paginator : Paginator) (order : ℕ → Newest createdAt)
    (hties : st.db.books.Clocked createdAt ∨ ∀ page,
      (order page).sort (st.db.books.historyOf a.id) = (order 1).sort (st.db.books.historyOf a.id))
    (perPage : Option ℤ) {size : ℕ} (hsize : paginator.perPage (perPage.getD 20) = size) :
    ∃ rows : List Transaction, rows.Nodup ∧
      (∀ t, t ∈ rows ↔ t ∈ st.db.books.transactions ∧ t.Concerns st.db.books a.id) ∧
      (rows.Pairwise fun t u => createdAt u.id ≤ createdAt t.id) ∧
      (∀ page : ℕ, 1 ≤ page → size < 2 ^ 63 → (page - 1) * size < 2 ^ 63 →
        listTransactions paginator (order page) st.db.books st.db.books st.db.books number
          (some page) perPage = .ok ⟨(pageOf size page rows).map serializeTransaction, page, size,
            rows.length, pageCount size rows.length⟩) ∧
      (List.range (pageCount size rows.length)).flatMap
        (fun i => pageOf size (i + 1) rows) = rows := by
  obtain ⟨hrecorded, hs⟩ := recorded_of_crashes h
  have hmem : a ∈ st.db.books.accounts := List.mem_of_find?_eq_some hfound
  have hsort : ∀ page, (order page).sort (st.db.books.historyOf a.id) =
      (order 1).sort (st.db.books.historyOf a.id) := fun page =>
    hties.elim (fun hclock => hclock.sort_eq (order page) (order 1)) fun halike => halike page
  have hperm := (order 1).perm (st.db.books.historyOf a.id)
  have hpos : 0 < size := hsize ▸ paginator.perPage_pos (perPage.getD 20)
  refine ⟨(order 1).sort (st.db.books.historyOf a.id), hperm.nodup_iff.2 Books.nodup_historyOf,
    ?_, (order 1).newest _, ?_, pages_flatten hpos _⟩
  · intro t
    rw [hperm.mem_iff, Books.mem_historyOf]
    constructor
    · rintro ⟨ht, hentry⟩
      exact ⟨ht, (hrecorded.vouched.concerns hs.keyed hmem hcustomer ht).1 hentry⟩
    · rintro ⟨ht, hconcerns⟩
      exact ⟨ht, (hrecorded.vouched.concerns hs.keyed hmem hcustomer ht).2 hconcerns⟩
  · intro page hpage hlimit hoffset
    have hfits : ¬ (2 ^ 63 ≤ size ∨ 2 ^ 63 ≤ (page - 1) * size) := by
      omega
    unfold listTransactions
    rw [hfound]
    simp only [Option.getD_some, paginator.page_eq page hpage, hsize, if_neg hfits,
      hperm.length_eq, hsort page]

/-- The history of Alice, one row to a page. -/
theorem history_of_transfer : ∃ rows : List Transaction,
    listTransactions Paginator.plain (Newest.insertion id) transferredStore.db.books
        transferredStore.db.books transferredStore.db.books "2000000000" (some 2) (some 1) =
      .ok ⟨(pageOf 1 2 rows).map serializeTransaction, 2, 1, rows.length,
        pageCount 1 rows.length⟩ := by
  have hrow : ∃ a, transferredStore.db.books.numbered "2000000000" = some a ∧ a.IsCustomer := by
    refine ⟨(transferredStore.db.books.numbered "2000000000").get (by decide +kernel), ?_, ?_⟩
    · exact (Option.some_get _).symm
    · decide +kernel
  obtain ⟨a, hfound, hcustomer⟩ := hrow
  have hsize : Paginator.plain.perPage ((some 1).getD 20) = 1 := rfl
  have hclock : transferredStore.db.books.Clocked id := by decide +kernel
  obtain ⟨rows, -, -, -, hpages, -⟩ := history_of_crashes run_transferredStore hfound hcustomer
    Paginator.plain (fun _ => Newest.insertion id) (.inl hclock) (some 1) hsize
  exact ⟨rows, hpages 2 (by omega) (by omega) (by omega)⟩

end WalletLedger
