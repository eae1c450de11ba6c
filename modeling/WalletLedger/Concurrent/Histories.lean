import WalletLedger.Api.History
import WalletLedger.Concurrent.Sessions
import WalletLedger.Lib.Archive
import WalletLedger.Sequential.Runs

/-!
# Reading a history while it is written

Sessions of any kind run on, while a client reads the history of an account page by page: each
statement of each request sees another moment.  Rows come between those that are there, as a
deposit is paid or the receiver of a transfer gets its entry, but none goes.

* `Books.Keeps` — what any write keeps of the books; `keeps_of_reaches` — so do any turns of any
  sessions.
* `Books.Keeps.history` — the history grows, and keeps its order.
* `pages_skip_nothing` — the result; `read_between_settlements` is a history that grows in its
  middle.
-/

namespace WalletLedger

variable {b b₁ b' : Books} {accountId : Id} {createdAt : Id → ℕ}

/-! ## What is never taken back -/

/-- The entry, its status apart. -/
def LedgerEntry.Kept (e f : LedgerEntry) : Prop := f = { e with status := f.status }

/-- The transaction, its status and its reference apart. -/
def Transaction.Kept (t u : Transaction) : Prop :=
  u = { t with
    status := u.status
    reference := u.reference }

theorem LedgerEntry.kept_refl (e : LedgerEntry) : e.Kept e := rfl

theorem Transaction.kept_refl (t : Transaction) : t.Kept t := rfl

theorem LedgerEntry.Kept.trans {e f g : LedgerEntry} (h : e.Kept f) (h' : f.Kept g) :
    e.Kept g := by
  rw [LedgerEntry.Kept] at h h' ⊢
  rw [h', h]

theorem Transaction.Kept.trans {t u v : Transaction} (h : t.Kept u) (h' : u.Kept v) :
    t.Kept v := by
  rw [Transaction.Kept] at h h' ⊢
  rw [h', h]

/-- The rows of `b` are still in their place in `b'`, and say the same but for their status. -/
structure Books.Keeps (b b' : Books) : Prop where
  accounts : b.accounts <+: b'.accounts
  transactions : Extends Transaction.Kept b.transactions b'.transactions
  entries : Extends LedgerEntry.Kept b.entries b'.entries

theorem Books.Keeps.refl (b : Books) : b.Keeps b :=
  ⟨List.prefix_rfl, Extends.refl Transaction.kept_refl _, Extends.refl LedgerEntry.kept_refl _⟩

theorem Books.Keeps.trans (h : b.Keeps b₁) (h' : b₁.Keeps b') : b.Keeps b' where
  accounts := h.accounts.trans h'.accounts
  transactions := h.transactions.trans (fun _ _ _ => Transaction.Kept.trans) h'.transactions
  entries := h.entries.trans (fun _ _ _ => LedgerEntry.Kept.trans) h'.entries

/-- No write takes a row back. -/
theorem Write.keeps (w : Write) (b : Books) : b.Keeps (w.applyBooks b) := by
  have hrefl := Books.Keeps.refl b
  cases w with
  | addAccount a => exact { hrefl with accounts := List.prefix_append _ _ }
  | addTransaction t =>
    exact { hrefl with transactions := extends_append Transaction.kept_refl _ _ }
  | addEntry e => exact { hrefl with entries := extends_append LedgerEntry.kept_refl _ _ }
  | setEntryStatus id status =>
    exact { hrefl with entries := extends_modify LedgerEntry.kept_refl fun _ _ _ => rfl }
  | setTransactionStatus id status =>
    exact { hrefl with transactions := extends_modify Transaction.kept_refl fun _ _ _ => rfl }
  | setReference id reference =>
    exact { hrefl with transactions := extends_modify Transaction.kept_refl fun _ _ _ => rfl }
  | _ => exact ⟨hrefl.accounts, hrefl.transactions, hrefl.entries⟩

theorem replayBooks_keeps (ws : List Write) (b : Books) : b.Keeps (replayBooks ws b) := by
  induction ws generalizing b with
  | nil => exact .refl b
  | cons w ws ih => exact (w.keeps b).trans (ih _)

section sessions

variable {ι : Type} [DecidableEq ι] {cfg : Config} {ε α : Type} {C : ι → Request → Shared ι → Prop}

/-- Nor does a turn of a session. -/
theorem Shared.keeps_after (s : Shared ι) (i : ι) (r : Request) :
    s.store.db.books.Keeps (s.after cfg i r).store.db.books := by
  by_cases hr : r = .commit
  · subst hr
    cases hs : (s.sessions i).failed with
    | true =>
      rw [(Shared.after_commit_failed cfg hs).1]
      exact .refl _
    | false =>
      rw [(Shared.after_commit cfg hs).1, Conn.view, replay_books]
      exact replayBooks_keeps _ _
  · rw [Shared.after_db hr]
    exact .refl _

/-- Whatever the sessions run, what has been committed is kept. -/
theorem keeps_of_reaches {w w' : World ι Request Request.Answer ε α (Shared ι)}
    (h : Reaches (machine ι cfg) C w w') :
    w.shared.store.db.books.Keeps w'.shared.store.db.books := by
  refine h.invariant (I := fun s => w.shared.store.db.books.Keeps s.store.db.books) ?_ ?_ (.refl _)
  · intro i r s v t hI _ hx
    obtain ⟨-, -, rfl⟩ := Shared.exec_eq_some hx
    exact hI.trans (Shared.keeps_after s i r)
  · intro i s hI
    exact hI

end sessions

/-! ## A history that grows -/

/-- The instants of a history, newest first. -/
def Newest.times (order : Newest createdAt) (rows : List Transaction) : List ℕ :=
  (order.sort rows).map fun t => createdAt t.id

theorem Newest.mem_times {order : Newest createdAt} {rows : List Transaction} {time : ℕ} :
    time ∈ order.times rows ↔ ∃ t ∈ rows, createdAt t.id = time := by
  simp [times, (order.perm rows).mem_iff]

theorem Newest.times_sorted (order : Newest createdAt) (rows : List Transaction) :
    (order.times rows).Pairwise (· ≥ ·) := List.pairwise_map.2 (order.newest rows)

theorem Books.Clocked.nodup_times (h : b.Clocked createdAt) (order : Newest createdAt) :
    (order.times (b.historyOf accountId)).Nodup := by
  have hperm := order.perm (b.historyOf accountId)
  refine (hperm.nodup_iff.2 Books.nodup_historyOf).map_on fun t ht u hu htime => ?_
  rw [hperm.mem_iff, Books.mem_historyOf] at ht hu
  exact h.eq ht.1 hu.1 htime

/-- A row of the history is still there. -/
theorem Books.Keeps.historyOf (h : b.Keeps b') {t : Transaction} (ht : t ∈ b.historyOf accountId) :
    ∃ u ∈ b'.historyOf accountId, u.id = t.id := by
  obtain ⟨hmem, e, he, hte, hea⟩ := Books.mem_historyOf.1 ht
  obtain ⟨u, hu, hkept⟩ := h.transactions.exists_of_mem hmem
  obtain ⟨f, hf, hekept⟩ := h.entries.exists_of_mem he
  have hid : u.id = t.id := by rw [hkept]
  have hff : f.transactionId = e.transactionId ∧ f.accountId = e.accountId := by
    rw [hekept]
    exact ⟨rfl, rfl⟩
  refine ⟨u, Books.mem_historyOf.2 ⟨hu, f, hf, ?_, ?_⟩, hid⟩
  · rw [hff.1, hte, hid]
  · rw [hff.2, hea]

/-- The history grows, and what is in it keeps its order. -/
theorem Books.Keeps.history (h : b.Keeps b') (hclock : b.Clocked createdAt)
    (order order' : Newest createdAt) :
    (order.times (b.historyOf accountId)).Sublist (order'.times (b'.historyOf accountId)) := by
  have hsubset : order.times (b.historyOf accountId) ⊆ order'.times (b'.historyOf accountId) := by
    intro time htime
    obtain ⟨t, ht, rfl⟩ := Newest.mem_times.1 htime
    obtain ⟨u, hu, hid⟩ := h.historyOf ht
    exact Newest.mem_times.2 ⟨u, hu, by rw [hid]⟩
  exact List.sublist_of_subperm_of_pairwise
    (List.subperm_of_subset (hclock.nodup_times order) hsubset) (order.times_sorted _)
    (order'.times_sorted _)

/-- An account keeps its number. -/
theorem Books.Keeps.numbered (h : b.Keeps b') {number : String} {a : Account}
    (ha : b.numbered number = some a) : b'.numbered number = some a := by
  obtain ⟨added, hadded⟩ := h.accounts
  rw [Books.numbered, ← hadded, List.find?_append, ← Books.numbered, ha]
  rfl

/-! ## Page by page -/

section pages

variable {ι : Type} [DecidableEq ι] {cfg : Config} {ε α : Type} {C : ι → Request → Shared ι → Prop}

/-- The books that a statement sees at some moment of an interleaving. -/
abbrev World.books (w : World ι Request Request.Answer ε α (Shared ι)) : Books :=
  w.shared.store.db.books

/-- What is read of a page that has been given. -/
theorem listTransactions_page {order : Newest createdAt} {paginator : Paginator}
    {accounts rows counted : Books} {number : String} {page : ℕ} {perPage : Option ℤ}
    {given : HistoryPage} {a : Account} (ha : accounts.numbered number = some a) (hpage : 1 ≤ page)
    (h : listTransactions paginator order accounts rows counted number (some page) perPage =
      .ok given) :
    given.items = (pageOf (paginator.perPage (perPage.getD 20)) page
        (order.sort (rows.historyOf a.id))).map serializeTransaction ∧
      given.pages =
        pageCount (paginator.perPage (perPage.getD 20)) (counted.historyOf a.id).length := by
  obtain ⟨x, hx, hsize, hnumber, hitems, htotal, hpages⟩ := listTransactions_ok h
  obtain rfl : a = x := Option.some.inj (ha.symm.trans hx)
  rw [Option.getD_some, paginator.page_eq page hpage] at hnumber
  rw [hitems, hpages, htotal, hsize, hnumber]
  exact ⟨rfl, rfl⟩

/-- **No page is missed.**  Any number of sessions run on, whatever they run, while a client asks
for the pages of a history in turn, to the last one that its response counts; each request finds
the account, the rows and their number at moments of their own.  No transaction that was in the
history when the rows of the first page were read is missing from what the client has been given,
as long as no two transactions were created at one instant. -/
theorem pages_skip_nothing {moments : ℕ → World ι Request Request.Answer ε α (Shared ι)}
    (hruns : ∀ n, Reaches (machine ι cfg) C (moments n) (moments (n + 1)))
    (hclock : ∀ n, (moments n).books.Clocked createdAt) (paginator : Paginator)
    (order : ℕ → Newest createdAt) {number : String} {perPage : Option ℤ}
    {given : ℕ → HistoryPage} {last : ℕ} (hone : 1 ≤ last)
    (hgiven : ∀ n : ℕ, 1 ≤ n → n ≤ last → listTransactions paginator (order n)
      (moments (3 * n)).books (moments (3 * n + 1)).books (moments (3 * n + 2)).books number
      (some n) perPage = .ok (given n))
    (hlast : (given last).pages ≤ last) {a : Account}
    (ha : (moments 3).books.numbered number = some a) :
    ∀ t ∈ (moments 4).books.historyOf a.id, ∃ n, 1 ≤ n ∧ n ≤ last ∧
      ∃ u, u.id = t.id ∧ serializeTransaction u ∈ (given n).items := by
  intro t ht
  have hkeeps : ∀ m n, m ≤ n → (moments m).books.Keeps (moments n).books := by
    intro m n hmn
    induction n, hmn using Nat.le_induction with
    | base => exact .refl _
    | succ n _ ih => exact ih.trans (keeps_of_reaches (hruns n))
  have hfound : ∀ n, 1 ≤ n → (moments (3 * n)).books.numbered number = some a :=
    fun n hn => (hkeeps 3 (3 * n) (by omega)).numbered ha
  have hpos := paginator.perPage_pos (perPage.getD 20)
  -- the instants of the rows, as each request finds them
  let reads : ℕ → List ℕ := fun n =>
    (order n).times ((moments (3 * n + 1)).books.historyOf a.id)
  have hgrow : ∀ n, 1 ≤ n → (reads n).Sublist (reads (n + 1)) := fun n _ =>
    (hkeeps (3 * n + 1) (3 * (n + 1) + 1) (by omega)).history (hclock _) _ _
  have hnodup : ∀ n, (reads n).Nodup := fun n => (hclock _).nodup_times _
  have hfirst : createdAt t.id ∈ reads 1 := Newest.mem_times.2 ⟨t, ht, rfl⟩
  have hends : pageCount (paginator.perPage (perPage.getD 20)) (reads last).length ≤ last := by
    obtain ⟨-, hpages⟩ := listTransactions_page (hfound last hone) hone (hgiven last hone le_rfl)
    -- the rows are counted after they are read
    have hcounted : (reads last).length ≤
        ((order last).times ((moments (3 * last + 2)).books.historyOf a.id)).length :=
      ((hkeeps (3 * last + 1) (3 * last + 2) (by omega)).history (hclock _) _ _).length_le
    rw [hpages, pageCount_le_iff hpos] at hlast
    rw [pageCount_le_iff hpos]
    refine hcounted.trans (le_trans (le_of_eq ?_) hlast)
    rw [Newest.times, List.length_map, ((order last).perm _).length_eq]
  obtain ⟨n, hn, hle, hpage⟩ := exists_page_of_growing hpos hgrow hnodup hfirst hends hone
  obtain ⟨u, hu, htime⟩ : ∃ u ∈ pageOf (paginator.perPage (perPage.getD 20)) n ((order n).sort
      ((moments (3 * n + 1)).books.historyOf a.id)), createdAt u.id = createdAt t.id := by
    rw [← List.mem_map, ← pageOf_map]
    exact hpage
  obtain ⟨hitems, -⟩ := listTransactions_page (hfound n hn) hn (hgiven n hn hle)
  refine ⟨n, hn, hle, u, ?_, ?_⟩
  · -- at that moment, the row is the one that was created then
    obtain ⟨later, hlater, hid⟩ :=
      (hkeeps 4 (3 * n + 1) (by omega)).historyOf ht
    have hrow : u ∈ (moments (3 * n + 1)).books.historyOf a.id :=
      ((order n).perm _).mem_iff.1 (List.mem_of_mem_drop (List.mem_of_mem_take hu))
    have hsame : u = later := (hclock _).eq (Books.mem_historyOf.1 hrow).1
      (Books.mem_historyOf.1 hlater).1 (htime.trans (by rw [hid]))
    rw [hsame, hid]
  · rw [hitems]
    exact List.mem_map_of_mem hu

end pages

/-! ## A deposit is paid between two pages -/

/-- Alice has deposited three times, and the second deposit is not paid yet. -/
def waitingStore : Store :=
  runAll (offlineConfig 100)
    [.createAccount "alice" "EUR", .initiateDeposit 0 10 "stripe" ⟨none, none⟩ (some "c1"),
      .settle "1" none none, .initiateDeposit 0 20 "stripe" ⟨none, none⟩ (some "c2"),
      .initiateDeposit 0 30 "stripe" ⟨none, none⟩ (some "c3"), .settle "6" none none] Store.empty

/-- It has been paid. -/
def paidStore : Store := (Operation.settle "5" none none).run (offlineConfig 100) waitingStore

/-- The books that the requests for the pages see. -/
def seenBooks (page : ℕ) : Books :=
  if page ≤ 1 then waitingStore.db.books else paidStore.db.books

/-- The pages that Alice is given, one row each. -/
def servedPage (page : ℕ) : HistoryPage :=
  ⟨(pageOf 1 page ((Newest.insertion id).sort ((seenBooks page).historyOf 0))).map
    serializeTransaction, page, 1, ((seenBooks page).historyOf 0).length,
    ((seenBooks page).historyOf 0).length⟩

theorem listTransactions_served : ∀ page ∈ [1, 2, 3],
    listTransactions Paginator.plain (Newest.insertion id) (seenBooks page) (seenBooks page)
      (seenBooks page) "2000000000" (some (page : ℤ)) (some 1) = .ok (servedPage page) := by
  decide +kernel

/-- The deposit is paid after the first page, which has counted two: the second page holds it, and
the third the oldest one. -/
theorem read_between_settlements :
    (servedPage 1).total = 2 ∧
      ∀ t ∈ waitingStore.db.books.historyOf 0, ∃ n, 1 ≤ n ∧ n ≤ 3 ∧
        ∃ u, u.id = t.id ∧ serializeTransaction u ∈ (servedPage n).items := by
  obtain ⟨w, hw, hbooks⟩ : ∃ w, Reaches (machine (Fin 1) (offlineConfig 100)) anyTurn
      (World.start (Shared.start waitingStore)
        fun _ => (Operation.settle "5" none none).program (offlineConfig 100)) w ∧
      w.books = paidStore.db.books :=
    exists_reaches (List.replicate 17 0) (by decide +kernel)
  generalize hstart : World.start (Shared.start waitingStore)
    (fun _ : Fin 1 => (Operation.settle "5" none none).program (offlineConfig 100)) = w₀ at hw
  have hbooks₀ : w₀.books = waitingStore.db.books := hstart ▸ rfl
  let moments := fun n => if n ≤ 5 then w₀ else w
  have hruns : ∀ n, Reaches (machine (Fin 1) (offlineConfig 100)) anyTurn (moments n)
      (moments (n + 1)) := by
    intro n
    by_cases hn : n ≤ 4
    · simp only [moments, if_pos (by omega : n ≤ 5), if_pos (by omega : n + 1 ≤ 5)]
      exact .start
    · by_cases hn' : n ≤ 5
      · simp only [moments, if_pos hn', if_neg (by omega : ¬ n + 1 ≤ 5)]
        exact hw
      · simp only [moments, if_neg hn', if_neg (by omega : ¬ n + 1 ≤ 5)]
        exact .start
  have hclock : ∀ n, (moments n).books.Clocked id := by
    intro n
    by_cases hn : n ≤ 5
    · simp only [moments, if_pos hn, hbooks₀]
      decide +kernel
    · simp only [moments, if_neg hn, hbooks]
      decide +kernel
  have hseen : ∀ page m, 1 ≤ page → 3 * page ≤ m → m ≤ 3 * page + 2 →
      (moments m).books = seenBooks page := by
    intro page m h₁ hfrom hto
    by_cases hpage : page ≤ 1
    · simp only [moments, seenBooks, if_pos hpage, if_pos (by omega : m ≤ 5), hbooks₀]
    · simp only [moments, seenBooks, if_neg hpage, if_neg (by omega : ¬ m ≤ 5), hbooks]
  have hgiven : ∀ n : ℕ, 1 ≤ n → n ≤ 3 → listTransactions Paginator.plain (Newest.insertion id)
      (moments (3 * n)).books (moments (3 * n + 1)).books (moments (3 * n + 2)).books "2000000000"
      (some n) (some 1) = .ok (servedPage n) := by
    intro n h₁ h₃
    rw [hseen n (3 * n) h₁ (by omega) (by omega), hseen n (3 * n + 1) h₁ (by omega) (by omega),
      hseen n (3 * n + 2) h₁ (by omega) (by omega)]
    exact listTransactions_served n (by simp; omega)
  obtain ⟨a, ha, hid⟩ : ∃ a, (moments 3).books.numbered "2000000000" = some a ∧ a.id = 0 := by
    rw [hseen 1 3 le_rfl (by omega) (by omega)]
    exact ⟨⟨0, "2000000000", "alice", "EUR"⟩, by decide +kernel, rfl⟩
  have hpages := pages_skip_nothing hruns hclock Paginator.plain (fun _ => Newest.insertion id)
    (by omega) hgiven (by decide +kernel) ha
  rw [hid, hseen 1 4 le_rfl (by omega) (by omega)] at hpages
  exact ⟨by decide +kernel, hpages⟩

end WalletLedger
