import Mathlib.Data.List.Nodup
import Mathlib.Data.List.Infix
import Mathlib.Order.Basic

/-!
# Pages of a list

A list that is read page by page: `LIMIT perPage OFFSET (page - 1) * perPage`, with the pages
counted from one.

* `pages_flatten` — the pages, one after the other, are the list.
* `mem_pageOf_of_position` — an element is on the page that its position says.
* `idxOf_le_of_sublist` — a row of a table that grows only moves towards the end.
* `exists_page_of_growing` — whoever reads the pages of such a table in turn, to the last one,
  skips none of the rows that were there at the start.
-/

namespace WalletLedger

variable {α κ : Type}

/-- `LIMIT perPage OFFSET (page - 1) * perPage`. -/
def pageOf (perPage page : ℕ) (rows : List α) : List α :=
  (rows.drop ((page - 1) * perPage)).take perPage

/-- `ceil(total / perPage)`. -/
def pageCount (perPage total : ℕ) : ℕ := (total + perPage - 1) / perPage

theorem pageOf_map {β : Type} (f : α → β) (perPage page : ℕ) (rows : List α) :
    pageOf perPage page (rows.map f) = (pageOf perPage page rows).map f := by
  simp [pageOf]

/-! ## The pages of one list -/

section one

variable {perPage : ℕ}

/-- The count says how many pages it takes to hold the rows. -/
theorem pageCount_le_iff (hpos : 0 < perPage) {total n : ℕ} :
    pageCount perPage total ≤ n ↔ total ≤ n * perPage := by
  unfold pageCount
  rw [← Nat.lt_succ_iff, Nat.div_lt_iff_lt_mul hpos, Nat.succ_mul]
  omega

/-- The first `n` pages are the beginning of the list. -/
theorem pages_take (perPage n : ℕ) (rows : List α) :
    (List.range n).flatMap (fun i => pageOf perPage (i + 1) rows) = rows.take (n * perPage) := by
  induction n with
  | zero => simp
  | succ n ih =>
    rw [List.range_succ, List.flatMap_append, ih, Nat.succ_mul, List.take_add]
    simp [pageOf]

/-- The pages, one after the other, are the list. -/
theorem pages_flatten (hpos : 0 < perPage) (rows : List α) :
    (List.range (pageCount perPage rows.length)).flatMap
      (fun i => pageOf perPage (i + 1) rows) = rows := by
  rw [pages_take]
  exact List.take_of_length_le ((pageCount_le_iff hpos).1 le_rfl)

/-- An element is on the page that its position says. -/
theorem mem_pageOf_of_position {page i : ℕ} {rows : List α} (hi : i < rows.length)
    (hfrom : (page - 1) * perPage ≤ i) (hto : i < (page - 1) * perPage + perPage) :
    rows[i] ∈ pageOf perPage page rows := by
  have hdrop : i - (page - 1) * perPage < (rows.drop ((page - 1) * perPage)).length := by
    rw [List.length_drop]
    omega
  have hget : (rows.drop ((page - 1) * perPage))[i - (page - 1) * perPage] = rows[i] := by
    rw [List.getElem_drop]
    congr 1
    omega
  rw [← hget, pageOf, List.mem_take_iff_getElem]
  exact ⟨i - (page - 1) * perPage, by omega, rfl⟩

end one

/-! ## A table that grows while it is read -/

section growing

variable [DecidableEq κ] {rows rows' : List κ}

/-- What is found at some position in a list is found no earlier in one that it is part of. -/
theorem idxOf_le_of_sublist (h : rows.Sublist rows') (hn : rows'.Nodup) {k : κ} (hk : k ∈ rows) :
    rows.idxOf k ≤ rows'.idxOf k := by
  induction h with
  | slnil => simp at hk
  | @cons l l' x h ih =>
    have hne : x ≠ k := by
      rintro rfl
      exact (List.nodup_cons.1 hn).1 (h.subset hk)
    rw [List.idxOf_cons_ne _ hne]
    exact (ih hn.of_cons hk).trans (Nat.le_succ _)
  | @cons_cons l l' x h ih =>
    by_cases hx : x = k
    · simp [hx]
    · rw [List.idxOf_cons_ne _ hx, List.idxOf_cons_ne _ hx]
      exact Nat.succ_le_succ (ih hn.of_cons (List.mem_of_ne_of_mem (Ne.symm hx) hk))

variable {reads : ℕ → List κ} {k : κ} {perPage : ℕ}

/-- Who reads a page finds the row there, or has still to read on. -/
theorem mem_pageOf_or_beyond {n : ℕ} (h₁ : 1 ≤ n) (hk : k ∈ rows)
    (hfrom : (n - 1) * perPage ≤ rows.idxOf k) :
    k ∈ pageOf perPage n rows ∨ n * perPage ≤ rows.idxOf k := by
  have hend : (n - 1) * perPage + perPage = n * perPage := by
    rw [← Nat.succ_mul, Nat.succ_eq_add_one, Nat.sub_add_cancel h₁]
  rcases Nat.lt_or_ge (rows.idxOf k) (n * perPage) with hto | hto
  · left
    have hlt := List.idxOf_lt_length_iff.2 hk
    have hpage := mem_pageOf_of_position hlt hfrom (by omega)
    rwa [List.getElem_idxOf] at hpage
  · exact .inr hto

/-- **Nothing is skipped.**  The rows are read page by page, each page from what the table has
become: whatever has come between the rows since, who reads to a page that is the last one has
read every row that was there for the first. -/
theorem exists_page_of_growing (hpos : 0 < perPage)
    (hgrow : ∀ n, 1 ≤ n → (reads n).Sublist (reads (n + 1))) (hn : ∀ n, (reads n).Nodup)
    (hk : k ∈ reads 1) {last : ℕ} (hlast : pageCount perPage (reads last).length ≤ last)
    (hone : 1 ≤ last) :
    ∃ n, 1 ≤ n ∧ n ≤ last ∧ k ∈ pageOf perPage n (reads n) := by
  have hmem : ∀ n, 1 ≤ n → k ∈ reads n := by
    intro n hle
    induction n, hle using Nat.le_induction with
    | base => exact hk
    | succ n hle ih => exact (hgrow n hle).subset ih
  -- after each page, the row has been read or lies behind it
  have hread : ∀ n, 1 ≤ n → (∃ m, 1 ≤ m ∧ m ≤ n ∧ k ∈ pageOf perPage m (reads m)) ∨
      n * perPage ≤ (reads n).idxOf k := by
    intro n hle
    induction n, hle using Nat.le_induction with
    | base =>
      rcases mem_pageOf_or_beyond le_rfl hk (by simp) with hpage | hbeyond
      · exact .inl ⟨1, le_rfl, le_rfl, hpage⟩
      · exact .inr hbeyond
    | succ n hle ih =>
      rcases ih with ⟨m, h₁, hm, hpage⟩ | hbeyond
      · exact .inl ⟨m, h₁, by omega, hpage⟩
      · have hmoved := idxOf_le_of_sublist (hgrow n hle) (hn _) (hmem n hle)
        rcases mem_pageOf_or_beyond (n := n + 1) (by omega) (hmem (n + 1) (by omega))
          (hbeyond.trans hmoved) with hpage | hbeyond'
        · exact .inl ⟨n + 1, by omega, le_rfl, hpage⟩
        · exact .inr hbeyond'
  rcases hread last hone with hpage | hbeyond
  · exact hpage
  · have hlt := List.idxOf_lt_length_iff.2 (hmem last hone)
    have hle := (pageCount_le_iff hpos).1 hlast
    omega

end growing

end WalletLedger
