import WalletLedger.Sequential.Snapshots

/-!
# What a balance reads

A balance is read through the latest snapshot, whether or not that snapshot is exact.
What it reads changes with the settled entries that are added, and with nothing else:
cutting a snapshot leaves every reading as it is.

* `Books.read` — the amount read, before it is put into the account's currency.
* `Books.Scaled` — stored balances have the scale of their column.
* `Cuts.read` — snapshots do not change what is read.
* `Books.read_addEntries`, `Books.read_setEntry` — what entries change; `Cuts.read_posted`:
  what an operation changes that posts entries and cuts snapshots.
-/

namespace WalletLedger

variable {cfg : Config} {b b' : Books} {s s' : Sequences}

namespace Books

/-- What a balance reads: the latest snapshot, and the settled entries beyond it. -/
def read (b : Books) (accountId : Id) : Decimal :=
  LedgerService.snapshotBase (b.latestSnapshot accountId) +
    b.sumEntries accountId (LedgerService.snapshotCursor (b.latestSnapshot accountId)) [.success]
      none

/-- How many settled entries it adds to the snapshot. -/
def unread (b : Books) (accountId : Id) : ℕ :=
  Checkpoint.delta (fun e : LedgerEntry => e.accountId = accountId ∧ e.status = .success)
    LedgerEntry.seq (fun _ => 1) (LedgerService.snapshotCursor (b.latestSnapshot accountId))
    b.entries

theorem balance_eq_read (b : Books) (account : Account) :
    b.balance account = Money.make (b.read account.id) account.currency := rfl

/-- The balances of the snapshots have the scale of their column. -/
def Scaled (b : Books) : Prop := ∀ x ∈ b.snapshots, x.balance ∈ Decimal.grid 8

theorem Scaled.congr (h : b.Scaled) (hs : b'.snapshots = b.snapshots) : b'.Scaled := by
  unfold Scaled
  rw [hs]
  exact h

/-- Every statement keeps the scale. -/
theorem Scaled.exec {m : Mutation} {db : Database} {v : m.Result} {w : Write}
    (h : db.books.Scaled) (hm : m.exec cfg s db = .ok (v, w)) : (w.applyBooks db.books).Scaled := by
  intro x hx
  rcases Mutation.exec_snapshot hm hx with hx | hgrid
  · exact h x hx
  · exact hgrid

/-- So does every program on a fresh session. -/
theorem Scaled.run {α : Type} {st : Store} (h : st.db.books.Scaled) (p : App α) :
    (runOn cfg p ⟨st, Session.fresh⟩).2.store.db.books.Scaled :=
  Conn.run_invariant (I := Scaled) (fun _ _ _ _ _ hs hm => hs.exec hm) p
    (c := ⟨st, Session.fresh⟩) h h

/-- Every state of a run keeps it. -/
theorem scaled_of_run {C : Operation → Store → Prop} {st : Store}
    (h : Run (Operation.run cfg) C Store.empty st) : st.db.books.Scaled := by
  refine h.invariant (I := fun s => s.db.books.Scaled)
    (by simp [Books.Scaled, Store.empty, Database.empty]) fun op s h _ => ?_
  exact h.run (op.program cfg)

theorem read_congr (hs : b'.snapshots = b.snapshots) (he : b'.entries = b.entries) (a : Id) :
    b'.read a = b.read a := by
  unfold read latestSnapshot sumEntries
  rw [hs, he]

/-- Entries numbered after all the others lie beyond every cursor. -/
theorem CursorsDrawn.cursor_lt (hc : b.CursorsDrawn) {es : List LedgerEntry}
    (hseqs : ((b.entries ++ es).map LedgerEntry.seq).Pairwise (· < ·))
    (hpos : ∀ e ∈ es, 0 < e.seq) (a : Id) :
    ∀ e ∈ es, LedgerService.snapshotCursor (b.latestSnapshot a) < e.seq := by
  intro e he
  cases hl : b.latestSnapshot a with
  | none => exact hpos e he
  | some x =>
    obtain ⟨f, hf, -, hfx⟩ := hc x (latestSnapshot_mem hl).1
    rw [List.map_append, List.pairwise_append] at hseqs
    have hlt := hseqs.2.2 _ (List.mem_map_of_mem hf) _ (List.mem_map_of_mem he)
    rwa [hfx] at hlt

/-- They are the rows `maybe_snapshot` counts. -/
theorem length_settledAfter (b : Books) (a : Id) :
    (b.settledAfter a (LedgerService.snapshotCursor (b.latestSnapshot a))).length = b.unread a := by
  rw [settledAfter, List.length_insertionSort, unread, Checkpoint.delta, tally, List.map_const',
    List.sum_replicate, smul_eq_mul, mul_one]
  simp only [and_assoc]
  rfl

theorem unread_addEntries (hc : b.CursorsDrawn) {es : List LedgerEntry}
    (hseqs : ((b.entries ++ es).map LedgerEntry.seq).Pairwise (· < ·))
    (hpos : ∀ e ∈ es, 0 < e.seq) (a : Id) :
    (b.addEntries es).unread a = b.unread a +
      tally (fun e => e.accountId = a ∧ e.status = .success) (fun _ => 1) es :=
  Checkpoint.delta_append fun e he _ => hc.cursor_lt hseqs hpos a e he

/-- New entries add their settled amounts. -/
theorem read_addEntries (hc : b.CursorsDrawn) {es : List LedgerEntry}
    (hseqs : ((b.entries ++ es).map LedgerEntry.seq).Pairwise (· < ·))
    (hpos : ∀ e ∈ es, 0 < e.seq) (a : Id) :
    (b.addEntries es).read a = b.read a +
      tally (fun e => e.accountId = a ∧ e.status = .success) LedgerEntry.amount es := by
  have hlatest : (b.addEntries es).latestSnapshot a = b.latestSnapshot a := rfl
  rw [read, read, hlatest, sumEntries_settled, sumEntries_settled, add_assoc]
  congr 1
  exact Checkpoint.delta_append fun e he _ => hc.cursor_lt hseqs hpos a e he

/-- The status of an entry that counts neither before nor after, on this account. -/
theorem read_setEntry {id : Id} {status : EntryStatus} {a : Id}
    (h : ∀ e ∈ b.entries, e.id = id → e.accountId = a → e.status ≠ .success ∧ status ≠ .success) :
    (b.setEntry id status).read a = b.read a := by
  have hlatest : (b.setEntry id status).latestSnapshot a = b.latestSnapshot a := rfl
  rw [read, read, hlatest]
  congr 1
  refine tally_modify_of_not fun e he hid => ⟨?_, fun _ => rfl⟩
  by_cases ha : e.accountId = a
  · obtain ⟨h₁, h₂⟩ := h e he hid ha
    simp [h₁, h₂]
  · simp [ha]

end Books

/-! ## Snapshots do not change what is read -/

theorem Cut.scaled {a : Id} (hcut : Cut cfg a b b') (h : b.Scaled) : b'.Scaled := by
  cases hcut with
  | skip _ => exact h
  | cut x last haccount hlast hseq hstored =>
    intro y hy
    rcases List.mem_append.1 hy with hy | hy
    · exact h y hy
    · rw [List.mem_singleton.1 hy]
      exact Decimal.storeNumeric_mem_grid hstored

theorem Cut.keyed {a : Id} (hcut : Cut cfg a b b') (hk : b.Keyed s) : b'.Keyed s := by
  cases hcut with
  | skip _ => exact hk
  | cut _ _ _ _ _ _ => exact { hk with }

theorem Books.read_mem_grid (h : b.Scaled) (hk : b.Keyed s) (a : Id) :
    b.read a ∈ Decimal.grid 8 := by
  refine (Decimal.grid 8).add_mem ?_ (sum_mem_grid hk.entryAmounts _)
  cases hl : b.latestSnapshot a with
  | none => exact (Decimal.grid 8).zero_mem
  | some x => exact h x (latestSnapshot_mem hl).1

/-- A snapshot with a higher cursor than the latest one is the latest one. -/
theorem Books.latestSnapshot_concat {x : BalanceSnapshot} {a : Id} (ha : x.accountId = a)
    (hlt : LedgerService.snapshotCursor (b.latestSnapshot a) < x.lastEntrySeq) :
    Books.latestSnapshot { b with snapshots := b.snapshots ++ [x] } a = some x := by
  have hfilter : (b.snapshots ++ [x]).filter (fun y => decide (y.accountId = a)) =
      (b.snapshots.filter fun y => decide (y.accountId = a)) ++ [x] := by
    rw [List.filter_append]
    simp [ha]
  unfold latestSnapshot at hlt ⊢
  rw [hfilter, List.argmax_concat]
  cases hold : (b.snapshots.filter fun y => decide (y.accountId = a)).argmax
      BalanceSnapshot.lastEntrySeq with
  | none => rfl
  | some y =>
    rw [hold] at hlt
    have hlt : y.lastEntrySeq < x.lastEntrySeq := hlt
    show (if y.lastEntrySeq < x.lastEntrySeq then some x else some y) = some x
    rw [if_pos hlt]

theorem Books.latestSnapshot_concat_of_ne {x : BalanceSnapshot} {a : Id} (ha : x.accountId ≠ a) :
    Books.latestSnapshot { b with snapshots := b.snapshots ++ [x] } a = b.latestSnapshot a := by
  unfold latestSnapshot
  rw [List.filter_append]
  simp [ha]

/-- No settled entry lies beyond the snapshot just cut. -/
theorem le_cut {a : Id} {last : LedgerEntry} (hlast : (b.settledAfter a
      (LedgerService.snapshotCursor (b.latestSnapshot a))).getLast? = some last) :
    ∀ e ∈ b.entries, e.accountId = a ∧ e.status = .success → e.seq ≤ last.seq := by
  intro e he hs
  by_cases hlt : LedgerService.snapshotCursor (b.latestSnapshot a) < e.seq
  · exact le_getLast_settledAfter hlast e (mem_settledAfter.2 ⟨he, hs, hlt⟩)
  · have hmem := mem_settledAfter.1 (List.mem_of_getLast? hlast)
    exact (not_lt.1 hlt).trans hmem.2.2.le

theorem Cut.read {a : Id} (hcut : Cut cfg a b b') (hgrid : b.read a ∈ Decimal.grid 8) (a' : Id) :
    b'.read a' = b.read a' := by
  cases hcut with
  | skip _ => rfl
  | cut x last haccount hlast hseq hstored =>
    by_cases ha : x.accountId = a'
    · subst ha
      rw [← haccount] at hlast hstored hgrid
      have hmem := mem_settledAfter.1 (List.mem_of_getLast? hlast)
      have hlatest := b.latestSnapshot_concat (x := x) rfl (hseq ▸ hmem.2.2)
      -- it holds what was read, and nothing is left beyond it
      rw [sum_settledAfter, ← sumEntries_settled] at hstored
      have hbalance : x.balance = b.read x.accountId :=
        Decimal.eq_of_storeNumeric le_rfl hgrid hstored
      rw [Books.read, hlatest, sumEntries_settled]
      show x.balance + Checkpoint.delta _ _ _ x.lastEntrySeq b.entries = _
      rw [Checkpoint.delta_eq_zero fun e he hs => hseq ▸ le_cut hlast e he hs, add_zero, hbalance]
    · rw [Books.read, Books.read, b.latestSnapshot_concat_of_ne ha]
      rfl

/-- On its own account a cut leaves too few entries for another one, or none at all. -/
theorem Cut.unread {a : Id} (hcut : Cut cfg a b b') :
    (b'.unread a : ℤ) < cfg.snapshotEveryNEntries ∨ b'.unread a = 0 := by
  cases hcut with
  | skip hfew =>
    rw [b.length_settledAfter] at hfew
    exact .inl hfew
  | cut x last haccount hlast hseq hstored =>
    subst haccount
    have hmem := mem_settledAfter.1 (List.mem_of_getLast? hlast)
    have hlatest := b.latestSnapshot_concat (x := x) rfl (hseq ▸ hmem.2.2)
    right
    rw [Books.unread, hlatest]
    exact Checkpoint.delta_eq_zero fun e he hs => le_of_le_of_eq (le_cut hlast e he hs) hseq.symm

theorem Cut.unread_lt {a : Id} (hcut : Cut cfg a b b') (hpos : 1 ≤ cfg.snapshotEveryNEntries) :
    (b'.unread a : ℤ) < cfg.snapshotEveryNEntries := by
  rcases hcut.unread with hlt | hzero
  · exact hlt
  · rw [hzero]
    exact_mod_cast hpos

theorem Cut.unread_of_ne {a a' : Id} (hcut : Cut cfg a b b') (ha : a' ≠ a) :
    b'.unread a' = b.unread a' := by
  cases hcut with
  | skip _ => rfl
  | cut x last haccount hlast hseq hstored =>
    rw [Books.unread, Books.unread, b.latestSnapshot_concat_of_ne (haccount ▸ Ne.symm ha)]

theorem Cuts.read {as : List Id} (hcuts : Cuts cfg as b b') (h : b.Scaled) (hk : b.Keyed s)
    (a : Id) : b'.read a = b.read a := by
  induction hcuts with
  | nil b => rfl
  | cons hcut hcuts ih =>
    rw [ih (hcut.scaled h) (hcut.keyed hk), hcut.read (Books.read_mem_grid h hk _)]

/-! ## What an operation adds -/

/-- What the readings of an operation need of the books it starts from. -/
structure Books.Readable (b : Books) (s : Sequences) : Prop where
  keyed : b.Keyed s
  linked : b.Linked
  cursors : b.CursorsDrawn
  scaled : b.Scaled

theorem Books.Keyed.congr (h : b.Keyed s) (ha : b'.accounts = b.accounts)
    (ht : b'.transactions = b.transactions) (he : b'.entries = b.entries) : b'.Keyed s := by
  cases b
  cases b'
  cases ha
  cases ht
  cases he
  exact { h with }

/-- Entries posted to the books, and the snapshots cut then. -/
theorem Cuts.read_posted {b₂ : Books} {as : List Id} (hcuts : Cuts cfg as b₂ b')
    (b₁ : Books) (es : List LedgerEntry) (hk' : b'.Keyed s') (hc : b₁.CursorsDrawn)
    (hs : b₁.Scaled) (he : b₂.entries = b₁.entries ++ es) (hsnap : b₂.snapshots = b₁.snapshots)
    (a : Id) :
    b'.read a = b₁.read a +
      tally (fun e => e.accountId = a ∧ e.status = .success) LedgerEntry.amount es := by
  obtain ⟨haccounts, htransactions, hentries⟩ := hcuts.rest
  have hk₂ : b₂.Keyed s' := hk'.congr haccounts.symm htransactions.symm hentries.symm
  have hs₂ : b₂.Scaled := hs.congr hsnap
  have hadded : b₂.read a = (b₁.addEntries es).read a :=
    Books.read_congr (b := b₁.addEntries es) hsnap he a
  rw [hcuts.read hs₂ hk₂, hadded]
  refine Books.read_addEntries hc (he ▸ hk₂.seqs) (fun e hmem => ?_) a
  exact (hk₂.seqs_lt e (he ▸ List.mem_append_right _ hmem)).1

/-- The settled lines of a posting. -/
theorem Posted.tally_settled {id : Id} {lines : List PostingLine} {es : List LedgerEntry}
    (hp : Posted id lines es) (hs : ∀ line ∈ lines, line.status = .success) (a : Id) :
    tally (fun e => e.accountId = a ∧ e.status = .success) LedgerEntry.amount es =
      tally (fun line => line.accountId = a) PostingLine.amount lines := by
  rw [← hp.lines, tally_map]
  refine tally_congr (fun e he => ?_) fun _ _ _ => rfl
  have hstatus : e.status = .success := hs e.line (hp.lines ▸ List.mem_map_of_mem he)
  simp [hstatus, LedgerEntry.line]

end WalletLedger
