import WalletLedger.Sequential.Reservations

/-!
# How much is left to add to a snapshot

An operation writes its rows first and cuts the snapshots that are due last, on every
account it has settled an entry of.  What a balance has to add to the latest snapshot
therefore stays short.

* `Staged` — the books between the two; `Effect.staged` finds them in every effect.
* `Cuts.unread_lt` — few entries are left wherever a snapshot could be cut.
* `Books.Ascending` — the snapshots of an account have increasing cursors.
* `delta_bounded` — both, in every state of a run.
-/

namespace WalletLedger

variable {cfg : Config} {b b₁ b' : Books} {s : Sequences}

/-! ## Two stages -/

/-- The settled entries of an account. -/
def Books.settledOf (b : Books) (a : Id) : List LedgerEntry :=
  b.entries.filter fun e => e.accountId = a ∧ e.status = .success

/-- The books `b₁` hold what an operation has written, before it cuts the snapshots of `as`. -/
structure Staged (b b₁ : Books) (as : List Id) : Prop where
  snapshots : b₁.snapshots = b.snapshots
  accounts : ∀ a ∈ b.accounts, a ∈ b₁.accounts
  /-- The accounts with new settled entries are all on the list. -/
  settled : ∀ a ∉ as, b₁.settledOf a = b.settledOf a

namespace Books

theorem settledOf_congr (h : b'.entries = b.entries) (a : Id) : b'.settledOf a = b.settledOf a := by
  unfold settledOf
  rw [h]

/-- Settled entries on other accounts. -/
theorem settledOf_addEntries {es : List LedgerEntry} {a : Id}
    (h : ∀ e ∈ es, e.status = .success → e.accountId ≠ a) :
    (b.addEntries es).settledOf a = b.settledOf a := by
  have hnone : es.filter (fun e => decide (e.accountId = a ∧ e.status = .success)) = [] := by
    refine List.filter_eq_nil_iff.2 fun e he hp => ?_
    obtain ⟨ha, hs⟩ := of_decide_eq_true hp
    exact h e he hs ha
  show (b.entries ++ es).filter _ = _
  rw [List.filter_append, hnone, List.append_nil]
  rfl

theorem settledOf_posted {id : Id} {lines : List PostingLine} {es : List LedgerEntry}
    (hp : Posted id lines es) {a : Id} (h : ∀ line ∈ lines, line.accountId ≠ a) :
    (b.addEntries es).settledOf a = b.settledOf a :=
  settledOf_addEntries fun e he _ => h e.line (hp.lines ▸ List.mem_map_of_mem he)

/-- The status of an entry of another account, or of one that does not count. -/
theorem settledOf_setEntry {id : Id} {status : EntryStatus} {a : Id}
    (h : ∀ e ∈ b.entries, e.id = id → e.accountId = a → e.status ≠ .success ∧ status ≠ .success) :
    (b.setEntry id status).settledOf a = b.settledOf a := by
  have main : ∀ es : List LedgerEntry, (∀ e ∈ es, e ∈ b.entries) →
      (modify LedgerEntry.id id (fun e => { e with status := status }) es).filter
        (fun e => decide (e.accountId = a ∧ e.status = .success)) =
      es.filter fun e => decide (e.accountId = a ∧ e.status = .success) := by
    intro es hes
    induction es with
    | nil => rfl
    | cons e es ih =>
      have ih := ih fun f hf => hes f (List.mem_cons_of_mem _ hf)
      unfold modify at ih ⊢
      rw [List.map_cons, List.filter_cons, List.filter_cons, ih]
      by_cases hid : e.id = id
      · by_cases ha : e.accountId = a
        · obtain ⟨hold, hnew⟩ := h e (hes e (by simp)) hid ha
          simp [hid, hold, hnew]
        · simp [hid, ha]
      · simp [hid]
  exact main b.entries fun _ he => he

theorem settledOf_released (hk : b.Keyed s) (id a : Id) :
    ((b.entries.filter (LedgerEntry.isOf id .pending)).foldl
      (fun b e => b.setEntry e.id .failed) b).settledOf a = b.settledOf a := by
  unfold settledOf
  rw [failed_entries hk, List.filter_map]
  have hsame : ((fun e : LedgerEntry => decide (e.accountId = a ∧ e.status = .success)) ∘
      fun e : LedgerEntry => if e.isOf id .pending then { e with status := .failed } else e) =
      fun e => decide (e.accountId = a ∧ e.status = .success) := by
    funext e
    rw [Function.comp_apply]
    split
    · rename_i hpend
      have hpend : e.status = .pending := (of_decide_eq_true hpend).2
      simp [hpend]
    · rfl
  rw [hsame]
  refine (List.map_congr_left fun e he => ?_).trans (List.map_id _)
  have hsettled : e.status = .success := (of_decide_eq_true (List.mem_filter.1 he).2).2
  rw [if_neg]
  · rfl
  · intro hpend
    have hpend : e.status = .pending := (of_decide_eq_true hpend).2
    rw [hsettled] at hpend
    cases hpend

end Books

/-- Every effect writes its rows first, and cuts its snapshots then. -/
theorem Effect.staged {op : Operation} (hk : b.Keyed s) (he : Effect cfg b op b') :
    ∃ as b₁, Cuts cfg as b₁ b' ∧ Staged b b₁ as := by
  cases he with
  | createAccount a owner code new =>
    exact ⟨[], _, .nil _, rfl, fun _ h => List.mem_append_left _ h, fun _ _ => rfl⟩
  | initiateDeposit account money t reference account_mem account_id money_eq positive records =>
    exact ⟨[], _, .nil _, rfl, fun _ h => h, fun _ _ => rfl⟩
  | settle t authorized account clearing b₁ _ es found pending authorized_eq reconciled account_id
      account_mem owner code opened posted cuts =>
    refine ⟨_, _, cuts, opened.rest.2.2, fun _ h => opened.subset h, fun a ha => ?_⟩
    have hpost : (b₁.addEntries es).settledOf a = b₁.settledOf a := by
      refine Books.settledOf_posted posted fun line hl hla => ha ?_
      rw [← hla]
      simp only [List.mem_cons, List.not_mem_nil, or_false] at hl
      rcases hl with rfl | rfl <;> simp
    exact hpost.trans (Books.settledOf_congr opened.rest.2.1 a)
  | execute k t es _ records posted cuts =>
    refine ⟨_, _, cuts, rfl, fun _ h => h, fun a ha => ?_⟩
    refine Books.settledOf_posted (b := b.addTransaction t) posted fun line hl hla => ha ?_
    rw [← hla]
    simp only [List.mem_cons, List.not_mem_nil, or_false] at hl
    rcases hl with rfl | rfl <;> simp
  | initiate k t e records line transaction =>
    refine ⟨[], _, .nil _, rfl, fun _ h => h, fun a _ => ?_⟩
    have hstatus : e.status = .pending := congrArg PostingLine.status line
    refine Books.settledOf_addEntries (b := b.addTransaction t) fun f hf hs => ?_
    rw [List.mem_singleton.1 hf, hstatus] at hs
    cases hs
  | commit t money debit credit sender receiver _ found pending money_eq approved reserved
      sender_mem sender_id receiver_id receiver_mem line transaction balanced cuts =>
    refine ⟨_, _, cuts, rfl, fun _ h => h, fun a ha => ?_⟩
    simp only [List.mem_cons, List.not_mem_nil, or_false, not_or] at ha
    have hcredit : ((b.setEntry debit.id .success).addEntries [credit]).settledOf a =
        (b.setEntry debit.id .success).settledOf a := by
      refine Books.settledOf_addEntries fun f hf _ hfa => ha.2 ?_
      have hline : credit.accountId = receiver.id := congrArg PostingLine.accountId line
      rw [← hfa, List.mem_singleton.1 hf, hline]
    refine hcredit.trans (Books.settledOf_setEntry fun e he hid hea => absurd ?_ ha.1)
    rw [sender_id, ← hea, eq_of_key_eq hk.entryIds he (List.mem_of_find?_eq_some reserved) hid]
  | fail t found pending =>
    refine ⟨[], _, .nil _, ?_, ?_, fun a _ => Books.settledOf_released hk t.id a⟩
    · exact Books.snapshots_setEntries _ .failed b
    · intro a ha
      rwa [show (Books.setTransaction _ t.id .failed).accounts = _ from
        (Books.setEntries_rest _ .failed b).1]
  | executeFxTransfer k received poolFrom poolTo b₁ b₂ _ t es exchange received_eq owner_from
      code_from opened_from owner_to code_to opened_to records posted cuts =>
    refine ⟨_, _, cuts, opened_to.rest.2.2.trans opened_from.rest.2.2,
      fun _ h => opened_to.subset (opened_from.subset h), fun a ha => ?_⟩
    have hpost : ((b₂.addTransaction t).addEntries es).settledOf a = b₂.settledOf a := by
      refine Books.settledOf_posted (b := b₂.addTransaction t) posted fun line hl hla => ha ?_
      rw [← hla]
      simp only [List.mem_cons, List.not_mem_nil, or_false] at hl
      rcases hl with rfl | rfl | rfl | rfl <;> simp
    exact hpost.trans (Books.settledOf_congr (opened_to.rest.2.1.trans opened_from.rest.2.1) a)
  | reverse t reversal lines es _ found success original records mirrored balanced posted cuts =>
    refine ⟨_, _, cuts, rfl, fun _ h => h, fun a ha => ?_⟩
    refine Books.settledOf_posted (b := b.addTransaction reversal) posted fun line hl hla => ha ?_
    obtain ⟨e, he, hm⟩ := exists_of_mirrored mirrored hl
    rw [← hla, hm.account]
    exact List.mem_dedup.2 (List.mem_map_of_mem he)

/-! ## What is left to add -/

theorem Staged.unread {as : List Id} (h : Staged b b₁ as) {a : Id} (ha : a ∉ as) :
    b₁.unread a = b.unread a := by
  have hlatest : b₁.latestSnapshot a = b.latestSnapshot a := by
    unfold Books.latestSnapshot
    rw [h.snapshots]
  have hcount : ∀ c : Books, c.unread a = ((c.settledOf a).filter fun e =>
      LedgerService.snapshotCursor (c.latestSnapshot a) < e.seq).length := by
    intro c
    rw [← c.length_settledAfter, Books.settledAfter, List.length_insertionSort, Books.settledOf,
      List.filter_filter]
    congr 1
    refine List.filter_congr fun e _ => ?_
    simp [LedgerEntry.isSettledAfter, Bool.and_comm, Bool.and_assoc]
  rw [hcount, hcount, h.settled a ha, hlatest]

/-- Wherever a snapshot was due, it has been cut. -/
theorem Cuts.unread_lt {as : List Id} (hcuts : Cuts cfg as b b')
    (hpos : 1 ≤ cfg.snapshotEveryNEntries) {a : Id}
    (h : a ∈ as ∨ (b.unread a : ℤ) < cfg.snapshotEveryNEntries) :
    (b'.unread a : ℤ) < cfg.snapshotEveryNEntries := by
  induction hcuts with
  | nil b => exact h.resolve_left (by simp)
  | @cons x as b b₁ b₂ hcut _ ih =>
    refine ih ?_
    by_cases hx : a = x
    · subst hx
      exact .inr (hcut.unread_lt hpos)
    · rw [hcut.unread_of_ne hx]
      exact h.imp_left fun ha => (List.mem_cons.1 ha).resolve_left hx

/-! ## The cursors of an account -/

/-- The snapshots of an account, in the order they were cut, have increasing cursors. -/
def Books.Ascending (b : Books) : Prop :=
  ∀ a, (b.snapshots.filter fun x => x.accountId = a).Pairwise fun x y =>
    x.lastEntrySeq < y.lastEntrySeq

theorem Cut.ascending {a : Id} (hcut : Cut cfg a b b') (h : b.Ascending) : b'.Ascending := by
  cases hcut with
  | skip _ => exact h
  | cut x last haccount hlast hseq hstored =>
    intro a'
    show ((b.snapshots ++ [x]).filter _).Pairwise _
    rw [List.filter_append, List.pairwise_append]
    refine ⟨h a', ?_, fun y hy z hz => ?_⟩
    · exact ((List.pairwise_singleton _ x).sublist List.filter_sublist)
    · obtain ⟨hz, hza⟩ := List.mem_filter.1 hz
      obtain ⟨hy, hya⟩ := List.mem_filter.1 hy
      rw [List.mem_singleton] at hz
      subst hz
      have hmem := mem_settledAfter.1 (List.mem_of_getLast? hlast)
      -- the new cursor is beyond the latest one, and no other is higher
      have hsame : y.accountId = a :=
        (of_decide_eq_true hya).trans ((of_decide_eq_true hza).symm.trans haccount)
      have hle := cursor_le_latest hy
      rw [hsame] at hle
      rw [hseq]
      exact hle.trans_lt hmem.2.2

theorem Cuts.ascending {as : List Id} (hcuts : Cuts cfg as b b') (h : b.Ascending) :
    b'.Ascending := by
  induction hcuts with
  | nil b => exact h
  | cons hcut _ ih => exact ih (hcut.ascending h)

/-! ## Every run -/

/-- No account has more than that to add, and its cursors increase. -/
structure Books.Short (cfg : Config) (b : Books) : Prop where
  unread : ∀ a, (b.unread a : ℤ) < cfg.snapshotEveryNEntries
  ascending : b.Ascending

theorem Effect.short {op : Operation} (hpos : 1 ≤ cfg.snapshotEveryNEntries) (hk : b.Keyed s)
    (h : b.Short cfg) (he : Effect cfg b op b') : b'.Short cfg := by
  obtain ⟨as, b₁, hcuts, hstaged⟩ := he.staged hk
  refine ⟨fun a => hcuts.unread_lt hpos ?_, hcuts.ascending ?_⟩
  · by_cases ha : a ∈ as
    · exact .inl ha
    · rw [hstaged.unread ha]
      exact .inr (h.unread a)
  · unfold Books.Ascending
    rw [hstaged.snapshots]
    exact h.ascending

theorem short_of_run {C : Operation → Store → Prop} {st : Store}
    (hpos : 1 ≤ cfg.snapshotEveryNEntries) (h : Run (Operation.run cfg) C Store.empty st) :
    st.Sound ∧ st.db.books.Short cfg := by
  have hempty : Store.empty.db.books.Short cfg := by
    refine ⟨fun a => ?_, by simp [Books.Ascending, Store.empty, Database.empty]⟩
    have hzero : Store.empty.db.books.unread a = 0 := rfl
    rw [hzero]
    exact_mod_cast hpos
  refine ⟨sound_of_run h, h.invariant_of (I := fun st => st.db.books.Short cfg) sound_of_run hempty
    fun op st hs hx _ => ?_⟩
  exact op.run_keeps (I := Books.Short cfg) hs.keyed hx fun he => he.short hpos hs.keyed hx

/-- **Bounded delta.**  After any run, whatever the account, fewer settled entries lie beyond
its latest snapshot than a snapshot is cut for, and the cursors of its snapshots increase. -/
theorem delta_bounded {st : Store} (hpos : 1 ≤ cfg.snapshotEveryNEntries)
    (h : Run (Operation.run cfg) anyOp Store.empty st) (a : Id) :
    ((st.db.books.entries.filter fun e => e.accountId = a ∧ e.status = .success ∧
        LedgerService.snapshotCursor (st.db.books.latestSnapshot a) < e.seq).length : ℤ) <
          cfg.snapshotEveryNEntries ∧
      (st.db.books.snapshots.filter fun x => x.accountId = a).Pairwise fun x y =>
        x.lastEntrySeq < y.lastEntrySeq := by
  obtain ⟨-, hshort⟩ := short_of_run hpos h
  refine ⟨?_, hshort.ascending a⟩
  have hfew := hshort.unread a
  rw [← Books.length_settledAfter, Books.settledAfter, List.length_insertionSort] at hfew
  exact hfew

/-- A third deposit stands beyond the snapshots the second one has cut. -/
theorem delta_bounded_deposits :
    let s := runAll (offlineConfig 2)
      [.createAccount "alice" "EUR", .initiateDeposit 0 100 "stripe" ⟨none, none⟩ (some "c1"),
        .settle "1" none none, .initiateDeposit 0 10 "stripe" ⟨none, none⟩ (some "c2"),
        .settle "5" none none, .initiateDeposit 0 1 "stripe" ⟨none, none⟩ (some "c3"),
        .settle "10" none none] Store.empty
    s.db.books.snapshots.length = 2 ∧ s.db.books.entries.length = 6 ∧
      ((s.db.books.entries.filter fun e => e.accountId = 0 ∧ e.status = .success ∧
        LedgerService.snapshotCursor (s.db.books.latestSnapshot 0) < e.seq).length : ℤ) < 2 := by
  intro s
  have hrun : Run (Operation.run (offlineConfig 2)) anyOp Store.empty s := Run.foldl _
  have hbounded := delta_bounded (by decide) hrun 0
  refine ⟨?_, ?_, hbounded.1⟩
  · decide +kernel
  · decide +kernel

end WalletLedger
