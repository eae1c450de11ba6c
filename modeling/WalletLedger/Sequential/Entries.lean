import WalletLedger.Sequential.Postings

/-!
# Entries that are already built

`post_entries` replays double entry on a list of entries, and adds all of them to the session
or none.

* `Unbalanced` — double entry has refused.
* `Conn.Stores` — what the database asks of an entry, and `RowOf`: the row it keeps of it.
* `insertAll_adds`, `insertAll_drops`, `postEntries_refuses` — the three ends of a call.
* `entries_balanced_iff` — double entry on a list of any length and order, and what is added.
-/

namespace WalletLedger

variable {cfg : Config} {c : Conn}

/-- Double entry has refused. -/
def Unbalanced (o : Except Exn Unit) : Prop :=
  ∃ currency total, o = .error (.domain (.ledgerNotBalanced currency total))

/-! ## What the database asks -/

/-- The session can store the entry: it answers, the columns are wide enough, and the account and
the transaction are there. -/
structure Conn.Stores (c : Conn) (e : PostingLine × Id) : Prop where
  alive : c.session.failed = false
  amount : (Decimal.storeNumeric 28 8 e.1.amount).isSome
  currency : fitsIn 3 e.1.currency = true
  account : ∃ a ∈ c.view.books.accounts, a.id = e.1.accountId
  transaction : ∃ t ∈ c.view.books.transactions, t.id = e.2

/-- The row of an entry: its amount is what the column keeps. -/
structure RowOf (e : PostingLine × Id) (row : LedgerEntry) : Prop where
  line : row.line = e.1.store
  transaction : row.transactionId = e.2

/-- The session has written the entries after what it had written. -/
def Conn.Adds (c : Conn) (entries : List (PostingLine × Id)) (d : Conn) : Prop :=
  ∃ rows, List.Forall₂ RowOf entries rows ∧
    d.session.writes = c.session.writes ++ rows.map .addEntry ∧ d.store.db = c.store.db

/-- The database has refused: nothing that the session wrote is left. -/
def Conn.Drops (c d : Conn) : Prop :=
  (c.session.failed = true ∧ d = c) ∨ (d.session = ⟨[], true⟩ ∧ d.store.db = c.store.db)

/-- The insertion of an entry. -/
abbrev insertion (e : PostingLine × Id) : Mutation :=
  .insertEntry e.1.accountId e.2 e.1.amount e.1.entryType e.1.status e.1.currency

/-- The row of an entry that the session inserts. -/
def Conn.row (c : Conn) (e : PostingLine × Id) : LedgerEntry :=
  ⟨c.store.seqs.nextId, c.store.seqs.nextSeq, e.1.accountId, e.2, e.1.stored, e.1.entryType,
    e.1.status, e.1.currency⟩

theorem Conn.rowOf (c : Conn) (e : PostingLine × Id) : RowOf e (c.row e) := ⟨rfl, rfl⟩

theorem exec_insertion {e : PostingLine × Id} (h : c.Stores e) :
    Conn.exec cfg (.mutate (insertion e)) c =
      (.ok (), c.wrote ((insertion e).advance c.store.seqs) (.addEntry (c.row e))) := by
  refine Conn.exec_goes h.alive ?_
  obtain ⟨x, hx⟩ := Option.isSome_iff_exists.1 h.amount
  have hstored : e.1.stored = x := by rw [PostingLine.stored, hx, Option.getD_some]
  have hrefs : c.view.books.accounts.any (fun a => a.id = e.1.accountId) = true ∧
      c.view.books.transactions.any (fun t => t.id = e.2) = true := by
    simpa using ⟨h.account, h.transaction⟩
  dsimp only [Mutation.exec]
  rw [hx]
  simp [h.currency, hrefs, Conn.row, hstored]

theorem exec_insertion_refused (cfg : Config) {e : PostingLine × Id} (h : ¬ c.Stores e) :
    ∃ err d, Conn.exec cfg (.mutate (insertion e)) c = (.error err, d) ∧ c.Drops d := by
  cases hf : c.session.failed with
  | true => exact ⟨.pendingRollback, c, by rw [Conn.exec_mutate, hf]; rfl, .inl ⟨hf, rfl⟩⟩
  | false =>
    cases hm : (insertion e).exec cfg c.store.seqs c.view with
    | error err => exact ⟨err, _, Conn.exec_refused hf hm, .inr ⟨rfl, rfl⟩⟩
    | ok x =>
      refine absurd ?_ h
      obtain ⟨stored, hs, ha, ht, -⟩ := Mutation.exec_insertEntry hm
      refine ⟨hf, by rw [hs]; rfl, ?_, ha, ht⟩
      by_contra hcur
      dsimp only [Mutation.exec] at hm
      rw [hs] at hm
      simp [hcur] at hm

/-- What the session has inserted does not change what it can store. -/
theorem Conn.stores_wrote (halive : c.session.failed = false) {seqs : Sequences} {row : LedgerEntry}
    {e : PostingLine × Id} : (c.wrote seqs (.addEntry row)).Stores e ↔ c.Stores e := by
  have hview : (c.wrote seqs (.addEntry row)).view = (Write.addEntry row).apply c.view :=
    Conn.view_wrote ..
  constructor
  · intro h
    have haccount := h.account
    have htransaction := h.transaction
    rw [hview] at haccount htransaction
    exact ⟨halive, h.amount, h.currency, haccount, htransaction⟩
  · intro h
    refine ⟨rfl, h.amount, h.currency, ?_, ?_⟩ <;> rw [hview]
    · exact h.account
    · exact h.transaction

/-! ## Inserting the entries -/

/-- Insert the entries, one after the other. -/
abbrev insertAll (entries : List (PostingLine × Id)) : App Unit :=
  Program.forEach entries fun e => ask (.mutate (insertion e))

theorem insertAll_adds {entries : List (PostingLine × Id)} (h : ∀ e ∈ entries, c.Stores e) :
    (runOn cfg (insertAll entries) c).1 = .ok () ∧
      c.Adds entries (runOn cfg (insertAll entries) c).2 := by
  induction entries generalizing c with
  | nil => exact ⟨rfl, [], .nil, (List.append_nil _).symm, rfl⟩
  | cons e entries ih =>
    have he := h e List.mem_cons_self
    have hrest : ∀ f ∈ entries,
        (c.wrote ((insertion e).advance c.store.seqs) (.addEntry (c.row e))).Stores f :=
      fun f hf => (Conn.stores_wrote he.alive).2 (h f (List.mem_cons_of_mem _ hf))
    obtain ⟨hok, rows, hrows, hwrites, hdb⟩ := ih hrest
    rw [insertAll, Program.forEach, run_ask_ok (exec_insertion he)]
    refine ⟨hok, c.row e :: rows, .cons (c.rowOf e) hrows, ?_, hdb⟩
    rw [hwrites]
    exact List.append_assoc _ [_] _

theorem insertAll_drops {entries : List (PostingLine × Id)} (h : ¬ ∀ e ∈ entries, c.Stores e) :
    (∃ err, (runOn cfg (insertAll entries) c).1 = .error (.service err)) ∧
      c.Drops (runOn cfg (insertAll entries) c).2 := by
  induction entries generalizing c with
  | nil => exact absurd (by simp) h
  | cons e entries ih =>
    rw [insertAll, Program.forEach]
    by_cases he : c.Stores e
    · rw [run_ask_ok (exec_insertion he)]
      have hrest : ¬ ∀ f ∈ entries,
          (c.wrote ((insertion e).advance c.store.seqs) (.addEntry (c.row e))).Stores f := by
        refine fun hall => h fun f hf => ?_
        rcases List.mem_cons.1 hf with rfl | hf
        · exact he
        · exact (Conn.stores_wrote he.alive).1 (hall f hf)
      obtain ⟨herr, hdrops⟩ := ih hrest
      refine ⟨herr, .inr ?_⟩
      -- the session answered the first entry, so it is lost only now
      rcases hdrops with ⟨hfailed, -⟩ | hdrops
      · cases hfailed
      · exact hdrops
    · obtain ⟨err, d, hx, hdrops⟩ := exec_insertion_refused cfg he
      rw [run_ask_error hx]
      exact ⟨⟨err, rfl⟩, hdrops⟩

/-! ## Posting them -/

section post

variable {t : TransactionAggregate} {entries : List (PostingLine × Id)}

theorem LedgerService.assertBalanced_eq (ht : t.lines = entries.map Prod.fst) :
    LedgerService.assertBalanced (entries.map Prod.fst) = t.assertBalanced := by
  rw [LedgerService.assertBalanced, TransactionAggregate.assertBalanced, rebuild_lines, ← ht]
  rfl

theorem postEntries_eq (entries : List (PostingLine × Id)) :
    LedgerService.postEntries entries =
      Program.ofExcept (LedgerService.assertBalanced (entries.map Prod.fst)) >>=
        fun _ => insertAll entries := rfl

/-- A list that double entry refuses: the session is as it was. -/
theorem postEntries_refuses (ht : t.lines = entries.map Prod.fst)
    (h : Unbalanced t.assertBalanced) :
    runOn cfg (LedgerService.postEntries entries) c = (t.assertBalanced, c) := by
  obtain ⟨currency, total, herr⟩ := h
  rw [postEntries_eq, LedgerService.assertBalanced_eq ht, herr]
  rfl

theorem run_postEntries (ht : t.lines = entries.map Prod.fst) (h : t.assertBalanced = .ok ()) :
    runOn cfg (LedgerService.postEntries entries) c = runOn cfg (insertAll entries) c := by
  rw [postEntries_eq, LedgerService.assertBalanced_eq ht, h]
  rfl

end post

theorem unbalanced_iff (t : TransactionAggregate) (hfit : PartialSumsFit t.lines) :
    Unbalanced t.assertBalanced ↔ ∃ currency, sumIn currency t.lines ≠ 0 := by
  rcases t.assertBalanced_cases hfit with ⟨hok, hzero⟩ | ⟨currency, hne, herr⟩
  · constructor
    · rintro ⟨_, _, herr⟩
      rw [hok] at herr
      cases herr
    · rintro ⟨currency, hne⟩
      exact absurd (hzero currency) hne
  · exact ⟨fun _ => ⟨currency, hne⟩, fun _ => ⟨_, _, herr⟩⟩

theorem assertBalanced_ok_iff (t : TransactionAggregate) :
    t.assertBalanced = .ok () ↔ ¬ Unbalanced t.assertBalanced := by
  rcases TransactionAggregate.checkTotals_cases (TransactionAggregate.totals t.lines) with
    ⟨hok, -⟩ | ⟨total, -, -, herr⟩
  · refine ⟨fun _ => ?_, fun _ => hok⟩
    rintro ⟨_, _, herr⟩
    rw [TransactionAggregate.assertBalanced, hok] at herr
    cases herr
  · constructor
    · intro hok
      rw [TransactionAggregate.assertBalanced, herr] at hok
      cases hok
    · exact fun h => absurd ⟨_, _, herr⟩ h

/-- Double entry refuses a list of lines exactly if some currency does not sum to zero, in whatever
order the lines are; and a list of entries is added as a whole or not at all, as the aggregate of
its lines is accepted or refused. -/
theorem entries_balanced_iff (cfg : Config) {t : TransactionAggregate}
    (hfit : PartialSumsFit t.lines) :
    (Unbalanced t.assertBalanced ↔ ∃ currency, sumIn currency t.lines ≠ 0) ∧
    (t.assertBalanced = .ok () ↔ ∀ currency, sumIn currency t.lines = 0) ∧
    (∀ t' : TransactionAggregate, t'.lines.Perm t.lines → PartialSumsFit t'.lines →
      (Unbalanced t'.assertBalanced ↔ Unbalanced t.assertBalanced)) ∧
    ∀ entries : List (PostingLine × Id), t.lines = entries.map Prod.fst →
      LedgerService.assertBalanced (entries.map Prod.fst) = t.assertBalanced ∧
      ∀ c : Conn,
        (Unbalanced t.assertBalanced →
          runOn cfg (LedgerService.postEntries entries) c = (t.assertBalanced, c)) ∧
        (t.assertBalanced = .ok () →
          ((∀ e ∈ entries, c.Stores e) →
            (runOn cfg (LedgerService.postEntries entries) c).1 = .ok () ∧
              c.Adds entries (runOn cfg (LedgerService.postEntries entries) c).2) ∧
          ((¬ ∀ e ∈ entries, c.Stores e) →
            (∃ err, (runOn cfg (LedgerService.postEntries entries) c).1 =
              .error (.service err)) ∧
              c.Drops (runOn cfg (LedgerService.postEntries entries) c).2)) := by
  have hiff := unbalanced_iff t hfit
  refine ⟨hiff, ?_, fun t' hperm hfit' => ?_, fun entries ht => ?_⟩
  · rw [assertBalanced_ok_iff, hiff]
    simp
  · have hsum : ∀ currency, sumIn currency t'.lines = sumIn currency t.lines :=
      fun _ => tally_perm hperm
    rw [unbalanced_iff t' hfit', hiff]
    simp only [hsum]
  · refine ⟨LedgerService.assertBalanced_eq ht, fun c => ⟨postEntries_refuses ht, fun hok => ?_⟩⟩
    rw [run_postEntries ht hok]
    exact ⟨insertAll_adds, insertAll_drops⟩

/-- Two currencies whose lines are mixed; the dollars are ten short. -/
theorem entries_balanced_iff_mixed :
    Unbalanced (TransactionAggregate.assertBalanced ⟨"USD",
      [⟨1, -100, .debit, "USD", .success⟩, ⟨2, 7, .credit, "EUR", .success⟩,
        ⟨3, 40, .credit, "USD", .success⟩, ⟨4, -7, .debit, "EUR", .success⟩,
        ⟨5, 50, .credit, "USD", .success⟩]⟩) :=
  (entries_balanced_iff (offlineConfig 1) (t := ⟨"USD", _⟩) (by decide +kernel)).1.2
    ⟨"USD", by decide +kernel⟩

end WalletLedger
