import WalletLedger.Concurrent.Histories
import WalletLedger.Concurrent.Journal
import WalletLedger.Sequential.Invariants

/-!
# What the writes of a session add up to

A session that has not committed adds nothing to the ledger, but its writes will.  What they
will add to the settled entries of a transaction does not depend on when they are committed,
as long as an entry whose status they set still waits then.

* `LedgerEntry.Ruled` — an entry as the services write it, whatever its status.
* `Write.Timely`, `Timely` — the entry whose status is set still waits, and the condition on turns.
* `Shared.Adds` — what the writes of a session will add, with one lemma for each kind of write;
  `Shared.Neutral` — nothing.
* `Shared.idLog` — the entries keep identifiers of their own.
* `Conserved`, `conserving` — the invariant of the sessions, and what each may rely on;
  `keeps_idle`, `keeps_commit` — a session may commit when its writes add nothing.
-/

namespace WalletLedger

/-! ## Entries as the services write them -/

/-- The code is in upper case, and the amount is at the precision of its currency, with the sign
of its type and no more digits than the context has. -/
structure LedgerEntry.Ruled (e : LedgerEntry) : Prop where
  code : e.currency.toUpper = e.currency
  amount : e.amount ∈ Decimal.grid (decimalsFor e.currency)
  debit : e.entryType = .debit → e.amount ≤ 0
  credit : e.entryType = .credit → 0 ≤ e.amount
  written : Decimal.roundContext e.amount = e.amount

/-- The line debits or credits an amount of money. -/
def PostingLine.OfMoney (line : PostingLine) : Prop :=
  ∃ m : Money, line.currency = m.currency ∧
    (line.entryType = .debit ∧ line.amount = -|m.amount| ∨
      line.entryType = .credit ∧ line.amount = |m.amount|)

theorem ofMoney_debit (accountId : Id) (m : Money) : (debitLine accountId m).OfMoney :=
  ⟨m, rfl, .inl ⟨rfl, rfl⟩⟩

theorem ofMoney_credit (accountId : Id) (m : Money) : (creditLine accountId m).OfMoney :=
  ⟨m, rfl, .inr ⟨rfl, rfl⟩⟩

theorem PostingLine.OfMoney.mem_grid {line : PostingLine} (h : line.OfMoney) :
    line.amount ∈ Decimal.grid (decimalsFor line.currency) := by
  obtain ⟨m, hcur, ⟨-, hamount⟩ | ⟨-, hamount⟩⟩ := h
  · rw [hcur, hamount]
    exact (Decimal.grid _).neg_mem (Decimal.abs_mem_grid m.onGrid)
  · rw [hcur, hamount]
    exact Decimal.abs_mem_grid m.onGrid

/-- An entry that records such a line, once its column has stored the amount. -/
theorem PostingLine.OfMoney.ruled {e : LedgerEntry} (h : e.line.OfMoney)
    (hstore : Decimal.storeNumeric 28 8 e.amount = some e.amount) : e.Ruled := by
  have hgrid : e.amount ∈ Decimal.grid (decimalsFor e.currency) := h.mem_grid
  have hwritten : Decimal.roundContext e.amount = e.amount :=
    Decimal.roundContext_of_fits (Decimal.storeNumeric_mem_grid hstore)
      (Decimal.storeNumeric_fits hstore)
  obtain ⟨m, hcur, htype⟩ := h
  have hcur : e.currency = m.currency := hcur
  have hcode : e.currency.toUpper = e.currency := by rw [hcur, m.isUpper]
  obtain ⟨htype, hamount⟩ | ⟨htype, hamount⟩ := htype
  · have htype : e.entryType = .debit := htype
    have hamount : e.amount = -|m.amount| := hamount
    refine ⟨hcode, hgrid, fun _ => ?_, fun h => ?_, hwritten⟩
    · rw [hamount]
      exact neg_nonpos.2 (abs_nonneg _)
    · rw [htype] at h
      cases h
  · have htype : e.entryType = .credit := htype
    have hamount : e.amount = |m.amount| := hamount
    refine ⟨hcode, hgrid, fun h => ?_, fun _ => ?_, hwritten⟩
    · rw [htype] at h
      cases h
    · rw [hamount]
      exact abs_nonneg _

/-- The entries of sound books are. -/
theorem Store.Sound.ruled {s : Store} (h : s.Sound) : ∀ e ∈ s.db.books.entries, e.Ruled := by
  intro e he
  have hline := h.linked.entries e he
  obtain ⟨a, ha, -, hcur⟩ := hline.account
  have hcur : a.currency = e.currency := hcur
  refine ⟨?_, hline.amount, hline.debit, hline.credit, ?_⟩
  · rw [← hcur]
    exact h.linked.codes a ha
  · exact Decimal.roundContext_of_fits (h.keyed.entryAmounts e he) (h.keyed.entryWidths e he)

/-- The mirror of such an entry takes back what it gave, in its currency. -/
theorem MirrorLine.of_ruled {e : LedgerEntry} {line : PostingLine} (h : MirrorLine e line)
    (he : e.Ruled) : line.OfMoney ∧ line.amount = -e.amount ∧ line.currency = e.currency := by
  obtain ⟨m, hm, rfl⟩ := h
  have hamount : m.amount = |e.amount| :=
    Money.amount_of_make (Decimal.abs_mem_grid he.amount) hm
  have hcur : m.currency = e.currency := by rw [Money.currency_of_make hm, he.code]
  cases htype : e.entryType with
  | debit =>
    refine ⟨ofMoney_credit _ m, ?_, hcur⟩
    simp [hamount, abs_of_nonpos (he.debit htype)]
  | credit =>
    refine ⟨ofMoney_debit _ m, ?_, hcur⟩
    simp [hamount, abs_of_nonneg (he.credit htype)]

/-- What the mirrored lines sum to in a currency. -/
theorem sum_mirrored {es : List LedgerEntry} {lines : List PostingLine}
    (h : List.Forall₂ MirrorLine es lines) (hes : ∀ e ∈ es, e.Ruled) (c : String) :
    tally (fun line => line.currency = c) PostingLine.amount lines =
      -tally (fun e => e.currency = c) LedgerEntry.amount es := by
  induction h with
  | nil => simp
  | @cons e line _ _ hm _ ih =>
    obtain ⟨-, hamount, hcur⟩ := hm.of_ruled (hes e (by simp))
    rw [tally_cons, tally_cons, ih fun e he => hes e (by simp [he]), hamount, hcur]
    split <;> ring

/-! ## Writes that can be committed later -/

/-- The write neither adds an entry nor sets the status of one. -/
def Write.offEntries : Write → Bool
  | .addEntry _ => false
  | .setEntryStatus _ _ => false
  | _ => true

/-- The write settles no entry: it may only mark some as failed. -/
def Write.settlesNone : Write → Bool
  | .addEntry _ => false
  | .setEntryStatus _ status => decide (status = .failed)
  | _ => true

theorem Write.settlesNone_of_offEntries {w : Write} (h : w.offEntries = true) :
    w.settlesNone = true := by
  cases w <;> first | rfl | cases h

/-- The entry whose status the write sets still waits. -/
def Write.Timely (b : Books) : Write → Prop
  | .setEntryStatus id _ => ∀ e ∈ b.entries, e.id = id → e.status = .pending
  | _ => True

instance (b : Books) : (w : Write) → Decidable (w.Timely b)
  | .setEntryStatus id _ =>
      inferInstanceAs (Decidable (∀ e ∈ b.entries, e.id = id → e.status = .pending))
  | .addAccount _ => isTrue trivial
  | .addTransaction _ => isTrue trivial
  | .addEntry _ => isTrue trivial
  | .addSnapshot _ => isTrue trivial
  | .setTransactionStatus _ _ => isTrue trivial
  | .setReference _ _ => isTrue trivial
  | .addKey _ => isTrue trivial
  | .completeKey _ _ _ => isTrue trivial
  | .deleteKey _ => isTrue trivial
  | .addNotification _ => isTrue trivial

/-- The settled entries of a transaction in a currency, added up. -/
def Books.settledSum (b : Books) (id : Id) (c : String) : Decimal :=
  tally (fun e => e.transactionId = id ∧ e.currency = c ∧ e.status = .success) LedgerEntry.amount
    b.entries

theorem Books.settledSum_congr {b b' : Books} (h : b'.entries = b.entries) (id : Id) (c : String) :
    b'.settledSum id c = b.settledSum id c := by
  unfold Books.settledSum
  rw [h]

/-- What an entry adds to them. -/
def LedgerEntry.settles (e : LedgerEntry) (id : Id) (c : String) : Decimal :=
  if e.transactionId = id ∧ e.currency = c ∧ e.status = .success then e.amount else 0

theorem Write.applyBooks_entries {w : Write} (h : w.offEntries = true) (b : Books) :
    (w.applyBooks b).entries = b.entries := by
  cases w <;> first | rfl | cases h

theorem replayBooks_concat (ws : List Write) (w : Write) (b : Books) :
    replayBooks (ws ++ [w]) b = w.applyBooks (replayBooks ws b) := by
  simp [replayBooks]

theorem replayBooks_offEntries {ws : List Write} (h : ∀ w ∈ ws, w.offEntries = true) (b : Books) :
    (replayBooks ws b).entries = b.entries := by
  induction ws generalizing b with
  | nil => rfl
  | cons w ws ih =>
    rw [replayBooks_cons, ih fun v hv => h v (by simp [hv]),
      Write.applyBooks_entries (h w (by simp))]

/-- Writes that settle no entry add nothing, where those they mark have not been settled. -/
theorem settledSum_settlesNone {ws : List Write} (h : ∀ w ∈ ws, w.settlesNone = true) {b : Books}
    (hb : ∀ id status, .setEntryStatus id status ∈ ws → ∀ e ∈ b.entries, e.id = id →
      e.status ≠ .success) (id : Id) (c : String) :
    (replayBooks ws b).settledSum id c = b.settledSum id c := by
  induction ws generalizing b with
  | nil => rfl
  | cons w ws ih =>
    rw [replayBooks_cons]
    have hw := h w (by simp)
    by_cases hoff : w.offEntries = true
    · have hsame := Write.applyBooks_entries hoff b
      rw [ih fun v hv => h v (by simp [hv]), Books.settledSum_congr hsame]
      intro k status hmem e he
      rw [hsame] at he
      exact hb k status (by simp [hmem]) e he
    · cases w with
      | setEntryStatus k status =>
        obtain rfl : status = .failed := of_decide_eq_true hw
        have hunsettled := hb k .failed (by simp)
        rw [ih fun v hv => h v (by simp [hv])]
        · refine tally_modify_of_not fun e he hk => ⟨⟨fun hp => ?_, fun hp => ?_⟩, fun _ => rfl⟩
          · exact absurd hp.2.2 (hunsettled e he hk)
          · cases hp.2.2
        · intro k' status' hmem e he hid
          obtain ⟨x, hx, rfl⟩ := mem_modify.1 he
          split
          · exact fun h => nomatch h
          · rename_i hne
            rw [if_neg hne] at hid
            exact hb k' status' (by simp [hmem]) x hx hid
      | addEntry e => cases hw
      | _ => exact absurd rfl hoff

/-- What the entry of a settled line adds once it is marked as settled. -/
theorem settledSum_setEntry {b : Books} (hids : (b.entries.map LedgerEntry.id).Nodup)
    {e : LedgerEntry} (he : e ∈ b.entries) (hpending : e.status = .pending) (id : Id) (c : String) :
    (b.setEntry e.id .success).settledSum id c =
      b.settledSum id c + LedgerEntry.settles { e with status := .success } id c := by
  have hflip := tally_modify (p := fun e : LedgerEntry => e.transactionId = id ∧ e.currency = c ∧
    e.status = .success) (f := LedgerEntry.amount)
    (g := fun e : LedgerEntry => { e with status := .success }) hids he rfl
  have hnot : ¬ (e.transactionId = id ∧ e.currency = c ∧ e.status = .success) := by
    rw [hpending]
    exact fun h => nomatch h.2.2
  rw [if_neg hnot] at hflip
  exact (add_zero _).symm.trans hflip

theorem replayBooks_ids (ws : List Write) (b : Books) :
    (replayBooks ws b).entries.map LedgerEntry.id =
      b.entries.map LedgerEntry.id ++ (drafts ws).map LedgerEntry.id := by
  induction ws generalizing b with
  | nil => simp [drafts]
  | cons w ws ih =>
    rw [replayBooks_cons, ih, ← List.singleton_append (l := ws), drafts_append, List.map_append,
      ← List.append_assoc]
    congr 1
    cases w with
    | setEntryStatus id status =>
      have hsame : (modify LedgerEntry.id id (fun e => { e with status := status })
          b.entries).map LedgerEntry.id = b.entries.map LedgerEntry.id := map_modify fun _ => rfl
      rw [drafts, List.filterMap_cons_none rfl, List.filterMap_nil, List.map_nil, List.append_nil]
      exact hsame
    | _ => simp [Write.applyBooks, drafts]

theorem replayBooks_ruled {ws : List Write} {b : Books} (hb : ∀ e ∈ b.entries, e.Ruled)
    (hws : ∀ e ∈ drafts ws, e.Ruled) : ∀ e ∈ (replayBooks ws b).entries, e.Ruled := by
  induction ws generalizing b with
  | nil => exact hb
  | cons w ws ih =>
    refine ih (fun e he => ?_) fun e he => hws e ?_
    · cases w with
      | addEntry x =>
        rcases List.mem_append.1 he with he | he
        · exact hb e he
        · rw [List.mem_singleton.1 he]
          exact hws x (mem_drafts.2 (by simp))
      | setEntryStatus id status =>
        obtain ⟨x, hx, rfl⟩ := mem_modify.1 he
        have hr := hb x hx
        split
        · exact ⟨hr.code, hr.amount, hr.debit, hr.credit, hr.written⟩
        · exact hr
      | _ => exact hb e he
    · rw [mem_drafts] at he ⊢
      exact List.mem_cons_of_mem _ he

/-! ## What a session will add -/

/-- A session commits its writes only while the entries whose status they set still wait. -/
def Timely {ι : Type} (i : ι) (r : Request) (s : Shared ι) : Prop :=
  r = .commit → ∀ w ∈ (s.sessions i).writes, w.Timely s.store.db.books

instance {ι : Type} (i : ι) (r : Request) (s : Shared ι) : Decidable (Timely i r s) :=
  inferInstanceAs (Decidable (r = .commit → ∀ w ∈ (s.sessions i).writes,
    w.Timely s.store.db.books))

namespace Shared

variable {ι : Type} {s t : Shared ι} {i j : ι} {x : Id → String → Decimal}

/-- Whenever session `i` commits its writes, they add `x` to the settled entries. -/
structure Adds (s : Shared ι) (i : ι) (x : Id → String → Decimal) : Prop where
  ruled : ∀ e ∈ drafts (s.sessions i).writes, e.Ruled
  sums : ∀ b : Books, s.store.db.books.Keeps b → (b.entries.map LedgerEntry.id).Nodup →
    (∀ w ∈ (s.sessions i).writes, w.Timely b) → ∀ id c,
      (replayBooks (s.sessions i).writes b).settledSum id c = b.settledSum id c + x id c

/-- They add nothing. -/
abbrev Neutral (s : Shared ι) (i : ι) : Prop := s.Adds i 0

/-- The session has written nothing to the entries. -/
def Blank (s : Shared ι) (i : ι) : Prop :=
  ∀ w ∈ (s.sessions i).writes, w.offEntries = true

/-- It has settled no entry. -/
def SettlesNone (s : Shared ι) (i : ι) : Prop :=
  ∀ w ∈ (s.sessions i).writes, w.settlesNone = true

theorem Blank.settlesNone (h : s.Blank i) : s.SettlesNone i := fun w hw =>
  Write.settlesNone_of_offEntries (h w hw)

theorem SettlesNone.neutral (h : s.SettlesNone i) : s.Neutral i where
  ruled e he := by
    have hnone := h _ (mem_drafts.1 he)
    cases hnone
  sums b _ _ hws id c := by
    rw [Pi.zero_apply, Pi.zero_apply, add_zero]
    refine settledSum_settlesNone h (fun k status hmem e he hk => ?_) id c
    have hpending : e.status = .pending := hws _ hmem e he hk
    rw [hpending]
    exact fun h => nomatch h

theorem Blank.neutral (h : s.Blank i) : s.Neutral i := h.settlesNone.neutral

theorem blank_of_nil (h : (s.sessions i).writes = []) : s.Blank i := by
  intro w hw
  rw [h] at hw
  cases hw

/-- A session that has written nothing to the entries sees those that are committed. -/
theorem Blank.view (h : s.Blank i) : (s.conn i).view.books.entries = s.store.db.books.entries := by
  unfold Conn.view
  rw [replay_books]
  exact replayBooks_offEntries h _

/-- What a session will add does not depend on what the others commit. -/
theorem Adds.later (h : s.Adds i x) (hsession : t.sessions i = s.sessions i)
    (hkeeps : s.store.db.books.Keeps t.store.db.books) : t.Adds i x := by
  refine ⟨?_, fun b hb => ?_⟩
  · rw [hsession]
    exact h.ruled
  · rw [hsession]
    exact h.sums b (hkeeps.trans hb)

/-- A write that leaves the entries alone adds nothing. -/
theorem Adds.wrote (h : s.Adds i x) {w : Write} (hw : w.offEntries = true)
    (hwrites : (t.sessions i).writes = (s.sessions i).writes ++ [w])
    (hdb : t.store.db = s.store.db) : t.Adds i x := by
  refine ⟨fun e he => ?_, fun b hb hids hws id c => ?_⟩
  · rw [hwrites, drafts_append] at he
    rcases List.mem_append.1 he with he | he
    · exact h.ruled e he
    · rw [mem_drafts, List.mem_singleton] at he
      rw [← he] at hw
      cases hw
  · rw [hwrites] at hws ⊢
    rw [hdb] at hb
    rw [replayBooks_concat, Books.settledSum_congr (Write.applyBooks_entries hw _)]
    exact h.sums b hb hids (fun v hv => hws v (List.mem_append_left _ hv)) id c

/-- An entry adds its amount, if it is settled. -/
theorem Adds.drafted (h : s.Adds i x) {e : LedgerEntry} (he : e.Ruled)
    (hwrites : (t.sessions i).writes = (s.sessions i).writes ++ [.addEntry e])
    (hdb : t.store.db = s.store.db) : t.Adds i (x + e.settles) := by
  refine ⟨fun f hf => ?_, fun b hb hids hws id c => ?_⟩
  · rw [hwrites, drafts_append] at hf
    rcases List.mem_append.1 hf with hf | hf
    · exact h.ruled f hf
    · rw [mem_drafts, List.mem_singleton] at hf
      cases hf
      exact he
  · rw [hwrites] at hws ⊢
    rw [hdb] at hb
    have hsum := h.sums b hb hids (fun v hv => hws v (List.mem_append_left _ hv)) id c
    rw [Pi.add_apply, Pi.add_apply, ← add_assoc, ← hsum, replayBooks_concat]
    show tally _ _ ((replayBooks (s.sessions i).writes b).entries ++ [e]) = _
    rw [tally_append, tally_cons, tally_nil, add_zero]
    rfl

/-- A reserved debit adds its amount once it is marked as settled, as long as it waits then. -/
theorem Blank.settled (h : s.Blank i) {b₀ : Books} (hb₀ : b₀.Keeps s.store.db.books)
    {e : LedgerEntry} (he : e ∈ b₀.entries)
    (hwrites : (t.sessions i).writes = (s.sessions i).writes ++ [.setEntryStatus e.id .success])
    (hdb : t.store.db = s.store.db) :
    t.Adds i (LedgerEntry.settles { e with status := .success }) := by
  refine ⟨fun f hf => ?_, fun b hb hids hws id c => ?_⟩
  · rw [hwrites, drafts_append] at hf
    rcases List.mem_append.1 hf with hf | hf
    · exact h.neutral.ruled f hf
    · rw [mem_drafts, List.mem_singleton] at hf
      cases hf
  · rw [hwrites] at hws ⊢
    rw [hdb] at hb
    obtain ⟨f, hf, hkept⟩ := (hb₀.trans hb).entries.exists_of_mem he
    have hid : f.id = e.id := by rw [hkept]
    have hpending : f.status = .pending := hws (.setEntryStatus e.id .success) (by simp) f hf hid
    have hsettles : LedgerEntry.settles { f with status := .success } =
        LedgerEntry.settles { e with status := .success } := by rw [hkept]
    have hset := settledSum_setEntry hids hf hpending id c
    rw [hsettles, hid] at hset
    rw [← hset, replayBooks_concat]
    refine Books.settledSum_congr ?_ id c
    show modify _ _ _ (replayBooks (s.sessions i).writes b).entries = _
    rw [replayBooks_offEntries h]
    rfl

/-! ## Identifiers -/

/-- The identifiers of the committed entries, and of those each session has added. -/
def idLog (s : Shared ι) : DraftLog ι Id :=
  ⟨s.store.db.books.entries.map LedgerEntry.id,
    fun i => (drafts (s.sessions i).writes).map LedgerEntry.id, s.store.seqs.nextId⟩

theorem idLog_start {st : Store} (h : st.db.books.Keyed st.seqs) :
    (start st : Shared ι).idLog.Distinct id where
  lt k hk := by
    obtain hk | ⟨i, hk⟩ := hk
    · obtain ⟨e, he, rfl⟩ := List.mem_map.1 hk
      exact h.entryIds_lt e he
    · cases hk
  nodup i := by
    show ((st.db.books.entries.map LedgerEntry.id ++ []).map id).Nodup
    rw [List.append_nil, List.map_id]
    exact h.entryIds
  apart i j _ k hk := by cases hk

end Shared

/-- The entry that a statement adds has the next identifier. -/
theorem Mutation.draft_id {cfg : Config} {seqs : Sequences} {db : Database} {m : Mutation}
    {v : m.Result} {e : LedgerEntry} (h : m.exec cfg seqs db = .ok (v, .addEntry e)) :
    e.id = seqs.nextId ∧ seqs.nextId < (m.advance seqs).nextId := by
  cases m with
  | insertEntry accountId transactionId amount entryType status currency =>
    obtain ⟨stored, -, -, -, hw⟩ := exec_insertEntry h
    cases hw
    exact ⟨rfl, Nat.lt_succ_self _⟩
  | _ =>
    unfold exec at h
    dsimp only at h
    repeat' split at h
    all_goals cases h

namespace Shared

variable {ι : Type} [DecidableEq ι] {cfg : Config} {s t : Shared ι} {i j : ι} {r : Request}

/-- A request of a session is a step of the log of the identifiers. -/
theorem idLog_step (cfg : Config) (s : Shared ι) (i : ι) (r : Request) :
    s.idLog.Step id i (s.after cfg i r).idLog := by
  have hothers : ∀ j, j ≠ i → (s.after cfg i r).idLog.drafts j = s.idLog.drafts j := fun j hj =>
    congrArg (fun x : Session => (drafts x.writes).map LedgerEntry.id) (sessions_after_of_ne hj)
  have hturn := turn_after cfg s i r
  refine ⟨?_, hothers, hturn.seqs_le.nextId⟩
  cases hturn with
  | kept _ hsession hdb _ =>
    exact .skip (congrArg (fun d : Database => d.books.entries.map LedgerEntry.id) hdb)
      (congrArg (fun x : Session => (drafts x.writes).map LedgerEntry.id) hsession)
  | wrote m v w _ _ hm hsession hdb hseqs =>
    have hpub : (s.after cfg i r).idLog.published = s.idLog.published :=
      congrArg (fun d : Database => d.books.entries.map LedgerEntry.id) hdb
    have hown : (s.after cfg i r).idLog.drafts i =
        s.idLog.drafts i ++ (drafts [w]).map LedgerEntry.id := by
      show (drafts ((s.after cfg i r).sessions i).writes).map LedgerEntry.id = _
      rw [hsession, drafts_append, List.map_append]
      rfl
    rcases Mutation.drafts_exec hm with ⟨e, he, -⟩ | he
    · have hw : .addEntry e ∈ [w] := mem_drafts.1 (he ▸ List.mem_singleton_self e)
      obtain rfl := List.mem_singleton.1 hw
      obtain ⟨hid, hlt⟩ := Mutation.draft_id hm
      rw [he, List.map_singleton] at hown
      refine .draft e.id hpub hown hid ?_
      show s.store.seqs.nextId < (s.after cfg i r).store.seqs.nextId
      rw [hseqs]
      exact hlt
    · exact .skip hpub (by rw [hown, he, List.map_nil, List.append_nil])
  | committed _ _ hsession hdb _ =>
    refine .publish ?_ ?_
    · show (s.after cfg i r).store.db.books.entries.map LedgerEntry.id = _
      rw [hdb, conn, Conn.view, replay_books]
      exact replayBooks_ids _ _
    · show (drafts ((s.after cfg i r).sessions i).writes).map LedgerEntry.id = _
      rw [hsession]
      rfl
  | dropped hwrites hdb _ =>
    refine .drop (congrArg (fun d : Database => d.books.entries.map LedgerEntry.id) hdb) ?_
    show (drafts ((s.after cfg i r).sessions i).writes).map LedgerEntry.id = _
    rw [hwrites]
    rfl

/-- A session that ends drops what it has added. -/
theorem idLog_finish : s.idLog.Step id i (s.finish i).idLog := by
  refine ⟨.drop rfl ?_, fun j hj => ?_, le_rfl⟩
  · show (drafts ((s.finish i).sessions i).writes).map LedgerEntry.id = []
    rw [finish_self]
    rfl
  · exact congrArg (fun x : Session => (drafts x.writes).map LedgerEntry.id)
      (finish_frame hj).session

end Shared

/-! ## The discipline -/

variable {ι : Type}

/-- The committed entries are balanced, and as the services write them. -/
structure Conserved (s : Shared ι) : Prop where
  balanced : s.store.db.books.Balanced
  ruled : ∀ e ∈ s.store.db.books.entries, e.Ruled
  ids : s.idLog.Distinct id

theorem conserved_start {st : Store} (h : st.Sound) : Conserved (Shared.start st : Shared ι) :=
  ⟨h.balanced, h.ruled, Shared.idLog_start h.keyed⟩

theorem Conserved.nodup {s : Shared ι} (h : Conserved s) (i : ι) :
    (s.store.db.books.entries.map LedgerEntry.id).Nodup := by
  have hids := h.ids.published i
  rwa [List.map_id] at hids

/-- The books stay conserved; each session relies on its own side being left alone, and on no
row being taken back. -/
def conserving (ι : Type) : Discipline ι (Shared ι) where
  inv := Conserved
  rely i s t := t.sessions i = s.sessions i ∧ s.store.db.books.Keeps t.store.db.books
  rely_refl _ _ := ⟨rfl, .refl _⟩
  rely_trans h h' := ⟨h'.1.trans h.1, h.2.trans h'.2⟩

variable [DecidableEq ι] {cfg : Config} {s t : Shared ι} {i : ι} {r : Request}

/-- Whatever a session asks, the others can go on relying on what they rely on. -/
theorem conserving_rely (cfg : Config) (s : Shared ι) (i : ι) (r : Request) {j : ι} (hj : j ≠ i) :
    (conserving ι).rely j s (s.after cfg i r) :=
  ⟨Shared.sessions_after_of_ne hj, Shared.keeps_after s i r⟩

/-- A turn that commits nothing. -/
theorem Conserved.keeps_idle (h : Conserved s) (hdb : (s.after cfg i r).store.db = s.store.db) :
    (conserving ι).Keeps i s (s.after cfg i r) := by
  refine ⟨⟨?_, ?_, h.ids.step (Shared.idLog_step cfg s i r)⟩,
    fun j hj => conserving_rely cfg s i r hj⟩
  · rw [hdb]
    exact h.balanced
  · rw [hdb]
    exact h.ruled

/-- A session may commit writes that add nothing. -/
theorem Conserved.keeps_commit (h : Conserved s) (hneutral : s.Neutral i)
    (htimely : Timely i .commit s) : (conserving ι).Keeps i s (s.after cfg i .commit) := by
  cases hfailed : (s.sessions i).failed with
  | true => exact h.keeps_idle (congrArg Store.db (Shared.after_commit_failed cfg hfailed).1)
  | false =>
    have hdb : (s.after cfg i .commit).store.db.books =
        replayBooks (s.sessions i).writes s.store.db.books := by
      rw [(Shared.after_commit cfg hfailed).1, Conn.view, replay_books]
      rfl
    refine ⟨⟨fun id c => ?_, ?_, h.ids.step (Shared.idLog_step cfg s i _)⟩,
      fun j hj => conserving_rely cfg s i _ hj⟩
    · have hsum := hneutral.sums _ (.refl _) (h.nodup i) (htimely rfl) id c
      rw [← hdb, Pi.zero_apply, Pi.zero_apply, add_zero] at hsum
      exact hsum.trans (h.balanced id c)
    · rw [hdb]
      exact replayBooks_ruled h.ruled hneutral.ruled

/-- A session that ends commits nothing. -/
theorem Conserved.keeps_finish (h : Conserved s) : (conserving ι).Keeps i s (s.finish i) :=
  ⟨⟨h.balanced, h.ruled, h.ids.step Shared.idLog_finish⟩,
    fun _ hj => ⟨(Shared.finish_frame hj).session, .refl _⟩⟩

end WalletLedger
