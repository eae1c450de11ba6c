import WalletLedger.Concurrent.Sessions
import WalletLedger.Lib.Drafts
import WalletLedger.Application.Balances

/-!
# The entries as a log with drafts

The pending writes of a session, table by table, and the log the sessions append to:
the committed entries are its published rows, the entries among a session's pending
writes are its drafts.

* `drafts`, `opened`, `cutting` — the entries, accounts and snapshots a session has
  added; what it sees is the committed rows followed by them.
* `Shared.Turn` — what one request does to the session that issues it, and
  `Shared.turn_after`: every request is one of these.
* `Shared.log`, `log_step` — one request of a session is a step of its log.
-/

namespace WalletLedger

/-! ## Pending rows -/

/-- The entries among the writes. -/
def drafts (ws : List Write) : List LedgerEntry :=
  ws.filterMap fun
    | .addEntry e => some e
    | _ => none

/-- The accounts among the writes. -/
def opened (ws : List Write) : List Account :=
  ws.filterMap fun
    | .addAccount a => some a
    | _ => none

/-- The snapshots among the writes. -/
def cutting (ws : List Write) : List BalanceSnapshot :=
  ws.filterMap fun
    | .addSnapshot x => some x
    | _ => none

/-- The write changes the status of an entry. -/
def Write.flips : Write → Bool
  | .setEntryStatus _ _ => true
  | _ => false

theorem drafts_append (ws vs : List Write) : drafts (ws ++ vs) = drafts ws ++ drafts vs :=
  List.filterMap_append

theorem opened_append (ws vs : List Write) : opened (ws ++ vs) = opened ws ++ opened vs :=
  List.filterMap_append

theorem cutting_append (ws vs : List Write) : cutting (ws ++ vs) = cutting ws ++ cutting vs :=
  List.filterMap_append

theorem mem_drafts {ws : List Write} {e : LedgerEntry} : e ∈ drafts ws ↔ .addEntry e ∈ ws := by
  unfold drafts
  rw [List.mem_filterMap]
  constructor
  · rintro ⟨w, hw, he⟩
    cases w <;> cases he
    exact hw
  · exact fun h => ⟨_, h, rfl⟩

theorem mem_opened {ws : List Write} {a : Account} : a ∈ opened ws ↔ .addAccount a ∈ ws := by
  unfold opened
  rw [List.mem_filterMap]
  constructor
  · rintro ⟨w, hw, ha⟩
    cases w <;> cases ha
    exact hw
  · exact fun h => ⟨_, h, rfl⟩

theorem mem_cutting {ws : List Write} {x : BalanceSnapshot} :
    x ∈ cutting ws ↔ .addSnapshot x ∈ ws := by
  unfold cutting
  rw [List.mem_filterMap]
  constructor
  · rintro ⟨w, hw, hx⟩
    cases w <;> cases hx
    exact hw
  · exact fun h => ⟨_, h, rfl⟩

theorem replayBooks_accounts (ws : List Write) (b : Books) :
    (replayBooks ws b).accounts = b.accounts ++ opened ws := by
  induction ws generalizing b with
  | nil => simp [opened]
  | cons w ws ih =>
    rw [replayBooks_cons, ih, ← List.singleton_append, opened_append, ← List.append_assoc]
    congr 1
    cases w <;> simp [Write.applyBooks, opened]

theorem replayBooks_snapshots (ws : List Write) (b : Books) :
    (replayBooks ws b).snapshots = b.snapshots ++ cutting ws := by
  induction ws generalizing b with
  | nil => simp [cutting]
  | cons w ws ih =>
    rw [replayBooks_cons, ih, ← List.singleton_append, cutting_append, ← List.append_assoc]
    congr 1
    cases w <;> simp [Write.applyBooks, cutting]

theorem replayBooks_entries {ws : List Write} (h : ∀ w ∈ ws, w.flips = false) (b : Books) :
    (replayBooks ws b).entries = b.entries ++ drafts ws := by
  induction ws generalizing b with
  | nil => simp [drafts]
  | cons w ws ih =>
    rw [replayBooks_cons, ih fun v hv => h v (by simp [hv]), ← List.singleton_append, drafts_append,
      ← List.append_assoc]
    congr 1
    have hw := h w (by simp)
    cases w <;> first | (simp [Write.applyBooks, drafts]; done) | cases hw

/-! ## One request -/

namespace Shared

variable {ι : Type} {cfg : Config} {s t : Shared ι} {i j : ι} {r : Request}

theorem view_accounts (s : Shared ι) (i : ι) :
    (s.conn i).view.books.accounts = s.store.db.books.accounts ++ opened (s.sessions i).writes := by
  unfold Conn.view
  rw [replay_books]
  exact replayBooks_accounts _ _

theorem view_snapshots (s : Shared ι) (i : ι) :
    (s.conn i).view.books.snapshots =
      s.store.db.books.snapshots ++ cutting (s.sessions i).writes := by
  unfold Conn.view
  rw [replay_books]
  exact replayBooks_snapshots _ _

theorem view_entries (h : ∀ w ∈ (s.sessions i).writes, w.flips = false) :
    (s.conn i).view.books.entries = s.store.db.books.entries ++ drafts (s.sessions i).writes := by
  unfold Conn.view
  rw [replay_books]
  exact replayBooks_entries h _

/-- What a request does to the session that issues it and to the committed rows. -/
inductive Turn (cfg : Config) (i : ι) (r : Request) (s t : Shared ι) : Prop
  /-- Nothing is written. -/
  | kept : ((s.sessions i).failed = true ∨ r.ends = false) → t.sessions i = s.sessions i →
      t.store.db = s.store.db → s.store.seqs.LE t.store.seqs → Turn cfg i r s t
  /-- A statement goes through. -/
  | wrote (m : Mutation) (v : m.Result) (w : Write) : r = .mutate m →
      (s.sessions i).failed = false → m.exec cfg s.store.seqs (s.conn i).view = .ok (v, w) →
      t.sessions i = ⟨(s.sessions i).writes ++ [w], false⟩ → t.store.db = s.store.db →
      t.store.seqs = m.advance s.store.seqs → Turn cfg i r s t
  /-- The writes are published. -/
  | committed : r = .commit → (s.sessions i).failed = false → t.sessions i = Session.fresh →
      t.store.db = (s.conn i).view → t.store.seqs = s.store.seqs → Turn cfg i r s t
  /-- The writes are lost. -/
  | dropped : (t.sessions i).writes = [] → t.store.db = s.store.db →
      s.store.seqs.LE t.store.seqs → Turn cfg i r s t

theorem Turn.seqs_le (h : Turn cfg i r s t) : s.store.seqs.LE t.store.seqs := by
  cases h with
  | kept _ _ _ hle => exact hle
  | wrote m v w _ _ _ _ _ hs => exact hs ▸ m.le_advance _
  | committed _ _ _ _ hs => exact hs ▸ ⟨le_rfl, le_rfl⟩
  | dropped _ _ hle => exact hle

variable [DecidableEq ι]

theorem turn_after (cfg : Config) (s : Shared ι) (i : ι) (r : Request) :
    Turn cfg i r s (s.after cfg i r) := by
  have hself : (s.after cfg i r).sessions i = (Conn.exec cfg r (s.conn i)).2.session := after_self
  cases Conn.turn_exec cfg r (s.conn i) with
  | kept hr hsession hdb hle =>
    refine .kept (hr.imp_right fun ⟨hcommit, hrollback⟩ => ?_) (hself.trans hsession) hdb hle
    cases r <;> first | rfl | contradiction
  | wrote m v w hr hf hm hsession hdb hs =>
    exact .wrote m v w hr hf hm (hself.trans hsession) hdb hs
  | committed hr hf hsession hdb hs => exact .committed hr hf (hself.trans hsession) hdb hs
  | dropped hwrites hdb hle => exact .dropped (hself ▸ hwrites) hdb hle

/-- A session keeps its locks while its transaction goes on. -/
theorem holds_after_self (hr : r.ends = false) (hf : ((s.after cfg i r).sessions i).failed = false)
    {row : Row} {m : LockMode} (h : s.locks.Holds i row m) :
    (s.after cfg i r).locks.Holds i row m := by
  rw [after_self] at hf
  show LockTable.Holds (ite _ _ _) _ _ _
  rw [if_neg (by simp [hr, hf])]
  exact LockTable.holds_grant_of_holds h

theorem sessions_after_of_ne (hj : j ≠ i) : (s.after cfg i r).sessions j = s.sessions j :=
  Function.update_of_ne hj _ _

/-! ## The log -/

omit [DecidableEq ι] in
/-- The committed entries and the entries each session has added. -/
def log (s : Shared ι) : DraftLog ι LedgerEntry :=
  ⟨s.store.db.books.entries, fun i => drafts (s.sessions i).writes, s.store.seqs.nextSeq⟩

omit [DecidableEq ι] in
/-- What a session sees of the log is what it sees of the table. -/
theorem log_seen (h : ∀ w ∈ (s.sessions i).writes, w.flips = false) :
    s.log.seen i = (s.conn i).view.books.entries := (view_entries h).symm

end Shared

/-- A statement adds one entry, at the next number, or none. -/
theorem Mutation.drafts_exec {cfg : Config} {seqs : Sequences} {db : Database} {m : Mutation}
    {v : m.Result} {w : Write} (h : m.exec cfg seqs db = .ok (v, w)) :
    (∃ e, drafts [w] = [e] ∧ e.seq = seqs.nextSeq ∧ seqs.nextSeq < (m.advance seqs).nextSeq) ∨
      drafts [w] = [] := by
  cases m with
  | insertAccount ownerId currency =>
    obtain ⟨-, rfl, -⟩ := exec_insertAccount h
    exact .inr rfl
  | insertTransaction type status amount currency details correlationId =>
    obtain ⟨_, -, -, rfl⟩ := exec_insertTransaction h
    exact .inr rfl
  | insertEntry accountId transactionId amount entryType status currency =>
    obtain ⟨stored, -, -, -, rfl⟩ := exec_insertEntry h
    exact .inl ⟨_, rfl, rfl, Nat.lt_succ_self _⟩
  | insertSnapshot accountId balance lastEntrySeq entryCount =>
    obtain ⟨_, -, rfl⟩ := exec_insertSnapshot h
    exact .inr rfl
  | updateEntryStatus id status => exact .inr (exec_updateEntryStatus h ▸ rfl)
  | updateTransactionStatus id status => exact .inr (exec_updateTransactionStatus h ▸ rfl)
  | updateReference id reference => exact .inr (exec_updateReference h ▸ rfl)
  | insertKey key requestHash =>
    have hw := exec_besideBooks h rfl
    cases w <;> first | exact .inr rfl | cases hw
  | completeKey id status body =>
    have hw := exec_besideBooks h rfl
    cases w <;> first | exact .inr rfl | cases hw
  | deleteKey id =>
    have hw := exec_besideBooks h rfl
    cases w <;> first | exact .inr rfl | cases hw
  | insertNotification channel recipient message eventType status correlationId =>
    have hw := exec_besideBooks h rfl
    cases w <;> first | exact .inr rfl | cases hw

namespace Shared

variable {ι : Type} [DecidableEq ι] {cfg : Config} {s t : Shared ι} {i j : ι} {r : Request}

/-- A request of a session is a step of its log. -/
theorem log_step (cfg : Config) (r : Request)
    (h : ∀ w ∈ (s.sessions i).writes, w.flips = false) :
    s.log.Step LedgerEntry.seq i (s.after cfg i r).log := by
  have hothers : ∀ j, j ≠ i → (s.after cfg i r).log.drafts j = s.log.drafts j := fun j hj =>
    congrArg (fun x : Session => drafts x.writes) (sessions_after_of_ne hj)
  have hturn := turn_after cfg s i r
  refine ⟨?_, hothers, hturn.seqs_le.nextSeq⟩
  cases hturn with
  | kept _ hsession hdb _ =>
    exact .skip (congrArg (fun d : Database => d.books.entries) hdb)
      (congrArg (fun x : Session => drafts x.writes) hsession)
  | wrote m v w _ _ hm hsession hdb hseqs =>
    have hpub : (s.after cfg i r).log.published = s.log.published :=
      congrArg (fun d : Database => d.books.entries) hdb
    have hown : (s.after cfg i r).log.drafts i = s.log.drafts i ++ drafts [w] := by
      show drafts ((s.after cfg i r).sessions i).writes = _
      rw [hsession]
      exact drafts_append _ _
    rcases Mutation.drafts_exec hm with ⟨e, he, hseq, hlt⟩ | he
    · refine .draft e hpub (he ▸ hown) hseq ?_
      show s.store.seqs.nextSeq < (s.after cfg i r).store.seqs.nextSeq
      rw [hseqs]
      exact hlt
    · exact .skip hpub (by rw [hown, he, List.append_nil])
  | committed _ _ hsession hdb _ =>
    refine .publish ?_ ?_
    · show (s.after cfg i r).store.db.books.entries = _
      rw [hdb]
      exact view_entries h
    · show drafts ((s.after cfg i r).sessions i).writes = _
      rw [hsession]
      rfl
  | dropped hwrites hdb _ =>
    refine .drop (congrArg (fun d : Database => d.books.entries) hdb) ?_
    show drafts ((s.after cfg i r).sessions i).writes = _
    rw [hwrites]
    rfl

/-- A session that ends drops its drafts. -/
theorem log_finish : s.log.Step LedgerEntry.seq i (s.finish i).log := by
  refine ⟨.drop rfl ?_, fun j hj => ?_, le_rfl⟩
  · show drafts ((s.finish i).sessions i).writes = []
    rw [finish_self]
    rfl
  · exact congrArg (fun x : Session => drafts x.writes) (finish_frame hj).session

end Shared

end WalletLedger
