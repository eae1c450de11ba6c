import WalletLedger.Models.Integrity
import WalletLedger.Lib.Interleave

/-!
# Sessions at the same time

Any number of sessions on one database, at READ COMMITTED: each sees the committed
rows and its own writes, its statements wait for the rows they lock, and its commit
publishes its writes and releases its locks.

* `Shared.exec` — one request of one session, on top of the session's own answer
  `Conn.exec`; `machine` makes it the environment of interleaved programs.
* `Shared.commits` and `Shared.asked` record what has been committed, by whom, and what
  each session has asked.  No program reads them.
* `after_frame`, `finish_frame` — what a turn leaves alone: the other sessions and the
  locks they hold.
* `untouched_of_reaches` — where a session stands that has asked nothing.
* `exclusive_of_reaches` — no two sessions ever hold conflicting locks.
-/

namespace WalletLedger

/-- The database, the sessions on it and the locks they hold. -/
structure Shared (ι : Type) where
  store : Store
  sessions : ι → Session
  locks : LockTable ι Row
  /-- The committed transactions and their owners, oldest first. -/
  commits : List (ι × List Write)
  /-- The requests each session has issued, oldest first. -/
  asked : ι → List Request

/-- The request ends the session's database transaction. -/
def Request.ends : Request → Bool
  | .commit => true
  | .rollback => true
  | _ => false

namespace Shared

variable {ι : Type}

/-- No session has done anything yet. -/
def start (s : Store) : Shared ι := ⟨s, fun _ => Session.fresh, [], [], fun _ => []⟩

/-- The session's own side of the database. -/
def conn (s : Shared ι) (i : ι) : Conn := ⟨s.store, s.sessions i⟩

/-- The rows the request locks; a failed session is refused before it locks anything. -/
def wanted (cfg : Config) (s : Shared ι) (i : ι) (r : Request) : List (Row × LockMode) :=
  if (s.sessions i).failed then [] else r.locks cfg (s.conn i)

variable [DecidableEq ι]

/-- The state after the session's request has been answered. -/
def after (cfg : Config) (s : Shared ι) (i : ι) (r : Request) : Shared ι :=
  let c := (Conn.exec cfg r (s.conn i)).2
  { store := c.store
    sessions := Function.update s.sessions i c.session
    locks := if r.ends || c.session.failed then s.locks.release i
      else s.locks.grant i (s.wanted cfg i r)
    commits := if r = .commit ∧ (s.sessions i).failed = false then
        s.commits ++ [(i, (s.sessions i).writes)]
      else s.commits
    asked := Function.update s.asked i (s.asked i ++ [r]) }

/-- A request of a session: it waits while another session holds a row it locks. -/
def exec (cfg : Config) (i : ι) (r : Request) (s : Shared ι) : Option (r.Answer × Shared ι) :=
  if s.locks.blocked i (s.wanted cfg i r) then none
  else some ((Conn.exec cfg r (s.conn i)).1, s.after cfg i r)

/-- The session is closed: what it has not committed is lost. -/
def finish (i : ι) (s : Shared ι) : Shared ι :=
  { s with
    sessions := Function.update s.sessions i Session.fresh
    locks := s.locks.release i }

end Shared

/-- The database as the environment of interleaved programs. -/
def machine (ι : Type) [DecidableEq ι] (cfg : Config) :
    Machine ι Request Request.Answer (Shared ι) :=
  ⟨fun i r s => s.exec cfg i r, Shared.finish⟩

namespace Shared

variable {ι : Type} [DecidableEq ι] {cfg : Config} {s t : Shared ι} {i j : ι} {r : Request}

theorem exec_eq_some {v : r.Answer} (h : s.exec cfg i r = some (v, t)) :
    s.locks.blocked i (s.wanted cfg i r) = false ∧ v = (Conn.exec cfg r (s.conn i)).1 ∧
      t = s.after cfg i r := by
  unfold exec at h
  split at h
  · cases h
  · rename_i hb
    obtain ⟨rfl, rfl⟩ := Prod.mk.inj (Option.some.inj h)
    exact ⟨by simpa using hb, rfl, rfl⟩

@[simp] theorem after_store : (s.after cfg i r).store = (Conn.exec cfg r (s.conn i)).2.store := rfl

@[simp] theorem after_self :
    (s.after cfg i r).sessions i = (Conn.exec cfg r (s.conn i)).2.session :=
  Function.update_self _ _ _

@[simp] theorem after_asked : (s.after cfg i r).asked i = s.asked i ++ [r] :=
  Function.update_self _ _ _

@[simp] theorem after_conn : (s.after cfg i r).conn i = (Conn.exec cfg r (s.conn i)).2 := by
  show (⟨(s.after cfg i r).store, (s.after cfg i r).sessions i⟩ : Conn) = _
  rw [after_self, after_store]

/-- What a turn of session `i` leaves alone of session `j`: its writes, its requests and
the locks it holds. -/
structure Frame (j : ι) (s t : Shared ι) : Prop where
  session : t.sessions j = s.sessions j
  asked : t.asked j = s.asked j
  holds : ∀ {row : Row} {m : LockMode}, s.locks.Holds j row m → t.locks.Holds j row m

omit [DecidableEq ι] in
theorem Frame.refl (j : ι) (s : Shared ι) : Frame j s s := ⟨rfl, rfl, id⟩

omit [DecidableEq ι] in
theorem Frame.trans {u : Shared ι} (h : Frame j s t) (h' : Frame j t u) : Frame j s u :=
  ⟨h'.session.trans h.session, h'.asked.trans h.asked, fun hl => h'.holds (h.holds hl)⟩

theorem after_frame (hij : j ≠ i) : Frame j s (s.after cfg i r) := by
  refine ⟨Function.update_of_ne hij _ _, Function.update_of_ne hij _ _, fun hl => ?_⟩
  show LockTable.Holds (ite _ _ _) _ _ _
  split
  · exact (LockTable.holds_release_iff hij).2 hl
  · exact (LockTable.holds_grant_iff_of_ne hij).2 hl

theorem finish_frame (hij : j ≠ i) : Frame j s (s.finish i) :=
  ⟨Function.update_of_ne hij _ _, rfl, fun hl => (LockTable.holds_release_iff hij).2 hl⟩

@[simp] theorem finish_self : (s.finish i).sessions i = Session.fresh :=
  Function.update_self _ _ _

/-- A request other than a commit leaves the committed rows alone. -/
theorem after_db (hr : r ≠ .commit) : (s.after cfg i r).store.db = s.store.db := by
  show (Conn.exec cfg r (s.conn i)).2.store.db = (s.conn i).store.db
  cases r with
  | select q => rw [Conn.exec_select]; split <;> rfl
  | mutate m => rw [Conn.exec_mutate]; split; rfl; split <;> rfl
  | commit => exact absurd rfl hr
  | rollback => rfl
  | uuid4 => rfl
  | cacheGet a => rfl
  | cacheSet a amount => rfl
  | cacheDelete a => rfl

theorem after_commits (hr : r ≠ .commit) : (s.after cfg i r).commits = s.commits :=
  if_neg fun h => hr h.1

/-- A commit on a session that answers publishes its writes. -/
theorem after_commit (cfg : Config) (hs : (s.sessions i).failed = false) :
    (s.after cfg i .commit).store.db = (s.conn i).view ∧
      (s.after cfg i .commit).commits = s.commits ++ [(i, (s.sessions i).writes)] := by
  refine ⟨?_, if_pos ⟨rfl, hs⟩⟩
  rw [after_store, Conn.exec_commit, if_neg]
  · rfl
  · simp [conn, hs]

/-- A failed session commits nothing. -/
theorem after_commit_failed (cfg : Config) (hs : (s.sessions i).failed = true) :
    (s.after cfg i .commit).store = s.store ∧ (s.after cfg i .commit).commits = s.commits := by
  refine ⟨?_, if_neg (by simp [hs])⟩
  rw [after_store, Conn.exec_commit, if_pos]
  · rfl
  · exact hs

end Shared

section

variable {ι : Type} [DecidableEq ι] {cfg : Config} {ε α : Type}
  {C : ι → Request → Shared ι → Prop}

/-- A session that has asked nothing stands at the first request of its program. -/
theorem untouched_of_reaches {s₀ : Store} {progs : ι → Program Request Request.Answer ε α}
    (hcall : ∀ i, ∃ r k, progs i = .call r k) {w : World ι Request Request.Answer ε α (Shared ι)}
    (h : Reaches (machine ι cfg) C (World.start (Shared.start s₀) progs) w) {i : ι}
    (hi : w.shared.asked i = []) :
    w.tasks i = .running (progs i) ∧ w.shared.sessions i = Session.fresh := by
  induction h with
  | start => exact ⟨rfl, rfl⟩
  | @step w w' j _ _ hs ih =>
    have others : ∀ {t : Shared ι} {T : Task Request Request.Answer ε α}, w.shared.Frame i t →
        i ≠ j → t.asked i = [] → Function.update w.tasks j T i = .running (progs i) ∧
          t.sessions i = Session.fresh := by
      intro t T hframe hij hi
      obtain ⟨htask, hsession⟩ := ih (hframe.asked ▸ hi)
      exact ⟨by rw [Function.update_of_ne hij, htask], hframe.session.trans hsession⟩
    obtain ⟨r, k, hp⟩ := hcall i
    unfold World.step at hs
    by_cases hij : i = j
    · subst hij
      split at hs
      · cases hs
      · rename_i a hT
        cases hs
        rw [(ih hi).1, hp] at hT
        cases hT
      · rename_i e hT
        cases hs
        rw [(ih hi).1, hp] at hT
        cases hT
      · obtain ⟨⟨v, t⟩, hx, rfl⟩ := Option.map_eq_some_iff.1 hs
        obtain ⟨-, -, rfl⟩ := Shared.exec_eq_some hx
        have happend : w.shared.asked i ++ [_] = [] := Shared.after_asked.symm.trans hi
        simp at happend
    · split at hs
      · cases hs
      · cases hs
        exact others (Shared.finish_frame hij) hij hi
      · cases hs
        exact others (Shared.finish_frame hij) hij hi
      · obtain ⟨⟨v, t⟩, hx, rfl⟩ := Option.map_eq_some_iff.1 hs
        obtain ⟨-, -, rfl⟩ := Shared.exec_eq_some hx
        exact others (Shared.after_frame hij) hij hi

/-! ## Locks -/

theorem Shared.exclusive_after {s : Shared ι} {i : ι} {r : Request} (h : s.locks.Exclusive)
    (hb : s.locks.blocked i (s.wanted cfg i r) = false) : (s.after cfg i r).locks.Exclusive := by
  show LockTable.Exclusive (ite _ _ _)
  split
  · exact LockTable.exclusive_release h i
  · exact LockTable.exclusive_grant h hb

/-- No two sessions ever hold conflicting locks. -/
theorem exclusive_of_reaches {w₀ w : World ι Request Request.Answer ε α (Shared ι)}
    (h₀ : w₀.shared.locks.Exclusive) (h : Reaches (machine ι cfg) C w₀ w) :
    w.shared.locks.Exclusive := by
  refine h.invariant (I := fun s => s.locks.Exclusive) (fun i r s v t hs _ hx => ?_)
    (fun i s hs => LockTable.exclusive_release hs i) h₀
  obtain ⟨hb, -, rfl⟩ := Shared.exec_eq_some hx
  exact Shared.exclusive_after hs hb

end

end WalletLedger
