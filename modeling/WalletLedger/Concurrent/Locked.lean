import WalletLedger.Concurrent.Guarded

/-!
# Operations that decide under a lock

Sessions that compete for one decision, each of which takes the same row lock before it
reads what it decides on, and keeps it to its commit.  Whoever holds the lock finds the
books as nobody will change them but itself, so at most one session commits, on the
books every session started from, and a session that has not committed has not returned.

* `Decides` — what is asked of a session's program: its first request locks the row, or
  the program gives up on what it has read.
* `locked` — the discipline: the holder of the lock relies on the books being left alone.
* `Deciding` — where a session is: before its lock, under it, or done.
* `decided_of_reaches` — the theorem, for every interleaving.
-/

namespace WalletLedger

variable {ι : Type} {cfg : Config} {α : Type} {b₀ : Books} {Eff : ι → Books → Prop}
  {G : Books → Prop} {row : Row} {s t : Shared ι} {i j : ι}

/-- The program starts with a query that locks the row.  On every database the sessions
may find, it either gives up on the answer or has found the guard true, and it returns
only after a commit. -/
def Decides (row : Row) (G Found : Books → Prop) (p : App α) : Prop :=
  Committing p ∧ ∃ q k, p = .call (.select q) k ∧ ∀ db, Found db.books →
      (∃ e, k (.ok (q.eval db)) = .raise e) ∨ ((row, .update) ∈ q.locks db ∧ G db.books)

/-- The books the sessions may find: those they started from, or what one has made of
them. -/
def Found (b₀ : Books) (Eff : ι → Books → Prop) (b : Books) : Prop := b = b₀ ∨ ∃ i, Eff i b

theorem Once.found (h : Once b₀ Eff s) : Found b₀ Eff s.store.db.books := by
  cases h with
  | untouched _ hb => exact .inl hb
  | committed i _ _ he => exact .inr ⟨i, he⟩

/-- The session has committed writes to the books. -/
def Shared.Decided (s : Shared ι) (i : ι) : Prop := ∃ ws, (i, ws) ∈ s.effects

/-- The books change once, and whoever holds the lock relies on their being left alone. -/
def locked (ι : Type) (row : Row) (b₀ : Books) (Eff : ι → Books → Prop) :
    Discipline ι (Shared ι) where
  inv s := s.locks.Exclusive ∧ Once b₀ Eff s
  rely i s t := s.Frame i t ∧ (s.Decided i → t.Decided i) ∧
    (s.locks.Holds i row .update → t.effects = s.effects ∧ t.store.db.books = s.store.db.books)
  rely_refl i s := ⟨.refl i s, id, fun _ => ⟨rfl, rfl⟩⟩
  rely_trans := by
    rintro i s t u ⟨hf, hd, hb⟩ ⟨hf', hd', hb'⟩
    refine ⟨hf.trans hf', hd' ∘ hd, fun hl => ?_⟩
    obtain ⟨he, hbooks⟩ := hb hl
    obtain ⟨he', hbooks'⟩ := hb' (hf.holds hl)
    exact ⟨he'.trans he, hbooks'.trans hbooks⟩

/-- Where a session is, with what is left of its program. -/
inductive Deciding (cfg : Config) (row : Row) (b₀ : Books) (Eff : ι → Books → Prop)
    (G : Books → Prop) (i : ι) (p : App α) (s : Shared ι) : Prop
  /-- It has asked nothing yet. -/
  | waiting : s.sessions i = Session.fresh → Decides row G (Found b₀ Eff) p →
      Commits cfg (Eff i) p b₀ → Deciding cfg row b₀ Eff G i p s
  /-- It holds the lock, and nobody has committed. -/
  | holding : s.locks.Holds i row .update → s.effects = [] → G s.store.db.books →
      (s.sessions i).failed = false → Committing p → Commits cfg (Eff i) p (s.conn i).view.books →
      Deciding cfg row b₀ Eff G i p s
  /-- It has committed, or raises. -/
  | done : Harmless p → (s.sessions i).Beside → (s.Decided i ∨ ∃ e, p = .raise e) →
      Deciding cfg row b₀ Eff G i p s

theorem deciding_stable (p : App α) :
    (locked ι row b₀ Eff).Stable i (Deciding cfg row b₀ Eff G i p) := by
  rintro s t ⟨hf, hd, hb⟩ _ h
  cases h with
  | waiting hs hp hc => exact .waiting (hf.session.trans hs) hp hc
  | holding hl he hG hs hp hc =>
    obtain ⟨he', hb'⟩ := hb hl
    refine .holding (hf.holds hl) (he'.trans he) (hb' ▸ hG) (hf.session ▸ hs) hp ?_
    rwa [hf.view_books hb']
  | done hp hs h => exact .done hp (hf.session ▸ hs) (h.imp_left hd)

variable [DecidableEq ι]

/-- A turn that commits nothing to the books keeps the discipline. -/
theorem locked_keeps_of_ineffective {r : Request} (hinv : (locked ι row b₀ Eff).inv s)
    (hb : s.locks.blocked i (s.wanted cfg i r) = false)
    (h : r = .commit → effective (s.sessions i).writes = false) :
    (locked ι row b₀ Eff).Keeps i s (s.after cfg i r) := by
  obtain ⟨heff, hbooks⟩ := effects_after cfg h
  refine ⟨⟨Shared.exclusive_after hinv.1 hb, hinv.2.congr hbooks heff⟩, fun j hj =>
    ⟨Shared.after_frame hj, fun ⟨ws, hws⟩ => ⟨ws, heff ▸ hws⟩, fun _ => ⟨heff, hbooks⟩⟩⟩

/-- The first request: the session takes the lock, or gives up. -/
theorem deciding_after_query {q : Query} {k : (Request.select q).Answer → App α}
    (hG : ∀ i b, Eff i b → ¬ G b) (hinv : Once b₀ Eff s) (hs : s.sessions i = Session.fresh)
    (hcommit : Committing (.call (.select q) k))
    (hq : ∀ db, Found b₀ Eff db.books →
      (∃ e, k (.ok (q.eval db)) = .raise e) ∨ ((row, .update) ∈ q.locks db ∧ G db.books))
    (hc : Commits cfg (Eff i) (.call (.select q) k) b₀) :
    Deciding cfg row b₀ Eff G i (k (Conn.exec cfg (.select q) (s.conn i)).1)
      (s.after cfg i (.select q)) := by
  have hview : (s.conn i).view = s.store.db := by
    unfold Conn.view Shared.conn
    rw [hs]
    rfl
  have hexec : Conn.exec cfg (.select q) (s.conn i) = (.ok (q.eval s.store.db), s.conn i) := by
    rw [Conn.exec_select, hview]
    simp [Shared.conn, hs, Session.fresh]
  have hsession : (s.after cfg i (.select q)).sessions i = Session.fresh := by
    rw [Shared.after_self, hexec]
    exact hs
  obtain ⟨heff, hbooks⟩ := effects_after cfg (s := s) (i := i) (r := .select q) (by simp)
  rw [hexec]
  rcases hq _ hinv.found with ⟨e, he⟩ | ⟨hrow, hguard⟩
  · rw [he]
    exact .done trivial (hsession ▸ Session.beside_nil false) (.inr ⟨e, rfl⟩)
  · cases hinv with
    | committed j ws _ hj => exact absurd hguard (hG j _ hj)
    | untouched hnone hb =>
      have hlocks : (s.after cfg i (.select q)).locks = s.locks.grant i (q.locks s.store.db) := by
        show ite _ _ _ = _
        rw [hexec, if_neg (by simp [Request.ends, Shared.conn, hs, Session.fresh])]
        simp [Shared.wanted, hs, Session.fresh, Request.locks, hview]
      refine .holding ?_ (heff.trans hnone) (hbooks ▸ hguard) (by rw [hsession]; rfl)
        (hcommit.2.2 (by simp) _) ?_
      · rw [hlocks]
        exact LockTable.holds_grant hrow
      · rw [Shared.after_conn, hexec, hview, hb]
        have hans : Answers cfg (.select q) b₀ (q.eval s.store.db) b₀ := by
          rw [← hb]
          exact .select s.store.db.keys s.store.db.notifications
        exact hc.2.2.2 _ _ hans

/-- A request under the lock, before the commit. -/
theorem deciding_after_request {r : Request} {k : r.Answer → App α} (hr : r ≠ .commit)
    (hl : s.locks.Holds i row .update) (hnone : s.effects = []) (hguard : G s.store.db.books)
    (hs : (s.sessions i).failed = false) (hp : Committing (.call r k))
    (hc : Commits cfg (Eff i) (.call r k) (s.conn i).view.books) :
    Deciding cfg row b₀ Eff G i (k (Conn.exec cfg r (s.conn i)).1) (s.after cfg i r) := by
  obtain ⟨hrollback, herror, hok⟩ := hp
  obtain ⟨heff, hbooks⟩ := effects_after cfg (s := s) (i := i) fun h => absurd h hr
  have hself : (s.after cfg i r).sessions i = (Conn.exec cfg r (s.conn i)).2.session :=
    Shared.after_self
  cases hx : Conn.exec cfg r (s.conn i) with
  | mk v c' =>
    rw [hx] at hself
    cases v with
    | error e =>
      obtain ⟨-, hsession⟩ := Conn.exec_error hx hs
      obtain ⟨x, hx'⟩ := herror e
      rw [hx']
      refine .done trivial ?_ (.inr ⟨x, rfl⟩)
      rw [hself, hsession]
      exact Session.beside_nil true
    | ok v =>
      obtain ⟨hans, -, hsession⟩ := answers_of_exec hx ⟨hr, hrollback⟩
      have hfailed : c'.session.failed = false := by
        rcases hsession with h | h
        · rw [h]
          exact hs
        · exact h
      refine .holding ?_ (heff.trans hnone) (hbooks ▸ hguard) (hself ▸ hfailed) (hok hr v) ?_
      · show LockTable.Holds (ite _ _ _) _ _ _
        have hends : r.ends = false := by
          cases r <;> first | rfl | exact absurd rfl hr | exact absurd rfl hrollback
        rw [hx, if_neg (by simp [hends, hfailed])]
        exact LockTable.holds_grant_of_holds hl
      · rw [Shared.after_conn, hx]
        exact hc.2.2.2 v _ hans

/-- The commit under the lock. -/
theorem deciding_after_commit {k : (Request.commit).Answer → App α} (hG : ∀ i b, Eff i b → ¬ G b)
    (hinv : (locked ι row b₀ Eff).inv s)
    (hb : s.locks.blocked i (s.wanted cfg i .commit) = false)
    (hl : s.locks.Holds i row .update) (hnone : s.effects = []) (hguard : G s.store.db.books)
    (hs : (s.sessions i).failed = false)
    (hc : Commits cfg (Eff i) (.call .commit k) (s.conn i).view.books) :
    (locked ι row b₀ Eff).Keeps i s (s.after cfg i .commit) ∧
      Deciding cfg row b₀ Eff G i (k (Conn.exec cfg .commit (s.conn i)).1)
        (s.after cfg i .commit) := by
  obtain ⟨heffect, hk⟩ := hc.1 rfl
  -- the guard holds of the committed books and not of the view, so there is something to commit
  have he : effective (s.sessions i).writes = true := by
    by_contra hne
    rw [Bool.not_eq_true] at hne
    have hbeside : (s.conn i).session.Beside := effective_eq_false.1 hne
    rw [hbeside.view] at heffect
    exact hG i _ heffect hguard
  obtain ⟨heff, hbooks⟩ := effects_after_commit cfg hs he
  rw [hnone, List.nil_append] at heff
  refine ⟨⟨⟨Shared.exclusive_after hinv.1 hb, .committed i _ heff (hbooks ▸ heffect)⟩,
    fun j hj => ⟨Shared.after_frame hj, ?_, ?_⟩⟩,
    .done (hk _) ?_ (.inl ⟨(s.sessions i).writes, ?_⟩)⟩
  · rintro ⟨ws, hws⟩
    rw [hnone] at hws
    cases hws
  · exact fun hj' => absurd hj' (hinv.1.not_holds hl hj)
  · have hfailed : (s.conn i).session.failed = false := hs
    rw [Shared.after_self, Conn.exec_commit, hfailed]
    exact Session.beside_nil false
  · rw [heff]
    exact List.mem_singleton_self _

/-- A session that decides under the lock keeps the discipline, and returns only if it
has committed. -/
theorem wp_of_deciding (hG : ∀ i b, Eff i b → ¬ G b) {p : App α}
    (h : Deciding cfg row b₀ Eff G i p s) :
    wp (machine ι cfg) (locked ι row b₀ Eff) anyTurn i p
      (onExit (fun _ s => s.Decided i) fun _ _ => True) s := by
  induction p generalizing s with
  | ret a =>
    intro t hrely hinv
    cases deciding_stable _ s t hrely hinv h with
    | waiting _ hp _ =>
      exact hp.1.elim
    | holding _ _ _ _ hp _ => exact hp.elim
    | done _ _ hd =>
      rcases hd with hd | ⟨e, he⟩
      · exact hd
      · cases he
  | raise e => exact fun t _ _ => trivial
  | call r k ih =>
    intro t hrely hinv _ v u hx
    obtain ⟨hb, rfl, rfl⟩ := Shared.exec_eq_some hx
    cases deciding_stable _ s t hrely hinv h with
    | waiting hs hp hc =>
      obtain ⟨hcommit, q, k', hk, hq⟩ := hp
      cases hk
      exact ⟨locked_keeps_of_ineffective hinv hb (by simp),
        ih _ (deciding_after_query hG hinv.2 hs hcommit hq hc)⟩
    | holding hl hnone hguard hs hp hc =>
      by_cases hr : r = .commit
      · subst hr
        obtain ⟨hkeeps, hd⟩ := deciding_after_commit hG hinv hb hl hnone hguard hs hc
        exact ⟨hkeeps, ih _ hd⟩
      · exact ⟨locked_keeps_of_ineffective hinv hb fun h => absurd h hr,
          ih _ (deciding_after_request hr hl hnone hguard hs hp hc)⟩
    | done hp hs hd =>
      have hbeside : (t.conn i).session.Beside := hs
      have he : r = .commit → effective (t.sessions i).writes = false := fun _ =>
        effective_eq_false.2 hs
      refine ⟨locked_keeps_of_ineffective hinv hb he, ih _ (.done (hp.2 _) ?_ ?_)⟩
      · rw [Shared.after_self]
        exact (hbeside.exec cfg hp.1).1
      · rcases hd with ⟨ws, hws⟩ | ⟨e, he⟩
        · exact .inl ⟨ws, by rw [(effects_after cfg he).1]; exact hws⟩
        · cases he

/-- **One decision under a lock.**  In every interleaving at most one session commits to
the books, with the effect its operation has on the books they all started from; a
session that has returned is the one that has. -/
theorem decided_of_reaches {s₀ : Store} {progs : ι → App α}
    (hcommits : ∀ i, Commits cfg (Eff i) (progs i) s₀.db.books)
    (hdecides : ∀ i, Decides row G (Found s₀.db.books Eff) (progs i))
    (hG : ∀ i b, Eff i b → ¬ G b)
    {w : World ι Request Request.Answer Exn α (Shared ι)}
    (h : Reaches (machine ι cfg) anyTurn (World.start (Shared.start s₀) progs) w) :
    Once s₀.db.books Eff w.shared ∧
      ∀ i a, (w.tasks i).outcome = some (.ok a) → w.shared.Decided i := by
  let Q : ι → Except Exn α → Shared ι → Prop := fun i =>
    onExit (fun _ s => s.Decided i) fun _ _ => True
  have hstart : ∀ i, TaskOk (machine ι cfg) (locked ι row s₀.db.books Eff) anyTurn Q Q i
      (Shared.start s₀) (.running (progs i)) := fun i =>
    wp_of_deciding hG (.waiting rfl (hdecides i) (hcommits i))
  have hstable : ∀ i o, (locked ι row s₀.db.books Eff).Stable i (Q i o) := by
    intro i o s t hr _ hs
    cases o with
    | ok a => exact hr.2.1 hs
    | error e => trivial
  have hfinish : ∀ i o s, (locked ι row s₀.db.books Eff).inv s → Q i o s →
      (locked ι row s₀.db.books Eff).Keeps i s (s.finish i) ∧ Q i o (s.finish i) := by
    intro i o s hs hQ
    refine ⟨⟨⟨LockTable.exclusive_release hs.1 i, hs.2.congr rfl rfl⟩, fun j hj =>
      ⟨Shared.finish_frame hj, id, fun _ => ⟨rfl, rfl⟩⟩⟩, ?_⟩
    cases o <;> exact hQ
  have hsound := h.sound hfinish hstable ⟨LockTable.exclusive_nil, .untouched rfl rfl⟩ hstart
  refine ⟨hsound.1.2, fun i a ha => ?_⟩
  have hi := hsound.2 i
  cases hT : w.tasks i with
  | running p => rw [hT] at ha; cases ha
  | finished o =>
    rw [hT] at ha hi
    cases ha
    exact hi

end WalletLedger
