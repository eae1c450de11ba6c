import WalletLedger.Concurrent.Sessions
import WalletLedger.Operations.Isolation

/-!
# Operations that commit under a guard

Sessions that compete for one decision: each would take the books out of a state
described by a guard, and each has read the books before it writes.  If no session
commits its writes unless the guard still holds, then only the first commit can happen,
and it happens on the books every session started from, where the operation has the
effect it has alone.

* `CommitsWhile G` — the condition on turns; `Once` — the conclusion.
* `Ready` — what a session's program promises while nothing has been committed.
* `once_of_reaches` — the theorem.
-/

namespace WalletLedger

/-- Some of the writes concern the books. -/
def effective (ws : List Write) : Bool := ws.any Write.touchesBooks

theorem effective_eq_false {ws : List Write} :
    effective ws = false ↔ ∀ w ∈ ws, w.touchesBooks = false := by
  simp [effective]

variable {ι : Type}

/-- The commits that concern the books, oldest first. -/
def Shared.effects (s : Shared ι) : List (ι × List Write) :=
  s.commits.filter fun x => effective x.2

/-- A session commits writes to the books only while these satisfy `G`. -/
def CommitsWhile (G : Books → Prop) (i : ι) (r : Request) (s : Shared ι) : Prop :=
  r = .commit → effective (s.sessions i).writes = true → G s.store.db.books

instance (G : Books → Prop) [DecidablePred G] (i : ι) (r : Request) (s : Shared ι) :
    Decidable (CommitsWhile G i r s) :=
  inferInstanceAs (Decidable (r = .commit → effective (s.sessions i).writes = true →
    G s.store.db.books))

/-- Nobody has committed anything to the books, or one session has, once. -/
inductive Once (b₀ : Books) (Eff : ι → Books → Prop) (s : Shared ι) : Prop
  | untouched : s.effects = [] → s.store.db.books = b₀ → Once b₀ Eff s
  | committed (i : ι) (ws : List Write) : s.effects = [(i, ws)] → Eff i s.store.db.books →
      Once b₀ Eff s

variable [DecidableEq ι] {cfg : Config} {α : Type} {b₀ : Books} {Eff : ι → Books → Prop}
  {G : Books → Prop} {s t : Shared ι} {i j : ι} {r : Request}

omit [DecidableEq ι] in
theorem Once.congr (h : Once b₀ Eff s) (hb : t.store.db.books = s.store.db.books)
    (he : t.effects = s.effects) : Once b₀ Eff t := by
  cases h with
  | untouched h h' => exact .untouched (he.trans h) (hb.trans h')
  | committed i ws h h' => exact .committed i ws (he.trans h) (hb ▸ h')

/-! ## What a turn does to the committed books -/

/-- A turn that commits nothing to the books. -/
theorem effects_after (cfg : Config) (h : r = .commit → effective (s.sessions i).writes = false) :
    (s.after cfg i r).effects = s.effects ∧
      (s.after cfg i r).store.db.books = s.store.db.books := by
  by_cases hr : r = .commit
  · subst hr
    have hne := h rfl
    cases hf : (s.sessions i).failed with
    | true =>
      obtain ⟨hs, hc⟩ := Shared.after_commit_failed cfg hf
      unfold Shared.effects
      rw [hc, hs]
      exact ⟨rfl, rfl⟩
    | false =>
      obtain ⟨hs, hc⟩ := Shared.after_commit cfg hf
      unfold Shared.effects
      rw [hc, hs, List.filter_append]
      refine ⟨by simp [hne], ?_⟩
      have hbeside : (s.conn i).session.Beside := effective_eq_false.1 hne
      exact hbeside.view
  · unfold Shared.effects
    rw [Shared.after_commits hr, Shared.after_db hr]
    exact ⟨rfl, rfl⟩

/-- A turn that commits writes to the books. -/
theorem effects_after_commit (cfg : Config) (hf : (s.sessions i).failed = false)
    (he : effective (s.sessions i).writes = true) :
    (s.after cfg i .commit).effects = s.effects ++ [(i, (s.sessions i).writes)] ∧
      (s.after cfg i .commit).store.db.books = (s.conn i).view.books := by
  obtain ⟨hs, hc⟩ := Shared.after_commit cfg hf
  unfold Shared.effects
  rw [hc, hs, List.filter_append]
  exact ⟨by simp [he], rfl⟩

/-! ## The discipline -/

/-- The books change once; each session relies on its own side being left alone, and on
the books being those it has read as long as nothing is committed to them. -/
def guarded (ι : Type) [DecidableEq ι] (b₀ : Books) (Eff : ι → Books → Prop) :
    Discipline ι (Shared ι) where
  inv := Once b₀ Eff
  rely i s t := s.Frame i t ∧
    (t.effects = [] → s.effects = [] ∧ t.store.db.books = s.store.db.books)
  rely_refl i s := ⟨.refl i s, fun h => ⟨h, rfl⟩⟩
  rely_trans := by
    rintro i s t u ⟨hf, he⟩ ⟨hf', he'⟩
    refine ⟨hf.trans hf', fun h => ?_⟩
    obtain ⟨ht, hb⟩ := he' h
    obtain ⟨hs, hb'⟩ := he ht
    exact ⟨hs, hb.trans hb'⟩

/-- While nothing is committed to the books, the rest of the program has the shape of an
operation, or writes nothing to the books any more. -/
def Ready (cfg : Config) (Eff : ι → Books → Prop) (i : ι) (p : App α) (s : Shared ι) : Prop :=
  s.effects = [] →
    ((s.sessions i).failed = false ∧ Commits cfg (Eff i) p (s.conn i).view.books) ∨
      (Harmless p ∧ (s.sessions i).Beside)

omit [DecidableEq ι] in
theorem Shared.Frame.view_books (h : s.Frame i t) (hb : t.store.db.books = s.store.db.books) :
    (t.conn i).view.books = (s.conn i).view.books := by
  unfold Conn.view Shared.conn
  rw [replay_books, replay_books, h.session, hb]

theorem ready_stable (p : App α) : (guarded ι b₀ Eff).Stable i (Ready cfg Eff i p) := by
  rintro s t ⟨hf, he⟩ _ hs ht
  obtain ⟨hs', hb⟩ := he ht
  rw [hf.session, hf.view_books hb]
  exact hs hs'

/-- One request of a ready program that commits nothing to the books. -/
theorem ready_after {k : r.Answer → App α} (h : Ready cfg Eff i (.call r k) s)
    (he : r = .commit → effective (s.sessions i).writes = false) :
    Ready cfg Eff i (k (Conn.exec cfg r (s.conn i)).1) (s.after cfg i r) := by
  intro hu
  rw [(effects_after cfg he).1] at hu
  have hself : ((s.after cfg i r).sessions i) = (Conn.exec cfg r (s.conn i)).2.session :=
    Shared.after_self
  rw [hself, Shared.after_conn]
  rcases h hu with ⟨hfailed, hcommit, hrollback, herror, hok⟩ | ⟨hharmless, hbeside⟩
  · by_cases hr : r = .commit
    · subst hr
      refine .inr ⟨(hcommit rfl).2 _, ?_⟩
      have hs : (s.conn i).session.failed = false := hfailed
      rw [Conn.exec_commit, hs]
      exact Session.beside_nil false
    by_cases hr' : r = .rollback
    · subst hr'
      exact .inr ⟨hrollback rfl _, Session.beside_nil false⟩
    cases hx : Conn.exec cfg r (s.conn i) with
    | mk v c' =>
      cases v with
      | error e =>
        obtain ⟨-, hsession⟩ := Conn.exec_error hx hfailed
        exact .inr ⟨herror e, by rw [hsession]; exact Session.beside_nil true⟩
      | ok v =>
        obtain ⟨hans, -, hsession⟩ := answers_of_exec hx ⟨hr, hr'⟩
        refine .inl ⟨?_, hok v _ hans⟩
        rcases hsession with hs | hs
        · rw [hs]
          exact hfailed
        · exact hs
  · refine .inr ⟨hharmless.2 _, ?_⟩
    have hconn : (s.conn i).session.Beside := hbeside
    exact (hconn.exec cfg hharmless.1).1

/-- A ready program keeps the discipline under the guard. -/
theorem wp_of_ready (hG : ∀ i b, Eff i b → ¬ G b) {p : App α} (h : Ready cfg Eff i p s) :
    wp (machine ι cfg) (guarded ι b₀ Eff) (CommitsWhile G) i p (fun _ _ => True) s := by
  induction p generalizing s with
  | ret a => exact fun t _ _ => trivial
  | raise e => exact fun t _ _ => trivial
  | call r k ih =>
    intro t hrely hinv hC v u hx
    obtain ⟨-, rfl, rfl⟩ := Shared.exec_eq_some hx
    have ht : Ready cfg Eff i (.call r k) t := ready_stable _ s t hrely hinv h
    by_cases he : r = .commit → effective (t.sessions i).writes = false
    · obtain ⟨heff, hbooks⟩ := effects_after cfg he
      refine ⟨⟨hinv.congr hbooks heff, fun j hj => ⟨Shared.after_frame hj, fun hu => ?_⟩⟩,
        ih _ (ready_after ht he)⟩
      exact ⟨heff ▸ hu, hbooks⟩
    · -- the first commit to the books, on the books everybody has read
      push Not at he
      obtain ⟨rfl, he⟩ := he
      rw [ne_eq, Bool.not_eq_false] at he
      have hguard : G t.store.db.books := hC rfl he
      have hnone : t.effects = [] := by
        cases hinv with
        | untouched h _ => exact h
        | committed j ws _ hj => exact absurd hguard (hG j _ hj)
      rcases ht hnone with ⟨hfailed, hcommit, -⟩ | ⟨-, hbeside⟩
      · obtain ⟨heff, hbooks⟩ := effects_after_commit cfg hfailed he
        rw [hnone, List.nil_append] at heff
        have hone : ¬ (t.after cfg i .commit).effects = [] := by
          rw [heff]
          simp
        refine ⟨⟨.committed i _ heff (hbooks ▸ (hcommit rfl).1), fun j hj =>
          ⟨Shared.after_frame hj, fun hu => absurd hu hone⟩⟩, ih _ fun hu => absurd hu hone⟩
      · rw [effective_eq_false.2 hbeside] at he
        cases he

/-- **One commit.**  Sessions that commit to the books only while the guard holds do so
at most once between them, with the effect their operation has on the books they all
started from. -/
theorem once_of_reaches {s₀ : Store} {progs : ι → App α}
    (hprogs : ∀ i, Commits cfg (Eff i) (progs i) s₀.db.books) (hG : ∀ i b, Eff i b → ¬ G b)
    {w : World ι Request Request.Answer Exn α (Shared ι)}
    (h : Reaches (machine ι cfg) (CommitsWhile G) (World.start (Shared.start s₀) progs) w) :
    Once s₀.db.books Eff w.shared := by
  refine (Reaches.sound (D := guarded ι s₀.db.books Eff) (Q := fun _ _ _ => True)
    (R := fun _ _ _ => True) (fun i o s hs _ => ⟨⟨hs.congr rfl rfl, fun j hj =>
      ⟨Shared.finish_frame hj, fun hu => ⟨hu, rfl⟩⟩⟩, trivial⟩)
    (fun _ _ _ _ _ _ _ => trivial) (.untouched rfl rfl) (fun i => ?_) h).1
  exact wp_of_ready hG fun _ => .inl ⟨rfl, hprogs i⟩

end WalletLedger
