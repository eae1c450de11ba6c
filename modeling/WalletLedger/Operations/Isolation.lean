import WalletLedger.Models.Integrity
import WalletLedger.Domain.Events

/-!
# Operations on books nobody else touches

A service operation reads and writes the books through its session, and commits once.
Between its requests the other sessions may draw from the generators and write the
tables beside the books; as long as they leave the books alone, what the operation can
read and write is determined by the books it found.

* `Answers` — how a session that sees given books may be answered; `Returns` — what a
  program may return, with `returns_select`, `returns_mutate` and `returns_bind` to
  take it apart.
* `Quiet` programs issue no `COMMIT`; `Committing` programs return only after one;
  `Harmless` programs write nothing to the books.
* `Commits` — whenever the program comes to its commit, the books it sees satisfy `P`,
  and it leaves them alone after that.  `Commits.bind` walks through the statements
  before the commit, `Commits.commit` is the commit with whatever the code does after
  it.
* `Commits.run` — what this says of the program run alone.
* `CommitsFirst` — the program returns only after its commit; `Commits.run_ok`: then it has
  reached `P` when it returns.
-/

namespace WalletLedger

section

variable {cfg : Config} {α β : Type} {b b' : Books}

/-! ## Answers -/

/-- How a session that sees the books `b` may be answered, and the books it sees then.
The generators and the tables beside the books may be in any state. -/
inductive Answers (cfg : Config) : (r : Request) → Books → r.Result → Books → Prop
  | select {q : Query} {b : Books} (keys : List IdempotencyKey) (trail : List Notification) :
      Answers cfg (.select q) b (q.eval ⟨b, keys, trail⟩) b
  | mutate {m : Mutation} {b : Books} {v : m.Result} {w : Write} (seqs : Sequences)
      (keys : List IdempotencyKey) (trail : List Notification) :
      m.exec cfg seqs ⟨b, keys, trail⟩ = .ok (v, w) →
      Answers cfg (.mutate m) b v (w.applyBooks b)
  | uuid4 {b : Books} (id : Id) : Answers cfg .uuid4 b id b
  | cacheGet {b : Books} (a : Id) (amount : Option Decimal) : Answers cfg (.cacheGet a) b amount b
  | cacheSet {b : Books} (a : Id) (amount : Decimal) : Answers cfg (.cacheSet a amount) b () b
  | cacheDelete {b : Books} (a : Id) : Answers cfg (.cacheDelete a) b () b

/-- The program may return `a`, having taken the books it sees from `b` to `b'`. -/
def Returns (cfg : Config) : App α → Books → α → Books → Prop
  | .ret x, b, a, b' => x = a ∧ b = b'
  | .raise _, _, _, _ => False
  | .call r k, b, a, b' => ∃ v b₁, Answers cfg r b v b₁ ∧ Returns cfg (k (.ok v)) b₁ a b'

/-- Inversion of a sequence that returned. -/
theorem returns_bind {p : App α} {f : α → App β} {c : β} (h : Returns cfg (p >>= f) b c b') :
    ∃ a b₁, Returns cfg p b a b₁ ∧ Returns cfg (f a) b₁ c b' := by
  induction p generalizing b with
  | ret a => exact ⟨a, b, ⟨rfl, rfl⟩, h⟩
  | raise e => exact h.elim
  | call r k ih =>
    obtain ⟨v, b₁, hv, hk⟩ := h
    obtain ⟨a, b₂, hp, hf⟩ := ih (.ok v) hk
    exact ⟨a, b₂, ⟨v, b₁, hv, hp⟩, hf⟩

theorem returns_ret {x a : α} (h : Returns cfg (.ret x) b a b') : b' = b ∧ a = x :=
  ⟨h.2.symm, h.1.symm⟩

theorem answers_of_returns {r : Request} {v : r.Result} (h : Returns cfg (ask r) b v b') :
    Answers cfg r b v b' := by
  obtain ⟨u, b₁, hu, hk⟩ := h
  obtain ⟨rfl, rfl⟩ := returns_ret hk
  exact hu

/-- A query is answered from the books, and from whatever stands beside them. -/
theorem returns_select {q : Query} {v : q.Result} (h : Returns cfg (ask (.select q)) b v b') :
    b' = b ∧ ∃ keys trail, v = q.eval ⟨b, keys, trail⟩ := by
  cases answers_of_returns h with
  | select keys trail => exact ⟨rfl, keys, trail, rfl⟩

theorem returns_mutate {m : Mutation} {v : m.Result}
    (h : Returns cfg (ask (.mutate m)) b v b') :
    ∃ seqs db w, db.books = b ∧ m.exec cfg seqs db = .ok (v, w) ∧ b' = w.applyBooks b := by
  cases answers_of_returns h with
  | mutate seqs keys trail hm => exact ⟨seqs, ⟨b, keys, trail⟩, _, rfl, hm, rfl⟩

theorem returns_uuid4 {v : Id} (h : Returns cfg (ask .uuid4) b v b') : b' = b := by
  cases answers_of_returns h
  rfl

theorem returns_ofOption {e : Exn} {o : Option α} {a : α} (h : Returns cfg (ofOption e o) b a b') :
    b' = b ∧ o = some a := by
  cases o with
  | none => exact h.elim
  | some x =>
    obtain ⟨rfl, rfl⟩ := returns_ret h
    exact ⟨rfl, rfl⟩

theorem returns_ofExcept {x : Except Exn α} {a : α}
    (h : Returns cfg (Program.ofExcept x) b a b') : b' = b ∧ x = .ok a := by
  cases x with
  | error e => exact h.elim
  | ok y =>
    obtain ⟨rfl, rfl⟩ := returns_ret h
    exact ⟨rfl, rfl⟩

theorem returns_raiseIf {p : Prop} [Decidable p] {e : Exn} {u : Unit}
    (h : Returns cfg (raiseIf p e) b u b') : b' = b ∧ ¬ p := by
  unfold raiseIf at h
  split at h
  · exact h.elim
  · exact ⟨(returns_ret h).1, ‹_›⟩

/-! ## Programs that do not commit -/

/-- The program neither commits nor rolls back, and raises whatever error it meets. -/
def Quiet : App α → Prop
  | .ret _ => True
  | .raise _ => True
  | .call r k =>
      (r ≠ .commit ∧ r ≠ .rollback) ∧ (∀ e, ∃ x, k (.error e) = .raise x) ∧
        ∀ v, Quiet (k (.ok v))

@[simp] theorem quiet_ret (a : α) : Quiet (.ret a : App α) := trivial

@[simp] theorem quiet_raise (e : Exn) : Quiet (.raise e : App α) := trivial

@[simp] theorem quiet_pure (a : α) : Quiet (pure a : App α) := trivial

theorem Quiet.bind {p : App α} {f : α → App β} (hp : Quiet p) (hf : ∀ a, Quiet (f a)) :
    Quiet (p >>= f) := by
  induction p with
  | ret a => exact hf a
  | raise e => trivial
  | call r k ih =>
    refine ⟨hp.1, fun e => ?_, fun v => ih _ (hp.2.2 v)⟩
    obtain ⟨x, hx⟩ := hp.2.1 e
    refine ⟨x, ?_⟩
    show k (.error e) >>= f = .raise x
    rw [hx, Program.raise_bind]

theorem Quiet.forEach {xs : List β} {f : β → App Unit} (hf : ∀ x, Quiet (f x)) :
    Quiet (Program.forEach xs f) := by
  induction xs with
  | nil => trivial
  | cons x xs ih => exact (hf x).bind fun _ => ih

@[simp] theorem quiet_ofExcept (x : Except Exn α) : Quiet (Program.ofExcept x : App α) := by
  cases x <;> trivial

theorem quiet_ask {r : Request} (hr : r ≠ .commit ∧ r ≠ .rollback) : Quiet (ask r) :=
  ⟨hr, fun e => ⟨.service e, rfl⟩, fun _ => trivial⟩

@[simp] theorem quiet_select (q : Query) : Quiet (ask (.select q)) := quiet_ask (by simp)

@[simp] theorem quiet_mutate (m : Mutation) : Quiet (ask (.mutate m)) := quiet_ask (by simp)

@[simp] theorem quiet_uuid4 : Quiet (ask .uuid4) := quiet_ask (by simp)

@[simp] theorem quiet_ofOption (e : Exn) (o : Option α) : Quiet (ofOption e o) := by
  cases o <;> trivial

@[simp] theorem quiet_raiseIf (p : Prop) [Decidable p] (e : Exn) : Quiet (raiseIf p e) := by
  unfold raiseIf
  split <;> trivial

/-- The program returns only once a commit has gone through, raises whatever error it
meets, and never rolls back. -/
def Committing : App α → Prop
  | .ret _ => False
  | .raise _ => True
  | .call r k =>
      r ≠ .rollback ∧ (∀ e, ∃ x, k (.error e) = .raise x) ∧
        (r ≠ .commit → ∀ v, Committing (k (.ok v)))

theorem Committing.bind {p : App α} {f : α → App β} (hp : Quiet p) (hf : ∀ a, Committing (f a)) :
    Committing (p >>= f) := by
  induction p with
  | ret a => exact hf a
  | raise e => trivial
  | call r k ih =>
    refine ⟨hp.1.2, fun e => ?_, fun _ v => ih _ (hp.2.2 v)⟩
    obtain ⟨x, hx⟩ := hp.2.1 e
    refine ⟨x, ?_⟩
    show k (.error e) >>= f = .raise x
    rw [hx, Program.raise_bind]

theorem Committing.commit (f : Unit → App β) : Committing (ask .commit >>= f) :=
  ⟨by simp, fun e => ⟨.service e, rfl⟩, fun h => absurd rfl h⟩

/-- Dropping the result changes nothing. -/
theorem Committing.map {p : App α} (hp : Committing p) (g : α → β) : Committing (g <$> p) := by
  show Committing (p >>= fun a => .ret (g a))
  induction p with
  | ret a => exact hp
  | raise e => trivial
  | call r k ih =>
    refine ⟨hp.1, fun e => ?_, fun hr v => ih _ (hp.2.2 hr v)⟩
    obtain ⟨x, hx⟩ := hp.2.1 e
    refine ⟨x, ?_⟩
    show k (.error e) >>= (fun a => .ret (g a)) = .raise x
    rw [hx, Program.raise_bind]

/-! ## Programs that leave the books alone -/

/-- The request writes nothing to the books. -/
def Request.harmless : Request → Bool
  | .mutate m => m.besideBooks
  | _ => true

/-- Every request of the program leaves the books alone. -/
def Harmless (p : App α) : Prop := p.All fun r => r.harmless = true

theorem Harmless.bind {p : App α} {f : α → App β} (hp : Harmless p) (hf : ∀ a, Harmless (f a)) :
    Harmless (p >>= f) := Program.All.bind hp hf

theorem harmless_ask {r : Request} (hr : r.harmless = true) : Harmless (ask r) :=
  ⟨hr, fun _ => Program.all_ofExcept _⟩

theorem harmless_ofOption (e : Exn) (o : Option α) : Harmless (ofOption e o) := by
  cases o <;> trivial

/-- The session has written nothing to the books. -/
def Session.Beside (s : Session) : Prop := ∀ w ∈ s.writes, w.touchesBooks = false

theorem Session.Beside.view {c : Conn} (h : c.session.Beside) :
    c.view.books = c.store.db.books := by
  unfold Conn.view
  rw [replay_books]
  exact replayBooks_of_forall h _

theorem Session.beside_nil (failed : Bool) : Session.Beside ⟨[], failed⟩ := by
  intro w hw
  cases hw

theorem Session.Beside.exec (cfg : Config) {c : Conn} (h : c.session.Beside) {r : Request}
    (hr : r.harmless = true) :
    (Conn.exec cfg r c).2.session.Beside ∧
      (Conn.exec cfg r c).2.store.db.books = c.store.db.books := by
  refine ⟨Conn.writes_exec (fun m s db v w hm hexec => ?_) h, Conn.db_exec r h.view⟩
  subst hm
  exact Mutation.exec_besideBooks hexec hr

/-- Started with no writes to the books, a harmless program leaves them alone. -/
theorem Harmless.books (cfg : Config) {p : App α} (hp : Harmless p) {c : Conn}
    (hc : c.session.Beside) :
    (Program.run (Conn.exec cfg) p c).2.store.db.books = c.store.db.books := by
  induction p generalizing c with
  | ret a => rfl
  | raise e => rfl
  | call r k ih =>
    obtain ⟨hbeside, hbooks⟩ := hc.exec cfg hp.1
    exact (ih _ (hp.2 _) hbeside).trans hbooks

/-! ## The shape of an operation -/

/-- At its commit, the program sees books that satisfy `P`; after that, and after any
error, it leaves the books alone. -/
def Commits (cfg : Config) (P : Books → Prop) : App α → Books → Prop
  | .ret _, _ => True
  | .raise _, _ => True
  | .call r k, b =>
      (r = .commit → P b ∧ ∀ v, Harmless (k v)) ∧ (r = .rollback → ∀ v, Harmless (k v)) ∧
        (∀ e, Harmless (k (.error e))) ∧
        ∀ v b', Answers cfg r b v b' → Commits cfg P (k (.ok v)) b'

variable {P : Books → Prop}

/-- A statement before the commit: if it raises, nothing has happened. -/
theorem Commits.bind {p : App α} {f : α → App β} (hp : Quiet p)
    (h : ∀ a b', Returns cfg p b a b' → Commits cfg P (f a) b') : Commits cfg P (p >>= f) b := by
  induction p generalizing b with
  | ret a => exact h a b ⟨rfl, rfl⟩
  | raise e => trivial
  | call r k ih =>
    refine ⟨fun hr => absurd hr hp.1.1, fun hr => absurd hr hp.1.2, fun e => ?_, fun v b₁ hv => ?_⟩
    · obtain ⟨x, hx⟩ := hp.2.1 e
      show Harmless (k (.error e) >>= f)
      rw [hx, Program.raise_bind]
      trivial
    · exact ih _ (hp.2.2 v) fun a b' ha => h a b' ⟨v, b₁, hv, ha⟩

/-- What the code goes on with after a `COMMIT` or a `ROLLBACK`. -/
theorem Harmless.answered {f : Unit → App β} (hf : Harmless (f ())) (v : Except ServiceError Unit) :
    Harmless ((Program.ofExcept (v.mapError Exn.service) : App Unit) >>= f) := by
  cases v with
  | error e => trivial
  | ok u => exact hf

/-- The commit, and what the code does after it. -/
theorem Commits.commit {f : Unit → App β} (hf : Harmless (f ())) (h : P b) :
    Commits cfg P (ask .commit >>= f) b :=
  ⟨fun _ => ⟨h, hf.answered⟩, fun _ => hf.answered, fun e => hf.answered (.error e),
    fun v b' hv => by cases hv⟩

theorem Commits.rollback {f : Unit → App β} (hf : Harmless (f ())) :
    Commits cfg P (ask .rollback >>= f) b :=
  ⟨fun hr => (by cases hr), fun _ => hf.answered, fun e => hf.answered (.error e),
    fun v b' hv => by cases hv⟩

/-- A handler that leaves the books alone. -/
theorem Commits.attempt {p : App α} {h : Exn → App α} (hp : Commits cfg P p b)
    (hh : ∀ e, Harmless (h e) ∧ ∀ b, Commits cfg P (h e) b) : Commits cfg P (p.attempt h) b := by
  have harmless : ∀ {q : App α}, Harmless q → Harmless (q.attempt h) :=
    fun hq => Program.All.attempt hq fun e => (hh e).1
  induction p generalizing b with
  | ret a => trivial
  | raise e => exact (hh e).2 b
  | call r k ih =>
    obtain ⟨hcommit, hrollback, herror, hok⟩ := hp
    refine ⟨fun hr => ?_, fun hr v => harmless (hrollback hr v), fun e => harmless (herror e), ?_⟩
    · obtain ⟨hP, hk⟩ := hcommit hr
      exact ⟨hP, fun v => harmless (hk v)⟩
    · exact fun v b' hv => ih _ (hok v b' hv)

/-- Dropping the result changes nothing. -/
theorem Commits.map {p : App α} {g : α → β} (h : Commits cfg P p b) :
    Commits cfg P (g <$> p) b := by
  have harmless : ∀ {q : App α}, Harmless q → Harmless (q >>= fun a => .ret (g a)) :=
    fun hq => hq.bind fun _ => trivial
  show Commits cfg P (p >>= fun a => .ret (g a)) b
  induction p generalizing b with
  | ret a => trivial
  | raise e => trivial
  | call r k ih =>
    obtain ⟨hcommit, hrollback, herror, hok⟩ := h
    refine ⟨fun hr => ?_, fun hr v => harmless (hrollback hr v), fun e => harmless (herror e), ?_⟩
    · obtain ⟨hP, hk⟩ := hcommit hr
      exact ⟨hP, fun v => harmless (hk v)⟩
    · exact fun v b' hv => ih _ (hok v b' hv)

/-! ## One request -/

/-- What a request that goes through does to the books the session sees. -/
theorem answers_of_exec {r : Request} {c c' : Conn} {v : r.Result}
    (h : Conn.exec cfg r c = (.ok v, c')) (hr : r ≠ .commit ∧ r ≠ .rollback) :
    Answers cfg r c.view.books v c'.view.books ∧ c'.store.db = c.store.db ∧
      (c'.session = c.session ∨ c'.session.failed = false) := by
  cases r with
  | select q =>
    rw [Conn.exec_select] at h
    split at h
    · cases h
    · cases h
      exact ⟨.select c.view.keys c.view.notifications, rfl, .inl rfl⟩
  | mutate m =>
    rw [Conn.exec_mutate] at h
    split at h
    · cases h
    split at h
    · rename_i _ _ w hm
      cases h
      rw [Conn.view_wrote]
      exact ⟨.mutate c.store.seqs c.view.keys c.view.notifications hm, rfl, .inr rfl⟩
    · cases h
  | commit => exact absurd rfl hr.1
  | rollback => exact absurd rfl hr.2
  | uuid4 => cases h; exact ⟨.uuid4 _, rfl, .inl rfl⟩
  | cacheGet a => cases h; exact ⟨.cacheGet a _, rfl, .inl rfl⟩
  | cacheSet a amount => cases h; exact ⟨.cacheSet a amount, rfl, .inl rfl⟩
  | cacheDelete a => cases h; exact ⟨.cacheDelete a, rfl, .inl rfl⟩

/-- A request that is refused leaves the committed rows alone and the session without
writes. -/
theorem Conn.exec_error {r : Request} {c c' : Conn} {e : ServiceError}
    (h : Conn.exec cfg r c = (.error e, c')) (hc : c.session.failed = false) :
    c'.store.db = c.store.db ∧ c'.session = ⟨[], true⟩ := by
  cases r with
  | select q => rw [Conn.exec_select, hc] at h; cases h
  | mutate m =>
    rw [Conn.exec_mutate, hc] at h
    simp only [Bool.false_eq_true, if_false] at h
    split at h
    · cases h
    · cases h
      exact ⟨rfl, rfl⟩
  | commit => rw [Conn.exec_commit, hc] at h; cases h
  | rollback => cases h
  | uuid4 => cases h
  | cacheGet a => cases h
  | cacheSet a amount => cases h
  | cacheDelete a => cases h

/-- A statement that goes through. -/
theorem Conn.exec_goes {m : Mutation} {c : Conn} {v : m.Result} {w : Write}
    (hc : c.session.failed = false) (hm : m.exec cfg c.store.seqs c.view = .ok (v, w)) :
    Conn.exec cfg (.mutate m) c = (.ok v, c.wrote (m.advance c.store.seqs) w) := by
  rw [Conn.exec_mutate, hc, hm]
  rfl

/-- A statement that is refused. -/
theorem Conn.exec_refused {m : Mutation} {c : Conn} {e : ServiceError}
    (hc : c.session.failed = false) (hm : m.exec cfg c.store.seqs c.view = .error e) :
    Conn.exec cfg (.mutate m) c = (.error e, c.aborted (m.advance c.store.seqs)) := by
  rw [Conn.exec_mutate, hc, hm]
  rfl

/-! ## Alone -/

/-- A program alone on a session. -/
abbrev runOn (cfg : Config) {α : Type} (p : App α) (c : Conn) : Except Exn α × Conn :=
  Program.run (Conn.exec cfg) p c

theorem run_answered {σ : Type} {exec : (r : Request) → σ → r.Answer × σ} {r : Request}
    {f : r.Result → App β} {v : r.Result} {s t : σ} (hx : exec r s = (.ok v, t)) :
    Program.run exec (ask r >>= f) s = Program.run exec (f v) t := by
  show Program.run exec (Program.ofExcept _ >>= f) (exec r s).2 = _
  rw [hx]
  rfl

theorem run_refused {σ : Type} {exec : (r : Request) → σ → r.Answer × σ} {r : Request}
    {f : r.Result → App β} {e : ServiceError} {s t : σ} (hx : exec r s = (.error e, t)) :
    Program.run exec (ask r >>= f) s = (.error (.service e), t) := by
  show Program.run exec (Program.ofExcept _ >>= f) (exec r s).2 = _
  rw [hx]
  rfl

theorem run_ask_ok {r : Request} {f : r.Result → App β} {v : r.Result} {c d : Conn}
    (hx : Conn.exec cfg r c = (.ok v, d)) :
    runOn cfg (ask r >>= f) c = runOn cfg (f v) d := run_answered hx

theorem run_ask_error {r : Request} {f : r.Result → App β} {e : ServiceError} {c d : Conn}
    (hx : Conn.exec cfg r c = (.error e, d)) :
    runOn cfg (ask r >>= f) c = (.error (.service e), d) := run_refused hx

/-- Run alone, an operation leaves the committed books as they are, or takes them to
books that satisfy `P`. -/
theorem Commits.run {p : App α} {c : Conn} (h : Commits cfg P p c.view.books)
    (hc : c.session.failed = false) :
    (runOn cfg p c).2.store.db.books = c.store.db.books ∨ P (runOn cfg p c).2.store.db.books := by
  induction p generalizing c with
  | ret a => exact .inl rfl
  | raise e => exact .inl rfl
  | call r k ih =>
    obtain ⟨hcommit, hrollback, herror, hok⟩ := h
    show (runOn cfg (k (Conn.exec cfg r c).1) (Conn.exec cfg r c).2).2.store.db.books = _ ∨
      P (runOn cfg (k (Conn.exec cfg r c).1) (Conn.exec cfg r c).2).2.store.db.books
    by_cases hr : r = .commit
    · subst hr
      obtain ⟨hP, hk⟩ := hcommit rfl
      rw [Conn.exec_commit, hc]
      have hbooks := (hk (.ok ())).books cfg (c := c.committed) (Session.beside_nil false)
      exact .inr (hbooks.symm ▸ hP)
    by_cases hr' : r = .rollback
    · subst hr'
      exact .inl ((hrollback rfl (.ok ())).books cfg (c := ⟨c.store, Session.fresh⟩)
        (Session.beside_nil false))
    cases hx : Conn.exec cfg r c with
    | mk v c' =>
      cases v with
      | error e =>
        obtain ⟨hdb, hsession⟩ := Conn.exec_error hx hc
        have hbeside : c'.session.Beside := hsession ▸ Session.beside_nil true
        left
        rw [← hdb]
        exact (herror e).books cfg hbeside
      | ok v =>
        obtain ⟨hans, hdb, hsession⟩ := answers_of_exec hx ⟨hr, hr'⟩
        have hc' : c'.session.failed = false := by
          rcases hsession with hs | hs
          · rw [hs, hc]
          · exact hs
        rw [← hdb]
        exact ih _ (hok v _ hans) hc'

/-! ## Returning only after the commit -/

/-- The program never returns. -/
def Raises : App α → Prop
  | .ret _ => False
  | .raise _ => True
  | .call _ k => ∀ v, Raises (k v)

theorem Raises.run {p : App α} {c : Conn} (hp : Raises p) : (runOn cfg p c).1.isOk = false := by
  induction p generalizing c with
  | ret a => exact hp.elim
  | raise e => rfl
  | call r k ih => exact ih _ (hp _)

/-- Before its commit the program goes on after no error, and does not return. -/
def CommitsFirst : App α → Prop
  | .ret _ => False
  | .raise _ => True
  | .call r k => r ≠ .commit → (r = .rollback → ∀ v, Raises (k v)) ∧
      (∀ e, Raises (k (.error e))) ∧ ∀ v, CommitsFirst (k (.ok v))

theorem CommitsFirst.bind {p : App α} {f : α → App β} (hp : Quiet p)
    (hf : ∀ a, CommitsFirst (f a)) : CommitsFirst (p >>= f) := by
  induction p with
  | ret a => exact hf a
  | raise e => trivial
  | call r k ih =>
    refine fun _ => ⟨fun hr => absurd hr hp.1.2, fun e => ?_, fun v => ih _ (hp.2.2 v)⟩
    obtain ⟨x, hx⟩ := hp.2.1 e
    show Raises (k (.error e) >>= f)
    rw [hx, Program.raise_bind]
    trivial

theorem CommitsFirst.commit {f : Unit → App β} : CommitsFirst (ask .commit >>= f) :=
  fun hr => absurd rfl hr

theorem CommitsFirst.map {p : App α} {g : α → β} (hp : CommitsFirst p) :
    CommitsFirst (g <$> p) := by
  have hraises : ∀ q : App α, Raises q → Raises (g <$> q) := by
    intro q hq
    induction q with
    | ret a => exact hq.elim
    | raise e => trivial
    | call r k ih => exact fun v => ih v (hq v)
  induction p with
  | ret a => exact hp.elim
  | raise e => trivial
  | call r k ih =>
    intro hr
    obtain ⟨hrollback, herror, hok⟩ := hp hr
    exact ⟨fun hr' v => hraises _ (hrollback hr' v), fun e => hraises _ (herror e),
      fun v => ih _ (hok v)⟩

theorem CommitsFirst.attempt {p : App α} {h : Exn → App α} (hp : CommitsFirst p)
    (hh : ∀ e, Raises (h e)) : CommitsFirst (p.attempt h) := by
  have hraises : ∀ q : App α, Raises q → Raises (q.attempt h) := by
    intro q hq
    induction q with
    | ret a => exact hq.elim
    | raise e => exact hh e
    | call r k ih => exact fun v => ih v (hq v)
  have hfirst : ∀ q : App α, Raises q → CommitsFirst q := by
    intro q hq
    induction q with
    | ret a => exact hq.elim
    | raise e => trivial
    | call r k ih => exact fun _ => ⟨fun _ v => hq v, fun e => hq _, fun v => ih _ (hq _)⟩
  induction p with
  | ret a => exact hp.elim
  | raise e => exact hfirst _ (hh e)
  | call r k ih =>
    intro hr
    obtain ⟨hrollback, herror, hok⟩ := hp hr
    exact ⟨fun hr' v => hraises _ (hrollback hr' v), fun e => hraises _ (herror e),
      fun v => ih _ (hok v)⟩

/-- An operation that has returned has taken the committed books to books that satisfy `P`. -/
theorem Commits.run_ok {p : App α} {c : Conn} (h : Commits cfg P p c.view.books)
    (hp : CommitsFirst p) (hc : c.session.failed = false) (hok : (runOn cfg p c).1.isOk = true) :
    P (runOn cfg p c).2.store.db.books := by
  induction p generalizing c with
  | ret a => exact hp.elim
  | raise e => cases hok
  | call r k ih =>
    obtain ⟨hcommit, -, -, hstep⟩ := h
    have hok : (runOn cfg (k (Conn.exec cfg r c).1) (Conn.exec cfg r c).2).1.isOk = true := hok
    show P (runOn cfg (k (Conn.exec cfg r c).1) (Conn.exec cfg r c).2).2.store.db.books
    by_cases hr : r = .commit
    · subst hr
      obtain ⟨hP, hk⟩ := hcommit rfl
      rw [Conn.exec_commit, hc]
      have hbooks := (hk (.ok ())).books cfg (c := c.committed) (Session.beside_nil false)
      exact hbooks.symm ▸ hP
    obtain ⟨hrollback, herror, hnext⟩ := hp hr
    by_cases hr' : r = .rollback
    · rw [(hrollback hr' _).run] at hok
      cases hok
    cases hx : Conn.exec cfg r c with
    | mk v c' =>
      rw [hx] at hok
      cases v with
      | error e =>
        rw [(herror e).run] at hok
        cases hok
      | ok v =>
        obtain ⟨hans, -, hsession⟩ := answers_of_exec hx ⟨hr, hr'⟩
        have hc' : c'.session.failed = false := by
          rcases hsession with hs | hs
          · rw [hs, hc]
          · exact hs
        exact ih _ (hstep v _ hans) (hnext v) hc' hok

end

end WalletLedger
