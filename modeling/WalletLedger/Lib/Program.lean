import Mathlib.Logic.Basic
import Mathlib.Tactic.Common

/-!
# Programs that talk to an environment

A program either returns, raises, or issues a **request** and continues with the
answer.  Nothing here says what a request does: the same program is run alone
(`Program.run`), run in step with others (`Lib/Interleave.lean`), or run against
an environment that fails, by choosing who answers.

* `Program` — the tree of requests and continuations, with its monad structure
  (`LawfulMonad`), `Program.attempt` for `try`/`except`, and `forEach` for loops.
* `Program.run_bind`, `run_attempt` — running alone is compositional.
* `Program.run_bind_ok` — the inversion rule: a sequence that returns is a first
  part that returns followed by a second part that returns.
* `Program.All`, `Program.Throws` — every request the program can ever issue, or every
  exception it can raise, has a property, with the rules for sequencing, handlers and loops.
-/

namespace WalletLedger

/-! ## Results -/

/-- What a sequence returns. -/
theorem except_bind_ok {ε α β : Type} {x : Except ε α} {f : α → Except ε β} {b : β} :
    (x >>= f) = .ok b ↔ ∃ a, x = .ok a ∧ f a = .ok b := by
  cases x with
  | error e =>
    constructor
    · intro h
      cases h
    · rintro ⟨_, h, _⟩
      cases h
  | ok a =>
    constructor
    · exact fun h => ⟨a, rfl, h⟩
    · rintro ⟨_, h, hf⟩
      cases h
      exact hf

theorem except_map_ok {ε α β : Type} {x : Except ε α} {f : α → β} {b : β} :
    f <$> x = .ok b ↔ ∃ a, x = .ok a ∧ f a = b := by
  cases x with
  | error e =>
    constructor
    · intro h
      cases h
    · rintro ⟨_, h, _⟩
      cases h
  | ok a =>
    constructor
    · intro h
      exact ⟨a, rfl, Except.ok.inj h⟩
    · rintro ⟨_, h, hf⟩
      cases h
      exact congrArg Except.ok hf

/-! ## Programs -/

/-- A program over requests `r : Req`, each answered by a value of `Resp r`. -/
inductive Program (Req : Type) (Resp : Req → Type) (ε α : Type) where
  /-- Return a value. -/
  | ret (a : α)
  /-- Raise an exception. -/
  | raise (e : ε)
  /-- Issue a request and go on with its answer. -/
  | call (r : Req) (k : Resp r → Program Req Resp ε α)

namespace Program

variable {Req : Type} {Resp : Req → Type} {ε α β γ σ : Type}

/-- Sequencing. -/
protected def bind : Program Req Resp ε α → (α → Program Req Resp ε β) → Program Req Resp ε β
  | ret a, f => f a
  | raise e, _ => raise e
  | call r k, f => call r fun v => (k v).bind f

instance : Monad (Program Req Resp ε) where
  pure := ret
  bind := Program.bind

@[simp] theorem pure_eq (a : α) : (pure a : Program Req Resp ε α) = ret a := rfl

@[simp] theorem ret_bind (a : α) (f : α → Program Req Resp ε β) : (ret a >>= f) = f a := rfl

@[simp] theorem raise_bind (e : ε) (f : α → Program Req Resp ε β) :
    ((raise e : Program Req Resp ε α) >>= f) = raise e := rfl

@[simp] theorem call_bind (r : Req) (k : Resp r → Program Req Resp ε α)
    (f : α → Program Req Resp ε β) : (call r k >>= f) = call r fun v => k v >>= f := rfl

theorem bind_assoc (p : Program Req Resp ε α) (f : α → Program Req Resp ε β)
    (g : β → Program Req Resp ε γ) : ((p >>= f) >>= g) = (p >>= fun a => f a >>= g) := by
  induction p with
  | ret a => rfl
  | raise e => rfl
  | call r k ih =>
    simp only [call_bind]
    exact congrArg (call r) (funext ih)

theorem bind_ret (p : Program Req Resp ε α) : (p >>= ret) = p := by
  induction p with
  | ret a => rfl
  | raise e => rfl
  | call r k ih =>
    rw [call_bind]
    exact congrArg (call r) (funext ih)

instance : LawfulMonad (Program Req Resp ε) :=
  LawfulMonad.mk' _ (fun p => bind_ret p) (fun _ _ => rfl) bind_assoc

/-- `try p except e: h e`. -/
def attempt : Program Req Resp ε α → (ε → Program Req Resp ε α) → Program Req Resp ε α
  | ret a, _ => ret a
  | raise e, h => h e
  | call r k, h => call r fun v => (k v).attempt h

/-- A pure computation that may fail. -/
def ofExcept : Except ε α → Program Req Resp ε α
  | .ok a => ret a
  | .error e => raise e

theorem ofExcept_bind (x : Except ε α) (f : α → Except ε β) :
    (ofExcept (x >>= f) : Program Req Resp ε β) = ofExcept x >>= fun a => ofExcept (f a) := by
  cases x <;> rfl

/-- `for x in xs: f x`. -/
def forEach : List β → (β → Program Req Resp ε Unit) → Program Req Resp ε Unit
  | [], _ => ret ()
  | x :: xs, f => f x >>= fun _ => forEach xs f

theorem forEach_pair (x y : β) (body : β → Program Req Resp ε Unit)
    (f : Unit → Program Req Resp ε α) :
    forEach [x, y] body >>= f = body x >>= fun _ => body y >>= f := by
  rw [forEach, forEach, bind_assoc]
  congr 1
  funext _
  rw [bind_assoc]
  rfl

/-! ## Running alone -/

/-- Run a program against an environment with state `σ` that answers every
request at once. -/
def run (exec : (r : Req) → σ → Resp r × σ) : Program Req Resp ε α → σ → Except ε α × σ
  | ret a, s => (.ok a, s)
  | raise e, s => (.error e, s)
  | call r k, s => run exec (k (exec r s).1) (exec r s).2

section run

variable (exec : (r : Req) → σ → Resp r × σ)

@[simp] theorem run_ret (a : α) (s : σ) :
    run exec (ret a : Program Req Resp ε α) s = (.ok a, s) := rfl

@[simp] theorem run_raise (e : ε) (s : σ) :
    run exec (raise e : Program Req Resp ε α) s = (.error e, s) := rfl

@[simp] theorem run_call (r : Req) (k : Resp r → Program Req Resp ε α) (s : σ) :
    run exec (call r k) s = run exec (k (exec r s).1) (exec r s).2 := rfl

theorem run_bind (p : Program Req Resp ε α) (f : α → Program Req Resp ε β) (s : σ) :
    run exec (p >>= f) s =
      match run exec p s with
      | (.ok a, t) => run exec (f a) t
      | (.error e, t) => (.error e, t) := by
  induction p generalizing s with
  | ret a => rfl
  | raise e => rfl
  | call r k ih => exact ih _ _

theorem run_bind_ok {p : Program Req Resp ε α} {f : α → Program Req Resp ε β} {s u : σ} {b : β} :
    run exec (p >>= f) s = (.ok b, u) ↔
      ∃ a t, run exec p s = (.ok a, t) ∧ run exec (f a) t = (.ok b, u) := by
  rw [run_bind]
  cases run exec p s with
  | mk o t =>
    cases o with
    | error e =>
      constructor
      · intro h
        cases congrArg Prod.fst h
      · rintro ⟨a, t', h, -⟩
        cases congrArg Prod.fst h
    | ok a =>
      constructor
      · exact fun h => ⟨a, t, rfl, h⟩
      · rintro ⟨a', t', h, hf⟩
        cases h
        exact hf

theorem run_map (p : Program Req Resp ε α) (g : α → β) (s : σ) :
    run exec (g <$> p) s = ((run exec p s).1.map g, (run exec p s).2) := by
  rw [map_eq_pure_bind, run_bind]
  cases run exec p s with
  | mk o t => cases o <;> rfl

theorem run_attempt (p : Program Req Resp ε α) (h : ε → Program Req Resp ε α) (s : σ) :
    run exec (p.attempt h) s =
      match run exec p s with
      | (.ok a, t) => (.ok a, t)
      | (.error e, t) => run exec (h e) t := by
  induction p generalizing s with
  | ret a => rfl
  | raise e => rfl
  | call r k ih => exact ih _ _

@[simp] theorem run_ofExcept (x : Except ε α) (s : σ) :
    run exec (ofExcept x : Program Req Resp ε α) s = (x, s) := by
  cases x <;> rfl

/-- A second part that leaves the state alone. -/
theorem run_bind_of_same {p : Program Req Resp ε α} {f : α → Program Req Resp ε β} {s : σ}
    (hf : ∀ a t, (run exec (f a) t).2 = t) : (run exec (p >>= f) s).2 = (run exec p s).2 := by
  rw [run_bind]
  cases run exec p s with
  | mk o t =>
    cases o with
    | ok a => exact hf a t
    | error e => rfl

/-- What both parts of a sequence keep of the state, the sequence keeps. -/
theorem run_bind_keeps {I : σ → Prop} {p : Program Req Resp ε α} {f : α → Program Req Resp ε β}
    {s : σ} (hp : I (run exec p s).2) (hf : ∀ a t, I t → I (run exec (f a) t).2) :
    I (run exec (p >>= f) s).2 := by
  rw [run_bind]
  cases hx : run exec p s with
  | mk o t =>
    rw [hx] at hp
    cases o with
    | ok a => exact hf a t hp
    | error e => exact hp

theorem run_attempt_keeps {I : σ → Prop} {p : Program Req Resp ε α}
    {h : ε → Program Req Resp ε α} {s : σ} (hp : I (run exec p s).2)
    (hh : ∀ e t, I t → I (run exec (h e) t).2) : I (run exec (p.attempt h) s).2 := by
  rw [run_attempt]
  cases hx : run exec p s with
  | mk o t =>
    rw [hx] at hp
    cases o with
    | ok a => exact hp
    | error e => exact hh e t hp

end run

/-! ## What a program can ask -/

/-- Every request the program may issue, whatever it is answered, satisfies `P`. -/
def All (P : Req → Prop) : Program Req Resp ε α → Prop
  | ret _ => True
  | raise _ => True
  | call r k => P r ∧ ∀ v, (k v).All P

section All

variable {P Q : Req → Prop}

@[simp] theorem all_ret (a : α) : (ret a : Program Req Resp ε α).All P := trivial

@[simp] theorem all_raise (e : ε) : (raise e : Program Req Resp ε α).All P := trivial

@[simp] theorem all_ofExcept (x : Except ε α) :
    (ofExcept x : Program Req Resp ε α).All P := by
  cases x <;> trivial

theorem All.bind {p : Program Req Resp ε α} {f : α → Program Req Resp ε β} (hp : p.All P)
    (hf : ∀ a, (f a).All P) : (p >>= f).All P := by
  induction p with
  | ret a => exact hf a
  | raise e => trivial
  | call r k ih => exact ⟨hp.1, fun v => ih v (hp.2 v)⟩

theorem All.attempt {p : Program Req Resp ε α} {h : ε → Program Req Resp ε α} (hp : p.All P)
    (hh : ∀ e, (h e).All P) : (p.attempt h).All P := by
  induction p with
  | ret a => trivial
  | raise e => exact hh e
  | call r k ih => exact ⟨hp.1, fun v => ih v (hp.2 v)⟩

theorem All.forEach {xs : List β} {f : β → Program Req Resp ε Unit} (hf : ∀ x ∈ xs, (f x).All P) :
    (forEach xs f).All P := by
  induction xs with
  | nil => trivial
  | cons x xs ih =>
    refine All.bind (hf x (by simp)) fun _ => ih fun y hy => hf y (by simp [hy])

theorem All.mono {p : Program Req Resp ε α} (h : ∀ r, P r → Q r) (hp : p.All P) : p.All Q := by
  induction p with
  | ret a => trivial
  | raise e => trivial
  | call r k ih => exact ⟨h r hp.1, fun v => ih v (hp.2 v)⟩

theorem all_true (p : Program Req Resp ε α) : p.All fun _ => True := by
  induction p with
  | ret a => trivial
  | raise e => trivial
  | call r k ih => exact ⟨trivial, ih⟩

end All

/-! ## What a program can raise -/

/-- Every exception the program may raise, whatever it is answered, satisfies `E`. -/
def Throws (E : ε → Prop) : Program Req Resp ε α → Prop
  | ret _ => True
  | raise e => E e
  | call _ k => ∀ v, (k v).Throws E

section Throws

variable {E : ε → Prop}

theorem Throws.bind {p : Program Req Resp ε α} {f : α → Program Req Resp ε β} (hp : p.Throws E)
    (hf : ∀ a, (f a).Throws E) : (p >>= f).Throws E := by
  induction p with
  | ret a => exact hf a
  | raise e => exact hp
  | call r k ih => exact fun v => ih v (hp v)

/-- A handler decides what its program raises. -/
theorem Throws.attempt {p : Program Req Resp ε α} {h : ε → Program Req Resp ε α}
    (hh : ∀ e, (h e).Throws E) : (p.attempt h).Throws E := by
  induction p with
  | ret a => trivial
  | raise e => exact hh e
  | call r k ih => exact fun v => ih v

theorem Throws.forEach {xs : List β} {f : β → Program Req Resp ε Unit}
    (hf : ∀ x ∈ xs, (f x).Throws E) : (forEach xs f).Throws E := by
  induction xs with
  | nil => trivial
  | cons x xs ih =>
    refine Throws.bind (hf x (by simp)) fun _ => ih fun y hy => hf y (by simp [hy])

theorem throws_ofExcept {x : Except ε α} (hx : ∀ e, x = .error e → E e) :
    (ofExcept x : Program Req Resp ε α).Throws E := by
  cases x with
  | ok a => trivial
  | error e => exact hx e rfl

theorem Throws.run {exec : (r : Req) → σ → Resp r × σ} {p : Program Req Resp ε α}
    (hp : p.Throws E) {s : σ} {e : ε} (h : (p.run exec s).1 = .error e) : E e := by
  induction p generalizing s with
  | ret a => cases h
  | raise e' =>
    cases h
    exact hp
  | call r k ih => exact ih _ (hp _) h

end Throws

/-! ## What a program can return -/

/-- Every value the program may return, whatever it is answered, satisfies `V`. -/
def Gives (V : α → Prop) : Program Req Resp ε α → Prop
  | ret a => V a
  | raise _ => True
  | call _ k => ∀ v, (k v).Gives V

section Gives

variable {V : α → Prop} {W : β → Prop} {P : Req → Prop} {p : Program Req Resp ε α}
  {f : α → Program Req Resp ε β}

/-- The last part of a sequence decides what it returns. -/
theorem Gives.bind (hf : ∀ a, (f a).Gives W) : (p >>= f).Gives W := by
  induction p with
  | ret a => exact hf a
  | raise e => trivial
  | call r k ih => exact fun v => ih v

theorem Gives.attempt {h : ε → Program Req Resp ε α} (hp : p.Gives V) (hh : ∀ e, (h e).Gives V) :
    (p.attempt h).Gives V := by
  induction p with
  | ret a => exact hp
  | raise e => exact hh e
  | call r k ih => exact fun v => ih v (hp v)

/-- The second part of a sequence may rely on what the first has returned. -/
theorem Gives.all_bind (hg : p.Gives V) (hp : p.All P) (hf : ∀ a, V a → (f a).All P) :
    (p >>= f).All P := by
  induction p with
  | ret a => exact hf a hg
  | raise e => trivial
  | call r k ih => exact ⟨hp.1, fun v => ih v (hg v) (hp.2 v)⟩

end Gives

end Program

end WalletLedger
