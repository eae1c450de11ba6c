import WalletLedger.Lib.Crash

/-!
# One program, two environments

Two environments may answer some requests differently.  A program that never looks at those
answers cannot tell them apart: it returns the same, and leaves states that correspond.

* `Program.Blind` — what follows a request of a class does not depend on its answer, with the
  rules for sequencing, handlers and loops.
* `Alike` — two environments that answer alike outside the class.
* `Program.Blind.run_alike`, `Program.Blind.killed_alike` — so does the program end, wherever it
  is killed.
-/

namespace WalletLedger

variable {Req : Type} {Resp : Req → Type} {ε α β σ τ : Type}

/-! ## Programs that do not look -/

/-- What follows a request in `S` does not depend on its answer. -/
def Program.Blind (S : Req → Prop) : Program Req Resp ε α → Prop
  | ret _ => True
  | raise _ => True
  | call r k => (S r → ∀ v v', k v = k v') ∧ ∀ v, (k v).Blind S

namespace Program

variable {S : Req → Prop} {p : Program Req Resp ε α}

/-- A program that issues no such request. -/
theorem All.blind (hp : p.All fun r => ¬ S r) : p.Blind S := by
  induction p with
  | ret a => trivial
  | raise e => trivial
  | call r k ih => exact ⟨fun hr => absurd hr hp.1, fun v => ih v (hp.2 v)⟩

theorem Blind.bind {f : α → Program Req Resp ε β} (hp : p.Blind S) (hf : ∀ a, (f a).Blind S) :
    (p >>= f).Blind S := by
  induction p with
  | ret a => exact hf a
  | raise e => trivial
  | call r k ih =>
    refine ⟨fun hr v v' => ?_, fun v => ih v (hp.2 v)⟩
    dsimp only
    rw [hp.1 hr v v']

/-- First a program that issues no such request. -/
theorem All.then {f : α → Program Req Resp ε β} (hp : p.All fun r => ¬ S r)
    (hf : ∀ a, (f a).Blind S) : (p >>= f).Blind S := hp.blind.bind hf

theorem Blind.attempt {h : ε → Program Req Resp ε α} (hp : p.Blind S) (hh : ∀ e, (h e).Blind S) :
    (p.attempt h).Blind S := by
  induction p with
  | ret a => trivial
  | raise e => exact hh e
  | call r k ih =>
    refine ⟨fun hr v v' => ?_, fun v => ih v (hp.2 v)⟩
    dsimp only
    rw [hp.1 hr v v']

theorem Blind.forEach {xs : List β} {f : β → Program Req Resp ε Unit}
    (hf : ∀ x ∈ xs, (f x).Blind S) : (forEach xs f).Blind S := by
  induction xs with
  | nil => trivial
  | cons x xs ih =>
    refine Blind.bind (hf x (by simp)) fun _ => ih fun y hy => ?_
    exact hf y (by simp [hy])

theorem Blind.map (hp : p.Blind S) (g : α → β) : (g <$> p).Blind S := by
  rw [map_eq_pure_bind]
  exact hp.bind fun _ => trivial

end Program

/-! ## Environments that answer alike -/

/-- The environments answer alike outside `S`, and go from corresponding states to corresponding
ones. -/
structure Alike (S : Req → Prop) (exec : (r : Req) → σ → Resp r × σ)
    (exec' : (r : Req) → τ → Resp r × τ) (R : σ → τ → Prop) : Prop where
  answer : ∀ r s t, ¬ S r → R s t → (exec r s).1 = (exec' r t).1
  next : ∀ r s t, R s t → R (exec r s).2 (exec' r t).2

namespace Program.Blind

variable {S : Req → Prop} {p : Program Req Resp ε α} {exec : (r : Req) → σ → Resp r × σ}
  {exec' : (r : Req) → τ → Resp r × τ} {R : σ → τ → Prop} {s : σ} {t : τ}

/-- After a request the program goes on alike. -/
theorem continues {r : Req} {k : Resp r → Program Req Resp ε α} (h : Alike S exec exec' R)
    (hk : S r → ∀ v v', k v = k v') (hs : R s t) : k (exec r s).1 = k (exec' r t).1 := by
  by_cases hr : S r
  · exact hk hr _ _
  · rw [h.answer r s t hr hs]

theorem run_alike (h : Alike S exec exec' R) (hp : p.Blind S) (hs : R s t) :
    (p.run exec s).1 = (p.run exec' t).1 ∧ R (p.run exec s).2 (p.run exec' t).2 := by
  induction p generalizing s t with
  | ret a => exact ⟨rfl, hs⟩
  | raise e => exact ⟨rfl, hs⟩
  | call r k ih =>
    have hnext := ih (exec r s).1 (hp.2 _) (h.next r s t hs)
    rw [run_call, run_call, ← continues h hp.1 hs]
    exact hnext

theorem killed_alike (h : Alike S exec exec' R) (hp : p.Blind S) (hs : R s t) (n : ℕ) :
    R (killed exec n p s) (killed exec' n p t) := by
  induction p generalizing s t n with
  | ret a => rwa [killed_ret, killed_ret]
  | raise e => rwa [killed_raise, killed_raise]
  | call r k ih =>
    cases n with
    | zero => exact hs
    | succ n =>
      have hnext := ih (exec r s).1 (hp.2 _) (h.next r s t hs) n
      rw [killed_call, killed_call, ← continues h hp.1 hs]
      exact hnext

end Program.Blind

end WalletLedger
