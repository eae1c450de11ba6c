import Mathlib.Data.List.Induction

/-!
# Runs of a deterministic system

A system whose operations each take a state to the next one, run one after the
other.  `Run step C s₀ s` says that `s` is reached from `s₀` by operations that each
met the condition `C` in the state they started from.

* `Run.invariant`, `Run.invariant_of` — the induction over a run, once and for all.
* `Run.foldl` — with the trivial condition, every list of operations gives a run.
* `Along`, `Run.of_along` — the condition checked along a list of operations.
-/

namespace WalletLedger

variable {ω σ : Type}

/-- The states reached from `s₀` by operations that meet `C`. -/
inductive Run (step : ω → σ → σ) (C : ω → σ → Prop) (s₀ : σ) : σ → Prop
  | start : Run step C s₀ s₀
  | step {s : σ} (op : ω) : Run step C s₀ s → C op s → Run step C s₀ (step op s)

/-- The trivial condition on operations. -/
abbrev anyOp : ω → σ → Prop := fun _ _ => True

namespace Run

variable {step : ω → σ → σ} {C : ω → σ → Prop} {s₀ s : σ}

/-- What holds at the start and is kept by every allowed operation holds of every
state of a run. -/
theorem invariant {I : σ → Prop} (h₀ : I s₀) (hstep : ∀ op s, I s → C op s → I (step op s))
    (h : Run step C s₀ s) : I s := by
  induction h with
  | start => exact h₀
  | step op _ hC ih => exact hstep op _ ih hC

/-- What is already known of every state of a run may be used of each of its steps. -/
theorem invariant_of {I J : σ → Prop} (hJ : ∀ {s}, Run step C s₀ s → J s) (h₀ : I s₀)
    (hstep : ∀ op s, J s → I s → C op s → I (step op s)) (h : Run step C s₀ s) : I s := by
  induction h with
  | start => exact h₀
  | step op hrun hC ih => exact hstep op _ (hJ hrun) ih hC

/-- Running a list of operations. -/
theorem foldl (ops : List ω) : Run step anyOp s₀ (ops.foldl (fun s op => step op s) s₀) := by
  induction ops using List.reverseRecOn with
  | nil => exact .start
  | append_singleton ops op ih =>
    rw [List.foldl_append]
    exact .step op ih trivial

end Run

/-- The condition holds of every operation of the list, in the state it starts from. -/
def Along (step : ω → σ → σ) (C : ω → σ → Prop) : List ω → σ → Prop
  | [], _ => True
  | op :: ops, s => C op s ∧ Along step C ops (step op s)

instance decidableAlong (step : ω → σ → σ) (C : ω → σ → Prop) [∀ op s, Decidable (C op s)] :
    (ops : List ω) → (s : σ) → Decidable (Along step C ops s)
  | [], _ => inferInstanceAs (Decidable True)
  | op :: ops, s =>
      have := decidableAlong step C ops (step op s)
      inferInstanceAs (Decidable (C op s ∧ Along step C ops (step op s)))

theorem Run.trans {step : ω → σ → σ} {C : ω → σ → Prop} {s₀ s₁ s₂ : σ} (h₁ : Run step C s₀ s₁)
    (h₂ : Run step C s₁ s₂) : Run step C s₀ s₂ := by
  induction h₂ with
  | start => exact h₁
  | step op _ hC ih => exact .step op ih hC

/-- A list of operations that meet the condition is a run. -/
theorem Run.of_along {step : ω → σ → σ} {C : ω → σ → Prop} {ops : List ω} {s₀ : σ}
    (h : Along step C ops s₀) : Run step C s₀ (ops.foldl (fun s op => step op s) s₀) := by
  induction ops generalizing s₀ with
  | nil => exact .start
  | cons op ops ih => exact (Run.step op .start h.1).trans (ih h.2)

end WalletLedger
