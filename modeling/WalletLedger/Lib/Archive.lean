import WalletLedger.Lib.Tally
import Mathlib.Data.List.Forall2

/-!
# Tables that only grow

`Extends R l m`: the table `m` still holds every row of `l`, in its place, as it was or in
a later version that `R` allows, and any new rows behind them.

* `Extends.refl`, `Extends.trans` — with a reflexive and transitive `R` it is a preorder.
* `extends_append`, `extends_map`, `extends_modify` — inserting rows, and changing some in
  a way `R` allows.
* `Extends.exists_of_mem` — what becomes of a row.
-/

namespace WalletLedger

variable {α κ : Type} {R S : α → α → Prop} {l m n : List α}

/-- The rows of `l` in a later version, and new ones behind them. -/
def Extends (R : α → α → Prop) (l m : List α) : Prop :=
  ∃ kept added, m = kept ++ added ∧ List.Forall₂ R l kept

theorem forall₂_map {f : α → α} (hf : ∀ x ∈ l, R x (f x)) : List.Forall₂ R l (l.map f) := by
  rw [List.forall₂_map_right_iff, List.forall₂_same]
  exact hf

/-- Some rows are changed, and others inserted. -/
theorem extends_map {f : α → α} (hf : ∀ x ∈ l, R x (f x)) (m : List α) :
    Extends R l (l.map f ++ m) := ⟨l.map f, m, rfl, forall₂_map hf⟩

theorem extends_append (hR : ∀ x, R x x) (l m : List α) : Extends R l (l ++ m) :=
  ⟨l, m, rfl, List.forall₂_same.2 fun x _ => hR x⟩

theorem Extends.refl (hR : ∀ x, R x x) (l : List α) : Extends R l l := by
  simpa using extends_append hR l []

/-- One row is changed. -/
theorem extends_modify [DecidableEq κ] {key : α → κ} {k : κ} {g : α → α} (hR : ∀ x, R x x)
    (hg : ∀ x ∈ l, key x = k → R x (g x)) : Extends R l (modify key k g l) := by
  have h : Extends R l (l.map (fun x => if key x = k then g x else x) ++ []) := by
    refine extends_map (fun x hx => ?_) []
    split
    · exact hg x hx ‹_›
    · exact hR x
  rwa [List.append_nil] at h

theorem Extends.mono (hRS : ∀ x y, R x y → S x y) (h : Extends R l m) : Extends S l m := by
  obtain ⟨kept, added, hm, hkept⟩ := h
  exact ⟨kept, added, hm, hkept.imp hRS⟩

theorem Extends.trans (hR : ∀ x y z, R x y → R y z → R x z) (h : Extends R l m)
    (h' : Extends R m n) : Extends R l n := by
  obtain ⟨kept, added, rfl, hkept⟩ := h
  obtain ⟨later, new, rfl, hlater⟩ := h'
  -- the rows of `l` are the first ones of `kept ++ added`, and of `later`
  refine ⟨later.take kept.length, later.drop kept.length ++ new, ?_, ?_⟩
  · rw [← List.append_assoc, List.take_append_drop]
  · have hfirst : List.Forall₂ R kept (later.take kept.length) := by
      have htake := List.forall₂_take kept.length hlater
      rwa [List.take_left] at htake
    clear hlater
    revert hfirst
    generalize later.take kept.length = first
    intro hfirst
    induction hkept generalizing first with
    | nil => exact hfirst
    | cons hxy _ ih =>
      obtain ⟨z, rest, hyz, hrest, rfl⟩ := List.forall₂_cons_left_iff.1 hfirst
      exact .cons (hR _ _ _ hxy hyz) (ih rest hrest)

/-- A row is still there, as it was or in a later version. -/
theorem Extends.exists_of_mem (h : Extends R l m) {x : α} (hx : x ∈ l) : ∃ y ∈ m, R x y := by
  obtain ⟨kept, added, rfl, hkept⟩ := h
  induction hkept with
  | nil => cases hx
  | cons hxy _ ih =>
    rcases List.mem_cons.1 hx with rfl | hx
    · exact ⟨_, by simp, hxy⟩
    · obtain ⟨y, hy, hxy⟩ := ih hx
      exact ⟨y, List.mem_cons_of_mem _ hy, hxy⟩

end WalletLedger
