import WalletLedger.Lib.Tally
import Mathlib.Order.Basic

/-!
# Checkpoints of a running total

A log of rows, each at a position, some of which count towards a total.  A
**checkpoint** freezes the total up to a position (its cursor), so that a reader
only has to add the rows beyond it.

* `Exact` — the checkpoint holds the total of the counting rows up to its cursor.
* `Exact.read` — read through an exact checkpoint, the total is the whole total.
* `Exact.append`, `Exact.modify` — new rows beyond the cursor, and changes to rows
  beyond the cursor, keep a checkpoint exact.  Nothing else does: a row at or
  below the cursor that starts to count is never seen again.
* `Exact.cut` — a checkpoint cut from an exact one is exact.
* `delta_append`, `delta_eq_zero` — what a reader adds to a checkpoint, exact or not.
-/

namespace WalletLedger

namespace Checkpoint

variable {α κ M : Type} [AddCommMonoid M]
variable (counts : α → Prop) [DecidablePred counts] (pos : α → ℕ) (amount : α → M)

/-- The total of the counting rows beyond a cursor. -/
def delta (cursor : ℕ) (l : List α) : M := tally (fun x => counts x ∧ cursor < pos x) amount l

/-- The base is the total of the counting rows up to the cursor. -/
def Exact (cursor : ℕ) (base : M) (l : List α) : Prop :=
  base = tally (fun x => counts x ∧ ¬ cursor < pos x) amount l

variable {counts pos amount} {cursor : ℕ} {base : M} {l : List α}

/-- Reading through an exact checkpoint gives the whole total. -/
theorem Exact.read (h : Exact counts pos amount cursor base l) :
    base + delta counts pos amount cursor l = tally counts amount l := by
  rw [delta, h, add_comm]
  exact (tally_split l).symm

/-- Before the first row, nothing is frozen. -/
theorem exact_zero (h : ∀ x ∈ l, 0 < pos x) : Exact counts pos amount 0 0 l :=
  (tally_eq_zero fun x hx hc => absurd (h x hx) hc.2).symm

/-- Rows appended beyond the cursor do not concern the checkpoint. -/
theorem Exact.append (h : Exact counts pos amount cursor base l) {m : List α}
    (hm : ∀ x ∈ m, counts x → cursor < pos x) : Exact counts pos amount cursor base (l ++ m) := by
  unfold Exact at h ⊢
  have hzero : tally (fun x => counts x ∧ ¬ cursor < pos x) amount m = 0 :=
    tally_eq_zero fun x hx hc => absurd (hm x hx hc.1) hc.2
  rw [tally_append, hzero, add_zero, ← h]

/-- The order of the rows does not matter. -/
theorem Exact.perm (h : Exact counts pos amount cursor base l) {m : List α} (hm : l.Perm m) :
    Exact counts pos amount cursor base m := by
  unfold Exact at h ⊢
  rw [h, tally_perm hm]

/-- Changes to rows beyond the cursor do not concern the checkpoint. -/
theorem Exact.modify [DecidableEq κ] {key : α → κ} {k : κ} {g : α → α}
    (h : Exact counts pos amount cursor base l)
    (hg : ∀ x ∈ l, key x = k → pos (g x) = pos x ∧
      (cursor < pos x ∨ (counts x ↔ counts (g x)) ∧ (counts x → amount (g x) = amount x))) :
    Exact counts pos amount cursor base (modify key k g l) := by
  unfold Exact at h ⊢
  rw [h]
  refine (tally_modify_of_not fun x hx hk => ?_).symm
  obtain ⟨hpos, hlt | ⟨hc, ha⟩⟩ := hg x hx hk
  · rw [hpos]
    exact ⟨⟨fun hx => absurd hlt hx.2, fun hx => absurd hlt hx.2⟩, fun hx => absurd hlt hx.2⟩
  · rw [hpos, hc]
    exact ⟨Iff.rfl, fun hx => ha (hc.2 hx.1)⟩

/-- Rows appended beyond the cursor add their own total. -/
theorem delta_append {m : List α} (hm : ∀ x ∈ m, counts x → cursor < pos x) :
    delta counts pos amount cursor (l ++ m) =
      delta counts pos amount cursor l + tally counts amount m := by
  unfold delta
  rw [tally_append]
  congr 1
  exact tally_congr (fun x hx => ⟨fun hc => hc.1, fun hc => ⟨hc, hm x hx hc⟩⟩) fun _ _ _ => rfl

/-- Nothing is left beyond the last counting row. -/
theorem delta_eq_zero (h : ∀ x ∈ l, counts x → pos x ≤ cursor) :
    delta counts pos amount cursor l = 0 :=
  tally_eq_zero fun x hx hc => absurd hc.2 (not_lt.2 (h x hx hc.1))

/-- Cutting a checkpoint at a position no counting row exceeds. -/
theorem Exact.cut (h : Exact counts pos amount cursor base l) {last : ℕ}
    (hlast : ∀ x ∈ l, counts x → pos x ≤ last) :
    Exact counts pos amount last (base + delta counts pos amount cursor l) l := by
  unfold Exact
  rw [h.read]
  refine tally_congr (fun x hx => ?_) fun _ _ _ => rfl
  exact ⟨fun hc => ⟨hc, not_lt.2 (hlast x hx hc)⟩, fun hc => hc.1⟩

end Checkpoint

end WalletLedger
