import Mathlib.Data.List.Basic
import Mathlib.Tactic.Common

/-!
# Row locks

The part of a database's lock manager that decides who waits: a table of granted
row locks, the modes in which a row can be held, and which modes exclude each
other.  A lock is kept until its owner ends its transaction.

* `LockMode.conflicts` — the compatibility matrix of the three row-lock modes a
  foreign-key check, a plain `UPDATE` and a `SELECT .. FOR UPDATE` take.
* `LockTable.blocked`, `grant`, `release` — the operations.
* `LockTable.Exclusive` — no two owners hold conflicting locks on one row; kept
  by every operation (`exclusive_grant`, `exclusive_release`).
* `LockTable.WaitsFor` — who waits for whom: `blocked_iff`.
* `Exclusive.not_holds` — what a holder of `FOR UPDATE` may conclude: nobody else
  holds any lock on that row.
-/

namespace WalletLedger

/-- The modes in which a transaction may hold a row. -/
inductive LockMode where
  /-- `FOR KEY SHARE`: taken on the referenced row by a foreign-key check. -/
  | keyShare
  /-- `FOR NO KEY UPDATE`: taken by an `UPDATE` that leaves the key alone. -/
  | noKeyUpdate
  /-- `FOR UPDATE`. -/
  | update
  deriving DecidableEq, Repr

/-- Two owners cannot hold one row in conflicting modes. -/
def LockMode.conflicts : LockMode → LockMode → Bool
  | .keyShare, .update => true
  | .keyShare, _ => false
  | .noKeyUpdate, .keyShare => false
  | .noKeyUpdate, _ => true
  | .update, _ => true

theorem LockMode.conflicts_comm (m n : LockMode) : m.conflicts n = n.conflicts m := by
  cases m <;> cases n <;> rfl

@[simp] theorem LockMode.update_conflicts (m : LockMode) :
    LockMode.conflicts .update m = true := rfl

/-- A granted lock. -/
structure Lock (ι ρ : Type) where
  owner : ι
  row : ρ
  mode : LockMode
  deriving DecidableEq

/-- The granted locks. -/
abbrev LockTable (ι ρ : Type) := List (Lock ι ρ)

namespace LockTable

variable {ι ρ : Type}

/-- Owner `i` holds `row` in mode `m`. -/
def Holds (T : LockTable ι ρ) (i : ι) (row : ρ) (m : LockMode) : Prop := ⟨i, row, m⟩ ∈ T

/-- Owner `i` wants the rows, and `j` holds one of them in a conflicting mode. -/
def WaitsFor (T : LockTable ι ρ) (i : ι) (wanted : List (ρ × LockMode)) (j : ι) : Prop :=
  j ≠ i ∧ ∃ w ∈ wanted, ∃ m, T.Holds j w.1 m ∧ m.conflicts w.2 = true

/-- No two owners hold conflicting locks. -/
def Exclusive (T : LockTable ι ρ) : Prop :=
  ∀ l₁ ∈ T, ∀ l₂ ∈ T, l₁.owner ≠ l₂.owner → l₁.row = l₂.row →
    l₁.mode.conflicts l₂.mode = false

/-- Add the locks `wanted` for owner `i`. -/
def grant (T : LockTable ι ρ) (i : ι) (wanted : List (ρ × LockMode)) : LockTable ι ρ :=
  T ++ wanted.map fun w => ⟨i, w.1, w.2⟩

theorem holds_grant_of_holds {T : LockTable ι ρ} {i j : ι} {row : ρ} {m : LockMode}
    {wanted : List (ρ × LockMode)} (h : T.Holds i row m) : (T.grant j wanted).Holds i row m :=
  List.mem_append_left _ h

theorem holds_grant {T : LockTable ι ρ} {i : ι} {row : ρ} {m : LockMode}
    {wanted : List (ρ × LockMode)} (h : (row, m) ∈ wanted) : (T.grant i wanted).Holds i row m :=
  List.mem_append_right _ (List.mem_map.2 ⟨(row, m), h, rfl⟩)

theorem holds_grant_iff_of_ne {T : LockTable ι ρ} {i j : ι} (hij : j ≠ i) {row : ρ} {m : LockMode}
    {wanted : List (ρ × LockMode)} : (T.grant i wanted).Holds j row m ↔ T.Holds j row m := by
  constructor
  · intro h
    rcases List.mem_append.1 h with h | h
    · exact h
    · obtain ⟨w, _, hw⟩ := List.mem_map.1 h
      exact absurd (congrArg Lock.owner hw) (Ne.symm hij)
  · exact holds_grant_of_holds

theorem exclusive_nil : Exclusive ([] : LockTable ι ρ) := by
  intro l₁ h₁
  cases h₁

/-- The holder of `FOR UPDATE` is alone on its row. -/
theorem Exclusive.not_holds {T : LockTable ι ρ} (hT : T.Exclusive) {i j : ι} {row : ρ}
    {m : LockMode} (hi : T.Holds i row .update) (hij : j ≠ i) : ¬ T.Holds j row m := by
  intro hj
  have := hT _ hi _ hj (Ne.symm hij) rfl
  simp at this

section

variable [DecidableEq ι] [DecidableEq ρ]

/-- Some other owner holds one of the wanted rows in a conflicting mode. -/
def blocked (T : LockTable ι ρ) (i : ι) (wanted : List (ρ × LockMode)) : Bool :=
  wanted.any fun w => T.any fun l => l.owner ≠ i && l.row = w.1 && l.mode.conflicts w.2

/-- Drop every lock of owner `i`: its transaction has ended. -/
def release (T : LockTable ι ρ) (i : ι) : LockTable ι ρ := T.filter fun l => l.owner ≠ i

omit [DecidableEq ρ] in
theorem holds_release_iff {T : LockTable ι ρ} {i j : ι} (hij : j ≠ i) {row : ρ} {m : LockMode} :
    (T.release i).Holds j row m ↔ T.Holds j row m := by
  simp [Holds, release, hij]

theorem blocked_eq_false_iff {T : LockTable ι ρ} {i : ι} {wanted : List (ρ × LockMode)} :
    T.blocked i wanted = false ↔
      ∀ w ∈ wanted, ∀ l ∈ T, l.owner ≠ i → l.row = w.1 → l.mode.conflicts w.2 = false := by
  simp only [blocked, List.any_eq_false, Bool.not_eq_true, Bool.and_eq_false_iff,
    decide_eq_false_iff_not, not_not]
  constructor
  · intro h w hw l hl ho hr
    rcases h w hw l hl with (h' | h') | h'
    · exact absurd h' ho
    · exact absurd hr h'
    · exact h'
  · intro h w hw l hl
    by_cases ho : l.owner = i
    · exact .inl (.inl ho)
    · by_cases hr : l.row = w.1
      · exact .inr (h w hw l hl ho hr)
      · exact .inl (.inr hr)

omit [DecidableEq ι] [DecidableEq ρ] in
theorem waitsFor_def {T : LockTable ι ρ} {i j : ι} {wanted : List (ρ × LockMode)} :
    T.WaitsFor i wanted j ↔
      j ≠ i ∧ ∃ w ∈ wanted, ∃ l ∈ T, l.owner = j ∧ l.row = w.1 ∧ l.mode.conflicts w.2 = true := by
  refine and_congr_right fun _ => ⟨?_, ?_⟩
  · rintro ⟨w, hw, m, hl, hm⟩
    exact ⟨w, hw, _, hl, rfl, rfl, hm⟩
  · rintro ⟨w, hw, l, hl, rfl, hrow, hm⟩
    exact ⟨w, hw, l.mode, hrow ▸ hl, hm⟩

instance (T : LockTable ι ρ) (i j : ι) (wanted : List (ρ × LockMode)) :
    Decidable (T.WaitsFor i wanted j) := decidable_of_iff _ waitsFor_def.symm

/-- Who is blocked waits for somebody. -/
theorem blocked_iff {T : LockTable ι ρ} {i : ι} {wanted : List (ρ × LockMode)} :
    T.blocked i wanted = true ↔ ∃ j, T.WaitsFor i wanted j := by
  simp only [blocked, waitsFor_def, List.any_eq_true, Bool.and_eq_true, decide_eq_true_eq]
  constructor
  · rintro ⟨w, hw, l, hl, ⟨ho, hr⟩, hm⟩
    exact ⟨l.owner, ho, w, hw, l, hl, rfl, hr, hm⟩
  · rintro ⟨j, ho, w, hw, l, hl, rfl, hr, hm⟩
    exact ⟨w, hw, l, hl, ⟨ho, hr⟩, hm⟩

theorem exclusive_grant {T : LockTable ι ρ} (hT : T.Exclusive) {i : ι}
    {wanted : List (ρ × LockMode)} (hb : T.blocked i wanted = false) :
    (T.grant i wanted).Exclusive := by
  rw [blocked_eq_false_iff] at hb
  intro l₁ h₁ l₂ h₂ hne hrow
  rcases List.mem_append.1 h₁ with h₁ | h₁ <;> rcases List.mem_append.1 h₂ with h₂ | h₂
  · exact hT l₁ h₁ l₂ h₂ hne hrow
  · obtain ⟨w, hw, rfl⟩ := List.mem_map.1 h₂
    exact hb w hw l₁ h₁ hne hrow
  · obtain ⟨w, hw, rfl⟩ := List.mem_map.1 h₁
    rw [LockMode.conflicts_comm]
    exact hb w hw l₂ h₂ (Ne.symm hne) hrow.symm
  · obtain ⟨w, _, rfl⟩ := List.mem_map.1 h₁
    obtain ⟨w', _, rfl⟩ := List.mem_map.1 h₂
    exact absurd rfl hne

omit [DecidableEq ρ] in
theorem exclusive_release {T : LockTable ι ρ} (hT : T.Exclusive) (i : ι) :
    (T.release i).Exclusive := fun l₁ h₁ l₂ h₂ =>
  hT l₁ (List.mem_of_mem_filter h₁) l₂ (List.mem_of_mem_filter h₂)

end

end LockTable

end WalletLedger
