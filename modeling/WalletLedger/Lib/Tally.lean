import Mathlib.Algebra.BigOperators.Group.List.Basic
import Mathlib.Algebra.Group.Submonoid.Defs
import Mathlib.Algebra.Order.Monoid.Defs
import Mathlib.Data.List.Nodup
import Mathlib.Tactic.Abel

/-!
# Tallies: sums over the selected elements of a list

`tally p f l` is the sum of `f x` over the elements `x` of `l` with `p x`.  It is
what an aggregate query computes, and what a conservation law speaks about.

* `tally_append`, `tally_split` — a tally splits along the list and along a
  further condition.
* `tally_modify` — changing one row, found by its key, moves the tally by the
  difference of that row's contributions.
* `sum_tally_fiber`, `tally_eq_sum_fiber` — adding up the tallies of every key of a
  list is one tally over the elements whose key is on the list.
-/

namespace WalletLedger

variable {α κ M : Type} [AddCommMonoid M]

/-- The sum of `f` over the elements of `l` that satisfy `p`. -/
def tally (p : α → Prop) [DecidablePred p] (f : α → M) (l : List α) : M :=
  ((l.filter fun x => decide (p x)).map f).sum

/-- Replace the rows with the given key. -/
def modify [DecidableEq κ] (key : α → κ) (k : κ) (g : α → α) (l : List α) : List α :=
  l.map fun x => if key x = k then g x else x

section tally

variable (p q : α → Prop) [DecidablePred p] [DecidablePred q] (f g : α → M)

@[simp] theorem tally_nil : tally p f [] = 0 := rfl

@[simp] theorem tally_cons (x : α) (l : List α) :
    tally p f (x :: l) = (if p x then f x else 0) + tally p f l := by
  unfold tally
  by_cases h : p x <;> simp [h]

@[simp] theorem tally_append (l m : List α) : tally p f (l ++ m) = tally p f l + tally p f m := by
  simp [tally]

variable {p q f g}

/-- The order does not matter. -/
theorem tally_perm {l m : List α} (h : l.Perm m) : tally p f l = tally p f m :=
  ((h.filter _).map f).sum_eq

theorem tally_congr {l : List α} (hp : ∀ x ∈ l, (p x ↔ q x)) (hf : ∀ x ∈ l, q x → f x = g x) :
    tally p f l = tally q g l := by
  induction l with
  | nil => rfl
  | cons x l ih =>
    rw [tally_cons, tally_cons,
      ih (fun y hy => hp y (by simp [hy])) fun y hy => hf y (by simp [hy])]
    have hx := hp x (by simp)
    by_cases h : q x
    · simp [hx, h, hf x (by simp) h]
    · simp [hx, h]

theorem tally_eq_zero {l : List α} (h : ∀ x ∈ l, p x → f x = 0) : tally p f l = 0 := by
  induction l with
  | nil => rfl
  | cons x l ih =>
    rw [tally_cons, ih fun y hy => h y (by simp [hy]), add_zero]
    split
    · exact h x (by simp) ‹_›
    · rfl

theorem tally_map {β : Type} (g : β → α) (l : List β) :
    tally p f (l.map g) = tally (fun x => p (g x)) (fun x => f (g x)) l := by
  induction l with
  | nil => rfl
  | cons x l ih => rw [List.map_cons, tally_cons, tally_cons, ih]

theorem tally_filter (c : α → Bool) {l : List α} :
    tally p f (l.filter c) = tally (fun x => c x = true ∧ p x) f l := by
  induction l with
  | nil => rfl
  | cons x l ih =>
    by_cases h : c x = true
    · rw [List.filter_cons_of_pos h, tally_cons, tally_cons, ih]
      simp [h]
    · rw [List.filter_cons_of_neg h, tally_cons, ih]
      simp [h]

/-- A tally splits into the part with a further condition and the part without. -/
theorem tally_split (l : List α) :
    tally p f l = tally (fun x => p x ∧ q x) f l + tally (fun x => p x ∧ ¬ q x) f l := by
  induction l with
  | nil => simp
  | cons x l ih =>
    rw [tally_cons, tally_cons, tally_cons, ih]
    by_cases hp : p x <;> by_cases hq : q x <;> simp [hp, hq] <;> abel

/-- A tally is a sum over the whole list. -/
theorem sum_map_ite (l : List α) : (l.map fun x => if p x then f x else 0).sum = tally p f l := by
  induction l with
  | nil => rfl
  | cons x l ih => rw [List.map_cons, List.sum_cons, ih, tally_cons]

theorem tally_neg {G : Type} [AddCommGroup G] (p : α → Prop) [DecidablePred p] (f : α → G)
    (l : List α) : tally p (fun x => -f x) l = -tally p f l := by
  induction l with
  | nil => simp
  | cons x l ih =>
    rw [tally_cons, tally_cons, ih, neg_add]
    split
    · rfl
    · rw [neg_zero]

/-- Comparing two tallies row by row. -/
theorem tally_le_tally [PartialOrder M] [IsOrderedAddMonoid M] {l : List α}
    (h : ∀ x ∈ l, (if p x then f x else 0) ≤ if q x then g x else 0) :
    tally p f l ≤ tally q g l := by
  induction l with
  | nil => exact le_rfl
  | cons x l ih =>
    rw [tally_cons, tally_cons]
    exact add_le_add (h x (by simp)) (ih fun y hy => h y (by simp [hy]))

theorem tally_mem {s : AddSubmonoid M} {l : List α} (h : ∀ x ∈ l, p x → f x ∈ s) :
    tally p f l ∈ s := by
  induction l with
  | nil => exact s.zero_mem
  | cons x l ih =>
    rw [tally_cons]
    refine s.add_mem ?_ (ih fun y hy => h y (by simp [hy]))
    split
    · exact h x (by simp) ‹_›
    · exact s.zero_mem

end tally

/-! ## Changing one row -/

section modify

variable [DecidableEq κ] {key : α → κ} {k : κ} {g : α → α} {l : List α}

@[simp] theorem modify_append (l m : List α) :
    modify key k g (l ++ m) = modify key k g l ++ modify key k g m := by
  simp [modify]

theorem modify_of_forall_ne (h : ∀ x ∈ l, key x ≠ k) : modify key k g l = l := by
  induction l with
  | nil => rfl
  | cons x l ih =>
    rw [modify, List.map_cons, if_neg (h x (by simp)), ← modify, ih fun y hy => h y (by simp [hy])]

theorem mem_modify {y : α} :
    y ∈ modify key k g l ↔ ∃ x ∈ l, y = if key x = k then g x else x := by
  simp [modify, eq_comm]

/-- A row of the changed table agrees with a former one on a column that is not touched. -/
theorem exists_of_mem_modify {β : Type*} (f : α → β) (hg : ∀ x, f (g x) = f x) {y : α}
    (hy : y ∈ modify key k g l) : ∃ x ∈ l, f y = f x := by
  obtain ⟨x, hx, rfl⟩ := mem_modify.1 hy
  refine ⟨x, hx, ?_⟩
  split
  · exact hg x
  · rfl

/-- Replacing rows without touching a column of theirs leaves the column alone. -/
theorem map_modify {β : Type*} {f : α → β} (hg : ∀ x, f (g x) = f x) :
    (modify key k g l).map f = l.map f := by
  rw [modify, List.map_map]
  refine List.map_congr_left fun x _ => ?_
  by_cases h : key x = k <;> simp [h, hg]

/-- Selecting rows by what the change leaves alone. -/
theorem filter_modify {c : α → Bool} (hg : ∀ x, c (g x) = c x) :
    (modify key k g l).filter c = modify key k g (l.filter c) := by
  unfold modify
  rw [List.filter_map]
  congr 1
  refine List.filter_congr fun x _ => ?_
  show c (if key x = k then g x else x) = c x
  split
  · exact hg x
  · rfl

/-- Looking a row up by what the change leaves alone. -/
theorem find?_modify {c : α → Bool} (hg : ∀ x, c (g x) = c x) :
    (modify key k g l).find? c = (l.find? c).map fun x => if key x = k then g x else x := by
  have hc : (c ∘ fun x => if key x = k then g x else x) = c := by
    funext x
    show c (if key x = k then g x else x) = c x
    split
    · exact hg x
    · rfl
  rw [modify, List.find?_map, hc]

omit [DecidableEq κ] in
/-- A row with a new key keeps the keys distinct. -/
theorem nodup_key_concat {x : α} (hn : (l.map key).Nodup) (hx : ∀ y ∈ l, key y ≠ key x) :
    ((l ++ [x]).map key).Nodup := by
  rw [List.map_append, List.map_singleton]
  refine List.Nodup.append hn (List.nodup_singleton _) ?_
  rw [List.disjoint_singleton]
  intro hmem
  obtain ⟨y, hy, hyx⟩ := List.mem_map.1 hmem
  exact hx y hy hyx

omit [DecidableEq κ] in
/-- With distinct keys, rows with the same key are the same row. -/
theorem eq_of_key_eq (hn : (l.map key).Nodup) {x y : α} (hx : x ∈ l) (hy : y ∈ l)
    (h : key x = key y) : x = y := List.inj_on_of_nodup_map hn hx hy h

omit [DecidableEq κ] in
/-- With distinct keys, what holds of every row with the key of one holds of that one. -/
theorem forall_key_iff (hn : (l.map key).Nodup) {x : α} (hx : x ∈ l) {P : α → Prop} :
    (∀ y ∈ l, key y = key x → P y) ↔ P x :=
  ⟨fun hall => hall x hx rfl, fun hp _ hy hyx => eq_of_key_eq hn hx hy hyx.symm ▸ hp⟩

omit [AddCommMonoid M] in
/-- With distinct keys, a row is found by its key. -/
theorem find?_of_key (hn : (l.map key).Nodup) {x : α} (hx : x ∈ l) :
    l.find? (fun y => key y = key x) = some x := by
  cases hf : l.find? (fun y => key y = key x) with
  | none =>
    have hnone := List.find?_eq_none.1 hf x hx
    simp at hnone
  | some y =>
    have hkey : key y = key x := by simpa using List.find?_some hf
    rw [eq_of_key_eq hn (List.mem_of_find?_eq_some hf) hx hkey]

variable {p : α → Prop} [DecidablePred p] {f : α → M}

/-- Changing the one row `x` with key `k` exchanges its contribution. -/
theorem tally_modify (hn : (l.map key).Nodup) {x : α} (hx : x ∈ l) (hk : key x = k) :
    tally p f (modify key k g l) + (if p x then f x else 0) =
      tally p f l + (if p (g x) then f (g x) else 0) := by
  induction l with
  | nil => cases hx
  | cons y l ih =>
    rw [List.map_cons, List.nodup_cons] at hn
    rcases List.mem_cons.1 hx with rfl | hx
    · have htail : modify key k g l = l := by
        refine modify_of_forall_ne fun z hz hzk => hn.1 ?_
        rw [hk, ← hzk]
        exact List.mem_map_of_mem hz
      have hhead : modify key k g (x :: l) = g x :: l := by
        rw [modify, List.map_cons, if_pos hk, ← modify, htail]
      rw [hhead, tally_cons, tally_cons]
      abel
    · have hy : key y ≠ k := by
        rintro rfl
        exact hn.1 (hk ▸ List.mem_map_of_mem hx)
      have hhead : modify key k g (y :: l) = y :: modify key k g l := by
        rw [modify, List.map_cons, if_neg hy, ← modify]
      rw [hhead, tally_cons, tally_cons, add_assoc, add_assoc, ih hn.2 hx]

/-- Changing rows that do not count, into rows that do not count, changes nothing. -/
theorem tally_modify_of_not (h : ∀ x ∈ l, key x = k → (p x ↔ p (g x)) ∧ (p x → f (g x) = f x)) :
    tally p f (modify key k g l) = tally p f l := by
  induction l with
  | nil => rfl
  | cons x l ih =>
    have ih' := ih fun y hy => h y (by simp [hy])
    have hx := h x (by simp)
    by_cases hk : key x = k
    · have hhead : modify key k g (x :: l) = g x :: modify key k g l := by
        rw [modify, List.map_cons, if_pos hk, ← modify]
      rw [hhead, tally_cons, tally_cons, ih']
      by_cases hp : p x
      · rw [if_pos hp, if_pos ((hx hk).1.1 hp), (hx hk).2 hp]
      · rw [if_neg hp, if_neg fun hg => hp ((hx hk).1.2 hg)]
    · have hhead : modify key k g (x :: l) = x :: modify key k g l := by
        rw [modify, List.map_cons, if_neg hk, ← modify]
      rw [hhead, tally_cons, tally_cons, ih']

end modify

/-! ## Tallies by key -/

/-- The tallies of all the keys on a list of distinct keys add up to the tally of
the elements whose key is on the list. -/
theorem sum_tally_fiber [DecidableEq κ] (key : α → κ) (p : α → Prop) [DecidablePred p] (f : α → M)
    {ks : List κ} (hks : ks.Nodup) (l : List α) :
    (ks.map fun k => tally (fun x => p x ∧ key x = k) f l).sum =
      tally (fun x => p x ∧ key x ∈ ks) f l := by
  induction ks with
  | nil =>
    rw [tally_eq_zero fun x _ hx => absurd hx.2 (by simp)]
    rfl
  | cons k ks ih =>
    rw [List.nodup_cons] at hks
    rw [List.map_cons, List.sum_cons, ih hks.2,
      tally_split (p := fun x => p x ∧ key x ∈ k :: ks) (q := fun x => key x = k)]
    congr 1
    · refine tally_congr (fun x _ => ?_) fun _ _ _ => rfl
      constructor
      · rintro ⟨hp, rfl⟩
        exact ⟨⟨hp, by simp⟩, rfl⟩
      · rintro ⟨⟨hp, _⟩, hk⟩
        exact ⟨hp, hk⟩
    · refine tally_congr (fun x _ => ?_) fun _ _ _ => rfl
      constructor
      · rintro ⟨hp, hk⟩
        exact ⟨⟨hp, by simp [hk]⟩, fun h => hks.1 (h ▸ hk)⟩
      · rintro ⟨⟨hp, hk⟩, hne⟩
        exact ⟨hp, by simpa [hne] using hk⟩

/-- A tally whose elements belong to the rows of a table is the sum of the rows' tallies. -/
theorem tally_eq_sum_fiber [DecidableEq κ] {β : Type} {key : α → κ} {id : β → κ} {rows : List β}
    {p : α → Prop} [DecidablePred p] {l : List α} (hn : (rows.map id).Nodup)
    (h : ∀ x ∈ l, p x → ∃ row ∈ rows, id row = key x) (f : α → M) :
    tally p f l = (rows.map fun row => tally (fun x => p x ∧ key x = id row) f l).sum := by
  have hfiber := sum_tally_fiber key p f hn l
  rw [List.map_map] at hfiber
  refine Eq.trans ?_ hfiber.symm
  exact tally_congr (fun x hx => ⟨fun hp => ⟨hp, List.mem_map.2 (h x hx hp)⟩, fun hp => hp.1⟩)
    fun _ _ _ => rfl

end WalletLedger
