import WalletLedger.Lib.Checkpoint
import Mathlib.Algebra.Order.Group.Defs

/-!
# A log with drafts

A log that several sessions append to.  A row gets its position when it is drafted, and
is seen by the other sessions when its author publishes all its drafts at once, so rows
may be published in another order than that of their positions.

* `Step` — what a session can do; `Numbered` — positions are below the next one; `Distinct` —
  each row has one of its own.
* `Settled` — a checkpoint that is exact on the published rows and stays so; `Sealed` —
  one that will be so once its author publishes.  `Settled.step`, `Sealed.step` say what
  keeps them, `Settled.seal`, `Sealed.publish` lead from one to the other, and
  `Sealed.cut` is the checkpoint a session may cut from what it sees.
* `Solvent` — a total that no session can publish below zero, because a session drafts
  negative rows only while it holds a lock, and only those the total covers
  (`Solvent.step`).  `Solvent.grows`: while the lock is held, the total only grows.
-/

namespace WalletLedger

/-- The published rows, the drafts of each session, and the next position. -/
structure DraftLog (ι α : Type) where
  published : List α
  drafts : ι → List α
  next : ℕ

namespace DraftLog

variable {ι α M : Type}

/-- What a session sees: the published rows and its own drafts. -/
def seen (s : DraftLog ι α) (i : ι) : List α := s.published ++ s.drafts i

/-- The row is published or drafted. -/
def Has (s : DraftLog ι α) (x : α) : Prop := x ∈ s.published ∨ ∃ i, x ∈ s.drafts i

theorem has_of_mem_seen {s : DraftLog ι α} {i : ι} {x : α} (h : x ∈ s.seen i) : s.Has x := by
  rcases List.mem_append.1 h with h | h
  · exact .inl h
  · exact .inr ⟨i, h⟩

variable (pos : α → ℕ)

/-- Positions are positive and below the next one. -/
def Numbered (s : DraftLog ι α) : Prop := ∀ x, s.Has x → 0 < pos x ∧ pos x < s.next

section steps

/-- What session `i` can do to the log. -/
inductive Move (i : ι) (s t : DraftLog ι α) : Prop
  /-- Positions may be used up. -/
  | skip : t.published = s.published → t.drafts i = s.drafts i → Move i s t
  /-- A row is drafted at the next position. -/
  | draft (x : α) : t.published = s.published → t.drafts i = s.drafts i ++ [x] →
      pos x = s.next → s.next < t.next → Move i s t
  /-- The drafts are published. -/
  | publish : t.published = s.published ++ s.drafts i → t.drafts i = [] → Move i s t
  /-- The drafts are dropped. -/
  | drop : t.published = s.published → t.drafts i = [] → Move i s t

/-- A step of session `i`: a move of its own, which leaves the drafts of the others alone. -/
structure Step (i : ι) (s t : DraftLog ι α) : Prop where
  move : Move pos i s t
  others : ∀ j, j ≠ i → t.drafts j = s.drafts j
  next_le : s.next ≤ t.next

variable {pos} {s t : DraftLog ι α} {i j : ι}

/-- A draft that was not there before has the next position. -/
theorem Step.draft_cases (h : Step pos i s t) {x : α} (hx : x ∈ t.drafts j) :
    x ∈ s.drafts j ∨ pos x = s.next ∧ s.next < t.next := by
  by_cases hj : j = i
  · subst hj
    cases h.move with
    | skip _ hown => exact .inl (hown ▸ hx)
    | draft y _ hown hy hlt =>
      rw [hown] at hx
      rcases List.mem_append.1 hx with hx | hx
      · exact .inl hx
      · rw [List.mem_singleton.1 hx]
        exact .inr ⟨hy, hlt⟩
    | publish _ hown => rw [hown] at hx; cases hx
    | drop _ hown => rw [hown] at hx; cases hx
  · exact .inl (h.others j hj ▸ hx)

theorem Step.has (h : Step pos i s t) {x : α} (hx : t.Has x) :
    s.Has x ∨ pos x = s.next ∧ s.next < t.next := by
  rcases hx with hx | ⟨j, hx⟩
  · cases h.move with
    | skip hpub _ => exact .inl (.inl (hpub ▸ hx))
    | draft y hpub _ _ _ => exact .inl (.inl (hpub ▸ hx))
    | publish hpub _ =>
      rw [hpub] at hx
      exact .inl (has_of_mem_seen hx)
    | drop hpub _ => exact .inl (.inl (hpub ▸ hx))
  · exact (h.draft_cases hx).imp_left fun hx => .inr ⟨j, hx⟩

theorem Numbered.step (hs : Numbered pos s) (hpos : 0 < s.next) (h : Step pos i s t) :
    Numbered pos t := by
  intro x hx
  rcases h.has hx with hx | ⟨hx, hlt⟩
  · exact ⟨(hs x hx).1, lt_of_lt_of_le (hs x hx).2 h.next_le⟩
  · exact ⟨hx ▸ hpos, hx ▸ hlt⟩

variable (pos) in
/-- Each row has a position of its own, below the next one. -/
structure Distinct (s : DraftLog ι α) : Prop where
  lt : ∀ x, s.Has x → pos x < s.next
  nodup : ∀ i, ((s.seen i).map pos).Nodup
  apart : ∀ i j, i ≠ j → ∀ x ∈ s.drafts i, ∀ y ∈ s.drafts j, pos x ≠ pos y

theorem Distinct.published (hs : Distinct pos s) (i : ι) : (s.published.map pos).Nodup := by
  have hseen := hs.nodup i
  rw [seen, List.map_append] at hseen
  exact (List.nodup_append.1 hseen).1

/-- What is published when the drafts of `i` are, and the drafts of `j` behind it. -/
theorem Distinct.both (hs : Distinct pos s) (hij : i ≠ j) :
    ((s.seen i ++ s.drafts j).map pos).Nodup := by
  have hi := hs.nodup i
  have hj := hs.nodup j
  rw [seen, List.map_append, List.nodup_append] at hj
  rw [List.map_append, List.nodup_append]
  refine ⟨hi, hj.2.1, fun p hp q hq heq => ?_⟩
  obtain ⟨x, hx, rfl⟩ := List.mem_map.1 hp
  obtain ⟨y, hy, rfl⟩ := List.mem_map.1 hq
  rcases List.mem_append.1 hx with hx | hx
  · exact hj.2.2 (pos x) (List.mem_map_of_mem hx) (pos y) hq heq
  · exact hs.apart i j hij x hx y hy heq

/-- Whatever the sessions do, the rows keep positions of their own. -/
theorem Distinct.step (hs : Distinct pos s) (h : Step pos i s t) : Distinct pos t := by
  refine ⟨fun x hx => ?_, fun j => ?_, fun j k hjk x hx y hy => ?_⟩
  · rcases h.has hx with hx | ⟨hx, hlt⟩
    · exact lt_of_lt_of_le (hs.lt x hx) h.next_le
    · exact hx ▸ hlt
  · by_cases hj : j = i
    · subst hj
      have hseen := hs.nodup j
      cases h.move with
      | skip hpub hown => rwa [seen, hpub, hown]
      | draft y hpub hown hy _ =>
        rw [seen, hpub, hown, ← List.append_assoc]
        refine nodup_key_concat hseen fun x hx => ?_
        exact hy ▸ (hs.lt x (has_of_mem_seen hx)).ne
      | publish hpub hown => rwa [seen, hpub, hown, List.append_nil]
      | drop hpub hown =>
        rw [seen, hpub, hown, List.append_nil]
        exact hs.published j
    · rw [seen, h.others j hj]
      cases h.move with
      | skip hpub _ => exact hpub ▸ hs.nodup j
      | draft _ hpub _ _ _ => exact hpub ▸ hs.nodup j
      | publish hpub _ => exact hpub ▸ hs.both (Ne.symm hj)
      | drop hpub _ => exact hpub ▸ hs.nodup j
  · by_cases hj : j = i
    · -- the drafts of `k` are old ones
      have hy' : y ∈ s.drafts k := h.others k (fun hk => hjk (hj.trans hk.symm)) ▸ hy
      rcases h.draft_cases hx with hx | ⟨hx, -⟩
      · exact hs.apart j k hjk x hx y hy'
      · exact hx ▸ (hs.lt y (.inr ⟨k, hy'⟩)).ne'
    · have hx' : x ∈ s.drafts j := h.others j hj ▸ hx
      rcases h.draft_cases hy with hy | ⟨hy, -⟩
      · exact hs.apart j k hjk x hx' y hy
      · exact hy ▸ (hs.lt x (.inr ⟨j, hx'⟩)).ne

end steps

/-! ## Checkpoints -/

section checkpoints

variable [AddCommMonoid M] (counts : α → Prop) [DecidablePred counts] (amount : α → M)

/-- The checkpoint is exact on the published rows, and no draft will disturb it. -/
structure Settled (cursor : ℕ) (base : M) (s : DraftLog ι α) : Prop where
  exact : Checkpoint.Exact counts pos amount cursor base s.published
  drafts : ∀ i, ∀ x ∈ s.drafts i, counts x → cursor < pos x
  lt : cursor < s.next

/-- The checkpoint is exact on what session `i` sees, and no draft of the others will
disturb it. -/
structure Sealed (i : ι) (cursor : ℕ) (base : M) (s : DraftLog ι α) : Prop where
  exact : Checkpoint.Exact counts pos amount cursor base (s.seen i)
  drafts : ∀ j, j ≠ i → ∀ x ∈ s.drafts j, counts x → cursor < pos x
  lt : cursor < s.next

variable {pos counts amount} {s t : DraftLog ι α} {i j : ι} {cursor : ℕ} {base : M}

/-- With nothing drafted, an exact checkpoint is settled. -/
theorem settled_of_exact (h : Checkpoint.Exact counts pos amount cursor base s.published)
    (hs : ∀ i, s.drafts i = []) (hlt : cursor < s.next) :
    Settled pos counts amount cursor base s where
  exact := h
  drafts i x hx _ := by
    rw [hs i] at hx
    cases hx
  lt := hlt

/-- A settled checkpoint is sealed for everybody. -/
theorem Settled.seal (h : Settled pos counts amount cursor base s) (i : ι) :
    Sealed pos counts amount i cursor base s :=
  ⟨h.exact.append (h.drafts i), fun j _ => h.drafts j, h.lt⟩

/-- Through a sealed checkpoint a session reads the total of what it sees. -/
theorem Sealed.read (h : Sealed pos counts amount i cursor base s) :
    base + Checkpoint.delta counts pos amount cursor (s.seen i) = tally counts amount (s.seen i) :=
  h.exact.read

/-- A session may cut a checkpoint at the last row it sees that counts, if the counting
drafts of the others are beyond it. -/
theorem Sealed.cut (h : Sealed pos counts amount i cursor base s) {last : ℕ}
    (hlast : ∀ x ∈ s.seen i, counts x → pos x ≤ last) (hlt : last < s.next)
    (hothers : ∀ j, j ≠ i → ∀ x ∈ s.drafts j, counts x → last < pos x) :
    Sealed pos counts amount i last
      (base + Checkpoint.delta counts pos amount cursor (s.seen i)) s :=
  ⟨h.exact.cut hlast, hothers, hlt⟩

/-- A settled checkpoint stays so, whatever the sessions do. -/
theorem Settled.step (hs : Settled pos counts amount cursor base s) (h : Step pos i s t) :
    Settled pos counts amount cursor base t := by
  refine ⟨?_, fun j x hx hc => ?_, lt_of_lt_of_le hs.lt h.next_le⟩
  · cases h.move with
    | skip hpub _ => exact hpub ▸ hs.exact
    | draft x hpub _ _ _ => exact hpub ▸ hs.exact
    | publish hpub _ => exact hpub ▸ hs.exact.append (hs.drafts i)
    | drop hpub _ => exact hpub ▸ hs.exact
  · rcases h.draft_cases hx with hx | ⟨hx, -⟩
    · exact hs.drafts j x hx hc
    · exact hx ▸ hs.lt

/-- A sealed checkpoint stays so while the others move. -/
theorem Sealed.step (hs : Sealed pos counts amount j cursor base s) (h : Step pos i s t)
    (hj : j ≠ i) : Sealed pos counts amount j cursor base t := by
  have hown : t.drafts j = s.drafts j := h.others j hj
  refine ⟨?_, fun k hk x hx hc => ?_, lt_of_lt_of_le hs.lt h.next_le⟩
  · have hexact := hs.exact
    unfold seen at hexact ⊢
    rw [hown]
    cases h.move with
    | skip hpub _ => exact hpub ▸ hexact
    | draft x hpub _ _ _ => exact hpub ▸ hexact
    | drop hpub _ => exact hpub ▸ hexact
    | publish hpub _ =>
      -- the published drafts come before the session's own
      have hperm : (s.published ++ s.drafts j ++ s.drafts i).Perm
          (s.published ++ s.drafts i ++ s.drafts j) := by
        rw [List.append_assoc, List.append_assoc]
        exact List.Perm.append_left _ List.perm_append_comm
      rw [hpub]
      exact (hexact.append (hs.drafts i (Ne.symm hj))).perm hperm
  · rcases h.draft_cases hx with hx | ⟨hx, -⟩
    · exact hs.drafts k hk x hx hc
    · exact hx ▸ hs.lt

/-- What the author drafts itself keeps it too. -/
theorem Sealed.step_self (hs : Sealed pos counts amount i cursor base s) (h : Step pos i s t)
    (hpub : t.published = s.published) (hown : ∃ l, t.drafts i = s.drafts i ++ l) :
    Sealed pos counts amount i cursor base t := by
  obtain ⟨l, hl⟩ := hown
  refine ⟨?_, fun k hk x hx hc => ?_, lt_of_lt_of_le hs.lt h.next_le⟩
  · unfold seen
    rw [hpub, hl, ← List.append_assoc]
    refine hs.exact.append fun x hx _ => ?_
    have hx' : x ∈ t.drafts i := hl ▸ List.mem_append_right _ hx
    cases h.move with
    | skip _ hown =>
      rw [hown, List.self_eq_append_right] at hl
      rw [hl] at hx
      cases hx
    | draft y _ hown hy _ =>
      rw [hown, List.append_cancel_left_eq] at hl
      rw [← hl] at hx
      rw [List.mem_singleton.1 hx, hy]
      exact hs.lt
    | publish _ hown => rw [hown] at hx'; cases hx'
    | drop _ hown => rw [hown] at hx'; cases hx'
  · rw [h.others k hk] at hx
    exact hs.drafts k hk x hx hc

/-- Once its author has published, it is settled. -/
theorem Sealed.publish (hs : Sealed pos counts amount i cursor base s) (h : Step pos i s t)
    (hpub : t.published = s.published ++ s.drafts i) (hown : t.drafts i = []) :
    Settled pos counts amount cursor base t := by
  refine ⟨hpub ▸ hs.exact, fun k x hx hc => ?_, lt_of_lt_of_le hs.lt h.next_le⟩
  by_cases hk : k = i
  · rw [hk, hown] at hx
    cases hx
  · rw [h.others k hk] at hx
    exact hs.drafts k hk x hx hc

end checkpoints

/-! ## Totals that stay above zero -/

section solvency

variable [AddCommGroup M] [LinearOrder M] [IsOrderedAddMonoid M] (counts : α → Prop)
  [DecidablePred counts] (amount : α → M)

/-- The published total is not negative and no session can make it so; who has drafted a
negative row holds the lock. -/
structure Solvent (holds : ι → Prop) (s : DraftLog ι α) : Prop where
  published : 0 ≤ tally counts amount s.published
  covered : ∀ i, 0 ≤ tally counts amount s.published + tally counts amount (s.drafts i)
  locked : ∀ i, ∀ x ∈ s.drafts i, counts x → amount x < 0 → holds i

variable {pos counts amount} {s t : DraftLog ι α} {i j : ι} {holds holds' : ι → Prop}

/-- Who does not hold the lock has nothing to take away. -/
theorem Solvent.drafts_nonneg (hs : Solvent counts amount holds s) (hi : ¬ holds i)
    {counts' : α → Prop} [DecidablePred counts'] (hsub : ∀ x, counts' x → counts x) :
    0 ≤ tally counts' amount (s.drafts i) := by
  have hzero : tally counts' (fun _ => (0 : M)) (s.drafts i) = 0 :=
    tally_eq_zero fun _ _ _ => rfl
  rw [← hzero]
  refine tally_le_tally fun x hx => ?_
  split
  · rename_i hc
    exact not_lt.1 fun hneg => hi (hs.locked i x hx (hsub x hc) hneg)
  · exact le_rfl

/-- While the lock is held, the total published by the others only grows, and so does
every part of it. -/
theorem Solvent.grows (hs : Solvent counts amount holds s)
    (hexcl : ∀ j k, holds j → holds k → j = k) (h : Step pos i s t) (hj : holds j) (hij : j ≠ i)
    {counts' : α → Prop} [DecidablePred counts'] (hsub : ∀ x, counts' x → counts x) :
    tally counts' amount s.published ≤ tally counts' amount t.published := by
  cases h.move with
  | skip hpub _ => exact hpub ▸ le_rfl
  | draft x hpub _ _ _ => exact hpub ▸ le_rfl
  | drop hpub _ => exact hpub ▸ le_rfl
  | publish hpub _ =>
    rw [hpub, tally_append]
    exact le_add_of_nonneg_right (hs.drafts_nonneg (fun hi => hij (hexcl j i hj hi)) hsub)

/-- A step keeps the total above zero, if a negative row is drafted only under the lock
and covered. -/
theorem Solvent.step (hs : Solvent counts amount holds s)
    (hexcl : ∀ j k, holds j → holds k → j = k) (h : Step pos i s t)
    (hholds : ∀ j, holds j → holds' j ∨ t.drafts j = [])
    (hdraft : ∀ x, t.drafts i = s.drafts i ++ [x] → counts x → amount x < 0 →
      holds' i ∧ 0 ≤ tally counts amount s.published + tally counts amount (s.drafts i) +
        amount x) :
    Solvent counts amount holds' t := by
  -- a draft that was there before is still under the lock
  have hold : ∀ j, ∀ x ∈ s.drafts j, x ∈ t.drafts j → counts x → amount x < 0 → holds' j := by
    intro j x hx ht hc hneg
    rcases hholds j (hs.locked j x hx hc hneg) with h | h
    · exact h
    · rw [h] at ht
      cases ht
  cases h.move with
  | skip hpub hown =>
    have hdrafts : ∀ j, t.drafts j = s.drafts j := fun j => by
      by_cases hj : j = i
      · rw [hj, hown]
      · exact h.others j hj
    refine ⟨hpub ▸ hs.published, fun j => ?_, fun j x hx => hold j x (hdrafts j ▸ hx) hx⟩
    rw [hpub, hdrafts j]
    exact hs.covered j
  | drop hpub hown =>
    refine ⟨hpub ▸ hs.published, fun j => ?_, fun j x hx => ?_⟩
    · by_cases hj : j = i
      · rw [hj, hown, hpub, tally_nil, add_zero]
        exact hs.published
      · rw [hpub, h.others j hj]
        exact hs.covered j
    · by_cases hj : j = i
      · rw [hj, hown] at hx
        cases hx
      · exact hold j x (h.others j hj ▸ hx) hx
  | publish hpub hown =>
    refine ⟨?_, fun j => ?_, fun j x hx => ?_⟩
    · rw [hpub, tally_append]
      exact hs.covered i
    · rw [hpub, tally_append]
      by_cases hj : j = i
      · rw [hj, hown, tally_nil, add_zero]
        exact hs.covered i
      · rw [h.others j hj]
        -- of the two sessions, one does not hold the lock
        by_cases hi : holds i
        · have hnonneg := hs.drafts_nonneg (i := j) (fun hj' => hj (hexcl j i hj' hi)) fun _ h => h
          exact add_nonneg (hs.covered i) hnonneg
        · have hnonneg := hs.drafts_nonneg hi fun _ h => h
          rw [add_right_comm]
          exact add_nonneg (hs.covered j) hnonneg
    · by_cases hj : j = i
      · rw [hj, hown] at hx
        cases hx
      · exact hold j x (h.others j hj ▸ hx) hx
  | draft y hpub hown _ _ =>
    refine ⟨hpub ▸ hs.published, fun j => ?_, fun j x hx => ?_⟩
    · rw [hpub]
      by_cases hj : j = i
      · rw [hj, hown, tally_append, tally_cons, tally_nil, add_zero, ← add_assoc]
        split
        · rename_i hc
          by_cases hneg : amount y < 0
          · exact (hdraft y hown hc hneg).2
          · exact add_nonneg (hs.covered i) (not_lt.1 hneg)
        · rw [add_zero]
          exact hs.covered i
      · rw [h.others j hj]
        exact hs.covered j
    · by_cases hj : j = i
      · subst hj
        have hx' := hx
        rw [hown] at hx'
        rcases List.mem_append.1 hx' with hx' | hx'
        · exact hold j x hx' hx
        · rw [List.mem_singleton.1 hx']
          exact fun hc hneg => (hdraft y hown hc hneg).1
      · exact hold j x (h.others j hj ▸ hx) hx

end solvency

end DraftLog

end WalletLedger
