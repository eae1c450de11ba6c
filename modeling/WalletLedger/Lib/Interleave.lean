import WalletLedger.Lib.Program
import Mathlib.Logic.Function.Basic
import Mathlib.Data.Fintype.Basic

/-!
# Interleaved programs and rely–guarantee reasoning

Any number of sessions, each running a program of its own, take turns on a shared
state.  A session's next request may have to wait (`Machine.exec` answers `none`),
and a session that returns or raises is closed by `Machine.finish`.

* `World.step`, `World.runSchedule` — the executable semantics, one turn at a time;
  `exists_reaches` finds a reachable world by running a schedule.
* `Reaches C` — the worlds an interleaving can reach when every turn satisfies the
  condition `C`; with `C` trivially true, all interleavings.  `Reaches.invariant` is
  the induction for what holds whatever the sessions run.
* `Machine.logged` — the machine that records its turns, for conditions on their order.
* `Discipline` — an invariant of the shared state and, for each session, what it
  may rely on the others to preserve.
* `wp` — the weakest precondition of a program under a discipline: whatever the
  others do between two of its requests, every request keeps the invariant and
  the promises to the others, and the program ends in the postcondition.
* `wp_bind`, `wp_attempt`, `wp_forEach`, `wp_of_stable` — the rules.
* `Reaches.sound` — if every session satisfies its `wp` at the start, the
  invariant holds in every reachable world and every finished session's
  postcondition is true.  `Reaches.promise` changes one session's postcondition on the way.
-/

namespace WalletLedger

/-- How the shared state answers the sessions' requests. -/
structure Machine (ι Req : Type) (Resp : Req → Type) (S : Type) where
  /-- Answer a request of a session, or `none` if the session has to wait. -/
  exec : ι → (r : Req) → S → Option (Resp r × S)
  /-- Close a session whose program has ended. -/
  finish : ι → S → S

/-- What a session is doing. -/
inductive Task (Req : Type) (Resp : Req → Type) (ε α : Type) where
  | running (p : Program Req Resp ε α)
  | finished (o : Except ε α)

/-- The shared state and every session's task. -/
structure World (ι Req : Type) (Resp : Req → Type) (ε α S : Type) where
  shared : S
  tasks : ι → Task Req Resp ε α

section

variable {ι Req : Type} {Resp : Req → Type} {ε α β S : Type}

/-- A session's task while it follows program `p`, or `none` if it has ended. -/
def Task.program : Task Req Resp ε α → Option (Program Req Resp ε α)
  | .running p => some p
  | .finished _ => none

/-- How a session ended, or `none` while it runs. -/
def Task.outcome : Task Req Resp ε α → Option (Except ε α)
  | .running _ => none
  | .finished o => some o

/-- The condition `C` holds of the request the session is about to issue, if any. -/
def Task.Allowed (C : ι → Req → S → Prop) (i : ι) (s : S) : Task Req Resp ε α → Prop
  | .running (.call r _) => C i r s
  | .running (.ret _) => True
  | .running (.raise _) => True
  | .finished _ => True

instance (C : ι → Req → S → Prop) [∀ i r s, Decidable (C i r s)] (i : ι) (s : S) :
    (T : Task Req Resp ε α) → Decidable (T.Allowed C i s)
  | .running (.call r _) => inferInstanceAs (Decidable (C i r s))
  | .running (.ret _) => isTrue trivial
  | .running (.raise _) => isTrue trivial
  | .finished _ => isTrue trivial

namespace World

/-- All the sessions have ended. -/
def Quiescent (w : World ι Req Resp ε α S) : Prop := ∀ i, (w.tasks i).program = none

instance [Fintype ι] (w : World ι Req Resp ε α S) : Decidable w.Quiescent :=
  decidable_of_iff (∀ i, (w.tasks i).program.isNone = true)
    (forall_congr' fun _ => Option.isNone_iff_eq_none)

/-- Every session at the beginning of its program. -/
def start (s : S) (calls : ι → Program Req Resp ε α) : World ι Req Resp ε α S :=
  ⟨s, fun i => .running (calls i)⟩

/-- The condition `C` holds of the request session `i` is about to issue. -/
def Allowed (C : ι → Req → S → Prop) (w : World ι Req Resp ε α S) (i : ι) : Prop :=
  (w.tasks i).Allowed C i w.shared

instance (C : ι → Req → S → Prop) [∀ i r s, Decidable (C i r s)]
    (w : World ι Req Resp ε α S) (i : ι) : Decidable (w.Allowed C i) :=
  inferInstanceAs (Decidable ((w.tasks i).Allowed C i w.shared))

variable [DecidableEq ι] (M : Machine ι Req Resp S)

/-- Session `i` takes a turn; `none` if it has ended or has to wait. -/
def step (w : World ι Req Resp ε α S) (i : ι) : Option (World ι Req Resp ε α S) :=
  match w.tasks i with
  | .finished _ => none
  | .running (.ret a) =>
      some ⟨M.finish i w.shared, Function.update w.tasks i (.finished (.ok a))⟩
  | .running (.raise e) =>
      some ⟨M.finish i w.shared, Function.update w.tasks i (.finished (.error e))⟩
  | .running (.call r k) =>
      (M.exec i r w.shared).map fun x => ⟨x.2, Function.update w.tasks i (.running (k x.1))⟩

/-- The sessions take turns as the schedule says, as long as every turn satisfies `C`. -/
def runSchedule (C : ι → Req → S → Prop) [∀ i r s, Decidable (C i r s)] :
    List ι → World ι Req Resp ε α S → Option (World ι Req Resp ε α S)
  | [], w => some w
  | i :: is, w => if w.Allowed C i then (w.step M i).bind (runSchedule C is) else none

end World

/-- The worlds reachable from `w₀` by turns that satisfy `C`. -/
inductive Reaches [DecidableEq ι] (M : Machine ι Req Resp S) (C : ι → Req → S → Prop)
    (w₀ : World ι Req Resp ε α S) : World ι Req Resp ε α S → Prop
  | start : Reaches M C w₀ w₀
  | step {w w' : World ι Req Resp ε α S} {i : ι} : Reaches M C w₀ w → w.Allowed C i →
      w.step M i = some w' → Reaches M C w₀ w'

/-- The trivial condition on turns: every interleaving. -/
abbrev anyTurn : ι → Req → S → Prop := fun _ _ _ => True

section

variable [DecidableEq ι] {M : Machine ι Req Resp S}

theorem Reaches.trans {C : ι → Req → S → Prop} {w₀ w₁ w₂ : World ι Req Resp ε α S}
    (h₁ : Reaches M C w₀ w₁) (h₂ : Reaches M C w₁ w₂) : Reaches M C w₀ w₂ := by
  induction h₂ with
  | start => exact h₁
  | step _ ha hs ih => exact .step ih ha hs

/-- What every request and every end of a session keeps holds in every reachable world. -/
theorem Reaches.invariant {C : ι → Req → S → Prop} {I : S → Prop}
    (hexec : ∀ i r s v t, I s → C i r s → M.exec i r s = some (v, t) → I t)
    (hfinish : ∀ i s, I s → I (M.finish i s)) {w₀ w : World ι Req Resp ε α S} (h₀ : I w₀.shared)
    (h : Reaches M C w₀ w) : I w.shared := by
  induction h with
  | start => exact h₀
  | @step w w' i _ hC hs ih =>
    unfold World.step at hs
    unfold World.Allowed at hC
    split at hs
    · cases hs
    · cases hs
      exact hfinish i _ ih
    · cases hs
      exact hfinish i _ ih
    · rename_i r k hT
      rw [hT] at hC
      obtain ⟨⟨v, t⟩, hx, rfl⟩ := Option.map_eq_some_iff.1 hs
      exact hexec i r _ v t ih hC hx

/-- A schedule that can be followed to its end reaches its last world. -/
theorem reaches_of_runSchedule {C : ι → Req → S → Prop} [∀ i r s, Decidable (C i r s)]
    {is : List ι} {w w' : World ι Req Resp ε α S} (h : w.runSchedule M C is = some w') :
    Reaches M C w w' := by
  induction is generalizing w with
  | nil => cases h; exact .start
  | cons i is ih =>
    unfold World.runSchedule at h
    split at h
    · rename_i hC
      obtain ⟨u, hu, h'⟩ := Option.bind_eq_some_iff.1 h
      exact (Reaches.step .start hC hu).trans (ih h')
    · cases h

/-- A world with a property is found by running a schedule. -/
theorem exists_reaches {C : ι → Req → S → Prop} [∀ i r s, Decidable (C i r s)]
    {w : World ι Req Resp ε α S} {P : World ι Req Resp ε α S → Prop} [DecidablePred P]
    (is : List ι) (h : (w.runSchedule M C is).any (fun w => decide (P w)) = true) :
    ∃ w', Reaches M C w w' ∧ P w' := by
  obtain ⟨w', hw, ht⟩ := (Option.any_eq_true _ _).1 h
  exact ⟨w', reaches_of_runSchedule hw, of_decide_eq_true ht⟩

end

/-! ## Histories -/

/-- The machine that also records the requests it has answered, oldest first. -/
def Machine.logged (M : Machine ι Req Resp S) : Machine ι Req Resp (S × List (ι × Req)) where
  exec i r x := (M.exec i r x.1).map fun y => (y.1, y.2, x.2 ++ [(i, r)])
  finish i x := (M.finish i x.1, x.2)

/-- The world without its history. -/
def World.forget (w : World ι Req Resp ε α (S × List (ι × Req))) : World ι Req Resp ε α S :=
  ⟨w.shared.1, w.tasks⟩

section

variable {M : Machine ι Req Resp S}

theorem Machine.logged_exec {i : ι} {r : Req} {x y : S × List (ι × Req)} {v : Resp r}
    (h : M.logged.exec i r x = some (v, y)) :
    M.exec i r x.1 = some (v, y.1) ∧ y.2 = x.2 ++ [(i, r)] := by
  obtain ⟨⟨u, t⟩, hx, heq⟩ := Option.map_eq_some_iff.1 h
  cases heq
  exact ⟨hx, rfl⟩

variable [DecidableEq ι]

/-- The history changes nothing: a turn of the machine that keeps one is a turn. -/
theorem World.step_forget {w w' : World ι Req Resp ε α (S × List (ι × Req))} {i : ι}
    (h : w.step M.logged i = some w') : w.forget.step M i = some w'.forget := by
  unfold World.step at h ⊢
  simp only [World.forget]
  cases hT : w.tasks i with
  | finished o =>
    rw [hT] at h
    cases h
  | running p =>
    rw [hT] at h
    cases p with
    | ret a =>
      cases h
      rfl
    | raise e =>
      cases h
      rfl
    | call r k =>
      obtain ⟨⟨v, y⟩, hx, rfl⟩ := Option.map_eq_some_iff.1 h
      simp only [(Machine.logged_exec hx).1, Option.map_some]

/-- What is reached with a history is reached without. -/
theorem Reaches.forget {C : ι → Req → S × List (ι × Req) → Prop}
    {w₀ w : World ι Req Resp ε α (S × List (ι × Req))} (h : Reaches M.logged C w₀ w) :
    Reaches M anyTurn w₀.forget w.forget := by
  induction h with
  | start => exact .start
  | @step w w' i _ _ hs ih =>
    refine .step ih ?_ (World.step_forget hs)
    show Task.Allowed _ _ _ _
    cases w.forget.tasks i with
    | finished o => trivial
    | running p => cases p <;> trivial

end

/-! ## Disciplines and weakest preconditions -/

/-- An invariant of the shared state and what each session relies on. -/
structure Discipline (ι S : Type) where
  /-- What holds between any two turns. -/
  inv : S → Prop
  /-- What session `i` relies on the turns of the others to preserve. -/
  rely : ι → S → S → Prop
  rely_refl : ∀ i s, rely i s s
  rely_trans : ∀ {i s t u}, rely i s t → rely i t u → rely i s u

variable (M : Machine ι Req Resp S) (D : Discipline ι S) (C : ι → Req → S → Prop)

/-- A turn of session `i` keeps the invariant and what the others rely on. -/
def Discipline.Keeps (D : Discipline ι S) (i : ι) (s t : S) : Prop :=
  D.inv t ∧ ∀ j, j ≠ i → D.rely j s t

/-- The assertion `P` survives the turns of the others. -/
def Discipline.Stable (D : Discipline ι S) (i : ι) (P : S → Prop) : Prop :=
  ∀ s t, D.rely i s t → D.inv t → P s → P t

/-- A postcondition given by its two cases: what holds on return and on raise. -/
def onExit (R : α → S → Prop) (E : ε → S → Prop) : Except ε α → S → Prop
  | .ok a => R a
  | .error e => E e

/-- The weakest precondition of a program run by session `i`. -/
def wp (i : ι) : Program Req Resp ε α → (Except ε α → S → Prop) → S → Prop
  | .ret a, Q, s => ∀ t, D.rely i s t → D.inv t → Q (.ok a) t
  | .raise e, Q, s => ∀ t, D.rely i s t → D.inv t → Q (.error e) t
  | .call r k, Q, s => ∀ t, D.rely i s t → D.inv t → C i r t → ∀ v u,
      M.exec i r t = some (v, u) → D.Keeps i t u ∧ wp i (k v) Q u

section rules

variable {M D C} {i : ι}

/-- A precondition may be proved after the others have moved. -/
theorem wp_intro {p : Program Req Resp ε α} {Q : Except ε α → S → Prop} {s : S}
    (h : ∀ t, D.rely i s t → D.inv t → wp M D C i p Q t) : wp M D C i p Q s := by
  cases p with
  | ret a => exact fun t hr hi => h t hr hi t (D.rely_refl i t) hi
  | raise e => exact fun t hr hi => h t hr hi t (D.rely_refl i t) hi
  | call r k => exact fun t hr hi => h t hr hi t (D.rely_refl i t) hi

/-- A precondition survives the turns of the others. -/
theorem wp_stable {p : Program Req Resp ε α} {Q : Except ε α → S → Prop} {s t : S}
    (h : wp M D C i p Q s) (hr : D.rely i s t) : wp M D C i p Q t := by
  cases p with
  | ret a => exact fun u hu => h u (D.rely_trans hr hu)
  | raise e => exact fun u hu => h u (D.rely_trans hr hu)
  | call r k => exact fun u hu => h u (D.rely_trans hr hu)

theorem wp_mono {p : Program Req Resp ε α} {Q Q' : Except ε α → S → Prop} {s : S}
    (hQ : ∀ o t, D.inv t → Q o t → Q' o t) (h : wp M D C i p Q s) : wp M D C i p Q' s := by
  induction p generalizing s with
  | ret a => exact fun t hr hi => hQ _ t hi (h t hr hi)
  | raise e => exact fun t hr hi => hQ _ t hi (h t hr hi)
  | call r k ih =>
    intro t hr hi hC v u hu
    obtain ⟨hk, hw⟩ := h t hr hi hC v u hu
    exact ⟨hk, ih v hw⟩

/-- Sequencing. -/
theorem wp_bind {p : Program Req Resp ε α} {f : α → Program Req Resp ε β}
    {Q : Except ε β → S → Prop} {s : S}
    (h : wp M D C i p (onExit (fun a => wp M D C i (f a) Q) fun e => Q (.error e)) s) :
    wp M D C i (p >>= f) Q s := by
  induction p generalizing s with
  | ret a => exact wp_intro h
  | raise e => exact h
  | call r k ih =>
    intro t hr hi hC v u hu
    obtain ⟨hk, hw⟩ := h t hr hi hC v u hu
    exact ⟨hk, ih v hw⟩

/-- Handlers. -/
theorem wp_attempt {p : Program Req Resp ε α} {h : ε → Program Req Resp ε α}
    {Q : Except ε α → S → Prop} {s : S}
    (hp : wp M D C i p (onExit (fun a => Q (.ok a)) fun e => wp M D C i (h e) Q) s) :
    wp M D C i (p.attempt h) Q s := by
  induction p generalizing s with
  | ret a => exact hp
  | raise e => exact wp_intro hp
  | call r k ih =>
    intro t hr hi hC v u hu
    obtain ⟨hk, hw⟩ := hp t hr hi hC v u hu
    exact ⟨hk, ih v hw⟩

/-- A program that ends at once. -/
theorem wp_ret {a : α} {Q : Except ε α → S → Prop} {s : S} (hs : D.Stable i (Q (.ok a)))
    (h : Q (.ok a) s) : wp M D C i (.ret a) Q s := fun t hr hi => hs s t hr hi h

theorem wp_raise {e : ε} {Q : Except ε α → S → Prop} {s : S} (hs : D.Stable i (Q (.error e)))
    (h : Q (.error e) s) : wp M D C i (.raise e) Q s := fun t hr hi => hs s t hr hi h

/-- A program all of whose requests keep a stable assertion keeps it, whether it
returns or raises. -/
theorem wp_of_stable {P : Req → Prop} {I : S → Prop} (hI : D.Stable i I)
    (hstep : ∀ r, P r → ∀ t v u, D.inv t → C i r t → I t → M.exec i r t = some (v, u) →
      D.Keeps i t u ∧ I u)
    {p : Program Req Resp ε α} (hp : p.All P) {s : S} (hs : I s) :
    wp M D C i p (fun _ => I) s := by
  induction p generalizing s with
  | ret a => exact fun t hr hi => hI s t hr hi hs
  | raise e => exact fun t hr hi => hI s t hr hi hs
  | call r k ih =>
    intro t hr hi hC v u hu
    obtain ⟨hk, hu'⟩ := hstep r hp.1 t v u hi hC (hI s t hr hi hs) hu
    exact ⟨hk, ih v (hp.2 v) hu'⟩

end rules

/-! ## Soundness -/

/-- A session's task is as its discipline promises: while it runs, its `wp` holds;
once it has ended, `R` does. -/
def TaskOk (Q R : ι → Except ε α → S → Prop) (i : ι) (s : S) : Task Req Resp ε α → Prop
  | .running p => wp M D C i p (Q i) s
  | .finished o => R i o s

variable {M D C} [DecidableEq ι]

/-- One turn keeps the invariant and every session's promise. -/
theorem taskOk_step {Q R : ι → Except ε α → S → Prop}
    (hfin : ∀ i o s, D.inv s → Q i o s → D.Keeps i s (M.finish i s) ∧ R i o (M.finish i s))
    (hR : ∀ i o, D.Stable i (R i o)) {w w' : World ι Req Resp ε α S} {i : ι}
    (hinv : D.inv w.shared) (hw : ∀ j, TaskOk M D C Q R j w.shared (w.tasks j))
    (hC : w.Allowed C i) (hstep : w.step M i = some w') :
    D.inv w'.shared ∧ ∀ j, TaskOk M D C Q R j w'.shared (w'.tasks j) := by
  -- what every other session gets from the rely condition
  have others : ∀ {t : S} {T : Task Req Resp ε α}, D.Keeps i w.shared t →
      TaskOk M D C Q R i t T →
      ∀ j, TaskOk M D C Q R j t (Function.update w.tasks i T j) := by
    intro t T hk hT j
    by_cases hj : j = i
    · subst hj
      rwa [Function.update_self]
    · rw [Function.update_of_ne hj]
      have hj' := hw j
      cases hTj : w.tasks j with
      | running p => rw [hTj] at hj'; exact wp_stable hj' (hk.2 j hj)
      | finished o => rw [hTj] at hj'; exact hR j o _ _ (hk.2 j hj) hk.1 hj'
  have hi := hw i
  unfold World.step at hstep
  unfold World.Allowed at hC
  cases hTi : w.tasks i with
  | finished o => rw [hTi] at hstep; cases hstep
  | running p =>
    rw [hTi] at hi hstep hC
    cases p with
    | ret a =>
      cases hstep
      obtain ⟨hk, hr⟩ := hfin i (.ok a) w.shared hinv (hi _ (D.rely_refl i _) hinv)
      exact ⟨hk.1, others hk hr⟩
    | raise e =>
      cases hstep
      obtain ⟨hk, hr⟩ := hfin i (.error e) w.shared hinv (hi _ (D.rely_refl i _) hinv)
      exact ⟨hk.1, others hk hr⟩
    | call r k =>
      obtain ⟨⟨v, t⟩, hx, rfl⟩ := Option.map_eq_some_iff.1 hstep
      obtain ⟨hk, hr⟩ := hi _ (D.rely_refl i _) hinv hC v t hx
      exact ⟨hk.1, others hk hr⟩

/-- **Soundness.**  If the invariant and every session's `wp` hold at the start,
they hold in every world the interleaving reaches. -/
theorem Reaches.sound {Q R : ι → Except ε α → S → Prop}
    (hfin : ∀ i o s, D.inv s → Q i o s → D.Keeps i s (M.finish i s) ∧ R i o (M.finish i s))
    (hR : ∀ i o, D.Stable i (R i o)) {w₀ w : World ι Req Resp ε α S} (hinv : D.inv w₀.shared)
    (hw₀ : ∀ j, TaskOk M D C Q R j w₀.shared (w₀.tasks j)) (h : Reaches M C w₀ w) :
    D.inv w.shared ∧ ∀ j, TaskOk M D C Q R j w.shared (w.tasks j) := by
  induction h with
  | start => exact ⟨hinv, hw₀⟩
  | step _ hC hs ih => exact taskOk_step hfin hR ih.1 ih.2 hC hs

omit [DecidableEq ι] in
/-- What is promised of a session that has ended holds. -/
theorem TaskOk.outcome {Q R : ι → Except ε α → S → Prop} {i : ι} {s : S} {T : Task Req Resp ε α}
    (h : TaskOk M D C Q R i s T) {o : Except ε α} (ho : T.outcome = some o) : R i o s := by
  cases T with
  | running p => cases ho
  | finished o' =>
    cases ho
    exact h

/-- One session may be promised something else from some world on, as long as the others
keep to the discipline. -/
theorem Reaches.promise {Q R : ι → Except ε α → S → Prop} {i : ι} {P : Except ε α → S → Prop}
    (hfin : ∀ j s, D.inv s → D.Keeps j s (M.finish j s)) (hP : ∀ o, D.Stable i (P o))
    (hclose : ∀ o s, P o s → P o (M.finish i s)) {w w' : World ι Req Resp ε α S}
    (hinv : D.inv w.shared) (hw : ∀ j, TaskOk M D C Q R j w.shared (w.tasks j))
    {p : Program Req Resp ε α} (hp : w.tasks i = .running p) (hi : wp M D C i p P w.shared)
    (h : Reaches M C w w') {o : Except ε α} (ho : (w'.tasks i).outcome = some o) :
    P o w'.shared := by
  let Q' : ι → Except ε α → S → Prop := fun j o s => j = i → P o s
  have hstable : ∀ j o, D.Stable j (Q' j o) := by
    rintro j o s t hrely hinv hs rfl
    exact hP o s t hrely hinv (hs rfl)
  obtain ⟨-, htasks⟩ := h.sound (Q := Q') (R := Q')
    (fun j o s hinv hs => ⟨hfin j s hinv, fun hj => by
      subst hj
      exact hclose o s (hs rfl)⟩) hstable hinv fun j => by
      by_cases hj : j = i
      · subst hj
        rw [hp]
        exact wp_mono (fun o t _ ht _ => ht) hi
      · have hj' := hw j
        cases hT : w.tasks j with
        | running p =>
          rw [hT] at hj'
          exact wp_mono (fun o t _ _ h => absurd h hj) hj'
        | finished o => exact fun h => absurd h hj
  exact (htasks i).outcome ho rfl

end

end WalletLedger
