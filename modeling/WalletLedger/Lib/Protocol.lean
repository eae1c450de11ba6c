import WalletLedger.Lib.Interleave
import Mathlib.Logic.Relation

/-!
# Protocols

What a session may ask often depends on little of what it has asked before: the locks it
has taken, the phase it is in.  A protocol keeps this as a state of the session's own.

* `Protocol` — what may be asked in a state, which answers may be counted on, and the
  state after an answer.
* `Protocol.Follows` — a program that asks only what it may; `Follows.mono`, `Follows.bind`,
  `follows_ofExcept` — the rules.
* `Reaches.follows` — if the machine gives the answers that are counted on, what a session
  is about to ask is allowed, in every reachable world and even while it has to wait.
* `not_transGen_of_lt` — a relation that climbs wherever it goes on has no cycle.
-/

namespace WalletLedger

/-- What a session may ask, depending on a state `L` of its own. -/
structure Protocol (L Req : Type) (Resp : Req → Type) where
  /-- The request may be asked. -/
  allows : L → Req → Prop
  /-- The answer may be counted on. -/
  expects : L → (r : Req) → Resp r → Prop
  /-- The state after the answer. -/
  next : L → (r : Req) → Resp r → L

section

variable {ι L Req : Type} {Resp : Req → Type} {ε α β S : Type}

/-- The program asks only what it may, and returns in a state of which `Q` holds. -/
def Protocol.Follows (T : Protocol L Req Resp) : Program Req Resp ε α → (α → L → Prop) → L → Prop
  | .ret a, Q, l => Q a l
  | .raise _, _, _ => True
  | .call r k, Q, l => T.allows l r ∧ ∀ v, T.expects l r v → T.Follows (k v) Q (T.next l r v)

section rules

variable {T : Protocol L Req Resp} {l : L}

theorem Protocol.Follows.mono {p : Program Req Resp ε α} {Q Q' : α → L → Prop}
    (h : T.Follows p Q l) (hQ : ∀ a l', Q a l' → Q' a l') : T.Follows p Q' l := by
  induction p generalizing l with
  | ret a => exact hQ a l h
  | raise e => trivial
  | call r k ih => exact ⟨h.1, fun v hv => ih v (h.2 v hv)⟩

/-- Sequencing. -/
theorem Protocol.Follows.bind {p : Program Req Resp ε α} {f : α → Program Req Resp ε β}
    {Q : β → L → Prop} (h : T.Follows p (fun a l' => T.Follows (f a) Q l') l) :
    T.Follows (p >>= f) Q l := by
  induction p generalizing l with
  | ret a => exact h
  | raise e => trivial
  | call r k ih => exact ⟨h.1, fun v hv => ih v (h.2 v hv)⟩

/-- A pure computation. -/
theorem Protocol.follows_ofExcept {x : Except ε α} {Q : α → L → Prop}
    (h : ∀ a, x = .ok a → Q a l) : T.Follows (Program.ofExcept x : Program Req Resp ε α) Q l := by
  cases x with
  | error e => trivial
  | ok a => exact h a rfl

end rules

/-- In every reachable world each session follows its protocol, in a state that stands for
what the machine knows of the session. -/
theorem Reaches.follows [DecidableEq ι] {M : Machine ι Req Resp S} {C : ι → Req → S → Prop}
    {T : ι → Protocol L Req Resp} (R : ι → L → S → Prop)
    (hown : ∀ i r l s v t, R i l s → C i r s → M.exec i r s = some (v, t) →
      (T i).expects l r v ∧ R i ((T i).next l r v) t)
    (hother : ∀ i j r l s v t, j ≠ i → R j l s → M.exec i r s = some (v, t) → R j l t)
    (hfinish : ∀ i j l s, j ≠ i → R j l s → R j l (M.finish i s))
    {w₀ w : World ι Req Resp ε α S}
    (h₀ : ∀ i p, w₀.tasks i = .running p →
      ∃ l, R i l w₀.shared ∧ (T i).Follows p (fun _ _ => True) l)
    (h : Reaches M C w₀ w) {i : ι} {p : Program Req Resp ε α} (hp : w.tasks i = .running p) :
    ∃ l, R i l w.shared ∧ (T i).Follows p (fun _ _ => True) l := by
  induction h generalizing i p with
  | start => exact h₀ i p hp
  | @step w w' k _ hC hs ih =>
    -- whoever has not moved stands where it stood
    have others : ∀ {t : S} {x : Task Req Resp ε α}, (∀ l, R i l w.shared → R i l t) →
        i ≠ k → Function.update w.tasks k x i = .running p →
        ∃ l, R i l t ∧ (T i).Follows p (fun _ _ => True) l := by
      intro t x hkeep hi hx
      rw [Function.update_of_ne hi] at hx
      obtain ⟨l, hl, hfollows⟩ := ih hx
      exact ⟨l, hkeep l hl, hfollows⟩
    have ended : ∀ {o : Except ε α}, Function.update w.tasks k (.finished o) i = .running p →
        ∃ l, R i l (M.finish k w.shared) ∧ (T i).Follows p (fun _ _ => True) l := by
      intro o hx
      by_cases hi : i = k
      · subst hi
        rw [Function.update_self] at hx
        cases hx
      · exact others (fun l hl => hfinish k i l _ hi hl) hi hx
    unfold World.step at hs
    unfold World.Allowed at hC
    cases hT : w.tasks k with
    | finished o => rw [hT] at hs; cases hs
    | running q =>
      rw [hT] at hs hC
      cases q with
      | ret a => cases hs; exact ended hp
      | raise e => cases hs; exact ended hp
      | call r g =>
        obtain ⟨⟨v, t⟩, hx, rfl⟩ := Option.map_eq_some_iff.1 hs
        by_cases hi : i = k
        · subst hi
          obtain ⟨l, hl, -, hgo⟩ := ih hT
          obtain ⟨hv, hnext⟩ := hown i r l _ v t hl hC hx
          have hq : Function.update w.tasks i (.running (g v)) i = .running p := hp
          rw [Function.update_self] at hq
          cases hq
          exact ⟨_, hnext, hgo v hv⟩
        · exact others (fun l hl => hother k i r l _ v t hi hl hx) hi hp

end

/-- A relation that climbs wherever it goes on has no cycle. -/
theorem not_transGen_of_lt {α : Type} {R : α → α → Prop} (g : α → ℕ)
    (h : ∀ i j k, R i j → R j k → g i < g j) (i : α) : ¬ Relation.TransGen R i i := by
  have climbs : ∀ {j}, Relation.TransGen R i j → ∀ k, R j k → g i < g j := by
    intro j hij
    induction hij with
    | single hij => exact fun k hjk => h i _ k hij hjk
    | tail _ hbj ih => exact fun k hjk => (ih _ hbj).trans (h _ _ k hbj hjk)
  intro hcycle
  obtain ⟨k, hik, -⟩ := Relation.TransGen.head'_iff.1 hcycle
  exact absurd (climbs hcycle k hik) (lt_irrefl _)

end WalletLedger
