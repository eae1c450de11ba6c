import WalletLedger.Lib.Program

/-!
# Programs that are killed

A process can be killed between any two of its requests: what it has asked so far has had its
effect, and the rest is never asked.

* `Program.killed` — what a process leaves that is killed after `n` requests;
  `killed_eq_run` — killed late enough, it has run to its end.
* `Program.Throughout` — a property of every state on the way of a run, with the rules for
  sequencing and handlers; `throughout_iff_killed` says that it is what a killed process leaves.
-/

namespace WalletLedger

namespace Program

variable {Req : Type} {Resp : Req → Type} {ε α β σ : Type}

section killed

variable (exec : (r : Req) → σ → Resp r × σ)

/-- What the program leaves when it is killed after its first `n` requests. -/
def killed : ℕ → Program Req Resp ε α → σ → σ
  | n + 1, call r k, s => killed n (k (exec r s).1) (exec r s).2
  | _, _, s => s

@[simp] theorem killed_ret (n : ℕ) (a : α) (s : σ) :
    killed exec n (ret a : Program Req Resp ε α) s = s := by
  cases n <;> rfl

@[simp] theorem killed_raise (n : ℕ) (e : ε) (s : σ) :
    killed exec n (raise e : Program Req Resp ε α) s = s := by
  cases n <;> rfl

@[simp] theorem killed_call (n : ℕ) (r : Req) (k : Resp r → Program Req Resp ε α) (s : σ) :
    killed exec (n + 1) (call r k) s = killed exec n (k (exec r s).1) (exec r s).2 := rfl

/-- A process that is killed late enough has run to its end. -/
theorem killed_eq_run (p : Program Req Resp ε α) (s : σ) :
    ∃ n, killed exec n p s = (run exec p s).2 := by
  induction p generalizing s with
  | ret a => exact ⟨0, rfl⟩
  | raise e => exact ⟨0, rfl⟩
  | call r k ih =>
    obtain ⟨n, hn⟩ := ih (exec r s).1 (exec r s).2
    exact ⟨n + 1, hn⟩

/-- Run alone, the program goes through states that satisfy `I`, the first and the last
included. -/
def Throughout (I : σ → Prop) : Program Req Resp ε α → σ → Prop
  | ret _, s => I s
  | raise _, s => I s
  | call r k, s => I s ∧ (k (exec r s).1).Throughout I (exec r s).2

end killed

variable {exec : (r : Req) → σ → Resp r × σ} {I J : σ → Prop} {p : Program Req Resp ε α} {s : σ}

/-- Whenever the process is killed, the property holds of what it leaves. -/
theorem throughout_iff_killed : p.Throughout exec I s ↔ ∀ n, I (killed exec n p s) := by
  induction p generalizing s with
  | ret a => exact ⟨fun h n => (killed_ret exec n a s).symm ▸ h, fun h => h 0⟩
  | raise e => exact ⟨fun h n => (killed_raise exec n e s).symm ▸ h, fun h => h 0⟩
  | call r k ih =>
    constructor
    · rintro ⟨hs, hk⟩ n
      cases n with
      | zero => exact hs
      | succ n => exact (ih _).1 hk n
    · exact fun h => ⟨h 0, (ih _).2 fun n => h (n + 1)⟩

namespace Throughout

theorem last (h : p.Throughout exec I s) : I (run exec p s).2 := by
  obtain ⟨n, hn⟩ := killed_eq_run exec p s
  exact hn ▸ throughout_iff_killed.1 h n

theorem mono (hIJ : ∀ t, I t → J t) (h : p.Throughout exec I s) : p.Throughout exec J s :=
  throughout_iff_killed.2 fun n => hIJ _ (throughout_iff_killed.1 h n)

theorem and (h : p.Throughout exec I s) (h' : p.Throughout exec J s) :
    p.Throughout exec (fun t => I t ∧ J t) s :=
  throughout_iff_killed.2 fun n => ⟨throughout_iff_killed.1 h n, throughout_iff_killed.1 h' n⟩

/-- What every request of the program keeps. -/
theorem of_all {P : Req → Prop} (hI : ∀ r t, P r → I t → I (exec r t).2) (hp : p.All P)
    (hs : I s) : p.Throughout exec I s := by
  induction p generalizing s with
  | ret a => exact hs
  | raise e => exact hs
  | call r k ih => exact ⟨hs, ih _ (hp.2 _) (hI r s hp.1 hs)⟩

/-- A sequence: the second part starts where the first has returned. -/
theorem bind {f : α → Program Req Resp ε β} (hp : p.Throughout exec I s)
    (hf : ∀ a t, run exec p s = (.ok a, t) → I t → (f a).Throughout exec I t) :
    (p >>= f).Throughout exec I s := by
  induction p generalizing s with
  | ret a => exact hf a s rfl hp
  | raise e => exact hp
  | call r k ih => exact ⟨hp.1, ih _ hp.2 hf⟩

/-- A handler starts where its program has raised. -/
theorem attempt {h : ε → Program Req Resp ε α} (hp : p.Throughout exec I s)
    (hh : ∀ e t, run exec p s = (.error e, t) → I t → (h e).Throughout exec I t) :
    (p.attempt h).Throughout exec I s := by
  induction p generalizing s with
  | ret a => exact hp
  | raise e => exact hh e s rfl hp
  | call r k ih => exact ⟨hp.1, ih _ hp.2 hh⟩

/-- Dropping the result changes nothing. -/
theorem map {g : α → β} (hp : p.Throughout exec I s) : (g <$> p).Throughout exec I s := by
  rw [map_eq_pure_bind]
  exact hp.bind fun _ _ _ ht => ht

end Throughout

end Program

end WalletLedger
