import WalletLedger.Sequential.Progress
import WalletLedger.Lib.Archive
import Mathlib.Logic.Relation

/-!
# The audit trail

Nothing is ever removed from the entries or the transactions, and the only thing that
changes in a row is its status, along its life.

* `LedgerEntry.Step`, `Transaction.Step` — the lives of the rows.
* `Progress.audited` — an operation moves every row one step at most.
* `Books.Audited` — two states of the books of which one follows the other, and
  `audit_trail`: so do any two states of a run.
-/

namespace WalletLedger

variable {cfg : Config} {b b₁ b' : Books} {s s' : Sequences}

/-! ## The lives of the rows -/

/-- A pending entry is settled or released; nothing else happens to an entry. -/
inductive LedgerEntry.Step : LedgerEntry → LedgerEntry → Prop
  | settled (e : LedgerEntry) : e.status = .pending → Step e { e with status := .success }
  | released (e : LedgerEntry) : e.status = .pending → Step e { e with status := .failed }

/-- A pending transaction succeeds or fails, and a successful one may be reversed. -/
inductive Transaction.Step : Transaction → Transaction → Prop
  | succeeded (t : Transaction) : t.status = .pending → Step t { t with status := .success }
  | failed (t : Transaction) : t.status = .pending → Step t { t with status := .failed }
  | reversed (t : Transaction) : t.status = .success → Step t { t with status := .reversed }

open Relation (ReflGen ReflTransGen)

/-- The status of an entry changes at most once. -/
theorem LedgerEntry.once {e f g : LedgerEntry} (h : ReflGen Step e f) (h' : ReflGen Step f g) :
    ReflGen Step e g := by
  cases h with
  | refl => exact h'
  | single h =>
    cases h' with
    | refl => exact .single h
    | single h' => cases h <;> cases h' <;> contradiction

theorem Transaction.Step.id_eq {t u : Transaction} (h : t.Step u) : u.id = t.id := by
  cases h <;> rfl

theorem Transaction.Step.pending {t u : Transaction} (h : t.Step u) : u.status ≠ .pending := by
  cases h <;> simp

theorem Transaction.id_of_steps {t u : Transaction} (h : ReflTransGen Step t u) :
    u.id = t.id := by
  induction h with
  | refl => rfl
  | tail _ hstep ih => exact hstep.id_eq.trans ih

theorem Transaction.pending_of_steps {t u : Transaction} (h : ReflTransGen Step t u)
    (ht : t.status ≠ .pending) : u.status ≠ .pending := by
  induction h with
  | refl => exact ht
  | tail _ hstep _ => exact hstep.pending

/-- The books `b'` follow `b`: every row is still in its place, with its status further
along its life at most.  `R` is what may have become of a transaction. -/
structure Books.Audited (R : Transaction → Transaction → Prop) (b b' : Books) : Prop where
  entries : Extends (ReflGen LedgerEntry.Step) b.entries b'.entries
  transactions : Extends R b.transactions b'.transactions
  /-- The entries of a transaction that is no longer pending stay as they are. -/
  finished : ∀ t ∈ b.transactions, t.status ≠ .pending → b'.entriesOf t.id = b.entriesOf t.id
  /-- A failed or reversed transaction is not touched again. -/
  closed : ∀ t ∈ b.transactions, t.status = .failed ∨ t.status = .reversed → t ∈ b'.transactions

namespace Books.Audited

variable {R : Transaction → Transaction → Prop}

/-- The two tables are as they were. -/
theorem of_eq (hR : ∀ t, R t t) (ht : b'.transactions = b.transactions)
    (he : b'.entries = b.entries) : b.Audited R b' where
  entries := he ▸ Extends.refl (fun _ => .refl) _
  transactions := ht ▸ Extends.refl hR _
  finished _ _ _ := by rw [entriesOf, he, entriesOf]
  closed t h _ := ht ▸ h

theorem mono {S : Transaction → Transaction → Prop} (hRS : ∀ t u, R t u → S t u)
    (h : b.Audited R b') : b.Audited S b' :=
  { h with transactions := h.transactions.mono hRS }

theorem trans (h : b.Audited (ReflTransGen Transaction.Step) b₁)
    (h' : b₁.Audited (ReflTransGen Transaction.Step) b') :
    b.Audited (ReflTransGen Transaction.Step) b' where
  entries := h.entries.trans (fun _ _ _ => LedgerEntry.once) h'.entries
  transactions := h.transactions.trans (fun _ _ _ => ReflTransGen.trans) h'.transactions
  finished t ht hs := by
    obtain ⟨u, hu, hsteps⟩ := h.transactions.exists_of_mem ht
    have hlater := h'.finished u hu (Transaction.pending_of_steps hsteps hs)
    rw [Transaction.id_of_steps hsteps] at hlater
    rw [hlater, h.finished t ht hs]
  closed t ht hs := h'.closed t (h.closed t ht hs) hs

end Books.Audited

/-- One operation moves every row one step at most. -/
theorem Progress.audited (hk : b.Keyed s) (h : Progress b b') :
    b.Audited (ReflGen Transaction.Step) b' := by
  have hrefl : ∀ t, ReflGen Transaction.Step t t := fun _ => .refl
  cases h with
  | idle ht he => exact .of_eq hrefl ht he
  | opened t es fresh _ _ ht he own _ =>
    refine ⟨he ▸ extends_append (fun _ => .refl) _ _, ht ▸ extends_append hrefl _ _, ?_, ?_⟩
    · intro x hx _
      exact Books.entriesOf_append he own (fresh x hx)
    · intro x hx _
      rw [ht]
      exact List.mem_append_left _ hx
  | closed t status outcome selected es mem pending status_final outcome_final selects ht he own
      _ =>
    have hrow : ∀ x ∈ b.transactions, x.id = t.id → x = t := fun x hx hid =>
      eq_of_key_eq hk.transactionIds hx mem hid
    refine ⟨he ▸ extends_map (fun e hmem => ?_) _, ht ▸ extends_modify hrefl fun x hx hid => ?_,
      ?_, ?_⟩
    · split
      · have hpend := (selects e hmem ‹_›).2
        rcases outcome_final with rfl | rfl
        · exact .single (.settled e hpend)
        · exact .single (.released e hpend)
      · exact .refl
    · have hpend : x.status = .pending := hrow x hx hid ▸ pending
      rcases status_final with rfl | rfl
      · exact .single (.succeeded x hpend)
      · exact .single (.failed x hpend)
    · intro x hx hs
      have hne : x.id ≠ t.id := fun hid => hs (hrow x hx hid ▸ pending)
      exact Books.entriesOf_closed he (fun e hmem hsel => (selects e hmem hsel).1)
        (fun e hmem => (own e hmem).1) hne
    · intro x hx hs
      have hne : x.id ≠ t.id := fun hid => by
        rw [hrow x hx hid, pending] at hs
        simp at hs
      rw [ht]
      exact mem_modify.2 ⟨x, hx, by rw [if_neg hne]⟩
  | reversed t reversal es mem success _ fresh _ _ _ ht he own _ =>
    have hrow : ∀ x ∈ b.transactions, x.id = t.id → x = t := fun x hx hid =>
      eq_of_key_eq hk.transactionIds hx mem hid
    refine ⟨he ▸ extends_append (fun _ => .refl) _ _, ?_, ?_, ?_⟩
    · rw [ht, modify_append]
      refine extends_map (fun x hx => ?_) _
      split
      · exact .single (.reversed x (hrow x hx ‹_› ▸ success))
      · exact .refl
    · intro x hx _
      exact Books.entriesOf_append he (fun e h => (own e h).1) (fresh x hx)
    · intro x hx hs
      have hne : x.id ≠ t.id := fun hid => by
        rw [hrow x hx hid, success] at hs
        simp at hs
      rw [ht]
      exact mem_modify.2 ⟨x, List.mem_append_left _ hx, by rw [if_neg hne]⟩

/-! ## Every run -/

/-- An operation moves every row one step at most. -/
theorem Store.Sound.audited {s : Store} (h : s.Sound) (op : Operation) :
    s.db.books.Audited (ReflGen Transaction.Step) (op.run cfg s).db.books := by
  rcases Operation.run_effect h.keyed op with hb | he
  · exact .of_eq (fun _ => .refl) (by rw [hb]) (by rw [hb])
  · exact (he.progress h.keyed (h.run op).keyed h.linked).audited h.keyed

/-- The books of a run follow those it starts from. -/
theorem Store.Sound.audited_run {s s' : Store} (h : s.Sound)
    (hrun : Run (Operation.run cfg) anyOp s s') :
    s'.Sound ∧ s.db.books.Audited (ReflTransGen Transaction.Step) s'.db.books := by
  induction hrun with
  | start => exact ⟨h, .of_eq (fun _ => .refl) rfl rfl⟩
  | step op _ _ ih =>
    refine ⟨ih.1.run op, ih.2.trans ((ih.1.audited op).mono fun t u htu => ?_)⟩
    cases htu with
    | refl => exact .refl
    | single hstep => exact .single hstep

/-- **The audit trail.**  Between any two states of a run, no entry and no transaction is
removed, an entry changes at most once and in its status only, a transaction changes in
its status only and along its life, and what is closed stays as it is; a single operation
takes a transaction one step at most. -/
theorem audit_trail (cfg : Config) (ops ops' : List Operation) (op : Operation) :
    let s := runAll cfg ops Store.empty
    s.db.books.Audited (ReflTransGen Transaction.Step) (runAll cfg ops' s).db.books ∧
      s.db.books.Audited (ReflGen Transaction.Step) (op.run cfg s).db.books := by
  have hs : (runAll cfg ops Store.empty).Sound := sound_of_run (Run.foldl ops)
  exact ⟨(hs.audited_run (Run.foldl ops')).2, hs.audited op⟩

end WalletLedger
