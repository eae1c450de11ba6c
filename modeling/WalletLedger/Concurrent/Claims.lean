import WalletLedger.Concurrent.Sessions
import WalletLedger.Sequential.Retries

/-!
# Claims on one key

Any number of decorated requests with one key.  The row of the key says who may run the view;
between its insertion and its completion, or its deletion, only one session commits anything.

* `Shared.own`, `Shared.others` — what a session has committed, and what the others have.
* `Shared.Owns` — the session has committed its claim and has not freed it;
  `Shared.Entitled` — it owns the key, or is about to; `Claims.entitled_unique`.
* `Claims` — the invariant; `claiming` — the discipline, with what a session may rely on.
* `Claims.keeps_idle`, `Claims.keeps_commit` — the turns that keep it.
-/

namespace WalletLedger

/-! ## What has been committed -/

/-- A claim and the deletion of one decide who owns the key. -/
def Write.owns : Bool → Write → Bool
  | _, .addKey _ => true
  | _, .deleteKey _ => false
  | owned, _ => owned

theorem owns_of_offKeys {ws : List Write} (h : ∀ w ∈ ws, w.touchesKeys = false) (owned : Bool) :
    ws.foldl Write.owns owned = owned := by
  induction ws with
  | nil => rfl
  | cons w ws ih =>
    have hw : Write.owns owned w = owned := by
      have := h w (by simp)
      cases w <;> first | rfl | cases this
    rw [List.foldl_cons, hw]
    exact ih fun v hv => h v (by simp [hv])

/-- A row that is added and deleted again leaves the tables as they were. -/
theorem deleteKey_addKey {db : Database} {k : IdempotencyKey} (h : ∀ x ∈ db.keys, x.id ≠ k.id) :
    (Write.deleteKey k.id).apply ((Write.addKey k).apply db) = db := by
  have hkept : db.keys.filter (fun x => decide (x.id ≠ k.id)) = db.keys :=
    List.filter_eq_self.2 fun x hx => by simpa using h x hx
  cases db
  show (⟨_, List.filter _ (_ ++ _), _⟩ : Database) = _
  rw [List.filter_append, hkept]
  simp [Write.apply, Write.applyBooks, Write.applyNotifications]

namespace Shared

variable {ι : Type} [DecidableEq ι]

/-- What the session has committed, oldest first. -/
def own (s : Shared ι) (i : ι) : List Write := (s.commits.filter fun x => x.1 = i).flatMap (·.2)

/-- What the other sessions have committed. -/
def others (s : Shared ι) (i : ι) : List Write :=
  (s.commits.filter fun x => x.1 ≠ i).flatMap (·.2)

/-- The session has claimed the key, and has not freed it. -/
def Owns (s : Shared ι) (i : ι) : Prop := (s.own i).foldl Write.owns false = true

/-- The session has committed effects of its view: writes beside the keys. -/
def RunCommitted (s : Shared ι) (i : ι) : Prop := ∃ w ∈ s.own i, w.touchesKeys = false

/-- The session owns the key, or has inserted it and holds the lock on it. -/
def Entitled (key : String) (s : Shared ι) (i : ι) : Prop :=
  s.Owns i ∨ s.locks.Holds i (.idempotencyKey key) .update ∧ ¬ Taken key s.store.db.keys

/-- The database is what the commits of the other sessions make of the one at the start. -/
def Traceless (db₀ : Database) (s : Shared ι) (i : ι) : Prop :=
  s.store.db = replay (s.others i) db₀

instance (s : Shared ι) (i : ι) : Decidable (s.RunCommitted i) :=
  inferInstanceAs (Decidable (∃ w ∈ s.own i, w.touchesKeys = false))

variable {cfg : Config} {s t : Shared ι} {i j : ι} {r : Request}

theorem own_congr (h : t.commits = s.commits) (j : ι) : t.own j = s.own j := by
  unfold own
  rw [h]

theorem others_congr (h : t.commits = s.commits) (j : ι) : t.others j = s.others j := by
  unfold others
  rw [h]

/-- A turn that publishes nothing. -/
theorem after_idle (cfg : Config) (hr : r = .commit → (s.sessions i).failed = true) :
    (s.after cfg i r).store.db = s.store.db ∧ (s.after cfg i r).commits = s.commits := by
  by_cases h : r = .commit
  · subst h
    obtain ⟨hs, hc⟩ := after_commit_failed cfg (hr rfl)
    exact ⟨by rw [hs], hc⟩
  · exact ⟨after_db h, after_commits h⟩

section commit

variable (cfg) (hf : (s.sessions i).failed = false)

include hf

theorem own_after_commit : (s.after cfg i .commit).own i = s.own i ++ (s.sessions i).writes := by
  unfold own
  rw [(after_commit cfg hf).2, List.filter_append, List.flatMap_append]
  simp

theorem own_after_commit_of_ne (hj : j ≠ i) : (s.after cfg i .commit).own j = s.own j := by
  unfold own
  rw [(after_commit cfg hf).2, List.filter_append, List.flatMap_append]
  simp [hj.symm]

theorem others_after_commit : (s.after cfg i .commit).others i = s.others i := by
  unfold others
  rw [(after_commit cfg hf).2, List.filter_append, List.flatMap_append]
  simp

theorem others_after_commit_of_ne (hj : j ≠ i) :
    (s.after cfg i .commit).others j = s.others j ++ (s.sessions i).writes := by
  unfold others
  rw [(after_commit cfg hf).2, List.filter_append, List.flatMap_append]
  simp [hj.symm]

/-- Whoever has left no trace leaves none when another session commits. -/
theorem Traceless.after_commit {db₀ : Database} (hj : j ≠ i) (h : s.Traceless db₀ j) :
    (s.after cfg i .commit).Traceless db₀ j := by
  unfold Traceless
  rw [others_after_commit_of_ne cfg hf hj, replay_append, ← h]
  exact (Shared.after_commit cfg hf).1

end commit

end Shared

/-! ## The invariant -/

variable {ι : Type} [DecidableEq ι] {cfg : Config} {key requestHash : String} {db₀ : Database}
  {s t : Shared ι} {i j : ι} {r : Request}

/-- At most one session owns the key, the key of an owner is in the table, and only an owner has
committed effects of the view. -/
structure Claims (key : String) (s : Shared ι) : Prop where
  locks : s.locks.Exclusive
  table : KeyTable s.store.db.keys s.store.seqs
  unique : ∀ i j, s.Owns i → s.Owns j → i = j
  taken : ∀ i, s.Owns i → Taken key s.store.db.keys
  effects : ∀ i, s.RunCommitted i → s.Owns i

/-- One session at most is entitled to the key. -/
theorem Claims.entitled_unique (h : Claims key s) (hi : s.Entitled key i)
    (hj : s.Entitled key j) : i = j := by
  rcases hi with hi | ⟨hlock, habsent⟩
  · rcases hj with hj | ⟨-, habsent⟩
    · exact h.unique i j hi hj
    · exact absurd (h.taken i hi) habsent
  · rcases hj with hj | ⟨hlock', -⟩
    · exact absurd (h.taken j hj) habsent
    · by_contra hne
      exact h.locks.not_holds hlock (Ne.symm hne) hlock'

/-- What session `i` relies on while the others take their turns. -/
structure Unhindered (key requestHash : String) (db₀ : Database) (i : ι) (s t : Shared ι) :
    Prop where
  frame : s.Frame i t
  own : t.own i = s.own i
  seqs : s.store.seqs.nextId ≤ t.store.seqs.nextId
  /-- Nobody else commits while it is entitled. -/
  alone : s.Entitled key i → t.store.db = s.store.db ∧ t.others i = s.others i
  stored : ∀ response, s.store.db.storedResponse key requestHash = some response →
    t.store.db.storedResponse key requestHash = some response
  traceless : s.Traceless db₀ i → t.Traceless db₀ i

theorem Unhindered.refl (i : ι) (s : Shared ι) : Unhindered key requestHash db₀ i s s :=
  ⟨.refl i s, rfl, le_rfl, fun _ => ⟨rfl, rfl⟩, fun _ => id, id⟩

theorem Unhindered.owns (h : Unhindered key requestHash db₀ i s t) : t.Owns i ↔ s.Owns i := by
  unfold Shared.Owns
  rw [h.own]

theorem Unhindered.runCommitted (h : Unhindered key requestHash db₀ i s t) :
    t.RunCommitted i ↔ s.RunCommitted i := by
  unfold Shared.RunCommitted
  rw [h.own]

theorem Unhindered.entitled (h : Unhindered key requestHash db₀ i s t) (hs : s.Entitled key i) :
    t.Entitled key i := by
  rcases hs with howns | ⟨hlock, habsent⟩
  · exact .inl (h.owns.2 howns)
  · exact .inr ⟨h.frame.holds hlock, by rwa [(h.alone (.inr ⟨hlock, habsent⟩)).1]⟩

theorem Unhindered.trans {u : Shared ι} (h : Unhindered key requestHash db₀ i s t)
    (h' : Unhindered key requestHash db₀ i t u) : Unhindered key requestHash db₀ i s u where
  frame := h.frame.trans h'.frame
  own := h'.own.trans h.own
  seqs := h.seqs.trans h'.seqs
  alone hs := by
    obtain ⟨hdb, hothers⟩ := h.alone hs
    obtain ⟨hdb', hothers'⟩ := h'.alone (h.entitled hs)
    exact ⟨hdb'.trans hdb, hothers'.trans hothers⟩
  stored response hs := h'.stored response (h.stored response hs)
  traceless hs := h'.traceless (h.traceless hs)

/-- Requests with one key. -/
def claiming (ι : Type) [DecidableEq ι] (key requestHash : String) (db₀ : Database) :
    Discipline ι (Shared ι) where
  inv := Claims key
  rely := Unhindered key requestHash db₀
  rely_refl := Unhindered.refl
  rely_trans := Unhindered.trans

/-- What publishes nothing and draws on the generators only keeps the discipline. -/
theorem Claims.keeps_of_same (h : Claims key s) (hlocks : t.locks.Exclusive)
    (hframe : ∀ j, j ≠ i → s.Frame j t) (hdb : t.store.db = s.store.db)
    (hcommits : t.commits = s.commits) (hseqs : s.store.seqs.nextId ≤ t.store.seqs.nextId) :
    (claiming ι key requestHash db₀).Keeps i s t := by
  have howns : ∀ j, t.Owns j ↔ s.Owns j := fun j => by
    unfold Shared.Owns
    rw [Shared.own_congr hcommits]
  refine ⟨⟨hlocks, ?_, fun j k hj hk => ?_, fun j hj => ?_, fun j hj => ?_⟩, fun j hj => ?_⟩
  · rw [hdb]
    exact h.table.mono hseqs
  · exact h.unique j k ((howns j).1 hj) ((howns k).1 hk)
  · rw [hdb]
    exact h.taken j ((howns j).1 hj)
  · refine (howns j).2 (h.effects j ?_)
    unfold Shared.RunCommitted at hj ⊢
    rwa [Shared.own_congr hcommits] at hj
  · refine ⟨hframe j hj, Shared.own_congr hcommits j, hseqs,
      fun _ => ⟨hdb, Shared.others_congr hcommits j⟩, fun _ => by rw [hdb]; exact id, fun hs => ?_⟩
    unfold Shared.Traceless at hs ⊢
    rw [hdb, Shared.others_congr hcommits, hs]

/-- A request that commits nothing. -/
theorem Claims.keeps_idle (h : Claims key s)
    (hb : s.locks.blocked i (s.wanted cfg i r) = false)
    (hr : r = .commit → (s.sessions i).failed = true) :
    (claiming ι key requestHash db₀).Keeps i s (s.after cfg i r) := by
  obtain ⟨hdb, hcommits⟩ := Shared.after_idle cfg hr
  exact h.keeps_of_same (Shared.exclusive_after h.locks hb) (fun _ hj => Shared.after_frame hj) hdb
    hcommits (Conn.seqs_exec cfg r (s.conn i)).nextId

theorem Claims.keeps_finish (h : Claims key s) (i : ι) :
    (claiming ι key requestHash db₀).Keeps i s (s.finish i) :=
  h.keeps_of_same (LockTable.exclusive_release h.locks i) (fun _ hj => Shared.finish_frame hj) rfl
    rfl le_rfl

/-- A commit of the session that is entitled to the key, as long as no response is stored. -/
theorem Claims.keeps_commit (cfg : Config) (h : Claims key s) (hf : (s.sessions i).failed = false)
    (hi : s.Entitled key i) (hopen : s.store.db.storedResponse key requestHash = none)
    (htable : KeyTable (s.conn i).view.keys s.store.seqs)
    (htaken : (s.after cfg i .commit).Owns i → Taken key (s.conn i).view.keys)
    (heffects : (s.after cfg i .commit).RunCommitted i → (s.after cfg i .commit).Owns i) :
    (claiming ι key requestHash db₀).Keeps i s (s.after cfg i .commit) := by
  obtain ⟨hdb, -⟩ := Shared.after_commit cfg hf
  have hseqs : (s.after cfg i .commit).store.seqs = s.store.seqs := by
    rw [Shared.after_store, Conn.exec_commit, if_neg (by simp [Shared.conn, hf])]
    rfl
  have howns : ∀ j, j ≠ i → ¬ (s.after cfg i .commit).Owns j := by
    intro j hj howns
    unfold Shared.Owns at howns
    rw [Shared.own_after_commit_of_ne cfg hf hj] at howns
    exact hj (h.entitled_unique (.inl howns) hi)
  have hruns : ∀ j, j ≠ i → ¬ (s.after cfg i .commit).RunCommitted j := by
    intro j hj hrun
    unfold Shared.RunCommitted at hrun
    rw [Shared.own_after_commit_of_ne cfg hf hj] at hrun
    exact hj (h.entitled_unique (.inl (h.effects j hrun)) hi)
  have honly : ∀ j, (s.after cfg i .commit).Owns j → j = i := fun j hj =>
    of_not_not fun hne => howns j hne hj
  refine ⟨⟨LockTable.exclusive_release h.locks i, ?_, fun j k hj hk => ?_, fun j hj => ?_,
    fun j hj => ?_⟩, fun j hj => ?_⟩
  · rw [hdb, hseqs]
    exact htable
  · exact (honly j hj).trans (honly k hk).symm
  · rw [hdb]
    obtain rfl := honly j hj
    exact htaken hj
  · by_cases hji : j = i
    · subst hji
      exact heffects hj
    · exact absurd hj (hruns j hji)
  · exact ⟨Shared.after_frame hj, Shared.own_after_commit_of_ne cfg hf hj, hseqs ▸ le_rfl,
      fun hentitled => absurd (h.entitled_unique hentitled hi) hj,
      fun response hs => absurd (hopen.symm.trans hs) (by simp),
      Shared.Traceless.after_commit cfg hf hj⟩

end WalletLedger
