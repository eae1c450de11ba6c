import WalletLedger.Operations.Faults
import WalletLedger.Sequential.Requests
import WalletLedger.Lib.Runs

/-!
# Retries

A client sends one request again and again, while any statement may fail.  The key protects
it as long as no attempt deletes the key once it has moved the money.

* `Held` — a row of the table of keys; `held_tryOn`, and `held_releaseKey` for the key of
  another request.
* `serveClaimed_tryOn`, `attempt_moves` — what one attempt does.
* `moved_at_most_once` — the result, for any number of attempts among other visits;
  `paid_twice` is a reload that failed after the commit.
-/

namespace WalletLedger

variable {cfg : Config} {web : Web} {α : Type} {key requestHash : String} {id : Id}

/-! ## A row of the table -/

/-- The key is in the table. -/
def Taken (key : String) (ks : List IdempotencyKey) : Prop := ∃ k ∈ ks, k.key = key

/-- The table is well formed, and the row `id` has this key. -/
structure Held (id : Id) (key : String) (s : Sequences) (db : Database) : Prop where
  table : KeyTable db.keys s
  row : ∃ k ∈ db.keys, k.id = id ∧ k.key = key

theorem Held.taken {s : Sequences} {db : Database} (h : Held id key s db) : Taken key db.keys := by
  obtain ⟨k, hk, -, hkey⟩ := h.row
  exact ⟨k, hk, hkey⟩

theorem Held.mono {s t : Sequences} {db : Database} (hle : s.LE t) (h : Held id key s db) :
    Held id key t db := ⟨h.table.mono hle.nextId, h.row⟩

/-- Only its own deletion removes the row. -/
theorem Held.exec {m : Mutation} {s : Sequences} {db : Database} {v : m.Result} {w : Write}
    (h : Held id key s db) (hne : m ≠ .deleteKey id) (hm : m.exec cfg s db = .ok (v, w)) :
    Held id key (m.advance s) (w.apply db) := by
  refine ⟨h.table.exec hm, ?_⟩
  obtain ⟨k, hk, hid, hkey⟩ := h.row
  show ∃ k ∈ w.applyKeys db.keys, k.id = id ∧ k.key = key
  have hbeside : m.onKeys = false → ∃ k ∈ w.applyKeys db.keys, k.id = id ∧ k.key = key := by
    intro hm'
    rw [Write.applyKeys_of_not (Mutation.touchesKeys_exec hm' hm)]
    exact ⟨k, hk, hid, hkey⟩
  cases m with
  | insertKey key requestHash =>
    obtain ⟨-, -, rfl⟩ := Mutation.exec_insertKey hm
    exact ⟨k, List.mem_append_left _ hk, hid, hkey⟩
  | completeKey other status body =>
    dsimp only [Mutation.exec] at hm
    split at hm <;> cases hm
    refine ⟨_, mem_modify.2 ⟨k, hk, rfl⟩, ?_⟩
    split <;> exact ⟨hid, hkey⟩
  | deleteKey other =>
    cases hm
    have hother : k.id ≠ other := fun h => hne (by rw [← hid, h])
    exact ⟨k, List.mem_filter.2 ⟨hk, by simpa using hother⟩, hid, hkey⟩
  | _ => exact hbeside rfl

/-- A program that does not delete the row keeps it, whatever goes wrong. -/
theorem held_tryOn (cfg : Config) {p : App α} (hp : p.All fun r => r ≠ .mutate (.deleteKey id))
    {t : Trial} (h : t.conn.Everywhere (Held id key)) :
    (tryOn cfg p t).2.conn.Everywhere (Held id key) :=
  everywhere_tryOn (fun hle hs => hs.mono hle)
    (fun _ _ _ _ _ hm hs hexec => hs.exec (fun hd => hm (congrArg _ hd)) hexec) hp h

/-- Every program keeps the table well formed. -/
theorem table_tryOn (cfg : Config) (p : App α) {t : Trial}
    (h : t.conn.Everywhere fun s db => KeyTable db.keys s) :
    (tryOn cfg p t).2.conn.Everywhere fun s db => KeyTable db.keys s :=
  everywhere_tryOn (P := fun _ => True) (fun hle hs => hs.mono hle.nextId)
    (fun _ _ _ _ _ _ hs hexec => hs.exec hexec) p.all_true h

theorem Write.taken {w : Write} {ks : List IdempotencyKey} (hw : w.deletesKey = false)
    (h : Taken key ks) : Taken key (w.applyKeys ks) := by
  obtain ⟨k, hk, hkey⟩ := h
  cases w with
  | addKey x => exact ⟨k, List.mem_append_left _ hk, hkey⟩
  | completeKey id status body =>
    refine ⟨_, mem_modify.2 ⟨k, hk, rfl⟩, ?_⟩
    split <;> exact hkey
  | deleteKey id => cases hw
  | _ => exact ⟨k, hk, hkey⟩

theorem replay_taken {ws : List Write} (hws : ws.any Write.deletesKey = false) {db : Database}
    (h : Taken key db.keys) : Taken key (replay ws db).keys := by
  induction ws generalizing db with
  | nil => exact h
  | cons w ws ih =>
    rw [List.any_cons, Bool.or_eq_false_iff] at hws
    exact ih hws.2 (Write.taken hws.1 h)

/-- A request that publishes no deletion leaves a taken key taken. -/
theorem Conn.taken_exec (cfg : Config) {c : Conn} {r : Request} (h : Taken key c.store.db.keys)
    (hnone : (c.published r).any Write.deletesKey = false) :
    Taken key (Conn.exec cfg r c).2.store.db.keys := by
  cases Conn.turn_exec cfg r c with
  | kept _ _ hdb _ => rwa [hdb]
  | wrote m v w _ _ _ _ hdb _ => rwa [hdb]
  | committed hr hf _ hdb _ =>
    rw [Conn.published, if_pos ⟨hr, hf⟩] at hnone
    rw [hdb]
    exact replay_taken hnone h
  | dropped _ hdb _ => rwa [hdb]

/-- Once money has moved, a taken key stays taken, unless a deletion is published. -/
theorem taken_tryOn (cfg : Config) (p : App α) {t : Trial} (hmoved : 0 < t.moved)
    (h : Taken key t.conn.store.db.keys) :
    (tryOn cfg p t).2.freed = true ∨ Taken key (tryOn cfg p t).2.conn.store.db.keys := by
  refine (tryOn_invariant (P := fun _ => True) (I := fun t => 0 < t.moved ∧
    (t.freed = true ∨ Taken key t.conn.store.db.keys)) (fun r t _ h => ?_) p.all_true
    ⟨hmoved, .inr h⟩).2
  obtain ⟨hpos, hkept⟩ := h
  have hpos' : 0 < (Trial.exec cfg r t).2.moved := by
    rcases Trial.exec_cases cfg r t with hx | hx | hx <;> rw [hx] <;>
      simp only [Trial.next] <;> split <;> omega
  refine ⟨hpos', ?_⟩
  rcases hkept with hfreed | htaken
  · left
    rcases Trial.exec_cases cfg r t with hx | hx | hx <;> rw [hx] <;> simp [Trial.next, hfreed]
  cases hdeleted : (t.conn.published r).any Write.deletesKey with
  | true =>
    rcases Trial.exec_cases cfg r t with hx | hx | hx <;> rw [hx]
    · exact .inl (by simp [Trial.next, hdeleted, hpos])
    · exact .inr (by simpa [Trial.next] using htaken)
    · exact .inl (by simp [Trial.next, hdeleted, hpos])
  | false =>
    have hexec := Conn.taken_exec cfg htaken hdeleted
    right
    rcases Trial.exec_cases cfg r t with hx | hx | hx <;> rw [hx]
    · exact hexec
    · simpa [Trial.next] using htaken
    · simpa [Trial.next] using hexec

/-! ## The wrapper -/

theorem harmless_resolveDuplicate (key requestHash : String) :
    Harmless (resolveDuplicate key requestHash) := by
  rw [resolveDuplicate_eq]
  exact (harmless_ask rfl).bind fun _ => trivial

theorem harmless_claimKey (key requestHash : String) : Harmless (claimKey key requestHash) := by
  refine Program.All.attempt ?_ fun e => ?_
  · exact (harmless_ask rfl).bind fun _ => (harmless_ask rfl).bind fun _ => trivial
  · split
    · exact (harmless_ask rfl).bind fun _ => all_map (harmless_resolveDuplicate _ _) _
    · trivial

theorem harmless_storeResponse (key : String) (response : Response) :
    Harmless (storeResponse key response) :=
  (harmless_ask rfl).bind fun _ => (harmless_ofOption _ _).bind fun _ =>
    (harmless_ask rfl).bind fun _ => harmless_ask rfl

/-- What `releaseKey` does with the row it finds. -/
def deleteClaim : Option IdempotencyKey → App Unit
  | some claim =>
      if ¬ claim.isCompleted then do
        ask (.mutate (.deleteKey claim.id))
        ask .commit
      else return ()
  | none => return ()

theorem releaseKey_eq (key : String) :
    releaseKey key = ask .rollback >>= fun _ =>
      ask (.select (.idempotencyKey key)) >>= deleteClaim := by
  refine congrArg (ask .rollback >>= ·) (funext fun _ => ?_)
  refine congrArg (ask (.select (.idempotencyKey key)) >>= ·) (funext fun claim => ?_)
  cases claim <;> rfl

theorem deleteClaim_requests {P : Request → Prop} {claim : Option IdempotencyKey}
    (hdelete : ∀ k ∈ claim, P (.mutate (.deleteKey k.id))) (hcommit : P .commit) :
    (deleteClaim claim).All P := by
  cases claim with
  | none => trivial
  | some claim =>
    dsimp only [deleteClaim]
    split
    · exact (all_ask (hdelete claim rfl)).bind fun _ => all_ask hcommit
    · trivial

theorem harmless_releaseKey (key : String) : Harmless (releaseKey key) := by
  rw [releaseKey_eq]
  exact (harmless_ask rfl).bind fun _ => (harmless_ask rfl).bind fun _ =>
    deleteClaim_requests (fun _ _ => rfl) rfl

/-- The request deletes no key. -/
def Request.keepsKeys (r : Request) : Prop := ∀ id, r ≠ .mutate (.deleteKey id)

theorem keepsKeys_claimKey (key requestHash : String) :
    (claimKey key requestHash).All Request.keepsKeys := by
  have hask : ∀ r : Request, r.keepsKeys → (ask r).All Request.keepsKeys := fun _ hr => all_ask hr
  refine Program.All.attempt ?_ fun e => ?_
  · exact (hask _ fun _ => by simp).bind fun _ => (hask _ fun _ => by simp).bind fun _ => trivial
  · split
    · refine (hask _ fun _ => by simp).bind fun _ => all_map ?_ _
      rw [resolveDuplicate_eq]
      exact (hask _ fun _ => by simp).bind fun _ => trivial
    · trivial

theorem keepsKeys_storeResponse (key : String) (response : Response) :
    (storeResponse key response).All Request.keepsKeys := by
  have hask : ∀ r : Request, r.keepsKeys → (ask r).All Request.keepsKeys := fun _ hr => all_ask hr
  refine (hask _ fun _ => by simp).bind fun _ => (all_ofOption _ _).bind fun _ => ?_
  exact (hask _ fun _ => by simp).bind fun _ => hask _ fun _ => by simp

theorem keepsKeys_of_offKeys {p : App α} (hp : OffKeys p) : p.All Request.keepsKeys :=
  hp.mono fun r hr id h => by
    subst h
    cases hr

theorem Held.tryOn (cfg : Config) {p : App α} (hp : p.All Request.keepsKeys) {t : Trial}
    (h : t.conn.Everywhere (Held id key)) :
    (WalletLedger.tryOn cfg p t).2.conn.Everywhere (Held id key) :=
  held_tryOn cfg (hp.mono fun _ hr => hr id) h

/-- Freeing the key moves nothing: it begins with a rollback. -/
theorem releaseKey_moved (cfg : Config) (key : String) (t : Trial) :
    (tryOn cfg (releaseKey key) t).2.moved = t.moved := by
  have hharmless := harmless_releaseKey key
  obtain ⟨k, hk⟩ : ∃ k, releaseKey key = .call .rollback k := ⟨_, rfl⟩
  rw [hk] at hharmless ⊢
  have hrest : Harmless (k (Trial.exec cfg .rollback t).1) := hharmless.2 _
  have hbeside : (Trial.exec cfg .rollback t).2.conn.session.Beside := by
    rcases Trial.exec_cases cfg .rollback t with hx | hx | hx <;> rw [hx]
    · exact Session.beside_nil false
    · exact Session.beside_nil true
    · exact Session.beside_nil true
  have hmoved : (Trial.exec cfg .rollback t).2.moved = t.moved := by
    rcases Trial.exec_cases cfg .rollback t with hx | hx | hx <;> rw [hx] <;> rfl
  exact (hrest.trial cfg hbeside).1.trans hmoved

/-- The row of another key is kept: what `releaseKey` deletes, it has looked up by its key. -/
theorem held_releaseKey {other : String} (hne : other ≠ key) {t : Trial}
    (h : t.conn.Everywhere (Held id key)) :
    (tryOn cfg (releaseKey other) t).2.conn.Everywhere (Held id key) := by
  have hstep : ∀ (r : Request) (t : Trial), r.keepsKeys → t.conn.Everywhere (Held id key) →
      (Trial.exec cfg r t).2.conn.Everywhere (Held id key) := fun r t hr ht =>
    Held.tryOn cfg (p := (.call r fun _ => .ret () : App Unit)) ⟨hr, fun _ => trivial⟩ ht
  rw [releaseKey_eq]
  refine Program.run_bind_keeps (Trial.exec cfg) (I := fun t => t.conn.Everywhere (Held id key))
    (Held.tryOn cfg (p := ask .rollback) (all_ask fun _ => by simp) h) fun _ t₁ h₁ => ?_
  have h₂ := hstep (.select (.idempotencyKey other)) t₁ (fun _ => by simp) h₁
  cases hx : Trial.exec cfg (.select (.idempotencyKey other)) t₁ with
  | mk v t₂ =>
    rw [hx] at h₂
    cases v with
    | error e =>
      rw [run_refused hx]
      exact h₂
    | ok claim =>
      rw [run_answered hx]
      refine held_tryOn cfg (deleteClaim_requests (fun k hk hdelete => ?_) (by simp)) h₂
      have hconn := Trial.exec_ok cfg (congrArg Prod.fst hx)
      obtain ⟨-, hfound, -⟩ := Conn.exec_select_ok cfg _ hconn.1
      rw [Option.mem_def.1 hk] at hfound
      obtain ⟨x, hx, hid, hkey⟩ := h₁.view.row
      have hmem := List.mem_of_find?_eq_some hfound.symm
      have hsame : k = x := eq_of_key_eq h₁.view.table.ids hmem hx
        (by rw [hid]; exact (Mutation.deleteKey.inj (Request.mutate.inj hdelete)))
      have hother : k.key = other := by simpa using List.find?_some hfound.symm
      exact hne (by rw [← hother, hsame, hkey])

/-- What `claimKey` does with an error. -/
def claimRefused (key requestHash : String) (e : Exn) : App (Option Response) :=
  match e with
  | .service .integrity => do
      ask .rollback
      some <$> resolveDuplicate key requestHash
  | e => .raise e

theorem claimKey_eq :
    claimKey key requestHash =
      Program.attempt (ask (.mutate (.insertKey key requestHash)) >>= fun _ =>
        ask .commit >>= fun _ => .ret none) (claimRefused key requestHash) := rfl

/-- It never claims the key. -/
theorem claimRefused_tryOn (e : Exn) (t : Trial) :
    (tryOn cfg (claimRefused key requestHash e) t).1 ≠ .ok none := by
  unfold claimRefused
  split
  · cases hx : Trial.exec cfg .rollback t with
    | mk v t' =>
      cases v with
      | error e =>
        rw [tryOn, run_refused hx]
        simp
      | ok v =>
        rw [tryOn, run_answered hx, Program.run_map]
        cases Program.run (Trial.exec cfg) (resolveDuplicate key requestHash) t' with
        | mk o t'' => cases o <;> simp [Except.map]
  · simp

/-- A key that is claimed was free, and is taken now, in a session that has written nothing. -/
theorem claimed_tryOn (cfg : Config) (key requestHash : String) {t : Trial}
    (hs : t.conn.session = Session.fresh)
    (h : (tryOn cfg (claimKey key requestHash) t).1 = .ok none) :
    ¬ Taken key t.conn.store.db.keys ∧
      (tryOn cfg (claimKey key requestHash) t).2.conn.session = Session.fresh ∧
      Taken key (tryOn cfg (claimKey key requestHash) t).2.conn.store.db.keys := by
  rw [claimKey_eq, tryOn, Program.run_attempt] at h ⊢
  have hview : t.conn.view = t.conn.store.db := by
    unfold Conn.view
    rw [hs]
    rfl
  cases hinsert : Trial.exec cfg (.mutate (.insertKey key requestHash)) t with
  | mk v t₁ =>
    cases v with
    | error e =>
      rw [run_refused hinsert] at h
      exact absurd h (claimRefused_tryOn _ _)
    | ok u =>
      have hconn₁ := Trial.exec_ok cfg (congrArg Prod.fst hinsert)
      obtain ⟨-, w, hw, hwrote⟩ := Conn.exec_mutate_ok cfg t.conn hconn₁.1
      rw [run_answered hinsert] at h ⊢
      cases hcommit : Trial.exec cfg .commit t₁ with
      | mk v t₂ =>
        cases v with
        | error e =>
          rw [run_refused hcommit] at h
          exact absurd h (claimRefused_tryOn _ _)
        | ok u =>
          have hconn₂ := Trial.exec_ok cfg (congrArg Prod.fst hcommit)
          obtain ⟨-, habsent, rfl⟩ := Mutation.exec_insertKey hw
          rw [hview] at habsent
          refine ⟨fun ⟨k, hk, hkey⟩ => habsent k hk hkey, ?_⟩
          rw [run_answered hcommit]
          show t₂.conn.session = _ ∧ Taken key t₂.conn.store.db.keys
          rw [hinsert] at hconn₁
          rw [hcommit, hconn₁.2, hwrote] at hconn₂
          rw [hconn₂.2]
          refine ⟨rfl, ?_⟩
          show Taken key (Conn.view _).keys
          rw [Conn.view_wrote]
          exact ⟨_, List.mem_append_right _ (List.mem_singleton.2 rfl), rfl⟩

/-- With the key its own, a request moves money at most once, and if it has moved any, the key
stays taken unless it is freed after that. -/
theorem serveClaimed_tryOn (cfg : Config) (view : App Response) (hview : OneCommit view)
    (hkeeps : view.All Request.keepsKeys) {t : Trial} (hmoved : t.moved = 0)
    (hheld : t.conn.Everywhere (Held id key)) :
    let t' := (tryOn cfg (serveClaimed key view) t).2
    t'.moved ≤ 1 ∧ (t'.freed = false → t'.moved = 0 ∨ Taken key t'.conn.store.db.keys) := by
  intro t'
  have hview := hview.trial cfg t
  have hheld := Held.tryOn cfg hkeeps hheld
  rw [hmoved] at hview
  have hrun : t' = (tryOn cfg (serveClaimed key view) t).2 := rfl
  unfold serveClaimed at hrun
  rw [tryOn, Program.run_bind, Program.run_attempt] at hrun
  cases hx : Program.run (Trial.exec cfg) view t with
  | mk o t₁ =>
    rw [tryOn, hx] at hview hheld
    rw [hx] at hrun
    cases o with
    | error e =>
      have hrelease : t' = (tryOn cfg (releaseKey key) t₁).2 := by
        rw [hrun]
        dsimp only
        rw [Program.run_bind, tryOn]
        cases Program.run (Trial.exec cfg) (releaseKey key) t₁ with
        | mk o t₂ => cases o <;> rfl
      rw [hrelease, releaseKey_moved]
      rcases hview with h₁ | ⟨h₁, -⟩
      · exact ⟨by rw [h₁]; exact Nat.zero_le _, fun _ => .inl h₁⟩
      · refine ⟨h₁.le, fun hfreed => .inr ?_⟩
        have hpos : 0 < t₁.moved := by rw [h₁]; exact Nat.one_pos
        rcases taken_tryOn cfg (releaseKey key) hpos hheld.store.taken with h₂ | h₂
        · rw [h₂] at hfreed
          cases hfreed
        · exact h₂
    | ok response =>
      have hstore : t' = (tryOn cfg (storeResponse key response) t₁).2 := by
        rw [hrun]
        dsimp only
        rw [Program.run_bind, tryOn]
        cases Program.run (Trial.exec cfg) (storeResponse key response) t₁ with
        | mk o t₂ => cases o <;> rfl
      have hheld₂ := Held.tryOn cfg (keepsKeys_storeResponse key response) hheld
      rw [hstore]
      refine ⟨?_, fun _ => .inr hheld₂.store.taken⟩
      rcases hview with h₁ | ⟨h₁, hbeside⟩
      · rcases (harmless_storeResponse key response).oneCommit.trial cfg t₁ with h₂ | ⟨h₂, -⟩ <;>
          rw [h₂, h₁]
        exact Nat.zero_le _
      · exact (((harmless_storeResponse key response).trial cfg hbeside).1.trans h₁).le

/-! ## Attempts -/

/-- A visit and what goes wrong with it: the plan for its requests, and the channels as they
behave then. -/
structure Attempt where
  visit : Visit
  plan : List (Option Fault)
  channels : List NotificationChannel

/-- The visit, on a session of its own. -/
def Visit.trial (cfg : Config) (web : Web) (plan : List (Option Fault)) (s : Store) : Visit → Trial
  | .request r => (tryOn cfg (r.handle cfg web) ⟨⟨s, Session.fresh⟩, plan, 0, false⟩).2
  | .operation op => (tryOn cfg (op.program cfg) ⟨⟨s, Session.fresh⟩, plan, 0, false⟩).2

def Attempt.trial (cfg : Config) (web : Web) (a : Attempt) (s : Store) : Trial :=
  a.visit.trial { cfg with channels := a.channels } web a.plan s

/-- The visit is a request with this key. -/
def Visit.carries (key : String) : Visit → Bool
  | .request r => decide (r.key = some key)
  | .operation _ => false

/-- The store, and how often the requests with the key have moved money. -/
structure Retries where
  store : Store
  moved : ℕ

def Attempt.run (cfg : Config) (web : Web) (key : String) (a : Attempt) (s : Retries) : Retries :=
  let t := a.trial cfg web s.store
  ⟨t.conn.store, if a.visit.carries key then s.moved + t.moved else s.moved⟩

/-- A request with the key frees no key once it has moved money. -/
def Attempt.KeepsClaim (cfg : Config) (web : Web) (key : String) (a : Attempt) (s : Retries) :
    Prop :=
  a.visit.carries key = true → (a.trial cfg web s.store).freed = false

theorem Conn.everywhere_fresh {I : Sequences → Database → Prop} {s : Store} (h : I s.seqs s.db) :
    (⟨s, Session.fresh⟩ : Conn).Everywhere I := ⟨h, h⟩

theorem Taken.held {s : Store} (h : Taken key s.db.keys) (ht : KeyTable s.db.keys s.seqs) :
    ∃ id, Held id key s.seqs s.db := by
  obtain ⟨k, hk, hkey⟩ := h
  exact ⟨k.id, ht, k, hk, rfl, hkey⟩

/-- One attempt: nothing if the key is taken, and at most one move, which leaves it taken
unless it is freed after that. -/
theorem attempt_moves (cfg : Config) (web : Web) {r : HttpRequest} (hkey : r.key = some key)
    (hne : key ≠ "") (plan : List (Option Fault)) {s : Store} (hs : KeyTable s.db.keys s.seqs) :
    let t := (Visit.request r).trial cfg web plan s
    t.moved ≤ 1 ∧ (t.freed = false → t.moved = 0 ∨ Taken key t.conn.store.db.keys) ∧
      (Taken key s.db.keys → t.moved = 0 ∧ Taken key t.conn.store.db.keys) := by
  intro t
  set t₀ : Trial := ⟨⟨s, Session.fresh⟩, plan, 0, false⟩ with ht₀
  set claim := claimKey key (r.requestHash web) with hclaim
  have hhandle : t = (tryOn cfg (claim >>= answerClaim key (r.view cfg web)) t₀).2 := by
    show (tryOn cfg (r.handle cfg web) t₀).2 = _
    unfold HttpRequest.handle
    rw [hkey, idempotent_claims hne]
  have hidle : (tryOn cfg claim t₀).2.moved = 0 :=
    ((harmless_claimKey key (r.requestHash web)).trial cfg (t := t₀) (Session.beside_nil false)).1
  have htable := table_tryOn cfg claim (t := t₀) (Conn.everywhere_fresh hs)
  have htaken : Taken key s.db.keys → Taken key (tryOn cfg claim t₀).2.conn.store.db.keys := by
    intro h
    obtain ⟨id, hheld⟩ := h.held hs
    exact (Held.tryOn cfg (keepsKeys_claimKey _ _) (t := t₀)
      (Conn.everywhere_fresh hheld)).store.taken
  have hclaimed := claimed_tryOn cfg key (r.requestHash web) (t := t₀) rfl
  rw [tryOn, Program.run_bind] at hhandle
  rw [tryOn] at hidle htable htaken
  rw [tryOn, ← hclaim] at hclaimed
  cases hx : Program.run (Trial.exec cfg) claim t₀ with
  | mk o t₁ =>
    rw [hx] at hhandle hidle htable htaken hclaimed
    have hmoved : t₁.moved = 0 := hidle
    have hstill : t₁.moved ≤ 1 ∧
        (t₁.freed = false → t₁.moved = 0 ∨ Taken key t₁.conn.store.db.keys) ∧
        (Taken key s.db.keys → t₁.moved = 0 ∧ Taken key t₁.conn.store.db.keys) :=
      ⟨hmoved.le.trans (Nat.zero_le 1), fun _ => .inl hmoved, fun h => ⟨hmoved, htaken h⟩⟩
    cases o with
    | error e =>
      rw [hhandle]
      exact hstill
    | ok replayed =>
      cases replayed with
      | some response =>
        rw [hhandle]
        exact hstill
      | none =>
        obtain ⟨hfree, hfresh, hnow⟩ := hclaimed rfl
        obtain ⟨id, hheld⟩ := hnow.held htable.store
        have hconn : t₁.conn = ⟨t₁.conn.store, Session.fresh⟩ := congrArg (Conn.mk _) hfresh
        have hclaim₁ : t₁.conn.Everywhere (Held id key) := by
          rw [hconn]
          exact Conn.everywhere_fresh hheld
        have hserved := serveClaimed_tryOn cfg (r.view cfg web) (oneCommit_view web r)
          (keepsKeys_of_offKeys (offKeys_view web r)) hmoved hclaim₁
        rw [hhandle]
        exact ⟨hserved.1, hserved.2, fun hs => absurd hs hfree⟩

/-- A visit without the key keeps the row. -/
theorem Visit.held_trial {visit : Visit} (hother : visit.carries key = false)
    (plan : List (Option Fault)) {s : Store} (h : Held id key s.seqs s.db) :
    (visit.trial cfg web plan s).conn.Everywhere (Held id key) := by
  have hfresh : (⟨s, Session.fresh⟩ : Conn).Everywhere (Held id key) := Conn.everywhere_fresh h
  cases visit with
  | operation op =>
    exact Held.tryOn cfg (keepsKeys_of_offKeys op.offKeys) (t := ⟨_, plan, 0, false⟩) hfresh
  | request r =>
    have hview : (r.view cfg web).All Request.keepsKeys := keepsKeys_of_offKeys (offKeys_view web r)
    show (tryOn cfg (r.handle cfg web) _).2.conn.Everywhere _
    unfold HttpRequest.handle
    cases hr : r.key with
    | none => exact Held.tryOn cfg hview (t := ⟨_, plan, 0, false⟩) hfresh
    | some other =>
      by_cases hempty : other = ""
      · subst hempty
        exact Held.tryOn cfg hview (t := ⟨_, plan, 0, false⟩) hfresh
      have hne : other ≠ key := fun h => by simp [Visit.carries, hr, h] at hother
      have hstore : ∀ (response : Response) (t : Trial), t.conn.Everywhere (Held id key) →
          (tryOn cfg (storeResponse other response) t).2.conn.Everywhere (Held id key) :=
        fun response t ht => Held.tryOn cfg (keepsKeys_storeResponse other response) ht
      let I : Trial → Prop := fun t => t.conn.Everywhere (Held id key)
      rw [idempotent_claims hempty]
      refine Program.run_bind_keeps (Trial.exec cfg) (I := I)
        (Held.tryOn cfg (keepsKeys_claimKey _ _) hfresh) fun replayed t ht => ?_
      cases replayed with
      | some response => exact ht
      | none =>
        refine Program.run_bind_keeps (Trial.exec cfg) (I := I) ?_ fun response t ht => ?_
        · refine Program.run_attempt_keeps (Trial.exec cfg) (I := I) (Held.tryOn cfg hview ht)
            fun e t ht => ?_
          exact Program.run_bind_keeps (Trial.exec cfg) (I := I) (held_releaseKey hne ht)
            fun _ t ht => ht
        · exact Program.run_bind_keeps (Trial.exec cfg) (I := I) (hstore response t ht)
            fun _ t ht => ht

theorem Visit.table_trial (visit : Visit) (plan : List (Option Fault)) {s : Store}
    (hs : KeyTable s.db.keys s.seqs) :
    let t := visit.trial cfg web plan s
    KeyTable t.conn.store.db.keys t.conn.store.seqs := by
  cases visit <;>
    exact (table_tryOn cfg _ (t := ⟨⟨s, Session.fresh⟩, plan, 0, false⟩)
      (Conn.everywhere_fresh hs)).store

/-- Between two visits: the requests with the key have moved nothing, or money once, and the
key is taken. -/
structure Retries.Safe (key : String) (s : Retries) : Prop where
  table : KeyTable s.store.db.keys s.store.seqs
  moved : s.moved = 0 ∨ s.moved ≤ 1 ∧ Taken key s.store.db.keys

/-- A visit by others. -/
theorem Retries.Safe.others {s : Retries} (h : s.Safe key) {a : Attempt}
    (ha : a.visit.carries key = false) : (a.run cfg web key s).Safe key where
  table := a.visit.table_trial a.plan h.table
  moved := by
    have hsame : (a.run cfg web key s).moved = s.moved := by simp [Attempt.run, ha]
    rw [hsame]
    refine h.moved.imp_right fun ⟨hle, htaken⟩ => ⟨hle, ?_⟩
    obtain ⟨id, hheld⟩ := htaken.held h.table
    exact (Visit.held_trial ha a.plan hheld).store.taken

/-- A request with the key that does not free it once it has moved money. -/
theorem Retries.Safe.retry (hne : key ≠ "") {s : Retries} (h : s.Safe key) {a : Attempt}
    (ha : a.visit.carries key = true) (hkeeps : (a.trial cfg web s.store).freed = false) :
    (a.run cfg web key s).Safe key where
  table := a.visit.table_trial a.plan h.table
  moved := by
    have hsum : (a.run cfg web key s).moved = s.moved + (a.trial cfg web s.store).moved := by
      simp [Attempt.run, ha]
    obtain ⟨visit, plan, channels⟩ := a
    cases visit with
    | operation op => cases ha
    | request r =>
      obtain ⟨hle, hunfreed, hidle⟩ := attempt_moves { cfg with channels := channels } web
        (of_decide_eq_true ha) hne plan h.table
      have hle : (Attempt.trial cfg web ⟨.request r, plan, channels⟩ s.store).moved ≤ 1 := hle
      rw [hsum]
      rcases h.moved with hzero | ⟨hone, htaken⟩
      · rw [hzero, Nat.zero_add]
        exact (hunfreed hkeeps).imp_right fun h => ⟨hle, h⟩
      · obtain ⟨hnone, hstill⟩ := hidle htaken
        have hnone : (Attempt.trial cfg web ⟨.request r, plan, channels⟩ s.store).moved = 0 := hnone
        rw [hnone]
        exact .inr ⟨hone, hstill⟩

/-- **Retries.**  However often requests with one key are sent, among any other visits, and
whatever goes wrong with their statements and the channels: if none of them frees its key once
it has moved money, money is moved at most once over all of them. -/
theorem moved_at_most_once (hne : key ≠ "") {s : Retries}
    (h : Run (Attempt.run cfg web key) (Attempt.KeepsClaim cfg web key) ⟨Store.empty, 0⟩ s) :
    s.moved ≤ 1 := by
  have hsafe : s.Safe key := by
    refine Run.invariant (I := Retries.Safe key) ⟨keyTable_nil _, .inl rfl⟩ ?_ h
    intro a s hs hkeeps
    cases ha : a.visit.carries key with
    | false => exact hs.others ha
    | true => exact hs.retry hne ha (hkeeps ha)
  rcases hsafe.moved with h | ⟨h, -⟩
  · exact h.le.trans (Nat.zero_le 1)
  · exact h

/-- Bodies that carry the accounts of Alice and Bob, and 10. -/
def tenBodies : Web :=
  { emptyBodies with
    transferSchema := fun _ => some ⟨"2000000000", "2000000001", 10⟩ }

/-- The transfer of 10 from Alice to Bob, with the key `k`. -/
def payTen : HttpRequest :=
  { endpoint := .executeTransfer
    body := "10"
    key := some "k"
    correlationId := some "c2"
    rates := [] }

/-- A visit with which nothing goes wrong. -/
def calm (visit : Visit) : Attempt := ⟨visit, [], []⟩

/-- The request whose statement number `n` fails. -/
def failingAt (n : ℕ) (r : HttpRequest) : Attempt :=
  ⟨.request r, List.replicate n none ++ [some .fails], []⟩

/-- Alice has 100. -/
def aliceFunded : List Attempt :=
  [calm (.operation (.createAccount "alice" "EUR")), calm (.operation (.createAccount "bob" "EUR")),
    calm (.operation (.initiateDeposit 0 100 "stripe" ⟨none, none⟩ (some "c1"))),
    calm (.operation (.settle "2" none none))]

/-- The attempts, in order. -/
def attemptAll (attempts : List Attempt) : Retries :=
  attempts.foldl (fun s a => a.run (offlineConfig 100) tenBodies "k" s) ⟨Store.empty, 0⟩

instance (cfg : Config) (web : Web) (key : String) (a : Attempt) (s : Retries) :
    Decidable (a.KeepsClaim cfg web key s) :=
  inferInstanceAs (Decidable (_ → _))

/-- A statement fails before the commit; the second attempt pays, and the third finds the key. -/
theorem paid_once :
    let attempts := aliceFunded ++ [failingAt 10 payTen, calm (.request payTen),
      calm (.request payTen)]
    (attemptAll attempts).moved = 1 ∧ (attemptAll attempts).moved ≤ 1 :=
  ⟨by decide +kernel, moved_at_most_once (by decide) (Run.of_along (by decide +kernel))⟩

/-- The first attempt fails when it reloads the transaction it has committed, and frees the
key; the second pays again. -/
theorem paid_twice :
    let first := (failingAt 17 payTen).plan
    let s := attemptAll aliceFunded
    let t := attemptAll (aliceFunded ++ [failingAt 17 payTen, calm (.request payTen)])
    (tryOn (offlineConfig 100) (payTen.handle (offlineConfig 100) tenBodies)
        ⟨⟨s.store, Session.fresh⟩, first, 0, false⟩).1 = .error (.service .operational) ∧
      t.moved = 2 ∧
      (t.store.db.books.transactions.filter fun t =>
        t.type = .transfer ∧ t.status = .success).map Transaction.amount = [10, 10] := by
  decide +kernel

end WalletLedger
