import WalletLedger.Operations.Refinement
import WalletLedger.Operations.Keys

/-!
# Sessions that fail

A session any of whose requests may fail: a statement without effect, a `COMMIT` that has
taken effect although its answer is lost.  A plan says which.

* `Trial` — a session with its plan, the commits that moved money, and whether a key was freed
  after one; `Trial.exec` is its answer to a request.
* `tryOn_invariant`, `everywhere_tryOn` — what every request keeps.
* `OneCommit` — programs that leave the books alone after a commit; every view is one
  (`oneCommit_view`).
* `OneCommit.trial`, `Harmless.trial` — under any plan, the first moves money at most once,
  the second not at all.
-/

namespace WalletLedger

variable {cfg : Config} {α β : Type}

/-! ## Plans -/

/-- What goes wrong with a request. -/
inductive Fault where
  /-- It has no effect. -/
  | fails
  /-- It takes effect, and the answer is lost. -/
  | lost
  deriving DecidableEq

/-- The request can go wrong: it is sent to the database or to the cache. -/
def Request.canFail : Request → Bool
  | .uuid4 => false
  | _ => true

/-- The request is sent to the database. -/
def Request.onDatabase : Request → Bool
  | .uuid4 => false
  | .cacheGet _ => false
  | .cacheSet _ _ => false
  | .cacheDelete _ => false
  | _ => true

/-- After a request to the database has failed, the transaction is lost, and the session
waits for its rollback. -/
def Conn.dropped (c : Conn) (r : Request) : Conn :=
  if r.onDatabase then ⟨c.store, ⟨[], true⟩⟩ else c

@[simp] theorem Conn.store_dropped (c : Conn) (r : Request) : (c.dropped r).store = c.store := by
  unfold Conn.dropped
  split <;> rfl

/-- The writes the request publishes. -/
def Conn.published (c : Conn) (r : Request) : List Write :=
  if r = .commit ∧ c.session.failed = false then c.session.writes else []

/-- The write deletes an idempotency key. -/
def Write.deletesKey : Write → Bool
  | .deleteKey _ => true
  | _ => false

/-- A session and the plan for its next requests. -/
structure Trial where
  conn : Conn
  plan : List (Option Fault)
  /-- The commits that have published writes to the books. -/
  moved : ℕ
  /-- After one of them, another has published the deletion of a key. -/
  freed : Bool

namespace Trial

/-- What becomes of the next request. -/
def fault (t : Trial) (r : Request) : Option Fault := if r.canFail then t.plan.headD none else none

/-- The trial after a request that has published `ws` and left the session in `c`. -/
def next (t : Trial) (r : Request) (c : Conn) (ws : List Write) : Trial where
  conn := c
  plan := if r.canFail then t.plan.tail else t.plan
  moved := if ws.any Write.touchesBooks then t.moved + 1 else t.moved
  freed := t.freed || ws.any Write.deletesKey && decide (0 < t.moved)

/-- The answer to a request, under the plan. -/
def exec (cfg : Config) (r : Request) (t : Trial) : r.Answer × Trial :=
  match t.fault r with
  | none =>
      ((Conn.exec cfg r t.conn).1, t.next r (Conn.exec cfg r t.conn).2 (t.conn.published r))
  | some .fails => (.error .operational, t.next r (t.conn.dropped r) [])
  | some .lost =>
      (.error .operational,
        t.next r ((Conn.exec cfg r t.conn).2.dropped r) (t.conn.published r))

end Trial

/-- A program under a plan. -/
abbrev tryOn (cfg : Config) (p : App α) (t : Trial) : Except Exn α × Trial :=
  Program.run (Trial.exec cfg) p t

/-- What every request keeps, every program keeps. -/
theorem tryOn_invariant {I : Trial → Prop} {P : Request → Prop}
    (hI : ∀ r t, P r → I t → I (Trial.exec cfg r t).2) {p : App α} (hp : p.All P) {t : Trial}
    (h : I t) : I (tryOn cfg p t).2 := by
  induction p generalizing t with
  | ret a => exact h
  | raise e => exact h
  | call r k ih => exact ih _ (hp.2 _) (hI r t hp.1 h)

/-- Where a request may lead: to the session's answer, to nothing, or to its effect alone. -/
theorem Trial.exec_cases (cfg : Config) (r : Request) (t : Trial) :
    Trial.exec cfg r t =
        ((Conn.exec cfg r t.conn).1, t.next r (Conn.exec cfg r t.conn).2 (t.conn.published r)) ∨
      Trial.exec cfg r t = (.error .operational, t.next r (t.conn.dropped r) []) ∨
      Trial.exec cfg r t = (.error .operational,
        t.next r ((Conn.exec cfg r t.conn).2.dropped r) (t.conn.published r)) := by
  unfold Trial.exec
  split
  · exact .inl rfl
  · exact .inr (.inl rfl)
  · exact .inr (.inr rfl)

/-- A request that goes through is answered by the session. -/
theorem Trial.exec_ok (cfg : Config) {r : Request} {t : Trial} {v : r.Result}
    (h : (Trial.exec cfg r t).1 = .ok v) :
    (Conn.exec cfg r t.conn).1 = .ok v ∧
      (Trial.exec cfg r t).2.conn = (Conn.exec cfg r t.conn).2 := by
  rcases Trial.exec_cases cfg r t with hx | hx | hx <;> rw [hx] at h ⊢
  · exact ⟨h, rfl⟩
  · cases h
  · cases h

/-- What a session keeps, a trial keeps. -/
theorem Trial.exec_conn {I : Conn → Prop} {r : Request} {t : Trial}
    (hexec : I (Conn.exec cfg r t.conn).2) (hdropped : ∀ c, I c → I (c.dropped r)) (h : I t.conn) :
    I (Trial.exec cfg r t).2.conn := by
  rcases Trial.exec_cases cfg r t with hx | hx | hx <;> rw [hx]
  · exact hexec
  · exact hdropped _ h
  · exact hdropped _ hexec

theorem Conn.Everywhere.dropped {I : Sequences → Database → Prop} {c : Conn}
    (h : c.Everywhere I) (r : Request) : (c.dropped r).Everywhere I := by
  unfold Conn.dropped
  split
  · exact ⟨h.store, h.store⟩
  · exact h

/-- What the statements keep of the tables, the program keeps. -/
theorem everywhere_tryOn {I : Sequences → Database → Prop} {P : Request → Prop}
    (hmono : ∀ {s t db}, s.LE t → I s db → I t db)
    (hI : ∀ (m : Mutation) (s : Sequences) (db : Database) (v : m.Result) (w : Write),
      P (.mutate m) → I s db → m.exec cfg s db = .ok (v, w) → I (m.advance s) (w.apply db))
    {p : App α} (hp : p.All P) {t : Trial} (h : t.conn.Everywhere I) :
    (tryOn cfg p t).2.conn.Everywhere I :=
  tryOn_invariant (I := fun t => t.conn.Everywhere I) (fun r t hr h => by
    refine Trial.exec_conn (I := fun c => c.Everywhere I) ?_ (fun c hc => hc.dropped r) h
    exact h.exec cfg r hmono fun m s db v w hm hs hexec => hI m s db v w (hm ▸ hr) hs hexec) hp h

theorem Session.Beside.dropped {c : Conn} (h : c.session.Beside) (r : Request) :
    (c.dropped r).session.Beside := by
  unfold Conn.dropped
  split
  · exact Session.beside_nil true
  · exact h

theorem Session.Beside.published {c : Conn} (h : c.session.Beside) (r : Request) :
    (c.published r).any Write.touchesBooks = false := by
  unfold Conn.published
  split
  · exact List.any_eq_false.2 fun w hw => by simp [h w hw]
  · rfl

/-- A harmless program moves nothing. -/
theorem Harmless.trial (cfg : Config) {p : App α} (hp : Harmless p) {t : Trial}
    (ht : t.conn.session.Beside) :
    (tryOn cfg p t).2.moved = t.moved ∧ (tryOn cfg p t).2.conn.session.Beside := by
  refine tryOn_invariant (I := fun t' => t'.moved = t.moved ∧ t'.conn.session.Beside)
    (fun r t' hr h => ?_) hp ⟨rfl, ht⟩
  refine ⟨?_, Trial.exec_conn (I := fun c => c.session.Beside) (h.2.exec cfg hr).1
    (fun c hc => hc.dropped r) h.2⟩
  rcases Trial.exec_cases cfg r t' with hx | hx | hx <;> rw [hx] <;>
    simp [Trial.next, h.2.published, h.1]

/-! ## Programs with one commit -/

/-- After a commit the program leaves the books alone. -/
def OneCommit : App α → Prop
  | .ret _ => True
  | .raise _ => True
  | .call r k => (r = .commit → ∀ v, Harmless (k v)) ∧ ∀ v, OneCommit (k v)

theorem Harmless.oneCommit {p : App α} (hp : Harmless p) : OneCommit p := by
  induction p with
  | ret a => trivial
  | raise e => trivial
  | call r k ih => exact ⟨fun _ => hp.2, fun v => ih v (hp.2 v)⟩

/-- Statements before the commit. -/
theorem OneCommit.before {p : App α} {f : α → App β} (hp : p.All fun r => r ≠ .commit)
    (hf : ∀ a, OneCommit (f a)) : OneCommit (p >>= f) := by
  induction p with
  | ret a => exact hf a
  | raise e => trivial
  | call r k ih => exact ⟨fun hr => absurd hr hp.1, fun v => ih v (hp.2 v)⟩

/-- The commit, and what the code does after it. -/
theorem OneCommit.commit {f : Unit → App β} (hf : Harmless (f ())) :
    OneCommit (ask .commit >>= f) :=
  ⟨fun _ => hf.answered, fun v => (hf.answered v).oneCommit⟩

/-- Statements after it. -/
theorem OneCommit.then {p : App α} {f : α → App β} (hp : OneCommit p)
    (hf : ∀ a, Harmless (f a)) : OneCommit (p >>= f) := by
  induction p with
  | ret a => exact (hf a).oneCommit
  | raise e => trivial
  | call r k ih => exact ⟨fun hr v => (hp.1 hr v).bind hf, fun v => ih v (hp.2 v)⟩

/-- After a commit that moves money, the session has nothing left to move. -/
theorem Conn.commit_of_published (cfg : Config) {c : Conn} {r : Request}
    (h : (c.published r).any Write.touchesBooks = true) :
    r = .commit ∧ (Conn.exec cfg r c).2.session.Beside := by
  unfold Conn.published at h
  split at h
  · rename_i hr
    obtain ⟨rfl, halive⟩ := hr
    rw [Conn.exec_commit, halive]
    exact ⟨rfl, Session.beside_nil false⟩
  · cases h

/-- Whatever goes wrong, such a program moves money at most once, and leaves the books alone
then. -/
theorem OneCommit.trial (cfg : Config) {p : App α} (hp : OneCommit p) (t : Trial) :
    (tryOn cfg p t).2.moved = t.moved ∨
      (tryOn cfg p t).2.moved = t.moved + 1 ∧ (tryOn cfg p t).2.conn.session.Beside := by
  induction p generalizing t with
  | ret a => exact .inl rfl
  | raise e => exact .inl rfl
  | call r k ih =>
    -- the request moves nothing, or nothing is left to move
    have hstep : (Trial.exec cfg r t).2.moved = t.moved ∨
        r = .commit ∧ (Trial.exec cfg r t).2.moved = t.moved + 1 ∧
          (Trial.exec cfg r t).2.conn.session.Beside := by
      cases hm : (t.conn.published r).any Write.touchesBooks with
      | false =>
        left
        rcases Trial.exec_cases cfg r t with hx | hx | hx <;> rw [hx] <;> simp [Trial.next, hm]
      | true =>
        obtain ⟨hcommit, hbeside⟩ := Conn.commit_of_published cfg hm
        rcases Trial.exec_cases cfg r t with hx | hx | hx <;> rw [hx]
        · exact .inr ⟨hcommit, by simp [Trial.next, hm], hbeside⟩
        · exact .inl rfl
        · exact .inr ⟨hcommit, by simp [Trial.next, hm], hbeside.dropped r⟩
    rcases hstep with hmoved | ⟨hcommit, hmoved, hbeside⟩
    · have hrest := ih _ (hp.2 (Trial.exec cfg r t).1) (Trial.exec cfg r t).2
      rwa [hmoved] at hrest
    · right
      have hrest := (hp.1 hcommit (Trial.exec cfg r t).1).trial cfg hbeside
      exact ⟨hrest.1.trans hmoved, hrest.2⟩

/-! ## The views -/

theorem Bookkeeping.noCommit : Bookkeeping fun r : Request => r ≠ .commit :=
  ⟨fun _ => by simp, fun _ _ => by simp, by simp⟩

section views

variable {senderId receiverId transactionId : Id} {amount : Decimal} {correlationId : Option String}

theorem oneCommit_execute :
    OneCommit (TransferService.execute cfg senderId receiverId amount correlationId) := by
  have h := Bookkeeping.noCommit
  refine .before (h.lock _) fun _ => .before (h.get _) fun _ => ?_
  refine .before (Bookkeeping.validate _ _ _) fun _ => .before (h.ensureFunds _ _) fun _ => ?_
  refine .before (h.correlationIdOr _) fun _ => .before (all_ask (h.mutate _ rfl)) fun _ => ?_
  refine .before (h.post _ _) fun _ => .before (h.maybeSnapshot _) fun _ => ?_
  exact .before (h.maybeSnapshot _) fun _ => .commit (harmless_transferPublish _ _ _ _ _)

theorem oneCommit_initiate :
    OneCommit (TransferService.initiate cfg senderId receiverId amount correlationId) := by
  have h := Bookkeeping.noCommit
  refine .before (h.lock _) fun _ => .before (h.get _) fun _ => ?_
  refine .before (Bookkeeping.validate _ _ _) fun _ => .before (h.ensureFunds _ _) fun _ => ?_
  refine .before (h.correlationIdOr _) fun _ => .before (all_ask (h.mutate _ rfl)) fun _ => ?_
  exact .before (all_ask (h.mutate _ rfl)) fun _ => .commit (harmless_transferPublish _ _ _ _ _)

theorem oneCommit_commit : OneCommit (TransferService.commit cfg transactionId) := by
  have h := Bookkeeping.noCommit
  refine .before (h.pendingTransaction _) fun _ => .before (Program.all_ofExcept _) fun _ => ?_
  refine .before (all_raiseIf _ _) fun _ => .before (all_ask (h.select _)) fun _ => ?_
  refine .before (all_ofOption _ _) fun _ => .before (h.lock _) fun _ => ?_
  refine .before (Program.all_ofExcept _) fun _ => .before (h.get _) fun _ => ?_
  refine .before (all_ask (h.mutate _ rfl)) fun _ => .before (all_ask (h.mutate _ rfl)) fun _ => ?_
  refine .before (Program.all_ofExcept _) fun _ => .before (all_ask (h.mutate _ rfl)) fun _ => ?_
  refine .before (h.maybeSnapshot _) fun _ => .before (h.maybeSnapshot _) fun _ => ?_
  exact .commit (harmless_transferPublish _ _ _ _ _)

theorem oneCommit_fail : OneCommit (TransferService.fail cfg transactionId) := by
  have h := Bookkeeping.noCommit
  refine .before (h.pendingTransaction _) fun _ => .before (all_ask (h.select _)) fun _ => ?_
  refine .before (Program.All.forEach fun _ _ => all_ask (h.mutate _ rfl)) fun _ => ?_
  refine .before (all_ask (h.mutate _ rfl)) fun _ => .commit ?_
  exact (harmless_reloadTransaction _).bind fun _ => (harmless_publish _).bind fun _ => trivial

theorem oneCommit_reverse :
    OneCommit (ReversalService.reverse cfg transactionId correlationId) := by
  have h := Bookkeeping.noCommit
  refine .before (all_ask (h.select _)) fun _ => .before (all_ofOption _ _) fun _ => ?_
  refine .before (all_raiseIf _ _) fun _ => .before (all_raiseIf _ _) fun _ => ?_
  refine .before (all_ask (h.select _)) fun _ => ?_
  refine .before (Program.All.forEach fun _ _ => (h.lock _).bind fun _ => trivial) fun _ => ?_
  refine .before (h.correlationIdOr _) fun _ => .before (all_ask (h.mutate _ rfl)) fun _ => ?_
  refine .before (Program.all_ofExcept _) fun _ => .before (h.post _ _) fun _ => ?_
  refine .before (all_ask (h.mutate _ rfl)) fun _ => ?_
  refine .before (Program.All.forEach fun _ _ => (h.get _).bind fun _ => h.maybeSnapshot _)
    fun _ => .commit trivial

theorem oneCommit_initiateDeposit {accountId : Id} {provider : String} {context : DepositContext} :
    OneCommit (DepositService.initiate cfg accountId amount provider context correlationId) := by
  have h := Bookkeeping.noCommit
  refine .before (h.get _) fun _ => .before (Program.all_ofExcept _) fun _ => ?_
  refine .before (all_raiseIf _ _) fun _ => .before (h.correlationIdOr _) fun _ => ?_
  refine .before (all_ask (h.mutate _ rfl)) fun _ => .before (Program.all_ofExcept _) fun _ => ?_
  exact .before (Program.all_ofExcept _) fun _ => .before (all_ask (h.mutate _ rfl)) fun _ =>
    .commit trivial

theorem oneCommit_executeFxTransfer {rates : RateTable} :
    OneCommit (FxService.executeFxTransfer cfg rates senderId receiverId amount correlationId) := by
  have h := Bookkeeping.noCommit
  refine .before (h.lock _) fun _ => .before (h.get _) fun _ => ?_
  refine .before (all_raiseIf _ _) fun _ => ?_
  refine .before (Program.all_ofExcept _) fun _ => .before (all_raiseIf _ _) fun _ => ?_
  refine .before (h.availableBalance _) fun _ => .before (Program.all_ofExcept _) fun _ => ?_
  refine .before (Program.all_ofExcept _) fun _ => .before (h.getOrCreateInternal _ _) fun _ => ?_
  refine .before (h.getOrCreateInternal _ _) fun _ => .before (h.correlationIdOr _) fun _ => ?_
  refine .before (all_ask (h.mutate _ rfl)) fun _ => .before (h.post _ _) fun _ => ?_
  refine .before (Program.All.forEach fun _ _ => h.maybeSnapshot _) fun _ => .commit ?_
  exact (harmless_reloadTransaction _).bind fun _ => (harmless_reloadAccount _).bind fun _ =>
    (harmless_reloadAccount _).bind fun _ => (harmless_publish _).bind fun _ => trivial

/-- A view has one commit that can move money. -/
theorem oneCommit_view (web : Web) (r : HttpRequest) : OneCommit (r.view cfg web) := by
  have h := Bookkeeping.noCommit
  have hserialized : ∀ (status : ℕ) (txn : Transaction), Harmless
      (serializeExpired txn >>= fun body => (.ret ⟨status, body⟩ : App Response)) := fun _ _ =>
    Harmless.bind ((harmless_reloadTransaction _).bind fun _ => trivial) fun _ => trivial
  unfold HttpRequest.view
  cases r.endpoint with
  | executeTransfer =>
    exact .before (all_ofOption _ _) fun _ => .before (h.resolvePair _) fun _ =>
      oneCommit_execute.then (hserialized 201)
  | initiateTransfer =>
    exact .before (all_ofOption _ _) fun _ => .before (h.resolvePair _) fun _ =>
      oneCommit_initiate.then fun _ => trivial
  | commitTransfer transactionId => exact oneCommit_commit.then (hserialized 200)
  | failTransfer transactionId => exact oneCommit_fail.then fun _ => trivial
  | reverseTransaction transactionId => exact oneCommit_reverse.then (hserialized 201)
  | createDeposit =>
    exact .before (all_ofOption _ _) fun _ => .before (h.getByNumber _) fun _ =>
      oneCommit_initiateDeposit.then (hserialized 201)
  | fxTransfer =>
    exact .before (all_ofOption _ _) fun _ => .before (h.getByNumber _) fun _ =>
      .before (h.getByNumber _) fun _ => oneCommit_executeFxTransfer.then (hserialized 201)

end views

end WalletLedger
