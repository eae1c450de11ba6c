import WalletLedger.Api.Application
import WalletLedger.Operations.Refinement
import WalletLedger.Sequential.Retries
import WalletLedger.Lib.Crash

/-!
# What a request does to the books

A view resolves account numbers, runs one operation and writes its result down.  It takes the
books to where the operation takes them, or leaves them as they are.

* `Commits.then`, `CommitsFirst.then` — what the code goes on with after an operation.
* `Commits.run_idle` — when it has returned, nothing of the session is left to commit.
* `Commits.throughout` — on its way, a program leaves the committed books alone, or has taken
  them to where its commit takes them.
* `view_commits`, `view_commitsFirst` — the decorated views, by `HttpRequest.operation`.
* `idempotent_throughout`, `handle_throughout` — behind the decorator, wherever it is killed.
-/

namespace WalletLedger

variable {cfg : Config} {α β : Type} {b b' : Books} {P : Books → Prop} {c : Conn}

/-! ## After the operation -/

theorem Commits.then {p : App α} {f : α → App β} (hp : Commits cfg P p b)
    (hf : ∀ a, Harmless (f a)) (hq : ∀ a, Quiet (f a)) : Commits cfg P (p >>= f) b := by
  have hquiet : ∀ (q : App β) (b : Books), Quiet q → Commits cfg P q b := by
    intro q b hq
    rw [← Program.bind_ret q]
    exact .bind hq fun _ _ _ => trivial
  have harmless : ∀ {q : App α}, Harmless q → Harmless (q >>= f) := fun h => h.bind hf
  induction p generalizing b with
  | ret a => exact hquiet _ _ (hq a)
  | raise e => trivial
  | call r k ih =>
    obtain ⟨hcommit, hrollback, herror, hok⟩ := hp
    refine ⟨fun hr => ?_, fun hr v => harmless (hrollback hr v), fun e => harmless (herror e), ?_⟩
    · obtain ⟨hP, hk⟩ := hcommit hr
      exact ⟨hP, fun v => harmless (hk v)⟩
    · exact fun v b' hv => ih _ (hok v b' hv)

theorem Raises.then {p : App α} {f : α → App β} (hp : Raises p) : Raises (p >>= f) := by
  induction p with
  | ret a => exact hp.elim
  | raise e => trivial
  | call r k ih => exact fun v => ih v (hp v)

theorem CommitsFirst.then {p : App α} {f : α → App β} (hp : CommitsFirst p) :
    CommitsFirst (p >>= f) := by
  induction p with
  | ret a => exact hp.elim
  | raise e => trivial
  | call r k ih =>
    intro hr
    obtain ⟨hrollback, herror, hok⟩ := hp hr
    exact ⟨fun hr' v => (hrollback hr' v).then, fun e => (herror e).then, fun v => ih _ (hok v)⟩

/-- A harmless program writes nothing to the books. -/
theorem Harmless.beside (cfg : Config) {p : App α} (hp : Harmless p) (hc : c.session.Beside) :
    (runOn cfg p c).2.session.Beside := by
  induction p generalizing c with
  | ret a => exact hc
  | raise e => exact hc
  | call r k ih => exact ih _ (hp.2 _) (hc.exec cfg hp.1).1

/-- An operation that has returned has nothing left to write to the books. -/
theorem Commits.run_idle {p : App α} (h : Commits cfg P p c.view.books) (hp : CommitsFirst p)
    (hc : c.session.failed = false) (hok : (runOn cfg p c).1.isOk = true) :
    (runOn cfg p c).2.session.Beside := by
  induction p generalizing c with
  | ret a => exact hp.elim
  | raise e => cases hok
  | call r k ih =>
    obtain ⟨hcommit, -, -, hstep⟩ := h
    have hok : (runOn cfg (k (Conn.exec cfg r c).1) (Conn.exec cfg r c).2).1.isOk = true := hok
    show (runOn cfg (k (Conn.exec cfg r c).1) (Conn.exec cfg r c).2).2.session.Beside
    by_cases hr : r = .commit
    · subst hr
      rw [Conn.exec_commit, hc]
      exact ((hcommit rfl).2 (.ok ())).beside cfg (c := c.committed) (Session.beside_nil false)
    obtain ⟨hrollback, herror, hnext⟩ := hp hr
    by_cases hr' : r = .rollback
    · rw [(hrollback hr' _).run] at hok
      cases hok
    cases hx : Conn.exec cfg r c with
    | mk v c' =>
      rw [hx] at hok
      cases v with
      | error e =>
        rw [(herror e).run] at hok
        cases hok
      | ok v =>
        obtain ⟨hans, -, hsession⟩ := answers_of_exec hx ⟨hr, hr'⟩
        have hc' : c'.session.failed = false := by
          rcases hsession with hs | hs
          · rw [hs, hc]
          · exact hs
        exact ih _ (hstep v _ hans) (hnext v) hc' hok

/-! ## On the way -/

/-- What the statements of a program keep, the program keeps on its way. -/
theorem Conn.Everywhere.throughout {I : Sequences → Database → Prop} {Q : Request → Prop}
    (hmono : ∀ {s t db}, s.LE t → I s db → I t db)
    (hI : ∀ (m : Mutation) (s : Sequences) (db : Database) (v : m.Result) (w : Write),
      Q (.mutate m) → I s db → m.exec cfg s db = .ok (v, w) → I (m.advance s) (w.apply db))
    {p : App α} (hp : p.All Q) (h : c.Everywhere I) :
    p.Throughout (Conn.exec cfg) (fun d => d.Everywhere I) c :=
  Program.Throughout.of_all (fun r _ hr hd => hd.exec cfg r hmono fun m s db v w hm hs hx =>
    hI m s db v w (hm ▸ hr) hs hx) hp h

/-- On its way, a harmless program leaves the committed books alone. -/
theorem Harmless.throughout (cfg : Config) {p : App α} (hp : Harmless p)
    (hc : c.session.Beside) :
    p.Throughout (Conn.exec cfg) (fun d => d.store.db.books = c.store.db.books) c := by
  have h : p.Throughout (Conn.exec cfg)
      (fun d => d.session.Beside ∧ d.store.db.books = c.store.db.books) c :=
    Program.Throughout.of_all (fun r d hr hd =>
      ⟨(hd.1.exec cfg hr).1, (hd.1.exec cfg hr).2.trans hd.2⟩) hp ⟨hc, rfl⟩
  exact h.mono fun _ hd => hd.2

/-- On its way, an operation leaves the committed books alone, or has taken them to where its
commit takes them. -/
theorem Commits.throughout {p : App α} (h : Commits cfg P p c.view.books)
    (hc : c.session.failed = false) :
    p.Throughout (Conn.exec cfg)
      (fun d => d.store.db.books = c.store.db.books ∨ P d.store.db.books) c := by
  induction p generalizing c with
  | ret a => exact .inl rfl
  | raise e => exact .inl rfl
  | call r k ih =>
    obtain ⟨hcommit, hrollback, herror, hok⟩ := h
    refine ⟨.inl rfl, ?_⟩
    by_cases hr : r = .commit
    · subst hr
      obtain ⟨hP, hk⟩ := hcommit rfl
      rw [Conn.exec_commit, hc]
      have hlater := (hk (.ok ())).throughout cfg (c := c.committed) (Session.beside_nil false)
      refine hlater.mono fun d hd => ?_
      have hbooks : d.store.db.books = c.view.books := hd
      exact .inr (hbooks.symm ▸ hP)
    by_cases hr' : r = .rollback
    · subst hr'
      have hlater := (hrollback rfl (.ok ())).throughout cfg (c := ⟨c.store, Session.fresh⟩)
        (Session.beside_nil false)
      exact hlater.mono fun d hd => .inl hd
    cases hx : Conn.exec cfg r c with
    | mk v c' =>
      cases v with
      | error e =>
        obtain ⟨hdb, hsession⟩ := Conn.exec_error hx hc
        have hbeside : c'.session.Beside := hsession ▸ Session.beside_nil true
        exact ((herror e).throughout cfg hbeside).mono fun d hd => .inl (hd.trans (by rw [hdb]))
      | ok v =>
        obtain ⟨hans, hdb, hsession⟩ := answers_of_exec hx ⟨hr, hr'⟩
        have hc' : c'.session.failed = false := by
          rcases hsession with hs | hs
          · rw [hs, hc]
          · exact hs
        refine (ih _ (hok v _ hans) hc').mono fun d hd => ?_
        rwa [hdb] at hd

/-! ## The views -/

theorem quiet_getByNumber (number : String) : Quiet (AccountService.getByNumber number) :=
  (quiet_select _).bind fun _ => quiet_ofOption _ _

/-- The account that is found has the number. -/
theorem numbered_of_returns {number : String} {a : Account}
    (h : Returns cfg (AccountService.getByNumber number) b a b') :
    b' = b ∧ b.numbered number = some a := by
  obtain ⟨found, b₁, h₁, h₂⟩ := returns_bind h
  obtain ⟨rfl, keys, trail, rfl⟩ := returns_select h₁
  obtain ⟨rfl, hsome⟩ := returns_ofOption h₂
  exact ⟨rfl, hsome⟩

theorem quiet_resolvePair (data : TransferBody) : Quiet (resolvePair data) :=
  (quiet_getByNumber _).bind fun _ => (quiet_getByNumber _).bind fun _ => quiet_pure _

theorem resolvePair_ok {data : TransferBody} {ids : Id × Id}
    (h : Returns cfg (resolvePair data) b ids b') :
    b' = b ∧ ∃ sender receiver, b.numbered data.senderAccountNumber = some sender ∧
      b.numbered data.receiverAccountNumber = some receiver ∧ ids = (sender.id, receiver.id) := by
  obtain ⟨sender, b₁, h₁, h₂⟩ := returns_bind h
  obtain ⟨rfl, hs⟩ := numbered_of_returns h₁
  obtain ⟨receiver, b₂, h₃, h₄⟩ := returns_bind h₂
  obtain ⟨rfl, hr⟩ := numbered_of_returns h₃
  obtain ⟨rfl, rfl⟩ := returns_ret h₄
  exact ⟨rfl, sender, receiver, hs, hr, rfl⟩

section responses

variable {status : ℕ}

theorem quiet_serializeExpired (txn : Transaction) :
    Quiet (serializeExpired txn >>= fun body => (.ret ⟨status, body⟩ : App Response)) :=
  Quiet.bind (((quiet_select _).bind fun _ => quiet_ofOption _ _).bind fun _ => quiet_pure _)
    fun _ => trivial

theorem harmless_serializeExpired (txn : Transaction) :
    Harmless (serializeExpired txn >>= fun body => (.ret ⟨status, body⟩ : App Response)) :=
  Harmless.bind ((harmless_reloadTransaction _).bind fun _ => trivial) fun _ => trivial

/-- A response that selects the expired transaction again. -/
theorem Commits.serialized {p : App Transaction} (hp : Commits cfg P p b) :
    Commits cfg P (p >>= fun txn => serializeExpired txn >>= fun body =>
      (.ret ⟨status, body⟩ : App Response)) b :=
  hp.then harmless_serializeExpired quiet_serializeExpired

/-- A response that is made of the transaction as it is. -/
theorem Commits.returned {p : App Transaction} (hp : Commits cfg P p b) :
    Commits cfg P (p >>= fun txn => (.ret ⟨status, serializeTransaction txn⟩ : App Response)) b :=
  hp.then (fun _ => trivial) fun _ => trivial

end responses

/-- What the operation that a request asks for does to the books. -/
def HttpRequest.Effect (cfg : Config) (web : Web) (r : HttpRequest) (b b' : Books) : Prop :=
  ∃ op ∈ r.operation web b, WalletLedger.Effect cfg b op b'

theorem Commits.mono {Q : Books → Prop} {p : App α} (h : Commits cfg P p b)
    (hPQ : ∀ b', P b' → Q b') : Commits cfg Q p b := by
  induction p generalizing b with
  | ret a => trivial
  | raise e => trivial
  | call r k ih =>
    obtain ⟨hcommit, hrollback, herror, hok⟩ := h
    exact ⟨fun hr => ⟨hPQ b (hcommit hr).1, (hcommit hr).2⟩, hrollback, herror,
      fun v b' hv => ih _ (hok v b' hv)⟩

/-- A view commits what the operation that is asked for does to the books. -/
theorem view_commits {s : Sequences} (web : Web) (r : HttpRequest) (hb : b.Keyed s) :
    Commits cfg (r.Effect cfg web b) (r.view cfg web) b := by
  have heffect : ∀ {op : Operation}, r.operation web b = some op → ∀ b',
      WalletLedger.Effect cfg b op b' → r.Effect cfg web b b' := fun hop _ he => ⟨_, hop, he⟩
  unfold HttpRequest.view
  unfold HttpRequest.operation at heffect
  cases hendpoint : r.endpoint <;> simp only [hendpoint] at heffect
  case executeTransfer =>
    refine .bind (quiet_ofOption _ _) fun data b₁ h₁ => ?_
    obtain ⟨rfl, hdata⟩ := returns_ofOption h₁
    refine .bind (quiet_resolvePair _) fun ids b₂ h₂ => ?_
    obtain ⟨rfl, sender, receiver, hs, hr, rfl⟩ := resolvePair_ok h₂
    exact execute_effect.serialized.mono (heffect (by simp [hdata, hs, hr]))
  case initiateTransfer =>
    refine .bind (quiet_ofOption _ _) fun data b₁ h₁ => ?_
    obtain ⟨rfl, hdata⟩ := returns_ofOption h₁
    refine .bind (quiet_resolvePair _) fun ids b₂ h₂ => ?_
    obtain ⟨rfl, sender, receiver, hs, hr, rfl⟩ := resolvePair_ok h₂
    exact initiate_effect.returned.mono (heffect (by simp [hdata, hs, hr]))
  case commitTransfer transactionId => exact commit_effect.serialized.mono (heffect rfl)
  case failTransfer transactionId =>
    exact fail_effect.returned.mono (heffect rfl)
  case reverseTransaction transactionId =>
    exact (reverse_effect hb.transactionAmounts).serialized.mono (heffect rfl)
  case createDeposit =>
    refine .bind (quiet_ofOption _ _) fun data b₁ h₁ => ?_
    obtain ⟨rfl, hdata⟩ := returns_ofOption h₁
    refine .bind (quiet_getByNumber _) fun account b₂ h₂ => ?_
    obtain ⟨rfl, ha⟩ := numbered_of_returns h₂
    exact initiateDeposit_effect.serialized.mono (heffect (by simp [hdata, ha]))
  case fxTransfer =>
    refine .bind (quiet_ofOption _ _) fun data b₁ h₁ => ?_
    obtain ⟨rfl, hdata⟩ := returns_ofOption h₁
    refine .bind (quiet_getByNumber _) fun sender b₂ h₂ => ?_
    obtain ⟨rfl, hs⟩ := numbered_of_returns h₂
    refine .bind (quiet_getByNumber _) fun receiver b₃ h₃ => ?_
    obtain ⟨rfl, hr⟩ := numbered_of_returns h₃
    exact executeFxTransfer_effect.serialized.mono (heffect (by simp [hdata, hs, hr]))

/-- Dropping the result does not make a program commit first. -/
theorem CommitsFirst.of_map {p : App α} {g : α → β} (h : CommitsFirst (g <$> p)) :
    CommitsFirst p := by
  have hraises : ∀ q : App α, Raises (g <$> q) → Raises q := by
    intro q hq
    induction q with
    | ret a => exact hq.elim
    | raise e => trivial
    | call r k ih => exact fun v => ih v (hq v)
  induction p with
  | ret a => exact h.elim
  | raise e => trivial
  | call r k ih =>
    intro hr
    obtain ⟨hrollback, herror, hok⟩ := h hr
    exact ⟨fun hr' v => hraises _ (hrollback hr' v), fun e => hraises _ (herror e),
      fun v => ih _ (hok v)⟩

/-- A view returns only after its commit. -/
theorem view_commitsFirst (cfg : Config) (web : Web) (r : HttpRequest) :
    CommitsFirst (r.view cfg web) := by
  have h : ∀ op : Operation, CommitsFirst (op.program cfg) := Operation.commitsFirst cfg
  unfold HttpRequest.view
  cases r.endpoint with
  | executeTransfer =>
    exact .bind (quiet_ofOption _ _) fun data => .bind (quiet_resolvePair _) fun ids =>
      (h (.execute ids.1 ids.2 data.amount r.correlationId)).of_map.then
  | initiateTransfer =>
    exact .bind (quiet_ofOption _ _) fun data => .bind (quiet_resolvePair _) fun ids =>
      (h (.initiate ids.1 ids.2 data.amount r.correlationId)).of_map.then
  | commitTransfer transactionId => exact (h (.commit transactionId)).of_map.then
  | failTransfer transactionId => exact (h (.fail transactionId)).of_map.then
  | reverseTransaction transactionId =>
    exact (h (.reverse transactionId r.correlationId)).of_map.then
  | createDeposit =>
    exact .bind (quiet_ofOption _ _) fun data => .bind (quiet_getByNumber _) fun account =>
      (h (.initiateDeposit account.id data.amount data.provider data.context
        r.correlationId)).of_map.then
  | fxTransfer =>
    exact .bind (quiet_ofOption _ _) fun data => .bind (quiet_getByNumber _) fun sender =>
      .bind (quiet_getByNumber _) fun receiver =>
        (h (.executeFxTransfer r.rates sender.id receiver.id data.amount
          r.correlationId)).of_map.then

/-! ## The decorator -/

section decorator

variable {key requestHash : String} {view : App Response} {s : Store}

/-- The decorator starts the view on a fresh session, its claim committed. -/
theorem run_claimKey_ours {d : Conn}
    (h : runOn cfg (claimKey key requestHash) ⟨s, Session.fresh⟩ = (.ok none, d)) :
    d = ⟨s.claimed key requestHash, Session.fresh⟩ := by
  by_cases hfits : fitsIn 255 key = true ∧ fitsIn 64 requestHash = true
  · cases hfound : s.db.keys.find? fun k => decide (k.key = key) with
    | none =>
      rw [run_claimKey_free hfits hfound] at h
      exact (congrArg Prod.snd h).symm
    | some k =>
      rw [run_claimKey_taken hfits hfound] at h
      cases congrArg Prod.fst h
  · rw [run_claimKey_wide hfits] at h
    cases congrArg Prod.fst h

/-- A handler that raises again returns nothing. -/
theorem run_attempt_raises {p : App α} {h : Exn → App α} (hh : ∀ e, Raises (h e)) {a : α}
    {d : Conn} (hrun : runOn cfg (p.attempt h) c = (.ok a, d)) : runOn cfg p c = (.ok a, d) := by
  rw [runOn, Program.run_attempt] at hrun
  cases hp : Program.run (Conn.exec cfg) p c with
  | mk o t =>
    rw [hp] at hrun
    cases o with
    | ok x =>
      rw [runOn, hp]
      exact hrun
    | error e =>
      have hraised : (runOn cfg (h e) t).1.isOk = false := (hh e).run
      rw [runOn, show Program.run (Conn.exec cfg) (h e) t = (.ok a, d) from hrun] at hraised
      cases hraised

theorem raises_release (key : String) (e : Exn) :
    Raises (releaseKey key >>= fun _ => (.raise e : App Response)) := by
  have h : ∀ q : App Unit, Raises (q >>= fun _ => (.raise e : App Response)) := by
    intro q
    induction q with
    | ret a => trivial
    | raise e => trivial
    | call r k ih => exact ih
  exact h _

/-- Freeing the key drops what the view has not committed. -/
theorem releaseKey_throughout (cfg : Config) (key : String) (c : Conn) :
    (releaseKey key).Throughout (Conn.exec cfg) (fun d => d.store.db.books = c.store.db.books)
      c := by
  have hrest : Harmless (ask (.select (.idempotencyKey key)) >>= deleteClaim) :=
    (harmless_ask rfl).bind fun _ => deleteClaim_requests (fun _ _ => rfl) rfl
  rw [releaseKey_eq]
  have hrollback : (ask .rollback).Throughout (Conn.exec cfg)
      (fun d => d.store.db.books = c.store.db.books) c := ⟨rfl, rfl⟩
  refine hrollback.bind fun _ d hrun _ => ?_
  obtain rfl : d = ⟨c.store, Session.fresh⟩ := (congrArg Prod.snd hrun).symm
  exact hrest.throughout cfg (Session.beside_nil false)

/-- With a key or without, a request leaves the committed books alone on its way, or has taken
them to where its view takes them. -/
theorem idempotent_throughout (hview : Commits cfg P view s.db.books) (hfirst : CommitsFirst view)
    (key : Option String) (requestHash : String) :
    (idempotent key requestHash view).Throughout (Conn.exec cfg)
      (fun d => d.store.db.books = s.db.books ∨ P d.store.db.books) ⟨s, Session.fresh⟩ := by
  have alone : view.Throughout (Conn.exec cfg)
      (fun d => d.store.db.books = s.db.books ∨ P d.store.db.books) ⟨s, Session.fresh⟩ :=
    hview.throughout (c := ⟨s, Session.fresh⟩) rfl
  cases key with
  | none => exact alone
  | some key =>
    by_cases hkey : key = ""
    · unfold idempotent
      dsimp only
      rw [if_pos hkey]
      exact alone
    rw [idempotent_claims hkey]
    have hclaim := (harmless_claimKey key requestHash).throughout cfg (c := ⟨s, Session.fresh⟩)
      (Session.beside_nil false)
    refine (hclaim.mono fun _ => .inl).bind fun replayed t hrun ht => ?_
    cases replayed with
    | some response => exact ht
    | none =>
      obtain rfl := run_claimKey_ours hrun
      have hclaimed : Commits cfg P view
          (Conn.view ⟨s.claimed key requestHash, Session.fresh⟩).books := hview
      refine Program.Throughout.bind ?_ fun response t hrun ht => ?_
      · refine (hclaimed.throughout rfl).attempt fun e t _ ht => ?_
        refine ((releaseKey_throughout cfg key t).mono fun d hd => ?_).bind fun _ _ _ hd => hd
        rwa [hd]
      · have hreturned := run_attempt_raises (fun e => raises_release key e) hrun
        have hidle := hclaimed.run_idle hfirst rfl (by rw [hreturned]; rfl)
        rw [hreturned] at hidle
        refine (((harmless_storeResponse key response).throughout cfg hidle).mono
          fun d hd => ?_).bind fun _ _ _ hd => hd
        rwa [hd]

end decorator

/-- On its way, a request to a decorated endpoint leaves the committed books alone, or has taken
them to where the operation it asks for takes them. -/
theorem handle_throughout {s : Store} (hs : s.db.books.Keyed s.seqs) (web : Web)
    (r : HttpRequest) :
    (r.handle cfg web).Throughout (Conn.exec cfg)
      (fun d => d.store.db.books = s.db.books ∨ r.Effect cfg web s.db.books d.store.db.books)
      ⟨s, Session.fresh⟩ :=
  idempotent_throughout (view_commits web r hs) (view_commitsFirst cfg web r) _ _

end WalletLedger
