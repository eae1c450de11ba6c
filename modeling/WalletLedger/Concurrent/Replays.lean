import WalletLedger.Concurrent.Serving

/-!
# Requests with one key at the same time

Any number of decorated requests with one key and one body, in any interleaving of the
wrapper's steps, as long as a view raises only before it has committed anything.

* `handles_refused`, `handles_serveClaimed`, `handles_idempotent` — the claim, taken or free, and
  the whole wrapper; `handles_duplicate` once a response is stored.
* `one_run_per_key` — the theorem; `one_run_per_key_reclaimed` is a key that is freed, claimed
  again and replayed.
-/

namespace WalletLedger

variable {ι : Type} [DecidableEq ι] {cfg : Config} {web : Web} {key requestHash : String}
  {db₀ : Database} {s t : Shared ι} {i j : ι} {r : Request} {id : Id} {α : Type}

/-! ## The claim -/

/-- A key that is taken: what the row says is answered. -/
theorem handles_refused {view : App Response} (h : s.Traceless db₀ i) (e : Exn) :
    Handles cfg key requestHash db₀ i (claimRefused key requestHash e >>= answerClaim key view)
      (Replied key requestHash db₀ i) s := by
  have hraise : ∀ e,
      Handles cfg key requestHash db₀ i (.raise e) (Replied key requestHash db₀ i) s :=
    fun e => wp_raise (replied_stable _) ⟨fun _ => h, fun response ho => by cases ho⟩
  unfold claimRefused
  split
  swap
  · exact hraise _
  rw [resolveDuplicate_eq]
  refine handles_idle (r := .rollback) (by simp) fun t hrely hinv _ _ => ?_
  have htrace := hrely.traceless h
  have hfresh : (t.after cfg i .rollback).sessions i = Session.fresh := Shared.after_self
  refine handles_select (by rw [hfresh]; rfl) fun t₁ hrely₁ hinv₁ _ => ?_
  have hview₁ : (t₁.conn i).view = t₁.store.db := by
    show replay (t₁.sessions i).writes t₁.store.db = _
    rw [hrely₁.frame.session, hfresh]
    rfl
  rw [hview₁]
  refine wp_ret (replied_stable _) ⟨fun _ => ?_, fun response ho => ?_⟩
  · have htrace₁ : t₁.Traceless db₀ i := hrely₁.traceless (by
      unfold Shared.Traceless at htrace ⊢
      rwa [Shared.after_db (by simp), Shared.others_congr (Shared.after_commits (by simp))])
    unfold Shared.Traceless at htrace₁ ⊢
    rwa [Shared.after_db (by simp), Shared.others_congr (Shared.after_commits (by simp))]
  · cases ho
    rw [Shared.after_db (by simp)]
    exact (duplicateResponse_cases t₁.store.db key requestHash).imp_right fun h => h.2

/-- The view under its claim. -/
theorem handles_serveClaimed {view : App Response} (hview : view.All fun r => r.ofView = true)
    (h : Viewing key requestHash db₀ id i s) :
    Handles cfg key requestHash db₀ i (serveClaimed key view) (Replied key requestHash db₀ i)
      s := by
  unfold serveClaimed
  refine wp_bind (wp_attempt (wp_mono (fun o t _ ht => ?_) (handles_view hview h)))
  cases o with
  | ok response => exact handles_store ht response
  | error e =>
    refine wp_mono (fun o t _ ht => ?_) (handles_release ht e)
    cases o with
    | ok response => exact ht.elim
    | error e => exact ht

/-- The session has inserted its row, and waits for nobody. -/
structure Claiming (key requestHash : String) (db₀ : Database) (id : Id) (i : ι) (s : Shared ι) :
    Prop where
  session : s.sessions i = ⟨[.addKey (claimedRow id key requestHash)], false⟩
  lock : s.locks.Holds i (.idempotencyKey key) .update
  absent : ¬ Taken key s.store.db.keys
  table : KeyTable (s.store.db.keys ++ [claimedRow id key requestHash]) s.store.seqs
  own : s.own i = []
  traceless : s.Traceless db₀ i
  asked : .rollback ∉ s.asked i

theorem Claiming.later (h : Claiming key requestHash db₀ id i s)
    (hrely : Unhindered key requestHash db₀ i s t) : Claiming key requestHash db₀ id i t := by
  obtain ⟨hdb, -⟩ := hrely.alone (.inr ⟨h.lock, h.absent⟩)
  exact ⟨hrely.frame.session.trans h.session, hrely.frame.holds h.lock, hdb ▸ h.absent,
    hdb ▸ h.table.mono hrely.seqs, hrely.own.trans h.own, hrely.traceless h.traceless,
    hrely.frame.asked ▸ h.asked⟩

/-- The row is inserted. -/
theorem claiming_after_insert (cfg : Config) (hinv : Claims key s)
    (hsession : s.sessions i = Session.fresh) (hown : s.own i = [])
    (htrace : (s.after cfg i (.mutate (.insertKey key requestHash))).Traceless db₀ i)
    (hasked : .rollback ∉ s.asked i) (habsent : ∀ k ∈ s.store.db.keys, k.key ≠ key)
    (hfits : fitsIn 255 key = true ∧ fitsIn 64 requestHash = true) {u : Unit}
    (hexec : (Mutation.insertKey key requestHash).exec cfg s.store.seqs (s.conn i).view =
      .ok (u, .addKey (claimedRow s.store.seqs.nextId key requestHash))) :
    Claiming key requestHash db₀ s.store.seqs.nextId i
      (s.after cfg i (.mutate (.insertKey key requestHash))) := by
  have hf : (s.sessions i).failed = false := congrArg Session.failed hsession
  have hconn := Conn.exec_goes (c := s.conn i) hf hexec
  have hafter : (s.after cfg i (.mutate (.insertKey key requestHash))).sessions i =
      ⟨[.addKey (claimedRow s.store.seqs.nextId key requestHash)], false⟩ := by
    rw [Shared.after_self, hconn]
    show (⟨(s.sessions i).writes ++ _, _⟩ : Session) = _
    rw [hsession]
    rfl
  refine ⟨hafter, ?_, ?_, ?_, ?_, htrace, Shared.rollback_not_mem_after hasked (by simp)⟩
  · show LockTable.Holds (ite _ _ _) _ _ _
    rw [if_neg (by rw [hconn]; simp [Request.ends, Conn.wrote])]
    refine LockTable.holds_grant ?_
    rw [Shared.wanted, if_neg (by simp [hf])]
    exact List.mem_singleton_self _
  · rw [Shared.after_db (by simp)]
    rintro ⟨k, hk, hkey⟩
    exact habsent k hk hkey
  · rw [Shared.after_db (by simp), Shared.after_store, hconn]
    exact hinv.table.concat rfl habsent hfits (Nat.lt_succ_self _)
  · rw [Shared.own_congr (Shared.after_commits (by simp)), hown]

/-- The claim is committed: the view may run. -/
theorem Claiming.commit (h : Claiming key requestHash db₀ id i s) (cfg : Config)
    (hinv : Claims key s) :
    (claiming ι key requestHash db₀).Keeps i s (s.after cfg i .commit) ∧
      Viewing key requestHash db₀ id i (s.after cfg i .commit) := by
  have hf : (s.sessions i).failed = false := by rw [h.session]
  have hview : (s.conn i).view =
      (Write.addKey (claimedRow id key requestHash)).apply s.store.db := by
    show replay (s.sessions i).writes s.store.db = _
    rw [h.session]
    rfl
  have hown : (s.after cfg i .commit).own i = [.addKey (claimedRow id key requestHash)] := by
    rw [Shared.own_after_commit cfg hf, h.own, h.session]
    rfl
  have howns : (s.after cfg i .commit).Owns i := by
    unfold Shared.Owns
    rw [hown]
    rfl
  have hunstored : s.store.db.storedResponse key requestHash = none := by
    cases hstored : s.store.db.storedResponse key requestHash with
    | none => rfl
    | some response =>
      obtain ⟨k, hk, hkey, -⟩ := hinv.table.storedResponse_iff.1 hstored
      exact absurd ⟨k, hk, hkey⟩ h.absent
  have hdb : (s.after cfg i .commit).store.db =
      (Write.addKey (claimedRow id key requestHash)).apply
        (replay ((s.after cfg i .commit).others i) db₀) := by
    rw [(Shared.after_commit cfg hf).1, Shared.others_after_commit cfg hf, hview]
    exact congrArg (Write.addKey _).apply h.traceless
  refine ⟨hinv.keeps_commit cfg hf (.inr ⟨h.lock, h.absent⟩) hunstored ?_ (fun _ => ?_)
    fun _ => howns, ⟨howns, ?_, fun _ => hdb⟩, ?_,
    Shared.rollback_not_mem_after h.asked (by simp)⟩
  · rw [hview]
    exact h.table
  · rw [hview]
    exact ⟨_, List.mem_append_right _ (List.mem_singleton_self _), rfl⟩
  · rw [hdb]
    rfl
  · rw [Shared.after_conn, Conn.exec_commit, if_neg]
    · exact Session.offKeys_nil false
    · simp [Shared.conn, hf]

/-- The session has asked nothing yet. -/
structure Untouched (db₀ : Database) (i : ι) (s : Shared ι) : Prop where
  session : s.sessions i = Session.fresh
  own : s.own i = []
  traceless : s.Traceless db₀ i
  asked : s.asked i = []

/-- The decorated view. -/
theorem handles_idempotent (hkey : key ≠ "") {view : App Response}
    (hview : view.All fun r => r.ofView = true) (h : Untouched db₀ i s) :
    Handles cfg key requestHash db₀ i (idempotent (some key) requestHash view)
      (Replied key requestHash db₀ i) s := by
  rw [idempotent_claims hkey, claimKey_eq]
  refine handles_idle (r := .mutate (.insertKey key requestHash)) (by simp)
    fun t hrely hinv _ hb => ?_
  have hsession : t.sessions i = Session.fresh := hrely.frame.session.trans h.session
  have hdb : (t.conn i).view = t.store.db := by
    show replay (t.sessions i).writes t.store.db = _
    rw [hsession]
    rfl
  have hf : (t.conn i).session.failed = false := congrArg Session.failed hsession
  have htrace := hrely.traceless h.traceless
  have hafter : (t.after cfg i (.mutate (.insertKey key requestHash))).Traceless db₀ i := by
    unfold Shared.Traceless at htrace ⊢
    rwa [Shared.after_db (by simp), Shared.others_congr (Shared.after_commits (by simp))]
  cases hexec : (Mutation.insertKey key requestHash).exec cfg t.store.seqs (t.conn i).view with
  | error e =>
    rw [Conn.exec_refused hf hexec]
    exact handles_refused hafter _
  | ok x =>
    obtain ⟨u, w⟩ := x
    rw [Conn.exec_goes hf hexec]
    obtain ⟨hfits, habsent, rfl⟩ := Mutation.exec_insertKey hexec
    rw [hdb] at habsent
    have hclaiming := claiming_after_insert cfg hinv hsession (hrely.own.trans h.own) hafter
      (by simp [hrely.frame.asked, h.asked]) habsent hfits hexec
    refine handles_call fun t₁ hrely₁ hinv₁ _ _ => ?_
    have hclaiming₁ := hclaiming.later hrely₁
    obtain ⟨hkeeps, hviewing⟩ := hclaiming₁.commit cfg hinv₁
    have hcommit : (Conn.exec cfg .commit (t₁.conn i)).1 = .ok () := by
      rw [Conn.exec_commit, if_neg]
      simp [Shared.conn, hclaiming₁.session]
    rw [hcommit]
    exact ⟨hkeeps, handles_serveClaimed hview hviewing⟩

/-! ## Once a response is stored -/

/-- What a duplicate asks. -/
def duplicateRequests (key requestHash : String) : List Request :=
  [.mutate (.insertKey key requestHash), .rollback, .select (.idempotencyKey key)]

/-- A duplicate is answered with the stored response; its view is not run. -/
theorem handles_duplicate (hkey : key ≠ "") (view : App Response) {response : Response}
    (hstored : s.store.db.storedResponse key requestHash = some response)
    (hsession : s.sessions i = Session.fresh) (hasked : s.asked i = []) :
    Handles cfg key requestHash db₀ i (idempotent (some key) requestHash view)
      (fun o t => o = .ok response ∧ t.asked i = duplicateRequests key requestHash) s := by
  rw [idempotent_claims hkey, claimKey_eq]
  refine handles_idle (r := .mutate (.insertKey key requestHash)) (by simp)
    fun t hrely hinv _ _ => ?_
  have hstored₁ := hrely.stored response hstored
  have hsession₁ : t.sessions i = Session.fresh := hrely.frame.session.trans hsession
  have hview : (t.conn i).view = t.store.db := by
    show replay (t.sessions i).writes t.store.db = _
    rw [hsession₁]
    rfl
  have hexec : (Mutation.insertKey key requestHash).exec cfg t.store.seqs (t.conn i).view =
      .error .integrity := by
    obtain ⟨k, hk, rfl, rfl, -⟩ := hinv.table.storedResponse_iff.1 hstored₁
    dsimp only [Mutation.exec]
    rw [hview, if_neg (not_not.2 (hinv.table.fits k hk)),
      if_pos (List.any_eq_true.2 ⟨k, hk, decide_eq_true rfl⟩)]
  rw [Conn.exec_refused (congrArg Session.failed hsession₁) hexec]
  have hstored₂ : (t.after cfg i (.mutate (.insertKey key requestHash))).store.db.storedResponse key
      requestHash = some response := by
    rwa [Shared.after_db (by simp)]
  show Handles cfg key requestHash db₀ i
    (claimRefused key requestHash (.service .integrity) >>= answerClaim key view) _ _
  unfold claimRefused
  dsimp only
  rw [resolveDuplicate_eq]
  refine handles_idle (r := .rollback) (by simp) fun t₂ hrely₂ _ _ _ => ?_
  have hfresh : (t₂.after cfg i .rollback).sessions i = Session.fresh := Shared.after_self
  have hstored₃ : (t₂.after cfg i .rollback).store.db.storedResponse key requestHash =
      some response := by
    rw [Shared.after_db (by simp)]
    exact hrely₂.stored response hstored₂
  refine handles_select (by rw [hfresh]; rfl) fun t₃ hrely₃ _ _ => ?_
  have hview₃ : (t₃.conn i).view = t₃.store.db := by
    show replay (t₃.sessions i).writes t₃.store.db = _
    rw [hrely₃.frame.session, hfresh]
    rfl
  rw [hview₃]
  refine wp_ret ?_ ⟨congrArg Except.ok ?_, ?_⟩
  · rintro u u' hrely' _ ⟨ho, hu⟩
    exact ⟨ho, hrely'.frame.asked.trans hu⟩
  · exact duplicateResponse_of_stored (hrely₃.stored response hstored₃)
  · rw [Shared.after_asked, hrely₃.frame.asked, Shared.after_asked, hrely₂.frame.asked,
      Shared.after_asked, hrely.frame.asked, hasked]
    rfl

/-! ## The theorem -/

/-- Any number of requests, each to a decorated endpoint. -/
def handling (cfg : Config) (web : Web) (s₀ : Store) (requests : ι → HttpRequest) :
    World ι Request Request.Answer Exn Response (Shared ι) :=
  World.start (Shared.start s₀) fun i => (requests i).handle cfg web

omit [DecidableEq ι] in
theorem claims_start {s₀ : Store} [DecidableEq ι] (hs : KeyTable s₀.db.keys s₀.seqs) :
    Claims key (Shared.start s₀ : Shared ι) where
  locks := LockTable.exclusive_nil
  table := hs
  unique i j hi _ := by cases hi
  taken i hi := by cases hi
  effects i hi := by
    obtain ⟨w, hw, -⟩ := hi
    cases hw

/-- **One run for a key.**  Any number of requests with one key and one body, in any
interleaving, as long as a view raises only before it has committed effects: at most one run of
the view commits any; a request answers with the stored response or with a conflict, and once a
response is stored, a request that comes answers with it and does not run its view; a request that
has rolled back, as it does when its view has raised, leaves the database as the commits of the
others make it. -/
theorem one_run_per_key {s₀ : Store} (hs : KeyTable s₀.db.keys s₀.seqs) {key body : String}
    (hkey : key ≠ "") {requests : ι → HttpRequest} (hkeys : ∀ i, (requests i).key = some key)
    (hbodies : ∀ i, (requests i).body = body)
    {w : World ι Request Request.Answer Exn Response (Shared ι)}
    (h : Reaches (machine ι cfg) RaisesEarly (handling cfg web s₀ requests) w) :
    (∀ i j, w.shared.RunCommitted i → w.shared.RunCommitted j → i = j) ∧
      (∀ i response, (w.tasks i).outcome = some (.ok response) →
        w.shared.store.db.storedResponse key (web.sha256 body) = some response ∨
          ∃ message, response = conflict message) ∧
      (∀ response, w.shared.store.db.storedResponse key (web.sha256 body) = some response →
        ∀ i, w.shared.asked i = [] → ∀ w' o, Reaches (machine ι cfg) RaisesEarly w w' →
          (w'.tasks i).outcome = some o → o = .ok response ∧
            w'.shared.asked i = duplicateRequests key (web.sha256 body)) ∧
      ∀ i o, (w.tasks i).outcome = some o → .rollback ∈ w.shared.asked i →
        w.shared.store.db = replay (w.shared.others i) s₀.db := by
  have hhandle : ∀ i, (requests i).handle cfg web =
      idempotent (some key) (web.sha256 body) ((requests i).view cfg web) := fun i => by
    unfold HttpRequest.handle HttpRequest.requestHash
    rw [hkeys i, hbodies i]
  have hstart : (claiming ι key (web.sha256 body) s₀.db).inv
      (handling cfg web s₀ requests).shared := claims_start hs
  obtain ⟨hinv, htasks⟩ := h.sound (D := claiming ι key (web.sha256 body) s₀.db)
    (Q := Replied key (web.sha256 body) s₀.db) (R := Replied key (web.sha256 body) s₀.db)
    (fun i o s hinv h => ⟨Claims.keeps_finish hinv i, h⟩) (fun i o => replied_stable o) hstart
    fun i => by
      show Handles cfg key _ s₀.db i ((requests i).handle cfg web) _ _
      rw [hhandle]
      exact handles_idempotent hkey (view_requests web _) ⟨rfl, rfl, rfl, rfl⟩
  have hreplied : ∀ i o, (w.tasks i).outcome = some o →
      Replied key (web.sha256 body) s₀.db i o w.shared := fun i o ho => (htasks i).outcome ho
  refine ⟨fun i j hi hj => hinv.unique i j (hinv.effects i hi) (hinv.effects j hj),
    fun i response ho => (hreplied i _ ho).2 response rfl, ?_, fun i o ho => (hreplied i o ho).1⟩
  intro response hstored i hasked w' o hw' ho
  have hcall : ∀ i, ∃ r k, (requests i).handle cfg web = .call r k := fun i => by
    rw [hhandle, idempotent_claims hkey, claimKey_eq]
    exact ⟨_, _, rfl⟩
  obtain ⟨htask, hsession⟩ := untouched_of_reaches hcall h hasked
  refine Reaches.promise (D := claiming ι key (web.sha256 body) s₀.db)
    (P := fun o t => o = .ok response ∧ t.asked i = duplicateRequests key (web.sha256 body))
    (fun j s hinv => Claims.keeps_finish hinv j) (fun o s t hrely _ hs => ?_) (fun o s hs => hs)
    hinv htasks htask ?_ hw' ho
  · exact ⟨hs.1, hrely.frame.asked.trans hs.2⟩
  · rw [hhandle]
    exact handles_duplicate hkey _ hstored hsession hasked

/-! ## Three requests -/

/-- Alice has reserved 10 in transaction 6. -/
def reservedTransfer : List Operation :=
  [.createAccount "alice" "EUR", .createAccount "bob" "EUR",
    .initiateDeposit 0 100 "stripe" ⟨none, none⟩ (some "c1"), .settle "2" none none,
    .initiate 0 1 10 (some "c2")]

def reservedStore : Store := runAll (offlineConfig 100) reservedTransfer Store.empty

/-- One request to commit transaction 2, which is not pending, and two to commit transaction 6. -/
def threeCommits : World (Fin 3) Request Request.Answer Exn Response (Shared (Fin 3)) :=
  handling (offlineConfig 100) emptyBodies reservedStore fun i =>
    commitRequest (if i = 0 then 2 else 6)

/-- The first request claims the key, raises and frees it; the second claims it again and stores
its response; the third is answered with that. -/
theorem one_run_per_key_reclaimed :
    ∃ w w', Reaches (machine (Fin 3) (offlineConfig 100)) RaisesEarly threeCommits w ∧
      Reaches (machine (Fin 3) (offlineConfig 100)) RaisesEarly w w' ∧ w.shared.RunCommitted 1 ∧
      w.shared.store.db = replay (w.shared.others 0) reservedStore.db ∧
      (w'.tasks 2).outcome = some (.ok firstResponse) ∧
      w'.shared.asked 2 = duplicateRequests "k" (emptyBodies.sha256 "") := by
  obtain ⟨w, hw, hrun, hstored, hasked, ⟨hended, hraised⟩, hlater⟩ :
      ∃ w, Reaches (machine (Fin 3) (offlineConfig 100)) RaisesEarly threeCommits w ∧
        w.shared.RunCommitted 1 ∧
        w.shared.store.db.storedResponse "k" (emptyBodies.sha256 "") = some firstResponse ∧
        w.shared.asked 2 = [] ∧
        ((w.tasks 0).outcome.isSome = true ∧ .rollback ∈ w.shared.asked 0) ∧
        (w.runSchedule (machine (Fin 3) (offlineConfig 100)) RaisesEarly [2, 2, 2, 2]).any
          (fun w' => (w'.tasks 2).outcome.isSome) = true :=
    exists_reaches (List.replicate 7 0 ++ [1, 1, 0] ++ List.replicate 24 1) (by decide +kernel)
  obtain ⟨w', hw', hanswered⟩ := (Option.any_eq_true _ _).1 hlater
  obtain ⟨o, ho⟩ := Option.isSome_iff_exists.1 hended
  obtain ⟨o', ho'⟩ := Option.isSome_iff_exists.1 hanswered
  have hnone : reservedStore.db.keys = [] := by decide +kernel
  have hbodies : ∀ i : Fin 3, (commitRequest (if i = 0 then 2 else 6)).body = "" := fun _ => rfl
  obtain ⟨-, -, hlate, htrace⟩ :=
    one_run_per_key (hnone ▸ keyTable_nil _) (by decide) (fun _ => rfl) hbodies hw
  obtain ⟨hresponse, hrequests⟩ :=
    hlate firstResponse hstored 2 hasked w' o' (reaches_of_runSchedule hw') ho'
  exact ⟨w, w', hw, reaches_of_runSchedule hw', hrun, htrace 0 o ho hraised, hresponse ▸ ho',
    hrequests⟩

end WalletLedger
