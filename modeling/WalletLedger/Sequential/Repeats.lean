import WalletLedger.Sequential.Outcomes

/-!
# Keys that outlive their processes

Only the request that has claimed a key deletes its row or stores a response in it.  The row that
a killed process has left is nobody's any more: it stays as it is.

* `Kept` — a row of the table; `kept_entry` — what everything but a request with its key does
  to it.
* `taken_throughout` — a request whose key is taken leaves the database alone.
* `claimed_throughout` — a request whose key is free moves nothing before the key is its own.
* `answered_alike`, `stuck_for_ever`, `moved_once` — the results.
-/

namespace WalletLedger

variable {cfg : Config} {web : Web} {pay : Payments} {α : Type} {c : Conn} {s s' : Store}
  {k : IdempotencyKey} {key : String} {C : Entry × ℕ → Store → Prop}

/-! ## A row that is kept -/

/-- The table is well formed, and this is one of its rows. -/
structure Kept (k : IdempotencyKey) (s : Sequences) (db : Database) : Prop where
  table : KeyTable db.keys s
  row : k ∈ db.keys

/-- The request is not about the row. -/
def Request.Spares (k : IdempotencyKey) : Request → Prop
  | .mutate (.deleteKey id) => id ≠ k.id
  | .mutate (.completeKey id _ _) => id ≠ k.id
  | _ => True

theorem Kept.exec {m : Mutation} {s : Sequences} {db : Database} {v : m.Result} {w : Write}
    (h : Kept k s db) (hm : (Request.mutate m).Spares k) (hexec : m.exec cfg s db = .ok (v, w)) :
    Kept k (m.advance s) (w.apply db) := by
  refine ⟨h.table.exec hexec, ?_⟩
  show k ∈ w.applyKeys db.keys
  have hbeside : m.onKeys = false → k ∈ w.applyKeys db.keys := fun hm' => by
    rw [Write.applyKeys_of_not (Mutation.touchesKeys_exec hm' hexec)]
    exact h.row
  cases m with
  | insertKey key requestHash =>
    obtain ⟨-, -, rfl⟩ := Mutation.exec_insertKey hexec
    exact List.mem_append_left _ h.row
  | completeKey id status body =>
    dsimp only [Mutation.exec] at hexec
    split at hexec <;> cases hexec
    have hother : ¬ k.id = id := fun hid => hm hid.symm
    exact mem_modify.2 ⟨k, h.row, by rw [if_neg hother]⟩
  | deleteKey id =>
    cases hexec
    have hother : k.id ≠ id := fun hid => hm hid.symm
    exact List.mem_filter.2 ⟨h.row, by simpa using hother⟩
  | _ => exact hbeside rfl

/-- A program that is not about the row keeps it on its way. -/
theorem Kept.throughout {p : App α} (hp : p.All (Request.Spares k)) (h : c.Everywhere (Kept k)) :
    p.Throughout (Conn.exec cfg) (fun d => d.Everywhere (Kept k)) c :=
  Conn.Everywhere.throughout (I := Kept k) (fun hle hs => ⟨hs.table.mono hle.nextId, hs.row⟩)
    (fun _ _ _ _ _ hm hs hx => hs.exec hm hx) hp h

theorem spares_of_offKeys {p : App α} (hp : OffKeys p) : p.All (Request.Spares k) :=
  hp.mono fun r hr => by
    cases r with
    | mutate m => cases m <;> trivial
    | _ => trivial

theorem spares_claimKey (key requestHash : String) :
    (claimKey key requestHash).All (Request.Spares k) := by
  refine Program.All.attempt ?_ fun e => ?_
  · exact (all_ask trivial).bind fun _ => (all_ask trivial).bind fun _ => trivial
  · split
    · refine (all_ask trivial).bind fun _ => all_map ?_ _
      rw [resolveDuplicate_eq]
      exact (all_ask trivial).bind fun _ => trivial
    · trivial

/-- What is found by another key is another row. -/
theorem Kept.found {f : Option IdempotencyKey → App α} {other : String} (hne : other ≠ k.key)
    (h : c.Everywhere (Kept k))
    (hf : ∀ claim : Option IdempotencyKey, (∀ x ∈ claim, x.id ≠ k.id) →
      (f claim).All (Request.Spares k)) :
    (ask (.select (.idempotencyKey other)) >>= f).Throughout (Conn.exec cfg)
      (fun d => d.Everywhere (Kept k)) c := by
  have hselect : (ask (.select (.idempotencyKey other))).All (Request.Spares k) := all_ask trivial
  refine (Kept.throughout hselect h).bind fun claim d hrun hd => ?_
  refine Kept.throughout (hf claim fun x hx hid => ?_) hd
  have hfound : claim = c.view.keys.find? fun x => decide (x.key = other) := by
    rw [← runOn] at hrun
    cases hexec : Conn.exec cfg (.select (.idempotencyKey other)) c with
    | mk v d' =>
      cases v with
      | error e =>
        have hraised : runOn cfg (ask (.select (.idempotencyKey other)) >>= fun v => .ret v) c =
          (.error (.service e), d') := run_ask_error hexec
        rw [Program.bind_ret, hrun] at hraised
        cases hraised
      | ok v =>
        have hok : runOn cfg (ask (.select (.idempotencyKey other)) >>= fun v => .ret v) c =
          runOn cfg (.ret v) d' := run_ask_ok hexec
        rw [Program.bind_ret, hrun] at hok
        obtain rfl := Except.ok.inj (congrArg Prod.fst hok)
        exact (Conn.exec_select_ok cfg _ (congrArg Prod.fst hexec)).2.1
  rw [Option.mem_def.1 hx] at hfound
  have hsame : x = k := eq_of_key_eq h.view.table.ids (List.mem_of_find?_eq_some hfound.symm)
    h.view.row hid
  have hkey : x.key = other := by simpa using List.find?_some hfound.symm
  exact hne (hsame ▸ hkey.symm)

theorem kept_releaseKey {other : String} (hne : other ≠ k.key) (h : c.Everywhere (Kept k)) :
    (releaseKey other).Throughout (Conn.exec cfg) (fun d => d.Everywhere (Kept k)) c := by
  have hrollback : (ask .rollback).All (Request.Spares k) := all_ask trivial
  rw [releaseKey_eq]
  exact (Kept.throughout hrollback h).bind fun _ d _ hd =>
    Kept.found hne hd fun _ hclaim => deleteClaim_requests hclaim trivial

theorem kept_storeResponse {other : String} (hne : other ≠ k.key) (h : c.Everywhere (Kept k))
    (response : Response) :
    (storeResponse other response).Throughout (Conn.exec cfg) (fun d => d.Everywhere (Kept k))
      c := by
  refine Kept.found hne h fun claim hclaim => ?_
  cases claim with
  | none => trivial
  | some x =>
    have hid : x.id ≠ k.id := hclaim x rfl
    exact (all_ask hid).bind fun _ => all_ask trivial

/-- A request with another key, or with none, keeps the row. -/
theorem kept_handle (web : Web) {r : HttpRequest} (hr : r.key ≠ some k.key)
    (h : c.Everywhere (Kept k)) :
    (r.handle cfg web).Throughout (Conn.exec cfg) (fun d => d.Everywhere (Kept k)) c := by
  have hview : ∀ {c : Conn}, c.Everywhere (Kept k) → (r.view cfg web).Throughout (Conn.exec cfg)
      (fun d => d.Everywhere (Kept k)) c := Kept.throughout (spares_of_offKeys (offKeys_view web r))
  unfold HttpRequest.handle
  cases hkey : r.key with
  | none => exact hview h
  | some other =>
    by_cases hempty : other = ""
    · subst hempty
      exact hview h
    have hne : other ≠ k.key := fun hk => hr (hk ▸ hkey)
    rw [idempotent_claims hempty]
    refine (Kept.throughout (spares_claimKey _ _) h).bind fun replayed d _ hd => ?_
    cases replayed with
    | some response => exact hd
    | none =>
      refine Program.Throughout.bind ?_ fun response t _ ht =>
        (kept_storeResponse hne ht response).bind fun _ _ _ hd => hd
      exact (hview hd).attempt fun e t _ ht => (kept_releaseKey hne ht).bind fun _ _ _ hd => hd

/-- The entry point is a request with the key. -/
def Entry.carries (key : String) : Entry → Bool
  | .post r => decide (r.key = some key)
  | _ => false

/-- So does everything else that is asked of the application. -/
theorem kept_entry (cfg : Config) (web : Web) (pay : Payments) {e : Entry}
    (he : e.carries k.key = false) (h : c.Everywhere (Kept k)) :
    (e.program cfg web pay).Throughout (Conn.exec cfg) (fun d => d.Everywhere (Kept k)) c := by
  have hother : ∀ {e : Entry}, (∀ r, e ≠ .post r) → (e.program cfg web pay).Throughout
      (Conn.exec cfg) (fun d => d.Everywhere (Kept k)) c := fun he =>
    Kept.throughout (spares_of_offKeys (offKeys_entry web pay he)) h
  cases e with
  | post r => exact (kept_handle web (of_decide_eq_false he) h).map
  | _ => exact hother fun r h => by cases h

/-! ## A key that is taken -/

/-- The session has written nothing, and the committed rows are these, the key among them. -/
def Conn.Idle (db : Database) (c : Conn) : Prop := c.session.writes = [] ∧ c.store.db = db

/-- With the key taken, `claimKey` writes nothing. -/
theorem idle_claimKey (cfg : Config) {db : Database} (requestHash : String) (h : Taken key db.keys)
    (hc : c.Idle db) :
    (claimKey key requestHash).Throughout (Conn.exec cfg) (Conn.Idle db) c := by
  have hrequests : (claimKey key requestHash).All fun r =>
      r = .mutate (.insertKey key requestHash) ∨ r = .commit ∨ r = .rollback ∨
        r = .select (.idempotencyKey key) := by
    refine Program.All.attempt ?_ fun e => ?_
    · exact (all_ask (by simp)).bind fun _ => (all_ask (by simp)).bind fun _ => trivial
    · split
      · refine (all_ask (by simp)).bind fun _ => all_map ?_ _
        rw [resolveDuplicate_eq]
        exact (all_ask (by simp)).bind fun _ => trivial
      · trivial
  refine Program.Throughout.of_all (fun r d hr hd => ?_) hrequests hc
  have hview : d.view = db := by
    unfold Conn.view
    rw [hd.1, hd.2]
    rfl
  cases Conn.turn_exec cfg r d with
  | kept _ hsession hdb _ => exact ⟨hsession ▸ hd.1, hdb.trans hd.2⟩
  | wrote m v w hm _ hexec _ _ _ =>
    subst hm
    simp only [Request.mutate.injEq, reduceCtorEq, or_false] at hr
    subst hr
    rw [hview] at hexec
    obtain ⟨-, habsent, -⟩ := Mutation.exec_insertKey hexec
    obtain ⟨k, hk, hkey⟩ := h
    exact absurd hkey (habsent k hk)
  | committed _ _ hsession hdb _ => exact ⟨hsession ▸ rfl, hdb.trans hview⟩
  | dropped hwrites hdb _ => exact ⟨hwrites, hdb.trans hd.2⟩

/-- A request whose key is taken leaves the database alone. -/
theorem taken_throughout (web : Web) {r : HttpRequest} (hkey : r.key = some key) (hne : key ≠ "")
    (h : Taken key s.db.keys) :
    (r.handle cfg web).Throughout (Conn.exec cfg) (fun d => d.store.db = s.db)
      ⟨s, Session.fresh⟩ := by
  unfold HttpRequest.handle
  rw [hkey, idempotent_claims hne]
  have hclaim := idle_claimKey cfg (c := ⟨s, Session.fresh⟩) (r.requestHash web) h ⟨rfl, rfl⟩
  refine (hclaim.mono fun _ hd => hd.2).bind fun replayed d hrun hd => ?_
  cases replayed with
  | some response => exact hd
  | none =>
    obtain rfl := run_claimKey_ours hrun
    exact absurd (congrArg (fun db => db.keys.length) hd) (by simp [Store.claimed])

/-! ## A key that is free -/

/-- Every program keeps the table well formed on its way. -/
theorem table_throughout (cfg : Config) (p : App α)
    (h : c.Everywhere fun s db => KeyTable db.keys s) :
    p.Throughout (Conn.exec cfg) (fun d => d.Everywhere fun s db => KeyTable db.keys s) c :=
  Conn.Everywhere.throughout (I := fun s db => KeyTable db.keys s) (Q := fun _ => True)
    (fun hle hs => hs.mono hle.nextId) (fun _ _ _ _ _ _ hs hx => hs.exec hx)
    (Program.all_true p) h

/-- A program that deletes no key keeps a row on its way. -/
theorem held_throughout (cfg : Config) {id : Id} {p : App α} (hp : p.All Request.keepsKeys)
    (h : c.Everywhere (Held id key)) :
    p.Throughout (Conn.exec cfg) (fun d => d.Everywhere (Held id key)) c :=
  Conn.Everywhere.throughout (I := Held id key) (fun hle hs => hs.mono hle)
    (fun _ _ _ _ _ hm hs hx => hs.exec (fun hd => hm id (congrArg _ hd)) hx) hp h

/-- A request with a key moves nothing unless the key is in the table, as its own. -/
theorem claimed_throughout (hs : s.Attended cfg) (hnamed : cfg.Named) (web : Web)
    {r : HttpRequest} (hkey : r.key = some key) (hne : key ≠ "") :
    (r.handle cfg web).Throughout (Conn.exec cfg)
      (fun d => d.store.db.books = s.db.books ∨ Taken key d.store.db.keys) ⟨s, Session.fresh⟩ := by
  unfold HttpRequest.handle
  rw [hkey, idempotent_claims hne]
  have hclaim := (harmless_claimKey key (r.requestHash web)).throughout cfg
    (c := ⟨s, Session.fresh⟩) (Session.beside_nil false)
  refine (hclaim.mono fun _ => .inl).bind fun replayed t hrun ht => ?_
  cases replayed with
  | some response => exact ht
  | none =>
    have hours : t = ⟨s.claimed key (r.requestHash web), Session.fresh⟩ := run_claimKey_ours hrun
    have htable := (table_throughout cfg (claimKey key (r.requestHash web))
      (c := ⟨s, Session.fresh⟩) ⟨hs.table, hs.table⟩).last
    rw [hrun] at htable
    subst hours
    have hheld : Conn.Everywhere (Held s.seqs.nextId key)
        ⟨s.claimed key (r.requestHash web), Session.fresh⟩ := by
      have hrow : ∃ k ∈ (s.claimed key (r.requestHash web)).db.keys,
          k.id = s.seqs.nextId ∧ k.key = key :=
        ⟨_, List.mem_append_right _ (List.mem_singleton_self _), rfl, rfl⟩
      exact ⟨⟨htable.store, hrow⟩, ⟨htable.view, hrow⟩⟩
    have hkeeps : (r.view cfg web).All Request.keepsKeys :=
      keepsKeys_of_offKeys (offKeys_view web r)
    have hview := held_throughout cfg hkeeps hheld
    have hkeyed : (s.claimed key (r.requestHash web)).db.books.Keyed
      (s.claimed key (r.requestHash web)).seqs := hs.keyed.mono ⟨Nat.le_succ _, le_rfl⟩
    have hresponded := view_responded hs hnamed web r (s.claimed key (r.requestHash web)) rfl hkeyed
    have hown : (r.view cfg web).Throughout (Conn.exec cfg)
        (fun d => d.store.db.books = s.db.books ∨ Taken key d.store.db.keys)
        ⟨s.claimed key (r.requestHash web), Session.fresh⟩ :=
      hview.mono fun d hd => .inr hd.store.taken
    refine Program.Throughout.bind ?_ fun response t hserved _ => ?_
    · refine hown.attempt fun e t hraised _ => ?_
      rw [← runOn] at hraised
      rw [hraised] at hresponded
      cases hresponded with
      | refused hbooks =>
        refine ((releaseKey_throughout cfg key t).mono fun d hd => .inl ?_).bind fun _ _ _ hd => hd
        exact hd.trans hbooks
    · have hreturned := run_attempt_raises (fun e => raises_release key e) hserved
      have hlast := hview.last
      rw [← runOn, hreturned] at hlast
      refine ((held_throughout cfg (keepsKeys_storeResponse key response) hlast).mono
        fun d hd => .inr hd.store.taken).bind fun _ _ _ hd => hd

/-! ## Later processes -/

/-- A process that is killed leaves the rows it finds. -/
theorem Store.Attended.killed_kept (hs : s.Attended cfg) (web : Web) (pay : Payments) (n : ℕ)
    (e : Entry) (hk : k ∈ s.db.keys) (hne : k.key ≠ "") :
    k ∈ (e.killed cfg web pay n s).db.keys := by
  cases he : e.carries k.key with
  | false =>
    have hkept := kept_entry cfg web pay he (c := ⟨s, Session.fresh⟩)
      ⟨⟨hs.table, hk⟩, ⟨hs.table, hk⟩⟩
    exact (Program.throughout_iff_killed.1 hkept n).store.row
  | true =>
    cases e with
    | post r =>
      have hsame : (Entry.program cfg web pay (.post r)).Throughout (Conn.exec cfg)
          (fun d => d.store.db = s.db) ⟨s, Session.fresh⟩ :=
        (taken_throughout web (of_decide_eq_true he) hne ⟨k, hk, rfl⟩).map
      have hdb := Program.throughout_iff_killed.1 hsame n
      exact congrArg Database.keys hdb ▸ hk
    | _ => cases he

/-- A row stays as its process has left it. -/
theorem kept_of_crashes (hs : s.Attended cfg) (hafter : Run (crash cfg web pay) C s s')
    (hk : k ∈ s.db.keys) (hne : k.key ≠ "") : s'.Attended cfg ∧ k ∈ s'.db.keys :=
  hafter.invariant (I := fun s => s.Attended cfg ∧ k ∈ s.db.keys) ⟨hs, hk⟩
    fun x _ h _ => ⟨h.1.killed x.2 x.1, h.1.killed_kept web pay x.2 x.1 h.2 hne⟩

/-- A response that a client is told for a key is stored with it. -/
theorem stored_of_answered (hs : s.Attended cfg) {r : HttpRequest} (hkey : r.key = some key)
    (hne : key ≠ "") {response : Response} (hresponse : r.response cfg web s = .ok response)
    (hsuccess : response.status ∈ [200, 201]) :
    (r.run cfg web s).db.storedResponse key (r.requestHash web) = some response := by
  unfold HttpRequest.response at hresponse
  unfold HttpRequest.run
  by_cases hfits : fitsIn 255 key = true ∧ fitsIn 64 (r.requestHash web) = true
  swap
  · rw [run_handle_wide hkey hne hfits] at hresponse
    cases hresponse
  cases hfound : s.db.keys.find? fun k => decide (k.key = key) with
  | some k =>
    rw [run_handle_taken hkey hne hfits hfound] at hresponse ⊢
    obtain rfl := Except.ok.inj hresponse
    rcases duplicateResponse_cases s.db key (r.requestHash web) with hstored | ⟨-, _, hconflict⟩
    · rwa [hfound] at hstored
    · rw [hfound] at hconflict
      rw [hconflict] at hsuccess
      exact absurd hsuccess (by decide : (409 : ℕ) ∉ [200, 201])
  | none =>
    rw [run_handle_free hkey hne hfits hfound] at hresponse ⊢
    have hquiet : OffKeys (r.view cfg web) := offKeys_view web r
    have hoff := hquiet.run cfg (c := ⟨s.claimed key (r.requestHash web), Session.fresh⟩)
      (Session.offKeys_nil false)
    cases hrun : runOn cfg (r.view cfg web)
        ⟨s.claimed key (r.requestHash web), Session.fresh⟩ with
    | mk o d =>
      rw [hrun] at hoff
      have hkeys : d.store.db.keys =
          s.db.keys ++ [claimedRow s.seqs.nextId key (r.requestHash web)] := hoff.2
      have hclaim : d.store.db.keys.find? (fun k => k.key = key) =
          some (claimedRow s.seqs.nextId key (r.requestHash web)) := by
        rw [hkeys]
        exact find?_claimed hfound
      cases o with
      | error e =>
        rw [run_serveClaimed_raised hrun (run_releaseKey cfg hclaim rfl).1] at hresponse
        cases hresponse
      | ok answer =>
        rw [run_serveClaimed_returned key hrun] at hresponse ⊢
        rcases run_storeResponse cfg hoff.1 hclaim answer with ⟨hfailed, -⟩ | ⟨hok, hset⟩
        · rw [hfailed] at hresponse
          cases hresponse
        · rw [hok] at hresponse
          obtain rfl : answer = response := Except.ok.inj hresponse
          rw [hkeys] at hset
          exact storedResponse_completed hfound (fun x hx => (hs.table.ids_lt x hx).ne) hset

/-- A request runs as a process that is not killed. -/
theorem HttpRequest.exists_killed (cfg : Config) (web : Web) (pay : Payments) (r : HttpRequest)
    (s : Store) : ∃ n, (Entry.post r).killed cfg web pay n s = r.run cfg web s := by
  obtain ⟨n, hn⟩ := Entry.killed_eq_run cfg web pay (.post r) s
  refine ⟨n, hn.trans ?_⟩
  show (runOn cfg (some <$> r.handle cfg web) _).2.store = _
  rw [runOn, Program.run_map]
  rfl

theorem attended_run (hs : s.Attended cfg) (web : Web) (pay : Payments) (r : HttpRequest) :
    (r.run cfg web s).Attended cfg := by
  obtain ⟨n, hn⟩ := r.exists_killed cfg web pay s
  exact hn ▸ hs.killed n (.post r)

/-- **One answer.**  Once a request with a key has been answered with a success, every later
request with the same key and the same digest is answered with that response and changes nothing,
wherever the processes before, between and since have been killed.  The database and the cache
answer every statement until then. -/
theorem answered_alike {r r' : HttpRequest} {response : Response}
    (h : Run (crash cfg web pay) C Store.empty s) (hkey : r.key = some key) (hne : key ≠ "")
    (hresponse : r.response cfg web s = .ok response) (hsuccess : response.status ∈ [200, 201])
    (hafter : Run (crash cfg web pay) C (r.run cfg web s) s') (hkey' : r'.key = some key)
    (hhash : r'.requestHash web = r.requestHash web) :
    r'.response cfg web s' = .ok response ∧ (r'.run cfg web s').db = s'.db := by
  have hs := attended_of_run h
  have hlater := attended_run hs web pay r
  obtain ⟨k, hk, hkk, hkh, hbody⟩ := hlater.table.storedResponse_iff.1
    (stored_of_answered hs hkey hne hresponse hsuccess)
  obtain ⟨hs', hk'⟩ := kept_of_crashes hlater hafter hk (hkk ▸ hne)
  have hstored : s'.db.storedResponse key (r'.requestHash web) = some response :=
    hs'.table.storedResponse_iff.2 ⟨k, hk', hkk, hkh.trans hhash.symm, hbody⟩
  unfold HttpRequest.response HttpRequest.run HttpRequest.handle
  rw [hkey']
  exact idempotent_replays hne hs'.table hstored

/-- What the commands leave before the transfer. -/
def killedStore : Store :=
  killedCommands.foldl (fun s x => crash (offlineConfig 100) transferBodies signedPayments x s)
    Store.empty

/-- The transfer has been answered, and the processes of two commands have been killed. -/
def answeredStore : Store :=
  [(Entry.fund "2000000001" 10, 5), (.seed, 12)].foldl
    (fun s x => crash (offlineConfig 100) transferBodies signedPayments x s)
    (keyedRequest.run (offlineConfig 100) transferBodies killedStore)

/-- Sent again, it is answered alike. -/
theorem answered_transfer_again :
    ∃ response, response.status = 201 ∧
      keyedRequest.response (offlineConfig 100) transferBodies answeredStore = .ok response ∧
      (keyedRequest.run (offlineConfig 100) transferBodies answeredStore).db =
        answeredStore.db := by
  have hrun : Run (crash (offlineConfig 100) transferBodies signedPayments) anyOp Store.empty
      killedStore := Run.foldl _
  have hafter : Run (crash (offlineConfig 100) transferBodies signedPayments) anyOp
      (keyedRequest.run (offlineConfig 100) transferBodies killedStore) answeredStore := Run.foldl _
  have hstatus : (keyedRequest.response (offlineConfig 100) transferBodies killedStore).map
      Response.status = .ok 201 := by decide +kernel
  cases hresponse : keyedRequest.response (offlineConfig 100) transferBodies killedStore with
  | error e =>
    rw [hresponse] at hstatus
    cases hstatus
  | ok response =>
    rw [hresponse] at hstatus
    have h201 : response.status = 201 := Except.ok.inj hstatus
    exact ⟨response, h201, answered_alike hrun rfl (by decide) hresponse (by rw [h201]; decide)
      hafter rfl rfl⟩

/-- **No answer.**  A row that a killed process has left without a response is never freed: every
later request with its key is refused, and changes nothing, wherever it is killed itself. -/
theorem stuck_for_ever {r : HttpRequest} (h : Run (crash cfg web pay) C Store.empty s)
    (hk : k ∈ s.db.keys) (hne : k.key ≠ "") (hopen : k.responseBody = none)
    (hafter : Run (crash cfg web pay) C s s') (hkey : r.key = some k.key) :
    (∀ n, ((Entry.post r).killed cfg web pay n s').db = s'.db) ∧
      400 ≤ httpStatus (r.response cfg web s') ∧
      (r.requestHash web = k.requestHash →
        r.response cfg web s' = .ok (conflict "Une requête avec cette clé est déjà en cours")) := by
  obtain ⟨hs', hk'⟩ := kept_of_crashes (attended_of_run h) hafter hk hne
  have hfound : s'.db.keys.find? (fun x => x.key = k.key) = some k :=
    find?_of_key hs'.table.unique hk'
  refine ⟨fun n => ?_, ?_, fun hhash => ?_⟩
  · have hsame : (Entry.program cfg web pay (.post r)).Throughout (Conn.exec cfg)
        (fun d => d.store.db = s'.db) ⟨s', Session.fresh⟩ :=
      (taken_throughout web hkey hne ⟨k, hk', rfl⟩).map
    exact Program.throughout_iff_killed.1 hsame n
  · unfold HttpRequest.response
    by_cases hfits : fitsIn 255 k.key = true ∧ fitsIn 64 (r.requestHash web) = true
    · rw [run_handle_taken hkey hne hfits hfound]
      have hcases := duplicateResponse_cases s'.db k.key (r.requestHash web)
      rw [hfound] at hcases
      rcases hcases with hstored | ⟨-, _, hconflict⟩
      · obtain ⟨x, hx, hxk, -, hbody⟩ := hs'.table.storedResponse_iff.1 hstored
        obtain rfl : x = k := eq_of_key_eq hs'.table.unique hx hk' hxk
        rw [hopen] at hbody
        cases hbody
      · rw [hconflict]
        exact (by decide : 400 ≤ 409)
    · rw [run_handle_wide hkey hne hfits]
      exact httpStatus_error _
  · have hfits := hs'.table.fits k hk'
    rw [← hhash] at hfits
    unfold HttpRequest.response
    rw [run_handle_taken hkey hne hfits hfound]
    simp [duplicateResponse, hhash, hopen]

/-- The transfer has been killed before it has moved anything. -/
def stuckStore : Store :=
  (killedCommands ++ [(Entry.post keyedRequest, 5)]).foldl
    (fun s x => crash (offlineConfig 100) transferBodies signedPayments x s) Store.empty

/-- It is never carried out. -/
theorem stuck_transfer :
    stuckStore.db.books.read 0 = 50 ∧
      keyedRequest.response (offlineConfig 100) transferBodies stuckStore =
        .ok (conflict "Une requête avec cette clé est déjà en cours") := by
  have hrun : Run (crash (offlineConfig 100) transferBodies signedPayments) anyOp Store.empty
      stuckStore := Run.foldl _
  have hrow : (⟨8, "k", transferBodies.sha256 "", none, none⟩ : IdempotencyKey) ∈
      stuckStore.db.keys := by decide +kernel
  exact ⟨by decide +kernel,
    (stuck_for_ever hrun hrow (by decide) rfl .start rfl).2.2 rfl⟩

/-! ## At most once -/

/-- How often the requests with the key have changed the books. -/
def moves (cfg : Config) (web : Web) (pay : Payments) (key : String) :
    List (Entry × ℕ) → Store → ℕ
  | [], _ => 0
  | x :: xs, s =>
      (if x.1.carries key = true ∧ (crash cfg web pay x s).db.books ≠ s.db.books then 1 else 0) +
        moves cfg web pay key xs (crash cfg web pay x s)

/-- With the key taken, they change them no more. -/
theorem moves_taken (hne : key ≠ "") (xs : List (Entry × ℕ)) (hs : s.Attended cfg)
    (h : Taken key s.db.keys) : moves cfg web pay key xs s = 0 := by
  induction xs generalizing s with
  | nil => rfl
  | cons x xs ih =>
    obtain ⟨e, n⟩ := x
    obtain ⟨k, hk, rfl⟩ := h
    have hkept := hs.killed_kept web pay n e hk hne
    have hattended : (crash cfg web pay (e, n) s).Attended cfg := hs.killed n e
    have hlater := ih hattended ⟨k, hkept, rfl⟩
    have hidle : ¬ (e.carries k.key = true ∧
        (crash cfg web pay (e, n) s).db.books ≠ s.db.books) := by
      rintro ⟨he, hmoved⟩
      cases e with
      | post r =>
        have hsame : (Entry.program cfg web pay (.post r)).Throughout (Conn.exec cfg)
            (fun d => d.store.db = s.db) ⟨s, Session.fresh⟩ :=
          (taken_throughout web (of_decide_eq_true he) hne ⟨k, hk, rfl⟩).map
        have hdb := Program.throughout_iff_killed.1 hsame n
        exact hmoved (congrArg Database.books hdb)
      | _ => cases he
    rw [moves, if_neg hidle, Nat.zero_add]
    exact hlater

/-- **At most once.**  However often requests with one key are sent, among whatever else is asked
of the application, and wherever the processes are killed, they change the books at most once, as
long as the names of the channels fit their column.  The database and the cache answer every
statement until then: in `paid_twice` one fails after the commit, and the key is free again. -/
theorem moved_once (hnamed : cfg.Named) (hne : key ≠ "") (xs : List (Entry × ℕ)) :
    moves cfg web pay key xs Store.empty ≤ 1 := by
  suffices h : ∀ s : Store, s.Attended cfg → moves cfg web pay key xs s ≤ 1 from
    h _ Store.attended_empty
  induction xs with
  | nil => exact fun _ _ => Nat.zero_le 1
  | cons x xs ih =>
    intro s hs
    obtain ⟨e, n⟩ := x
    have hlater : (crash cfg web pay (e, n) s).Attended cfg := hs.killed n e
    rw [moves]
    split
    · rename_i hmoved
      obtain ⟨he, hmoved⟩ := hmoved
      cases e with
      | post r =>
        have hown : (Entry.program cfg web pay (.post r)).Throughout (Conn.exec cfg)
            (fun d => d.store.db.books = s.db.books ∨ Taken key d.store.db.keys)
            ⟨s, Session.fresh⟩ :=
          (claimed_throughout hs hnamed web (of_decide_eq_true he) hne).map
        rcases Program.throughout_iff_killed.1 hown n with hsame | htaken
        · exact absurd hsame hmoved
        · rw [moves_taken hne xs hlater htaken]
      | _ => cases he
    · rw [Nat.zero_add]
      exact ih _ hlater

/-- The first attempt is killed after its commit, and so are the others. -/
theorem moved_by_attempts :
    let xs := killedCommands ++ [(Entry.post keyedRequest, 20), (.post keyedRequest, 40),
      (.post keyedRequest, 40)]
    moves (offlineConfig 100) transferBodies signedPayments "k" xs Store.empty = 1 ∧
      moves (offlineConfig 100) transferBodies signedPayments "k" xs Store.empty ≤ 1 := by
  have hnamed : (offlineConfig 100).Named := fun _ hmem => by cases hmem
  exact ⟨by decide +kernel, moved_once hnamed (by decide) _⟩

end WalletLedger
