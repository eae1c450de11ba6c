import WalletLedger.Operations.Views
import WalletLedger.Operations.Isolation

/-!
# The table of idempotency keys

What one decorated request does to the table of keys, run alone.

* `OffKeys` — programs that leave the table alone: the views, and the operations of the
  services.
* `KeyTable` — unique keys, and identifiers below the generator; `KeyTable.exec`: every
  statement keeps it.
* `run_claimKey_wide`, `run_claimKey_taken`, `run_claimKey_free` — what a request finds.
* `Database.storedResponse` — the response it answers with, with `idempotent_replays`.
* `keys_idempotent` — the table afterwards: as it was, or with one row more.
-/

namespace WalletLedger

variable {cfg : Config} {α : Type} {c : Conn} {s : Store}

/-! ## Programs beside the keys -/

/-- The request writes no idempotency key. -/
def Request.offKeys : Request → Bool
  | .mutate m => !m.onKeys
  | _ => true

/-- Every request of the program leaves the keys alone. -/
def OffKeys (p : App α) : Prop := p.All fun r => r.offKeys = true

theorem offKeys_view (web : Web) (r : HttpRequest) : OffKeys (r.view cfg web) :=
  (view_requests web r).mono fun q hq => by
    cases q <;> first | exact hq | rfl

theorem Operation.offKeys (op : Operation) : OffKeys (op.program cfg) := by
  have h : Ordinary fun r : Request => r.offKeys = true :=
    ⟨fun _ => rfl, fun m hm => by simp [Request.offKeys, hm], rfl⟩
  exact h.operation rfl (fun _ => rfl) rfl op

/-- The session has written no idempotency key. -/
def Session.OffKeys (s : Session) : Prop := ∀ w ∈ s.writes, w.touchesKeys = false

theorem Session.offKeys_nil (failed : Bool) : Session.OffKeys ⟨[], failed⟩ := by
  intro w hw
  cases hw

theorem Session.OffKeys.view (h : c.session.OffKeys) : c.view.keys = c.store.db.keys :=
  replay_keys_of_forall h _

theorem Session.OffKeys.exec (cfg : Config) (h : c.session.OffKeys) {r : Request}
    (hr : r.offKeys = true) :
    (Conn.exec cfg r c).2.session.OffKeys ∧
      (Conn.exec cfg r c).2.store.db.keys = c.store.db.keys := by
  refine ⟨Conn.writes_exec (fun m s db v w hm hexec => ?_) h, Conn.db_exec r h.view⟩
  subst hm
  exact Mutation.touchesKeys_exec (by simpa [Request.offKeys] using hr) hexec

/-- Such a program leaves the table alone. -/
theorem OffKeys.run (cfg : Config) {p : App α} (hp : OffKeys p) (hc : c.session.OffKeys) :
    (runOn cfg p c).2.session.OffKeys ∧ (runOn cfg p c).2.store.db.keys = c.store.db.keys := by
  induction p generalizing c with
  | ret a => exact ⟨hc, rfl⟩
  | raise e => exact ⟨hc, rfl⟩
  | call r k ih =>
    obtain ⟨hsession, hkeys⟩ := hc.exec cfg hp.1
    obtain ⟨hsession', hkeys'⟩ := ih _ (hp.2 _) hsession
    exact ⟨hsession', hkeys'.trans hkeys⟩

/-- The generators only go up. -/
theorem Conn.seqs_run (cfg : Config) (p : App α) (c : Conn) :
    c.store.seqs.LE (runOn cfg p c).2.store.seqs := by
  induction p generalizing c with
  | ret a => exact ⟨le_rfl, le_rfl⟩
  | raise e => exact ⟨le_rfl, le_rfl⟩
  | call r k ih =>
    have hstep := Conn.seqs_exec cfg r c
    have hrest := ih (Conn.exec cfg r c).1 (Conn.exec cfg r c).2
    exact ⟨hstep.nextId.trans hrest.nextId, hstep.nextSeq.trans hrest.nextSeq⟩

/-! ## The table -/

/-- What the table guarantees by itself. -/
structure KeyTable (keys : List IdempotencyKey) (s : Sequences) : Prop where
  unique : (keys.map IdempotencyKey.key).Nodup
  ids : (keys.map IdempotencyKey.id).Nodup
  ids_lt : ∀ k ∈ keys, k.id < s.nextId
  fits : ∀ k ∈ keys, fitsIn 255 k.key = true ∧ fitsIn 64 k.requestHash = true

theorem keyTable_nil (s : Sequences) : KeyTable [] s := ⟨.nil, .nil, by simp, by simp⟩

namespace KeyTable

variable {keys : List IdempotencyKey} {t t' : Sequences}

theorem mono (h : KeyTable keys t) (hle : t.nextId ≤ t'.nextId) : KeyTable keys t' :=
  { h with ids_lt := fun k hk => lt_of_lt_of_le (h.ids_lt k hk) hle }

/-- A new row. -/
theorem concat (h : KeyTable keys t) {k : IdempotencyKey} (hid : k.id = t.nextId)
    (hkey : ∀ x ∈ keys, x.key ≠ k.key) (hfits : fitsIn 255 k.key = true ∧
      fitsIn 64 k.requestHash = true) (hlt : t.nextId < t'.nextId) : KeyTable (keys ++ [k]) t' where
  unique := nodup_key_concat h.unique hkey
  ids := nodup_key_concat h.ids fun x hx => hid ▸ (h.ids_lt x hx).ne
  ids_lt x hx := by
    rcases List.mem_append.1 hx with hx | hx
    · exact (h.ids_lt x hx).trans hlt
    · rw [List.mem_singleton.1 hx, hid]
      exact hlt
  fits x hx := by
    rcases List.mem_append.1 hx with hx | hx
    · exact h.fits x hx
    · rwa [List.mem_singleton.1 hx]

theorem filter (h : KeyTable keys t) (p : IdempotencyKey → Bool) : KeyTable (keys.filter p) t where
  unique := h.unique.sublist (List.filter_sublist.map _)
  ids := h.ids.sublist (List.filter_sublist.map _)
  ids_lt k hk := h.ids_lt k (List.mem_of_mem_filter hk)
  fits k hk := h.fits k (List.mem_of_mem_filter hk)

/-- A response for a row. -/
theorem modify (h : KeyTable keys t) {id : Id} {g : IdempotencyKey → IdempotencyKey}
    (hg : ∀ x, (g x).id = x.id ∧ (g x).key = x.key ∧ (g x).requestHash = x.requestHash) :
    KeyTable (WalletLedger.modify IdempotencyKey.id id g keys) t where
  unique := by
    rw [map_modify fun x => (hg x).2.1]
    exact h.unique
  ids := by
    rw [map_modify fun x => (hg x).1]
    exact h.ids
  ids_lt y hy := by
    obtain ⟨x, hx, rfl⟩ := mem_modify.1 hy
    split
    · exact (hg x).1.symm ▸ h.ids_lt x hx
    · exact h.ids_lt x hx
  fits y hy := by
    obtain ⟨x, hx, rfl⟩ := mem_modify.1 hy
    split
    · rw [(hg x).2.1, (hg x).2.2]
      exact h.fits x hx
    · exact h.fits x hx

/-- Every statement keeps the table. -/
theorem exec {cfg : Config} {m : Mutation} {s : Sequences} {db : Database} {v : m.Result}
    {w : Write} (h : KeyTable db.keys s) (hm : m.exec cfg s db = .ok (v, w)) :
    KeyTable (w.apply db).keys (m.advance s) := by
  have hle := (m.le_advance s).nextId
  have hbeside : m.onKeys = false → KeyTable (w.apply db).keys (m.advance s) := fun hm' => by
    show KeyTable (w.applyKeys db.keys) _
    rw [Write.applyKeys_of_not (Mutation.touchesKeys_exec hm' hm)]
    exact h.mono hle
  cases m with
  | insertKey key requestHash =>
    obtain ⟨hfits, habsent, rfl⟩ := Mutation.exec_insertKey hm
    exact h.concat rfl habsent hfits (Nat.lt_succ_self _)
  | completeKey id status body =>
    dsimp only [Mutation.exec] at hm
    split at hm <;> cases hm
    exact (h.mono hle).modify fun _ => ⟨rfl, rfl, rfl⟩
  | deleteKey id =>
    cases hm
    exact (h.mono hle).filter _
  | _ => exact hbeside rfl

end KeyTable

/-! ## What a request finds -/

/-- What `_resolve_duplicate` answers, by the row it finds. -/
def duplicateResponse (requestHash : String) : Option IdempotencyKey → Response
  | none => conflict "Clé d'idempotence non résolue"
  | some existing =>
      if existing.requestHash ≠ requestHash then
        conflict "Clé d'idempotence réutilisée avec un corps différent"
      else
        match existing.responseBody with
        | none => conflict "Une requête avec cette clé est déjà en cours"
        | some body => ⟨existing.responseStatus.getD 200, body⟩

/-- The response stored with the key, for requests with this hash. -/
def Database.storedResponse (db : Database) (key requestHash : String) : Option Response :=
  (db.keys.find? fun k => k.key = key).bind fun k =>
    if k.requestHash = requestHash then
      k.responseBody.map fun body => ⟨k.responseStatus.getD 200, body⟩
    else none

theorem resolveDuplicate_eq (key requestHash : String) :
    resolveDuplicate key requestHash = ask (.select (.idempotencyKey key)) >>= fun existing =>
      .ret (duplicateResponse requestHash existing) := by
  unfold resolveDuplicate
  congr 1
  funext existing
  unfold duplicateResponse
  cases existing with
  | none => rfl
  | some existing =>
    dsimp only
    split
    · rfl
    cases existing.responseBody <;> rfl

/-- A stored response is that of the row with the key. -/
theorem KeyTable.storedResponse_iff {db : Database} {t : Sequences} {key requestHash : String}
    {response : Response} (h : KeyTable db.keys t) :
    db.storedResponse key requestHash = some response ↔
      ∃ k ∈ db.keys, k.key = key ∧ k.requestHash = requestHash ∧
        k.responseBody.map (fun body => ⟨k.responseStatus.getD 200, body⟩) = some response := by
  unfold Database.storedResponse
  rw [Option.bind_eq_some_iff]
  constructor
  · rintro ⟨k, hk, hresponse⟩
    split at hresponse
    · exact ⟨k, List.mem_of_find?_eq_some hk, by simpa using List.find?_some hk, ‹_›, hresponse⟩
    · cases hresponse
  · rintro ⟨k, hk, rfl, hhash, hresponse⟩
    exact ⟨k, find?_of_key h.unique hk, by rwa [if_pos hhash]⟩

/-- A duplicate is refused, unless the response is stored. -/
theorem duplicateResponse_cases (db : Database) (key requestHash : String) :
    db.storedResponse key requestHash =
        some (duplicateResponse requestHash (db.keys.find? fun k => k.key = key)) ∨
      db.storedResponse key requestHash = none ∧ ∃ message,
        duplicateResponse requestHash (db.keys.find? fun k => k.key = key) = conflict message := by
  unfold Database.storedResponse duplicateResponse
  cases db.keys.find? fun k => decide (k.key = key) with
  | none => exact .inr ⟨rfl, _, rfl⟩
  | some k =>
    dsimp only [Option.bind_some]
    by_cases hhash : k.requestHash = requestHash
    · rw [if_pos hhash, if_neg (not_not.2 hhash)]
      cases k.responseBody with
      | none => exact .inr ⟨rfl, _, rfl⟩
      | some body => exact .inl rfl
    · rw [if_neg hhash, if_pos hhash]
      exact .inr ⟨rfl, _, rfl⟩

/-- Once it is stored, it is what a duplicate is answered. -/
theorem duplicateResponse_of_stored {db : Database} {key requestHash : String} {response : Response}
    (h : db.storedResponse key requestHash = some response) :
    duplicateResponse requestHash (db.keys.find? fun k => k.key = key) = response := by
  rcases duplicateResponse_cases db key requestHash with h' | ⟨h', -⟩
  · exact Option.some.inj (h'.symm.trans h)
  · cases h'.symm.trans h

/-- The row a claim inserts. -/
def claimedRow (id : Id) (key requestHash : String) : IdempotencyKey :=
  ⟨id, key, requestHash, none, none⟩

/-- The store with the claim in it. -/
def Store.claimed (s : Store) (key requestHash : String) : Store :=
  { s with
    db := { s.db with keys := s.db.keys ++ [claimedRow s.seqs.nextId key requestHash] }
    seqs := { s.seqs with nextId := s.seqs.nextId + 1 } }

/-- The store with an identifier drawn. -/
def Store.drawn (s : Store) : Store :=
  { s with seqs := { s.seqs with nextId := s.seqs.nextId + 1 } }

section claim

variable {key requestHash : String}

theorem run_resolveDuplicate (cfg : Config) (key requestHash : String) :
    runOn cfg (resolveDuplicate key requestHash) ⟨s, Session.fresh⟩ =
      (.ok (duplicateResponse requestHash (s.db.keys.find? fun k => k.key = key)),
        ⟨s, Session.fresh⟩) := by
  rw [resolveDuplicate_eq,
    run_ask_ok (v := s.db.keys.find? fun k => k.key = key) (d := ⟨s, Session.fresh⟩) rfl]
  rfl

/-- A key that is too wide. -/
theorem run_claimKey_wide (h : ¬ (fitsIn 255 key = true ∧ fitsIn 64 requestHash = true)) :
    runOn cfg (claimKey key requestHash) ⟨s, Session.fresh⟩ =
      (.error (.service .data), ⟨s.drawn, ⟨[], true⟩⟩) := by
  have hexec : (Mutation.insertKey key requestHash).exec cfg s.seqs s.db = .error .data := by
    dsimp only [Mutation.exec]
    rw [if_pos h]
  unfold claimKey
  rw [runOn, Program.run_attempt, ← runOn,
    run_ask_error (Conn.exec_refused (c := ⟨s, Session.fresh⟩) rfl hexec)]
  rfl

/-- A key that is taken. -/
theorem run_claimKey_taken (h : fitsIn 255 key = true ∧ fitsIn 64 requestHash = true)
    {k : IdempotencyKey} (hk : s.db.keys.find? (fun k => k.key = key) = some k) :
    runOn cfg (claimKey key requestHash) ⟨s, Session.fresh⟩ =
      (.ok (some (duplicateResponse requestHash (some k))), ⟨s.drawn, Session.fresh⟩) := by
  have hkey := List.find?_some hk
  have hany : s.db.keys.any (fun k => decide (k.key = key)) = true :=
    List.any_eq_true.2 ⟨k, List.mem_of_find?_eq_some hk, hkey⟩
  have hexec : (Mutation.insertKey key requestHash).exec cfg s.seqs s.db = .error .integrity := by
    dsimp only [Mutation.exec]
    rw [if_neg (not_not.2 h), if_pos hany]
  have hresolve := run_resolveDuplicate cfg (s := s.drawn) key requestHash
  have hfound : s.drawn.db.keys.find? (fun k => decide (k.key = key)) = some k := hk
  unfold claimKey
  rw [runOn, Program.run_attempt, ← runOn,
    run_ask_error (Conn.exec_refused (c := ⟨s, Session.fresh⟩) rfl hexec)]
  dsimp only
  rw [← runOn, run_ask_ok (d := ⟨s.drawn, Session.fresh⟩) rfl, runOn, Program.run_map, ← runOn,
    hresolve, hfound]
  rfl

/-- A key that is free. -/
theorem run_claimKey_free (h : fitsIn 255 key = true ∧ fitsIn 64 requestHash = true)
    (hk : s.db.keys.find? (fun k => k.key = key) = none) :
    runOn cfg (claimKey key requestHash) ⟨s, Session.fresh⟩ =
      (.ok none, ⟨s.claimed key requestHash, Session.fresh⟩) := by
  have hany : s.db.keys.any (fun k => decide (k.key = key)) ≠ true := fun hany => by
    obtain ⟨k, hmem, hkey⟩ := List.any_eq_true.1 hany
    exact List.find?_eq_none.1 hk k hmem hkey
  have hexec : (Mutation.insertKey key requestHash).exec cfg s.seqs s.db =
      .ok ((), .addKey (claimedRow s.seqs.nextId key requestHash)) := by
    dsimp only [Mutation.exec]
    rw [if_neg (not_not.2 h), if_neg hany]
    rfl
  unfold claimKey
  rw [runOn, Program.run_attempt, ← runOn,
    run_ask_ok (Conn.exec_goes (c := ⟨s, Session.fresh⟩) rfl hexec), run_ask_ok rfl]
  rfl

end claim

/-! ## What a request leaves -/

section leaves

variable {key requestHash : String} {k : IdempotencyKey}

/-- Freeing a key that carries no response deletes its row. -/
theorem run_releaseKey (cfg : Config) (hk : c.store.db.keys.find? (fun k => k.key = key) = some k)
    (hbody : k.responseBody = none) :
    (runOn cfg (releaseKey key) c).1 = .ok () ∧
      (runOn cfg (releaseKey key) c).2.store.db.keys =
        c.store.db.keys.filter fun x => x.id ≠ k.id := by
  have hopen : ¬ k.isCompleted = true := by simp [IdempotencyKey.isCompleted, hbody]
  unfold releaseKey
  rw [run_ask_ok (d := ⟨c.store, Session.fresh⟩) rfl,
    run_ask_ok (v := some k) (d := ⟨c.store, Session.fresh⟩)
      (congrArg (fun x => (Except.ok x, (⟨c.store, Session.fresh⟩ : Conn))) hk)]
  dsimp only
  rw [if_pos hopen, run_ask_ok (Conn.exec_goes (c := ⟨c.store, Session.fresh⟩) rfl rfl)]
  exact ⟨rfl, rfl⟩

/-- Storing the response completes the row, unless the session has failed. -/
theorem run_storeResponse (cfg : Config) (hc : c.session.OffKeys)
    (hk : c.store.db.keys.find? (fun k => k.key = key) = some k) (response : Response) :
    (runOn cfg (storeResponse key response) c).1 = .error (.service .pendingRollback) ∧
        (runOn cfg (storeResponse key response) c).2.store.db.keys = c.store.db.keys ∨
      (runOn cfg (storeResponse key response) c).1 = .ok () ∧
        (runOn cfg (storeResponse key response) c).2.store.db.keys =
          modify IdempotencyKey.id k.id (fun k =>
            { k with responseStatus := some response.status, responseBody := some response.body })
            c.store.db.keys := by
  cases hfailed : c.session.failed with
  | true =>
    left
    unfold storeResponse
    rw [run_ask_error (e := .pendingRollback) (d := c) (by rw [Conn.exec_select, hfailed]; rfl)]
    exact ⟨rfl, rfl⟩
  | false =>
    right
    have hview : c.view.keys.find? (fun k => decide (k.key = key)) = some k := by
      rw [hc.view, hk]
    have hany : c.view.keys.any (fun x => decide (x.id = k.id)) = true :=
      List.any_eq_true.2 ⟨k, List.mem_of_find?_eq_some hview, decide_eq_true rfl⟩
    have hexec : (Mutation.completeKey k.id response.status response.body).exec cfg c.store.seqs
        c.view = .ok ((), .completeKey k.id response.status response.body) := by
      dsimp only [Mutation.exec]
      rw [if_pos hany]
    have hselect : Conn.exec cfg (.select (.idempotencyKey key)) c = (.ok (some k), c) := by
      rw [Conn.exec_select, hfailed]
      exact congrArg (fun x => (Except.ok x, c)) hview
    unfold storeResponse
    rw [run_ask_ok hselect]
    show (runOn cfg (ask _ >>= _) c).1 = _ ∧ (runOn cfg (ask _ >>= _) c).2.store.db.keys = _
    rw [run_ask_ok (Conn.exec_goes hfailed hexec)]
    refine ⟨rfl, ?_⟩
    show (Conn.view _).keys = _
    rw [Conn.view_wrote]
    show modify _ _ _ c.view.keys = _
    rw [hc.view]

/-- What a request does once the key is its own. -/
def serveClaimed (key : String) (view : App Response) : App Response := do
  let response ← view.attempt fun e => do
    releaseKey key
    .raise e
  storeResponse key response
  return response

/-- What it does with the answer of `claimKey`. -/
def answerClaim (key : String) (view : App Response) : Option Response → App Response
  | some response => return response
  | none => serveClaimed key view

theorem idempotent_claims (hkey : key ≠ "") (view : App Response) :
    idempotent (some key) requestHash view = claimKey key requestHash >>= answerClaim key view := by
  unfold idempotent answerClaim
  dsimp only
  rw [if_neg hkey]
  rfl

theorem run_idempotent {view : App Response} (hkey : key ≠ "") {d : Conn}
    {replayed : Option Response} (h : runOn cfg (claimKey key requestHash) c = (.ok replayed, d)) :
    runOn cfg (idempotent (some key) requestHash view) c =
      runOn cfg (answerClaim key view replayed) d := by
  rw [idempotent_claims hkey, runOn, Program.run_bind, ← runOn, h]

theorem run_idempotent_error {view : App Response} (hkey : key ≠ "") {d : Conn} {e : Exn}
    (h : runOn cfg (claimKey key requestHash) c = (.error e, d)) :
    runOn cfg (idempotent (some key) requestHash view) c = (.error e, d) := by
  rw [idempotent_claims hkey, runOn, Program.run_bind, ← runOn, h]

theorem run_serveClaimed_raised {view : App Response} {e : Exn} {d : Conn}
    (h : runOn cfg view c = (.error e, d)) (hrelease : (runOn cfg (releaseKey key) d).1 = .ok ()) :
    runOn cfg (serveClaimed key view) c = (.error e, (runOn cfg (releaseKey key) d).2) := by
  unfold serveClaimed
  rw [runOn, Program.run_bind, Program.run_attempt, ← runOn, h]
  dsimp only
  rw [Program.run_bind, ← runOn]
  cases hr : runOn cfg (releaseKey key) d with
  | mk o d' =>
    rw [hr] at hrelease
    subst hrelease
    rfl

theorem run_serveClaimed_returned (key : String) {view : App Response} {response : Response}
    {d : Conn} (h : runOn cfg view c = (.ok response, d)) :
    runOn cfg (serveClaimed key view) c =
      ((runOn cfg (storeResponse key response) d).1.map fun _ => response,
        (runOn cfg (storeResponse key response) d).2) := by
  unfold serveClaimed
  rw [runOn, Program.run_bind, Program.run_attempt, ← runOn, h]
  dsimp only
  rw [Program.run_bind, ← runOn]
  cases runOn cfg (storeResponse key response) d with
  | mk o d' => cases o <;> rfl

/-- The table once the row is claimed. -/
theorem keys_serveClaimed (cfg : Config) {view : App Response} (hview : OffKeys view)
    {ks : List IdempotencyKey} (hs : s.db.keys = ks ++ [k]) (habsent : ∀ x ∈ ks, x.key ≠ k.key)
    (hids : ∀ x ∈ ks, x.id ≠ k.id) (hbody : k.responseBody = none) :
    let o := (runOn cfg (serveClaimed k.key view) ⟨s, Session.fresh⟩).1
    let s' := (runOn cfg (serveClaimed k.key view) ⟨s, Session.fresh⟩).2.store
    s'.db.keys = ks ∨ ∃ k', s'.db.keys = ks ++ [k'] ∧ k'.id = k.id ∧ k'.key = k.key ∧
      k'.requestHash = k.requestHash ∧
      ∀ body, k'.responseBody = some body → o = .ok ⟨k'.responseStatus.getD 200, body⟩ := by
  intro o s'
  obtain ⟨hoff, hview⟩ := hview.run cfg (c := ⟨s, Session.fresh⟩) (Session.offKeys_nil false)
  cases hrun : runOn cfg view ⟨s, Session.fresh⟩ with
  | mk x d =>
    rw [hrun] at hoff hview
    have hkeys : d.store.db.keys = ks ++ [k] := hview.trans hs
    have hfind : d.store.db.keys.find? (fun x => decide (x.key = k.key)) = some k := by
      rw [hkeys, List.find?_append, List.find?_eq_none.2 fun x hx => by simpa using habsent x hx]
      simp
    cases x with
    | error e =>
      obtain ⟨hok, hfreed⟩ := run_releaseKey cfg hfind hbody
      have hfree : (ks ++ [k]).filter (fun x => decide (x.id ≠ k.id)) = ks := by
        rw [List.filter_append, List.filter_eq_self.2 fun x hx => by simpa using hids x hx]
        simp
      left
      show (runOn cfg (serveClaimed _ _) _).2.store.db.keys = _
      rw [run_serveClaimed_raised hrun hok, hfreed, hkeys, hfree]
    | ok response =>
      right
      have hserved := run_serveClaimed_returned k.key hrun
      rcases run_storeResponse cfg hoff hfind response with ⟨herror, hsame⟩ | ⟨hok, hset⟩
      · refine ⟨k, ?_, rfl, rfl, rfl, fun body hb => ?_⟩
        · show (runOn cfg (serveClaimed _ _) _).2.store.db.keys = _
          rw [hserved, hsame, hkeys]
        · rw [hbody] at hb
          cases hb
      · refine ⟨{ k with responseStatus := some response.status
                         responseBody := some response.body }, ?_, rfl, rfl, rfl, fun body hb => ?_⟩
        · show (runOn cfg (serveClaimed _ _) _).2.store.db.keys = _
          rw [hserved, hset, hkeys, modify_append, modify_of_forall_ne hids]
          simp [modify]
        · show (runOn cfg (serveClaimed _ _) _).1 = _
          rw [hserved, hok]
          cases hb
          rfl

/-- The table after a request: as it was, or with the request's own row, which carries a
response only if the request has answered with it. -/
theorem keys_idempotent (cfg : Config) (key requestHash : String) {view : App Response}
    (hview : OffKeys view)
    (ht : KeyTable s.db.keys s.seqs) :
    let o := (runOn cfg (idempotent (some key) requestHash view) ⟨s, Session.fresh⟩).1
    let s' := (runOn cfg (idempotent (some key) requestHash view) ⟨s, Session.fresh⟩).2.store
    s'.db.keys = s.db.keys ∨
      key ≠ "" ∧ (fitsIn 255 key = true ∧ fitsIn 64 requestHash = true) ∧
        (∀ x ∈ s.db.keys, x.key ≠ key) ∧
        ∃ k, s'.db.keys = s.db.keys ++ [k] ∧ k.id = s.seqs.nextId ∧ s.seqs.nextId < s'.seqs.nextId ∧
          k.key = key ∧ k.requestHash = requestHash ∧
          ∀ body, k.responseBody = some body → o = .ok ⟨k.responseStatus.getD 200, body⟩ := by
  intro o s'
  by_cases hkey : key = ""
  · subst hkey
    exact .inl (hview.run cfg (c := ⟨s, Session.fresh⟩) (Session.offKeys_nil false)).2
  by_cases hfits : fitsIn 255 key = true ∧ fitsIn 64 requestHash = true
  swap
  · left
    show (runOn cfg (idempotent _ _ _) _).2.store.db.keys = _
    rw [run_idempotent_error hkey (run_claimKey_wide hfits)]
    rfl
  cases hfound : s.db.keys.find? fun k => decide (k.key = key) with
  | some k =>
    left
    show (runOn cfg (idempotent _ _ _) _).2.store.db.keys = _
    rw [run_idempotent hkey (run_claimKey_taken hfits hfound)]
    rfl
  | none =>
    have habsent : ∀ x ∈ s.db.keys, x.key ≠ key := fun x hx hxk =>
      List.find?_eq_none.1 hfound x hx (decide_eq_true hxk)
    have hserved : runOn cfg (idempotent (some key) requestHash view) ⟨s, Session.fresh⟩ =
        runOn cfg (serveClaimed key view) ⟨s.claimed key requestHash, Session.fresh⟩ :=
      run_idempotent hkey (run_claimKey_free hfits hfound)
    have hstore : s' = (runOn cfg (serveClaimed key view) ⟨s.claimed key requestHash,
        Session.fresh⟩).2.store := congrArg (fun x => x.2.store) hserved
    have hout : o = (runOn cfg (serveClaimed key view) ⟨s.claimed key requestHash,
        Session.fresh⟩).1 := congrArg Prod.fst hserved
    rcases keys_serveClaimed cfg (s := s.claimed key requestHash)
      (k := claimedRow s.seqs.nextId key requestHash) hview rfl habsent
      (fun x hx => (ht.ids_lt x hx).ne) rfl with hfreed | ⟨k, hkeys, hid, hk, hhash, hbody⟩
    · exact .inl (hstore ▸ hfreed)
    · refine .inr ⟨hkey, hfits, habsent, k, hstore ▸ hkeys, hid, ?_, hk, hhash, hout ▸ hbody⟩
      have hle := (Conn.seqs_run cfg (serveClaimed key view)
        ⟨s.claimed key requestHash, Session.fresh⟩).nextId
      rw [hstore]
      exact Nat.lt_of_succ_le hle

/-- A request with a stored response answers with it, and leaves the database as it is. -/
theorem idempotent_replays {view : App Response} (hkey : key ≠ "") (ht : KeyTable s.db.keys s.seqs)
    {response : Response} (h : s.db.storedResponse key requestHash = some response) :
    (runOn cfg (idempotent (some key) requestHash view) ⟨s, Session.fresh⟩).1 = .ok response ∧
      (runOn cfg (idempotent (some key) requestHash view) ⟨s, Session.fresh⟩).2.store.db =
        s.db := by
  obtain ⟨k, hk, hkeyed, hhash, -⟩ := ht.storedResponse_iff.1 h
  have hfits := ht.fits k hk
  rw [hkeyed, hhash] at hfits
  have hfound : s.db.keys.find? (fun x => x.key = key) = some k :=
    hkeyed ▸ find?_of_key ht.unique hk
  have hduplicate := duplicateResponse_of_stored h
  rw [hfound] at hduplicate
  rw [run_idempotent hkey (run_claimKey_taken hfits hfound)]
  exact ⟨congrArg Except.ok hduplicate, rfl⟩

end leaves

end WalletLedger
