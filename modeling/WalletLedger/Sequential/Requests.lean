import WalletLedger.Operations.Keys
import WalletLedger.Sequential.Runs

/-!
# Requests, one after the other

The decorated endpoints share one table of keys, and a row of it carries the digest of the
body, not the endpoint or its path.

* `Visit` — a request to a decorated endpoint, or any other operation.
* `HttpRequest.Replays` — the request is answered from a stored response.
* `Stored` — every stored response was the answer of a request with the same key
  and the same digest; `stored_of_visits`: after any sequence of visits.
* `replayed_response` — the result; `other_transaction_answered` is a commit answered with
  the response of another.
-/

namespace WalletLedger

variable {cfg : Config} {web : Web} {s : Store}

/-- A request to a decorated endpoint, or an operation that is not decorated. -/
inductive Visit where
  | request (r : HttpRequest)
  | operation (op : Operation)

namespace HttpRequest

/-- The store after the request. -/
def run (cfg : Config) (web : Web) (r : HttpRequest) (s : Store) : Store :=
  (runOn cfg (r.handle cfg web) ⟨s, Session.fresh⟩).2.store

/-- What the client receives: a response, or an exception for the error handlers. -/
def response (cfg : Config) (web : Web) (r : HttpRequest) (s : Store) : Except Exn Response :=
  (runOn cfg (r.handle cfg web) ⟨s, Session.fresh⟩).1

/-- The request is answered from a stored response. -/
def Replays (web : Web) (r : HttpRequest) (s : Store) (response : Response) : Prop :=
  ∃ key, r.key = some key ∧ key ≠ "" ∧
    s.db.storedResponse key (r.requestHash web) = some response

end HttpRequest

def Visit.run (cfg : Config) (web : Web) : Visit → Store → Store
  | .request r, s => r.run cfg web s
  | .operation op, s => op.run cfg s

/-- The visits of the list, in order. -/
def visitAll (cfg : Config) (web : Web) (visits : List Visit) (s : Store) : Store :=
  visits.foldl (fun s visit => visit.run cfg web s) s

/-- The request ran its view and answered with this response. -/
def HttpRequest.Produces (cfg : Config) (web : Web) (r : HttpRequest) (s : Store)
    (response : Response) : Prop :=
  r.response cfg web s = .ok response ∧ ∀ other, ¬ r.Replays web s other

/-- One of the visits was a request with this key and this digest that produced the response. -/
def Produced (cfg : Config) (web : Web) (visits : List Visit) (key requestHash : String)
    (response : Response) : Prop :=
  ∃ before q after, visits = before ++ .request q :: after ∧ q.key = some key ∧
    q.requestHash web = requestHash ∧
    q.Produces cfg web (visitAll cfg web before Store.empty) response

/-- What is stored after the visits has been produced by one of them. -/
structure Stored (cfg : Config) (web : Web) (visits : List Visit) (s : Store) : Prop where
  table : KeyTable s.db.keys s.seqs
  produced : ∀ k ∈ s.db.keys, ∀ body, k.responseBody = some body →
    Produced cfg web visits k.key k.requestHash ⟨k.responseStatus.getD 200, body⟩

variable {visits : List Visit} {key requestHash : String} {response : Response}

theorem Produced.concat (h : Produced cfg web visits key requestHash response) (visit : Visit) :
    Produced cfg web (visits ++ [visit]) key requestHash response := by
  obtain ⟨before, q, after, rfl, hq⟩ := h
  exact ⟨before, q, after ++ [visit], by simp, hq⟩

/-- A visit that leaves the keys alone. -/
theorem Stored.kept (h : Stored cfg web visits s) {s' : Store} (hkeys : s'.db.keys = s.db.keys)
    (hseqs : s.seqs.LE s'.seqs) (visit : Visit) : Stored cfg web (visits ++ [visit]) s' where
  table := hkeys ▸ h.table.mono hseqs.nextId
  produced k hk body hb := (h.produced k (hkeys ▸ hk) body hb).concat visit

theorem storedResponse_of_absent (h : ∀ x ∈ s.db.keys, x.key ≠ key) :
    s.db.storedResponse key requestHash = none := by
  unfold Database.storedResponse
  rw [List.find?_eq_none.2 fun x hx => by simpa using h x hx]
  rfl

/-- A request leaves the table as it is, or adds what it produces. -/
theorem Stored.request (h : Stored cfg web visits s) (hs : s = visitAll cfg web visits Store.empty)
    (r : HttpRequest) : Stored cfg web (visits ++ [.request r]) (r.run cfg web s) := by
  have hseqs : s.seqs.LE (r.run cfg web s).seqs :=
    Conn.seqs_run cfg (r.handle cfg web) ⟨s, Session.fresh⟩
  have hview : OffKeys (r.view cfg web) := offKeys_view web r
  cases hkey : r.key with
  | none =>
    have hhandle : r.handle cfg web = r.view cfg web := by
      unfold HttpRequest.handle idempotent
      rw [hkey]
    refine h.kept ?_ hseqs _
    show (runOn cfg (r.handle cfg web) _).2.store.db.keys = _
    rw [hhandle]
    exact (hview.run cfg (c := ⟨s, Session.fresh⟩) (Session.offKeys_nil false)).2
  | some key =>
    have hhandle : r.handle cfg web =
        idempotent (some key) (r.requestHash web) (r.view cfg web) := by
      unfold HttpRequest.handle
      rw [hkey]
    have hcases := keys_idempotent cfg key (r.requestHash web)
      hview h.table
    rw [← hhandle] at hcases
    rcases hcases with hkept | ⟨-, hfits, habsent, k, hkeys, hid, hlt, rfl, hhash, hbody⟩
    · exact h.kept hkept hseqs _
    have hkeys : (r.run cfg web s).db.keys = s.db.keys ++ [k] := hkeys
    refine ⟨hkeys ▸ h.table.concat hid habsent (hhash ▸ hfits) hlt, fun x hx body hb => ?_⟩
    rw [hkeys] at hx
    rcases List.mem_append.1 hx with hx | hx
    · exact (h.produced x hx body hb).concat _
    · obtain rfl := List.mem_singleton.1 hx
      refine ⟨visits, r, [], rfl, hkey, hhash.symm, ?_⟩
      rw [← hs]
      refine ⟨hbody body hb, fun other => ?_⟩
      rintro ⟨key, hk, -, hstored⟩
      obtain rfl : x.key = key := Option.some.inj (hkey.symm.trans hk)
      rw [storedResponse_of_absent habsent] at hstored
      cases hstored

theorem Stored.operation (h : Stored cfg web visits s) (op : Operation) :
    Stored cfg web (visits ++ [.operation op]) (op.run cfg s) :=
  h.kept (op.offKeys.run cfg (c := ⟨s, Session.fresh⟩) (Session.offKeys_nil false)).2
    (Conn.seqs_run cfg (op.program cfg) ⟨s, Session.fresh⟩) _

theorem visitAll_concat (visits : List Visit) (visit : Visit) :
    visitAll cfg web (visits ++ [visit]) s = visit.run cfg web (visitAll cfg web visits s) := by
  unfold visitAll
  rw [List.foldl_append]
  rfl

theorem stored_of_visits (cfg : Config) (web : Web) (visits : List Visit) :
    Stored cfg web visits (visitAll cfg web visits Store.empty) := by
  induction visits using List.reverseRecOn with
  | nil => exact ⟨keyTable_nil _, by simp [visitAll, Store.empty, Database.empty]⟩
  | append_singleton visits visit ih =>
    rw [visitAll_concat]
    cases visit with
    | request r => exact ih.request rfl r
    | operation op => exact ih.operation op

/-! ## Which request a response answers -/

/-- A request is answered from what an earlier request with the same key and digest produced. -/
theorem HttpRequest.Replays.produced {r : HttpRequest} (h : Stored cfg web visits s)
    (hr : r.Replays web s response) :
    ∃ key, r.key = some key ∧ Produced cfg web visits key (r.requestHash web) response := by
  obtain ⟨key, hkey, -, hstored⟩ := hr
  unfold Database.storedResponse at hstored
  cases hfound : s.db.keys.find? fun k => decide (k.key = key) with
  | none =>
    rw [hfound] at hstored
    cases hstored
  | some k =>
    rw [hfound, Option.bind_some] at hstored
    split at hstored
    · rename_i hhash
      obtain ⟨body, hbody, rfl⟩ := Option.map_eq_some_iff.1 hstored
      obtain rfl : k.key = key := by simpa using List.find?_some hfound
      have hproduced := h.produced k (List.mem_of_find?_eq_some hfound) body hbody
      exact ⟨k.key, hkey, hhash ▸ hproduced⟩
    · cases hstored

/-- The response is what the client then receives. -/
theorem HttpRequest.Replays.response_eq {r : HttpRequest} (h : KeyTable s.db.keys s.seqs)
    (hr : r.Replays web s response) : r.response cfg web s = .ok response := by
  obtain ⟨key, hkey, hne, hstored⟩ := hr
  unfold HttpRequest.response HttpRequest.handle
  rw [hkey]
  exact (idempotent_replays hne h hstored).1

/-- Two requests with one key and one digest are the same request. -/
def HttpRequest.Agrees (web : Web) (q r : HttpRequest) : Prop :=
  q.key = r.key → q.requestHash web = r.requestHash web →
    q.endpoint = r.endpoint ∧ q.body = r.body

/-- **Stored responses.**  In any sequence of visits in which requests with the same key and
the same digest of their bodies are to the same endpoint, with the same path parameters and
body, a request that is answered from a stored response receives what an earlier request with
that key, endpoint and body produced. -/
theorem replayed_response (cfg : Config) (web : Web) (visits : List Visit)
    (h : ∀ q r, .request q ∈ visits → .request r ∈ visits → q.Agrees web r) :
    ∀ before r after, visits = before ++ .request r :: after →
      ∀ response, r.Replays web (visitAll cfg web before Store.empty) response →
        r.response cfg web (visitAll cfg web before Store.empty) = .ok response ∧
        ∃ earlier q between, before = earlier ++ .request q :: between ∧ q.key = r.key ∧
          q.endpoint = r.endpoint ∧ q.body = r.body ∧
          q.Produces cfg web (visitAll cfg web earlier Store.empty) response := by
  intro before r after hvisits response hreplays
  have hstored := stored_of_visits cfg web before
  obtain ⟨key, hkey, earlier, q, between, hbefore, hq, hhash, hproduces⟩ :=
    hreplays.produced hstored
  have hmem : .request q ∈ visits := by simp [hvisits, hbefore]
  obtain ⟨hendpoint, hbody⟩ := h q r hmem (by simp [hvisits]) (hq.trans hkey.symm) hhash
  exact ⟨hreplays.response_eq hstored.table, earlier, q, between, hbefore, hq.trans hkey.symm,
    hendpoint, hbody, hproduces⟩

/-- Requests without a body: no schema loads it, and this is its digest. -/
def emptyBodies : Web :=
  { transferSchema := fun _ => none
    depositSchema := fun _ => none
    sha256 := fun _ => "e3b0c44298fc1c149afbf4c8996fb92427ae41e4649b934ca495991b7852b855" }

/-- The commit of a transfer, with the key `k`. -/
def commitRequest (transactionId : Id) : HttpRequest :=
  { endpoint := .commitTransfer transactionId
    body := ""
    key := some "k"
    correlationId := none
    rates := [] }

/-- Alice has reserved two transfers, 6 and 8, and the first is committed. -/
def firstCommitted : List Visit :=
  [.operation (.createAccount "alice" "EUR"), .operation (.createAccount "bob" "EUR"),
    .operation (.initiateDeposit 0 100 "stripe" ⟨none, none⟩ (some "c1")),
    .operation (.settle "2" none none), .operation (.initiate 0 1 10 (some "c2")),
    .operation (.initiate 0 1 20 (some "c3")), .request (commitRequest 6)]

/-- The response of the first commit. -/
def firstResponse : Response :=
  ⟨200, [("transaction_id", .id 6), ("type", .text "TRANSFER"), ("status", .text "SUCCESS"),
    ("amount", .text "10.00000000"), ("currency", .text "EUR"), ("correlation_id", .text "c2")]⟩

theorem firstResponse_stored :
    (visitAll (offlineConfig 100) emptyBodies firstCommitted Store.empty).db.storedResponse "k"
      (emptyBodies.sha256 "") = some firstResponse := by decide +kernel

/-- The same commit again receives the response of the first. -/
theorem commit_replayed :
    let s := visitAll (offlineConfig 100) emptyBodies firstCommitted Store.empty
    (commitRequest 6).response (offlineConfig 100) emptyBodies s = .ok firstResponse ∧
      ∃ earlier q between, firstCommitted = earlier ++ .request q :: between ∧
        q.endpoint = .commitTransfer 6 := by
  have hagrees : ∀ q r, .request q ∈ firstCommitted ++ [.request (commitRequest 6)] →
      .request r ∈ firstCommitted ++ [.request (commitRequest 6)] → q.Agrees emptyBodies r := by
    intro q r hq hr
    simp only [firstCommitted, List.cons_append, List.nil_append, List.mem_cons, List.not_mem_nil,
      or_false, reduceCtorEq, false_or, or_self, Visit.request.injEq] at hq hr
    rw [hq, hr]
    exact fun _ _ => ⟨rfl, rfl⟩
  obtain ⟨hresponse, earlier, q, between, hbefore, -, hendpoint, -⟩ :=
    replayed_response (offlineConfig 100) emptyBodies _ hagrees firstCommitted (commitRequest 6) []
      rfl firstResponse ⟨"k", rfl, by decide, firstResponse_stored⟩
  exact ⟨hresponse, earlier, q, between, hbefore, hendpoint⟩

/-- The commit of the other transfer receives it too, and is not carried out. -/
theorem other_transaction_answered :
    let s := visitAll (offlineConfig 100) emptyBodies firstCommitted Store.empty
    let r := commitRequest 8
    r.Replays emptyBodies s firstResponse ∧
      r.response (offlineConfig 100) emptyBodies s = .ok firstResponse ∧
      (∀ q, .request q ∈ firstCommitted → q.endpoint ≠ r.endpoint) ∧
      ∃ t ∈ (r.run (offlineConfig 100) emptyBodies s).db.books.transactions,
        t.id = 8 ∧ t.status = .pending := by
  refine ⟨⟨"k", rfl, by decide, firstResponse_stored⟩, by decide +kernel, fun q hq => ?_,
    by decide +kernel⟩
  simp only [firstCommitted, List.mem_cons, List.not_mem_nil, or_false, reduceCtorEq, false_or,
    Visit.request.injEq] at hq
  rw [hq]
  decide

end WalletLedger
