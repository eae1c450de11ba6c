import WalletLedger.Sequential.Holdings
import WalletLedger.Sequential.Repeats

/-!
# Reservations come back

A transfer that waits has money set aside.  Whatever has been killed before, asking to fail every
transfer that waits gives all of it back, in any order and however often each is asked for.

* `HttpRequest.AsksFail` — a request to fail a transaction, without a key.
* `asksFail_released` — where the transaction waits, the request goes through.
* `Quieter` — what such a request does to the books: no balance moves, and nothing new waits.
* `released_at_last` — the result.
-/

namespace WalletLedger

variable {cfg : Config} {web : Web} {pay : Payments} {b b' b'' : Books} {s : Store}

/-- A request to fail a transaction, without a key. -/
structure HttpRequest.AsksFail (r : HttpRequest) : Prop where
  endpoint : ∃ id, r.endpoint = .failTransfer id
  unkeyed : r.key = none ∨ r.key = some ""

/-- Without a key, it is its view. -/
theorem HttpRequest.AsksFail.handle {r : HttpRequest} (hr : r.AsksFail) {id : Id}
    (hid : r.endpoint = .failTransfer id) : r.handle cfg web = failTransfer cfg id := by
  have hview : r.view cfg web = failTransfer cfg id := by
    unfold HttpRequest.view
    rw [hid]
  unfold HttpRequest.handle idempotent
  rcases hr.unkeyed with hkey | hkey
  · rw [hkey]
    exact hview
  · rw [hkey]
    exact hview

/-- Where the transaction waits, the request goes through. -/
theorem asksFail_released {r : HttpRequest} (hr : r.AsksFail) (hk : s.db.books.Keyed s.seqs)
    {t : Transaction} (ht : t ∈ s.db.books.transactions) (hp : t.status = .pending)
    (hid : r.endpoint = .failTransfer t.id) :
    httpStatus (r.response cfg web s) = 200 ∧
      (r.run cfg web s).db.books = s.db.books.released t.id := by
  have hopen : Conn.Open ⟨s, Session.fresh⟩ s.db.books s.db.books := Conn.open_fresh hk
  have hends : Ends cfg (r.handle cfg web) ⟨s, Session.fresh⟩ fun o d =>
      httpStatus o = 200 ∧ d.store.db.books = s.db.books.released t.id := by
    rw [hr.handle hid]
    refine ends_bind (ends_mono (fail_ends hopen ht hp) fun o d hd => ?_)
    cases o with
    | error e => cases hd.1
    | ok txn => exact ⟨rfl, hd.2⟩
  exact hends

/-- A request to fail a transaction releases one that waits, or changes nothing. -/
theorem asksFail_cases {r : HttpRequest} (hr : r.AsksFail) (hs : s.Restartable cfg) (web : Web) :
    (r.run cfg web s).db.books = s.db.books ∧
        (∀ t ∈ s.db.books.transactions, t.status = .pending → r.endpoint ≠ .failTransfer t.id) ∨
      ∃ t ∈ s.db.books.transactions, t.status = .pending ∧ r.endpoint = .failTransfer t.id ∧
        (r.run cfg web s).db.books = s.db.books.released t.id := by
  by_cases hwaits : ∃ t ∈ s.db.books.transactions,
      t.status = .pending ∧ r.endpoint = .failTransfer t.id
  · obtain ⟨t, ht, hp, hid⟩ := hwaits
    exact .inr ⟨t, ht, hp, hid, (asksFail_released hr hs.keyed ht hp hid).2⟩
  · refine .inl ⟨?_, fun t ht hp hid => hwaits ⟨t, ht, hp, hid⟩⟩
    have hlast : (r.run cfg web s).db.books = s.db.books ∨
        r.Effect cfg web s.db.books (r.run cfg web s).db.books :=
      (handle_throughout hs.keyed web r).last
    rcases hlast with hsame | ⟨op, hop, he⟩
    · exact hsame
    · -- its effect is the release of a transaction that waits
      obtain ⟨id, hid⟩ := hr.endpoint
      unfold HttpRequest.operation at hop
      rw [hid] at hop
      obtain rfl := (Option.some.inj hop).symm
      generalize (r.run cfg web s).db.books = b at he
      cases he with
      | fail t found pending =>
        obtain ⟨ht, htid⟩ := transaction_of_find found
        exact absurd ⟨t, ht, pending, by rw [hid, htid]⟩ hwaits

/-! ## What is released -/

/-- Releasing the funds settles nothing. -/
theorem Books.settled_released {seqs : Sequences} (hk : b.Keyed seqs) (id a : Id) :
    (b.released id).settled a = b.settled a := by
  have hentries : (b.released id).entries = _ := failed_entries hk id
  rw [settled, hentries, tally_map]
  refine tally_congr (fun e _ => ?_) fun e _ _ => ?_
  · by_cases hof : e.isOf id .pending = true
    · have hpend : e.status = .pending := (of_decide_eq_true hof).2
      simp [hof, hpend]
    · simp [hof]
  · split <;> rfl

/-- From `b` to `b'` no balance moves, and what waits has waited before. -/
structure Quieter (b b' : Books) : Prop where
  settled : ∀ a, b'.settled a = b.settled a
  balance : ∀ account, b'.balance account = b.balance account
  waits : ∀ t ∈ b'.transactions, t.status = .pending → t ∈ b.transactions

namespace Quieter

theorem refl (b : Books) : Quieter b b := ⟨fun _ => rfl, fun _ => rfl, fun _ ht _ => ht⟩

theorem trans (h : Quieter b b') (h' : Quieter b' b'') : Quieter b b'' where
  settled a := (h'.settled a).trans (h.settled a)
  balance account := (h'.balance account).trans (h.balance account)
  waits t ht hp := h.waits t (h'.waits t ht hp) hp

end Quieter

/-- A released transaction does not wait any more. -/
theorem Books.pending_released {id : Id} {t : Transaction}
    (ht : t ∈ (b.released id).transactions) (hp : t.status = .pending) :
    t ∈ b.transactions ∧ t.id ≠ id := by
  have hrows : (b.released id).transactions =
      modify Transaction.id id (fun x => { x with status := .failed }) b.transactions := by
    show modify _ _ _ _ = _
    rw [(setEntries_rest _ _ b).2]
  rw [hrows] at ht
  obtain ⟨x, hx, rfl⟩ := mem_modify.1 ht
  by_cases hid : x.id = id
  · rw [if_pos hid] at hp
    cases hp
  · rw [if_neg hid]
    exact ⟨hx, hid⟩

theorem Books.quieter_released {seqs : Sequences} (hk : b.Keyed seqs) (id : Id) :
    Quieter b (b.released id) where
  settled := settled_released hk id
  balance := balance_released hk id
  waits _ ht hp := (pending_released ht hp).1

/-- One request: the books are quieter, and the transaction does not wait. -/
theorem asksFail_quieter {r : HttpRequest} (hr : r.AsksFail) (hs : s.Restartable cfg) (web : Web) :
    Quieter s.db.books (r.run cfg web s).db.books ∧
      ∀ t ∈ (r.run cfg web s).db.books.transactions, t.status = .pending →
        r.endpoint ≠ .failTransfer t.id := by
  rcases asksFail_cases hr hs web with ⟨hsame, hnone⟩ | ⟨t, ht, hp, hid, hbooks⟩
  · rw [hsame]
    exact ⟨.refl _, hnone⟩
  · rw [hbooks]
    refine ⟨Books.quieter_released hs.keyed t.id, fun x hx hxp hxid => ?_⟩
    have hids : t.id = x.id := Endpoint.failTransfer.inj (hid.symm.trans hxid)
    exact (Books.pending_released hx hxp).2 hids.symm

/-! ## Every transfer that waits -/

theorem run_of_request (pay : Payments) (r : HttpRequest) (s : Store) :
    Run (crash cfg web pay) Entry.Exact s (r.run cfg web s) := by
  obtain ⟨n, hn⟩ := r.exists_killed cfg web pay s
  rw [← hn]
  exact .step (Entry.post r, n) .start trivial

/-- The requests, one after the other. -/
def serveAll (cfg : Config) (web : Web) (rs : List HttpRequest) (s : Store) : Store :=
  rs.foldl (fun s r => r.run cfg web s) s

theorem run_of_requests (pay : Payments) (rs : List HttpRequest) (s : Store) :
    Run (crash cfg web pay) Entry.Exact s (serveAll cfg web rs s) := by
  induction rs generalizing s with
  | nil => exact .start
  | cons r rs ih => exact (run_of_request pay r s).trans (ih _)

/-- Requests to fail transactions leave quieter books, and none of the transactions waits. -/
theorem serveAll_quieter {rs : List HttpRequest} (hrs : ∀ r ∈ rs, r.AsksFail)
    (hs : s.Restartable cfg) (pay : Payments) :
    Quieter s.db.books (serveAll cfg web rs s).db.books ∧
      ∀ t ∈ (serveAll cfg web rs s).db.books.transactions, t.status = .pending →
        ∀ r ∈ rs, r.endpoint ≠ .failTransfer t.id := by
  induction rs generalizing s with
  | nil => exact ⟨.refl _, fun _ _ _ r hr => by cases hr⟩
  | cons r rs ih =>
    obtain ⟨hquiet, hdone⟩ := asksFail_quieter (hrs r (by simp)) hs web
    have hs' : (r.run cfg web s).Restartable cfg :=
      (ledger_of_crashes hs (run_of_request pay r s)).2
    obtain ⟨hquiet', hdone'⟩ := ih (fun q hq => hrs q (by simp [hq])) hs'
    refine ⟨hquiet.trans hquiet', fun t ht hp q hq => ?_⟩
    rcases List.mem_cons.1 hq with rfl | hq
    · exact hdone t (hquiet'.waits t ht hp) hp
    · exact hdone' t ht hp q hq

/-- **No reservation is lost.**  Wherever the processes of requests, webhooks and commands have
been killed, a request to fail a transfer that waits is answered with a success; and once every
such transfer has been asked for, in any order and however often, no account has money reserved,
and no balance has moved. -/
theorem released_at_last (h : Run (crash cfg web pay) Entry.Exact Store.empty s)
    {rs : List HttpRequest} (hrs : ∀ r ∈ rs, r.AsksFail)
    (hall : ∀ t ∈ s.db.books.transactions, t.type = .transfer → t.status = .pending →
      ∃ r ∈ rs, r.endpoint = .failTransfer t.id) :
    (∀ r ∈ rs, ∀ t ∈ s.db.books.transactions, t.status = .pending →
        r.endpoint = .failTransfer t.id → httpStatus (r.response cfg web s) = 200) ∧
      ∀ a, (serveAll cfg web rs s).db.books.reserved a = 0 ∧
        (serveAll cfg web rs s).db.books.settled a = s.db.books.settled a ∧
        ∀ account, (serveAll cfg web rs s).db.books.balance account =
          s.db.books.balance account := by
  have hs := (recorded_of_crashes h).2
  refine ⟨fun r hr t ht hp hid => (asksFail_released (hrs r hr) hs.keyed ht hp hid).1, fun a => ?_⟩
  have hserved : Quieter s.db.books (serveAll cfg web rs s).db.books ∧
      ∀ t ∈ (serveAll cfg web rs s).db.books.transactions, t.status = .pending →
        ∀ r ∈ rs, r.endpoint ≠ .failTransfer t.id := serveAll_quieter hrs hs pay
  obtain ⟨hquiet, hdone⟩ := hserved
  refine ⟨?_, hquiet.settled a, hquiet.balance⟩
  obtain ⟨hrecorded, hlast⟩ := recorded_of_crashes (h.trans (run_of_requests pay rs s))
  rw [hrecorded.reservations.reserved_eq hlast.keyed, neg_eq_zero]
  refine tally_eq_zero fun t ht hw => ?_
  obtain ⟨r, hr, hid⟩ := hall t (hquiet.waits t ht hw.2.1) hw.1 hw.2.1
  exact absurd hid (hdone t ht hw.2.1 r hr)

/-- The request to fail a transfer. -/
def heldFail (transactionId : Id) : HttpRequest :=
  { keyedRequest with
    endpoint := .failTransfer transactionId
    key := none }

/-- What was set aside of Alice's money is given back once, asked for twice. -/
theorem released_transfer : heldStore.db.books.reserved 0 = -20 ∧
    ∀ a, (serveAll limitedConfig transferBodies [heldFail 9, heldFail 9]
      heldStore).db.books.reserved a = 0 := by
  have hrun : Run (crash limitedConfig transferBodies signedPayments) Entry.Exact Store.empty
      heldStore := Run.of_along (by decide +kernel)
  have hrs : ∀ r ∈ [heldFail 9, heldFail 9], r.AsksFail := by
    intro r hr
    obtain rfl : r = heldFail 9 := by simpa using hr
    exact ⟨⟨9, rfl⟩, .inl rfl⟩
  have hwaits : ∀ t ∈ heldStore.db.books.transactions, t.type = .transfer → t.status = .pending →
      t.id = 9 := by
    decide +kernel
  refine ⟨by decide +kernel, fun a => ?_⟩
  have hreleased := released_at_last hrun hrs fun t ht htype hp =>
    ⟨heldFail 9, by simp, by rw [hwaits t ht htype hp]; rfl⟩
  exact (hreleased.2 a).1

end WalletLedger
