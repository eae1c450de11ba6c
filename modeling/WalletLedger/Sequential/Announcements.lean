import WalletLedger.Operations.Views
import WalletLedger.Sequential.Reservations

/-!
# Announcements

A service that has committed publishes one event, and what its subscribers do comes last.

* `Conn.Noted` — a session that has recorded no notification of its own; `ends_silent` — nor
  does a service before its event.
* `DomainEvent.addressee` — whose owner the notification service writes to.
* `Operation.Announces` — what the event of an operation says; `Operation.Told` — the operation
  raises, or commits and ends with that event.
* `execute_told`, …, `executeFxTransfer_told` — the services.
-/

namespace WalletLedger

variable {cfg : Config} {b b' b₀ : Books} {c : Conn} {trail : List Notification}

/-! ## Nothing is recorded before the event -/

/-- The request records no notification. -/
def Request.keepsTrail : Request → Bool
  | .mutate (.insertNotification _ _ _ _ _ _) => false
  | _ => true

theorem Bookkeeping.keepsTrail : Bookkeeping fun r : Request => r.keepsTrail = true :=
  ⟨fun _ => rfl, fun m hm => (by cases m <;> first | rfl | cases hm), rfl⟩

theorem Mutation.keepsTrail_exec {s : Sequences} {db : Database} {m : Mutation} {v : m.Result}
    {w : Write} (hm : (Request.mutate m).keepsTrail = true) (h : m.exec cfg s db = .ok (v, w)) :
    (w.apply db).notifications = db.notifications := by
  cases m <;> cases hm <;> unfold exec at h <;> dsimp only at h <;>
    (repeat' split at h) <;> cases h <;> rfl

/-- These are the notifications that are stored, and those the session sees. -/
def Conn.Trail (c : Conn) (trail : List Notification) : Prop :=
  c.Everywhere fun _ db => db.notifications = trail

/-- A program that records no notification leaves the trail alone. -/
theorem Conn.Trail.run {α : Type} {p : App α} (h : c.Trail trail)
    (hp : p.All fun r => r.keepsTrail = true) : (runOn cfg p c).2.Trail trail :=
  Everywhere.run (I := fun _ db => db.notifications = trail) (fun _ h => h)
    (fun _ _ _ _ _ hm hs hx => (Mutation.keepsTrail_exec hm hx).trans hs) hp h

/-- An open session that has recorded no notification of its own. -/
structure Conn.Noted (c : Conn) (b₀ b : Books) (trail : List Notification) : Prop
    extends c.Open b₀ b where
  trail : c.Trail trail

theorem Conn.noted_fresh {s : Store} (h : s.db.books.Keyed s.seqs) :
    Conn.Noted ⟨s, Session.fresh⟩ s.db.books s.db.books s.db.notifications :=
  ⟨Conn.open_fresh h, rfl, rfl⟩

section rules

variable {α β : Type} {Q : Except Exn β → Conn → Prop} {f : α → App β}

/-- A service before the commit: whatever it returns, or raises. -/
theorem ends_silent {p : App α} (hp : Quiet p) (hs : p.All fun r => r.keepsTrail = true)
    (ho : c.Noted b₀ b trail)
    (h : ∀ (a : α) (b' : Books) (d : Conn), Returns cfg p b a b' → d.Noted b₀ b' trail →
      Ends cfg (f a) d Q)
    (he : ∀ (e : Exn) (d : Conn), d.store.db.books = b₀ → Q (.error e) d) :
    Ends cfg (p >>= f) c Q := by
  have htrail : Ends cfg p c fun _ d => d.Trail trail := ho.trail.run hs
  refine ends_bind (ends_mono (ends_and (quiet_run hp ho.toOpen) htrail) fun o d hd => ?_)
  cases o with
  | ok a =>
    obtain ⟨⟨b', hreturns, hopen⟩, hd⟩ := hd
    exact h a b' d hreturns ⟨hopen, hd⟩
  | error e => exact he e d hd.1

theorem ends_commitSilent {f : Unit → App β} (ho : c.Noted b₀ b trail)
    (h : ∀ d : Conn, d.Noted b b trail → d.session.writes = [] → Ends cfg (f ()) d Q) :
    Ends cfg (ask .commit >>= f) c Q :=
  ends_committed ho.alive
    (h c.committed ⟨ho.toOpen.commit, ho.trail.view, ho.trail.view⟩ rfl)

end rules

/-! ## Events -/

/-- The accounts an event names. -/
def Payload.accounts (p : Payload) : List Id :=
  p.senderId.toList ++ p.receiverId.toList ++ p.accountId.toList

/-- The account whose owner the notification service writes to, if the payload has what the
message needs. -/
def DomainEvent.addressee (event : DomainEvent) : Option Id :=
  match event.eventType with
  | .transferCompleted =>
      if event.payload.amount.isSome ∧ event.payload.currency.isSome then event.payload.senderId
      else none
  | .transferFailed => event.payload.senderId.or event.payload.accountId
  | .depositCompleted =>
      if event.payload.amount.isSome ∧ event.payload.currency.isSome then event.payload.accountId
      else none
  | .fundsReserved => none

/-- The account a transaction is about: the sender of a transfer, the account of a deposit. -/
def Details.party : Details → Option Id
  | .deposit _ accountId _ => some accountId
  | details => details.senderId

/-- The operation publishes an event that names the account. -/
def Operation.Names (b : Books) : Operation → Id → Prop
  | .settle reference _ _, a => ∃ t ∈ b.transactions.find? (fun t => t.reference = some reference),
      t.details.accountId = .ok a
  | .execute senderId receiverId _ _, a => a = senderId ∨ a = receiverId
  | .commit transactionId, a => ∃ t ∈ b.transactions.find? (fun t => t.id = transactionId),
      t.details.receiverId = .ok a ∨
        ∃ d ∈ b.entries.find? (fun e => e.isOf t.id .pending ∧ e.entryType = .debit),
          d.accountId = a
  | .executeFxTransfer _ senderId receiverId _ _, a => a = senderId ∨ a = receiverId
  | _, _ => False

/-- The event of the operation tells the client of it. -/
def Operation.tells : Operation → Bool
  | .settle _ _ _ => true
  | .execute _ _ _ _ => true
  | .commit _ => true
  | .executeFxTransfer _ _ _ _ _ => true
  | _ => false

/-- The event of an operation that has taken the books from `b` to `b'`, with its
transaction. -/
structure Operation.Announces (b b' : Books) (op : Operation) (t : Transaction)
    (event : DomainEvent) : Prop where
  transaction : t ∈ b'.transactions
  correlation : event.correlationId = t.correlationId
  names : ∀ a, op.Names b a → a ∈ event.payload.accounts
  reaches : op.tells = true → ∃ a ∈ b'.accounts, event.addressee = some a.id ∧
    (b.Reservations → t.details.party = some a.id)
  misses : op.tells = false → event.addressee = none

/-- What becomes of an operation: it raises and leaves the books alone, or it commits, publishes
its event, and returns the transaction. -/
inductive Operation.Told (cfg : Config) (op : Operation) (b : Books)
    (trail : List Notification) : Except Exn Transaction → Conn → Prop
  | raised {e : Exn} {d : Conn} (books : d.store.db.books = b) : Told cfg op b trail (.error e) d
  | announced {b' : Books} {t : Transaction} {event : DomainEvent} {c : Conn}
      (noted : c.Noted b' b' trail) (idle : c.session.writes = [])
      (announces : op.Announces b b' t event) :
      Told cfg op b trail (.ok t) (runOn cfg (EventBus.publish (subscribers cfg) event) c).2

/-! ## The services -/

section services

/-- A step of an operation before its commit. -/
theorem ends_step {α : Type} {op : Operation} {p : App α} {f : α → App Transaction} (hp : Quiet p)
    (hs : p.All fun r => r.keepsTrail = true) (ho : c.Noted b₀ b trail)
    (h : ∀ (a : α) (b' : Books) (d : Conn), Returns cfg p b a b' → d.Noted b₀ b' trail →
      Ends cfg (f a) d (op.Told cfg b₀ trail)) : Ends cfg (p >>= f) c (op.Told cfg b₀ trail) :=
  ends_silent hp hs ho h fun _ _ => .raised

/-- The three objects that have expired are selected again. -/
theorem ends_transferPublish {op : Operation} {eventType : EventType} {txn t : Transaction}
    {money : Money} {sender receiver : Account} (ho : c.Noted b' b' trail)
    (hw : c.session.writes = []) (hs : sender ∈ b'.accounts) (hr : receiver ∈ b'.accounts)
    (hid : t.id = txn.id)
    (h : op.Announces b b' t
      { eventType := eventType
        payload :=
          { transactionId := t.id
            senderId := some sender.id
            receiverId := some receiver.id
            amount := some money.text
            currency := some money.currency }
        correlationId := t.correlationId }) :
    Ends cfg (TransferService.publish cfg eventType txn money sender receiver) c
      (op.Told cfg b trail) := by
  unfold TransferService.publish
  rw [← hid]
  refine ends_reloadTransaction ho.toOpen h.transaction ?_
  refine ends_reloadAccount ho.toOpen hs (ends_reloadAccount ho.toOpen hr ?_)
  exact ends_published (ends_ret (.announced ho hw h))

theorem execute_told {senderId receiverId : Id} {amount : Decimal} {correlationId : Option String}
    (ho : c.Noted b b trail) :
    Ends cfg (TransferService.execute cfg senderId receiverId amount correlationId) c
      ((Operation.execute senderId receiverId amount correlationId).Told cfg b trail) := by
  have k := Bookkeeping.keepsTrail
  unfold TransferService.execute
  refine ends_step (quiet_lock _) (k.lock _) ho fun sender b₁ c₁ h₁ ho₁ => ?_
  obtain ⟨rfl, hs, rfl⟩ := lock_ok h₁
  refine ends_step (quiet_get _) (k.get _) ho₁ fun receiver b₂ c₂ h₂ ho₂ => ?_
  obtain ⟨rfl, hr, rfl⟩ := get_ok h₂
  refine ends_step (quiet_validate _ _ _) (Bookkeeping.validate _ _ _) ho₂
    fun money b₃ c₃ h₃ ho₃ => ?_
  obtain ⟨rfl, -⟩ := validate_ok h₃
  refine ends_step (quiet_ensureFunds _ _) (k.ensureFunds _ _) ho₃ fun _ b₄ c₄ h₄ ho₄ => ?_
  obtain ⟨rfl, -⟩ := ensureFunds_ok h₄
  refine ends_step (quiet_correlationIdOr _) (k.correlationIdOr _) ho₄ fun corr b₅ c₅ h₅ ho₅ => ?_
  obtain rfl := correlationIdOr_ok h₅
  refine ends_step (quiet_mutate _) (all_ask (k.mutate _ rfl)) ho₅ fun t b₆ c₆ h₆ ho₆ => ?_
  obtain ⟨records, rfl⟩ := insertTransaction_ok money.amount_mem_grid h₆
  refine ends_step (quiet_post _ _) (k.post _ _) ho₆ fun _ b₇ c₇ h₇ ho₇ => ?_
  obtain ⟨-, es, -, rfl⟩ := post_ok (transferLines_mem_grid sender.id receiver.id money) h₇
  refine ends_step (quiet_maybeSnapshot _) (k.maybeSnapshot _) ho₇ fun _ b₈ c₈ h₈ ho₈ => ?_
  refine ends_step (quiet_maybeSnapshot _) (k.maybeSnapshot _) ho₈ fun _ b₉ c₉ h₉ ho₉ => ?_
  obtain ⟨ha, ht, -⟩ := (Cuts.pair (maybeSnapshot_ok h₈) (maybeSnapshot_ok h₉)).rest
  refine ends_commitSilent ho₉ fun c₁₀ ho₁₀ hw => ?_
  refine ends_transferPublish ho₁₀ hw (ha ▸ hs) (ha ▸ hr) rfl
    { transaction := ht ▸ List.mem_append_right _ (List.mem_singleton_self t)
      correlation := rfl
      names := fun a hn => ?_
      reaches := fun _ => ⟨sender, ha ▸ hs, rfl, fun _ => by rw [records.details]; rfl⟩
      misses := fun h => by cases h }
  rcases hn with rfl | rfl <;> simp [Payload.accounts]

/-- The funds are reserved, and the event tells no client of it. -/
theorem initiate_told {senderId receiverId : Id} {amount : Decimal}
    {correlationId : Option String} (ho : c.Noted b b trail) :
    Ends cfg (TransferService.initiate cfg senderId receiverId amount correlationId) c
      ((Operation.initiate senderId receiverId amount correlationId).Told cfg b trail) := by
  have k := Bookkeeping.keepsTrail
  unfold TransferService.initiate
  refine ends_step (quiet_lock _) (k.lock _) ho fun sender b₁ c₁ h₁ ho₁ => ?_
  obtain ⟨rfl, hs, -⟩ := lock_ok h₁
  refine ends_step (quiet_get _) (k.get _) ho₁ fun receiver b₂ c₂ h₂ ho₂ => ?_
  obtain ⟨rfl, hr, -⟩ := get_ok h₂
  refine ends_step (quiet_validate _ _ _) (Bookkeeping.validate _ _ _) ho₂
    fun money b₃ c₃ h₃ ho₃ => ?_
  obtain ⟨rfl, -⟩ := validate_ok h₃
  refine ends_step (quiet_ensureFunds _ _) (k.ensureFunds _ _) ho₃ fun _ b₄ c₄ h₄ ho₄ => ?_
  obtain ⟨rfl, -⟩ := ensureFunds_ok h₄
  refine ends_step (quiet_correlationIdOr _) (k.correlationIdOr _) ho₄ fun corr b₅ c₅ h₅ ho₅ => ?_
  obtain rfl := correlationIdOr_ok h₅
  refine ends_step (quiet_mutate _) (all_ask (k.mutate _ rfl)) ho₅ fun t b₆ c₆ h₆ ho₆ => ?_
  obtain ⟨-, rfl⟩ := insertTransaction_ok money.amount_mem_grid h₆
  refine ends_step (quiet_mutate _) (all_ask (k.mutate _ rfl)) ho₆ fun _ b₇ c₇ h₇ ho₇ => ?_
  obtain ⟨e, -, -, rfl⟩ := insertEntry_ok (debitLine_mem_grid sender.id money) h₇
  refine ends_commitSilent ho₇ fun c₈ ho₈ hw => ?_
  exact ends_transferPublish ho₈ hw hs hr rfl
    { transaction := List.mem_append_right _ (List.mem_singleton_self t)
      correlation := rfl
      names := fun a hn => hn.elim
      reaches := fun h => by cases h
      misses := fun _ => rfl }

/-- The transfer that a commit settles is its sender's. -/
theorem Books.Reservations.party_of_reserved (h : b.Reservations) {s : Sequences} (hk : b.Keyed s)
    {t : Transaction} {debit : LedgerEntry} (ht : t ∈ b.transactions)
    (hdebit : b.entries.find? (fun e => e.isOf t.id .pending ∧ e.entryType = .debit) = some debit) :
    t.details.party = some debit.accountId := by
  obtain ⟨hof, -⟩ : debit.isOf t.id .pending = true ∧ debit.entryType = .debit := by
    simpa only [decide_eq_true_eq] using List.find?_some hdebit
  obtain ⟨hid, hpending⟩ := of_decide_eq_true hof
  obtain ⟨-, -, r, hdetails⟩ := h.reserved hk (List.mem_of_find?_eq_some hdebit) hpending ht hid
  rw [hdetails]
  rfl

theorem commit_told {transactionId : Id} (ho : c.Noted b b trail) :
    Ends cfg (TransferService.commit cfg transactionId) c
      ((Operation.commit transactionId).Told cfg b trail) := by
  have k := Bookkeeping.keepsTrail
  have hk : b.Keyed c.store.seqs := ho.view_keyed
  unfold TransferService.commit
  refine ends_step (quiet_pendingTransaction _) (k.pendingTransaction _) ho fun t b₁ c₁ h₁ ho₁ => ?_
  obtain ⟨rfl, hfound, -⟩ := pendingTransaction_ok h₁
  refine ends_step (quiet_ofExcept _) (Program.all_ofExcept _) ho₁ fun money b₂ c₂ h₂ ho₂ => ?_
  obtain ⟨rfl, -⟩ := returns_ofExcept h₂
  refine ends_step (quiet_raiseIf _ _) (all_raiseIf _ _) ho₂ fun _ b₃ c₃ h₃ ho₃ => ?_
  obtain ⟨rfl, -⟩ := returns_raiseIf h₃
  refine ends_step (quiet_select _) (all_ask (k.select _)) ho₃ fun found b₄ c₄ h₄ ho₄ => ?_
  obtain ⟨rfl, keys, trail', hdebit⟩ := returns_select h₄
  refine ends_step (quiet_ofOption _ _) (all_ofOption _ _) ho₄ fun debit b₅ c₅ h₅ ho₅ => ?_
  obtain ⟨rfl, hsome⟩ := returns_ofOption h₅
  refine ends_step (quiet_lock _) (k.lock _) ho₅ fun sender b₆ c₆ h₆ ho₆ => ?_
  obtain ⟨rfl, hs, hsid⟩ := lock_ok h₆
  refine ends_step (quiet_ofExcept _) (Program.all_ofExcept _) ho₆ fun receiverId b₇ c₇ h₇ ho₇ => ?_
  obtain ⟨rfl, hrid⟩ := returns_ofExcept h₇
  refine ends_step (quiet_get _) (k.get _) ho₇ fun receiver b₈ c₈ h₈ ho₈ => ?_
  obtain ⟨rfl, hr, rfl⟩ := get_ok h₈
  refine ends_step (quiet_mutate _) (all_ask (k.mutate _ rfl)) ho₈ fun _ b₉ c₉ h₉ ho₉ => ?_
  obtain rfl := setEntry_ok h₉
  refine ends_step (quiet_mutate _) (all_ask (k.mutate _ rfl)) ho₉ fun _ b₁₀ c₁₀ h₁₀ ho₁₀ => ?_
  obtain ⟨credit, -, -, rfl⟩ := insertEntry_ok (creditLine_mem_grid receiver.id money) h₁₀
  refine ends_step (quiet_ofExcept _) (Program.all_ofExcept _) ho₁₀ fun _ b₁₁ c₁₁ h₁₁ ho₁₁ => ?_
  obtain ⟨rfl, -⟩ := returns_ofExcept h₁₁
  refine ends_step (quiet_mutate _) (all_ask (k.mutate _ rfl)) ho₁₁ fun _ b₁₂ c₁₂ h₁₂ ho₁₂ => ?_
  obtain rfl := setTransaction_ok h₁₂
  refine ends_step (quiet_maybeSnapshot _) (k.maybeSnapshot _) ho₁₂ fun _ b₁₃ c₁₃ h₁₃ ho₁₃ => ?_
  refine ends_step (quiet_maybeSnapshot _) (k.maybeSnapshot _) ho₁₃ fun _ b₁₄ c₁₄ h₁₄ ho₁₄ => ?_
  obtain ⟨ha, ht, -⟩ := (Cuts.pair (maybeSnapshot_ok h₁₃) (maybeSnapshot_ok h₁₄)).rest
  have hmem := (transaction_of_find hfound).1
  have hreserved := hdebit.symm.trans hsome
  have hsender : b₈.Reservations → t.details.party = some sender.id := fun h =>
    hsid ▸ h.party_of_reserved hk hmem hreserved
  refine ends_commitSilent ho₁₄ fun c₁₅ ho₁₅ hw => ?_
  refine ends_transferPublish (t := { t with status := .success }) ho₁₅ hw (ha ▸ hs) (ha ▸ hr) rfl
    { transaction := ht ▸ Books.mem_setTransaction hmem .success
      correlation := rfl
      names := ?_
      reaches := fun _ => ⟨sender, ha ▸ hs, rfl, hsender⟩
      misses := fun h => by cases h }
  rintro a ⟨u, hu, hparty⟩
  obtain rfl : t = u := Option.some.inj (hfound.symm.trans hu)
  rcases hparty with hparty | ⟨x, hx, hxa⟩
  · rw [hrid] at hparty
    cases hparty
    simp [Payload.accounts]
  · obtain rfl : debit = x := Option.some.inj (hreserved.symm.trans hx)
    simp [Payload.accounts, hsid, hxa]

/-- The event of a failed transfer names its transaction alone. -/
theorem fail_told {transactionId : Id} (ho : c.Noted b b trail) :
    Ends cfg (TransferService.fail cfg transactionId) c
      ((Operation.fail transactionId).Told cfg b trail) := by
  have k := Bookkeeping.keepsTrail
  unfold TransferService.fail
  refine ends_step (quiet_pendingTransaction _) (k.pendingTransaction _) ho fun t b₁ c₁ h₁ ho₁ => ?_
  obtain ⟨rfl, hfound, -⟩ := pendingTransaction_ok h₁
  refine ends_step (quiet_select _) (all_ask (k.select _)) ho₁ fun entries b₂ c₂ h₂ ho₂ => ?_
  obtain ⟨rfl, -⟩ := returns_select h₂
  refine ends_step (.forEach fun _ => quiet_mutate _)
    (Program.All.forEach fun _ _ => all_ask (k.mutate _ rfl)) ho₂
    fun _ b₃ c₃ h₃ ho₃ => ?_
  obtain rfl := setEntries_ok h₃
  refine ends_step (quiet_mutate _) (all_ask (k.mutate _ rfl)) ho₃ fun _ b₄ c₄ h₄ ho₄ => ?_
  obtain rfl := setTransaction_ok h₄
  have ht := (transaction_of_find hfound).1
  rw [← (Books.setEntries_rest entries .failed _).2] at ht
  have hmem := Books.mem_setTransaction ht .failed
  refine ends_commitSilent ho₄ fun c₅ ho₅ hw => ?_
  refine ends_reloadTransaction (t := { t with status := .failed }) ho₅.toOpen hmem ?_
  exact ends_published (ends_ret (.announced ho₅ hw
    { transaction := hmem
      correlation := rfl
      names := fun a hn => hn.elim
      reaches := fun h => by cases h
      misses := fun _ => rfl }))

theorem settle_told {reference : String} {confirmedAmount : Option Decimal}
    {confirmedCurrency : Option String} (ho : c.Noted b b trail) :
    Ends cfg (DepositService.settle cfg reference confirmedAmount confirmedCurrency) c
      ((Operation.settle reference confirmedAmount confirmedCurrency).Told cfg b trail) := by
  have k := Bookkeeping.keepsTrail
  unfold DepositService.settle DepositService.settleFound
  refine ends_step (quiet_select _) (all_ask (k.select _)) ho fun found b₁ c₁ h₁ ho₁ => ?_
  obtain ⟨rfl, keys, trail', hfound⟩ := returns_select h₁
  refine ends_step (quiet_ofOption _ _) (all_ofOption _ _) ho₁ fun t b₂ c₂ h₂ ho₂ => ?_
  obtain ⟨rfl, hsome⟩ := returns_ofOption h₂
  have hfind := hfound.symm.trans hsome
  refine ends_step (quiet_raiseIf _ _) (all_raiseIf _ _) ho₂ fun _ b₃ c₃ h₃ ho₃ => ?_
  obtain ⟨rfl, -⟩ := returns_raiseIf h₃
  refine ends_step (quiet_ofExcept _) (Program.all_ofExcept _) ho₃ fun authorized b₄ c₄ h₄ ho₄ => ?_
  obtain ⟨rfl, -⟩ := returns_ofExcept h₄
  refine ends_step (quiet_ofExcept _) (Program.all_ofExcept _) ho₄ fun _ b₅ c₅ h₅ ho₅ => ?_
  obtain ⟨rfl, -⟩ := returns_ofExcept h₅
  refine ends_step (quiet_ofExcept _) (Program.all_ofExcept _) ho₅ fun accountId b₆ c₆ h₆ ho₆ => ?_
  obtain ⟨rfl, hacc⟩ := returns_ofExcept h₆
  refine ends_step (quiet_lock _) (k.lock _) ho₆ fun account b₇ c₇ h₇ ho₇ => ?_
  obtain ⟨rfl, ha, rfl⟩ := lock_ok h₇
  refine ends_step (quiet_getOrCreateInternal _ _) (k.getOrCreateInternal _ _) ho₇
    fun clearing b₈ c₈ h₈ ho₈ => ?_
  obtain ⟨-, hopened⟩ := getOrCreateInternal_ok h₈
  refine ends_step (quiet_post _ _) (k.post _ _) ho₈ fun _ b₉ c₉ h₉ ho₉ => ?_
  obtain ⟨-, es, -, rfl⟩ := post_ok (transferLines_mem_grid clearing.id account.id authorized) h₉
  refine ends_step (quiet_mutate _) (all_ask (k.mutate _ rfl)) ho₉ fun _ b₁₀ c₁₀ h₁₀ ho₁₀ => ?_
  obtain rfl := setTransaction_ok h₁₀
  refine ends_step (quiet_maybeSnapshot _) (k.maybeSnapshot _) ho₁₀ fun _ b₁₁ c₁₁ h₁₁ ho₁₁ => ?_
  refine ends_step (quiet_maybeSnapshot _) (k.maybeSnapshot _) ho₁₁ fun _ b₁₂ c₁₂ h₁₂ ho₁₂ => ?_
  obtain ⟨haccounts, htransactions, -⟩ :=
    (Cuts.pair (maybeSnapshot_ok h₁₁) (maybeSnapshot_ok h₁₂)).rest
  have ht : t ∈ b₈.transactions := hopened.rest.1.symm ▸ List.mem_of_find?_eq_some hfind
  have hmem : { t with status := .success } ∈ b₁₂.transactions :=
    htransactions ▸ Books.mem_setTransaction ht .success
  have hparty : t.details.party = some account.id := by
    cases hdetails : t.details <;> rw [hdetails] at hacc <;> cases hacc
    rfl
  refine ends_commitSilent ho₁₂ fun c₁₃ ho₁₃ hw => ?_
  refine ends_reloadTransaction (t := { t with status := .success }) ho₁₃.toOpen hmem ?_
  refine ends_reloadAccount ho₁₃.toOpen (haccounts ▸ hopened.subset ha) ?_
  refine ends_published (ends_ret (.announced ho₁₃ hw
    { transaction := hmem
      correlation := rfl
      names := ?_
      reaches := fun _ => ⟨account, haccounts ▸ hopened.subset ha, rfl, fun _ => hparty⟩
      misses := fun h => by cases h }))
  rintro a ⟨u, hu, hua⟩
  obtain rfl : t = u := Option.some.inj (hfind.symm.trans hu)
  rw [hacc] at hua
  cases hua
  simp [Payload.accounts]

/-- A new transaction has the correlation identifier it is given. -/
theorem insertTransaction_correlation {type : TransactionType} {status : TransactionStatus}
    {amount : Decimal} {currency : String} {details : Details} {correlationId : Option String}
    {t : Transaction} (h : Returns cfg
      (ask (.mutate (.insertTransaction type status amount currency details correlationId))) b t
      b') :
    t.correlationId = correlationId := by
  obtain ⟨seqs, db, w, rfl, hm, rfl⟩ := returns_mutate h
  obtain ⟨stored, -, rfl, -⟩ := Mutation.exec_insertTransaction hm
  rfl

/-- The event has the correlation identifier that the transaction was given. -/
theorem executeFxTransfer_told {rates : RateTable} {senderId receiverId : Id} {amount : Decimal}
    {correlationId : Option String} (ho : c.Noted b b trail) :
    Ends cfg (FxService.executeFxTransfer cfg rates senderId receiverId amount correlationId) c
      ((Operation.executeFxTransfer rates senderId receiverId amount correlationId).Told cfg b
        trail) := by
  have k := Bookkeeping.keepsTrail
  unfold FxService.executeFxTransfer
  refine ends_step (quiet_lock _) (k.lock _) ho fun sender b₁ c₁ h₁ ho₁ => ?_
  obtain ⟨rfl, hs, rfl⟩ := lock_ok h₁
  refine ends_step (quiet_get _) (k.get _) ho₁ fun receiver b₂ c₂ h₂ ho₂ => ?_
  obtain ⟨rfl, hr, rfl⟩ := get_ok h₂
  refine ends_step (quiet_raiseIf _ _) (all_raiseIf _ _) ho₂ fun _ b₃ c₃ h₃ ho₃ => ?_
  obtain ⟨rfl, -⟩ := returns_raiseIf h₃
  refine ends_step (quiet_ofExcept _) (Program.all_ofExcept _) ho₃ fun sent b₄ c₄ h₄ ho₄ => ?_
  obtain ⟨rfl, -⟩ := returns_ofExcept h₄
  refine ends_step (quiet_raiseIf _ _) (all_raiseIf _ _) ho₄ fun _ b₅ c₅ h₅ ho₅ => ?_
  obtain ⟨rfl, -⟩ := returns_raiseIf h₅
  refine ends_step (quiet_availableBalance _) (k.availableBalance _) ho₅
    fun available b₆ c₆ h₆ ho₆ => ?_
  obtain ⟨rfl, -⟩ := availableBalance_ok h₆
  refine ends_step (quiet_ofExcept _) (Program.all_ofExcept _) ho₆ fun _ b₇ c₇ h₇ ho₇ => ?_
  obtain ⟨rfl, -⟩ := returns_ofExcept h₇
  refine ends_step (quiet_ofExcept _) (Program.all_ofExcept _) ho₇ fun received b₈ c₈ h₈ ho₈ => ?_
  obtain ⟨rfl, -⟩ := returns_ofExcept h₈
  refine ends_step (quiet_getOrCreateInternal _ _) (k.getOrCreateInternal _ _) ho₈
    fun poolFrom b₉ c₉ h₉ ho₉ => ?_
  obtain ⟨-, hopen₁⟩ := getOrCreateInternal_ok h₉
  refine ends_step (quiet_getOrCreateInternal _ _) (k.getOrCreateInternal _ _) ho₉
    fun poolTo b₁₀ c₁₀ h₁₀ ho₁₀ => ?_
  obtain ⟨-, hopen₂⟩ := getOrCreateInternal_ok h₁₀
  refine ends_step (quiet_correlationIdOr _) (k.correlationIdOr _) ho₁₀
    fun corr b₁₁ c₁₁ h₁₁ ho₁₁ => ?_
  obtain rfl := correlationIdOr_ok h₁₁
  refine ends_step (quiet_mutate _) (all_ask (k.mutate _ rfl)) ho₁₁ fun t b₁₂ c₁₂ h₁₂ ho₁₂ => ?_
  have hcorr : t.correlationId = some corr := insertTransaction_correlation h₁₂
  obtain ⟨records, rfl⟩ := insertTransaction_ok sent.amount_mem_grid h₁₂
  refine ends_step (quiet_post _ _) (k.post _ _) ho₁₂ fun _ b₁₃ c₁₃ h₁₃ ho₁₃ => ?_
  obtain ⟨-, es, -, rfl⟩ := post_ok 
    (exchangeLines_mem_grid sender.id poolFrom.id poolTo.id receiver.id sent received) h₁₃
  refine ends_step (quiet_maybeSnapshots _) (Program.All.forEach fun _ _ => k.maybeSnapshot _)
    ho₁₃ fun _ b₁₄ c₁₄ h₁₄ ho₁₄ => ?_
  obtain ⟨haccounts, htransactions, -⟩ := (maybeSnapshots_ok h₁₄).rest
  have hmem : t ∈ b₁₄.transactions :=
    htransactions ▸ List.mem_append_right _ (List.mem_singleton_self t)
  have hsender : sender ∈ b₁₄.accounts := haccounts ▸ hopen₂.subset (hopen₁.subset hs)
  refine ends_commitSilent ho₁₄ fun c₁₅ ho₁₅ hw => ?_
  refine ends_reloadTransaction (t := t) ho₁₅.toOpen hmem ?_
  refine ends_reloadAccount ho₁₅.toOpen hsender ?_
  refine ends_reloadAccount ho₁₅.toOpen (haccounts ▸ hopen₂.subset (hopen₁.subset hr)) ?_
  refine ends_published (ends_ret (.announced ho₁₅ hw
    { transaction := hmem
      correlation := hcorr.symm
      names := fun a hn => ?_
      reaches := fun _ => ⟨sender, hsender, rfl, fun _ => by rw [records.details]; rfl⟩
      misses := fun h => by cases h }))
  rcases hn with rfl | rfl <;> simp [Payload.accounts]

/-- The services that bring a movement to its outcome. -/
def Operation.concluding (cfg : Config) : Operation → Option (App Transaction)
  | .settle reference confirmedAmount confirmedCurrency =>
      some (DepositService.settle cfg reference confirmedAmount confirmedCurrency)
  | .execute senderId receiverId amount correlationId =>
      some (TransferService.execute cfg senderId receiverId amount correlationId)
  | .commit transactionId => some (TransferService.commit cfg transactionId)
  | .fail transactionId => some (TransferService.fail cfg transactionId)
  | .executeFxTransfer rates senderId receiverId amount correlationId =>
      some (FxService.executeFxTransfer cfg rates senderId receiverId amount correlationId)
  | _ => none

/-- Each of them raises, or ends with its event. -/
theorem Operation.told {op : Operation} {p : App Transaction} (hp : op.concluding cfg = some p)
    (ho : c.Noted b b trail) : Ends cfg p c (op.Told cfg b trail) := by
  cases op <;> cases hp
  · exact settle_told ho
  · exact execute_told ho
  · exact commit_told ho
  · exact fail_told ho
  · exact executeFxTransfer_told ho

end services

end WalletLedger
