import WalletLedger.Operations.Services
import WalletLedger.Operations.Operation
import WalletLedger.Api.Endpoints

/-!
# What the views ask

The requests a decorated view may issue.  A view never touches the idempotency keys and
never rolls back: that is left to the decorator.

* `Bookkeeping` — a property of requests that queries, statements on the books and drawn
  identifiers have; every service issues such requests only, up to its commit.
* `Ordinary` — the same for all statements beside the keys; `Ordinary.operation` is about the
  operations of the services, with what they ask after the commit.
* `Announcing` — the same for what is asked to tell the parties of an event.
* `Request.ofView` — the requests of a view, with `view_requests`: a view issues no
  other, whatever it is answered.
-/

namespace WalletLedger

/-- A statement on the idempotency keys. -/
def Mutation.onKeys : Mutation → Bool
  | .insertKey _ _ => true
  | .completeKey _ _ _ => true
  | .deleteKey _ => true
  | _ => false

theorem Mutation.touchesKeys_exec {cfg : Config} {s : Sequences} {db : Database} {m : Mutation}
    {v : m.Result} {w : Write} (hm : m.onKeys = false) (h : m.exec cfg s db = .ok (v, w)) :
    w.touchesKeys = false := by
  cases m <;> cases hm <;> unfold exec at h <;> dsimp only at h <;>
    (repeat' split at h) <;> cases h <;> rfl

/-- Queries, statements on the books and drawn identifiers have the property. -/
structure Bookkeeping (P : Request → Prop) : Prop where
  select : ∀ q, P (.select q)
  mutate : ∀ m, m.besideBooks = false → P (.mutate m)
  uuid4 : P .uuid4

/-- Queries, statements beside the keys and drawn identifiers have the property. -/
structure Ordinary (P : Request → Prop) : Prop where
  select : ∀ q, P (.select q)
  mutate : ∀ m, m.onKeys = false → P (.mutate m)
  uuid4 : P .uuid4

theorem Ordinary.books {P : Request → Prop} (h : Ordinary P) : Bookkeeping P :=
  ⟨h.select, fun m hm => h.mutate m (by cases m <;> first | rfl | cases hm), h.uuid4⟩

section services

variable {P : Request → Prop} {cfg : Config}

theorem all_ask {r : Request} (hr : P r) : (ask r).All P := ⟨hr, fun _ => Program.all_ofExcept _⟩

theorem all_ofOption {α : Type} (e : Exn) (o : Option α) : (ofOption e o).All P := by
  cases o <;> trivial

theorem all_raiseIf (p : Prop) [Decidable p] (e : Exn) : (raiseIf p e).All P := by
  unfold raiseIf
  split <;> trivial

theorem all_map {α β : Type} {p : App α} (hp : p.All P) (g : α → β) : (g <$> p).All P := by
  rw [map_eq_pure_bind]
  exact hp.bind fun _ => trivial

/-- What telling the parties asks has the property: their accounts, the rows of the channels and
a commit. -/
structure Announcing (P : Request → Prop) : Prop where
  account : ∀ id, P (.select (.account id))
  insert : ∀ channel recipient message eventType status correlationId,
    P (.mutate (.insertNotification channel recipient message eventType status correlationId))
  commit : P .commit

namespace Announcing

variable (h : Announcing P)

include h

theorem notify (accountId : Id) (message : String) (event : DomainEvent) :
    (NotificationService.notify cfg accountId message event).All P := by
  have hget : (AccountService.get accountId).All P :=
    (all_ask (h.account _)).bind fun _ => all_ofOption _ _
  have hrecipient : (NotificationService.recipientFor accountId).All P :=
    Program.All.attempt (all_map hget _) fun _ => trivial
  refine hrecipient.bind fun recipient => ?_
  refine Program.All.bind (Program.All.forEach fun channel _ => ?_) fun _ => all_ask h.commit
  exact (Program.all_ofExcept _).bind fun _ => all_ask (h.insert _ _ _ _ _ _)

theorem publish (hcache : ∀ a, P (.cacheDelete a)) (event : DomainEvent) :
    (EventBus.publish (subscribers cfg) event).All P := by
  have invalidate : (invalidateBalances event).All P :=
    Program.All.forEach fun _ _ => Program.All.attempt (all_ask (hcache _)) fun _ => trivial
  have completed : (NotificationService.onTransferCompleted cfg event).All P :=
    (all_ofOption _ _).bind fun _ => (all_ofOption _ _).bind fun _ =>
      (all_ofOption _ _).bind fun _ => h.notify _ _ _
  have failed : (NotificationService.onTransferFailed cfg event).All P := by
    unfold NotificationService.onTransferFailed NotificationService.notifyTransactionParty
    split
    · exact h.notify _ _ _
    · trivial
  have deposited : (NotificationService.onDepositCompleted cfg event).All P :=
    (all_ofOption _ _).bind fun _ => (all_ofOption _ _).bind fun _ =>
      (all_ofOption _ _).bind fun _ => h.notify _ _ _
  refine Program.All.forEach fun handler hmem => Program.All.attempt ?_ fun _ => trivial
  cases heventType : event.eventType <;>
    simp only [heventType, subscribers, List.mem_cons, List.not_mem_nil, or_false] at hmem
  · rwa [hmem]
  · rcases hmem with rfl | rfl <;> assumption
  · rcases hmem with rfl | rfl <;> assumption
  · rcases hmem with rfl | rfl <;> assumption

end Announcing

namespace Bookkeeping

variable (h : Bookkeeping P)

include h

theorem lock (id : Id) : (AccountService.lock id).All P :=
  (all_ask (h.select _)).bind fun _ => all_ofOption _ _

theorem get (id : Id) : (AccountService.get id).All P :=
  (all_ask (h.select _)).bind fun _ => all_ofOption _ _

theorem getByNumber (number : String) : (AccountService.getByNumber number).All P :=
  (all_ask (h.select _)).bind fun _ => all_ofOption _ _

theorem getOrCreateInternal (ownerId currency : String) :
    (AccountService.getOrCreateInternal ownerId currency).All P := by
  refine (all_ask (h.select _)).bind fun found => ?_
  cases found with
  | none => exact all_ask (h.mutate _ rfl)
  | some a => trivial

theorem correlationIdOr (correlationId : Option String) :
    (WalletLedger.correlationIdOr correlationId).All P := by
  have draw : (Id.text <$> ask .uuid4).All P := all_map (all_ask h.uuid4) _
  unfold WalletLedger.correlationIdOr
  split
  · split
    · exact draw
    · trivial
  · exact draw

theorem reloadTransaction (id : Id) : (WalletLedger.reloadTransaction id).All P :=
  (all_ask (h.select _)).bind fun _ => all_ofOption _ _

theorem reloadAccount (id : Id) : (WalletLedger.reloadAccount id).All P :=
  (all_ask (h.select _)).bind fun _ => all_ofOption _ _

theorem availableBalance (account : Account) : (LedgerService.availableBalance account).All P := by
  refine Program.All.bind ?_ fun _ => (all_ask (h.select _)).bind fun _ => Program.all_ofExcept _
  exact (all_ask (h.select _)).bind fun _ => (all_ask (h.select _)).bind fun _ =>
    Program.all_ofExcept _

theorem insertLines (lines : List PostingLine) (id : Id) :
    (Program.forEach lines fun line =>
      ask (.mutate (.insertEntry line.accountId id line.amount line.entryType line.status
        line.currency))).All P :=
  Program.All.forEach fun _ _ => all_ask (h.mutate _ rfl)

theorem post (transaction : TransactionAggregate) (id : Id) :
    (LedgerService.post transaction id).All P :=
  (Program.all_ofExcept _).bind fun _ => h.insertLines _ _

theorem maybeSnapshot (account : Account) : (LedgerService.maybeSnapshot cfg account).All P := by
  refine (all_ask (h.select _)).bind fun snapshot => (all_ask (h.select _)).bind fun entries => ?_
  split
  · trivial
  · exact (all_ofOption _ _).bind fun _ => all_ask (h.mutate _ rfl)

omit h in
theorem validate (sender receiver : Account) (amount : Decimal) :
    (TransferService.validate sender receiver amount).All P :=
  (all_raiseIf _ _).bind fun _ => (Program.all_ofExcept _).bind fun _ =>
    (all_raiseIf _ _).bind fun _ => trivial

theorem ensureFunds (sender : Account) (money : Money) :
    (TransferService.ensureFunds sender money).All P :=
  (h.availableBalance _).bind fun _ => Program.all_ofExcept _

theorem pendingTransaction (id : Id) : (TransferService.pendingTransaction id).All P :=
  (all_ask (h.select _)).bind fun _ => (all_ofOption _ _).bind fun _ =>
    (all_raiseIf _ _).bind fun _ => trivial

theorem resolvePair (data : TransferBody) : (WalletLedger.resolvePair data).All P :=
  (h.getByNumber _).bind fun _ => (h.getByNumber _).bind fun _ => trivial

theorem serializeExpired (txn : Transaction) : (WalletLedger.serializeExpired txn).All P :=
  (h.reloadTransaction _).bind fun _ => trivial

end Bookkeeping

namespace Ordinary

variable (h : Ordinary P)

include h

/-! ## Events -/

variable (hcommit : P .commit) (hcache : ∀ a, P (.cacheDelete a))

include hcommit in
theorem announcing : Announcing P :=
  ⟨fun _ => h.select _, fun _ _ _ _ _ _ => h.mutate _ rfl, hcommit⟩

include hcommit hcache in
theorem publish (event : DomainEvent) : (EventBus.publish (subscribers cfg) event).All P :=
  (h.announcing hcommit).publish hcache event

include hcommit hcache in
theorem transferPublish (eventType : EventType) (txn : Transaction) (money : Money)
    (sender receiver : Account) :
    (TransferService.publish cfg eventType txn money sender receiver).All P :=
  (h.books.reloadTransaction _).bind fun _ => (h.books.reloadAccount _).bind fun _ =>
    (h.books.reloadAccount _).bind fun _ => (h.publish hcommit hcache _).bind fun _ => trivial

/-! ## Operations -/

include hcommit hcache in
theorem execute (senderId receiverId : Id) (amount : Decimal) (correlationId : Option String) :
    (TransferService.execute cfg senderId receiverId amount correlationId).All P := by
  refine (h.books.lock _).bind fun sender => (h.books.get _).bind fun receiver => ?_
  refine (Bookkeeping.validate _ _ _).bind fun money => (h.books.ensureFunds _ _).bind fun _ => ?_
  refine (h.books.correlationIdOr _).bind fun _ => (all_ask (h.mutate _ rfl)).bind fun txn => ?_
  refine (h.books.post _ _).bind fun _ => (h.books.maybeSnapshot _).bind fun _ => ?_
  exact (h.books.maybeSnapshot _).bind fun _ => (all_ask hcommit).bind fun _ =>
    h.transferPublish hcommit hcache _ _ _ _ _

include hcommit hcache in
theorem initiate (senderId receiverId : Id) (amount : Decimal) (correlationId : Option String) :
    (TransferService.initiate cfg senderId receiverId amount correlationId).All P := by
  refine (h.books.lock _).bind fun sender => (h.books.get _).bind fun receiver => ?_
  refine (Bookkeeping.validate _ _ _).bind fun money => (h.books.ensureFunds _ _).bind fun _ => ?_
  refine (h.books.correlationIdOr _).bind fun _ => (all_ask (h.mutate _ rfl)).bind fun txn => ?_
  exact (all_ask (h.mutate _ rfl)).bind fun _ => (all_ask hcommit).bind fun _ =>
    h.transferPublish hcommit hcache _ _ _ _ _

include hcommit hcache in
theorem commit (transactionId : Id) : (TransferService.commit cfg transactionId).All P := by
  refine (h.books.pendingTransaction _).bind fun txn => ?_
  refine (Program.all_ofExcept _).bind fun money => ?_
  refine (all_raiseIf _ _).bind fun _ => (all_ask (h.select _)).bind fun found => ?_
  refine (all_ofOption _ _).bind fun debit => (h.books.lock _).bind fun sender => ?_
  refine (Program.all_ofExcept _).bind fun receiverId => (h.books.get _).bind fun receiver => ?_
  refine (all_ask (h.mutate _ rfl)).bind fun _ => (all_ask (h.mutate _ rfl)).bind fun _ => ?_
  refine (Program.all_ofExcept _).bind fun _ => (all_ask (h.mutate _ rfl)).bind fun _ => ?_
  refine (h.books.maybeSnapshot _).bind fun _ => (h.books.maybeSnapshot _).bind fun _ => ?_
  exact (all_ask hcommit).bind fun _ => h.transferPublish hcommit hcache _ _ _ _ _

include hcommit hcache in
theorem fail (transactionId : Id) : (TransferService.fail cfg transactionId).All P := by
  refine (h.books.pendingTransaction _).bind fun txn => ?_
  refine (all_ask (h.select _)).bind fun entries => ?_
  refine (Program.All.forEach fun _ _ => all_ask (h.mutate _ rfl)).bind fun _ => ?_
  refine (all_ask (h.mutate _ rfl)).bind fun _ => (all_ask hcommit).bind fun _ => ?_
  exact (h.books.reloadTransaction _).bind fun _ => (h.publish hcommit hcache _).bind fun _ =>
    trivial

include hcommit in
theorem reverse (transactionId : Id) (correlationId : Option String) :
    (ReversalService.reverse cfg transactionId correlationId).All P := by
  refine (all_ask (h.select _)).bind fun found => (all_ofOption _ _).bind fun txn => ?_
  refine (all_raiseIf _ _).bind fun _ => (all_raiseIf _ _).bind fun _ => ?_
  refine (all_ask (h.select _)).bind fun entries => ?_
  refine Program.All.bind (Program.All.forEach fun _ _ => (h.books.lock _).bind fun _ => trivial)
    fun _ => ?_
  refine (h.books.correlationIdOr _).bind fun _ => ?_
  refine (all_ask (h.mutate _ rfl)).bind fun reversal => ?_
  refine (Program.all_ofExcept _).bind fun mirrored => (h.books.post _ _).bind fun _ => ?_
  refine (all_ask (h.mutate _ rfl)).bind fun _ => ?_
  refine Program.All.bind (Program.All.forEach fun _ _ =>
    (h.books.get _).bind fun _ => h.books.maybeSnapshot _) fun _ => ?_
  exact (all_ask hcommit).bind fun _ => trivial

include hcommit in
theorem initiateDeposit (accountId : Id) (amount : Decimal) (provider : String)
    (context : DepositContext) (correlationId : Option String) :
    (DepositService.initiate cfg accountId amount provider context correlationId).All P := by
  refine (h.books.get _).bind fun account => (Program.all_ofExcept _).bind fun money => ?_
  refine (all_raiseIf _ _).bind fun _ => (h.books.correlationIdOr _).bind fun _ => ?_
  refine (all_ask (h.mutate _ rfl)).bind fun txn => (Program.all_ofExcept _).bind fun _ => ?_
  refine (Program.all_ofExcept _).bind fun _ => (all_ask (h.mutate _ rfl)).bind fun _ => ?_
  exact (all_ask hcommit).bind fun _ => trivial

include hcommit hcache in
theorem settle (reference : String) (confirmedAmount : Option Decimal)
    (confirmedCurrency : Option String) :
    (DepositService.settle cfg reference confirmedAmount confirmedCurrency).All P := by
  refine (all_ask (h.select _)).bind fun found => (all_ofOption _ _).bind fun txn => ?_
  refine (all_raiseIf _ _).bind fun _ => (Program.all_ofExcept _).bind fun authorized => ?_
  refine (Program.all_ofExcept _).bind fun _ => (Program.all_ofExcept _).bind fun accountId => ?_
  refine (h.books.lock _).bind fun account => ?_
  refine (h.books.getOrCreateInternal _ _).bind fun clearing => ?_
  refine (h.books.post _ _).bind fun _ => (all_ask (h.mutate _ rfl)).bind fun _ => ?_
  refine (h.books.maybeSnapshot _).bind fun _ => (h.books.maybeSnapshot _).bind fun _ => ?_
  refine (all_ask hcommit).bind fun _ => (h.books.reloadTransaction _).bind fun txn => ?_
  refine (h.books.reloadAccount _).bind fun account => ?_
  exact (h.publish hcommit hcache _).bind fun _ => trivial

include hcommit in
theorem createAccount (hrollback : P .rollback) (ownerId currency : String) :
    (AccountService.create ownerId currency).All P := by
  refine Program.All.attempt ?_ fun e => ?_
  · exact (all_ask (h.mutate _ rfl)).bind fun _ => (all_ask hcommit).bind fun _ => trivial
  · split
    · exact (all_ask hrollback).bind fun _ => trivial
    · trivial

include hcommit hcache in
theorem executeFxTransfer (rates : RateTable) (senderId receiverId : Id) (amount : Decimal)
    (correlationId : Option String) :
    (FxService.executeFxTransfer cfg rates senderId receiverId amount correlationId).All P := by
  refine (h.books.lock _).bind fun sender => (h.books.get _).bind fun receiver => ?_
  refine (all_raiseIf _ _).bind fun _ => (Program.all_ofExcept _).bind fun sent => ?_
  refine (all_raiseIf _ _).bind fun _ => (h.books.availableBalance _).bind fun _ => ?_
  refine (Program.all_ofExcept _).bind fun _ => (Program.all_ofExcept _).bind fun received => ?_
  refine (h.books.getOrCreateInternal _ _).bind fun _ => ?_
  refine (h.books.getOrCreateInternal _ _).bind fun _ => ?_
  refine (h.books.correlationIdOr _).bind fun _ => (all_ask (h.mutate _ rfl)).bind fun txn => ?_
  refine (h.books.post _ _).bind fun _ => ?_
  refine Program.All.bind (Program.All.forEach fun _ _ => h.books.maybeSnapshot _) fun _ => ?_
  refine (all_ask hcommit).bind fun _ => (h.books.reloadTransaction _).bind fun _ => ?_
  exact (h.books.reloadAccount _).bind fun _ => (h.books.reloadAccount _).bind fun _ =>
    (h.publish hcommit hcache _).bind fun _ => trivial

include hcommit hcache in
/-- Every request of an operation. -/
theorem operation (hrollback : P .rollback) (op : Operation) : (op.program cfg).All P := by
  cases op with
  | createAccount ownerId currency => exact all_map (h.createAccount hcommit hrollback _ _) _
  | initiateDeposit accountId amount provider context correlationId =>
    exact all_map (h.initiateDeposit hcommit _ _ _ _ _) _
  | settle reference confirmedAmount confirmedCurrency =>
    exact all_map (h.settle hcommit hcache _ _ _) _
  | execute senderId receiverId amount correlationId =>
    exact all_map (h.execute hcommit hcache _ _ _ _) _
  | initiate senderId receiverId amount correlationId =>
    exact all_map (h.initiate hcommit hcache _ _ _ _) _
  | commit transactionId => exact all_map (h.commit hcommit hcache _) _
  | fail transactionId => exact all_map (h.fail hcommit hcache _) _
  | executeFxTransfer rates senderId receiverId amount correlationId =>
    exact all_map (h.executeFxTransfer hcommit hcache _ _ _ _ _) _
  | reverse transactionId correlationId => exact all_map (h.reverse hcommit _ _) _

include hcommit hcache in
/-- Every request of a view. -/
theorem view (web : Web) (r : HttpRequest) : (r.view cfg web).All P := by
  unfold HttpRequest.view
  cases r.endpoint with
  | executeTransfer =>
    refine (all_ofOption _ _).bind fun data => (h.books.resolvePair _).bind fun pair => ?_
    exact (h.execute hcommit hcache _ _ _ _).bind fun _ =>
      (h.books.serializeExpired _).bind fun _ => trivial
  | initiateTransfer =>
    refine (all_ofOption _ _).bind fun data => (h.books.resolvePair _).bind fun pair => ?_
    exact (h.initiate hcommit hcache _ _ _ _).bind fun _ => trivial
  | commitTransfer transactionId =>
    exact (h.commit hcommit hcache _).bind fun _ => (h.books.serializeExpired _).bind fun _ =>
      trivial
  | failTransfer transactionId => exact (h.fail hcommit hcache _).bind fun _ => trivial
  | reverseTransaction transactionId =>
    exact (h.reverse hcommit _ _).bind fun _ => (h.books.serializeExpired _).bind fun _ => trivial
  | createDeposit =>
    refine (all_ofOption _ _).bind fun data => (h.books.getByNumber _).bind fun account => ?_
    exact (h.initiateDeposit hcommit _ _ _ _ _).bind fun _ =>
      (h.books.serializeExpired _).bind fun _ => trivial
  | fxTransfer =>
    refine (all_ofOption _ _).bind fun data => (h.books.getByNumber _).bind fun sender => ?_
    refine (h.books.getByNumber _).bind fun receiver => ?_
    exact (h.executeFxTransfer hcommit hcache _ _ _ _ _).bind fun _ =>
      (h.books.serializeExpired _).bind fun _ => trivial

end Ordinary

/-- A request of a view: it leaves the keys alone and does not roll back. -/
def Request.ofView : Request → Bool
  | .mutate m => !m.onKeys
  | .rollback => false
  | _ => true

/-- A view issues no other request. -/
theorem view_requests (web : Web) (r : HttpRequest) :
    (r.view cfg web).All fun q => q.ofView = true := by
  have h : Ordinary fun q : Request => q.ofView = true :=
    ⟨fun _ => rfl, fun m hm => by simp [Request.ofView, hm], rfl⟩
  exact h.view rfl (fun _ => rfl) web r

end services

end WalletLedger
