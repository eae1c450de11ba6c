import WalletLedger.Lib.Environments
import WalletLedger.Operations.Surface

/-!
# Programs that do not look into the cache

The services only drop balances from the cache, and go on alike whether that has worked: none of
them depends on what the cache answers.  A reader of balances is the one program that does.

* `CacheBlind` — what follows a request to the cache does not depend on its answer.
* `cacheBlind_publish` — so it is with the subscribers of an event, and then with the services.
* `cacheBlind_entry` — and with every entry point, the reader of balances apart.
-/

namespace WalletLedger

variable {cfg : Config} {α β : Type}

/-- The request is about the cache. -/
def Request.onCache : Request → Bool
  | .cacheGet _ => true
  | .cacheSet _ _ => true
  | .cacheDelete _ => true
  | _ => false

/-- What follows a request to the cache does not depend on its answer. -/
abbrev CacheBlind (p : App α) : Prop := p.Blind fun r => r.onCache = true

/-- A program that asks nothing of the cache. -/
abbrev OffCache (p : App α) : Prop := p.All fun r => ¬ r.onCache = true

/-- Nothing but the cache itself is asked of the cache. -/
theorem ordinary_offCache : Ordinary fun r => ¬ r.onCache = true where
  select _ := Bool.false_ne_true
  mutate _ _ := Bool.false_ne_true
  uuid4 := Bool.false_ne_true

theorem bookkeeping_offCache : Bookkeeping fun r => ¬ r.onCache = true := ordinary_offCache.books

theorem announcing_offCache : Announcing fun r => ¬ r.onCache = true :=
  ordinary_offCache.announcing Bool.false_ne_true

theorem decorating_offCache : Decorating fun r => ¬ r.onCache = true where
  select _ := Bool.false_ne_true
  mutate _ _ := Bool.false_ne_true
  commit := Bool.false_ne_true
  rollback := Bool.false_ne_true

theorem offCache_commit : OffCache (ask .commit) := all_ask Bool.false_ne_true

theorem offCache_select (q : Query) : OffCache (ask (.select q)) := all_ask Bool.false_ne_true

theorem offCache_mutate (m : Mutation) : OffCache (ask (.mutate m)) := all_ask Bool.false_ne_true

/-! ## Events -/

/-- A balance that could not be dropped stays unnoticed. -/
theorem cacheBlind_invalidate (accountId : Id) :
    CacheBlind (BalanceCache.invalidate accountId) := by
  constructor
  · intro _ v v'
    cases v <;> cases v' <;> rfl
  · intro v
    cases v <;> trivial

theorem cacheBlind_publish (event : DomainEvent) :
    CacheBlind (EventBus.publish (subscribers cfg) event) := by
  have k := announcing_offCache
  have invalidate : CacheBlind (invalidateBalances event) :=
    Program.Blind.forEach fun accountId _ => cacheBlind_invalidate accountId
  have completed : OffCache (NotificationService.onTransferCompleted cfg event) :=
    (all_ofOption _ _).bind fun _ => (all_ofOption _ _).bind fun _ =>
      (all_ofOption _ _).bind fun _ => k.notify _ _ _
  have failed : OffCache (NotificationService.onTransferFailed cfg event) := by
    unfold NotificationService.onTransferFailed NotificationService.notifyTransactionParty
    split
    · exact k.notify _ _ _
    · trivial
  have deposited : OffCache (NotificationService.onDepositCompleted cfg event) :=
    (all_ofOption _ _).bind fun _ => (all_ofOption _ _).bind fun _ =>
      (all_ofOption _ _).bind fun _ => k.notify _ _ _
  refine Program.Blind.forEach fun handler hmem => Program.Blind.attempt ?_ fun _ => trivial
  cases heventType : event.eventType <;>
    simp only [heventType, subscribers, List.mem_cons, List.not_mem_nil, or_false] at hmem
  · rwa [hmem]
  · rcases hmem with rfl | rfl
    · exact completed.blind
    · exact invalidate
  · rcases hmem with rfl | rfl
    · exact failed.blind
    · exact invalidate
  · rcases hmem with rfl | rfl
    · exact deposited.blind
    · exact invalidate

/-- A response that publishes an event last. -/
theorem cacheBlind_published (event : DomainEvent) (a : α) :
    CacheBlind (EventBus.publish (subscribers cfg) event >>= fun _ => (.ret a : App α)) :=
  (cacheBlind_publish event).bind fun _ => trivial

theorem cacheBlind_transferPublish (eventType : EventType) (txn : Transaction) (money : Money)
    (sender receiver : Account) :
    CacheBlind (TransferService.publish cfg eventType txn money sender receiver) := by
  have k := bookkeeping_offCache
  refine (k.reloadTransaction _).then fun txn => (k.reloadAccount _).then fun sender => ?_
  exact (k.reloadAccount _).then fun receiver => cacheBlind_published _ _

/-! ## Services -/

theorem cacheBlind_execute (senderId receiverId : Id) (amount : Decimal)
    (correlationId : Option String) :
    CacheBlind (TransferService.execute cfg senderId receiverId amount correlationId) := by
  have k := bookkeeping_offCache
  refine (k.lock _).then fun sender => (k.get _).then fun receiver => ?_
  refine (Bookkeeping.validate _ _ _).then fun money => (k.ensureFunds _ _).then fun _ => ?_
  refine (k.correlationIdOr _).then fun _ => (offCache_mutate _).then fun txn => ?_
  refine (k.post _ _).then fun _ => (k.maybeSnapshot _).then fun _ => ?_
  exact (k.maybeSnapshot _).then fun _ => offCache_commit.then fun _ =>
    cacheBlind_transferPublish _ _ _ _ _

theorem cacheBlind_initiate (senderId receiverId : Id) (amount : Decimal)
    (correlationId : Option String) :
    CacheBlind (TransferService.initiate cfg senderId receiverId amount correlationId) := by
  have k := bookkeeping_offCache
  refine (k.lock _).then fun sender => (k.get _).then fun receiver => ?_
  refine (Bookkeeping.validate _ _ _).then fun money => (k.ensureFunds _ _).then fun _ => ?_
  refine (k.correlationIdOr _).then fun _ => (offCache_mutate _).then fun txn => ?_
  exact (offCache_mutate _).then fun _ => offCache_commit.then fun _ =>
    cacheBlind_transferPublish _ _ _ _ _

theorem cacheBlind_commit (transactionId : Id) :
    CacheBlind (TransferService.commit cfg transactionId) := by
  have k := bookkeeping_offCache
  refine (k.pendingTransaction _).then fun txn => Program.All.then (Program.all_ofExcept _) ?_
  refine fun money => Program.All.then (all_raiseIf _ _) fun _ => ?_
  refine (offCache_select _).then fun found => Program.All.then (all_ofOption _ _) fun debit => ?_
  refine (k.lock _).then fun sender => ?_
  refine Program.All.then (Program.all_ofExcept _) fun receiverId => ?_
  refine (k.get _).then fun receiver => (offCache_mutate _).then fun _ => ?_
  refine (offCache_mutate _).then fun _ => Program.All.then (Program.all_ofExcept _) fun _ => ?_
  refine (offCache_mutate _).then fun _ => (k.maybeSnapshot _).then fun _ => ?_
  exact (k.maybeSnapshot _).then fun _ => offCache_commit.then fun _ =>
    cacheBlind_transferPublish _ _ _ _ _

theorem cacheBlind_fail (transactionId : Id) :
    CacheBlind (TransferService.fail cfg transactionId) := by
  have k := bookkeeping_offCache
  refine (k.pendingTransaction _).then fun txn => (offCache_select _).then fun entries => ?_
  refine Program.All.then (Program.All.forEach fun _ _ => offCache_mutate _) fun _ => ?_
  refine (offCache_mutate _).then fun _ => offCache_commit.then fun _ => ?_
  exact (k.reloadTransaction _).then fun txn => cacheBlind_published _ _

theorem cacheBlind_settleFound (missing : Exn) (check : Transaction → Money → Except Exn Unit)
    (found : Option Transaction) :
    CacheBlind (DepositService.settleFound cfg missing check found) := by
  have k := bookkeeping_offCache
  refine Program.All.then (all_ofOption _ _) fun txn => ?_
  refine Program.All.then (all_raiseIf _ _) fun _ => ?_
  refine Program.All.then (Program.all_ofExcept _) fun authorized => ?_
  refine Program.All.then (Program.all_ofExcept _) fun _ => ?_
  refine Program.All.then (Program.all_ofExcept _) fun accountId => ?_
  refine (k.lock _).then fun account => ?_
  refine (k.getOrCreateInternal _ _).then fun clearing => (k.post _ _).then fun _ => ?_
  refine (offCache_mutate _).then fun _ => (k.maybeSnapshot _).then fun _ => ?_
  refine (k.maybeSnapshot _).then fun _ => offCache_commit.then fun _ => ?_
  refine (k.reloadTransaction _).then fun txn => (k.reloadAccount _).then fun account => ?_
  exact cacheBlind_published _ _

theorem cacheBlind_executeFxTransfer (rates : RateTable) (senderId receiverId : Id)
    (amount : Decimal) (correlationId : Option String) :
    CacheBlind
      (FxService.executeFxTransfer cfg rates senderId receiverId amount correlationId) := by
  have k := bookkeeping_offCache
  refine (k.lock _).then fun sender => (k.get _).then fun receiver => ?_
  refine Program.All.then (all_raiseIf _ _) fun _ => Program.All.then (Program.all_ofExcept _) ?_
  refine fun sent => Program.All.then (all_raiseIf _ _) fun _ => ?_
  refine (k.availableBalance _).then fun _ => Program.All.then (Program.all_ofExcept _) fun _ => ?_
  refine Program.All.then (Program.all_ofExcept _) fun received => ?_
  refine (k.getOrCreateInternal _ _).then fun _ => (k.getOrCreateInternal _ _).then fun _ => ?_
  refine (k.correlationIdOr _).then fun _ => (offCache_mutate _).then fun txn => ?_
  refine (k.post _ _).then fun _ => ?_
  refine Program.All.then (Program.All.forEach fun _ _ => k.maybeSnapshot _) fun _ => ?_
  refine offCache_commit.then fun _ => (k.reloadTransaction _).then fun _ => ?_
  exact (k.reloadAccount _).then fun _ => (k.reloadAccount _).then fun _ => cacheBlind_published _ _

/-! ## Entry points -/

theorem cacheBlind_serialized {p : App Transaction} (hp : CacheBlind p) (status : ℕ) :
    CacheBlind (p >>= fun txn => serializeExpired txn >>= fun body =>
      (.ret ⟨status, body⟩ : App Response)) :=
  hp.bind fun _ => (bookkeeping_offCache.serializeExpired _).then fun _ => trivial

theorem cacheBlind_view (web : Web) (r : HttpRequest) : CacheBlind (r.view cfg web) := by
  have k := bookkeeping_offCache
  have o := ordinary_offCache
  have hcommit : ¬ Request.onCache .commit = true := Bool.false_ne_true
  unfold HttpRequest.view
  cases r.endpoint with
  | executeTransfer =>
    refine Program.All.then (all_ofOption _ _) fun data => (k.resolvePair _).then fun pair => ?_
    exact cacheBlind_serialized (cacheBlind_execute _ _ _ _) 201
  | initiateTransfer =>
    refine Program.All.then (all_ofOption _ _) fun data => (k.resolvePair _).then fun pair => ?_
    exact (cacheBlind_initiate _ _ _ _).bind fun _ => trivial
  | commitTransfer transactionId => exact cacheBlind_serialized (cacheBlind_commit _) 200
  | failTransfer transactionId => exact (cacheBlind_fail _).bind fun _ => trivial
  | reverseTransaction transactionId =>
    exact cacheBlind_serialized (Program.All.blind (o.reverse hcommit _ _)) 201
  | createDeposit =>
    refine Program.All.then (all_ofOption _ _) fun data => (k.getByNumber _).then fun account => ?_
    exact cacheBlind_serialized (Program.All.blind (o.initiateDeposit hcommit _ _ _ _ _)) 201
  | fxTransfer =>
    refine Program.All.then (all_ofOption _ _) fun data => (k.getByNumber _).then fun sender => ?_
    exact (k.getByNumber _).then fun receiver =>
      cacheBlind_serialized (cacheBlind_executeFxTransfer _ _ _ _ _) 201

theorem cacheBlind_handle (web : Web) (r : HttpRequest) : CacheBlind (r.handle cfg web) := by
  have k := decorating_offCache
  have hview : CacheBlind (r.view cfg web) := cacheBlind_view web r
  unfold HttpRequest.handle idempotent
  cases r.key with
  | none => exact hview
  | some key =>
    dsimp only
    split
    · exact hview
    refine (k.claimKey _ _).then fun replayed => ?_
    cases replayed with
    | some response => trivial
    | none =>
      refine Program.Blind.bind ?_ fun response => (k.storeResponse _ _).then fun _ => trivial
      exact hview.attempt fun e => (k.releaseKey _).then fun _ => trivial

theorem cacheBlind_process (pay : Payments) (r : WebhookRequest) :
    CacheBlind (r.process cfg pay) := by
  refine Program.All.then (Program.all_ofExcept _) fun result => ?_
  split
  · trivial
  · refine Program.Blind.bind ?_ fun txn =>
      (bookkeeping_offCache.reloadTransaction _).then fun _ => trivial
    refine Program.All.then (Program.all_ofExcept _) fun reference => ?_
    exact (offCache_select _).then fun found => cacheBlind_settleFound _ _ _

theorem offCache_create (ownerId currency : String) :
    OffCache (AccountService.create ownerId currency) :=
  ordinary_offCache.createAccount Bool.false_ne_true Bool.false_ne_true _ _

theorem offCache_fund (account : Account) (amount : Decimal) :
    OffCache (Seeds.fund account amount) := by
  have k := bookkeeping_offCache
  refine (k.getOrCreateInternal _ _).bind fun clearing => (offCache_mutate _).bind fun txn => ?_
  refine Program.All.bind ?_ fun _ => offCache_commit.bind fun _ => trivial
  exact (Program.all_ofExcept _).bind fun _ => Program.All.forEach fun _ _ => offCache_mutate _

theorem offCache_ensure (ownerId currency : String) (fundAmount : Option Decimal) :
    OffCache (Seeds.ensure ownerId currency fundAmount) := by
  refine (offCache_select _).bind fun found => ?_
  cases found with
  | some account => trivial
  | none =>
    refine (offCache_create _ _).bind fun account => ?_
    cases fundAmount with
    | none => trivial
    | some amount =>
      exact (bookkeeping_offCache.reloadAccount _).bind fun account =>
        (offCache_fund _ _).bind fun _ => trivial

theorem cacheBlind_seed : CacheBlind (Seeds.seed cfg) := by
  have k := bookkeeping_offCache
  have numbers : ∀ alice bob kamga claire : Account,
      OffCache (Seeds.numbers alice bob kamga claire) := fun _ _ _ _ =>
    (k.reloadAccount _).bind fun _ => (k.reloadAccount _).bind fun _ =>
      (k.reloadAccount _).bind fun _ => (k.reloadAccount _).bind fun _ => trivial
  refine (offCache_ensure _ _ _).then fun alice => (offCache_ensure _ _ _).then fun bob => ?_
  refine (offCache_ensure _ _ _).then fun kamga => (offCache_ensure _ _ _).then fun claire => ?_
  dsimp only
  split
  · refine (k.reloadAccount _).then fun sender => (k.reloadAccount _).then fun receiver => ?_
    exact (cacheBlind_execute _ _ _ _).bind fun _ => (numbers _ _ _ _).blind
  · exact (numbers _ _ _ _).blind

/-- No entry point depends on what the cache answers, the reader of balances apart. -/
theorem cacheBlind_entry (web : Web) (pay : Payments) {e : Entry}
    (he : ∀ number, e ≠ .accountBalance number) : CacheBlind (e.program cfg web pay) := by
  have k := bookkeeping_offCache
  cases e with
  | post r => exact (cacheBlind_handle web r).map _
  | createAccount json =>
    refine Program.Blind.map ?_ _
    refine Program.All.then (all_ofOption _ _) fun data => ?_
    exact (offCache_create _ _).then fun account => (k.reloadAccount _).then fun _ => trivial
  | getAccount number =>
    refine Program.Blind.map ?_ _
    exact (k.getByNumber _).then fun _ => trivial
  | accountBalance number => exact absurd rfl (he number)
  | webhook r => exact (cacheBlind_process pay r).map _
  | fund number amount =>
    refine Program.Blind.map ?_ _
    exact (k.getByNumber _).then fun account => (offCache_fund _ _).then fun _ => trivial
  | seed => exact cacheBlind_seed.map _

end WalletLedger
