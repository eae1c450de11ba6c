import WalletLedger.Api.Application
import WalletLedger.Operations.Keys

/-!
# What the entry points ask

The requests of the undecorated endpoints, of the webhooks and of the operator's commands, and
those of a decorated endpoint around its view.

* `Consulting` — the requests of a reader of balances.
* `Surface` — these, and the requests of the services;
  `Surface.entry` — an undecorated entry point issues no other.
* `Decorating` — the same for what a decorated endpoint asks around its view.
* `gives_view` — a view returns successes only.
* `handle_completes` — and so does a decorated endpoint store successes only.
-/

namespace WalletLedger

variable {P : Request → Prop} {cfg : Config}

/-! ## A reader of balances -/

/-- What a reader of balances asks has the property: queries, and what is read from the cache and
written to it. -/
structure Consulting (P : Request → Prop) : Prop where
  select : ∀ q, P (.select q)
  cacheGet : ∀ a, P (.cacheGet a)
  cacheSet : ∀ a amount, P (.cacheSet a amount)

namespace Consulting

variable (h : Consulting P)

include h

theorem balance (account : Account) : (LedgerService.balance account).All P :=
  (all_ask (h.select _)).bind fun _ => (all_ask (h.select _)).bind fun _ => Program.all_ofExcept _

theorem balanceQuery (account : Account) : (BalanceQuery.get account).All P := by
  have hget : (BalanceCache.get account.id account.currency).All P := by
    refine Program.All.bind (Program.All.attempt (all_ask (h.cacheGet _)) fun _ => trivial)
      fun raw => ?_
    cases raw with
    | none => trivial
    | some amount => exact all_map (Program.all_ofExcept _) _
  have hset : ∀ money, (BalanceCache.set account.id money).All P := by
    intro money
    exact Program.All.attempt (all_ask (h.cacheSet _ _)) fun _ => trivial
  apply hget.bind
  intro cached
  cases cached with
  | some money => trivial
  | none => exact (h.balance account).bind fun money => (hset money).bind fun _ => trivial

theorem accountBalance (number : String) : (WalletLedger.accountBalance number).All P := by
  have hfound : (AccountService.getByNumber number).All P :=
    (all_ask (h.select _)).bind fun _ => all_ofOption _ _
  exact hfound.bind fun account => (h.balanceQuery account).bind fun _ => trivial

end Consulting

/-! ## The services and their readers -/

/-- What the services ask has the property, and so has what a reader of balances asks. -/
structure Surface (P : Request → Prop) : Prop extends Ordinary P where
  commit : P .commit
  rollback : P .rollback
  cacheGet : ∀ a, P (.cacheGet a)
  cacheSet : ∀ a amount, P (.cacheSet a amount)
  cacheDelete : ∀ a, P (.cacheDelete a)

namespace Surface

variable (h : Surface P)

include h

theorem consulting : Consulting P := ⟨h.select, h.cacheGet, h.cacheSet⟩

theorem settleFound (missing : Exn) (check : Transaction → Money → Except Exn Unit)
    (found : Option Transaction) :
    (DepositService.settleFound cfg missing check found).All P := by
  refine (all_ofOption _ _).bind fun txn => (all_raiseIf _ _).bind fun _ => ?_
  refine (Program.all_ofExcept _).bind fun authorized => ?_
  refine (Program.all_ofExcept _).bind fun _ => (Program.all_ofExcept _).bind fun accountId => ?_
  refine (h.books.lock _).bind fun account => ?_
  refine (h.books.getOrCreateInternal _ _).bind fun clearing => ?_
  refine (h.books.post _ _).bind fun _ => (all_ask (h.mutate _ rfl)).bind fun _ => ?_
  refine (h.books.maybeSnapshot _).bind fun _ => (h.books.maybeSnapshot _).bind fun _ => ?_
  refine (all_ask h.commit).bind fun _ => (h.books.reloadTransaction _).bind fun txn => ?_
  refine (h.books.reloadAccount _).bind fun account => ?_
  exact (h.publish h.commit h.cacheDelete _).bind fun _ => trivial

theorem process (pay : Payments) (r : WebhookRequest) : (r.process cfg pay).All P := by
  refine (Program.all_ofExcept _).bind fun result => ?_
  split
  · trivial
  · refine Program.All.bind ?_ fun txn => (h.books.reloadTransaction _).bind fun _ => trivial
    exact (Program.all_ofExcept _).bind fun reference => (all_ask (h.select _)).bind fun found =>
      h.settleFound _ _ _

theorem fund (account : Account) (amount : Decimal) : (Seeds.fund account amount).All P := by
  refine (h.books.getOrCreateInternal _ _).bind fun clearing => ?_
  refine (all_ask (h.mutate _ rfl)).bind fun txn => Program.All.bind ?_ fun _ => ?_
  · exact (Program.all_ofExcept _).bind fun _ =>
      Program.All.forEach fun _ _ => all_ask (h.mutate _ rfl)
  · exact (all_ask h.commit).bind fun _ => trivial

theorem ensure (ownerId currency : String) (fundAmount : Option Decimal) :
    (Seeds.ensure ownerId currency fundAmount).All P := by
  refine (all_ask (h.select _)).bind fun found => ?_
  cases found with
  | some account => trivial
  | none =>
    refine (h.createAccount h.commit h.rollback _ _).bind fun account => ?_
    cases fundAmount with
    | none => trivial
    | some amount =>
      exact (h.books.reloadAccount _).bind fun account => (h.fund _ _).bind fun _ => trivial

theorem numbers (alice bob kamga claire : Account) :
    (Seeds.numbers alice bob kamga claire).All P :=
  (h.books.reloadAccount _).bind fun _ => (h.books.reloadAccount _).bind fun _ =>
    (h.books.reloadAccount _).bind fun _ => (h.books.reloadAccount _).bind fun _ => trivial

theorem seed : (Seeds.seed cfg).All P := by
  refine (h.ensure _ _ _).bind fun alice => (h.ensure _ _ _).bind fun bob => ?_
  refine (h.ensure _ _ _).bind fun kamga => (h.ensure _ _ _).bind fun claire => ?_
  dsimp only
  split
  · refine (h.books.reloadAccount _).bind fun sender => (h.books.reloadAccount _).bind
      fun receiver => ?_
    exact (h.execute h.commit h.cacheDelete _ _ _ _).bind fun _ => h.numbers _ _ _ _
  · exact h.numbers _ _ _ _

theorem fundAccount (number : String) (amount : Decimal) :
    (Seeds.fundAccount number amount).All P :=
  (h.books.getByNumber _).bind fun _ => (h.fund _ _).bind fun _ => trivial

theorem openAccount (json : Option PyJson) : (WalletLedger.createAccount json).All P := by
  refine (all_ofOption _ _).bind fun data => ?_
  refine (h.createAccount h.commit h.rollback _ _).bind fun account => ?_
  exact (h.books.reloadAccount _).bind fun _ => trivial

theorem getAccount (number : String) : (WalletLedger.getAccount number).All P :=
  (h.books.getByNumber _).bind fun _ => trivial

/-- Every request of an entry point that is not decorated. -/
theorem entry (web : Web) (pay : Payments) {e : Entry} (he : ∀ r, e ≠ .post r) :
    (e.program cfg web pay).All P := by
  cases e with
  | post r => exact absurd rfl (he r)
  | createAccount json => exact all_map (h.openAccount json) _
  | getAccount number => exact all_map (h.getAccount number) _
  | accountBalance number => exact all_map (h.consulting.accountBalance number) _
  | webhook r => exact all_map (h.process pay r) _
  | fund number amount => exact all_map (h.fundAccount number amount) _
  | seed => exact all_map h.seed _

end Surface

/-- An entry point that is not decorated leaves the keys alone. -/
theorem offKeys_entry (web : Web) (pay : Payments) {e : Entry} (he : ∀ r, e ≠ .post r) :
    OffKeys (e.program cfg web pay) := by
  have h : Surface fun r : Request => r.offKeys = true :=
    { select := fun _ => rfl
      mutate := fun m hm => by simp [Request.offKeys, hm]
      uuid4 := rfl
      commit := rfl
      rollback := rfl
      cacheGet := fun _ => rfl
      cacheSet := fun _ _ => rfl
      cacheDelete := fun _ => rfl }
  exact h.entry web pay he

/-! ## Around a view -/

/-- What a decorated endpoint asks around its view has the property. -/
structure Decorating (P : Request → Prop) : Prop where
  select : ∀ key, P (.select (.idempotencyKey key))
  mutate : ∀ m, m.onKeys = true → P (.mutate m)
  commit : P .commit
  rollback : P .rollback

namespace Decorating

variable (h : Decorating P)

include h

theorem claimKey (key requestHash : String) : (WalletLedger.claimKey key requestHash).All P := by
  refine Program.All.attempt ?_ fun e => ?_
  · exact (all_ask (h.mutate _ rfl)).bind fun _ => (all_ask h.commit).bind fun _ => trivial
  · split
    · refine (all_ask h.rollback).bind fun _ => all_map ?_ _
      rw [resolveDuplicate_eq]
      exact (all_ask (h.select _)).bind fun _ => trivial
    · trivial

theorem releaseKey (key : String) : (WalletLedger.releaseKey key).All P := by
  refine (all_ask h.rollback).bind fun _ => (all_ask (h.select _)).bind fun found => ?_
  cases found with
  | none => trivial
  | some claim =>
    dsimp only
    split
    · exact (all_ask (h.mutate _ rfl)).bind fun _ => all_ask h.commit
    · trivial

theorem storeResponse (key : String) (response : Response) :
    (WalletLedger.storeResponse key response).All P :=
  (all_ask (h.select _)).bind fun _ => (all_ofOption _ _).bind fun _ =>
    (all_ask (h.mutate _ rfl)).bind fun _ => all_ask h.commit

end Decorating

/-! ## What is stored with a key -/

/-- A view returns successes only. -/
theorem gives_view (cfg : Config) (web : Web) (r : HttpRequest) :
    (r.view cfg web).Gives fun response => response.status ∈ [200, 201] := by
  have ok : (200 : ℕ) ∈ [200, 201] := by decide
  have created : (201 : ℕ) ∈ [200, 201] := by decide
  unfold HttpRequest.view
  cases r.endpoint with
  | executeTransfer => exact .bind fun _ => .bind fun _ => .bind fun _ => .bind fun _ => created
  | initiateTransfer => exact .bind fun _ => .bind fun _ => .bind fun _ => created
  | commitTransfer transactionId => exact .bind fun _ => .bind fun _ => ok
  | failTransfer transactionId => exact .bind fun _ => ok
  | reverseTransaction transactionId => exact .bind fun _ => .bind fun _ => created
  | createDeposit => exact .bind fun _ => .bind fun _ => .bind fun _ => .bind fun _ => created
  | fxTransfer =>
    exact .bind fun _ => .bind fun _ => .bind fun _ => .bind fun _ => .bind fun _ => created

/-- The request stores a success, if it stores a response. -/
def Request.StoresSuccess : Request → Prop
  | .mutate (.completeKey _ status _) => status ∈ [200, 201]
  | _ => True

/-- A decorated endpoint stores successes only. -/
theorem handle_completes (cfg : Config) (web : Web) (r : HttpRequest) :
    (r.handle cfg web).All Request.StoresSuccess := by
  have hview : (r.view cfg web).All Request.StoresSuccess :=
    (view_requests web r).mono fun q hq => by
      cases q with
      | mutate m => cases m <;> trivial
      | _ => trivial
  have hgives := gives_view cfg web r
  unfold HttpRequest.handle idempotent
  cases r.key with
  | none => exact hview
  | some key =>
    dsimp only
    split
    · exact hview
    have hraise : ∀ e, (releaseKey key >>= fun _ => (.raise e : App Response)).Gives
        fun response => response.status ∈ [200, 201] := fun e => .bind fun _ => trivial
    have hclaim : (claimKey key (r.requestHash web)).All Request.StoresSuccess := by
      refine Program.All.attempt ?_ fun e => ?_
      · exact (all_ask trivial).bind fun _ => (all_ask trivial).bind fun _ => trivial
      · split
        · refine (all_ask trivial).bind fun _ => all_map ?_ _
          rw [resolveDuplicate_eq]
          exact (all_ask trivial).bind fun _ => trivial
        · trivial
    have hrelease : ∀ e, (releaseKey key >>= fun _ => (.raise e : App Response)).All
        Request.StoresSuccess := by
      intro e
      refine Program.All.bind ((all_ask trivial).bind fun _ => (all_ask trivial).bind
        fun found => ?_) fun _ => trivial
      cases found with
      | none => trivial
      | some claim =>
        dsimp only
        split
        · exact (all_ask trivial).bind fun _ => all_ask trivial
        · trivial
    refine hclaim.bind fun replayed => ?_
    cases replayed with
    | some response => trivial
    | none =>
      refine (hgives.attempt hraise).all_bind (hview.attempt hrelease) fun response hsuccess => ?_
      refine Program.All.bind ?_ fun _ => trivial
      exact (all_ask trivial).bind fun _ => (all_ofOption _ _).bind fun _ =>
        (all_ask hsuccess).bind fun _ => all_ask trivial

end WalletLedger
