import WalletLedger.Operations.Isolation
import WalletLedger.Application.Balances
import WalletLedger.Application.Transfers

/-!
# What each service does, on books nobody else touches

One lemma for each service: if it returns, what it has read and what it has added to
the books its session sees.  The operations are put together from these.

* `getOrCreateInternal_ok`, `post_ok`, `maybeSnapshot_ok` — with `Opened`, `Cut` and
  the lines of the entries written.
* `balance_ok`, `availableBalance_ok` — a balance is a function of the books.
* `quiet_*` and `harmless_*` — which services do not commit, and which leave the books
  alone.
-/

namespace WalletLedger

section

variable {cfg : Config} {b b' : Books}

/-! ## Accounts -/

theorem lock_ok {id : Id} {a : Account} (h : Returns cfg (AccountService.lock id) b a b') :
    b' = b ∧ a ∈ b.accounts ∧ a.id = id := by
  obtain ⟨found, b₁, h₁, h₂⟩ := returns_bind h
  obtain ⟨rfl, keys, trail, hq⟩ := returns_select h₁
  obtain ⟨rfl, hsome⟩ := returns_ofOption h₂
  rw [hq] at hsome
  exact ⟨rfl, List.mem_of_find?_eq_some hsome, by simpa using List.find?_some hsome⟩

theorem get_ok {id : Id} {a : Account} (h : Returns cfg (AccountService.get id) b a b') :
    b' = b ∧ a ∈ b.accounts ∧ a.id = id := by
  obtain ⟨found, b₁, h₁, h₂⟩ := returns_bind h
  obtain ⟨rfl, keys, trail, hq⟩ := returns_select h₁
  obtain ⟨rfl, hsome⟩ := returns_ofOption h₂
  rw [hq] at hsome
  exact ⟨rfl, List.mem_of_find?_eq_some hsome, by simpa using List.find?_some hsome⟩

/-- An internal account, found or just created. -/
inductive Opened (ownerId currency : String) (b : Books) (a : Account) : Books → Prop
  | found : a ∈ b.accounts → Opened ownerId currency b a b
  | created : (∀ x ∈ b.accounts, ¬ (x.ownerId = ownerId ∧ x.currency = currency)) →
      Opened ownerId currency b a { b with accounts := b.accounts ++ [a] }

theorem getOrCreateInternal_ok {ownerId currency : String} {a : Account}
    (h : Returns cfg (AccountService.getOrCreateInternal ownerId currency) b a b') :
    (a.ownerId = ownerId ∧ a.currency = currency.toUpper) ∧
      Opened ownerId currency.toUpper b a b' := by
  obtain ⟨found, b₁, h₁, h₂⟩ := returns_bind h
  obtain ⟨rfl, keys, trail, hq⟩ := returns_select h₁
  cases found with
  | some x =>
    obtain ⟨rfl, rfl⟩ := returns_ret h₂
    have hx := List.find?_some hq.symm
    exact ⟨of_decide_eq_true hx, .found (List.mem_of_find?_eq_some hq.symm)⟩
  | none =>
    obtain ⟨seqs, db, w, rfl, hm, rfl⟩ := returns_mutate h₂
    obtain ⟨rfl, rfl, hnew⟩ := Mutation.exec_insertAccount hm
    exact ⟨⟨rfl, rfl⟩, .created hnew⟩

theorem correlationIdOr_ok {correlationId : Option String} {s : String}
    (h : Returns cfg (correlationIdOr correlationId) b s b') : b' = b := by
  have draw : ∀ {s : String}, Returns cfg (Id.text <$> ask .uuid4) b s b' → b' = b := by
    intro s h
    rw [map_eq_pure_bind] at h
    obtain ⟨v, b₁, h₁, h₂⟩ := returns_bind h
    obtain ⟨rfl, -⟩ := returns_ret h₂
    exact returns_uuid4 h₁
  unfold correlationIdOr at h
  split at h
  · split at h
    · exact draw h
    · exact (returns_ret h).1
  · exact draw h

/-! ## The ledger -/

namespace Books

/-- `LedgerService.balance` as a function of the books. -/
def balance (b : Books) (account : Account) : Except Exn Money :=
  Money.make
    (LedgerService.snapshotBase (b.latestSnapshot account.id) +
      b.sumEntries account.id (LedgerService.snapshotCursor (b.latestSnapshot account.id))
        [.success] none)
    account.currency

/-- `LedgerService.available_balance` as a function of the books. -/
def availableBalance (b : Books) (account : Account) : Except Exn Money := do
  let settled ← b.balance account
  Money.make (settled.amount + b.sumEntries account.id 0 [.pending] (some .debit)) account.currency

end Books

theorem balance_ok {account : Account} {m : Money}
    (h : Returns cfg (LedgerService.balance account) b m b') :
    b' = b ∧ b.balance account = .ok m := by
  obtain ⟨snapshot, b₁, h₁, h₂⟩ := returns_bind h
  obtain ⟨rfl, keys, trail, rfl⟩ := returns_select h₁
  obtain ⟨delta, b₂, h₃, h₄⟩ := returns_bind h₂
  obtain ⟨rfl, keys', trail', rfl⟩ := returns_select h₃
  exact returns_ofExcept h₄

theorem availableBalance_ok {account : Account} {m : Money}
    (h : Returns cfg (LedgerService.availableBalance account) b m b') :
    b' = b ∧ b.availableBalance account = .ok m := by
  obtain ⟨settled, b₁, h₁, h₂⟩ := returns_bind h
  obtain ⟨rfl, hs⟩ := balance_ok h₁
  obtain ⟨pending, b₂, h₃, h₄⟩ := returns_bind h₂
  obtain ⟨rfl, keys, trail, rfl⟩ := returns_select h₃
  obtain ⟨rfl, hm⟩ := returns_ofExcept h₄
  refine ⟨rfl, ?_⟩
  rw [Books.availableBalance, hs]
  exact hm

/-- The line of an entry. -/
def LedgerEntry.line (e : LedgerEntry) : PostingLine :=
  ⟨e.accountId, e.amount, e.entryType, e.currency, e.status⟩

/-- The entries `es` record the lines of a transaction. -/
structure Posted (transactionId : Id) (lines : List PostingLine) (es : List LedgerEntry) :
    Prop where
  lines : es.map LedgerEntry.line = lines
  transaction : ∀ e ∈ es, e.transactionId = transactionId

theorem insertEntry_ok {accountId transactionId : Id} {amount : Decimal} {entryType : EntryType}
    {status : EntryStatus} {currency : String} {u : Unit} (hgrid : amount ∈ Decimal.grid 8)
    (h : Returns cfg
      (ask (.mutate (.insertEntry accountId transactionId amount entryType status currency)))
      b u b') :
    ∃ e : LedgerEntry, e.line = ⟨accountId, amount, entryType, currency, status⟩ ∧
      e.transactionId = transactionId ∧ b' = { b with entries := b.entries ++ [e] } := by
  obtain ⟨seqs, db, w, rfl, hm, rfl⟩ := returns_mutate h
  obtain ⟨stored, hs, -, -, rfl⟩ := Mutation.exec_insertEntry hm
  obtain rfl : stored = amount := Decimal.eq_of_storeNumeric le_rfl hgrid hs
  exact ⟨⟨seqs.nextId, seqs.nextSeq, accountId, transactionId, stored, entryType, status,
    currency⟩, rfl, rfl, rfl⟩

theorem post_lines_ok {id : Id} {lines : List PostingLine} {u : Unit}
    (hgrid : ∀ line ∈ lines, line.amount ∈ Decimal.grid 8)
    (h : Returns cfg (Program.forEach lines fun line =>
      ask (.mutate (.insertEntry line.accountId id line.amount line.entryType line.status
        line.currency))) b u b') :
    ∃ es, Posted id lines es ∧ b' = { b with entries := b.entries ++ es } := by
  induction lines generalizing b with
  | nil =>
    obtain ⟨rfl, -⟩ := returns_ret h
    refine ⟨[], ⟨rfl, by simp⟩, ?_⟩
    rw [List.append_nil]
  | cons line lines ih =>
    obtain ⟨_, b₁, h₁, h₂⟩ := returns_bind h
    obtain ⟨e, hline, htxn, rfl⟩ := insertEntry_ok (hgrid line (by simp)) h₁
    obtain ⟨es, hes, rfl⟩ := ih (fun l hl => hgrid l (by simp [hl])) h₂
    refine ⟨e :: es, ⟨?_, ?_⟩, ?_⟩
    · rw [List.map_cons, hline, hes.lines]
    · intro f hf
      rcases List.mem_cons.1 hf with rfl | hf
      · exact htxn
      · exact hes.transaction f hf
    · simp

/-- Posting an aggregate: it balances, and an entry is added for each of its lines. -/
theorem post_ok {transaction : TransactionAggregate} {id : Id} {u : Unit}
    (hgrid : ∀ line ∈ transaction.lines, line.amount ∈ Decimal.grid 8)
    (h : Returns cfg (LedgerService.post transaction id) b u b') :
    transaction.assertBalanced = .ok () ∧ ∃ es, Posted id transaction.lines es ∧
      b' = { b with entries := b.entries ++ es } := by
  obtain ⟨_, b₁, h₁, h₂⟩ := returns_bind h
  obtain ⟨rfl, hbal⟩ := returns_ofExcept h₁
  exact ⟨hbal, post_lines_ok hgrid h₂⟩

/-- What `maybe_snapshot` may do to the books. -/
inductive Cut (cfg : Config) (accountId : Id) (b : Books) : Books → Prop
  /-- Too few entries have accumulated. -/
  | skip :
      ((b.settledAfter accountId
        (LedgerService.snapshotCursor (b.latestSnapshot accountId))).length : ℤ) <
          cfg.snapshotEveryNEntries →
      Cut cfg accountId b b
  /-- The entries beyond the latest snapshot are folded into a new one. -/
  | cut (s : BalanceSnapshot) (last : LedgerEntry) :
      s.accountId = accountId →
      (b.settledAfter accountId
        (LedgerService.snapshotCursor (b.latestSnapshot accountId))).getLast? = some last →
      s.lastEntrySeq = last.seq →
      Decimal.storeNumeric 28 8
        (LedgerService.snapshotBase (b.latestSnapshot accountId) +
          ((b.settledAfter accountId
            (LedgerService.snapshotCursor (b.latestSnapshot accountId))).map
              LedgerEntry.amount).sum) = some s.balance →
      Cut cfg accountId b { b with snapshots := b.snapshots ++ [s] }

theorem maybeSnapshot_ok {account : Account} {u : Unit}
    (h : Returns cfg (LedgerService.maybeSnapshot cfg account) b u b') :
    Cut cfg account.id b b' := by
  obtain ⟨snapshot, b₁, h₁, h₂⟩ := returns_bind h
  obtain ⟨rfl, keys, trail, rfl⟩ := returns_select h₁
  obtain ⟨entries, b₂, h₃, h₄⟩ := returns_bind h₂
  obtain ⟨rfl, keys', trail', rfl⟩ := returns_select h₃
  split at h₄
  · rename_i hlt
    obtain ⟨rfl, -⟩ := returns_ret h₄
    refine .skip ?_
    simpa [Query.eval] using hlt
  · obtain ⟨last, b₃, h₅, h₆⟩ := returns_bind h₄
    obtain ⟨rfl, hlast⟩ := returns_ofOption h₅
    obtain ⟨seqs, db, w, hdb, hm, rfl⟩ := returns_mutate h₆
    obtain ⟨stored, hs, rfl⟩ := Mutation.exec_insertSnapshot hm
    simp only [Query.eval, List.getLast?_map, Option.map_eq_some_iff] at hlast
    obtain ⟨e, he, rfl⟩ := hlast
    simp only [Query.eval, List.map_map] at hs
    exact .cut _ e rfl he rfl hs

/-- `Cut` for a list of accounts, one after the other. -/
inductive Cuts (cfg : Config) : List Id → Books → Books → Prop
  | nil (b : Books) : Cuts cfg [] b b
  | cons {a : Id} {as : List Id} {b b₁ b₂ : Books} : Cut cfg a b b₁ → Cuts cfg as b₁ b₂ →
      Cuts cfg (a :: as) b b₂

theorem Cuts.pair {a₁ a₂ : Id} {b b₁ b₂ : Books} (h₁ : Cut cfg a₁ b b₁) (h₂ : Cut cfg a₂ b₁ b₂) :
    Cuts cfg [a₁, a₂] b b₂ := .cons h₁ (.cons h₂ (.nil b₂))

theorem maybeSnapshots_ok {accounts : List Account} {u : Unit}
    (h : Returns cfg (Program.forEach accounts (LedgerService.maybeSnapshot cfg)) b u b') :
    Cuts cfg (accounts.map Account.id) b b' := by
  induction accounts generalizing b with
  | nil =>
    obtain ⟨rfl, -⟩ := returns_ret h
    exact .nil _
  | cons a accounts ih =>
    obtain ⟨_, b₁, h₁, h₂⟩ := returns_bind h
    exact .cons (maybeSnapshot_ok h₁) (ih h₂)

/-! ## Which services commit, and which touch the books -/

@[simp] theorem quiet_lock (id : Id) : Quiet (AccountService.lock id) :=
  (quiet_select _).bind fun _ => quiet_ofOption _ _

@[simp] theorem quiet_get (id : Id) : Quiet (AccountService.get id) :=
  (quiet_select _).bind fun _ => quiet_ofOption _ _

@[simp] theorem quiet_getOrCreateInternal (ownerId currency : String) :
    Quiet (AccountService.getOrCreateInternal ownerId currency) := by
  refine (quiet_select _).bind fun found => ?_
  cases found with
  | none => exact quiet_mutate _
  | some a => exact quiet_pure a

@[simp] theorem quiet_correlationIdOr (correlationId : Option String) :
    Quiet (correlationIdOr correlationId) := by
  have draw : Quiet (Id.text <$> ask .uuid4) := by
    rw [map_eq_pure_bind]
    exact quiet_uuid4.bind fun _ => quiet_pure _
  unfold correlationIdOr
  split
  · split
    · exact draw
    · exact quiet_pure _
  · exact draw

@[simp] theorem quiet_balance (account : Account) : Quiet (LedgerService.balance account) :=
  (quiet_select _).bind fun _ => (quiet_select _).bind fun _ => quiet_ofExcept _

@[simp] theorem quiet_availableBalance (account : Account) :
    Quiet (LedgerService.availableBalance account) :=
  (quiet_balance account).bind fun _ => (quiet_select _).bind fun _ => quiet_ofExcept _

@[simp] theorem quiet_post (transaction : TransactionAggregate) (id : Id) :
    Quiet (LedgerService.post transaction id) :=
  (quiet_ofExcept _).bind fun _ => .forEach fun _ => quiet_mutate _

@[simp] theorem quiet_maybeSnapshot (account : Account) :
    Quiet (LedgerService.maybeSnapshot cfg account) := by
  refine (quiet_select _).bind fun snapshot => (quiet_select _).bind fun entries => ?_
  split
  · exact quiet_pure _
  · exact (quiet_ofOption _ _).bind fun _ => quiet_mutate _

@[simp] theorem quiet_maybeSnapshots (accounts : List Account) :
    Quiet (Program.forEach accounts (LedgerService.maybeSnapshot cfg)) :=
  .forEach quiet_maybeSnapshot

theorem harmless_reloadTransaction (id : Id) : Harmless (reloadTransaction id) :=
  (harmless_ask rfl).bind fun _ => harmless_ofOption _ _

theorem harmless_reloadAccount (id : Id) : Harmless (reloadAccount id) :=
  (harmless_ask rfl).bind fun _ => harmless_ofOption _ _

theorem harmless_notify (accountId : Id) (message : String) (event : DomainEvent) :
    Harmless (NotificationService.notify cfg accountId message event) := by
  have hget : Harmless (Account.ownerId <$> AccountService.get accountId) := by
    rw [map_eq_pure_bind]
    refine Harmless.bind ((harmless_ask rfl).bind fun _ => harmless_ofOption _ _) fun a => ?_
    exact Program.all_ret a.ownerId
  have hrecipient : Harmless (NotificationService.recipientFor accountId) :=
    Program.All.attempt hget fun _ => Program.all_ret _
  refine hrecipient.bind fun recipient => ?_
  refine Harmless.bind (Program.All.forEach fun channel _ => ?_) fun _ => harmless_ask rfl
  exact (Program.all_ofExcept _).bind fun _ => harmless_ask rfl

theorem harmless_subscribers {eventType : EventType} {handler : DomainEvent → App Unit}
    (h : handler ∈ subscribers cfg eventType) (event : DomainEvent) : Harmless (handler event) := by
  have invalidate : Harmless (invalidateBalances event) :=
    Program.All.forEach fun _ _ => Program.All.attempt (harmless_ask rfl) fun _ => trivial
  have completed : Harmless (NotificationService.onTransferCompleted cfg event) :=
    (harmless_ofOption _ _).bind fun _ => (harmless_ofOption _ _).bind fun _ =>
      (harmless_ofOption _ _).bind fun _ => harmless_notify _ _ _
  have failed : Harmless (NotificationService.onTransferFailed cfg event) := by
    unfold NotificationService.onTransferFailed NotificationService.notifyTransactionParty
    split
    · exact harmless_notify _ _ _
    · trivial
  have deposited : Harmless (NotificationService.onDepositCompleted cfg event) :=
    (harmless_ofOption _ _).bind fun _ => (harmless_ofOption _ _).bind fun _ =>
      (harmless_ofOption _ _).bind fun _ => harmless_notify _ _ _
  cases eventType <;> simp only [subscribers, List.mem_cons, List.not_mem_nil, or_false] at h
  · rwa [h]
  · rcases h with rfl | rfl <;> assumption
  · rcases h with rfl | rfl <;> assumption
  · rcases h with rfl | rfl <;> assumption

/-- Publishing an event leaves the books alone, whatever the subscribers do. -/
theorem harmless_publish (event : DomainEvent) :
    Harmless (EventBus.publish (subscribers cfg) event) :=
  Program.All.forEach fun _ h =>
    Program.All.attempt (harmless_subscribers h event) fun _ => trivial

theorem harmless_transferPublish (eventType : EventType) (txn : Transaction) (money : Money)
    (sender receiver : Account) :
    Harmless (TransferService.publish cfg eventType txn money sender receiver) :=
  (harmless_reloadTransaction _).bind fun _ => (harmless_reloadAccount _).bind fun _ =>
    (harmless_reloadAccount _).bind fun _ => (harmless_publish _).bind fun _ => trivial

end

end WalletLedger
