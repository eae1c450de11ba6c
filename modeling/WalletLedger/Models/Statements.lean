import WalletLedger.Models.Tables
import WalletLedger.Lib.Program
import WalletLedger.Lib.RowLock
import Mathlib.Data.List.MinMax
import Mathlib.Data.List.Sort

/-!
# Statements and sessions

What the services ask of the database, of the cache and of the language: the
**requests** their programs issue, and how a session answers them.

A session has its own pending writes.  It sees the committed database with its
writes on top (`Conn.view`); `COMMIT` publishes them and `ROLLBACK` drops them.
After a statement has failed, the session answers nothing but a rollback.  Objects
are written in the order the code adds them.

* `Query.eval`, `Mutation.exec` — the effect of a statement.
* `Conn.exec` — one session's answer to a request; the sequential, the concurrent
  and the faulty semantics are all built from it.
* `Request.locks` — the rows a statement locks.
-/

namespace WalletLedger

/-! ## The environment -/

/-- A payment provider, as far as deposits go: `create_deposit` returns the
provider's reference or raises. -/
structure PaymentProvider where
  createDeposit : (amount : Decimal) → (currency : String) → (reference : String) →
    (context : DepositContext) → Except Exn String

/-- A notification channel: `send` tells whether the message went out, or raises. -/
structure NotificationChannel where
  name : String
  send : (recipient : String) → (message : String) → Except Exn Bool

/-- The application's configuration and the services it is wired to. -/
structure Config where
  /-- `SNAPSHOT_EVERY_N_ENTRIES`. -/
  snapshotEveryNEntries : ℤ
  /-- `RiskService`'s limit. -/
  autoApprovalLimit : Decimal
  /-- The successive values of `secrets.randbelow`. -/
  randbelow : ℕ → ℕ
  getPaymentProvider : String → Except Exn PaymentProvider
  channels : List NotificationChannel
  /-- Whether inserting a row locks the rows it references. -/
  foreignKeyLocks : Bool

/-- The generators: `uuid4()`, the identity column of the entries (from 1), and the
random draws used so far. -/
structure Sequences where
  nextId : Id
  nextSeq : ℕ
  draws : ℕ
  deriving DecidableEq

/-- The text of an identifier. -/
def Id.text (id : Id) : String := toString id

/-! ## Queries -/

/-- The `SELECT` statements. -/
inductive Query where
  | account (id : Id)
  | accountByNumber (number : String)
  | accountByOwner (ownerId currency : String)
  /-- `.with_for_update()`. -/
  | accountForUpdate (id : Id)
  | transaction (id : Id)
  /-- `.filter_by(reference=reference).with_for_update()`; `None` selects the rows without one. -/
  | transactionForUpdate (reference : Option String)
  | entriesOf (transactionId : Id) (status : EntryStatus)
  | entryOf (transactionId : Id) (entryType : EntryType) (status : EntryStatus)
  /-- `seq` and `amount` of the settled entries beyond the cursor, by `seq`. -/
  | entriesAfter (accountId : Id) (cursor : ℕ)
  | sumEntries (accountId : Id) (afterSeq : ℕ) (statuses : List EntryStatus)
      (entryType : Option EntryType)
  /-- By `last_entry_seq`, descending. -/
  | latestSnapshot (accountId : Id)
  | idempotencyKey (key : String)
  deriving DecidableEq

/-- The type of a query's result. -/
@[reducible] def Query.Result : Query → Type
  | .account _ => Option Account
  | .accountByNumber _ => Option Account
  | .accountByOwner _ _ => Option Account
  | .accountForUpdate _ => Option Account
  | .transaction _ => Option Transaction
  | .transactionForUpdate _ => Option Transaction
  | .entriesOf _ _ => List LedgerEntry
  | .entryOf _ _ _ => Option LedgerEntry
  | .entriesAfter _ _ => List (ℕ × Decimal)
  | .sumEntries _ _ _ _ => Decimal
  | .latestSnapshot _ => Option BalanceSnapshot
  | .idempotencyKey _ => Option IdempotencyKey

/-- An entry of a transaction in a status. -/
def LedgerEntry.isOf (transactionId : Id) (status : EntryStatus) (e : LedgerEntry) : Bool :=
  decide (e.transactionId = transactionId ∧ e.status = status)

/-- A settled entry of an account beyond a cursor. -/
def LedgerEntry.isSettledAfter (accountId : Id) (cursor : ℕ) (e : LedgerEntry) : Bool :=
  decide (e.accountId = accountId ∧ e.status = .success ∧ cursor < e.seq)

/-- The settled entries of an account beyond a cursor, by increasing `seq`. -/
def Books.settledAfter (b : Books) (accountId : Id) (cursor : ℕ) : List LedgerEntry :=
  (b.entries.filter (LedgerEntry.isSettledAfter accountId cursor)).insertionSort
    fun e f => e.seq ≤ f.seq

/-- The sum of an account's entries beyond a cursor, in some statuses and of some type. -/
def Books.sumEntries (b : Books) (accountId : Id) (afterSeq : ℕ) (statuses : List EntryStatus)
    (entryType : Option EntryType) : Decimal :=
  tally
    (fun e => e.accountId = accountId ∧ e.status ∈ statuses ∧ afterSeq < e.seq ∧
      ∀ t ∈ entryType, e.entryType = t)
    LedgerEntry.amount b.entries

/-- The account's snapshot with the highest cursor. -/
def Books.latestSnapshot (b : Books) (accountId : Id) : Option BalanceSnapshot :=
  (b.snapshots.filter fun s => s.accountId = accountId).argmax BalanceSnapshot.lastEntrySeq

/-- The result of a query on a database. -/
def Query.eval : (q : Query) → Database → q.Result
  | .account id, db => db.books.accounts.find? fun a => a.id = id
  | .accountByNumber number, db => db.books.accounts.find? fun a => a.number = number
  | .accountByOwner ownerId currency, db =>
      db.books.accounts.find? fun a => a.ownerId = ownerId ∧ a.currency = currency
  | .accountForUpdate id, db => db.books.accounts.find? fun a => a.id = id
  | .transaction id, db => db.books.transactions.find? fun t => t.id = id
  | .transactionForUpdate reference, db =>
      db.books.transactions.find? fun t => t.reference = reference
  | .entriesOf transactionId status, db =>
      db.books.entries.filter (LedgerEntry.isOf transactionId status)
  | .entryOf transactionId entryType status, db =>
      db.books.entries.find? fun e => e.isOf transactionId status ∧ e.entryType = entryType
  | .entriesAfter accountId cursor, db =>
      (db.books.settledAfter accountId cursor).map fun e => (e.seq, e.amount)
  | .sumEntries accountId afterSeq statuses entryType, db =>
      db.books.sumEntries accountId afterSeq statuses entryType
  | .latestSnapshot accountId, db => db.books.latestSnapshot accountId
  | .idempotencyKey key, db => db.keys.find? fun k => k.key = key

/-! ## Mutations -/

/-- The `INSERT`, `UPDATE` and `DELETE` statements. -/
inductive Mutation where
  | insertAccount (ownerId currency : String)
  | insertTransaction (type : TransactionType) (status : TransactionStatus) (amount : Decimal)
      (currency : String) (details : Details) (correlationId : Option String)
  | insertEntry (accountId transactionId : Id) (amount : Decimal) (entryType : EntryType)
      (status : EntryStatus) (currency : String)
  | insertSnapshot (accountId : Id) (balance : Decimal) (lastEntrySeq entryCount : ℕ)
  | updateEntryStatus (id : Id) (status : EntryStatus)
  | updateTransactionStatus (id : Id) (status : TransactionStatus)
  | updateReference (id : Id) (reference : String)
  | insertKey (key requestHash : String)
  | completeKey (id : Id) (status : ℕ) (body : Json)
  | deleteKey (id : Id)
  | insertNotification (channel recipient message eventType status : String)
      (correlationId : Option String)
  deriving DecidableEq

/-- What the code goes on with: the inserted object where it is used later. -/
@[reducible] def Mutation.Result : Mutation → Type
  | .insertAccount _ _ => Account
  | .insertTransaction _ _ _ _ _ _ => Transaction
  | _ => Unit

/-- `"2" + str(secrets.randbelow(10**9)).zfill(9)`. -/
def accountNumber (draw : ℕ) : String :=
  let digits := toString (draw % 10 ^ 9)
  "2" ++ String.ofList (List.replicate (9 - digits.length) '0') ++ digits

/-- A value fits a `VARCHAR(n)` column. -/
def fitsIn (n : ℕ) (s : String) : Bool := decide (s.length ≤ n)

/-- The generators a statement draws from, whether or not it goes through. -/
def Mutation.advance : Mutation → Sequences → Sequences
  | .insertAccount _ _, s => { s with nextId := s.nextId + 1, draws := s.draws + 1 }
  | .insertTransaction _ _ _ _ _ _, s => { s with nextId := s.nextId + 1 }
  | .insertEntry _ _ _ _ _ _, s => { s with nextId := s.nextId + 1, nextSeq := s.nextSeq + 1 }
  | .insertSnapshot _ _ _ _, s => { s with nextId := s.nextId + 1 }
  | .insertKey _ _, s => { s with nextId := s.nextId + 1 }
  | .insertNotification _ _ _ _ _ _, s => { s with nextId := s.nextId + 1 }
  | _, s => s

/-- The effect of a statement: its result and the row it writes, or the error of a
column that is too narrow, a constraint, or a row that is gone. -/
def Mutation.exec (cfg : Config) (seqs : Sequences) (db : Database) :
    (m : Mutation) → Except ServiceError (m.Result × Write)
  | .insertAccount ownerId currency =>
      let a : Account := ⟨seqs.nextId, accountNumber (cfg.randbelow seqs.draws), ownerId, currency⟩
      if ¬ (fitsIn 64 ownerId ∧ fitsIn 3 currency) then .error .data
      else if db.books.accounts.any fun b =>
          b.number = a.number ∨ b.ownerId = ownerId ∧ b.currency = currency then
        .error .integrity
      else .ok (a, .addAccount a)
  | .insertTransaction type status amount currency details correlationId =>
      match Decimal.storeNumeric 28 8 amount with
      | none => .error .data
      | some stored =>
          let t : Transaction :=
            ⟨seqs.nextId, type, status, stored, currency, details, none, correlationId⟩
          if ¬ (fitsIn 3 currency ∧ correlationId.all (fitsIn 36)) then .error .data
          else .ok (t, .addTransaction t)
  | .insertEntry accountId transactionId amount entryType status currency =>
      match Decimal.storeNumeric 28 8 amount with
      | none => .error .data
      | some stored =>
          if ¬ fitsIn 3 currency then .error .data
          else if ¬ (db.books.accounts.any (fun a => a.id = accountId) ∧
              db.books.transactions.any (fun t => t.id = transactionId)) then
            .error .integrity
          else
            .ok ((), .addEntry ⟨seqs.nextId, seqs.nextSeq, accountId, transactionId, stored,
              entryType, status, currency⟩)
  | .insertSnapshot accountId balance lastEntrySeq entryCount =>
      match Decimal.storeNumeric 28 8 balance with
      | none => .error .data
      | some stored =>
          if ¬ db.books.accounts.any (fun a => a.id = accountId) then .error .integrity
          else .ok ((), .addSnapshot ⟨seqs.nextId, accountId, stored, lastEntrySeq, entryCount⟩)
  | .updateEntryStatus id status =>
      if db.books.entries.any fun e => e.id = id then .ok ((), .setEntryStatus id status)
      else .error .staleData
  | .updateTransactionStatus id status =>
      if db.books.transactions.any fun t => t.id = id then
        .ok ((), .setTransactionStatus id status)
      else .error .staleData
  | .updateReference id reference =>
      if ¬ fitsIn 128 reference then .error .data
      else if db.books.transactions.any fun t => t.id = id then
        .ok ((), .setReference id reference)
      else .error .staleData
  | .insertKey key requestHash =>
      if ¬ (fitsIn 255 key ∧ fitsIn 64 requestHash) then .error .data
      else if db.keys.any fun k => k.key = key then .error .integrity
      else .ok ((), .addKey ⟨seqs.nextId, key, requestHash, none, none⟩)
  | .completeKey id status body =>
      if db.keys.any fun k => k.id = id then .ok ((), .completeKey id status body)
      else .error .staleData
  | .deleteKey id => .ok ((), .deleteKey id)
  | .insertNotification channel recipient message eventType status correlationId =>
      if fitsIn 10 channel ∧ fitsIn 255 recipient ∧ fitsIn 64 eventType ∧ fitsIn 10 status ∧
          correlationId.all (fitsIn 36) then
        .ok ((), .addNotification
          ⟨seqs.nextId, channel, recipient, message, eventType, status, correlationId⟩)
      else .error .data

/-! ## Requests -/

/-- What a program may ask of its environment. -/
inductive Request where
  | select (q : Query)
  | mutate (m : Mutation)
  | commit
  | rollback
  /-- `uuid.uuid4()`. -/
  | uuid4
  | cacheGet (accountId : Id)
  | cacheSet (accountId : Id) (amount : Decimal)
  | cacheDelete (accountId : Id)
  deriving DecidableEq

@[reducible] def Request.Result : Request → Type
  | .select q => q.Result
  | .mutate m => m.Result
  | .commit => Unit
  | .rollback => Unit
  | .uuid4 => Id
  | .cacheGet _ => Option Decimal
  | .cacheSet _ _ => Unit
  | .cacheDelete _ => Unit

/-- A request is answered by its result or by an error. -/
abbrev Request.Answer (r : Request) : Type := Except ServiceError r.Result

/-- A program of the application. -/
abbrev App (α : Type) : Type := Program Request Request.Answer Exn α

/-- Issue a request; an error answer is raised. -/
def ask (r : Request) : App r.Result := .call r fun v => .ofExcept (v.mapError .service)

/-! ## Sessions -/

/-- What the sessions share: the committed database, the generators and the cache. -/
structure Store where
  db : Database
  seqs : Sequences
  cache : List (Id × Decimal)
  deriving DecidableEq

/-- Before the first request. -/
def Store.empty : Store := ⟨Database.empty, ⟨0, 1, 0⟩, []⟩

/-- A database session: its uncommitted writes, and whether it must be rolled back
before it answers again. -/
structure Session where
  writes : List Write
  failed : Bool
  deriving DecidableEq

def Session.fresh : Session := ⟨[], false⟩

/-- A session on a store. -/
structure Conn where
  store : Store
  session : Session
  deriving DecidableEq

namespace Conn

/-- What the session sees: the committed rows and its own writes. -/
def view (c : Conn) : Database := replay c.session.writes c.store.db

/-- Record a statement that went through. -/
def wrote (c : Conn) (seqs : Sequences) (w : Write) : Conn :=
  ⟨{ c.store with seqs := seqs }, ⟨c.session.writes ++ [w], false⟩⟩

/-- A statement failed: the transaction is lost, and the session waits for its rollback. -/
def aborted (c : Conn) (seqs : Sequences) : Conn := ⟨{ c.store with seqs := seqs }, ⟨[], true⟩⟩

/-- The pending writes become the committed state. -/
def committed (c : Conn) : Conn := ⟨{ c.store with db := c.view }, Session.fresh⟩

/-- A session's answer to a request. -/
def exec (cfg : Config) : (r : Request) → Conn → r.Answer × Conn
  | .select q, c =>
      if c.session.failed then (.error .pendingRollback, c) else (.ok (q.eval c.view), c)
  | .mutate m, c =>
      if c.session.failed then (.error .pendingRollback, c)
      else
        match m.exec cfg c.store.seqs c.view with
        | .ok (v, w) => (.ok v, c.wrote (m.advance c.store.seqs) w)
        | .error e => (.error e, c.aborted (m.advance c.store.seqs))
  | .commit, c => if c.session.failed then (.error .pendingRollback, c) else (.ok (), c.committed)
  | .rollback, c => (.ok (), ⟨c.store, Session.fresh⟩)
  | .uuid4, c =>
      (.ok c.store.seqs.nextId,
        ⟨{ c.store with seqs := { c.store.seqs with nextId := c.store.seqs.nextId + 1 } },
          c.session⟩)
  | .cacheGet a, c => (.ok (c.store.cache.lookup a), c)
  | .cacheSet a amount, c =>
      (.ok (), ⟨{ c.store with cache := (a, amount) :: c.store.cache.filter (·.1 ≠ a) }, c.session⟩)
  | .cacheDelete a, c =>
      (.ok (), ⟨{ c.store with cache := c.store.cache.filter (·.1 ≠ a) }, c.session⟩)

variable (cfg : Config) (c : Conn)

theorem exec_select (q : Query) :
    exec cfg (.select q) c =
      if c.session.failed then (.error .pendingRollback, c) else (.ok (q.eval c.view), c) := rfl

theorem exec_mutate (m : Mutation) :
    exec cfg (.mutate m) c =
      if c.session.failed then (.error .pendingRollback, c)
      else
        match m.exec cfg c.store.seqs c.view with
        | .ok (v, w) => (.ok v, c.wrote (m.advance c.store.seqs) w)
        | .error e => (.error e, c.aborted (m.advance c.store.seqs)) := rfl

theorem exec_commit :
    exec cfg .commit c =
      if c.session.failed then (.error .pendingRollback, c) else (.ok (), c.committed) := rfl

/-- A query that is answered. -/
theorem exec_select_ok {q : Query} {v : q.Result} (h : (exec cfg (.select q) c).1 = .ok v) :
    c.session.failed = false ∧ v = q.eval c.view ∧ (exec cfg (.select q) c).2 = c := by
  rw [exec_select] at h ⊢
  split at h
  · cases h
  · rename_i hf
    rw [if_neg hf]
    exact ⟨by simpa using hf, (Except.ok.inj h).symm, rfl⟩

/-- A statement that goes through. -/
theorem exec_mutate_ok {m : Mutation} {v : m.Result} (h : (exec cfg (.mutate m) c).1 = .ok v) :
    c.session.failed = false ∧ ∃ w, m.exec cfg c.store.seqs c.view = .ok (v, w) ∧
      (exec cfg (.mutate m) c).2 = c.wrote (m.advance c.store.seqs) w := by
  rw [exec_mutate] at h ⊢
  split at h
  · cases h
  · rename_i hf
    rw [if_neg hf]
    refine ⟨by simpa using hf, ?_⟩
    cases hm : m.exec cfg c.store.seqs c.view with
    | error e => rw [hm] at h; cases h
    | ok x =>
      rw [hm] at h
      cases h
      exact ⟨x.2, rfl, rfl⟩

end Conn

/-! ## Locks -/

/-- What can be locked: a row, or a value of a unique index that a new row claims. -/
inductive Row where
  | account (id : Id)
  | transaction (id : Id)
  | entry (id : Id)
  | accountNumber (number : String)
  | accountOwner (ownerId currency : String)
  | idempotencyKey (key : String)
  deriving DecidableEq, Repr

/-- The rows a query locks. -/
def Query.locks : Query → Database → List (Row × LockMode)
  | .accountForUpdate id, db =>
      ((Query.accountForUpdate id).eval db).toList.map fun a => (.account a.id, .update)
  | .transactionForUpdate reference, db =>
      ((Query.transactionForUpdate reference).eval db).toList.map
        fun t => (.transaction t.id, .update)
  | _, _ => []

/-- The rows a mutation locks: what it writes, and what it references. -/
def Mutation.locks (cfg : Config) (seqs : Sequences) : Mutation → Database → List (Row × LockMode)
  | .insertAccount ownerId currency, _ =>
      [(.accountOwner ownerId currency, .update),
        (.accountNumber (accountNumber (cfg.randbelow seqs.draws)), .update)]
  | .insertEntry accountId transactionId _ _ _ _, _ =>
      if cfg.foreignKeyLocks then
        [(.account accountId, .keyShare), (.transaction transactionId, .keyShare)]
      else []
  | .insertSnapshot accountId _ _ _, _ =>
      if cfg.foreignKeyLocks then [(.account accountId, .keyShare)] else []
  | .updateEntryStatus id _, _ => [(.entry id, .noKeyUpdate)]
  | .updateTransactionStatus id _, _ => [(.transaction id, .noKeyUpdate)]
  | .updateReference id _, _ => [(.transaction id, .noKeyUpdate)]
  | .insertKey key _, _ => [(.idempotencyKey key, .update)]
  | .completeKey id _ _, db =>
      (db.keys.filter fun k => k.id = id).map fun k => (.idempotencyKey k.key, .noKeyUpdate)
  | .deleteKey id, db =>
      (db.keys.filter fun k => k.id = id).map fun k => (.idempotencyKey k.key, .update)
  | _, _ => []

/-- The rows a request of a session locks. -/
def Request.locks (cfg : Config) (c : Conn) : Request → List (Row × LockMode)
  | .select q => q.locks c.view
  | .mutate m => m.locks cfg c.store.seqs c.view
  | _ => []

end WalletLedger
