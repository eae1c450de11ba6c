import WalletLedger.Domain.Aggregates
import WalletLedger.Lib.Tally

/-!
# The tables

The rows of `models/*.py` and the database they live in.  Timestamps, the
accounts' optimistic-lock version and the entries' free metadata are left out:
nothing below reads them.

The four accounting tables are grouped as `Books`: the ledger proper.  The
idempotency keys and the notification trail live beside them.

* `Write` — the effect of one `INSERT`, `UPDATE` or `DELETE` on the database;
  `replay` applies a list of them.
* `Write.touchesBooks`, `Write.touchesKeys` — which part of the database a write
  concerns, with `replay_books_of_forall` and `replay_keys_of_forall`: a list of
  writes that touch a part nowhere leaves it alone.
-/

namespace WalletLedger

/-- `accounts`: the holder of one currency.  There is no balance column. -/
structure Account where
  id : Id
  number : String
  ownerId : String
  currency : String
  deriving DecidableEq

/-- The mobile-money fields a deposit request may carry. -/
structure DepositContext where
  operator : Option String
  phoneNumber : Option String
  deriving DecidableEq

/-- The `details` document of a transaction, by the service that writes it. -/
inductive Details where
  | deposit (provider : String) (accountId : Id) (context : DepositContext)
  | transfer (senderId receiverId : Id)
  | fxTransfer (senderId receiverId : Id) (targetAmount targetCurrency : String)
  | reversal (reverses : Id)
  /-- `{}`, where the writer gives none. -/
  | empty
  deriving DecidableEq

/-- `details["account_id"]`. -/
def Details.accountId : Details → Except Exn Id
  | .deposit _ a _ => .ok a
  | _ => .error (.keyError "account_id")

/-- `details["receiver_id"]`. -/
def Details.receiverId : Details → Except Exn Id
  | .transfer _ r => .ok r
  | .fxTransfer _ r _ _ => .ok r
  | _ => .error (.keyError "receiver_id")

/-- `transactions`: the intention that groups entries. -/
structure Transaction where
  id : Id
  type : TransactionType
  status : TransactionStatus
  amount : Decimal
  currency : String
  details : Details
  reference : Option String
  correlationId : Option String
  deriving DecidableEq

/-- `ledger_entries`: the elementary line of the ledger. -/
structure LedgerEntry where
  id : Id
  /-- The cursor, increasing in the order the entries are inserted. -/
  seq : ℕ
  accountId : Id
  transactionId : Id
  /-- Signed: negative for a debit, positive for a credit. -/
  amount : Decimal
  entryType : EntryType
  status : EntryStatus
  currency : String
  deriving DecidableEq

/-- `balance_snapshots`: a balance up to a cursor.  The cursor and the count are not bounded, where
their columns are: `BIGINT` and `INTEGER`. -/
structure BalanceSnapshot where
  id : Id
  accountId : Id
  balance : Decimal
  lastEntrySeq : ℕ
  entryCount : ℕ
  deriving DecidableEq

/-- A value in a JSON response. -/
inductive JsonValue where
  | text (s : String)
  | id (i : Id)
  | null
  deriving DecidableEq

/-- A JSON object. -/
abbrev Json := List (String × JsonValue)

/-- `idempotency_keys`: a claim, completed once it carries a response. -/
structure IdempotencyKey where
  id : Id
  key : String
  requestHash : String
  responseStatus : Option ℕ
  responseBody : Option Json
  deriving DecidableEq

/-- `is_completed`. -/
def IdempotencyKey.isCompleted (k : IdempotencyKey) : Bool := k.responseBody.isSome

/-- `notifications`: the trace of a message sent. -/
structure Notification where
  id : Id
  channel : String
  recipient : String
  message : String
  eventType : String
  status : String
  correlationId : Option String
  deriving DecidableEq

/-- The accounting tables. -/
structure Books where
  accounts : List Account
  transactions : List Transaction
  entries : List LedgerEntry
  snapshots : List BalanceSnapshot
  deriving DecidableEq

/-- The database. -/
structure Database where
  books : Books
  keys : List IdempotencyKey
  notifications : List Notification
  deriving DecidableEq

/-- The database before the first request. -/
def Database.empty : Database := ⟨⟨[], [], [], []⟩, [], []⟩

/-! ## Writes -/

/-- The effect of a statement on the database. -/
inductive Write where
  | addAccount (a : Account)
  | addTransaction (t : Transaction)
  | addEntry (e : LedgerEntry)
  | addSnapshot (s : BalanceSnapshot)
  | setEntryStatus (id : Id) (status : EntryStatus)
  | setTransactionStatus (id : Id) (status : TransactionStatus)
  | setReference (id : Id) (reference : String)
  | addKey (k : IdempotencyKey)
  | completeKey (id : Id) (status : ℕ) (body : Json)
  | deleteKey (id : Id)
  | addNotification (n : Notification)
  deriving DecidableEq

/-- The effect of a write on the accounting tables. -/
def Write.applyBooks : Write → Books → Books
  | .addAccount a, b => { b with accounts := b.accounts ++ [a] }
  | .addTransaction t, b => { b with transactions := b.transactions ++ [t] }
  | .addEntry e, b => { b with entries := b.entries ++ [e] }
  | .addSnapshot s, b => { b with snapshots := b.snapshots ++ [s] }
  | .setEntryStatus id status, b =>
      { b with
        entries := modify LedgerEntry.id id (fun e => { e with status := status }) b.entries }
  | .setTransactionStatus id status, b =>
      { b with
        transactions :=
          modify Transaction.id id (fun t => { t with status := status }) b.transactions }
  | .setReference id reference, b =>
      { b with
        transactions :=
          modify Transaction.id id (fun t => { t with reference := some reference })
            b.transactions }
  | _, b => b

/-- The effect of a write on the idempotency keys. -/
def Write.applyKeys : Write → List IdempotencyKey → List IdempotencyKey
  | .addKey k, ks => ks ++ [k]
  | .completeKey id status body, ks =>
      modify IdempotencyKey.id id
        (fun k => { k with responseStatus := some status, responseBody := some body }) ks
  | .deleteKey id, ks => ks.filter fun k => k.id ≠ id
  | _, ks => ks

/-- The effect of a write on the notification trail. -/
def Write.applyNotifications : Write → List Notification → List Notification
  | .addNotification n, ns => ns ++ [n]
  | _, ns => ns

/-- The effect of a write. -/
def Write.apply (w : Write) (db : Database) : Database :=
  ⟨w.applyBooks db.books, w.applyKeys db.keys, w.applyNotifications db.notifications⟩

/-- The effect of a list of writes, in order. -/
def replay (ws : List Write) (db : Database) : Database := ws.foldl (fun d w => w.apply d) db

/-- The effect of a list of writes on the accounting tables. -/
def replayBooks (ws : List Write) (b : Books) : Books := ws.foldl (fun d w => w.applyBooks d) b

@[simp] theorem replay_nil (db : Database) : replay [] db = db := rfl

@[simp] theorem replay_cons (w : Write) (ws : List Write) (db : Database) :
    replay (w :: ws) db = replay ws (w.apply db) := rfl

theorem replay_append (ws vs : List Write) (db : Database) :
    replay (ws ++ vs) db = replay vs (replay ws db) := List.foldl_append

@[simp] theorem replayBooks_nil (b : Books) : replayBooks [] b = b := rfl

@[simp] theorem replayBooks_cons (w : Write) (ws : List Write) (b : Books) :
    replayBooks (w :: ws) b = replayBooks ws (w.applyBooks b) := rfl

@[simp] theorem replay_books (ws : List Write) (db : Database) :
    (replay ws db).books = replayBooks ws db.books := by
  induction ws generalizing db with
  | nil => rfl
  | cons w ws ih => exact ih _

/-- The write concerns the accounting tables. -/
def Write.touchesBooks : Write → Bool
  | .addKey _ => false
  | .completeKey _ _ _ => false
  | .deleteKey _ => false
  | .addNotification _ => false
  | _ => true

/-- The write concerns the idempotency keys. -/
def Write.touchesKeys : Write → Bool
  | .addKey _ => true
  | .completeKey _ _ _ => true
  | .deleteKey _ => true
  | _ => false

theorem Write.applyBooks_of_not {w : Write} (h : w.touchesBooks = false) (b : Books) :
    w.applyBooks b = b := by
  cases w <;> first | rfl | cases h

theorem Write.applyKeys_of_not {w : Write} (h : w.touchesKeys = false)
    (ks : List IdempotencyKey) : w.applyKeys ks = ks := by
  cases w <;> first | rfl | cases h

/-- Writes beside the books leave the books alone. -/
theorem replayBooks_of_forall {ws : List Write} (h : ∀ w ∈ ws, w.touchesBooks = false)
    (b : Books) : replayBooks ws b = b := by
  induction ws with
  | nil => rfl
  | cons w ws ih =>
    rw [replayBooks_cons, Write.applyBooks_of_not (h w (by simp))]
    exact ih fun v hv => h v (by simp [hv])

/-- Writes that touch no idempotency key leave the keys alone. -/
theorem replay_keys_of_forall {ws : List Write} (h : ∀ w ∈ ws, w.touchesKeys = false)
    (db : Database) : (replay ws db).keys = db.keys := by
  induction ws generalizing db with
  | nil => rfl
  | cons w ws ih =>
    rw [replay_cons, ih fun v hv => h v (by simp [hv])]
    exact Write.applyKeys_of_not (h w (by simp)) db.keys

end WalletLedger
