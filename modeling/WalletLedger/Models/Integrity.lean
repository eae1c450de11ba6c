import WalletLedger.Models.Statements

/-!
# What the database guarantees by itself

Keys are unique, references point to rows, and everything drawn from a generator is
below its next value, whatever programs run on the tables.

* `Books.Keyed` — the integrity of the accounting tables, as far as their constraints
  and generators go; `Keyed.exec`: every statement keeps it.
* `Conn.Keyed` — the same of a session's committed state and of what it sees, with
  `Conn.Keyed.run`: whatever a program asks, it is kept.
* `Conn.run_invariant` — the rule for any property of the books that statements keep;
  `Books.Fits` is the one about the widths of columns.
-/

namespace WalletLedger

/-- Unique keys, references and generators. -/
structure Books.Keyed (b : Books) (s : Sequences) : Prop where
  accountIds : (b.accounts.map Account.id).Nodup
  accountIds_lt : ∀ a ∈ b.accounts, a.id < s.nextId
  owners : (b.accounts.map fun a => (a.ownerId, a.currency)).Nodup
  transactionIds : (b.transactions.map Transaction.id).Nodup
  transactionIds_lt : ∀ t ∈ b.transactions, t.id < s.nextId
  entryIds : (b.entries.map LedgerEntry.id).Nodup
  entryIds_lt : ∀ e ∈ b.entries, e.id < s.nextId
  /-- Entries stand in the order of their sequence numbers. -/
  seqs : (b.entries.map LedgerEntry.seq).Pairwise (· < ·)
  seqs_lt : ∀ e ∈ b.entries, 0 < e.seq ∧ e.seq < s.nextSeq
  seq_pos : 0 < s.nextSeq
  entryAccount : ∀ e ∈ b.entries, ∃ a ∈ b.accounts, a.id = e.accountId
  entryTransaction : ∀ e ∈ b.entries, ∃ t ∈ b.transactions, t.id = e.transactionId
  /-- Amounts have the scale of their column. -/
  transactionAmounts : ∀ t ∈ b.transactions, t.amount ∈ Decimal.grid 8
  entryAmounts : ∀ e ∈ b.entries, e.amount ∈ Decimal.grid 8
  /-- Those of the entries have its digits. -/
  entryWidths : ∀ e ∈ b.entries, |e.amount * 10 ^ 8| < 10 ^ 28

/-- The generators only go up. -/
structure Sequences.LE (s t : Sequences) : Prop where
  nextId : s.nextId ≤ t.nextId
  nextSeq : s.nextSeq ≤ t.nextSeq

theorem Mutation.le_advance (m : Mutation) (s : Sequences) : s.LE (m.advance s) := by
  cases m <;> constructor <;> simp [Mutation.advance]

/-! ## What a statement that goes through has written -/

namespace Mutation

variable {cfg : Config} {s : Sequences} {db : Database} {w : Write}

theorem exec_insertAccount {ownerId currency : String}
    {v : (insertAccount ownerId currency).Result}
    (h : (insertAccount ownerId currency).exec cfg s db = .ok (v, w)) :
    v = ⟨s.nextId, accountNumber (cfg.randbelow s.draws), ownerId, currency⟩ ∧ w = .addAccount v ∧
      ∀ a ∈ db.books.accounts, ¬ (a.ownerId = ownerId ∧ a.currency = currency) := by
  unfold exec at h
  dsimp only at h
  split at h
  · cases h
  split at h
  · cases h
  rename_i _ hany
  cases h
  refine ⟨rfl, rfl, fun a ha hown => ?_⟩
  exact hany (List.any_eq_true.2 ⟨a, ha, decide_eq_true (.inr hown)⟩)

theorem exec_insertTransaction {type : TransactionType} {status : TransactionStatus}
    {amount : Decimal} {currency : String} {details : Details} {correlationId : Option String}
    {v : (insertTransaction type status amount currency details correlationId).Result}
    (h : (insertTransaction type status amount currency details correlationId).exec cfg s db =
      .ok (v, w)) :
    ∃ stored, Decimal.storeNumeric 28 8 amount = some stored ∧
      v = ⟨s.nextId, type, status, stored, currency, details, none, correlationId⟩ ∧
      w = .addTransaction v := by
  unfold exec at h
  dsimp only at h
  split at h
  · cases h
  split at h
  · cases h
  cases h
  exact ⟨_, ‹_›, rfl, rfl⟩

theorem exec_insertEntry {accountId transactionId : Id} {amount : Decimal} {entryType : EntryType}
    {status : EntryStatus} {currency : String} {v : Unit}
    (h : (insertEntry accountId transactionId amount entryType status currency).exec cfg s db =
      .ok (v, w)) :
    ∃ stored, Decimal.storeNumeric 28 8 amount = some stored ∧
      (∃ a ∈ db.books.accounts, a.id = accountId) ∧
      (∃ t ∈ db.books.transactions, t.id = transactionId) ∧
      w = .addEntry ⟨s.nextId, s.nextSeq, accountId, transactionId, stored, entryType, status,
        currency⟩ := by
  unfold exec at h
  dsimp only at h
  split at h
  · cases h
  split at h
  · cases h
  split at h
  · cases h
  rename_i _ hfk
  cases h
  rw [not_not, List.any_eq_true, List.any_eq_true] at hfk
  obtain ⟨⟨a, ha, hae⟩, t, ht, hte⟩ := hfk
  exact ⟨_, ‹_›, ⟨a, ha, of_decide_eq_true hae⟩, ⟨t, ht, of_decide_eq_true hte⟩, rfl⟩

theorem exec_insertKey {key requestHash : String} {v : Unit}
    (h : (insertKey key requestHash).exec cfg s db = .ok (v, w)) :
    (fitsIn 255 key = true ∧ fitsIn 64 requestHash = true) ∧ (∀ k ∈ db.keys, k.key ≠ key) ∧
      w = .addKey ⟨s.nextId, key, requestHash, none, none⟩ := by
  unfold exec at h
  dsimp only at h
  split at h
  · cases h
  split at h
  · cases h
  rename_i hfits hany
  cases h
  exact ⟨not_not.1 hfits,
    fun k hk hkey => hany (List.any_eq_true.2 ⟨k, hk, decide_eq_true hkey⟩), rfl⟩

theorem exec_insertSnapshot {accountId : Id} {balance : Decimal} {lastEntrySeq entryCount : ℕ}
    {v : Unit}
    (h : (insertSnapshot accountId balance lastEntrySeq entryCount).exec cfg s db = .ok (v, w)) :
    ∃ stored, Decimal.storeNumeric 28 8 balance = some stored ∧
      w = .addSnapshot ⟨s.nextId, accountId, stored, lastEntrySeq, entryCount⟩ := by
  unfold exec at h
  dsimp only at h
  split at h
  · cases h
  split at h
  · cases h
  cases h
  exact ⟨_, ‹_›, rfl⟩

theorem exec_updateEntryStatus {id : Id} {status : EntryStatus} {v : Unit}
    (h : (updateEntryStatus id status).exec cfg s db = .ok (v, w)) :
    w = .setEntryStatus id status := by
  unfold exec at h
  dsimp only at h
  split at h <;> cases h
  rfl

theorem exec_updateTransactionStatus {id : Id} {status : TransactionStatus} {v : Unit}
    (h : (updateTransactionStatus id status).exec cfg s db = .ok (v, w)) :
    w = .setTransactionStatus id status := by
  unfold exec at h
  dsimp only at h
  split at h <;> cases h
  rfl

theorem exec_updateReference {id : Id} {reference : String} {v : Unit}
    (h : (updateReference id reference).exec cfg s db = .ok (v, w)) :
    w = .setReference id reference := by
  unfold exec at h
  dsimp only at h
  split at h
  · cases h
  split at h <;> cases h
  rfl

/-- A statement on the tables beside the books. -/
def besideBooks : Mutation → Bool
  | insertKey _ _ => true
  | completeKey _ _ _ => true
  | deleteKey _ => true
  | insertNotification _ _ _ _ _ _ => true
  | _ => false

theorem exec_besideBooks {m : Mutation} {v : m.Result} (h : m.exec cfg s db = .ok (v, w))
    (hm : m.besideBooks = true) : w.touchesBooks = false := by
  cases m <;> cases hm <;> unfold exec at h <;> dsimp only at h <;>
    (repeat' split at h) <;> cases h <;> rfl

end Mutation

namespace Books.Keyed

variable {b : Books} {s t : Sequences}

theorem mono (h : b.Keyed s) (hst : s.LE t) : b.Keyed t :=
  { h with
    accountIds_lt := fun a ha => lt_of_lt_of_le (h.accountIds_lt a ha) hst.nextId
    transactionIds_lt := fun x hx => lt_of_lt_of_le (h.transactionIds_lt x hx) hst.nextId
    entryIds_lt := fun e he => lt_of_lt_of_le (h.entryIds_lt e he) hst.nextId
    seqs_lt := fun e he => ⟨(h.seqs_lt e he).1, lt_of_lt_of_le (h.seqs_lt e he).2 hst.nextSeq⟩
    seq_pos := lt_of_lt_of_le h.seq_pos hst.nextSeq }

theorem addAccount (h : b.Keyed s) {a : Account} (hlt : a.id < t.nextId) (hid : s.nextId ≤ a.id)
    (howner : ∀ x ∈ b.accounts, (x.ownerId, x.currency) ≠ (a.ownerId, a.currency))
    (hst : s.LE t) : Books.Keyed { b with accounts := b.accounts ++ [a] } t :=
  { h.mono hst with
    accountIds := nodup_key_concat h.accountIds fun x hx =>
      ne_of_lt (lt_of_lt_of_le (h.accountIds_lt x hx) hid)
    accountIds_lt := by
      intro x hx
      rcases List.mem_append.1 hx with hx | hx
      · exact (h.mono hst).accountIds_lt x hx
      · rwa [List.mem_singleton.1 hx]
    owners := nodup_key_concat h.owners howner
    entryAccount := by
      intro e he
      obtain ⟨x, hx, hxe⟩ := h.entryAccount e he
      exact ⟨x, List.mem_append_left _ hx, hxe⟩ }

theorem addTransaction (h : b.Keyed s) {x : Transaction} (hlt : x.id < t.nextId)
    (hid : s.nextId ≤ x.id) (hamount : x.amount ∈ Decimal.grid 8) (hst : s.LE t) :
    Books.Keyed { b with transactions := b.transactions ++ [x] } t :=
  { h.mono hst with
    transactionIds := nodup_key_concat h.transactionIds fun y hy =>
      ne_of_lt (lt_of_lt_of_le (h.transactionIds_lt y hy) hid)
    transactionIds_lt := by
      intro y hy
      rcases List.mem_append.1 hy with hy | hy
      · exact (h.mono hst).transactionIds_lt y hy
      · rwa [List.mem_singleton.1 hy]
    entryTransaction := by
      intro e he
      obtain ⟨y, hy, hye⟩ := h.entryTransaction e he
      exact ⟨y, List.mem_append_left _ hy, hye⟩
    transactionAmounts := by
      intro y hy
      rcases List.mem_append.1 hy with hy | hy
      · exact h.transactionAmounts y hy
      · rwa [List.mem_singleton.1 hy] }

theorem addEntry (h : b.Keyed s) {e : LedgerEntry} (hlt : e.id < t.nextId) (hid : s.nextId ≤ e.id)
    (hseq_lt : e.seq < t.nextSeq) (hseq : s.nextSeq ≤ e.seq)
    (ha : ∃ a ∈ b.accounts, a.id = e.accountId)
    (hx : ∃ x ∈ b.transactions, x.id = e.transactionId) (hamount : e.amount ∈ Decimal.grid 8)
    (hwidth : |e.amount * 10 ^ 8| < 10 ^ 28) (hst : s.LE t) :
    Books.Keyed { b with entries := b.entries ++ [e] } t :=
  { h.mono hst with
    entryIds := nodup_key_concat h.entryIds fun f hf =>
      ne_of_lt (lt_of_lt_of_le (h.entryIds_lt f hf) hid)
    entryIds_lt := by
      intro f hf
      rcases List.mem_append.1 hf with hf | hf
      · exact (h.mono hst).entryIds_lt f hf
      · rwa [List.mem_singleton.1 hf]
    seqs := by
      rw [List.map_append, List.map_singleton, List.pairwise_append]
      refine ⟨h.seqs, List.pairwise_singleton _ _, ?_⟩
      intro q hq r hr
      obtain ⟨f, hf, rfl⟩ := List.mem_map.1 hq
      rw [List.mem_singleton.1 hr]
      exact lt_of_lt_of_le (h.seqs_lt f hf).2 hseq
    seqs_lt := by
      intro f hf
      rcases List.mem_append.1 hf with hf | hf
      · exact (h.mono hst).seqs_lt f hf
      · rw [List.mem_singleton.1 hf]
        exact ⟨lt_of_lt_of_le h.seq_pos hseq, hseq_lt⟩
    entryAccount := by
      intro f hf
      rcases List.mem_append.1 hf with hf | hf
      · exact h.entryAccount f hf
      · rwa [List.mem_singleton.1 hf]
    entryTransaction := by
      intro f hf
      rcases List.mem_append.1 hf with hf | hf
      · exact h.entryTransaction f hf
      · rwa [List.mem_singleton.1 hf]
    entryAmounts := by
      intro f hf
      rcases List.mem_append.1 hf with hf | hf
      · exact h.entryAmounts f hf
      · rwa [List.mem_singleton.1 hf]
    entryWidths := by
      intro f hf
      rcases List.mem_append.1 hf with hf | hf
      · exact h.entryWidths f hf
      · rwa [List.mem_singleton.1 hf] }

theorem setEntryStatus (h : b.Keyed s) (id : Id) (status : EntryStatus) :
    ((Write.setEntryStatus id status).applyBooks b).Keyed s := by
  have hmem : ∀ e ∈ ((Write.setEntryStatus id status).applyBooks b).entries,
      ∃ f ∈ b.entries, f.id = e.id ∧ f.seq = e.seq ∧ f.accountId = e.accountId ∧
        f.transactionId = e.transactionId ∧ f.amount = e.amount := by
    intro e he
    obtain ⟨f, hf, rfl⟩ := mem_modify.1 he
    refine ⟨f, hf, ?_⟩
    split <;> exact ⟨rfl, rfl, rfl, rfl, rfl⟩
  refine { h with entryIds := ?_, entryIds_lt := ?_, seqs := ?_, seqs_lt := ?_, entryAccount := ?_,
                  entryTransaction := ?_, entryAmounts := ?_, entryWidths := ?_ }
  · have hids : ((Write.setEntryStatus id status).applyBooks b).entries.map LedgerEntry.id =
        b.entries.map LedgerEntry.id := map_modify fun _ => rfl
    rw [hids]
    exact h.entryIds
  · intro e he
    obtain ⟨f, hf, hid, -⟩ := hmem e he
    exact hid ▸ h.entryIds_lt f hf
  · have hseq : (((Write.setEntryStatus id status).applyBooks b).entries.map LedgerEntry.seq) =
        b.entries.map LedgerEntry.seq := by
      simp only [Write.applyBooks, modify, List.map_map]
      refine List.map_congr_left fun f _ => ?_
      by_cases hf : f.id = id <;> simp [hf]
    rw [hseq]
    exact h.seqs
  · intro e he
    obtain ⟨f, hf, -, hseq, -⟩ := hmem e he
    exact hseq ▸ h.seqs_lt f hf
  · intro e he
    obtain ⟨f, hf, -, -, ha, -⟩ := hmem e he
    exact ha ▸ h.entryAccount f hf
  · intro e he
    obtain ⟨f, hf, -, -, -, hx, -⟩ := hmem e he
    exact hx ▸ h.entryTransaction f hf
  · intro e he
    obtain ⟨f, hf, -, -, -, -, ha⟩ := hmem e he
    exact ha ▸ h.entryAmounts f hf
  · intro e he
    obtain ⟨f, hf, -, -, -, -, ha⟩ := hmem e he
    exact ha ▸ h.entryWidths f hf

/-- A change to the rows of a transaction that leaves its identifier alone. -/
theorem modifyTransaction (h : b.Keyed s) {id : Id} {g : Transaction → Transaction}
    (hg : ∀ x, (g x).id = x.id ∧ (g x).amount = x.amount) :
    Books.Keyed { b with transactions := modify Transaction.id id g b.transactions } s :=
  have hids : (modify Transaction.id id g b.transactions).map Transaction.id =
      b.transactions.map Transaction.id := map_modify fun x => (hg x).1
  { h with
    transactionIds := hids.symm ▸ h.transactionIds
    transactionIds_lt := by
      intro y hy
      obtain ⟨x, hx, rfl⟩ := mem_modify.1 hy
      split
      · exact (hg x).1.symm ▸ h.transactionIds_lt x hx
      · exact h.transactionIds_lt x hx
    entryTransaction := by
      intro e he
      obtain ⟨x, hx, hxe⟩ := h.entryTransaction e he
      refine ⟨_, mem_modify.2 ⟨x, hx, rfl⟩, ?_⟩
      split
      · rw [(hg x).1, hxe]
      · exact hxe
    transactionAmounts := by
      intro y hy
      obtain ⟨x, hx, rfl⟩ := mem_modify.1 hy
      split
      · exact (hg x).2.symm ▸ h.transactionAmounts x hx
      · exact h.transactionAmounts x hx }

/-- Every statement keeps the integrity of the tables. -/
theorem exec (h : b.Keyed s) {cfg : Config} {db : Database} (hdb : db.books = b) {m : Mutation}
    {v : m.Result} {w : Write} (hm : m.exec cfg s db = .ok (v, w)) :
    (w.applyBooks b).Keyed (m.advance s) := by
  subst hdb
  have hle := m.le_advance s
  cases m with
  | insertAccount ownerId currency =>
    obtain ⟨rfl, rfl, hnew⟩ := Mutation.exec_insertAccount hm
    refine h.addAccount (Nat.lt_succ_self _) le_rfl ?_ hle
    intro x hx heq
    exact hnew x hx (Prod.mk.inj heq)
  | insertTransaction type status amount currency details correlationId =>
    obtain ⟨stored, hs, rfl, rfl⟩ := Mutation.exec_insertTransaction hm
    exact h.addTransaction (Nat.lt_succ_self _) le_rfl (Decimal.storeNumeric_mem_grid hs) hle
  | insertEntry accountId transactionId amount entryType status currency =>
    obtain ⟨stored, hs, ha, hx, rfl⟩ := Mutation.exec_insertEntry hm
    exact h.addEntry (Nat.lt_succ_self _) le_rfl (Nat.lt_succ_self _) le_rfl ha hx
      (Decimal.storeNumeric_mem_grid hs) (Decimal.storeNumeric_fits hs) hle
  | insertSnapshot accountId balance lastEntrySeq entryCount =>
    obtain ⟨stored, -, rfl⟩ := Mutation.exec_insertSnapshot hm
    exact { h.mono hle with }
  | updateEntryStatus id status =>
    obtain rfl := Mutation.exec_updateEntryStatus hm
    exact h.setEntryStatus id status
  | updateTransactionStatus id status =>
    obtain rfl := Mutation.exec_updateTransactionStatus hm
    exact h.modifyTransaction fun _ => ⟨rfl, rfl⟩
  | updateReference id reference =>
    obtain rfl := Mutation.exec_updateReference hm
    exact h.modifyTransaction fun _ => ⟨rfl, rfl⟩
  | insertKey key requestHash =>
    rw [Write.applyBooks_of_not (Mutation.exec_besideBooks hm rfl)]
    exact h.mono hle
  | completeKey id status body =>
    rw [Write.applyBooks_of_not (Mutation.exec_besideBooks hm rfl)]
    exact h.mono hle
  | deleteKey id =>
    rw [Write.applyBooks_of_not (Mutation.exec_besideBooks hm rfl)]
    exact h.mono hle
  | insertNotification channel recipient message eventType status correlationId =>
    rw [Write.applyBooks_of_not (Mutation.exec_besideBooks hm rfl)]
    exact h.mono hle

end Books.Keyed

/-! ## Sessions -/

@[simp] theorem Conn.view_wrote (c : Conn) (seqs : Sequences) (w : Write) :
    (c.wrote seqs w).view = w.apply c.view := by
  simp [Conn.wrote, Conn.view, replay_append]

theorem Conn.view_congr {c d : Conn} (hwrites : d.session.writes = c.session.writes)
    (hdb : d.store.db = c.store.db) : d.view = c.view := by
  unfold Conn.view
  rw [hwrites, hdb]

/-- What a request does to its session and to the committed rows. -/
inductive Conn.Turn (cfg : Config) (r : Request) (c d : Conn) : Prop
  /-- Nothing is written. -/
  | kept : (c.session.failed = true ∨ r ≠ .commit ∧ r ≠ .rollback) → d.session = c.session →
      d.store.db = c.store.db → c.store.seqs.LE d.store.seqs → Turn cfg r c d
  /-- A statement goes through. -/
  | wrote (m : Mutation) (v : m.Result) (w : Write) : r = .mutate m → c.session.failed = false →
      m.exec cfg c.store.seqs c.view = .ok (v, w) →
      d.session = ⟨c.session.writes ++ [w], false⟩ → d.store.db = c.store.db →
      d.store.seqs = m.advance c.store.seqs → Turn cfg r c d
  /-- The writes are published. -/
  | committed : r = .commit → c.session.failed = false → d.session = Session.fresh →
      d.store.db = c.view → d.store.seqs = c.store.seqs → Turn cfg r c d
  /-- The writes are lost. -/
  | dropped : d.session.writes = [] → d.store.db = c.store.db → c.store.seqs.LE d.store.seqs →
      Turn cfg r c d

namespace Conn

variable {cfg : Config} {c : Conn}

theorem turn_exec (cfg : Config) (r : Request) (c : Conn) : Turn cfg r c (exec cfg r c).2 := by
  have hrefl : c.store.seqs.LE c.store.seqs := ⟨le_rfl, le_rfl⟩
  cases r with
  | select q =>
    rw [exec_select]
    split <;> exact .kept (.inr ⟨by simp, by simp⟩) rfl rfl hrefl
  | mutate m =>
    rw [exec_mutate]
    split
    · exact .kept (.inl ‹_›) rfl rfl hrefl
    rename_i hf
    split
    · exact .wrote m _ _ rfl (by simpa using hf) ‹_› rfl rfl rfl
    · exact .dropped rfl rfl (m.le_advance _)
  | commit =>
    rw [exec_commit]
    split
    · exact .kept (.inl ‹_›) rfl rfl hrefl
    · rename_i hf
      exact .committed rfl (by simpa using hf) rfl rfl rfl
  | rollback => exact .dropped rfl rfl hrefl
  | uuid4 => exact .kept (.inr ⟨by simp, by simp⟩) rfl rfl ⟨Nat.le_succ _, le_rfl⟩
  | cacheGet a => exact .kept (.inr ⟨by simp, by simp⟩) rfl rfl hrefl
  | cacheSet a amount => exact .kept (.inr ⟨by simp, by simp⟩) rfl rfl hrefl
  | cacheDelete a => exact .kept (.inr ⟨by simp, by simp⟩) rfl rfl hrefl

/-- The generators only go up. -/
theorem seqs_exec (cfg : Config) (r : Request) (c : Conn) :
    c.store.seqs.LE (exec cfg r c).2.store.seqs := by
  cases turn_exec cfg r c with
  | kept _ _ _ hle => exact hle
  | wrote m v w _ _ _ _ _ hs => exact hs ▸ m.le_advance _
  | committed _ _ _ _ hs => exact hs ▸ ⟨le_rfl, le_rfl⟩
  | dropped _ _ hle => exact hle

/-- It holds of the committed rows, and of what the session sees. -/
structure Everywhere (I : Sequences → Database → Prop) (c : Conn) : Prop where
  store : I c.store.seqs c.store.db
  view : I c.store.seqs c.view

/-- What the statement of a request keeps, the request keeps. -/
theorem Everywhere.exec (cfg : Config) (r : Request) {I : Sequences → Database → Prop}
    (hmono : ∀ {s t db}, s.LE t → I s db → I t db)
    (hI : ∀ (m : Mutation) (s : Sequences) (db : Database) (v : m.Result) (w : Write),
      r = .mutate m → I s db → m.exec cfg s db = .ok (v, w) → I (m.advance s) (w.apply db))
    (h : c.Everywhere I) : (Conn.exec cfg r c).2.Everywhere I := by
  have hstore := hmono (seqs_exec cfg r c) h.store
  cases turn_exec cfg r c with
  | kept _ hsession hdb hle =>
    refine ⟨hdb ▸ hstore, ?_⟩
    rw [view_congr (congrArg Session.writes hsession) hdb]
    exact hmono hle h.view
  | wrote m v w hr _ hm hsession hdb hs =>
    refine ⟨hdb ▸ hstore, ?_⟩
    have hview : (Conn.exec cfg r c).2.view = w.apply c.view := by
      unfold Conn.view
      rw [hsession, hdb, replay_append]
      rfl
    rw [hview, hs]
    exact hI m _ _ v w hr h.view hm
  | committed _ _ hsession hdb hs =>
    have hview : (Conn.exec cfg r c).2.view = c.view := by
      unfold Conn.view
      rw [hsession, hdb]
      rfl
    have hlast := h.view
    rw [← hs] at hlast
    exact ⟨hdb ▸ hlast, hview ▸ hlast⟩
  | dropped hwrites hdb _ =>
    have hview : (Conn.exec cfg r c).2.view = c.store.db := by
      unfold Conn.view
      rw [hwrites, hdb]
      rfl
    rw [← hdb] at hview
    exact ⟨hdb ▸ hstore, hview ▸ hdb ▸ hstore⟩

/-- What the statements of a program keep, the program keeps. -/
theorem Everywhere.run {α : Type} {I : Sequences → Database → Prop} {P : Request → Prop}
    (hmono : ∀ {s t db}, s.LE t → I s db → I t db)
    (hI : ∀ (m : Mutation) (s : Sequences) (db : Database) (v : m.Result) (w : Write),
      P (.mutate m) → I s db → m.exec cfg s db = .ok (v, w) → I (m.advance s) (w.apply db))
    {p : App α} (hp : p.All P) (h : c.Everywhere I) :
    (Program.run (Conn.exec cfg) p c).2.Everywhere I := by
  induction p generalizing c with
  | ret a => exact h
  | raise e => exact h
  | call r k ih =>
    refine ih _ (hp.2 _) (h.exec cfg r hmono fun m s db v w hr hs hm => ?_)
    exact hI m s db v w (hr ▸ hp.1) hs hm

/-- What a statement writes, if it goes through. -/
theorem writes_exec {Q : Write → Prop} {r : Request}
    (hQ : ∀ (m : Mutation) (s : Sequences) (db : Database) (v : m.Result) (w : Write),
      r = .mutate m → m.exec cfg s db = .ok (v, w) → Q w)
    (h : ∀ w ∈ c.session.writes, Q w) : ∀ w ∈ (exec cfg r c).2.session.writes, Q w := by
  intro x hx
  cases turn_exec cfg r c with
  | kept _ hsession _ _ => exact h x (hsession ▸ hx)
  | wrote m v w hr _ hm hsession _ _ =>
    rw [hsession] at hx
    rcases List.mem_append.1 hx with hx | hx
    · exact h x hx
    · rw [List.mem_singleton.1 hx]
      exact hQ m _ _ v w hr hm
  | committed _ _ hsession _ _ =>
    rw [hsession] at hx
    cases hx
  | dropped hwrites _ _ =>
    rw [hwrites] at hx
    cases hx

/-- A session that sees the committed rows in one respect leaves them as they are. -/
theorem db_exec {α : Type} {f : Database → α} (r : Request) (h : f c.view = f c.store.db) :
    f (exec cfg r c).2.store.db = f c.store.db := by
  cases turn_exec cfg r c with
  | kept _ _ hdb _ => rw [hdb]
  | wrote m v w _ _ _ _ hdb _ => rw [hdb]
  | committed _ _ _ hdb _ => rw [hdb, h]
  | dropped _ hdb _ => rw [hdb]

end Conn

/-- The integrity of the committed tables and of what the session sees. -/
structure Conn.Keyed (c : Conn) : Prop where
  store : c.store.db.books.Keyed c.store.seqs
  view : c.view.books.Keyed c.store.seqs

namespace Conn.Keyed

variable {cfg : Config} {c : Conn}

theorem exec (h : c.Keyed) (r : Request) : (Conn.exec cfg r c).2.Keyed := by
  have hboth : c.Everywhere fun s db => db.books.Keyed s := ⟨h.store, h.view⟩
  have hexec := hboth.exec cfg r (fun hle hk => hk.mono hle)
    fun _ _ _ _ _ _ hk hm => hk.exec rfl hm
  exact ⟨hexec.store, hexec.view⟩

/-- Whatever a program asks, the integrity is kept. -/
theorem run {α : Type} (h : c.Keyed) (p : App α) : (Program.run (Conn.exec cfg) p c).2.Keyed := by
  induction p generalizing c with
  | ret a => exact h
  | raise e => exact h
  | call r k ih => exact ih _ (h.exec r)

end Conn.Keyed

/-- What every statement keeps of the books, every program keeps. -/
theorem Conn.run_invariant {cfg : Config} {α : Type} {I : Books → Prop}
    (hI : ∀ (m : Mutation) (s : Sequences) (db : Database) (v : m.Result) (w : Write),
      I db.books → m.exec cfg s db = .ok (v, w) → I (w.applyBooks db.books))
    (p : App α) {c : Conn} (hstore : I c.store.db.books) (hview : I c.view.books) :
    I (Program.run (Conn.exec cfg) p c).2.store.db.books := by
  have hboth : c.Everywhere fun _ db => I db.books := ⟨hstore, hview⟩
  exact (hboth.run (fun _ h => h) (fun m s db v w _ h hm => hI m s db v w h hm)
    (Program.all_true p)).store

/-! ## Columns -/

section columns

variable {cfg : Config} {m : Mutation} {s : Sequences} {db : Database} {v : m.Result} {w : Write}

/-- An account that a statement leaves was there, or fits its columns. -/
theorem Mutation.exec_account (h : m.exec cfg s db = .ok (v, w)) {a : Account}
    (ha : a ∈ (w.applyBooks db.books).accounts) :
    a ∈ db.books.accounts ∨ fitsIn 64 a.ownerId = true ∧ fitsIn 3 a.currency = true := by
  cases m with
  | insertAccount ownerId currency =>
    have hfits : fitsIn 64 ownerId = true ∧ fitsIn 3 currency = true := by
      by_contra hwide
      dsimp only [exec] at h
      rw [if_pos hwide] at h
      cases h
    obtain ⟨rfl, rfl, -⟩ := exec_insertAccount h
    rcases List.mem_append.1 ha with ha | ha
    · exact .inl ha
    · rw [List.mem_singleton.1 ha]
      exact .inr hfits
  | _ =>
    refine .inl ?_
    unfold exec at h
    dsimp only at h
    repeat' split at h
    all_goals cases h
    all_goals exact ha

/-- A transaction that a statement leaves agrees with one that was there, or fits its columns. -/
theorem Mutation.exec_transaction (h : m.exec cfg s db = .ok (v, w)) {t : Transaction}
    (ht : t ∈ (w.applyBooks db.books).transactions) :
    (∃ x ∈ db.books.transactions, (t.amount, t.currency, t.correlationId) =
      (x.amount, x.currency, x.correlationId)) ∨
    Decimal.storeNumeric 28 8 t.amount = some t.amount ∧ fitsIn 3 t.currency = true ∧
      t.correlationId.all (fitsIn 36) = true := by
  cases m with
  | insertTransaction type status amount currency details correlationId =>
    have hfits : fitsIn 3 currency = true ∧ correlationId.all (fitsIn 36) = true := by
      unfold exec at h
      dsimp only at h
      split at h
      · cases h
      split at h
      · cases h
      · exact not_not.1 ‹_›
    obtain ⟨stored, hs, rfl, rfl⟩ := exec_insertTransaction h
    rcases List.mem_append.1 ht with ht | ht
    · exact .inl ⟨t, ht, rfl⟩
    · rw [List.mem_singleton.1 ht]
      exact .inr ⟨Decimal.storeNumeric_stored hs, hfits⟩
  | updateTransactionStatus id status =>
    obtain rfl := exec_updateTransactionStatus h
    exact .inl (exists_of_mem_modify (g := fun x : Transaction => { x with status := status })
      (fun x => (x.amount, x.currency, x.correlationId)) (fun _ => rfl) ht)
  | updateReference id reference =>
    obtain rfl := exec_updateReference h
    exact .inl (exists_of_mem_modify
      (g := fun x : Transaction => { x with reference := some reference })
      (fun x => (x.amount, x.currency, x.correlationId)) (fun _ => rfl) ht)
  | _ =>
    refine .inl ⟨t, ?_, rfl⟩
    unfold exec at h
    dsimp only at h
    repeat' split at h
    all_goals cases h
    all_goals exact ht

/-- A snapshot that a statement leaves was there, or has the scale of its column. -/
theorem Mutation.exec_snapshot (h : m.exec cfg s db = .ok (v, w)) {x : BalanceSnapshot}
    (hx : x ∈ (w.applyBooks db.books).snapshots) :
    x ∈ db.books.snapshots ∨ x.balance ∈ Decimal.grid 8 := by
  cases m with
  | insertSnapshot accountId balance lastEntrySeq entryCount =>
    obtain ⟨stored, hstored, rfl⟩ := exec_insertSnapshot h
    rcases List.mem_append.1 hx with hx | hx
    · exact .inl hx
    · rw [List.mem_singleton.1 hx]
      exact .inr (Decimal.storeNumeric_mem_grid hstored)
  | _ =>
    refine .inl ?_
    unfold exec at h
    dsimp only at h
    repeat' split at h
    all_goals cases h
    all_goals exact hx

/-- The amounts and currencies of the transactions fit their columns. -/
structure Books.Fits (b : Books) : Prop where
  amounts : ∀ t ∈ b.transactions, Decimal.storeNumeric 28 8 t.amount = some t.amount
  currencies : ∀ t ∈ b.transactions, fitsIn 3 t.currency = true

/-- Every statement keeps to the columns. -/
theorem Books.Fits.exec (h : db.books.Fits) (hm : m.exec cfg s db = .ok (v, w)) :
    (w.applyBooks db.books).Fits := by
  constructor <;> intro t ht <;>
    rcases Mutation.exec_transaction hm ht with ⟨x, hx, heq⟩ | ⟨hamount, hcurrency, -⟩
  · have hamount : t.amount = x.amount := congrArg Prod.fst heq
    rw [hamount]
    exact h.amounts x hx
  · exact hamount
  · have hcurrency : t.currency = x.currency := congrArg (·.2.1) heq
    rw [hcurrency]
    exact h.currencies x hx
  · exact hcurrency

end columns

/-- The empty database. -/
theorem Books.keyed_empty : Store.empty.db.books.Keyed Store.empty.seqs := by
  constructor <;> simp [Store.empty, Database.empty]

end WalletLedger
