import WalletLedger.Sequential.Overdraft

/-!
# How the ledger moves on

What an operation does to the two tables of record, the transactions and the entries.

* `Reserved`, `Settled`, `Released` — the three states of a two-phase transfer, by its row
  and its entries; `Effect.settled`, `Effect.released` — what a decision makes of a
  reserved one.
* `Books.Reservations` — the pending entries are the debits of the pending transfers.
* `Progress` — what an operation does to the two tables: nothing, a new transaction, the
  end of a pending one, or a reversal; `Effect.progress` reads it off the effects.
-/

namespace WalletLedger

variable {cfg : Config} {b b₁ b' : Books} {s s' : Sequences}

/-- The row of a transaction whose status is set. -/
theorem Books.mem_setTransaction {t : Transaction} (ht : t ∈ b.transactions)
    (status : TransactionStatus) :
    { t with status := status } ∈ (b.setTransaction t.id status).transactions :=
  mem_modify.2 ⟨t, ht, by simp⟩

namespace Books

/-- The transaction stands in this status. -/
def HasStatus (b : Books) (id : Id) (status : TransactionStatus) : Prop :=
  ∃ t ∈ b.transactions, t.id = id ∧ t.status = status

instance (b : Books) (id : Id) (status : TransactionStatus) : Decidable (b.HasStatus id status) :=
  inferInstanceAs (Decidable (∃ t ∈ b.transactions, _))

theorem not_hasStatus_setTransaction (id : Id) {status status' : TransactionStatus}
    (h : status ≠ status') : ¬ (b.setTransaction id status).HasStatus id status' := by
  rintro ⟨t, ht, hid, hstatus⟩
  obtain ⟨x, hx, rfl⟩ := mem_modify.1 ht
  split at hstatus
  · exact h hstatus
  · rename_i hne
    rw [if_neg hne] at hid
    exact hne hid

theorem HasStatus.congr {id : Id} {status : TransactionStatus}
    (ht : b'.transactions = b.transactions) : b'.HasStatus id status ↔ b.HasStatus id status := by
  unfold HasStatus
  rw [ht]

end Books

/-! ## The states of a two-phase transfer -/

/-- The transfer waits for its decision: `d` is its reserved debit, and its only entry. -/
structure Reserved (b : Books) (t : Transaction) (d : LedgerEntry) : Prop where
  transaction : t ∈ b.transactions
  pending : t.status = .pending
  positive : 0 < t.amount
  entries : b.entriesOf t.id = [d]
  line : d.line = ⟨d.accountId, -t.amount, .debit, t.currency, .pending⟩

/-- The debit is settled, and the receiver has the amount. -/
structure Settled (b : Books) (t : Transaction) (d : LedgerEntry) : Prop where
  transaction : { t with status := .success } ∈ b.transactions
  entries : ∃ c receiverId, b.entriesOf t.id = [{ d with status := .success }, c] ∧
    t.details.receiverId = .ok receiverId ∧
    c.line = ⟨receiverId, t.amount, .credit, t.currency, .success⟩

/-- The debit has been released. -/
structure Released (b : Books) (t : Transaction) (d : LedgerEntry) : Prop where
  transaction : { t with status := .failed } ∈ b.transactions
  entries : b.entriesOf t.id = [{ d with status := .failed }]

/-- A new transfer and its debit. -/
theorem Reserved.opened {t : Transaction} {e : LedgerEntry} (hk : b.Keyed s)
    (hk' : ((b.addTransaction t).addEntries [e]).Keyed s') (hp : t.status = .pending)
    (hpos : 0 < t.amount) (hid : e.transactionId = t.id)
    (hline : e.line = ⟨e.accountId, -t.amount, .debit, t.currency, .pending⟩) :
    Reserved ((b.addTransaction t).addEntries [e]) t e := by
  refine ⟨List.mem_append_right _ (by simp), hp, hpos, ?_, hline⟩
  -- no earlier entry belongs to the new transaction
  have hnew : b.entries.filter (fun x => decide (x.transactionId = t.id)) = [] := by
    refine List.filter_eq_nil_iff.2 fun x hx hxt => ?_
    obtain ⟨y, hy, hyx⟩ := hk.entryTransaction x hx
    have hids : ((b.transactions ++ [t]).map Transaction.id).Nodup := hk'.transactionIds
    rw [List.map_append, List.nodup_append] at hids
    exact hids.2.2 y.id (List.mem_map_of_mem hy) t.id (by simp)
      (hyx.trans (of_decide_eq_true hxt))
  show (b.entries ++ [e]).filter _ = [e]
  rw [List.filter_append, hnew]
  simp [hid]

/-- What `initiate` leaves is a reserved transfer. -/
theorem Effect.reserved {senderId receiverId : Id} {amount : Decimal}
    {correlationId : Option String} (hk : b.Keyed s) (hk' : b'.Keyed s')
    (he : Effect cfg b (.initiate senderId receiverId amount correlationId) b') :
    ∃ t d, Reserved b' t d := by
  cases he with
  | initiate k t e records line transaction =>
    have habs : |k.money.amount| = k.money.amount := abs_of_pos k.positive
    refine ⟨t, e, .opened hk hk' records.status (records.amount ▸ k.positive) transaction ?_⟩
    have haccount : e.accountId = k.sender.id := congrArg PostingLine.accountId line
    rw [line, habs, records.amount, records.currency, haccount]

section decisions

variable {t : Transaction} {d : LedgerEntry}

/-- The row the status check has read is the transfer's. -/
theorem Reserved.eq_of_find (hr : Reserved b t d) (hk : b.Keyed s) {t' : Transaction}
    (h : b.transactions.find? (fun x => x.id = t.id) = some t') : t' = t := by
  obtain ⟨ht, hid⟩ := transaction_of_find h
  exact eq_of_key_eq hk.transactionIds ht hr.transaction hid

theorem Reserved.isOf (hr : Reserved b t d) (e : LedgerEntry) (he : e ∈ b.entries) :
    e.isOf t.id .pending = true ↔ e = d := by
  have hmem : e ∈ b.entriesOf t.id ↔ e.transactionId = t.id := by
    rw [Books.entriesOf, List.mem_filter]
    simp [he]
  rw [hr.entries, List.mem_singleton] at hmem
  have hstatus : d.status = .pending := congrArg PostingLine.status hr.line
  unfold LedgerEntry.isOf
  rw [decide_eq_true_iff, ← hmem]
  constructor
  · exact fun h => h.1
  · rintro rfl
    exact ⟨rfl, hstatus⟩

theorem Reserved.mem (hr : Reserved b t d) : d ∈ b.entries := by
  have hd : d ∈ b.entriesOf t.id := by rw [hr.entries]; simp
  exact List.mem_of_mem_filter hd

/-- A lone `commit` settles the transfer. -/
theorem Effect.settled (hr : Reserved b t d) (hk : b.Keyed s) (hl : b.Linked)
    (he : Effect cfg b (.commit t.id) b') : Settled b' t d := by
  cases he with
  | commit t' money debit credit sender receiver _ found pending money_eq approved reserved
      sender_mem sender_id receiver_id receiver_mem line transaction balanced cuts =>
    obtain rfl := hr.eq_of_find hk found
    obtain ⟨-, htx, hes⟩ := cuts.rest
    have hdebit := List.find?_some reserved
    rw [decide_eq_true_eq] at hdebit
    obtain rfl : debit = d := (hr.isOf debit (List.mem_of_find?_eq_some reserved)).1 hdebit.1
    have hamount : money.amount = t'.amount := hl.amount_of_make hr.transaction money_eq
    have hcurrency : money.currency = t'.currency := hl.currency_of_make hr.transaction money_eq
    refine ⟨?_, credit, receiver.id, ?_, receiver_id, ?_⟩
    · rw [htx]
      exact Books.mem_setTransaction (b := (b.setEntry debit.id .success).addEntries [credit])
        hr.transaction .success
    · have hflip : (b.setEntry debit.id .success).entriesOf t'.id =
          modify LedgerEntry.id debit.id (fun e => { e with status := .success })
            (b.entriesOf t'.id) := filter_modify fun _ => rfl
      unfold Books.entriesOf at hflip ⊢
      rw [hes]
      show ((b.setEntry debit.id .success).entries ++ [credit]).filter _ = _
      rw [List.filter_append, hflip]
      have hentries : b.entries.filter (fun e => decide (e.transactionId = t'.id)) = [debit] :=
        hr.entries
      rw [hentries]
      simp [modify, transaction]
    · rw [line, creditLine, hamount, hcurrency, abs_of_pos hr.positive]

/-- A lone `fail` releases it. -/
theorem Effect.released (hr : Reserved b t d) (hk : b.Keyed s)
    (he : Effect cfg b (.fail t.id) b') : Released b' t d := by
  cases he with
  | fail t' found pending =>
    obtain rfl := hr.eq_of_find hk found
    have hfailed := Books.failed_entries hk t'.id
    refine ⟨?_, ?_⟩
    · refine Books.mem_setTransaction ?_ .failed
      rw [(Books.setEntries_rest _ .failed b).2]
      exact hr.transaction
    · show ((b.entries.filter (LedgerEntry.isOf t'.id .pending)).foldl
        (fun b e => b.setEntry e.id .failed) b).entries.filter _ = _
      rw [hfailed, List.filter_map]
      have hsame : ((fun e : LedgerEntry => decide (e.transactionId = t'.id)) ∘
          fun e : LedgerEntry =>
            if e.isOf t'.id .pending then { e with status := EntryStatus.failed } else e) =
          fun e => decide (e.transactionId = t'.id) := by
        funext e
        simp only [Function.comp]
        split <;> rfl
      have hentries : b.entries.filter (fun e => decide (e.transactionId = t'.id)) = [d] :=
        hr.entries
      rw [hsame, hentries, List.map_singleton, if_pos ((hr.isOf d hr.mem).2 rfl)]

end decisions

/-! ## Reservations -/

/-- The pending entries are the debits of the pending transfers. -/
structure Books.Reservations (b : Books) : Prop where
  entries : ∀ e ∈ b.entries, e.status = .pending →
    ∃ t ∈ b.transactions, t.id = e.transactionId ∧ t.type = .transfer ∧ t.status = .pending
  transfers : ∀ t ∈ b.transactions, t.type = .transfer → t.status = .pending →
    ∃ d receiverId, Reserved b t d ∧ t.details = .transfer d.accountId receiverId

/-- The transaction of a pending entry is the transfer that has reserved it. -/
theorem Books.Reservations.reserved (h : b.Reservations) (hk : b.Keyed s) {e : LedgerEntry}
    (he : e ∈ b.entries) (hp : e.status = .pending) {t : Transaction} (ht : t ∈ b.transactions)
    (hid : e.transactionId = t.id) :
    t.type = .transfer ∧ Reserved b t e ∧ ∃ r, t.details = .transfer e.accountId r := by
  obtain ⟨x, hx, hxid, htype, hpend⟩ := h.entries e he hp
  obtain rfl : x = t := eq_of_key_eq hk.transactionIds hx ht (hxid.trans hid)
  obtain ⟨d, r, hr, hdetails⟩ := h.transfers x hx htype hpend
  obtain rfl : e = d := (hr.isOf e he).1 (decide_eq_true ⟨hid, hp⟩)
  exact ⟨htype, hr, r, hdetails⟩

/-! ## What an operation does to the two tables -/

/-- The entries a new transaction comes with: settled ones, or the reserved debit of a
transfer that waits. -/
inductive Opening (t : Transaction) (es : List LedgerEntry) : Prop
  | settled : (t.type = .transfer → t.status ≠ .pending) → (∀ e ∈ es, e.status = .success) →
      Opening t es
  | reserved (e : LedgerEntry) (receiverId : Id) : t.type = .transfer → t.status = .pending →
      0 < t.amount → t.details = .transfer e.accountId receiverId → es = [e] →
      e.line = ⟨e.accountId, -t.amount, .debit, t.currency, .pending⟩ → Opening t es

/-- What an operation does to the transactions and the entries. -/
inductive Progress (b b' : Books) : Prop
  | idle (transactions : b'.transactions = b.transactions) (entries : b'.entries = b.entries)
  /-- A new transaction, with its entries. -/
  | opened (t : Transaction) (es : List LedgerEntry)
      (fresh : ∀ x ∈ b.transactions, x.id ≠ t.id)
      (status : t.status = .pending ∨ t.status = .success) (original : t.type ≠ .reversal)
      (transactions : b'.transactions = b.transactions ++ [t])
      (entries : b'.entries = b.entries ++ es) (own : ∀ e ∈ es, e.transactionId = t.id)
      (opening : Opening t es)
  /-- A pending transaction ends: some of its pending entries end too, others are added. -/
  | closed (t : Transaction) (status : TransactionStatus) (outcome : EntryStatus)
      (selected : LedgerEntry → Bool) (es : List LedgerEntry) (mem : t ∈ b.transactions)
      (pending : t.status = .pending) (status_final : status = .success ∨ status = .failed)
      (outcome_final : outcome = .success ∨ outcome = .failed)
      (selects : ∀ e ∈ b.entries, selected e = true → e.transactionId = t.id ∧ e.status = .pending)
      (transactions : b'.transactions =
        modify Transaction.id t.id (fun x => { x with status := status }) b.transactions)
      (entries : b'.entries =
        b.entries.map (fun e => if selected e then { e with status := outcome } else e) ++ es)
      (own : ∀ e ∈ es, e.transactionId = t.id ∧ e.status = .success)
      (drained : b.Reservations → ∀ e ∈ b.entries, e.transactionId = t.id → e.status = .pending →
        selected e = true)
  /-- A successful transaction is reversed by a new one. -/
  | reversed (t reversal : Transaction) (es : List LedgerEntry) (mem : t ∈ b.transactions)
      (success : t.status = .success) (original : t.type ≠ .reversal)
      (fresh : ∀ x ∈ b.transactions, x.id ≠ reversal.id) (type : reversal.type = .reversal)
      (details : reversal.details = .reversal t.id) (status : reversal.status = .success)
      (transactions : b'.transactions =
        modify Transaction.id t.id (fun x => { x with status := .reversed })
          (b.transactions ++ [reversal]))
      (entries : b'.entries = b.entries ++ es)
      (own : ∀ e ∈ es, e.transactionId = reversal.id ∧ e.status = .success)
      (cancels : ∀ a c,
        tally (fun e => e.accountId = a ∧ e.currency = c) LedgerEntry.amount es =
          -tally (fun e => e.accountId = a ∧ e.currency = c) LedgerEntry.amount
            (b.entries.filter (LedgerEntry.isOf t.id .success)))

/-- The entries of a reversal cancel those of the transaction, account by account and
currency by currency. -/
theorem Posted.cancels {id : Id} {originals es : List LedgerEntry} {lines : List PostingLine}
    (hp : Posted id lines es) (hm : List.Forall₂ MirrorLine originals lines) (hl : b.Linked)
    (ho : ∀ e ∈ originals, LineOk b e.line) (a : Id) (c : String) :
    tally (fun e => e.accountId = a ∧ e.currency = c) LedgerEntry.amount es =
      -tally (fun e => e.accountId = a ∧ e.currency = c) LedgerEntry.amount originals := by
  have hlines : tally (fun e => e.accountId = a ∧ e.currency = c) LedgerEntry.amount es =
      tally (fun line => line.accountId = a ∧ line.currency = c) PostingLine.amount lines := by
    rw [← hp.lines, tally_map]
    rfl
  rw [hlines]
  exact tally_mirrored (fun x y => x = a ∧ y = c) hm hl ho

/-- A new row at the end has a key of its own. -/
theorem fresh_of_nodup {α κ : Type} {key : α → κ} {l : List α} {x : α}
    (h : ((l ++ [x]).map key).Nodup) : ∀ y ∈ l, key y ≠ key x := by
  rw [List.map_append, List.nodup_append] at h
  intro y hy
  exact h.2.2 _ (List.mem_map_of_mem hy) _ (by simp)

theorem Books.ids_setTransaction (b : Books) (id : Id) (status : TransactionStatus) :
    (b.setTransaction id status).transactions.map Transaction.id =
      b.transactions.map Transaction.id := map_modify fun _ => rfl

/-- New entries belong to no transaction but their own. -/
theorem Books.entriesOf_append {es new : List LedgerEntry} {id id' : Id}
    (he : b'.entries = es ++ new) (hnew : ∀ e ∈ new, e.transactionId = id') (hid : id ≠ id') :
    b'.entriesOf id = es.filter fun e => e.transactionId = id := by
  have hothers : new.filter (fun e => decide (e.transactionId = id)) = [] := by
    refine List.filter_eq_nil_iff.2 fun e h => ?_
    simp [hnew e h, Ne.symm hid]
  rw [entriesOf, he, List.filter_append, hothers, List.append_nil]

/-- The end of a transaction leaves the entries of the others alone. -/
theorem Books.entriesOf_closed {id id' : Id} {selected : LedgerEntry → Bool}
    {outcome : EntryStatus} {es : List LedgerEntry}
    (he : b'.entries =
      b.entries.map (fun e => if selected e then { e with status := outcome } else e) ++ es)
    (hselects : ∀ e ∈ b.entries, selected e = true → e.transactionId = id)
    (hes : ∀ e ∈ es, e.transactionId = id) (hid : id' ≠ id) :
    b'.entriesOf id' = b.entriesOf id' := by
  rw [entriesOf_append he hes hid, entriesOf, List.filter_map]
  have hsame : ∀ e ∈ b.entries.filter (fun e => e.transactionId = id'),
      (if selected e then { e with status := outcome } else e) = e := by
    intro e hmem
    rw [List.mem_filter, decide_eq_true_eq] at hmem
    rw [if_neg]
    intro hsel
    exact hid (hmem.2.symm.trans (hselects e hmem.1 hsel))
  have hkeep : ((fun e : LedgerEntry => decide (e.transactionId = id')) ∘
      fun e => if selected e then { e with status := outcome } else e) =
      fun e => decide (e.transactionId = id') := by
    funext e
    simp only [Function.comp_apply]
    split <;> rfl
  rw [hkeep, List.map_congr_left hsame, List.map_id']

theorem Posted.status {id : Id} {lines : List PostingLine} {es : List LedgerEntry}
    (hp : Posted id lines es) (hs : ∀ line ∈ lines, line.status = .success) :
    ∀ e ∈ es, e.status = .success := fun _ he =>
  hs _ (hp.lines ▸ List.mem_map_of_mem he)

theorem Effect.progress_initiateDeposit {accountId : Id} {amount : Decimal} {provider : String}
    {context : DepositContext} {correlationId : Option String} (hk' : b'.Keyed s')
    (he : Effect cfg b (.initiateDeposit accountId amount provider context correlationId) b') :
    Progress b b' := by
  have hids := hk'.transactionIds
  cases he with
  | initiateDeposit account money t reference account_mem account_id money_eq positive records =>
    have hfresh : ∀ x ∈ b.transactions, x.id ≠ t.id := by
      refine fresh_of_nodup ?_
      have hsame : ((Write.setReference t.id reference).applyBooks
          (b.addTransaction t)).transactions.map Transaction.id =
          (b.transactions ++ [t]).map Transaction.id := map_modify fun _ => rfl
      rwa [← hsame]
    refine .opened { t with reference := some reference } [] hfresh (.inl records.status)
      (by simp [records.type]) ?_ (by simp [Write.applyBooks, Books.addTransaction]) (by simp)
      (.settled (by simp [records.type]) (by simp))
    show modify Transaction.id t.id _ (b.transactions ++ [t]) = _
    rw [modify_append, modify_of_forall_ne hfresh]
    simp [modify]

theorem Effect.progress_settle {reference : String} {confirmedAmount : Option Decimal}
    {confirmedCurrency : Option String} (hk : b.Keyed s)
    (he : Effect cfg b (.settle reference confirmedAmount confirmedCurrency) b') :
    Progress b b' := by
  cases he with
  | settle t authorized account clearing b₁ _ es found pending authorized_eq reconciled account_id
      account_mem owner code opened posted cuts =>
    obtain ⟨-, htx, hes⟩ := cuts.rest
    obtain ⟨hot, hoe, -⟩ := opened.rest
    have ht := List.mem_of_find?_eq_some found
    refine .closed t .success .success (fun _ => false) es ht pending (.inl rfl) (.inl rfl)
      (by simp) ?_ ?_ (fun e he => ⟨posted.transaction e he, posted.status (by simp) e he⟩) ?_
    · rw [htx, ← hot]
      rfl
    · rw [hes, ← hoe]
      simp [Books.setTransaction, Write.applyBooks, Books.addEntries]
    · -- a deposit has reserved nothing
      intro hr e he hid hp
      obtain ⟨-, -, r, hdetails⟩ := hr.reserved hk he hp ht hid
      rw [hdetails] at account_id
      cases account_id

theorem Effect.progress_commit {transactionId : Id} (hk : b.Keyed s)
    (he : Effect cfg b (.commit transactionId) b') : Progress b b' := by
  cases he with
  | commit t money debit credit sender receiver _ found pending money_eq approved reserved
      sender_mem sender_id receiver_id receiver_mem line transaction balanced cuts =>
    obtain ⟨-, htx, hes⟩ := cuts.rest
    have hdebit := List.find?_some reserved
    simp only [LedgerEntry.isOf, decide_eq_true_eq] at hdebit
    have ht := (transaction_of_find found).1
    have hmem := List.mem_of_find?_eq_some reserved
    have hcredit : credit.status = .success := congrArg PostingLine.status line
    refine .closed t .success .success (fun e => e.id = debit.id) [credit] ht pending (.inl rfl)
      (.inl rfl) ?_ htx ?_ (by simp [transaction, hcredit]) ?_
    · intro e he hid
      obtain rfl : e = debit := eq_of_key_eq hk.entryIds he hmem (of_decide_eq_true hid)
      exact hdebit.1
    · rw [hes]
      simp [Books.setTransaction, Books.setEntry, Write.applyBooks, Books.addEntries, modify]
    · intro hr e he hid hp
      obtain ⟨-, hd, -⟩ := hr.reserved hk hmem hdebit.1.2 ht hdebit.1.1
      obtain rfl := (hd.isOf e he).1 (decide_eq_true ⟨hid, hp⟩)
      exact decide_eq_true rfl

theorem Effect.progress_executeFxTransfer {rates : RateTable} {senderId receiverId : Id}
    {amount : Decimal} {correlationId : Option String} (hk' : b'.Keyed s')
    (he : Effect cfg b (.executeFxTransfer rates senderId receiverId amount correlationId) b') :
    Progress b b' := by
  have hids := hk'.transactionIds
  cases he with
  | executeFxTransfer k received poolFrom poolTo b₁ b₂ _ t es exchange received_eq owner_from
      code_from opened_from owner_to code_to opened_to records posted cuts =>
    obtain ⟨-, htx, hes⟩ := cuts.rest
    obtain ⟨hft, hfe, -⟩ := opened_from.rest
    obtain ⟨htt, hte, -⟩ := opened_to.rest
    have htx : _ = b₂.transactions ++ [t] := htx
    have hes : _ = b₂.entries ++ es := hes
    rw [htt, hft] at htx
    rw [hte, hfe] at hes
    rw [htx] at hids
    exact .opened t es (fresh_of_nodup hids) (.inr records.status) (by simp [records.type]) htx hes
      posted.transaction (.settled (by simp [records.status]) (posted.status (by simp)))

theorem Effect.progress_reverse {transactionId : Id} {correlationId : Option String}
    (hk' : b'.Keyed s') (hl : b.Linked)
    (he : Effect cfg b (.reverse transactionId correlationId) b') : Progress b b' := by
  have hids := hk'.transactionIds
  cases he with
  | reverse t reversal lines es _ found success original records mirrored balanced posted cuts =>
    obtain ⟨-, htx, hes⟩ := cuts.rest
    rw [htx, Books.ids_setTransaction] at hids
    have hlines : ∀ e ∈ b.entries.filter (LedgerEntry.isOf t.id .success), LineOk b e.line :=
      fun e he => hl.entries e (List.mem_of_mem_filter he)
    refine .reversed t reversal es (transaction_of_find found).1 success original
      (fresh_of_nodup hids) records.type records.details records.status htx hes ?_
      (posted.cancels mirrored hl hlines)
    intro e he
    refine ⟨posted.transaction e he, ?_⟩
    obtain ⟨x, -, hx⟩ := exists_of_mirrored mirrored (posted.lines ▸ List.mem_map_of_mem he)
    exact hx.status

/-- The transactions and the entries after an operation. -/
theorem Effect.progress {op : Operation} (hk : b.Keyed s) (hk' : b'.Keyed s') (hl : b.Linked)
    (he : Effect cfg b op b') : Progress b b' := by
  have hids := hk'.transactionIds
  cases op with
  | createAccount ownerId currency =>
    cases he with
    | createAccount a owner code new => exact .idle rfl rfl
  | initiateDeposit accountId amount provider context correlationId =>
    exact he.progress_initiateDeposit hk'
  | settle reference confirmedAmount confirmedCurrency => exact he.progress_settle hk
  | execute senderId receiverId amount correlationId =>
    cases he with
    | execute k t es _ records posted cuts =>
      obtain ⟨-, htx, hes⟩ := cuts.rest
      rw [htx] at hids
      exact .opened t es (fresh_of_nodup hids) (.inr records.status) (by simp [records.type]) htx
        hes posted.transaction (.settled (by simp [records.status]) (posted.status (by simp)))
  | initiate senderId receiverId amount correlationId =>
    cases he with
    | initiate k t e records line transaction =>
      have haccount : e.accountId = k.sender.id := congrArg PostingLine.accountId line
      refine .opened t [e] (fresh_of_nodup hids) (.inl records.status) (by simp [records.type]) rfl
        rfl (by simp [transaction]) (.reserved e k.receiver.id records.type records.status
          (records.amount ▸ k.positive) (by rw [records.details, haccount]) rfl ?_)
      rw [line, haccount, records.amount, records.currency, abs_of_pos k.positive]
  | commit transactionId => exact he.progress_commit hk
  | fail transactionId =>
    cases he with
    | fail t found pending =>
      refine .closed t .failed .failed (LedgerEntry.isOf t.id .pending) []
        (transaction_of_find found).1 pending (.inr rfl) (.inr rfl)
        (fun e _ he => of_decide_eq_true he) ?_ ?_ (by simp)
        (fun _ e _ hid hp => decide_eq_true ⟨hid, hp⟩)
      · show modify _ _ _ _ = _
        rw [(Books.setEntries_rest _ _ b).2]
      · rw [List.append_nil]
        exact Books.failed_entries hk t.id
  | executeFxTransfer rates senderId receiverId amount correlationId =>
    exact he.progress_executeFxTransfer hk'
  | reverse transactionId correlationId => exact he.progress_reverse hk' hl

end WalletLedger
