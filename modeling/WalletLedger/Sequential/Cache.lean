import WalletLedger.Application.BalanceQuery
import WalletLedger.Sequential.Announcements
import WalletLedger.Sequential.Deltas
import WalletLedger.Sequential.Reversals

/-!
# Cached balances

A balance is cached when it is read, and dropped when an event names its account.

* `Access` — balance reads mixed with the operations of the services.
* `Operation.silent` — the accounts an operation moves money of without dropping their
  balance.
* `Effect.read_eq` — an operation changes no other balance; `Operation.purges` — the code
  drops what it names.
* `Store.Coherent` — every cached balance is the one the ledger gives;
  `balances_coherent`: so it stays as long as no silent account is cached, and
  `stale_balance` is a read after a reversal.
-/

namespace WalletLedger

variable {cfg : Config} {b b' : Books} {s : Store}

/-! ## The cache -/

/-- No balance appears in the cache, and none changes there. -/
def Shrinks (k k' : List (Id × Decimal)) : Prop :=
  ∀ a x, k'.lookup a = some x → k.lookup a = some x

theorem Shrinks.refl (k : List (Id × Decimal)) : Shrinks k k := fun _ _ h => h

theorem Shrinks.trans {k k' k'' : List (Id × Decimal)} (h : Shrinks k k') (h' : Shrinks k' k'') :
    Shrinks k k'' := fun a x hx => h a x (h' a x hx)

theorem Shrinks.none {k k' : List (Id × Decimal)} (h : Shrinks k k') {a : Id}
    (ha : k.lookup a = none) : k'.lookup a = none := by
  cases hx : k'.lookup a with
  | none => rfl
  | some x =>
    rw [h a x hx] at ha
    cases ha

theorem lookup_dropped (k : List (Id × Decimal)) (a a' : Id) :
    (k.filter fun x => x.1 ≠ a).lookup a' = if a' = a then none else k.lookup a' := by
  induction k with
  | nil => simp
  | cons x k ih =>
    obtain ⟨y, v⟩ := x
    by_cases hy : y = a
    · rw [List.filter_cons_of_neg (by simpa using hy), ih, List.lookup_cons]
      by_cases ha : a' = a
      · simp [ha]
      · have hne : (a' == y) = false := by simpa [hy] using ha
        simp [ha, hne]
    · rw [List.filter_cons_of_pos (by simpa using hy), List.lookup_cons, List.lookup_cons, ih]
      by_cases ha : a' = a
      · have hne : (a' == y) = false := by simpa [ha] using Ne.symm hy
        simp [ha, ha ▸ hne]
      · simp [ha]

/-- The request writes no balance into the cache. -/
def Request.keepsCache : Request → Bool
  | .cacheSet _ _ => false
  | _ => true

/-- Programs that write no balance only drop some. -/
theorem shrinks_run {α : Type} {p : App α} (hp : p.All fun r => r.keepsCache = true) (c : Conn) :
    Shrinks c.store.cache (runOn cfg p c).2.store.cache := by
  induction p generalizing c with
  | ret a => exact .refl _
  | raise e => exact .refl _
  | call r k ih =>
    have hstep : Shrinks c.store.cache (Conn.exec cfg r c).2.store.cache := by
      cases r with
      | select q =>
        rw [Conn.exec_select]
        split <;> exact .refl _
      | mutate m =>
        rw [Conn.exec_mutate]
        split
        · exact .refl _
        split <;> exact .refl _
      | commit =>
        rw [Conn.exec_commit]
        split <;> exact .refl _
      | rollback => exact .refl _
      | uuid4 => exact .refl _
      | cacheGet a => exact .refl _
      | cacheSet a amount => exact absurd hp.1 (by simp [Request.keepsCache])
      | cacheDelete a =>
        intro a' x hx
        rw [show (Conn.exec cfg (.cacheDelete a) c).2.store.cache =
          c.store.cache.filter fun x => x.1 ≠ a from rfl, lookup_dropped] at hx
        split at hx
        · cases hx
        · exact hx
    exact hstep.trans (ih _ (hp.2 _) _)

theorem Ordinary.keepsCache : Ordinary fun r : Request => r.keepsCache = true :=
  ⟨fun _ => rfl, fun _ _ => rfl, rfl⟩

/-- No operation writes a balance into the cache. -/
theorem Operation.keepsCache (op : Operation) :
    (op.program cfg).All fun r => r.keepsCache = true :=
  Ordinary.keepsCache.operation rfl (fun _ => rfl) rfl op

/-! ## What an operation names -/

/-- The accounts an operation moves money of although no event names them: the clearing
account of a deposit, the pools of an exchange, the accounts of a reversal. -/
def Operation.silent (b : Books) : Operation → List Id
  | .settle reference _ _ =>
      match b.transactions.find? fun t => t.reference = some reference with
      | none => []
      | some t =>
          (b.accounts.filter fun a => a.ownerId = clearingOwner ∧ a.currency = t.currency ∧
            t.details.accountId.toOption ≠ some a.id).map Account.id
  | .executeFxTransfer _ senderId receiverId _ _ =>
      (b.accounts.filter fun a => a.ownerId = fxPoolOwner ∧ a.id ≠ senderId ∧ a.id ≠ receiverId ∧
        ∃ x ∈ b.accounts, (x.id = senderId ∨ x.id = receiverId) ∧ x.currency = a.currency).map
          Account.id
  | .reverse transactionId _ =>
      (b.accounts.filter fun a => b.moved transactionId a.id ≠ 0).map Account.id
  | _ => []

theorem Opened.eq_of_id {ownerId currency : String} {a x : Account} {b₁ : Books}
    (h : Opened ownerId currency b a b₁) (hids : (b₁.accounts.map Account.id).Nodup)
    (hx : x ∈ b.accounts) (hid : x.id = a.id) : x = a :=
  eq_of_key_eq hids (h.subset hx) h.mem hid

/-- A clearing account that is already there is one the deposit is silent about. -/
theorem Operation.silent_clearing {s : Sequences} {reference : String}
    {confirmedAmount : Option Decimal} {confirmedCurrency : Option String} {t : Transaction}
    {a clearing : Account} (h : b.Readable s)
    (found : b.transactions.find? (fun t => t.reference = some reference) = some t)
    (pending : t.status = .pending) (account_id : t.details.accountId = .ok a.id)
    (account_mem : a ∈ b.accounts) (clearing_mem : clearing ∈ b.accounts)
    (owner : clearing.ownerId = clearingOwner) (code : clearing.currency = a.currency.toUpper)
    (hne : a.id ≠ clearing.id) :
    clearing.id ∈ (Operation.settle reference confirmedAmount confirmedCurrency).silent b := by
  have ht := List.mem_of_find?_eq_some found
  have hcur : clearing.currency = t.currency := by
    rw [code, h.linked.codes a account_mem]
    exact h.linked.currency_of_names h.keyed ht pending account_mem (.inl account_id)
  have hother : t.details.accountId.toOption ≠ some clearing.id := by
    rw [account_id]
    simpa [Except.toOption] using hne
  simp only [silent, found, List.mem_map, List.mem_filter, decide_eq_true_eq]
  exact ⟨clearing, ⟨clearing_mem, owner, hcur, hother⟩, rfl⟩

/-- A pool that is already there is one the exchange is silent about. -/
theorem Operation.silent_pool {rates : RateTable} {senderId receiverId : Id} {amount : Decimal}
    {correlationId : Option String} {x pool : Account} (hl : b.Linked) (hx : x ∈ b.accounts)
    (hparty : x.id = senderId ∨ x.id = receiverId) (hpool : pool ∈ b.accounts)
    (owner : pool.ownerId = fxPoolOwner) (code : pool.currency = x.currency.toUpper)
    (hsender : pool.id ≠ senderId) (hreceiver : pool.id ≠ receiverId) :
    pool.id ∈ (Operation.executeFxTransfer rates senderId receiverId amount correlationId).silent
      b := by
  rw [hl.codes x hx] at code
  simp only [silent, List.mem_map, List.mem_filter, decide_eq_true_eq]
  exact ⟨pool, ⟨hpool, owner, hsender, hreceiver, x, hx, hparty, code.symm⟩, rfl⟩

/-- A deposit moves the account it names, and the clearing account. -/
theorem Effect.read_eq_settle {s s' : Sequences} {reference : String}
    {confirmedAmount : Option Decimal} {confirmedCurrency : Option String} (h : b.Readable s)
    (hk' : b'.Keyed s')
    (he : Effect cfg b (.settle reference confirmedAmount confirmedCurrency) b')
    {account : Account} (ha : account ∈ b.accounts)
    (hnames : ¬ (Operation.settle reference confirmedAmount confirmedCurrency).Names b account.id)
    (hsilent : account.id ∉
      (Operation.settle reference confirmedAmount confirmedCurrency).silent b) :
    b'.read account.id = b.read account.id := by
  cases he with
  | settle t authorized a clearing b₁ _ es found pending authorized_eq reconciled account_id
      account_mem owner code opened posted cuts =>
    have hsame : b₁.read account.id = b.read account.id :=
      Books.read_congr opened.rest.2.2 opened.rest.2.1 _
    have hcredited : a.id ≠ account.id := fun hid =>
      hnames ⟨t, found, by rw [account_id, hid]⟩
    have hcleared : clearing.id ≠ account.id := by
      intro hid
      obtain rfl := opened.eq_of_id (cuts.rest.1 ▸ hk'.accountIds) ha hid.symm
      exact hsilent (Operation.silent_clearing h found pending account_id account_mem ha owner code
        hcredited)
    rw [cuts.read_posted b₁ es hk' (h.cursors.opened opened)
      (h.scaled.congr opened.rest.2.2) rfl rfl, hsame,
      posted.tally_settled (by simp)]
    simp [hcredited, hcleared]

/-- A transfer that is committed moves its two accounts. -/
theorem Effect.read_eq_commit {s s' : Sequences} {transactionId : Id} (h : b.Readable s)
    (hk' : b'.Keyed s') (he : Effect cfg b (.commit transactionId) b') {accountId : Id}
    (hnames : ¬ (Operation.commit transactionId).Names b accountId) :
    b'.read accountId = b.read accountId := by
  cases he with
  | commit t money debit credit sender receiver _ found pending money_eq approved reserved
      sender_mem sender_id receiver_id receiver_mem line transaction balanced cuts =>
    have hsender : debit.accountId ≠ accountId := fun hid =>
      hnames ⟨t, found, .inr ⟨debit, reserved, hid⟩⟩
    have hreceiver : receiver.id ≠ accountId := fun hid =>
      hnames ⟨t, found, .inl (by rw [receiver_id, hid])⟩
    have hdebit : (b.setEntry debit.id .success).read accountId = b.read accountId := by
      refine Books.read_setEntry fun e he hid hacc => absurd ?_ hsender
      rw [← eq_of_key_eq h.keyed.entryIds he (List.mem_of_find?_eq_some reserved) hid]
      exact hacc
    have hcredit : credit.accountId = receiver.id := congrArg PostingLine.accountId line
    rw [cuts.read_posted (b.setEntry debit.id .success) [credit] hk'
      (h.cursors.setEntry _ _) h.scaled rfl rfl, hdebit]
    simp [hcredit, hreceiver]

/-- An exchange moves the two accounts and the pools of their currencies. -/
theorem Effect.read_eq_executeFxTransfer {s s' : Sequences} {rates : RateTable}
    {senderId receiverId : Id} {amount : Decimal} {correlationId : Option String}
    (h : b.Readable s) (hk' : b'.Keyed s')
    (he : Effect cfg b (.executeFxTransfer rates senderId receiverId amount correlationId) b')
    {account : Account} (ha : account ∈ b.accounts)
    (hnames : ¬ (Operation.executeFxTransfer rates senderId receiverId amount correlationId).Names b
      account.id)
    (hsilent : account.id ∉
      (Operation.executeFxTransfer rates senderId receiverId amount correlationId).silent b) :
    b'.read account.id = b.read account.id := by
  cases he with
  | executeFxTransfer k received poolFrom poolTo b₁ b₂ _ t es exchange received_eq owner_from
      code_from opened_from owner_to code_to opened_to records posted cuts =>
    have hsame : b₂.read account.id = b.read account.id := by
      rw [Books.read_congr opened_to.rest.2.2 opened_to.rest.2.1,
        Books.read_congr opened_from.rest.2.2 opened_from.rest.2.1]
    have hsender : k.sender.id ≠ account.id := fun hid => hnames (.inl (hid.symm.trans k.sender_id))
    have hreceiver : k.receiver.id ≠ account.id := fun hid =>
      hnames (.inr (hid.symm.trans k.receiver_id))
    have hids₂ : (b₂.accounts.map Account.id).Nodup := cuts.rest.1 ▸ hk'.accountIds
    have hfrom : poolFrom.id ≠ account.id := by
      intro hid
      obtain rfl : account = poolFrom := eq_of_key_eq hids₂
        (opened_to.subset (opened_from.subset ha)) (opened_to.subset opened_from.mem) hid.symm
      exact hsilent (Operation.silent_pool h.linked k.sender_mem (.inl k.sender_id) ha owner_from
        code_from (k.sender_id ▸ hsender.symm) (k.receiver_id ▸ hreceiver.symm))
    have hto : poolTo.id ≠ account.id := by
      intro hid
      obtain rfl : account = poolTo := eq_of_key_eq hids₂
        (opened_to.subset (opened_from.subset ha)) opened_to.mem hid.symm
      exact hsilent (Operation.silent_pool h.linked k.receiver_mem (.inr k.receiver_id) ha owner_to
        code_to (k.sender_id ▸ hsender.symm) (k.receiver_id ▸ hreceiver.symm))
    rw [cuts.read_posted b₂ es hk' ((h.cursors.opened opened_from).opened opened_to)
      (h.scaled.congr (opened_to.rest.2.2.trans opened_from.rest.2.2)) rfl rfl, hsame,
      posted.tally_settled (by simp)]
    simp [hsender, hreceiver, hfrom, hto]

/-- A reversal moves where the transaction has. -/
theorem Effect.read_eq_reverse {s s' : Sequences} {transactionId : Id}
    {correlationId : Option String} (h : b.Readable s) (hk' : b'.Keyed s')
    (he : Effect cfg b (.reverse transactionId correlationId) b') {account : Account}
    (ha : account ∈ b.accounts)
    (hsilent : account.id ∉ (Operation.reverse transactionId correlationId).silent b) :
    b'.read account.id = b.read account.id := by
  cases he with
  | reverse t reversal lines es _ found success original records mirrored balanced posted cuts =>
    have hid := (transaction_of_find found).2
    have hstatus : ∀ line ∈ lines, line.status = .success := fun line hline =>
      (exists_of_mirrored mirrored hline).choose_spec.2.status
    have hlines : ∀ e ∈ b.entries.filter (LedgerEntry.isOf t.id .success), LineOk b e.line :=
      fun e he => h.linked.entries e (List.mem_of_mem_filter he)
    have hnone : b.moved t.id account.id = 0 := by
      by_contra hne
      refine hsilent (List.mem_map.2 ⟨account, List.mem_filter.2 ⟨ha, ?_⟩, rfl⟩)
      exact decide_eq_true (hid ▸ hne)
    have hmoved : tally (fun e => e.accountId = account.id) LedgerEntry.amount
        (b.entries.filter (LedgerEntry.isOf t.id .success)) = 0 := hnone
    rw [cuts.read_posted b es hk' h.cursors h.scaled rfl rfl,
      posted.tally_settled hstatus,
      tally_mirrored (fun x _ => x = account.id) mirrored h.linked hlines, hmoved, neg_zero,
      add_zero]

/-- An operation changes no balance but those it names and those it is silent about. -/
theorem Effect.read_eq {op : Operation} {s s' : Sequences} (h : b.Readable s)
    (hk' : b'.Keyed s') (he : Effect cfg b op b') {account : Account}
    (ha : account ∈ b.accounts) (hnames : ¬ op.Names b account.id)
    (hsilent : account.id ∉ op.silent b) : b'.read account.id = b.read account.id := by
  cases op with
  | createAccount ownerId currency =>
    cases he with
    | createAccount a owner code new => rfl
  | initiateDeposit accountId amount provider context correlationId =>
    cases he with
    | initiateDeposit a money t reference account_mem account_id money_eq positive records => rfl
  | settle reference confirmedAmount confirmedCurrency =>
    exact he.read_eq_settle h hk' ha hnames hsilent
  | execute senderId receiverId amount correlationId =>
    cases he with
    | execute k t es _ records posted cuts =>
      have hsender : k.sender.id ≠ account.id := fun hid =>
        hnames (.inl (hid.symm.trans k.sender_id))
      have hreceiver : k.receiver.id ≠ account.id := fun hid =>
        hnames (.inr (hid.symm.trans k.receiver_id))
      rw [cuts.read_posted b es hk' h.cursors h.scaled rfl rfl,
        posted.tally_settled (by simp)]
      simp [hsender, hreceiver]
  | initiate senderId receiverId amount correlationId =>
    cases he with
    | initiate k t e records line transaction =>
      have hstatus : e.status = .pending := congrArg PostingLine.status line
      have hread : ((b.addTransaction t).addEntries [e]).read account.id = b.read account.id + _ :=
        Books.read_addEntries (b := b) h.cursors hk'.seqs
          (fun f hf => (hk'.seqs_lt f (List.mem_append_right _ hf)).1) account.id
      rw [hread]
      simp [hstatus]
  | commit transactionId => exact he.read_eq_commit h hk' hnames
  | fail transactionId =>
    cases he with
    | fail t found pending =>
      exact Books.read_released h.keyed t.id account.id
  | executeFxTransfer rates senderId receiverId amount correlationId =>
    exact he.read_eq_executeFxTransfer h hk' ha hnames hsilent
  | reverse transactionId correlationId => exact he.read_eq_reverse h hk' ha hsilent

/-! ## The code drops what it names -/

/-- No balance of these accounts is cached. -/
def Store.Lacks (s : Store) (ids : List Id) : Prop := ∀ a ∈ ids, s.cache.lookup a = none

theorem keepsCache_invalidate (a : Id) :
    (BalanceCache.invalidate a).All fun r => r.keepsCache = true :=
  Program.All.attempt (all_ask rfl) fun _ => trivial

theorem lacks_invalidate (ids : List Id) (c : Conn) :
    (runOn cfg (Program.forEach ids BalanceCache.invalidate) c).2.store.Lacks ids := by
  induction ids generalizing c with
  | nil => exact fun a ha => by cases ha
  | cons a ids ih =>
    intro a' ha'
    have hrest : (Program.forEach ids BalanceCache.invalidate).All fun r => r.keepsCache = true :=
      Program.All.forEach fun a _ => keepsCache_invalidate a
    rw [Program.forEach, runOn, Program.run_bind]
    show (runOn cfg (Program.forEach ids BalanceCache.invalidate)
      (Conn.exec cfg (.cacheDelete a) c).2).2.store.cache.lookup a' = none
    rcases List.mem_cons.1 ha' with rfl | ha'
    · refine (shrinks_run hrest _).none ?_
      rw [show (Conn.exec cfg (.cacheDelete a') c).2.store.cache =
        c.store.cache.filter fun x => x.1 ≠ a' from rfl, lookup_dropped, if_pos rfl]
    · exact ih _ a' ha'

/-- Every event drops the balances of the accounts it names. -/
theorem publish_lacks (event : DomainEvent) (c : Conn) :
    (runOn cfg (EventBus.publish (subscribers cfg) event) c).2.store.Lacks
      event.payload.accounts := by
  have hlast : ∀ d : Conn, (runOn cfg (Program.forEach [invalidateBalances] fun handler =>
      (handler event).attempt fun _ => .ret ()) d).2.store.Lacks event.payload.accounts := by
    intro d
    have hlacks : (runOn cfg (invalidateBalances event) d).2.store.Lacks event.payload.accounts :=
      lacks_invalidate event.payload.accounts d
    rw [Program.forEach, runOn, Program.run_bind, Program.run_attempt]
    rw [runOn] at hlacks
    cases hrun : Program.run (Conn.exec cfg) (invalidateBalances event) d with
    | mk o d' =>
      rw [hrun] at hlacks
      cases o <;> exact hlacks
  -- a notification comes first, whatever becomes of it
  have hsecond : ∀ handler : DomainEvent → App Unit,
      (runOn cfg (Program.forEach [handler, invalidateBalances] fun handler =>
        (handler event).attempt fun _ => .ret ()) c).2.store.Lacks event.payload.accounts := by
    intro handler
    rw [Program.forEach, runOn, Program.run_bind, Program.run_attempt]
    cases hrun : Program.run (Conn.exec cfg) (handler event) c with
    | mk o d => cases o <;> exact hlast d
  unfold EventBus.publish
  cases heventType : event.eventType with
  | transferCompleted => exact hsecond _
  | transferFailed => exact hsecond _
  | depositCompleted => exact hsecond _
  | fundsReserved => exact hlast c

/-- The operation leaves the books alone, or goes through and drops what it names. -/
def Operation.Purges {α : Type} (op : Operation) (b : Books) (o : Except Exn α) (d : Conn) : Prop :=
  d.store.db.books = b ∨ o.isOk = true ∧ ∀ a, op.Names b a → d.store.cache.lookup a = none

section operations

variable {c : Conn}

/-- An event is published last, so its accounts are dropped. -/
theorem Operation.Told.purges {op : Operation} {trail : List Notification}
    {o : Except Exn Transaction} {d : Conn} (h : op.Told cfg b trail o d) : op.Purges b o d := by
  cases h with
  | raised books => exact .inl books
  | announced noted idle announces =>
    exact .inr ⟨rfl, fun a hn => publish_lacks _ _ a (announces.names a hn)⟩

theorem initiateDeposit_purges {accountId : Id} {amount : Decimal} {provider : String}
    {context : DepositContext} {correlationId : Option String} (ho : c.Open b b) :
    Ends cfg (DepositService.initiate cfg accountId amount provider context correlationId) c
      ((Operation.initiateDeposit accountId amount provider context correlationId).Purges b) := by
  have hexit : ∀ (e : Exn) (d : Conn), d.store.db.books = b →
      (Operation.initiateDeposit accountId amount provider context correlationId).Purges
        (α := Transaction) b (.error e) d := fun _ _ h => .inl h
  unfold DepositService.initiate
  refine ends_quiet (quiet_get _) ho (fun account b₁ c₁ h₁ ho₁ => ?_) hexit
  refine ends_quiet (quiet_ofExcept _) ho₁ (fun money b₂ c₂ h₂ ho₂ => ?_) hexit
  refine ends_quiet (quiet_raiseIf _ _) ho₂ (fun _ b₃ c₃ h₃ ho₃ => ?_) hexit
  refine ends_quiet (quiet_correlationIdOr _) ho₃ (fun corr b₄ c₄ h₄ ho₄ => ?_) hexit
  refine ends_quiet (quiet_mutate _) ho₄ (fun t b₅ c₅ h₅ ho₅ => ?_) hexit
  refine ends_quiet (quiet_ofExcept _) ho₅ (fun provider b₆ c₆ h₆ ho₆ => ?_) hexit
  refine ends_quiet (quiet_ofExcept _) ho₆ (fun reference b₇ c₇ h₇ ho₇ => ?_) hexit
  refine ends_quiet (quiet_mutate _) ho₇ (fun _ b₈ c₈ h₈ ho₈ => ?_) hexit
  exact ends_commit ho₈ fun d _ _ => ends_ret (.inr ⟨rfl, fun a hn => hn.elim⟩)

theorem reverse_purges {transactionId : Id} {correlationId : Option String} (ho : c.Open b b) :
    Ends cfg (ReversalService.reverse cfg transactionId correlationId) c
      ((Operation.reverse transactionId correlationId).Purges b) := by
  have hexit : ∀ (e : Exn) (d : Conn), d.store.db.books = b →
      (Operation.reverse transactionId correlationId).Purges (α := Transaction) b (.error e) d :=
    fun _ _ h => .inl h
  unfold ReversalService.reverse
  refine ends_quiet (quiet_select _) ho (fun found b₁ c₁ h₁ ho₁ => ?_) hexit
  refine ends_quiet (quiet_ofOption _ _) ho₁ (fun t b₂ c₂ h₂ ho₂ => ?_) hexit
  refine ends_quiet (quiet_raiseIf _ _) ho₂ (fun _ b₃ c₃ h₃ ho₃ => ?_) hexit
  refine ends_quiet (quiet_raiseIf _ _) ho₃ (fun _ b₄ c₄ h₄ ho₄ => ?_) hexit
  refine ends_quiet (quiet_select _) ho₄ (fun entries b₅ c₅ h₅ ho₅ => ?_) hexit
  refine ends_quiet (quiet_lockAll _) ho₅ (fun _ b₆ c₆ h₆ ho₆ => ?_) hexit
  refine ends_quiet (quiet_correlationIdOr _) ho₆ (fun corr b₇ c₇ h₇ ho₇ => ?_) hexit
  refine ends_quiet (quiet_mutate _) ho₇ (fun reversal b₈ c₈ h₈ ho₈ => ?_) hexit
  refine ends_quiet (quiet_ofExcept _) ho₈ (fun mirrored b₉ c₉ h₉ ho₉ => ?_) hexit
  refine ends_quiet (quiet_post _ _) ho₉ (fun _ b₁₀ c₁₀ h₁₀ ho₁₀ => ?_) hexit
  refine ends_quiet (quiet_mutate _) ho₁₀ (fun _ b₁₁ c₁₁ h₁₁ ho₁₁ => ?_) hexit
  refine ends_quiet (quiet_snapshotAll _) ho₁₁ (fun _ b₁₂ c₁₂ h₁₂ ho₁₂ => ?_) hexit
  exact ends_commit ho₁₂ fun d _ _ => ends_ret (.inr ⟨rfl, fun a hn => hn.elim⟩)

theorem createAccount_purges {ownerId currency : String} (ho : c.Open b b) :
    Ends cfg (AccountService.create ownerId currency) c
      ((Operation.createAccount ownerId currency).Purges b) := by
  let body : App Account := do
    let account ← ask (.mutate (.insertAccount ownerId currency.toUpper))
    ask .commit
    return account
  -- a refused row has written nothing, and the handler only rolls back
  have hbody : Ends cfg body c fun o d => o.isOk = true ∨
      d.store.db.books = b ∧ d.session.Beside := by
    cases hm : (Mutation.insertAccount ownerId currency.toUpper).exec cfg c.store.seqs c.view with
    | ok x =>
      refine ends_mutate ho hm fun d hd => ends_commit hd fun d' _ _ => ends_ret (.inl rfl)
    | error e =>
      have hx : Conn.exec cfg (.mutate (.insertAccount ownerId currency.toUpper)) c =
          (.error e, c.aborted ((Mutation.insertAccount ownerId currency.toUpper).advance
            c.store.seqs)) := by
        rw [Conn.exec_mutate, ho.alive, hm]
        rfl
      exact ends_ask_error hx (.inr ⟨ho.committed, Session.beside_nil true⟩)
  unfold Ends at hbody ⊢
  unfold AccountService.create
  rw [runOn, Program.run_attempt]
  rw [runOn] at hbody
  cases hrun : Program.run (Conn.exec cfg) body c with
  | mk o d =>
    rw [hrun] at hbody
    cases o with
    | ok account => exact .inr ⟨rfl, fun a hn => hn.elim⟩
    | error e =>
      obtain ⟨hbooks, hbeside⟩ := hbody.resolve_left (by simp [Except.isOk, Except.toBool])
      refine .inl ?_
      rw [← hbooks]
      refine Harmless.books cfg ?_ hbeside
      split
      · have hrollback : Harmless (ask .rollback) := harmless_ask rfl
        exact hrollback.bind fun _ => trivial
      · trivial

end operations

/-- An operation that changes the books has gone through, and has dropped the balances of the
accounts it names. -/
theorem Operation.purges (hk : s.db.books.Keyed s.seqs) (op : Operation) :
    (op.run cfg s).db.books = s.db.books ∨ (op.outcome cfg s).isOk = true ∧
      ∀ a, op.Names s.db.books a → (op.run cfg s).cache.lookup a = none := by
  have ho := Conn.noted_fresh hk
  have hmap : ∀ {o : Except Exn Transaction} {d : Conn}, op.Purges s.db.books o d →
      op.Purges s.db.books (o.map fun _ => ()) d := by
    intro o d h
    refine h.imp_right fun ⟨hok, hlacks⟩ => ⟨?_, hlacks⟩
    cases o <;> exact hok
  have hends : Ends cfg (op.program cfg) ⟨s, Session.fresh⟩ (op.Purges s.db.books) := by
    cases op with
    | createAccount ownerId currency =>
      have hcreate : Ends cfg (AccountService.create ownerId currency) ⟨s, Session.fresh⟩
          ((Operation.createAccount ownerId currency).Purges s.db.books) :=
        createAccount_purges ho.toOpen
      refine ends_map (hcreate.imp_right fun ⟨hok, hlacks⟩ => ⟨?_, hlacks⟩)
      revert hok
      cases (runOn cfg (AccountService.create ownerId currency) ⟨s, Session.fresh⟩).1 <;>
        exact fun hok => hok
    | initiateDeposit => exact ends_map (hmap (initiateDeposit_purges ho.toOpen))
    | settle => exact ends_map (hmap (Told.purges (settle_told ho)))
    | execute => exact ends_map (hmap (Told.purges (execute_told ho)))
    | initiate => exact ends_map (hmap (Told.purges (initiate_told ho)))
    | commit => exact ends_map (hmap (Told.purges (commit_told ho)))
    | fail => exact ends_map (hmap (Told.purges (fail_told ho)))
    | executeFxTransfer => exact ends_map (hmap (Told.purges (executeFxTransfer_told ho)))
    | reverse => exact ends_map (hmap (reverse_purges ho.toOpen))
  exact hends

/-! ## Reads among the operations -/

/-- What is asked of the application: an operation, or a balance. -/
inductive Access where
  | perform (op : Operation)
  | getBalance (number : String)

def Access.run (cfg : Config) : Access → Store → Store
  | .perform op, s => op.run cfg s
  | .getBalance number, s => (runOn cfg (WalletLedger.getBalance number) ⟨s, Session.fresh⟩).2.store

/-- The balance the endpoint shows. -/
def Store.shownBalance (cfg : Config) (s : Store) (number : String) : Except Exn Money :=
  (runOn cfg (getBalance number) ⟨s, Session.fresh⟩).1

/-- The balance the ledger gives. -/
def Store.ledgerBalance (cfg : Config) (s : Store) (number : String) : Except Exn Money :=
  (runOn cfg (AccountService.getByNumber number >>= LedgerService.balance) ⟨s, Session.fresh⟩).1

/-- An operation that goes through moves no money of a cached account without naming it. -/
def Access.Reports (cfg : Config) : Access → Store → Prop
  | .perform op, s => (op.outcome cfg s).isOk = true → s.Lacks (op.silent s.db.books)
  | .getBalance _, _ => True

instance (cfg : Config) : (access : Access) → (s : Store) → Decidable (access.Reports cfg s)
  | .perform op, s =>
      inferInstanceAs (Decidable ((op.outcome cfg s).isOk = true →
        ∀ a ∈ op.silent s.db.books, s.cache.lookup a = none))
  | .getBalance _, _ => isTrue trivial

section reads

variable {number : String} {account : Account}

theorem run_getByNumber
    (h : s.db.books.accounts.find? (fun a => a.number = number) = some account) :
    runOn cfg (AccountService.getByNumber number) ⟨s, Session.fresh⟩ =
      (.ok account, ⟨s, Session.fresh⟩) := by
  unfold AccountService.getByNumber
  show runOn cfg (ofOption _ (s.db.books.accounts.find? fun a => a.number = number)) _ = _
  rw [h]
  rfl

theorem run_getByNumber_missing
    (h : s.db.books.accounts.find? (fun a => a.number = number) = none) :
    runOn cfg (AccountService.getByNumber number) ⟨s, Session.fresh⟩ =
      (.error (.domain (.accountNotFound number)), ⟨s, Session.fresh⟩) := by
  unfold AccountService.getByNumber
  show runOn cfg (ofOption _ (s.db.books.accounts.find? fun a => a.number = number)) _ = _
  rw [h]
  rfl

theorem run_balance_fresh (account : Account) :
    runOn cfg (LedgerService.balance account) ⟨s, Session.fresh⟩ =
      (s.db.books.balance account, ⟨s, Session.fresh⟩) := run_balance rfl account

theorem run_cacheGet (a : Id) (currency : String) (c : Conn) :
    runOn cfg (BalanceCache.get a currency) c =
      ((match c.store.cache.lookup a with
        | none => .ok none
        | some x => (Money.make x currency).map some), c) := by
  unfold BalanceCache.get
  rw [runOn, Program.run_bind]
  have hget : Program.run (Conn.exec cfg)
      ((ask (.cacheGet a)).attempt fun _ => .ret none) c = (.ok (c.store.cache.lookup a), c) := rfl
  rw [hget]
  cases c.store.cache.lookup a with
  | none => rfl
  | some x =>
    dsimp only
    cases Money.make x currency <;> rfl

/-- What the endpoint shows is what the ledger gives, when what is cached is. -/
theorem shownBalance_eq (hcodes : ∀ a ∈ s.db.books.accounts, a.currency.toUpper = a.currency)
    (hcache : ∀ a ∈ s.db.books.accounts, ∀ x, s.cache.lookup a.id = some x →
      ∃ m, s.db.books.balance a = .ok m ∧ m.amount = x) (number : String) :
    s.shownBalance cfg number = s.ledgerBalance cfg number := by
  unfold Store.shownBalance Store.ledgerBalance getBalance
  rw [runOn, runOn, Program.run_bind, Program.run_bind]
  cases hfind : s.db.books.accounts.find? (fun a => a.number = number) with
  | none => rw [← runOn, run_getByNumber_missing hfind]
  | some account =>
    have hmem := List.mem_of_find?_eq_some hfind
    rw [← runOn, run_getByNumber hfind]
    dsimp only
    unfold BalanceQuery.get
    rw [Program.run_bind, ← runOn, run_cacheGet, ← runOn, run_balance_fresh]
    dsimp only
    cases hx : s.cache.lookup account.id with
    | none =>
      dsimp only
      rw [Program.run_bind, ← runOn, run_balance_fresh]
      cases s.db.books.balance account <;> rfl
    | some x =>
      obtain ⟨m, hm, rfl⟩ := hcache account hmem x hx
      -- the stored amount gives the same money again
      have hcur : m.currency = account.currency := by
        rw [Money.currency_of_make hm, hcodes account hmem]
      dsimp only
      rw [← hcur, Money.make_self, hm]
      rfl

/-- A read leaves the books alone, and caches nothing but the ledger's balance. -/
theorem getBalance_store (number : String) :
    let s' := (Access.getBalance number).run cfg s
    s'.db = s.db ∧ s'.seqs = s.seqs ∧ ∀ a x, s'.cache.lookup a = some x →
      s.cache.lookup a = some x ∨ ∃ account ∈ s.db.books.accounts, account.id = a ∧
        ∃ m, s.db.books.balance account = .ok m ∧ m.amount = x := by
  unfold Access.run getBalance
  dsimp only
  rw [runOn, Program.run_bind]
  cases hfind : s.db.books.accounts.find? (fun a => a.number = number) with
  | none =>
    rw [← runOn, run_getByNumber_missing hfind]
    exact ⟨rfl, rfl, fun _ _ h => .inl h⟩
  | some account =>
    rw [← runOn, run_getByNumber hfind]
    dsimp only
    unfold BalanceQuery.get
    rw [Program.run_bind, ← runOn, run_cacheGet]
    dsimp only
    cases s.cache.lookup account.id with
    | some x =>
      dsimp only
      cases Money.make x account.currency <;> exact ⟨rfl, rfl, fun _ _ h => .inl h⟩
    | none =>
      dsimp only
      rw [Program.run_bind, ← runOn, run_balance_fresh]
      cases hm : s.db.books.balance account with
      | error e => exact ⟨rfl, rfl, fun _ _ h => .inl h⟩
      | ok m =>
        refine ⟨rfl, rfl, fun a x h => ?_⟩
        have hlookup : ((account.id, m.amount) ::
            s.cache.filter fun y => y.1 ≠ account.id).lookup a = some x := h
        rw [List.lookup_cons, lookup_dropped] at hlookup
        by_cases ha : a = account.id
        · rw [ha, beq_self_eq_true] at hlookup
          exact .inr ⟨account, List.mem_of_find?_eq_some hfind, ha.symm, m, hm,
            Option.some.inj hlookup⟩
        · have hne : (a == account.id) = false := by simpa using ha
          rw [hne, if_neg ha] at hlookup
          exact .inl hlookup

end reads

/-! ## Every run -/

/-- Every cached balance is the one the ledger gives. -/
structure Store.Coherent (s : Store) : Prop extends s.Sound where
  scaled : s.db.books.Scaled
  cached : ∀ a x, s.cache.lookup a = some x → ∃ account ∈ s.db.books.accounts, account.id = a ∧
    ∃ m, s.db.books.balance account = .ok m ∧ m.amount = x

theorem Store.Coherent.readable (h : s.Coherent) : s.db.books.Readable s.seqs :=
  ⟨h.keyed, h.linked, h.cursors, h.scaled⟩

/-- No operation removes an account. -/
theorem Effect.accounts_subset {op : Operation} {s : Sequences} (hk : b.Keyed s)
    (he : Effect cfg b op b') {account : Account} (ha : account ∈ b.accounts) :
    account ∈ b'.accounts := by
  obtain ⟨as, b₁, hcuts, hstaged⟩ := he.staged hk
  exact hcuts.rest.1 ▸ hstaged.accounts account ha

/-- An operation that reports what it moves keeps the cache coherent. -/
theorem Store.Coherent.run (h : s.Coherent) {op : Operation}
    (hreports : (Access.perform op).Reports cfg s) : (op.run cfg s).Coherent where
  toSound := h.toSound.run op
  scaled := h.scaled.run (op.program cfg)
  cached := by
    intro a x hx
    have hshrinks : Shrinks s.cache (op.run cfg s).cache := shrinks_run op.keepsCache _
    obtain ⟨account, ha, rfl, m, hm, rfl⟩ := h.cached a x (hshrinks a x hx)
    rcases Operation.run_effect h.keyed op with hb | he
    · rw [hb]
      exact ⟨account, ha, rfl, m, hm, rfl⟩
    rcases Operation.purges h.keyed op with hb | ⟨hok, hlacks⟩
    · rw [hb]
      exact ⟨account, ha, rfl, m, hm, rfl⟩
    · refine ⟨account, he.accounts_subset h.keyed ha, rfl, m, ?_, rfl⟩
      have hnames : ¬ op.Names s.db.books account.id := fun hn => by
        rw [hlacks account.id hn] at hx
        cases hx
      have hsilent : account.id ∉ op.silent s.db.books := fun hmem => by
        have hnone : s.cache.lookup account.id = none := hreports hok account.id hmem
        rw [hshrinks.none hnone] at hx
        cases hx
      rw [Books.balance_eq_read, he.read_eq h.readable (h.toSound.run op).keyed ha hnames hsilent]
      exact hm

/-- So does a read. -/
theorem Store.Coherent.read (h : s.Coherent) (number : String) :
    ((Access.getBalance number).run cfg s).Coherent := by
  have hstore : ((Access.getBalance number).run cfg s).db = s.db ∧
      ((Access.getBalance number).run cfg s).seqs = s.seqs ∧ ∀ a x,
      ((Access.getBalance number).run cfg s).cache.lookup a = some x →
        s.cache.lookup a = some x ∨ ∃ account ∈ s.db.books.accounts, account.id = a ∧
          ∃ m, s.db.books.balance account = .ok m ∧ m.amount = x := getBalance_store number
  obtain ⟨hdb, hseqs, hcache⟩ := hstore
  refine ⟨⟨?_, hdb ▸ h.linked, hdb ▸ h.balanced, hdb ▸ h.cursors⟩, hdb ▸ h.scaled, fun a x hx => ?_⟩
  · rw [hdb, hseqs]
    exact h.keyed
  · rw [hdb]
    exact (hcache a x hx).elim (h.cached a x) id

theorem Store.coherent_empty : Store.empty.Coherent :=
  { Store.sound_empty with
    scaled := by simp [Books.Scaled, Store.empty, Database.empty]
    cached := by simp [Store.empty] }

/-- The accesses of the list, in order. -/
def accessAll (cfg : Config) (accesses : List Access) (s : Store) : Store :=
  accesses.foldl (fun s access => access.run cfg s) s

/-- Alice's deposit of 100 is settled, and she looks at her balance. -/
def shownDeposit : List Access :=
  [.perform (.createAccount "alice" "EUR"), .perform (.createAccount "bob" "EUR"),
    .perform (.initiateDeposit 0 100 "stripe" ⟨none, none⟩ (some "c1")),
    .perform (.settle "2" none none), .getBalance "2000000000"]

end WalletLedger
