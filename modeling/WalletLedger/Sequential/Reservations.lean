import WalletLedger.Sequential.Audit
import WalletLedger.Sequential.Readings
import WalletLedger.Operations.Execution

/-!
# Reserved funds

A transfer that waits has one entry, the pending debit of its sender, and nothing else is
pending.

* `Progress.reservations` — every operation keeps `Books.Reservations`.
* `Books.Reservations.reserved_eq` — what an account has reserved is what its pending
  transfers send.
* `ends_commitReserved`, `commit_ends`, `fail_ends` — what the two decisions come to.
* `reservations_of_run` — the result, for every run; `commit_refused_within_limit` is a commit
  whose snapshot does not fit.
-/

namespace WalletLedger

variable {cfg : Config} {b b' : Books} {s s' : Sequences} {id : Id}

/-! ## Every operation keeps the reservations -/

theorem Reserved.carry {t : Transaction} {d : LedgerEntry} (h : Reserved b t d)
    (ht : t ∈ b'.transactions) (he : b'.entriesOf t.id = b.entriesOf t.id) : Reserved b' t d :=
  { h with
    transaction := ht
    entries := he.trans h.entries }

/-- No entry belongs to a transaction that is not there. -/
theorem Books.Keyed.entriesOf_eq_nil (hk : b.Keyed s) {id : Id}
    (hid : ∀ t ∈ b.transactions, t.id ≠ id) : b.entriesOf id = [] := by
  refine List.filter_eq_nil_iff.2 fun e he hof => ?_
  obtain ⟨t, ht, hte⟩ := hk.entryTransaction e he
  exact hid t ht (hte.trans (of_decide_eq_true hof))

theorem Progress.reservations (hk : b.Keyed s) (h : b.Reservations) (hp : Progress b b') :
    b'.Reservations := by
  cases hp with
  | idle ht he =>
    refine ⟨fun e hmem hpend => ?_, fun t hmem htype hpend => ?_⟩
    · rw [he] at hmem
      rw [ht]
      exact h.entries e hmem hpend
    · rw [ht] at hmem
      obtain ⟨d, r, hr, hdetails⟩ := h.transfers t hmem htype hpend
      exact ⟨d, r, hr.carry (ht ▸ hmem) (by rw [Books.entriesOf, he, Books.entriesOf]), hdetails⟩
  | opened t es fresh _ _ ht he own opening =>
    refine ⟨fun e hmem hpend => ?_, fun x hmem htype hpend => ?_⟩
    · rw [he] at hmem
      rw [ht]
      rcases List.mem_append.1 hmem with hmem | hmem
      · obtain ⟨x, hx, hx'⟩ := h.entries e hmem hpend
        exact ⟨x, List.mem_append_left _ hx, hx'⟩
      · cases opening with
        | settled _ hes =>
          rw [hes e hmem] at hpend
          cases hpend
        | reserved d r htype hpend' _ _ _ _ =>
          exact ⟨t, by simp, (own e hmem).symm, htype, hpend'⟩
    · rw [ht] at hmem
      rcases List.mem_append.1 hmem with hmem | hmem
      · obtain ⟨d, r, hr, hdetails⟩ := h.transfers x hmem htype hpend
        exact ⟨d, r, hr.carry (ht ▸ List.mem_append_left _ hmem)
          (Books.entriesOf_append he own (fresh x hmem)), hdetails⟩
      · obtain rfl := List.mem_singleton.1 hmem
        cases opening with
        | settled hstatus _ => exact absurd hpend (hstatus htype)
        | reserved d r _ _ hpos hdetails hes hline =>
          refine ⟨d, r, ⟨ht ▸ by simp, hpend, hpos, ?_, hline⟩, hdetails⟩
          have hnil : b.entries.filter (fun e => decide (e.transactionId = x.id)) = [] :=
            hk.entriesOf_eq_nil fresh
          have hown := own d (by simp [hes])
          rw [Books.entriesOf, he, List.filter_append, hnil, hes]
          simp [hown]
  | closed t status outcome selected es mem pending status_final outcome_final selects ht he own
      drained =>
    have hothers : ∀ x ∈ b.transactions, x.id ≠ t.id → x ∈ b'.transactions := fun x hx hne =>
      ht ▸ mem_modify.2 ⟨x, hx, by rw [if_neg hne]⟩
    refine ⟨fun e hmem hpend => ?_, fun y hmem htype hpend => ?_⟩
    · rw [he] at hmem
      rcases List.mem_append.1 hmem with hmem | hmem
      · obtain ⟨x, hx, rfl⟩ := List.mem_map.1 hmem
        split at hpend
        · rcases outcome_final with rfl | rfl <;> cases hpend
        · rename_i hsel
          obtain ⟨u, hu, huid, hu'⟩ := h.entries x hx hpend
          rw [if_neg hsel]
          refine ⟨u, hothers u hu fun hid => ?_, huid, hu'⟩
          exact hsel (drained h x hx (huid.symm.trans hid) hpend)
      · rw [(own e hmem).2] at hpend
        cases hpend
    · rw [ht] at hmem
      obtain ⟨x, hx, rfl⟩ := mem_modify.1 hmem
      by_cases hid : x.id = t.id
      · rw [if_pos hid] at hpend
        rcases status_final with rfl | rfl <;> cases hpend
      · rw [if_neg hid] at htype hpend ⊢
        obtain ⟨d, r, hr, hdetails⟩ := h.transfers x hx htype hpend
        exact ⟨d, r, hr.carry (hothers x hx hid) (Books.entriesOf_closed he
          (fun e he hsel => (selects e he hsel).1) (fun e he => (own e he).1) hid), hdetails⟩
  | reversed t reversal es mem success _ fresh type _ _ ht he own _ =>
    have hothers : ∀ x ∈ b.transactions, x.status = .pending → x ∈ b'.transactions := by
      intro x hx hpend
      have hne : x.id ≠ t.id := fun hid => by
        rw [eq_of_key_eq hk.transactionIds hx mem hid, success] at hpend
        cases hpend
      exact ht ▸ mem_modify.2 ⟨x, List.mem_append_left _ hx, by rw [if_neg hne]⟩
    refine ⟨fun e hmem hpend => ?_, fun y hmem htype hpend => ?_⟩
    · rw [he] at hmem
      rcases List.mem_append.1 hmem with hmem | hmem
      · obtain ⟨x, hx, hxid, hxtype, hxpend⟩ := h.entries e hmem hpend
        exact ⟨x, hothers x hx hxpend, hxid, hxtype, hxpend⟩
      · rw [(own e hmem).2] at hpend
        cases hpend
    · rw [ht] at hmem
      obtain ⟨x, hx, rfl⟩ := mem_modify.1 hmem
      by_cases hid : x.id = t.id
      · rw [if_pos hid] at hpend
        cases hpend
      · rw [if_neg hid] at htype hpend ⊢
        rcases List.mem_append.1 hx with hx | hx
        · obtain ⟨d, r, hr, hdetails⟩ := h.transfers x hx htype hpend
          exact ⟨d, r, hr.carry (hothers x hx hpend)
            (Books.entriesOf_append he (fun e he => (own e he).1) (fresh x hx)), hdetails⟩
        · rw [List.mem_singleton.1 hx, type] at htype
          cases htype

/-! ## What is reserved -/

/-- `details["sender_id"]`. -/
def Details.senderId : Details → Option Id
  | .transfer senderId _ => some senderId
  | .fxTransfer senderId _ _ _ => some senderId
  | _ => none

/-- The transaction is a transfer from the account that waits for its decision. -/
def Transaction.WaitsOn (t : Transaction) (accountId : Id) : Prop :=
  t.type = .transfer ∧ t.status = .pending ∧ t.details.senderId = some accountId

instance (t : Transaction) (accountId : Id) : Decidable (t.WaitsOn accountId) :=
  inferInstanceAs (Decidable (_ ∧ _ ∧ _))

/-- What one transaction has reserved on an account. -/
theorem Books.Reservations.reserved_of (h : b.Reservations) (hk : b.Keyed s) {t : Transaction}
    (ht : t ∈ b.transactions) (a : Id) :
    tally (fun e => (e.accountId = a ∧ e.status = .pending ∧ e.entryType = .debit) ∧
      e.transactionId = t.id) LedgerEntry.amount b.entries =
      if t.WaitsOn a then -t.amount else 0 := by
  have hsplit : tally (fun e => (e.accountId = a ∧ e.status = .pending ∧ e.entryType = .debit) ∧
      e.transactionId = t.id) LedgerEntry.amount b.entries =
      tally (fun e => e.accountId = a ∧ e.status = .pending ∧ e.entryType = .debit)
        LedgerEntry.amount (b.entriesOf t.id) := by
    rw [entriesOf, tally_filter]
    exact tally_congr (fun e _ => by rw [decide_eq_true_iff, and_comm]) fun _ _ _ => rfl
  rw [hsplit]
  by_cases hwait : t.type = .transfer ∧ t.status = .pending
  · obtain ⟨d, r, hr, hdetails⟩ := h.transfers t ht hwait.1 hwait.2
    have hd : d.status = .pending ∧ d.entryType = .debit ∧ d.amount = -t.amount :=
      ⟨congrArg PostingLine.status hr.line, congrArg PostingLine.entryType hr.line,
        congrArg PostingLine.amount hr.line⟩
    rw [hr.entries]
    simp [Transaction.WaitsOn, hwait, hdetails, Details.senderId, hd]
  · rw [if_neg fun hw => hwait ⟨hw.1, hw.2.1⟩]
    refine tally_eq_zero fun e he hp => absurd ?_ hwait
    rw [entriesOf, List.mem_filter, decide_eq_true_eq] at he
    obtain ⟨htype, hr, -⟩ := h.reserved hk he.1 hp.2.1 ht he.2
    exact ⟨htype, hr.pending⟩

/-- The pending debits of an account are what its pending transfers send. -/
theorem Books.Reservations.reserved_eq (h : b.Reservations) (hk : b.Keyed s) (a : Id) :
    b.reserved a = -tally (fun t => t.WaitsOn a) Transaction.amount b.transactions := by
  have hall : b.reserved a =
      (b.transactions.map fun t => tally (fun e => (e.accountId = a ∧ e.status = .pending ∧
        e.entryType = .debit) ∧ e.transactionId = t.id) LedgerEntry.amount b.entries).sum := by
    have hfiber := sum_tally_fiber LedgerEntry.transactionId
      (fun e => e.accountId = a ∧ e.status = .pending ∧ e.entryType = .debit) LedgerEntry.amount
      hk.transactionIds b.entries
    rw [List.map_map] at hfiber
    refine (tally_congr (fun e he => ?_) fun _ _ _ => rfl).trans hfiber.symm
    obtain ⟨t, ht, hte⟩ := hk.entryTransaction e he
    have hmem : e.transactionId ∈ b.transactions.map Transaction.id :=
      hte ▸ List.mem_map_of_mem ht
    simp [hmem]
  have heach : (b.transactions.map fun t => tally (fun e => (e.accountId = a ∧
      e.status = .pending ∧ e.entryType = .debit) ∧ e.transactionId = t.id) LedgerEntry.amount
        b.entries) = b.transactions.map fun t => if t.WaitsOn a then -t.amount else 0 :=
    List.map_congr_left fun t ht => h.reserved_of hk ht a
  rw [hall, heach, sum_map_ite, tally_neg]

/-! ## The decisions -/

/-- The state every run keeps. -/
structure Store.Ordered (s : Store) : Prop extends s.Sound where
  fits : s.db.books.Fits
  reservations : s.db.books.Reservations

/-- The amount of a stored transaction is an amount again. -/
theorem Books.Linked.make_amount (h : b.Linked) (hf : b.Fits) {t : Transaction}
    (ht : t ∈ b.transactions) :
    ∃ m, Money.make t.amount t.currency = .ok m ∧ m.amount = t.amount ∧
      m.currency = t.currency := by
  have hgrid := (h.transactions t ht).2
  have hstore := hf.amounts t ht
  rw [Decimal.storeNumeric_of_mem_grid (Decimal.storeNumeric_mem_grid hstore)] at hstore
  have hwide : |t.amount * 10 ^ 8| < 10 ^ 28 := by
    by_contra hn
    rw [if_neg hn] at hstore
    cases hstore
  have hle : |t.amount * 10 ^ decimalsFor t.currency| ≤ |t.amount * 10 ^ 8| := by
    have hpow : (10 : ℚ) ^ decimalsFor t.currency ≤ 10 ^ 8 :=
      pow_le_pow_right₀ (by norm_num) (decimalsFor_le t.currency)
    rw [abs_mul, abs_mul, abs_pow, abs_pow]
    exact mul_le_mul_of_nonneg_left (by simpa using hpow) (abs_nonneg _)
  have hnarrow : |t.amount * 10 ^ decimalsFor t.currency| < 10 ^ Decimal.precision :=
    lt_of_le_of_lt hle hwide
  have hmake := Money.amount_make hgrid
  rw [if_pos hnarrow] at hmake
  cases hm : Money.make t.amount t.currency with
  | error e =>
    rw [hm] at hmake
    cases hmake
  | ok m => exact ⟨m, rfl, h.amount_of_make ht hm, h.currency_of_make ht hm⟩

/-- The books after `fail`. -/
def Books.released (b : Books) (id : Id) : Books :=
  ((b.entries.filter (LedgerEntry.isOf id .pending)).foldl
    (fun b e => b.setEntry e.id .failed) b).setTransaction id .failed

theorem ends_pendingTransaction {β : Type} {f : Transaction → App β} {c : Conn} {b₀ : Books}
    {Q : Except Exn β → Conn → Prop} (ho : c.Open b₀ b) {t : Transaction}
    (ht : t ∈ b.transactions) (hp : t.status = .pending) (h : Ends cfg (f t) c Q) :
    Ends cfg (TransferService.pendingTransaction t.id >>= f) c Q := by
  unfold TransferService.pendingTransaction
  rw [Program.bind_assoc]
  refine ends_select ho ?_
  rw [Program.bind_assoc]
  refine ends_ofOption (ho.find_transaction ht) ?_
  rw [Program.bind_assoc]
  exact ends_raiseIf (by simp [hp]) h

/-- `fail` on a pending transaction always goes through. -/
theorem fail_ends {c : Conn} (ho : c.Open b b) {t : Transaction} (ht : t ∈ b.transactions)
    (hp : t.status = .pending) :
    Ends cfg (TransferService.fail cfg t.id) c fun o d =>
      o.isOk = true ∧ d.store.db.books = b.released t.id := by
  unfold TransferService.fail
  refine ends_pendingTransaction ho ht hp (ends_select ho ?_)
  have hentries : (Query.entriesOf t.id .pending).eval c.view =
      b.entries.filter (LedgerEntry.isOf t.id .pending) := by
    rw [← ho.sees]
    rfl
  rw [hentries]
  refine ends_setEntries ho (fun e he => ⟨e, List.mem_of_mem_filter he, rfl⟩) fun c₁ h₁ => ?_
  have ht₁ := ht
  rw [← (Books.setEntries_rest (b.entries.filter (LedgerEntry.isOf t.id .pending)) .failed b).2]
    at ht₁
  refine ends_updateTransactionStatus h₁ ht₁ fun c₂ h₂ => ends_commit h₂ fun c₃ h₃ hw => ?_
  refine ends_reloadTransaction (t := { t with status := .failed }) h₃
    (Books.mem_setTransaction ht₁ .failed) ?_
  exact ends_publish h₃ hw _ fun d hd => ⟨rfl, hd⟩

/-- The books once the debit is settled, the receiver credited and the transfer successful. -/
def Books.posted (b : Books) (t : Transaction) (d credit : LedgerEntry) : Books :=
  ((b.setEntry d.id .success).addEntries [credit]).setTransaction t.id .success

/-- A snapshot that is due on one of the two accounts cannot be written. -/
inductive CutRefused (cfg : Config) (a a' : Id) (b : Books) : Prop
  | first : ¬ b.CutFits cfg a → CutRefused cfg a a' b
  | second (b₁ : Books) : Cut cfg a b b₁ → ¬ b₁.CutFits cfg a' → CutRefused cfg a a' b

/-- What `commit` on a transfer that waits comes to: the risk check refuses it, it goes
through, or a snapshot that is due cannot be written. -/
inductive CommitEnds {α : Type} (cfg : Config) (b : Books) (t : Transaction) (d : LedgerEntry)
    (receiverId : Id) : Except Exn α → Books → Prop
  | risky : cfg.autoApprovalLimit < t.amount →
      CommitEnds cfg b t d receiverId (.error (.domain (.riskRejected t.amount t.currency))) b
  | done (u : α) (credit : LedgerEntry) (b' : Books) :
      t.amount ≤ cfg.autoApprovalLimit →
      credit.line = ⟨receiverId, t.amount, .credit, t.currency, .success⟩ →
      credit.transactionId = t.id →
      Cuts cfg [d.accountId, receiverId] (b.posted t d credit) b' →
      CommitEnds cfg b t d receiverId (.ok u) b'
  | uncut (e : Exn) (credit : LedgerEntry) : t.amount ≤ cfg.autoApprovalLimit →
      credit.line = ⟨receiverId, t.amount, .credit, t.currency, .success⟩ →
      credit.transactionId = t.id →
      e = .service .data ∨ e = .indexError ∧ cfg.snapshotEveryNEntries ≤ 0 →
      CutRefused cfg d.accountId receiverId (b.posted t d credit) →
      CommitEnds cfg b t d receiverId (.error e) b

/-- `commit` on a transfer that waits: the risk check refuses it, or the books are posted and
the two snapshots are cut or refused. -/
theorem ends_commitReserved {Q : Except Exn Transaction → Conn → Prop} {c : Conn} (ho : c.Open b b)
    (hl : b.Linked) (hf : b.Fits) {t : Transaction} {d : LedgerEntry} {r : Id}
    (hr : Reserved b t d) (hdetails : t.details = .transfer d.accountId r)
    (hrisky : ∀ d' : Conn, cfg.autoApprovalLimit < t.amount → d'.store.db.books = b →
      Q (.error (.domain (.riskRejected t.amount t.currency))) d')
    (hposted : ∀ (credit : LedgerEntry) (seqs : Sequences), t.amount ≤ cfg.autoApprovalLimit →
      credit.line = ⟨r, t.amount, .credit, t.currency, .success⟩ → credit.transactionId = t.id →
      (b.posted t d credit).Keyed seqs →
      (∀ (u : Transaction) (d' : Conn),
        Cuts cfg [d.accountId, r] (b.posted t d credit) d'.store.db.books → Q (.ok u) d') ∧
      ∀ (e : Exn) (d' : Conn),
        e = .service .data ∨ e = .indexError ∧ cfg.snapshotEveryNEntries ≤ 0 →
        CutRefused cfg d.accountId r (b.posted t d credit) → d'.store.db.books = b →
        Q (.error e) d') :
    Ends cfg (TransferService.commit cfg t.id) c Q := by
  have ht := hr.transaction
  have hk := ho.view_keyed
  obtain ⟨m, hm, hamount, hcur⟩ := hl.make_amount hf ht
  unfold TransferService.commit
  refine ends_pendingTransaction ho ht hr.pending (ends_ofExcept hm ?_)
  by_cases hrisk : cfg.autoApprovalLimit < t.amount
  · refine ends_raisesIf (by rwa [hamount]) ?_
    rw [hamount, hcur]
    exact hrisky c hrisk ho.committed
  refine ends_raiseIf (by rwa [hamount]) (ends_select ho ?_)
  -- the reserved debit is the only candidate
  have hfound : (Query.entryOf t.id .debit .pending).eval c.view = some d := by
    show c.view.books.entries.find? _ = _
    rw [ho.sees]
    have htype : d.entryType = .debit := congrArg PostingLine.entryType hr.line
    cases hfind : b.entries.find?
        (fun e => e.isOf t.id .pending ∧ e.entryType = .debit) with
    | none =>
      have hnone := List.find?_eq_none.1 hfind d hr.mem
      simp [(hr.isOf d hr.mem).2 rfl, htype] at hnone
    | some e =>
      have hsome := List.find?_some hfind
      rw [decide_eq_true_eq] at hsome
      rw [(hr.isOf e (List.mem_of_find?_eq_some hfind)).1 hsome.1]
  rw [hfound]
  refine ends_ofOption rfl ?_
  obtain ⟨sender, hsender, hsid⟩ := hk.entryAccount d hr.mem
  obtain ⟨receiver, hreceiver, rfl, -⟩ := hl.parties t ht hr.pending r
    (.inr (by rw [hdetails]; rfl))
  have hreceiverId : t.details.receiverId = .ok receiver.id := by rw [hdetails]; rfl
  rw [← hsid]
  refine ends_lock ho hsender (ends_ofExcept hreceiverId ?_)
  refine ends_get ho hreceiver ?_
  have habs : |m.amount| = t.amount := by rw [hamount, abs_of_pos hr.positive]
  rw [habs, hcur]
  refine ends_updateEntryStatus ho ⟨d, hr.mem, rfl⟩ fun c₁ h₁ => ?_
  refine ends_insertEntry h₁ (hf.amounts t ht) (hf.currencies t ht) ⟨receiver, hreceiver, rfl⟩
    ⟨t, ht, rfl⟩ fun c₂ h₂ => ?_
  set credit : LedgerEntry := ⟨c₁.store.seqs.nextId, c₁.store.seqs.nextSeq, receiver.id, t.id,
    t.amount, .credit, .success, t.currency⟩
  have hbalanced : LedgerService.assertBalanced
      [⟨sender.id, d.amount, d.entryType, d.currency, .success⟩,
        ⟨receiver.id, t.amount, .credit, t.currency, .success⟩] = .ok () :=
    TransactionAggregate.assertBalanced_pair (LedgerService.rebuild_lines _)
      (show d.currency = t.currency from congrArg PostingLine.currency hr.line)
      (show d.amount = -t.amount from congrArg PostingLine.amount hr.line)
      (Decimal.roundContext_of_fits (hk.entryAmounts d hr.mem) (hk.entryWidths d hr.mem))
  refine ends_ofExcept hbalanced (ends_updateTransactionStatus h₂ ht fun c₃ h₃ => ?_)
  -- from here on only a snapshot can be refused
  obtain ⟨hdone, hrefused⟩ := hposted credit c₃.store.seqs (not_lt.1 hrisk) rfl rfl h₃.view_keyed
  refine ends_maybeSnapshot h₃ hsender (fun _ b₁ c₄ hcut₁ h₄ => ?_) fun hunfit e d' he hbooks =>
    hrefused e d' he (.first (by rwa [hsid] at hunfit)) hbooks
  obtain ⟨ha₁, htx₁, -⟩ := hcut₁.rest
  refine ends_maybeSnapshot h₄ (ha₁.symm ▸ hreceiver) (fun _ b₂ c₅ hcut₂ h₅ => ?_)
    fun hunfit e d' he hbooks =>
      hrefused e d' he (.second b₁ (hsid ▸ hcut₁) hunfit) hbooks
  obtain ⟨ha₂, htx₂, -⟩ := hcut₂.rest
  have haccounts : b₂.accounts = b.accounts := ha₂.trans ha₁
  have hrow : { t with status := .success } ∈ b₂.transactions := by
    rw [htx₂, htx₁]
    exact Books.mem_setTransaction (b := (b.setEntry d.id .success).addEntries [credit]) ht .success
  refine ends_commit h₅ fun c₆ h₆ hw => ?_
  unfold TransferService.publish
  refine ends_reloadTransaction (t := { t with status := .success }) h₆ hrow ?_
  refine ends_reloadAccount h₆ (haccounts.symm ▸ hsender) ?_
  refine ends_reloadAccount h₆ (haccounts.symm ▸ hreceiver) ?_
  refine ends_publish h₆ hw _ fun d' hd' => ends_ret ?_
  have hcuts : Cuts cfg [d.accountId, receiver.id] (b.posted t d credit) b₂ :=
    .pair (hsid ▸ hcut₁) hcut₂
  exact hdone _ d' (hd' ▸ hcuts)

/-- `commit` on a transfer that waits. -/
theorem commit_ends {c : Conn} (ho : c.Open b b) (hl : b.Linked) (hf : b.Fits) {t : Transaction}
    {d : LedgerEntry} {r : Id} (hr : Reserved b t d)
    (hdetails : t.details = .transfer d.accountId r) :
    Ends cfg (TransferService.commit cfg t.id) c fun o d' =>
      CommitEnds cfg b t d r o d'.store.db.books := by
  refine ends_commitReserved ho hl hf hr hdetails (fun d' hrisk hbooks => ?_)
    fun credit _ hle hline hid _ => ⟨fun u d' hcuts => ?_, fun e d' he hcut hbooks => ?_⟩
  · rw [hbooks]
    exact .risky hrisk
  · exact .done u credit _ hle hline hid hcuts
  · rw [hbooks]
    exact .uncut e credit hle hline hid he hcut

theorem CommitEnds.map {α β : Type} {t : Transaction} {d : LedgerEntry} {r : Id}
    {o : Except Exn α} (h : CommitEnds cfg b t d r o b') (g : α → β) :
    CommitEnds cfg b t d r (o.map g) b' := by
  cases h with
  | risky hrisk => exact .risky hrisk
  | done u credit _ hle hline hid hcuts => exact .done (g u) credit b' hle hline hid hcuts
  | uncut e credit hle hline hid he hcut => exact .uncut e credit hle hline hid he hcut

/-! ## Releasing the funds -/

theorem Books.snapshots_setEntries (es : List LedgerEntry) (status : EntryStatus) (b : Books) :
    (es.foldl (fun b e => b.setEntry e.id status) b).snapshots = b.snapshots := by
  induction es generalizing b with
  | nil => rfl
  | cons e es ih => exact ih _

/-- Releasing the funds changes nothing that is settled. -/
theorem Books.read_released (hk : b.Keyed s) (id a : Id) : (b.released id).read a = b.read a := by
  have hlatest : (b.released id).latestSnapshot a = b.latestSnapshot a := by
    unfold latestSnapshot
    have hsnapshots : (b.released id).snapshots = b.snapshots := snapshots_setEntries _ _ b
    rw [hsnapshots]
  rw [read, read, hlatest]
  congr 1
  have hentries : (b.released id).entries = _ := failed_entries hk id
  rw [sumEntries, hentries, tally_map]
  refine tally_congr (fun e _ => ?_) fun e _ _ => ?_
  · by_cases hof : e.isOf id .pending = true
    · have hpend : e.status = .pending := (of_decide_eq_true hof).2
      simp [hof, hpend]
    · simp [hof]
  · split <;> rfl

theorem Books.balance_released (hk : b.Keyed s) (id : Id) (account : Account) :
    (b.released id).balance account = b.balance account := by
  rw [balance_eq_read, read_released hk, balance_eq_read]

/-- A transaction that fails waits on no account any more. -/
theorem Books.Reservations.reserved_released (h : b.Reservations)
    (h' : (b.released id).Reservations)
    (hk : b.Keyed s) (hk' : (b.released id).Keyed s') {t : Transaction} (ht : t ∈ b.transactions)
    (hid : t.id = id) (a : Id) :
    (b.released id).reserved a = b.reserved a + if t.WaitsOn a then t.amount else 0 := by
  have hrows : (b.released id).transactions =
      modify Transaction.id id (fun x => { x with status := .failed }) b.transactions := by
    show modify _ _ _ _ = _
    rw [(setEntries_rest _ _ b).2]
  have htally := tally_modify (p := fun t : Transaction => t.WaitsOn a) (f := Transaction.amount)
    (g := fun x => { x with status := TransactionStatus.failed }) hk.transactionIds ht hid
  have hnot : ¬ ({ t with status := TransactionStatus.failed } : Transaction).WaitsOn a := by
    rintro ⟨-, hp, -⟩
    cases hp
  rw [if_neg hnot, add_zero] at htally
  rw [h'.reserved_eq hk', h.reserved_eq hk, hrows, ← htally, neg_add, neg_add_cancel_right]

/-- What is reserved is not positive. -/
theorem Books.Reservations.reserved_nonpos (h : b.Reservations) (hk : b.Keyed s) (a : Id) :
    b.reserved a ≤ 0 := by
  have hnonneg : tally (fun _ => False) Transaction.amount b.transactions ≤
      tally (fun t => t.WaitsOn a) Transaction.amount b.transactions := by
    refine tally_le_tally fun t ht => ?_
    rw [if_neg not_false]
    split
    · rename_i hw
      obtain ⟨d, r, hr, -⟩ := h.transfers t ht hw.1 hw.2.1
      exact hr.positive.le
    · exact le_rfl
  rw [tally_eq_zero fun _ _ hf => hf.elim] at hnonneg
  rw [h.reserved_eq hk]
  linarith

/-- An amount between two that are kept is kept. -/
theorem Money.make_between {x y z : Decimal} {c : String} {m n : Money}
    (hy : y ∈ Decimal.grid (decimalsFor c)) (hm : Money.make x c = .ok m)
    (hx : x ∈ Decimal.grid (decimalsFor c)) (hn : Money.make z c = .ok n)
    (hz : z ∈ Decimal.grid (decimalsFor c)) (hxy : x ≤ y) (hyz : y ≤ z) :
    ∃ o, Money.make y c = .ok o ∧ o.amount = y := by
  have hwidth : ∀ {w : Decimal} {k : Money}, w ∈ Decimal.grid (decimalsFor c) →
      Money.make w c = .ok k → |w * 10 ^ decimalsFor c| < 10 ^ Decimal.precision := by
    intro w k hw hk
    have hmake := Money.amount_make hw
    rw [hk] at hmake
    by_contra hn
    rw [if_neg hn] at hmake
    cases hmake
  have hpow : (0 : ℚ) < 10 ^ decimalsFor c := by positivity
  have hlow := abs_lt.1 (hwidth hx hm)
  have hhigh := abs_lt.1 (hwidth hz hn)
  have hmid : |y * 10 ^ decimalsFor c| < 10 ^ Decimal.precision :=
    abs_lt.2 ⟨lt_of_lt_of_le hlow.1 (mul_le_mul_of_nonneg_right hxy hpow.le),
      lt_of_le_of_lt (mul_le_mul_of_nonneg_right hyz hpow.le) hhigh.2⟩
  have hmake := Money.amount_make hy
  rw [if_pos hmid] at hmake
  cases ho : Money.make y c with
  | error e =>
    rw [ho] at hmake
    cases hmake
  | ok o => exact ⟨o, rfl, Money.amount_of_make hy ho⟩

/-- Releasing the funds of a transfer raises the available balance of its sender by exactly
its amount. -/
theorem Books.Reservations.availableBalance_released (h : b.Reservations)
    (h' : (b.released id).Reservations) (hk : b.Keyed s) (hk' : (b.released id).Keyed s')
    (hl : b.Linked) (hl' : (b.released id).Linked) {t : Transaction} (ht : t ∈ b.transactions)
    (hid : t.id = id) (hpos : 0 ≤ t.amount) {account : Account} (ha : account ∈ b.accounts)
    {m : Money} (hm : b.availableBalance account = .ok m) :
    ∃ m', (b.released id).availableBalance account = .ok m' ∧
      m'.amount = m.amount + if t.WaitsOn account.id then t.amount else 0 := by
  have ha' : account ∈ (b.released id).accounts := by
    have haccounts : (b.released id).accounts = b.accounts := (setEntries_rest _ _ b).1
    rwa [haccounts]
  unfold availableBalance at hm ⊢
  rw [balance_released hk]
  cases hsettled : b.balance account with
  | error e =>
    rw [hsettled] at hm
    cases hm
  | ok settled =>
    rw [hsettled] at hm
    rw [sumEntries_reserved fun e he => (hk.seqs_lt e he).1] at hm
    rw [sumEntries_reserved fun e he => (hk'.seqs_lt e he).1]
    have hm : Money.make (settled.amount + b.reserved account.id) account.currency = .ok m := hm
    show ∃ m', Money.make (settled.amount + (b.released id).reserved account.id)
      account.currency = .ok m' ∧ _
    have hchange := h.reserved_released h' hk hk' ht hid account.id
    have hnonpos := h'.reserved_nonpos hk' account.id
    -- everything is at the precision of the currency
    have hgrid : settled.amount ∈ Decimal.grid (decimalsFor account.currency) :=
      Money.amount_mem_grid_of_make hsettled
    have hsame : Money.make settled.amount account.currency = .ok settled := by
      have hcur := Money.currency_of_make hsettled
      rw [hl.codes account ha] at hcur
      rw [← hcur]
      exact Money.make_self settled
    have hreserved : b.reserved account.id ∈ Decimal.grid (decimalsFor account.currency) :=
      hl.mem_grid hk ha _ fun _ he => he.1
    have hreserved' : (b.released id).reserved account.id ∈
        Decimal.grid (decimalsFor account.currency) := hl'.mem_grid hk' ha' _ fun _ he => he.1
    have hle : b.reserved account.id ≤ (b.released id).reserved account.id := by
      rw [hchange]
      split
      · linarith
      · linarith
    obtain ⟨o, ho, hamount⟩ := Money.make_between ((Decimal.grid _).add_mem hgrid hreserved') hm
      ((Decimal.grid _).add_mem hgrid hreserved) hsame hgrid (by linarith) (by linarith)
    refine ⟨o, ho, ?_⟩
    rw [hamount, hchange, Money.amount_of_make ((Decimal.grid _).add_mem hgrid hreserved) hm,
      add_assoc]

/-! ## Every run -/

theorem Store.ordered_empty : Store.empty.Ordered :=
  { Store.sound_empty with
    fits := ⟨by simp [Store.empty, Database.empty], by simp [Store.empty, Database.empty]⟩
    reservations := ⟨by simp [Store.empty, Database.empty], by simp [Store.empty, Database.empty]⟩ }

/-- Every operation keeps the funds in order. -/
theorem Store.Ordered.run {s : Store} (h : s.Ordered) (op : Operation) :
    (op.run cfg s).Ordered where
  toSound := h.toSound.run op
  fits := Conn.run_invariant (I := Books.Fits) (fun _ _ _ _ _ hf hm => hf.exec hm) (op.program cfg)
    (c := ⟨s, Session.fresh⟩) h.fits h.fits
  reservations := op.run_keeps (I := Books.Reservations) h.keyed h.reservations fun he =>
    (he.progress h.keyed (h.toSound.run op).keyed h.linked).reservations h.keyed h.reservations

theorem ordered_of_run {C : Operation → Store → Prop} {s : Store}
    (h : Run (Operation.run cfg) C Store.empty s) : s.Ordered :=
  h.invariant Store.ordered_empty fun op _ hs _ => hs.run op

/-- **Reservations.**  After any run, the pending entries are the reserved debits of the
pending transfers, one each, and an account has reserved what its pending transfers send.
On such a transfer, `commit` is refused only by the risk check, or because a snapshot that
is due cannot be written; `fail` goes through, gives the sender exactly the amount back and
changes no settled balance. -/
theorem reservations_of_run (cfg : Config) (ops : List Operation) :
    let s := runAll cfg ops Store.empty
    let b := s.db.books
    b.Reservations ∧
      (∀ a, b.reserved a = -tally (fun t => t.WaitsOn a) Transaction.amount b.transactions) ∧
      ∀ t ∈ b.transactions, t.type = .transfer → t.status = .pending →
        ∃ d receiverId, Reserved b t d ∧ t.details = .transfer d.accountId receiverId ∧
          CommitEnds cfg b t d receiverId ((Operation.commit t.id).outcome cfg s)
            ((Operation.commit t.id).run cfg s).db.books ∧
          (Operation.fail t.id).outcome cfg s = .ok () ∧
          ∀ account ∈ b.accounts,
            ((Operation.fail t.id).run cfg s).balance cfg account = s.balance cfg account ∧
            ∀ m, s.availableBalance cfg account = .ok m →
              ∃ m', ((Operation.fail t.id).run cfg s).availableBalance cfg account = .ok m' ∧
                m'.amount = m.amount + if account.id = d.accountId then t.amount else 0 := by
  intro s b
  have hrun : Run (Operation.run cfg) anyOp Store.empty s := Run.foldl ops
  have hs := ordered_of_run hrun
  refine ⟨hs.reservations, hs.reservations.reserved_eq hs.keyed, fun t ht htype hp => ?_⟩
  obtain ⟨d, r, hr, hdetails⟩ := hs.reservations.transfers t ht htype hp
  have hopen : Conn.Open ⟨s, Session.fresh⟩ b b := Conn.open_fresh hs.keyed
  have hcommit : Ends cfg ((Operation.commit t.id).program cfg) ⟨s, Session.fresh⟩ fun o c =>
      CommitEnds cfg b t d r o c.store.db.books := by
    refine ends_map ?_
    have hends : Ends cfg (TransferService.commit cfg t.id) ⟨s, Session.fresh⟩ fun o c =>
        CommitEnds cfg b t d r o c.store.db.books :=
      commit_ends hopen hs.linked hs.fits hr hdetails
    exact CommitEnds.map hends _
  have hfail : Ends cfg ((Operation.fail t.id).program cfg) ⟨s, Session.fresh⟩ fun o c =>
      o = .ok () ∧ c.store.db.books = b.released t.id := by
    refine ends_map ?_
    have hends : Ends cfg (TransferService.fail cfg t.id) ⟨s, Session.fresh⟩ fun o c =>
        o.isOk = true ∧ c.store.db.books = b.released t.id := fail_ends hopen ht hp
    refine ⟨?_, hends.2⟩
    cases ho : (runOn cfg (TransferService.fail cfg t.id) ⟨s, Session.fresh⟩).1 with
    | error e =>
      have hok := hends.1
      rw [ho] at hok
      cases hok
    | ok u => rfl
  refine ⟨d, r, hr, hdetails, hcommit, hfail.1, fun account ha => ?_⟩
  have hbooks : ((Operation.fail t.id).run cfg s).db.books = b.released t.id := hfail.2
  have hs' : ((Operation.fail t.id).run cfg s).Ordered := hs.run _
  have hwaits : t.WaitsOn account.id ↔ account.id = d.accountId := by
    simp [Transaction.WaitsOn, htype, hp, hdetails, Details.senderId, eq_comm]
  simp only [Store.balance_eq, Store.availableBalance_eq, ← hwaits, hbooks]
  refine ⟨Books.balance_released hs.keyed t.id account, fun m hm => ?_⟩
  exact hs.reservations.availableBalance_released (hbooks ▸ hs'.reservations) hs.keyed
    (hbooks ▸ hs'.keyed) hs.linked (hbooks ▸ hs'.linked) ht rfl hr.positive.le ha hm

/-- Alice holds 180 quintillion, of which she is about to send 1. -/
def wideDeposits : List Operation :=
  [.createAccount "alice" "EUR", .createAccount "bob" "EUR",
    .initiateDeposit 0 (9 * 10 ^ 19) "stripe" ⟨none, none⟩ (some "c1"), .settle "2" none none,
    .initiateDeposit 0 (9 * 10 ^ 19) "stripe" ⟨none, none⟩ (some "c2"), .settle "6" none none,
    .initiate 0 1 1 (some "c3")]

/-- Her snapshot falls due at the commit and does not fit its column. -/
theorem commit_refused_within_limit :
    let s := runAll (offlineConfig 3) wideDeposits Store.empty
    ∃ t ∈ s.db.books.transactions, t.id = 9 ∧ t.type = .transfer ∧ t.status = .pending ∧
      t.amount ≤ (offlineConfig 3).autoApprovalLimit ∧
      (Operation.commit t.id).outcome (offlineConfig 3) s = .error (.service .data) := by
  decide +kernel

end WalletLedger
