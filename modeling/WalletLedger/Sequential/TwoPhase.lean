import WalletLedger.Sequential.Reservations

/-!
# One phase and two phases

`execute` writes both entries of a transfer at once; `initiate` reserves the debit, and
`commit` settles it and adds the credit.  The books differ in between, and agree in the end.

* `Books.Alike` — books whose balances read the same and have as many entries to fold into
  their next snapshot; `alike_posted`: the same lines, however they were written.
* `cutFits_iff` — whether a snapshot that is due can be written depends on no more than
  that.
* `two_phase_refines` — the result; `execute_refused` is the one way in which `execute` can
  fail where `initiate` does not.
-/

namespace WalletLedger

variable {cfg : Config} {b b' b₁ b₂ : Books} {s s₁ s₂ : Sequences} {es : List LedgerEntry}

/-! ## Books that read alike -/

/-- Every balance reads the same, and has as many entries to add. -/
structure Books.Alike (b b' : Books) : Prop where
  read : ∀ a, b.read a = b'.read a
  unread : ∀ a, b.unread a = b'.unread a

/-- Entries posted after all the others: what a balance reads then depends on their lines. -/
structure Books.Appends (b b' : Books) (es : List LedgerEntry) : Prop where
  entries : b'.entries = b.entries ++ es
  snapshots : b'.snapshots = b.snapshots

theorem Books.Appends.read (h : b.Appends b' es) (hc : b.CursorsDrawn) (hk : b'.Keyed s) (a : Id) :
    b'.read a = b.read a +
      tally (fun line => line.accountId = a ∧ line.status = .success) PostingLine.amount
        (es.map LedgerEntry.line) := by
  have hadded : b'.read a = (b.addEntries es).read a :=
    Books.read_congr (b := b.addEntries es) h.snapshots h.entries a
  rw [hadded, Books.read_addEntries hc (h.entries ▸ hk.seqs) fun e he =>
    (hk.seqs_lt e (h.entries ▸ List.mem_append_right _ he)).1, tally_map]
  rfl

theorem Books.Appends.unread (h : b.Appends b' es) (hc : b.CursorsDrawn) (hk : b'.Keyed s)
    (a : Id) :
    b'.unread a = b.unread a +
      tally (fun line => line.accountId = a ∧ line.status = .success) (fun _ => 1)
        (es.map LedgerEntry.line) := by
  have hadded : b'.unread a = (b.addEntries es).unread a := by
    unfold Books.unread Books.latestSnapshot
    rw [h.snapshots, h.entries]
    rfl
  rw [hadded, Books.unread_addEntries hc (h.entries ▸ hk.seqs) fun e he =>
    (hk.seqs_lt e (h.entries ▸ List.mem_append_right _ he)).1, tally_map]
  rfl

/-- The same lines, however they were written. -/
theorem alike_posted (hc : b.CursorsDrawn) {es₁ es₂ : List LedgerEntry}
    (h₁ : b.Appends b₁ es₁) (h₂ : b.Appends b₂ es₂) (hk₁ : b₁.Keyed s₁) (hk₂ : b₂.Keyed s₂)
    (hlines : es₁.map LedgerEntry.line = es₂.map LedgerEntry.line) : b₁.Alike b₂ where
  read a := by rw [h₁.read hc hk₁, h₂.read hc hk₂, hlines]
  unread a := by rw [h₁.unread hc hk₁, h₂.unread hc hk₂, hlines]

/-- A snapshot can be written unless it is due and there is nothing to fold into it, or what
the balance reads is too wide. -/
theorem cutFits_iff_unread (a : Id) :
    b.CutFits cfg a ↔ (cfg.snapshotEveryNEntries ≤ b.unread a → b.unread a ≠ 0 ∧
      (Decimal.storeNumeric 28 8 (b.read a)).isSome) := by
  have hnil : b.settledAfter a (LedgerService.snapshotCursor (b.latestSnapshot a)) ≠ [] ↔
      b.unread a ≠ 0 := by
    rw [← b.length_settledAfter, Ne, Ne, List.length_eq_zero_iff]
  unfold Books.CutFits
  dsimp only
  rw [hnil, b.length_settledAfter, sum_settledAfter, ← sumEntries_settled]
  rfl

theorem cutFits_iff (hpos : 1 ≤ cfg.snapshotEveryNEntries) (a : Id) :
    b.CutFits cfg a ↔ (cfg.snapshotEveryNEntries ≤ b.unread a →
      (Decimal.storeNumeric 28 8 (b.read a)).isSome) := by
  rw [cutFits_iff_unread]
  refine forall_congr' fun hdue => and_iff_right ?_
  intro hzero
  rw [hzero] at hdue
  exact absurd (hpos.trans hdue) (by norm_num)

theorem Books.Alike.cutFits (h : b.Alike b') (hpos : 1 ≤ cfg.snapshotEveryNEntries) (a : Id) :
    b.CutFits cfg a ↔ b'.CutFits cfg a := by
  rw [cutFits_iff hpos, cutFits_iff hpos, h.read, h.unread]

/-- A cut on one account leaves the others as they are, and is not due again on its own. -/
theorem Cut.cutFits_iff (hpos : 1 ≤ cfg.snapshotEveryNEntries) {a a' : Id}
    (hcut : Cut cfg a b b') (h : b.Scaled) (hk : b.Keyed s) :
    b'.CutFits cfg a' ↔ a' = a ∨ b.CutFits cfg a' := by
  rw [WalletLedger.cutFits_iff hpos, WalletLedger.cutFits_iff hpos,
    hcut.read (Books.read_mem_grid h hk _)]
  by_cases ha : a' = a
  · subst ha
    have hlt := hcut.unread_lt hpos
    exact ⟨fun _ => .inl rfl, fun _ hdue => absurd hdue (not_le.2 hlt)⟩
  · rw [hcut.unread_of_ne ha]
    simp [ha]

theorem Cut.fits {a : Id} (hcut : Cut cfg a b b') : b.CutFits cfg a := by
  cases hcut with
  | skip hfew => exact fun hdue => absurd hdue (not_le.2 hfew)
  | cut x last haccount hlast hseq hstored =>
    subst haccount
    refine fun _ => ⟨fun hnil => ?_, by rw [hstored]; rfl⟩
    rw [hnil] at hlast
    cases hlast

/-- Two cuts go through just when the snapshots due on the two accounts can be written. -/
theorem Cuts.fits {a a' : Id} (hcuts : Cuts cfg [a, a'] b b')
    (hpos : 1 ≤ cfg.snapshotEveryNEntries) (h : b.Scaled) (hk : b.Keyed s) :
    b.CutFits cfg a ∧ b.CutFits cfg a' := by
  cases hcuts with
  | cons hcut₁ hcuts =>
    cases hcuts with
    | cons hcut₂ _ =>
      refine ⟨hcut₁.fits, ?_⟩
      rcases (hcut₁.cutFits_iff hpos h hk).1 hcut₂.fits with rfl | hfit
      · exact hcut₁.fits
      · exact hfit

theorem CutRefused.not_fits {a a' : Id} (hcut : CutRefused cfg a a' b)
    (hpos : 1 ≤ cfg.snapshotEveryNEntries) (h : b.Scaled) (hk : b.Keyed s) :
    ¬ (b.CutFits cfg a ∧ b.CutFits cfg a') := by
  rintro ⟨hfit, hfit'⟩
  cases hcut with
  | first hunfit => exact hunfit hfit
  | second b₁ hcut₁ hunfit => exact hunfit ((hcut₁.cutFits_iff hpos h hk).2 (.inr hfit'))

/-! ## The two ways of paying -/

namespace TransferService

/-- The steps `execute` and `initiate` share: the accounts, the amount and the funds. -/
def prepare (senderId receiverId : Id) (amount : Decimal) (correlationId : Option String) :
    App (Account × Account × Money × String) := do
  let sender ← AccountService.lock senderId
  let receiver ← AccountService.get receiverId
  let money ← validate sender receiver amount
  ensureFunds sender money
  let correlationId ← correlationIdOr correlationId
  return (sender, receiver, money, correlationId)

/-- What `execute` does then. -/
def payDirectly (cfg : Config) (sender receiver : Account) (money : Money)
    (correlationId : String) : App Transaction := do
  let txn ← newTransaction .transfer .success money sender receiver correlationId
  LedgerService.post
    (((TransactionAggregate.new money.currency).debit sender.id money).credit receiver.id money)
    txn.id
  LedgerService.maybeSnapshot cfg sender
  LedgerService.maybeSnapshot cfg receiver
  ask .commit
  publish cfg .transferCompleted txn money sender receiver

/-- What `initiate` does then. -/
def reserve (cfg : Config) (sender receiver : Account) (money : Money) (correlationId : String) :
    App Transaction := do
  let txn ← newTransaction .transfer .pending money sender receiver correlationId
  ask (.mutate (.insertEntry sender.id txn.id (-|money.amount|) .debit .pending money.currency))
  ask .commit
  publish cfg .fundsReserved txn money sender receiver

variable {senderId receiverId : Id} {amount : Decimal} {correlationId : Option String}

theorem execute_eq :
    execute cfg senderId receiverId amount correlationId =
      prepare senderId receiverId amount correlationId >>= fun x =>
        payDirectly cfg x.1 x.2.1 x.2.2.1 x.2.2.2 := by
  unfold prepare
  simp only [bind_assoc, pure_bind]
  rfl

theorem initiate_eq :
    initiate cfg senderId receiverId amount correlationId =
      prepare senderId receiverId amount correlationId >>= fun x =>
        reserve cfg x.1 x.2.1 x.2.2.1 x.2.2.2 := by
  unfold prepare
  simp only [bind_assoc, pure_bind]
  rfl

theorem quiet_prepare : Quiet (prepare senderId receiverId amount correlationId) :=
  (quiet_lock _).bind fun _ => (quiet_get _).bind fun _ => (quiet_validate _ _ _).bind fun _ =>
    (quiet_ensureFunds _ _).bind fun _ => (quiet_correlationIdOr _).bind fun _ => quiet_pure _

/-- What has been checked when the two ways part. -/
structure Prepared (b : Books) (senderId receiverId : Id) (amount : Decimal)
    (sender receiver : Account) (money : Money) : Prop where
  sender_mem : sender ∈ b.accounts
  sender_id : sender.id = senderId
  receiver_mem : receiver ∈ b.accounts
  receiver_id : receiver.id = receiverId
  currency : sender.currency = receiver.currency
  money_eq : Money.make amount sender.currency = .ok money
  positive : 0 < money.amount

theorem prepare_ok {x : Account × Account × Money × String}
    (h : Returns cfg (prepare senderId receiverId amount correlationId) b x b') :
    b' = b ∧ Prepared b senderId receiverId amount x.1 x.2.1 x.2.2.1 := by
  obtain ⟨sender, u, h₁, k₁⟩ := returns_bind h
  obtain ⟨rfl, hs, hsid⟩ := lock_ok h₁
  obtain ⟨receiver, u, h₂, k₂⟩ := returns_bind k₁
  obtain ⟨rfl, hr, hrid⟩ := get_ok h₂
  obtain ⟨money, u, h₃, k₃⟩ := returns_bind k₂
  obtain ⟨rfl, hcur, hmoney, hpos⟩ := validate_ok h₃
  obtain ⟨_, u, h₄, k₄⟩ := returns_bind k₃
  obtain ⟨rfl, -⟩ := ensureFunds_ok h₄
  obtain ⟨corr, u, h₅, k₅⟩ := returns_bind k₄
  obtain rfl := correlationIdOr_ok h₅
  obtain ⟨rfl, rfl⟩ := returns_ret k₅
  exact ⟨rfl, hs, hsid, hr, hrid, hcur, hmoney, hpos⟩

end TransferService

/-- The row of the transfer. -/
def transferRow (id : Id) (status : TransactionStatus) (senderId receiverId : Id) (money : Money)
    (correlationId : String) : Transaction :=
  ⟨id, .transfer, status, money.amount, money.currency, .transfer senderId receiverId, none,
    some correlationId⟩

/-- The row fits its columns. -/
def RowFits (money : Money) (correlationId : String) : Prop :=
  Decimal.storeNumeric 28 8 money.amount = some money.amount ∧ fitsIn 3 money.currency = true ∧
    (some correlationId).all (fitsIn 36) = true

/-- What paying directly comes to: it goes through, or a snapshot that is due cannot be
written. -/
inductive DirectEnds (cfg : Config) (b : Books) (senderId receiverId : Id) (money : Money)
    (correlationId : String) : Except Exn Transaction → Books → Prop
  | done (id : Id) (es : List LedgerEntry) (b₁ b' : Books) (seqs : Sequences) :
      b₁ = (b.addTransaction (transferRow id .success senderId receiverId money
        correlationId)).addEntries es →
      Posted id [debitLine senderId money, creditLine receiverId money] es → b₁.Keyed seqs →
      Cuts cfg [senderId, receiverId] b₁ b' →
      DirectEnds cfg b senderId receiverId money correlationId
        (.ok (transferRow id .success senderId receiverId money correlationId)) b'
  | uncut (id : Id) (es : List LedgerEntry) (b₁ : Books) (seqs : Sequences) :
      b₁ = (b.addTransaction (transferRow id .success senderId receiverId money
        correlationId)).addEntries es →
      Posted id [debitLine senderId money, creditLine receiverId money] es → b₁.Keyed seqs →
      CutRefused cfg senderId receiverId b₁ →
      DirectEnds cfg b senderId receiverId money correlationId (.error (.service .data)) b

section ends

variable {c : Conn} {senderId receiverId : Id} {amount : Decimal} {sender receiver : Account}
  {money : Money} {correlationId : String}

theorem storeNumeric_credit (h : RowFits money correlationId) (a : Id) :
    Decimal.storeNumeric 28 8 (creditLine a money).amount = some (creditLine a money).amount :=
  Decimal.storeNumeric_abs h.1 (abs_abs _)

theorem payDirectly_ends (hpos : 1 ≤ cfg.snapshotEveryNEntries) (ho : c.Open b b)
    (hp : TransferService.Prepared b senderId receiverId amount sender receiver money)
    (hfits : RowFits money correlationId) :
    Ends cfg (TransferService.payDirectly cfg sender receiver money correlationId) c fun o d =>
      DirectEnds cfg b senderId receiverId money correlationId o d.store.db.books := by
  have hsender := hp.sender_id
  have hreceiver := hp.receiver_id
  subst hsender hreceiver
  refine ends_insertTransaction ho hfits.1 hfits.2.1 hfits.2.2 fun t c₁ ht h₁ => ?_
  have hrow : t = transferRow t.id .success sender.id receiver.id money correlationId := ht
  refine ends_postPair (debitLine sender.id money) (creditLine receiver.id money)
    h₁ rfl rfl rfl (storeNumeric_credit hfits _) hfits.2.1 ⟨sender, hp.sender_mem, rfl⟩
    ⟨receiver, hp.receiver_mem, rfl⟩ ⟨t, List.mem_append_right _ (by simp), rfl⟩
    fun es c₂ hposted h₂ => ?_
  -- from here on only a snapshot can be refused
  have hrefused : ∀ (e : Exn) (d : Conn),
      e = .service .data ∨ e = .indexError ∧ cfg.snapshotEveryNEntries ≤ 0 →
      CutRefused cfg sender.id receiver.id ((b.addTransaction t).addEntries es) →
      d.store.db.books = b →
      DirectEnds cfg b sender.id receiver.id money correlationId (.error e) d.store.db.books := by
    intro e d he hcut hbooks
    obtain rfl | ⟨-, hle⟩ := he
    · rw [hbooks]
      exact .uncut t.id es _ c₂.store.seqs (hrow ▸ rfl) hposted h₂.view_keyed hcut
    · exact absurd (hpos.trans hle) (by norm_num)
  refine ends_maybeSnapshot h₂ hp.sender_mem (fun _ b₁ c₃ hcut₁ h₃ => ?_)
    fun hunfit e d he hbooks => hrefused e d he (.first hunfit) hbooks
  have haccounts : b₁.accounts = b.accounts := hcut₁.rest.1
  refine ends_maybeSnapshot h₃ (haccounts ▸ hp.receiver_mem) (fun _ b₂ c₄ hcut₂ h₄ => ?_)
    fun hunfit e d he hbooks => hrefused e d he (.second b₁ hcut₁ hunfit) hbooks
  have hcuts := Cuts.pair hcut₁ hcut₂
  obtain ⟨ha, htx, -⟩ := hcuts.rest
  refine ends_commit h₄ fun c₅ h₅ hw => ?_
  unfold TransferService.publish
  refine ends_reloadTransaction h₅ (htx ▸ List.mem_append_right _ (by simp)) ?_
  refine ends_reloadAccount h₅ (ha ▸ hp.sender_mem) ?_
  refine ends_reloadAccount h₅ (ha ▸ hp.receiver_mem) ?_
  refine ends_publish h₅ hw _ fun d hd => ends_ret ?_
  rw [hd, hrow]
  exact .done t.id es _ b₂ c₂.store.seqs (hrow ▸ rfl) hposted h₂.view_keyed hcuts

/-- Reserving a transfer that fits its columns goes through. -/
theorem reserve_ends (ho : c.Open b b)
    (hp : TransferService.Prepared b senderId receiverId amount sender receiver money)
    (hfits : RowFits money correlationId) :
    Ends cfg (TransferService.reserve cfg sender receiver money correlationId) c fun o d =>
      ∃ (id : Id) (e : LedgerEntry),
        o = .ok (transferRow id .pending senderId receiverId money correlationId) ∧
        e.line = ⟨senderId, -|money.amount|, .debit, money.currency, .pending⟩ ∧
        e.transactionId = id ∧
        d.store.db.books = (b.addTransaction (transferRow id .pending senderId receiverId money
          correlationId)).addEntries [e] := by
  have hsender := hp.sender_id
  have hreceiver := hp.receiver_id
  subst hsender hreceiver
  refine ends_insertTransaction ho hfits.1 hfits.2.1 hfits.2.2 fun t c₁ ht h₁ => ?_
  have hrow : t = transferRow t.id .pending sender.id receiver.id money correlationId := ht
  have hstore : Decimal.storeNumeric 28 8 (-|money.amount|) = some (-|money.amount|) :=
    Decimal.storeNumeric_abs hfits.1 (by rw [abs_neg, abs_abs])
  refine ends_insertEntry h₁ hstore hfits.2.1 ⟨sender, hp.sender_mem, rfl⟩
    ⟨t, List.mem_append_right _ (by simp), rfl⟩ fun c₂ h₂ => ?_
  refine ends_commit h₂ fun c₃ h₃ hw => ?_
  unfold TransferService.publish
  refine ends_reloadTransaction h₃ (List.mem_append_right _ (by simp)) ?_
  refine ends_reloadAccount h₃ hp.sender_mem (ends_reloadAccount h₃ hp.receiver_mem ?_)
  refine ends_publish h₃ hw _ fun d hd => ends_ret ?_
  exact ⟨t.id, _, congrArg _ hrow, rfl, rfl, by rw [hd, ← hrow]⟩

end ends

/-! ## From one state -/

/-- The transfer is in the books, with its reserved debit. -/
def ReserveEnds (b : Books) (senderId receiverId : Id) (money : Money) (correlationId : String)
    (b' : Books) : Prop :=
  ∃ (id : Id) (e : LedgerEntry),
    e.line = ⟨senderId, -|money.amount|, .debit, money.currency, .pending⟩ ∧
    e.transactionId = id ∧
    b' = (b.addTransaction (transferRow id .pending senderId receiverId money
      correlationId)).addEntries [e]

/-- Both ways fail before they part, or they part with the same transfer. -/
theorem Store.Ordered.parts {s : Store} (h : s.Ordered)
    (hpos : 1 ≤ cfg.snapshotEveryNEntries) (senderId receiverId : Id) (amount : Decimal)
    (correlationId : Option String) :
    let direct := Operation.execute senderId receiverId amount correlationId
    let reserved := Operation.initiate senderId receiverId amount correlationId
    (direct.outcome cfg s).isOk = false ∧ (reserved.outcome cfg s).isOk = false ∨
      ∃ (sender receiver : Account) (money : Money) (correlationId' : String)
        (o : Except Exn Transaction),
        TransferService.Prepared s.db.books senderId receiverId amount sender receiver money ∧
        direct.outcome cfg s = o.map (fun _ => ()) ∧
        DirectEnds cfg s.db.books senderId receiverId money correlationId' o
          (direct.run cfg s).db.books ∧
        reserved.outcome cfg s = .ok () ∧
        ReserveEnds s.db.books senderId receiverId money correlationId'
          (reserved.run cfg s).db.books := by
  intro direct reserved
  have ho : Conn.Open ⟨s, Session.fresh⟩ s.db.books s.db.books := Conn.open_fresh h.keyed
  have hdirect : runOn cfg (direct.program cfg) ⟨s, Session.fresh⟩ = _ := Program.run_map _ _ _ _
  have hreserved : runOn cfg (reserved.program cfg) ⟨s, Session.fresh⟩ = _ :=
    Program.run_map _ _ _ _
  have hprepare : Ends cfg (TransferService.prepare senderId receiverId amount correlationId) _ _ :=
    quiet_run TransferService.quiet_prepare ho
  rw [TransferService.execute_eq, Program.run_bind] at hdirect
  rw [TransferService.initiate_eq, Program.run_bind] at hreserved
  unfold Operation.outcome Operation.run
  rw [← runOn, ← runOn, hdirect, hreserved]
  unfold Ends at hprepare
  rw [runOn] at hprepare
  cases hrun : Program.run (Conn.exec cfg)
      (TransferService.prepare senderId receiverId amount correlationId) ⟨s, Session.fresh⟩ with
  | mk o c =>
    rw [hrun] at hprepare
    cases o with
    | error e => exact .inl ⟨rfl, rfl⟩
    | ok x =>
      obtain ⟨b', hreturns, hc⟩ := hprepare
      obtain ⟨rfl, hp⟩ := TransferService.prepare_ok hreturns
      dsimp only
      by_cases hfits : RowFits x.2.2.1 x.2.2.2
      · right
        have hpay : Ends cfg _ c _ := payDirectly_ends hpos hc hp hfits
        have hreserve : Ends cfg _ c _ := reserve_ends hc hp hfits
        obtain ⟨id, e, ho, hline, hid, hbooks⟩ := hreserve
        refine ⟨x.1, x.2.1, x.2.2.1, x.2.2.2, _, hp, rfl, hpay, ?_, id, e, hline, hid, hbooks⟩
        rw [ho]
        rfl
      · left
        have hrefused : ∀ (status : TransactionStatus) (f : Transaction → App Transaction),
            Ends cfg
              (TransferService.newTransaction .transfer status x.2.2.1 x.1 x.2.1 x.2.2.2 >>= f) c
              fun o _ => o.isOk = false := fun _ _ =>
          ends_insertTransaction_refused hc x.2.2.1.amount_mem_grid hfits fun _ _ => rfl
        have hmap : ∀ o : Except Exn Transaction, o.isOk = false →
            (o.map fun _ => ()).isOk = false := by
          rintro (e | t) ho
          · rfl
          · cases ho
        exact ⟨hmap _ (hrefused .success _), hmap _ (hrefused .pending _)⟩

/-! ## Both ways end alike -/

/-- A transaction has been added, with settled entries on these lines. -/
structure Books.Adds (b : Books) (t : Transaction) (lines : List PostingLine) (b' : Books) :
    Prop where
  transactions : b'.transactions = b.transactions ++ [t]
  entries : ∃ es, Posted t.id lines es ∧ b'.entries = b.entries ++ es

/-- Both add the same successful transaction and the same settled lines, up to identifiers and
numbers, and every balance reads the same. -/
structure EndsAlike (cfg : Config) (s s₁ s₂ : Store) : Prop where
  records : ∃ t id lines, t.status = .success ∧ (∀ line ∈ lines, line.status = .success) ∧
    s.db.books.Adds t lines s₁.db.books ∧ s.db.books.Adds { t with id := id } lines s₂.db.books
  balance : ∀ account, s₂.balance cfg account = s₁.balance cfg account
  availableBalance : ∀ account,
    s₂.availableBalance cfg account = s₁.availableBalance cfg account

/-- The transaction and its lines, before the snapshots are cut. -/
structure Adding (b : Books) (t : Transaction) (lines : List PostingLine) (b' : Books)
    (seqs : Sequences) : Prop where
  adds : ∃ es, Posted t.id lines es ∧ b' = (b.addTransaction t).addEntries es
  keyed : b'.Keyed seqs
  settled : ∀ line ∈ lines, line.status = .success

namespace Adding

variable {t t' : Transaction} {lines : List PostingLine} {seqs seqs' : Sequences}

theorem alike (h : Adding b t lines b₁ seqs) (h' : Adding b t' lines b₂ seqs')
    (hc : b.CursorsDrawn) : b₁.Alike b₂ := by
  obtain ⟨es, hposted, rfl⟩ := h.adds
  obtain ⟨es', hposted', rfl⟩ := h'.adds
  exact alike_posted hc ⟨rfl, rfl⟩ ⟨rfl, rfl⟩ h.keyed h'.keyed
    (hposted.lines.trans hposted'.lines.symm)

theorem scaled (h : Adding b t lines b₁ seqs) (hs : b.Scaled) : b₁.Scaled := by
  obtain ⟨es, -, rfl⟩ := h.adds
  exact hs

theorem cuts {as : List Id} (h : Adding b t lines b₁ seqs) (hcuts : Cuts cfg as b₁ b') :
    b.Adds t lines b' := by
  obtain ⟨es, hposted, rfl⟩ := h.adds
  obtain ⟨-, ht, he⟩ := hcuts.rest
  exact ⟨ht, es, hposted, he⟩

/-- Nothing new is pending. -/
theorem reserved {as : List Id} (h : Adding b t lines b₁ seqs) (hcuts : Cuts cfg as b₁ b')
    (hk : b'.Keyed s') (a : Id) :
    b'.sumEntries a 0 [.pending] (some .debit) = b.reserved a := by
  obtain ⟨es, hposted, he⟩ := (h.cuts hcuts).entries
  have hsettled := hposted.status h.settled
  rw [sumEntries_reserved fun e hmem => (hk.seqs_lt e hmem).1, Books.reserved, he, tally_append,
    tally_eq_zero (l := es) fun e hmem hp => ?_, add_zero]
  · rfl
  · rw [hsettled e hmem] at hp
    cases hp.2.1

/-- The same lines end alike, however they were written. -/
theorem endsAlike {s₀ s₁ s₂ : Store} {p₁ p₂ : Books} {as : List Id} {id : Id}
    (h : Adding s₀.db.books t lines p₁ seqs)
    (h' : Adding s₀.db.books { t with id := id } lines p₂ seqs') (hstatus : t.status = .success)
    (hc : s₀.db.books.CursorsDrawn) (hs : s₀.db.books.Scaled) (hcuts : Cuts cfg as p₁ s₁.db.books)
    (hcuts' : Cuts cfg as p₂ s₂.db.books) : EndsAlike cfg s₀ s₁ s₂ := by
  obtain ⟨ha, ht, he⟩ := hcuts.rest
  obtain ⟨ha', ht', he'⟩ := hcuts'.rest
  have hread : ∀ a, s₂.db.books.read a = s₁.db.books.read a := fun a => by
    rw [hcuts.read (h.scaled hs) h.keyed, hcuts'.read (h'.scaled hs) h'.keyed, (h.alike h' hc).read]
  have hbalance : ∀ account, s₂.db.books.balance account = s₁.db.books.balance account :=
    fun account => by rw [Books.balance_eq_read, Books.balance_eq_read, hread]
  refine ⟨⟨t, id, lines, hstatus, h.settled, h.cuts hcuts, h'.cuts hcuts'⟩, fun account => ?_,
    fun account => ?_⟩
  · rw [Store.balance_eq, Store.balance_eq, hbalance]
  · rw [Store.availableBalance_eq, Store.availableBalance_eq, Books.availableBalance,
      Books.availableBalance, hbalance, h.reserved hcuts (h.keyed.congr ha ht he),
      h'.reserved hcuts' (h'.keyed.congr ha' ht' he')]

end Adding

/-- Settling the debit that was just reserved, and adding the credit. -/
theorem posted_reserved {u : Transaction} {d credit : LedgerEntry}
    (hk : ((b.addTransaction u).addEntries [d]).Keyed s) :
    ((b.addTransaction u).addEntries [d]).posted u d credit =
      (b.addTransaction { u with status := .success }).addEntries
        [{ d with status := .success }, credit] := by
  have htransactions : modify Transaction.id u.id
      (fun t => { t with status := TransactionStatus.success }) (b.transactions ++ [u]) =
      b.transactions ++ [{ u with status := TransactionStatus.success }] := by
    rw [modify_append, modify_of_forall_ne (fresh_of_nodup hk.transactionIds)]
    simp [modify]
  have hentries : modify LedgerEntry.id d.id (fun e => { e with status := EntryStatus.success })
      (b.entries ++ [d]) = b.entries ++ [{ d with status := EntryStatus.success }] := by
    have hnew : ∀ e ∈ b.entries, e.id ≠ d.id := fresh_of_nodup hk.entryIds
    rw [modify_append, modify_of_forall_ne hnew]
    simp [modify]
  unfold Books.posted Books.setTransaction Books.setEntry Books.addEntries Books.addTransaction
    Write.applyBooks
  dsimp only
  rw [htransactions, hentries, List.append_assoc]
  rfl

/-- `commit` within the limit cuts the two snapshots, or is refused because of one of them. -/
theorem Store.Ordered.settles {s : Store} (h : s.Ordered) {u : Transaction} {d : LedgerEntry}
    {senderId receiverId : Id} (hr : Reserved s.db.books u d) (hd : d.accountId = senderId)
    (hdetails : u.details = .transfer senderId receiverId)
    (hle : u.amount ≤ cfg.autoApprovalLimit) :
    let settled := Operation.commit u.id
    ∃ (credit : LedgerEntry) (seqs : Sequences),
      credit.line = ⟨receiverId, u.amount, .credit, u.currency, .success⟩ ∧
      credit.transactionId = u.id ∧ (s.db.books.posted u d credit).Keyed seqs ∧
      (settled.outcome cfg s = .ok () ∧ Cuts cfg [senderId, receiverId]
          (s.db.books.posted u d credit) (settled.run cfg s).db.books ∨
        settled.outcome cfg s ≠ .ok () ∧
          CutRefused cfg senderId receiverId (s.db.books.posted u d credit)) := by
  intro settled
  subst hd
  have ho : Conn.Open ⟨s, Session.fresh⟩ s.db.books s.db.books := Conn.open_fresh h.keyed
  have hends : Ends cfg (settled.program cfg) ⟨s, Session.fresh⟩ fun o c =>
      ∃ (credit : LedgerEntry) (seqs : Sequences),
        credit.line = ⟨receiverId, u.amount, .credit, u.currency, .success⟩ ∧
        credit.transactionId = u.id ∧ (s.db.books.posted u d credit).Keyed seqs ∧
        (o = .ok () ∧ Cuts cfg [d.accountId, receiverId] (s.db.books.posted u d credit)
            c.store.db.books ∨
          o ≠ .ok () ∧ CutRefused cfg d.accountId receiverId (s.db.books.posted u d credit)) := by
    refine ends_map (ends_commitReserved ho h.linked h.fits hr hdetails
      (fun _ hrisk _ => absurd hrisk (not_lt.2 hle)) fun credit seqs _ hline hid hk => ⟨?_, ?_⟩)
    · exact fun _ _ hcuts => ⟨credit, seqs, hline, hid, hk, .inl ⟨rfl, hcuts⟩⟩
    · exact fun _ _ _ hcut _ => ⟨credit, seqs, hline, hid, hk, .inr ⟨by simp [Except.map], hcut⟩⟩
  exact hends

/-- A snapshot falls due with the transfer, on one of the two accounts, and cannot be written. -/
def SnapshotRefused (cfg : Config) (b : Books) (senderId receiverId : Id) (amount : Decimal) :
    Prop :=
  ∃ sender ∈ b.accounts, sender.id = senderId ∧
    ∃ (money : Money) (correlationId : String) (id : Id) (es : List LedgerEntry),
      Money.make amount sender.currency = .ok money ∧ 0 < money.amount ∧
      Posted id [debitLine senderId money, creditLine receiverId money] es ∧
      CutRefused cfg senderId receiverId
        ((b.addTransaction (transferRow id .success senderId receiverId money
          correlationId)).addEntries es)

/-- **Two phases refine one.**  Where `execute` goes through, so does `initiate`; where
`initiate` goes through, `execute` does too or is refused because a snapshot that is due
cannot be written.  Within the risk limit the `commit` that follows goes through just when
`execute` does, and then both end alike. -/
theorem two_phase_refines (cfg : Config) (hpos : 1 ≤ cfg.snapshotEveryNEntries)
    (ops : List Operation) (senderId receiverId : Id) (amount : Decimal)
    (correlationId : Option String) :
    let s := runAll cfg ops Store.empty
    let direct := Operation.execute senderId receiverId amount correlationId
    let reserved := Operation.initiate senderId receiverId amount correlationId
    (direct.outcome cfg s = .ok () → reserved.outcome cfg s = .ok ()) ∧
      (reserved.outcome cfg s = .ok () → direct.outcome cfg s = .ok () ∨
        direct.outcome cfg s = .error (.service .data) ∧
          SnapshotRefused cfg s.db.books senderId receiverId amount) ∧
      (reserved.outcome cfg s = .ok () →
        ∃ u, (reserved.run cfg s).db.books.transactions = s.db.books.transactions ++ [u] ∧
          (u.amount ≤ cfg.autoApprovalLimit →
            let settled := Operation.commit u.id
            (settled.outcome cfg (reserved.run cfg s) = .ok () ↔
              direct.outcome cfg s = .ok ()) ∧
            (direct.outcome cfg s = .ok () →
              EndsAlike cfg s (direct.run cfg s) (settled.run cfg (reserved.run cfg s))))) := by
  intro s direct reserved
  have hrun : Run (Operation.run cfg) anyOp Store.empty s := Run.foldl ops
  have hs := ordered_of_run hrun
  have hscaled : s.db.books.Scaled := Books.scaled_of_run hrun
  rcases hs.parts hpos senderId receiverId amount correlationId with ⟨hd, hr⟩ | hparts
  · have hnot : ∀ {o : Except Exn Unit}, o.isOk = false → o ≠ .ok () := by
      rintro o ho rfl
      cases ho
    exact ⟨fun h => absurd h (hnot hd), fun h => absurd h (hnot hr), fun h => absurd h (hnot hr)⟩
  obtain ⟨sender, receiver, money, corr, o, hp, hdirect, hends, hreserved, id, d, hline, hid,
    hbooks⟩ := hparts
  generalize hend : (direct.run cfg s).db.books = b' at hends
  refine ⟨fun _ => hreserved, fun _ => ?_, fun _ => ?_⟩
  · cases hends with
    | done _ _ _ _ _ _ _ _ _ => exact .inl hdirect
    | uncut i es b₁ seqs hb₁ hposted hk hcut =>
      exact .inr ⟨hdirect, sender, hp.sender_mem, hp.sender_id, money, corr, i, es, hp.money_eq,
        hp.positive, hposted, hb₁ ▸ hcut⟩
  set u := transferRow id .pending senderId receiverId money corr with hu
  refine ⟨u, by rw [hbooks]; rfl, fun hle => ?_⟩
  -- the reserved transfer, and what its commit posts
  have hs₁ : (reserved.run cfg s).Ordered := hs.run _
  have hk₁ : ((s.db.books.addTransaction u).addEntries [d]).Keyed _ := hbooks ▸ hs₁.keyed
  have habs : |money.amount| = money.amount := abs_of_pos hp.positive
  have haccount : d.accountId = senderId := congrArg PostingLine.accountId hline
  have hres : Reserved (reserved.run cfg s).db.books u d := by
    rw [hbooks]
    refine .opened hs.keyed hk₁ rfl hp.positive hid ?_
    rw [hline, haccount, habs]
    rfl
  obtain ⟨credit, seqs, hcline, hcid, hkp, hsettles⟩ :=
    hs₁.settles hres haccount rfl hle
  have hposted : (reserved.run cfg s).db.books.posted u d credit =
      (s.db.books.addTransaction { u with status := .success }).addEntries
        [{ d with status := .success }, credit] := by
    rw [hbooks]
    exact posted_reserved hk₁
  have hadding : Adding s.db.books { u with status := .success }
      [debitLine senderId money, creditLine receiverId money]
      ((reserved.run cfg s).db.books.posted u d credit) seqs := by
    refine ⟨⟨[{ d with status := .success }, credit], ⟨?_, ?_⟩, hposted⟩, hkp, by simp⟩
    · have hdebit : LedgerEntry.line { d with status := .success } = debitLine senderId money :=
        congrArg (fun line : PostingLine => { line with status := .success }) hline
      have hcredit : credit.line = creditLine receiverId money := by
        rw [hcline, creditLine, habs]
        rfl
      rw [List.map_cons, List.map_singleton, hdebit, hcredit]
    · simp only [List.mem_cons, List.not_mem_nil, or_false, forall_eq_or_imp, forall_eq]
      exact ⟨hid, hcid⟩
  intro settled
  cases hends with
  | uncut i es b₁ seqs₁ hb₁ hposted hk hcut =>
    have hadding₁ : Adding s.db.books _ _ b₁ seqs₁ := ⟨⟨es, hposted, hb₁⟩, hk, by simp⟩
    have halike := hadding₁.alike hadding hs.cursors
    have hnot := hcut.not_fits hpos (hadding₁.scaled hscaled) hk
    rw [halike.cutFits hpos, halike.cutFits hpos] at hnot
    have hdirect : direct.outcome cfg s ≠ .ok () := by
      rw [hdirect]
      simp [Except.map]
    rcases hsettles with ⟨-, hcuts⟩ | ⟨hfails, -⟩
    · exact absurd (hcuts.fits hpos (hadding.scaled hscaled) hkp) hnot
    · exact ⟨⟨fun h => absurd h hfails, fun h => absurd h hdirect⟩, fun h => absurd h hdirect⟩
  | done i es b₁ b' seqs₁ hb₁ hposted hk hcuts₁ =>
    have hadding₁ : Adding s.db.books (transferRow i .success senderId receiverId money corr) _ b₁
        seqs₁ := ⟨⟨es, hposted, hb₁⟩, hk, by simp⟩
    have halike := hadding₁.alike hadding hs.cursors
    have hfits := hcuts₁.fits hpos (hadding₁.scaled hscaled) hk
    rw [halike.cutFits hpos, halike.cutFits hpos] at hfits
    rcases hsettles with ⟨hgoes, hcuts⟩ | ⟨-, hcut⟩
    · refine ⟨⟨fun _ => hdirect, fun _ => hgoes⟩, fun _ => ?_⟩
      rw [← hend] at hcuts₁
      exact hadding₁.endsAlike hadding rfl hs.cursors hscaled hcuts₁ hcuts
    · exact absurd hfits (hcut.not_fits hpos (hadding.scaled hscaled) hkp)

/-- Fifty of a hundred, with a snapshot every third entry. -/
theorem fifty_in_two_phases :
    let s := runAll (offlineConfig 3) (lateReversal.take 5) Store.empty
    let direct := (Operation.execute 0 1 50 (some "c2")).run (offlineConfig 3) s
    let reserved := (Operation.initiate 0 1 50 (some "c2")).run (offlineConfig 3) s
    ∃ u, reserved.db.books.transactions = s.db.books.transactions ++ [u] ∧
      EndsAlike (offlineConfig 3) s direct
        ((Operation.commit u.id).run (offlineConfig 3) reserved) := by
  have hwithin : ∀ t ∈ ((Operation.initiate 0 1 50 (some "c2")).run (offlineConfig 3)
      (runAll (offlineConfig 3) (lateReversal.take 5) Store.empty)).db.books.transactions,
      t.amount ≤ (offlineConfig 3).autoApprovalLimit := by decide +kernel
  obtain ⟨-, -, h⟩ := two_phase_refines (offlineConfig 3) (by decide) (lateReversal.take 5) 0 1 50
    (some "c2")
  obtain ⟨u, hu, hends⟩ := h (by decide +kernel)
  exact ⟨u, hu, (hends (hwithin u (by rw [hu]; simp))).2 (by decide +kernel)⟩

/-- Alice holds 180 quintillion: sending 1 directly is refused, reserving it is not. -/
theorem execute_refused :
    let s := runAll (offlineConfig 3) (wideDeposits.take 6) Store.empty
    (Operation.execute 0 1 1 (some "c3")).outcome (offlineConfig 3) s = .error (.service .data) ∧
      (Operation.initiate 0 1 1 (some "c3")).outcome (offlineConfig 3) s = .ok () := by
  decide +kernel

end WalletLedger
