import WalletLedger.Sequential.TwoPhase

/-!
# When a settlement goes through

Once the row of a deposit has been found and its confirmation compared, only the clearing
account and the snapshots can still be refused.

* `DepositService.settleFound_eq` — the checks, then the posting.
* `Books.CanSettle` — the posting can be written: the clearing account is there or can be
  opened, and the snapshots that fall due fit their column.
* `Books.SettledFor` — what a settlement makes of the books: its deposit has succeeded and
  its account is credited, and nothing else.
* `credit_ends` — the posting goes through exactly when it can be written.
-/

namespace WalletLedger

variable {cfg : Config} {b b' b₁ : Books} {s s' : Sequences}

/-! ## The checks and the posting -/

namespace DepositService

/-- What is checked before anything is locked or written. -/
def cleared (missing : Exn) (check : Transaction → Money → Except Exn Unit) :
    Option Transaction → Except Exn (Transaction × Money × Id)
  | none => .error missing
  | some txn =>
      if txn.status ≠ .pending then
        .error (.domain (.invalidTransactionState txn.status "dépôt déjà traité"))
      else do
        let authorized ← Money.make txn.amount txn.currency
        check txn authorized
        let accountId ← txn.details.accountId
        return (txn, authorized, accountId)

/-- What is written once the two accounts are there. -/
def record (cfg : Config) (txn : Transaction) (authorized : Money) (account clearing : Account) :
    App Transaction := do
  let transaction :=
    ((TransactionAggregate.new authorized.currency).debit clearing.id authorized).credit
      account.id authorized
  LedgerService.post transaction txn.id
  ask (.mutate (.updateTransactionStatus txn.id .success))
  LedgerService.maybeSnapshot cfg account
  LedgerService.maybeSnapshot cfg clearing
  ask .commit
  let txn ← reloadTransaction txn.id
  let account ← reloadAccount account.id
  EventBus.publish (subscribers cfg)
    { eventType := .depositCompleted
      payload :=
        { transactionId := txn.id
          accountId := some account.id
          amount := some authorized.text
          currency := some authorized.currency }
      correlationId := txn.correlationId }
  return txn

/-- What is locked and written after the checks. -/
def credit (cfg : Config) (txn : Transaction) (authorized : Money) (accountId : Id) :
    App Transaction := do
  let account ← AccountService.lock accountId
  let clearing ← AccountService.getOrCreateInternal clearingOwner account.currency
  record cfg txn authorized account clearing

theorem settleFound_eq (missing : Exn) (check : Transaction → Money → Except Exn Unit)
    (found : Option Transaction) :
    settleFound cfg missing check found =
      Program.ofExcept (cleared missing check found) >>= fun x => credit cfg x.1 x.2.1 x.2.2 := by
  cases found with
  | none => rfl
  | some t =>
    unfold settleFound cleared raiseIf
    by_cases hp : t.status ≠ .pending
    · simp only [ofOption, Program.ret_bind, if_pos hp]
      rfl
    · simp only [ofOption, Program.ret_bind, if_neg hp]
      simp only [Program.ofExcept_bind, Program.bind_assoc]
      rfl

end DepositService

/-! ## What the posting needs -/

namespace Books

/-- The clearing account of a currency. -/
def clearingAccount (b : Books) (currency : String) : Option Account :=
  b.accounts.find? fun a => a.ownerId = clearingOwner ∧ a.currency = currency

/-- The snapshot that `n` more settled entries of sum `x` make due, if they do, fits its
column. -/
def Absorbs (cfg : Config) (b : Books) (accountId : Id) (n : ℕ) (x : Decimal) : Prop :=
  cfg.snapshotEveryNEntries ≤ (b.unread accountId + n : ℕ) →
    (Decimal.storeNumeric 28 8 (b.read accountId + x)).isSome

instance (a : Id) (n : ℕ) (x : Decimal) : Decidable (b.Absorbs cfg a n x) :=
  inferInstanceAs (Decidable (_ → _))

/-- So do the snapshots of the two accounts of a deposit. -/
def AbsorbsDeposit (cfg : Config) (b : Books) (amount : Decimal) (accountId clearingId : Id) :
    Prop :=
  if clearingId = accountId then
    -- after the first snapshot of the account nothing is left for the second one
    1 ≤ cfg.snapshotEveryNEntries ∧ b.Absorbs cfg accountId 2 0
  else b.Absorbs cfg accountId 1 amount ∧ b.Absorbs cfg clearingId 1 (-amount)

instance (amount : Decimal) (a a' : Id) : Decidable (b.AbsorbsDeposit cfg amount a a') :=
  inferInstanceAs (Decidable (if a' = a then 1 ≤ cfg.snapshotEveryNEntries ∧ b.Absorbs cfg a 2 0
    else b.Absorbs cfg a 1 amount ∧ b.Absorbs cfg a' 1 (-amount)))

/-- The deposit can be posted: its clearing account is there or can be opened, and the
snapshots that fall due fit their column. -/
def CanSettle (cfg : Config) (b : Books) (seqs : Sequences) (t : Transaction) (accountId : Id) :
    Prop :=
  match b.clearingAccount t.currency with
  | none =>
      (∀ a ∈ b.accounts, a.number ≠ seqs.nextNumber cfg) ∧ b.Absorbs cfg accountId 1 t.amount
  | some clearing => b.AbsorbsDeposit cfg t.amount accountId clearing.id

instance (seqs : Sequences) (t : Transaction) (accountId : Id) :
    Decidable (b.CanSettle cfg seqs t accountId) :=
  match h : b.clearingAccount t.currency with
  | none =>
      decidable_of_iff ((∀ a ∈ b.accounts, a.number ≠ seqs.nextNumber cfg) ∧
        b.Absorbs cfg accountId 1 t.amount) (by rw [CanSettle, h])
  | some clearing =>
      decidable_of_iff (b.AbsorbsDeposit cfg t.amount accountId clearing.id) (by rw [CanSettle, h])

/-- The deposit has succeeded and its account is credited with its amount, against the
clearing account; no other row has changed or been added to the two tables. -/
structure SettledFor (b : Books) (t : Transaction) (accountId : Id) (b' : Books) : Prop where
  transactions : b'.transactions =
    modify Transaction.id t.id (fun x => { x with status := .success }) b.transactions
  entries : ∃ clearing ∈ b'.accounts, ∃ es, clearing.ownerId = clearingOwner ∧
    Posted t.id [⟨clearing.id, -t.amount, .debit, t.currency, .success⟩,
      ⟨accountId, t.amount, .credit, t.currency, .success⟩] es ∧
    b'.entries = b.entries ++ es

theorem clearingAccount_eq_none {currency : String} :
    b.clearingAccount currency = none ↔
      ∀ x ∈ b.accounts, ¬ (x.ownerId = clearingOwner ∧ x.currency = currency) := by
  simp [clearingAccount]

/-- Whether the snapshot due after a posting can be written. -/
theorem Appends.cutFits_iff {es : List LedgerEntry} (h : b.Appends b' es) (hc : b.CursorsDrawn)
    (hk : b'.Keyed s) {a : Id} {n : ℕ} {x : Decimal} (hn : n ≠ 0)
    (hcount : tally (fun line => line.accountId = a ∧ line.status = .success) (fun _ => 1)
      (es.map LedgerEntry.line) = n)
    (hsum : tally (fun line => line.accountId = a ∧ line.status = .success) PostingLine.amount
      (es.map LedgerEntry.line) = x) :
    b'.CutFits cfg a ↔ b.Absorbs cfg a n x := by
  rw [cutFits_iff_unread, h.unread hc hk, h.read hc hk, hcount, hsum, Absorbs]
  refine forall_congr' fun _ => and_iff_right ?_
  omega

end Books

/-- A cut on another account changes nothing for this one. -/
theorem Cut.cutFits_of_ne {a a' : Id} (hcut : Cut cfg a b b') (h : b.Scaled) (hk : b.Keyed s)
    (ha : a' ≠ a) : b'.CutFits cfg a' ↔ b.CutFits cfg a' := by
  rw [cutFits_iff_unread, cutFits_iff_unread, hcut.read (Books.read_mem_grid h hk _),
    hcut.unread_of_ne ha]

/-- A second cut on the same account goes through unless snapshots are due without entries. -/
theorem Cut.cutFits_self {a : Id} (hcut : Cut cfg a b b') :
    b'.CutFits cfg a ↔ 1 ≤ cfg.snapshotEveryNEntries := by
  rw [cutFits_iff_unread]
  rcases hcut.unread with hlt | hzero
  · exact ⟨fun _ => by omega, fun _ hdue => absurd hdue (not_le.2 hlt)⟩
  · rw [hzero]
    constructor
    · intro h
      by_contra hn
      exact (h (by push_cast; omega)).1 rfl
    · intro hpos hdue
      push_cast at hdue
      omega

/-- Nothing is stored yet about an account that is not there. -/
theorem Books.read_of_absent (hk : b.Keyed s) (hc : b.CursorsDrawn) {a : Id}
    (ha : ∀ x ∈ b.accounts, x.id ≠ a) : b.read a = 0 ∧ b.unread a = 0 := by
  have hentries : ∀ e ∈ b.entries, e.accountId ≠ a := by
    intro e he hea
    obtain ⟨x, hx, hid⟩ := hk.entryAccount e he
    exact ha x hx (hid.trans hea)
  have hlatest : b.latestSnapshot a = none := by
    cases hl : b.latestSnapshot a with
    | none => rfl
    | some x =>
      obtain ⟨hx, hxa⟩ := latestSnapshot_mem hl
      obtain ⟨e, he, hea, -⟩ := hc x hx
      exact absurd (hea.trans hxa) (hentries e he)
  constructor
  · rw [Books.read, hlatest, sumEntries_settled]
    exact (zero_add _).trans (tally_eq_zero fun e he h => absurd h.1.1 (hentries e he))
  · exact tally_eq_zero fun e he h => absurd h.1.1 (hentries e he)

section absorbs

variable {es : List LedgerEntry} {amount : Decimal} {a a' : Id} {m : Money}

/-- The first of the two snapshots. -/
theorem Books.Appends.cutFits_first (h : b.Appends b₁ es) (hc : b.CursorsDrawn) (hk : b₁.Keyed s)
    (hlines : es.map LedgerEntry.line = [debitLine a' m, creditLine a m])
    (hm : |m.amount| = amount) :
    b₁.CutFits cfg a ↔ if a' = a then b.Absorbs cfg a 2 0 else b.Absorbs cfg a 1 amount := by
  split
  · rename_i ha
    subst ha
    refine h.cutFits_iff hc hk two_ne_zero ?_ ?_ <;> rw [hlines] <;> simp
  · rename_i ha
    refine h.cutFits_iff hc hk one_ne_zero ?_ ?_ <;> rw [hlines] <;> simp [ha, hm]

/-- The second one, after it. -/
theorem Books.Appends.cutFits_second (h : b.Appends b₁ es) (hc : b.CursorsDrawn)
    (hs : b₁.Scaled) (hk : b₁.Keyed s)
    (hlines : es.map LedgerEntry.line = [debitLine a' m, creditLine a m]) (hm : |m.amount| = amount)
    (hcut : Cut cfg a b₁ b') :
    b'.CutFits cfg a' ↔ b.AbsorbsDeposit cfg amount a a' := by
  have hfirst := (h.cutFits_first hc hk hlines hm).1 hcut.fits
  unfold AbsorbsDeposit
  by_cases ha : a' = a
  · subst ha
    rw [if_pos rfl] at hfirst ⊢
    rw [hcut.cutFits_self, and_iff_left hfirst]
  · rw [if_neg ha] at hfirst ⊢
    rw [hcut.cutFits_of_ne hs hk ha, and_iff_right hfirst]
    refine h.cutFits_iff hc hk one_ne_zero ?_ ?_ <;> rw [hlines] <;> simp [Ne.symm ha, hm]

end absorbs

/-! ## The posting, to its end -/

section posting

variable {c : Conn} {t : Transaction} {authorized : Money} {account clearing : Account}

/-- The entries, the snapshots, the commit and the event: only a snapshot is refused. -/
theorem record_ends (ho : c.Open b b₁) (hl : b.Linked) (hf : b.Fits) (hc : b.CursorsDrawn)
    (hs : b.Scaled) (ht : t ∈ b.transactions) (hpos : 0 < t.amount)
    (hauth : Money.make t.amount t.currency = .ok authorized) (haccount : account ∈ b.accounts)
    (howner : clearing.ownerId = clearingOwner)
    (hopened : Opened clearingOwner t.currency b clearing b₁) :
    Ends cfg (DepositService.record cfg t authorized account clearing) c fun o d =>
      b.AbsorbsDeposit cfg t.amount account.id clearing.id ∧
          o = .ok { t with status := .success } ∧
          b.SettledFor t account.id d.store.db.books ∨
        ¬ b.AbsorbsDeposit cfg t.amount account.id clearing.id ∧ o.isOk = false ∧
          d.store.db.books = b := by
  have hamount : |authorized.amount| = t.amount := by
    rw [hl.amount_of_make ht hauth, abs_of_pos hpos]
  have hcurrency : authorized.currency = t.currency := hl.currency_of_make ht hauth
  have hstore : Decimal.storeNumeric 28 8 |authorized.amount| = some |authorized.amount| := by
    rw [hamount]
    exact hf.amounts t ht
  have hfit : fitsIn 3 authorized.currency = true := hcurrency ▸ hf.currencies t ht
  obtain ⟨htransactions, hentries, hsnapshots⟩ := hopened.rest
  unfold DepositService.record
  refine ends_postPair (debitLine clearing.id authorized) (creditLine account.id authorized) ho
    rfl rfl rfl hstore hfit ⟨clearing, hopened.mem, rfl⟩ ⟨account, hopened.subset haccount, rfl⟩
    ⟨t, htransactions ▸ ht, rfl⟩ fun es c₁ hposted h₁ => ?_
  refine ends_updateTransactionStatus h₁ (htransactions ▸ ht) fun c₂ h₂ => ?_
  set b₂ := (b₁.addEntries es).setTransaction t.id .success with hb₂
  have happends : b.Appends b₂ es := ⟨by rw [hb₂, ← hentries]; rfl, by rw [← hsnapshots]; rfl⟩
  have hk₂ : b₂.Keyed c₂.store.seqs := h₂.view_keyed
  have hs₂ : b₂.Scaled := hs.congr happends.snapshots
  refine ends_maybeSnapshot h₂ (hopened.subset haccount) (fun hfit b₃ c₃ hcut₁ h₃ => ?_)
    fun hunfit e d _ hbooks => .inr ⟨fun habsorbs => hunfit ?_, rfl, hbooks⟩
  swap
  · rw [happends.cutFits_first hc hk₂ hposted.lines hamount]
    unfold Books.AbsorbsDeposit at habsorbs
    by_cases hsame : clearing.id = account.id
    · rw [if_pos hsame] at habsorbs ⊢
      exact habsorbs.2
    · rw [if_neg hsame] at habsorbs ⊢
      exact habsorbs.1
  have hsecond := happends.cutFits_second hc hs₂ hk₂ hposted.lines hamount hcut₁
  have haccounts : b₃.accounts = b₁.accounts := hcut₁.rest.1
  refine ends_maybeSnapshot h₃ (haccounts ▸ hopened.mem) (fun hfit' b₄ c₄ hcut₂ h₄ => ?_)
    fun hunfit e d _ hbooks => .inr ⟨fun habsorbs => hunfit (hsecond.2 habsorbs), rfl, hbooks⟩
  obtain ⟨ha, htx, hes⟩ := (Cuts.pair hcut₁ hcut₂).rest
  refine ends_commit h₄ fun c₅ h₅ hw => ?_
  have hrow : { t with status := .success } ∈ b₄.transactions := by
    rw [htx]
    exact Books.mem_setTransaction (b := b₁.addEntries es) (htransactions ▸ ht) .success
  refine ends_reloadTransaction (t := { t with status := .success }) h₅ hrow ?_
  refine ends_reloadAccount h₅ (ha ▸ hopened.subset haccount) ?_
  refine ends_publish h₅ hw _ fun d hd => ends_ret (.inl ⟨hsecond.1 hfit', rfl, ?_, ?_⟩)
  · rw [hd, htx, hb₂, ← htransactions]
    rfl
  · rw [hd, ha]
    refine ⟨clearing, hopened.mem, es, howner, ?_, hes.trans happends.entries⟩
    simpa only [debitLine, creditLine, hamount, hcurrency] using hposted

/-- The posting of a deposit goes through exactly when it can be written. -/
theorem credit_ends (ho : c.Open b b) (hl : b.Linked) (hf : b.Fits) (hc : b.CursorsDrawn)
    (hs : b.Scaled) (ht : t ∈ b.transactions) (hp : t.status = .pending) (hpos : 0 < t.amount)
    (hauth : Money.make t.amount t.currency = .ok authorized) {accountId : Id}
    (hid : t.details.accountId = .ok accountId) :
    Ends cfg (DepositService.credit cfg t authorized accountId) c fun o d =>
      b.CanSettle cfg c.store.seqs t accountId ∧ o = .ok { t with status := .success } ∧
          b.SettledFor t accountId d.store.db.books ∨
        ¬ b.CanSettle cfg c.store.seqs t accountId ∧ o.isOk = false ∧ d.store.db.books = b := by
  obtain ⟨account, haccount, rfl, hcur⟩ := hl.parties t ht hp accountId (.inl hid)
  have hcode : account.currency.toUpper = t.currency := by rw [hl.codes account haccount, hcur]
  refine ends_lock ho haccount (ends_getOrCreateInternal ho rfl ?_ ?_ ?_ ?_) <;> rw [hcode]
  · exact hf.currencies t ht
  · intro clearing hfound
    have hsettle : b.CanSettle cfg c.store.seqs t account.id ↔
        b.AbsorbsDeposit cfg t.amount account.id clearing.id := by
      rw [Books.CanSettle, Books.clearingAccount, hfound]
    have howner := List.find?_some hfound
    rw [decide_eq_true_eq] at howner
    rw [hsettle]
    exact record_ends ho hl hf hc hs ht hpos hauth haccount howner.1
      (.found (List.mem_of_find?_eq_some hfound))
  · intro hnone hfree clearing d howner hd
    -- nothing is stored about the new account yet
    have hfresh : ∀ x ∈ b.accounts, x.id ≠ clearing.id :=
      fresh_of_nodup hd.view_keyed.accountIds
    obtain ⟨hread, hunread⟩ := Books.read_of_absent ho.view_keyed hc hfresh
    have habsorbs : b.Absorbs cfg clearing.id 1 (-t.amount) := fun _ => by
      rw [hread, zero_add, Decimal.storeNumeric_abs (hf.amounts t ht) (abs_neg _)]
      rfl
    have hsettle : b.CanSettle cfg c.store.seqs t account.id ↔
        b.AbsorbsDeposit cfg t.amount account.id clearing.id := by
      rw [Books.CanSettle, Books.clearingAccount_eq_none.2 hnone, Books.AbsorbsDeposit,
        if_neg (Ne.symm (hfresh account haccount)), and_iff_right hfree, and_iff_left habsorbs]
    rw [hsettle]
    exact record_ends hd hl hf hc hs ht hpos hauth haccount howner.1 (.created hnone)
  · rintro hnone ⟨x, hx, htaken⟩ d hd
    refine .inr ⟨fun hsettle => ?_, rfl, hd⟩
    rw [Books.CanSettle, Books.clearingAccount_eq_none.2 hnone] at hsettle
    exact hsettle.1 x hx htaken

end posting

end WalletLedger
