import WalletLedger.Lib.DecimalText
import WalletLedger.Sequential.Deposits
import WalletLedger.Sequential.Vouchers

/-!
# What an account holds

The balance of an account is what its transactions say: those that have been carried out and
stand, each read off its own row.

* `Transaction.Stands`, `Transaction.moves` — the transactions that count, and what their rows
  say that they move.
* `settled_eq_standing` — a reversed transaction and its reversal cancel, and nothing else has
  moved anything but what stands.
* `vouched_of_crashes`, `holdings_of_crashes`, `held_back` — the results.
-/

namespace WalletLedger

variable {cfg : Config} {web : Web} {pay : Payments} {b b' : Books} {s s' : Sequences}
  {F : Books → String → Decimal → Prop}

/-! ## What a row says -/

/-- The transaction has been carried out, and is neither reversed nor a reversal. -/
def Transaction.Stands (t : Transaction) : Prop := t.status = .success ∧ t.type ≠ .reversal

instance (t : Transaction) : Decidable t.Stands := inferInstanceAs (Decidable (_ ∧ _))

/-- The amount that a text of the details stands for. -/
def amountOfText (text : String) : Decimal :=
  match DecimalValue.ofString text with
  | some (.finite x) => |x|
  | _ => 0

/-- What a transaction moves on the account of a customer, by its row. -/
def Transaction.moves (t : Transaction) (accountId : Id) : Decimal :=
  match t.details with
  | .transfer senderId receiverId =>
      (if receiverId = accountId then t.amount else 0) -
        if senderId = accountId then t.amount else 0
  | .deposit _ creditedId _ => if creditedId = accountId then t.amount else 0
  | .fxTransfer senderId receiverId targetAmount _ =>
      (if receiverId = accountId then amountOfText targetAmount else 0) -
        if senderId = accountId then t.amount else 0
  | .reversal _ => 0
  | .empty => 0

/-- An account of a customer, neither a clearing account nor a pool. -/
def Account.IsCustomer (a : Account) : Prop := a.ownerId ≠ clearingOwner ∧ a.ownerId ≠ fxPoolOwner

instance (a : Account) : Decidable a.IsCustomer := inferInstanceAs (Decidable (_ ∧ _))

/-- No internal account is that of a customer. -/
theorem Account.IsCustomer.id_ne {a x : Account} (h : a.IsCustomer) (hk : b.Keyed s)
    (ha : a ∈ b.accounts) (hx : x ∈ b.accounts)
    (howner : x.ownerId = clearingOwner ∨ x.ownerId = fxPoolOwner) : x.id ≠ a.id := by
  intro hid
  obtain rfl : x = a := eq_of_key_eq hk.accountIds hx ha hid
  exact howner.elim h.1 h.2

theorem amountOfText_text (m : Money) : amountOfText m.text = |m.amount| := by
  unfold amountOfText Money.text
  rw [DecimalValue.ofString_text m.onGrid]

/-! ## What its entries have moved -/

/-- The settled total of some lines on an account. -/
def settledOn (accountId : Id) (lines : List PostingLine) : Decimal :=
  tally (fun line => line.accountId = accountId ∧ line.status = .success) PostingLine.amount lines

theorem Books.moved_eq (b : Books) (id accountId : Id) :
    b.moved id accountId = settledOn accountId (b.linesOf id) := by
  rw [moved, filter_isOf, tally_filter, settledOn, linesOf, tally_map]
  refine tally_congr (fun e _ => ?_) fun _ _ _ => rfl
  simp [LedgerEntry.line, and_comm]

@[simp] theorem settledOn_append (a : Id) (lines lines' : List PostingLine) :
    settledOn a (lines ++ lines') = settledOn a lines + settledOn a lines' := tally_append _ _ _ _

@[simp] theorem settledOn_settledPair (a fromId toId : Id) (amount : Decimal) (currency : String) :
    settledOn a (settledPair fromId toId amount currency) =
      (if toId = a then amount else 0) - if fromId = a then amount else 0 := by
  unfold settledOn settledPair
  by_cases hfrom : fromId = a <;> by_cases hto : toId = a <;> simp [hfrom, hto]

/-- The mirrors of settled lines take back what the lines have moved. -/
theorem settledOn_mirror (a : Id) (lines : List PostingLine) :
    settledOn a (lines.map PostingLine.mirror) = -settledOn a lines := by
  unfold settledOn
  rw [tally_map, ← tally_neg]
  rfl

/-- What waits, or has failed, has no settled entry. -/
theorem Vouches.unsettled {t : Transaction} {lines : List PostingLine} (h : Vouches b t lines)
    (hstatus : t.status = .pending ∨ t.status = .failed) :
    ∀ line ∈ lines, line.status ≠ .success := by
  have hdone : ¬ t.Done := by
    rintro (hs | hs) <;> rw [hs] at hstatus <;> simp at hstatus
  cases h with
  | transfer senderId receiverId type details positive done => exact absurd done hdone
  | reserved senderId receiverId type details positive status => simp
  | released senderId receiverId type details positive status => simp
  | promised provider accountId context type details positive status => simp
  | deposit provider accountId context clearing type details positive done =>
    exact absurd done hdone
  | fund account clearing type details done => exact absurd done hdone
  | exchange senderId receiverId received poolFrom poolTo type details positive done =>
    exact absurd done hdone
  | reversal original type details status => rw [status] at hstatus; simp at hstatus

theorem Vouches.exists_transfer {t : Transaction} {lines : List PostingLine}
    (h : Vouches b t lines) (htype : t.type = .transfer) :
    ∃ senderId receiverId, t.details = .transfer senderId receiverId := by
  cases h with
  | transfer senderId receiverId type details => exact ⟨senderId, receiverId, details⟩
  | reserved senderId receiverId type details => exact ⟨senderId, receiverId, details⟩
  | released senderId receiverId type details => exact ⟨senderId, receiverId, details⟩
  | _ => simp_all

/-- What stands has moved what its row says. -/
theorem Vouches.settledOn_eq {t : Transaction} {lines : List PostingLine}
    (h : Vouches b t lines) (hk : b.Keyed s) (hs : t.Stands) (hd : t.details ≠ .empty) {a : Account}
    (ha : a ∈ b.accounts) (hcustomer : a.IsCustomer) : settledOn a.id lines = t.moves a.id := by
  have hinternal : ∀ x ∈ b.accounts, x.ownerId = clearingOwner ∨ x.ownerId = fxPoolOwner →
      x.id ≠ a.id := fun x hx howner => hcustomer.id_ne hk ha hx howner
  obtain ⟨hstatus, htype⟩ := hs
  cases h with
  | transfer senderId receiverId type details positive done =>
    simp [Transaction.moves, details]
  | reserved senderId receiverId type details positive status => cases hstatus.symm.trans status
  | released senderId receiverId type details positive status => cases hstatus.symm.trans status
  | promised provider accountId context type details positive status =>
    rcases status with status | status <;> cases hstatus.symm.trans status
  | deposit provider accountId context clearing type details positive done mem owner =>
    simp [Transaction.moves, details, hinternal clearing mem (.inl owner)]
  | fund account clearing type details done => exact absurd details hd
  | exchange senderId receiverId received poolFrom poolTo type details positive done from_mem
      from_owner to_mem to_owner =>
    simp only [settledOn_append, settledOn_settledPair, Transaction.moves, details,
      amountOfText_text, if_neg (hinternal poolFrom from_mem (.inr from_owner)),
      if_neg (hinternal poolTo to_mem (.inr to_owner))]
    ring
  | reversal original type details status mem reversed => exact absurd type htype

/-! ## Reversed transactions and their reversals -/

/-- The settled balance is what all the transactions have moved. -/
theorem Books.settled_eq_moved (hk : b.Keyed s) (a : Id) :
    b.settled a = (b.transactions.map fun t => b.moved t.id a).sum := by
  rw [settled, tally_eq_sum_fiber hk.transactionIds fun e he _ => hk.entryTransaction e he]
  refine congrArg List.sum (List.map_congr_left fun t _ => ?_)
  rw [moved, tally_filter]
  refine tally_congr (fun e _ => ?_) fun _ _ _ => rfl
  simp only [LedgerEntry.isOf, decide_eq_true_eq]
  tauto

/-- The transaction that a reversal takes back. -/
def Transaction.reverses (t : Transaction) : Option Id :=
  match t.details with
  | .reversal id => some id
  | _ => none

theorem Transaction.reverses_eq_some {t : Transaction} {id : Id} :
    t.reverses = some id ↔ t.details = .reversal id := by
  unfold reverses
  cases t.details <;> simp

/-- A reversal moves back what the transaction has moved. -/
theorem Books.Recorded.moved_reversal (h : b.Recorded) (hk : b.Keyed s) {t r : Transaction}
    (ht : t ∈ b.transactions) (hr : r ∈ b.reversalsOf t.id) (a : Id) :
    t.status = .reversed ∧ b.moved r.id a = -b.moved t.id a := by
  obtain ⟨hmem, htype, hdetails⟩ := mem_reversalsOf.1 hr
  have hv := h.vouched r hmem
  rw [moved_eq, moved_eq]
  generalize b.linesOf r.id = lines at hv
  cases hv with
  | reversal original type details status mem reversed =>
    obtain rfl : original = t := by
      refine eq_of_key_eq hk.transactionIds mem ht ?_
      rw [details] at hdetails
      exact Details.reversal.inj hdetails
    exact ⟨reversed, settledOn_mirror _ _⟩
  | _ => simp_all

/-- Reversed transactions and their reversals cancel. -/
theorem Books.Recorded.reversals_cancel (h : b.Recorded) (hk : b.Keyed s) (a : Id) :
    tally (fun t => t.type = .reversal) (fun t => b.moved t.id a) b.transactions +
      tally (fun t => t.status = .reversed) (fun t => b.moved t.id a) b.transactions = 0 := by
  have hids : (b.transactions.map fun t => some t.id).Nodup := by
    have hsome := hk.transactionIds.map (Option.some_injective Id)
    rwa [List.map_map] at hsome
  have heach : ∀ t ∈ b.transactions, tally (fun r : Transaction => r.type = .reversal ∧
      r.reverses = some t.id) (fun r => b.moved r.id a) b.transactions =
        if t.status = .reversed then -b.moved t.id a else 0 := by
    intro t ht
    have hsum : tally (fun r : Transaction => r.type = .reversal ∧ r.reverses = some t.id)
        (fun r => b.moved r.id a) b.transactions =
          ((b.reversalsOf t.id).map fun r => b.moved r.id a).sum := by
      refine (tally_congr (fun r _ => ?_) fun _ _ _ => rfl).trans (rfl : tally (fun r =>
        r.type = .reversal ∧ r.details = .reversal t.id) _ b.transactions = _)
      rw [Transaction.reverses_eq_some]
    have hcount := h.reversals.count t ht
    rw [hsum]
    by_cases hs : t.status = .reversed
    · rw [if_pos hs] at hcount ⊢
      obtain ⟨r, hr⟩ := List.length_eq_one_iff.1 hcount
      rw [hr, List.map_singleton, List.sum_singleton]
      exact (h.moved_reversal hk ht (by rw [hr]; exact List.mem_singleton_self r) a).2
    · rw [if_neg hs] at hcount ⊢
      rw [List.length_eq_zero_iff.1 hcount]
      rfl
  -- every reversal takes back a transaction that is there
  have hall : tally (fun t : Transaction => t.type = .reversal) (fun t => b.moved t.id a)
      b.transactions =
        (b.transactions.map fun t => if t.status = .reversed then -b.moved t.id a else 0).sum := by
    have hkey : ∀ t ∈ b.transactions, t.type = .reversal →
        ∃ original ∈ b.transactions, some original.id = t.reverses := by
      intro t ht htype
      have hv := h.vouched t ht
      generalize b.linesOf t.id = lines at hv
      cases hv with
      | reversal original type details status mem reversed =>
        exact ⟨original, mem, (Transaction.reverses_eq_some.2 details).symm⟩
      | _ => simp_all
    rw [tally_eq_sum_fiber hids hkey]
    exact congrArg List.sum (List.map_congr_left heach)
  rw [hall, ← sum_map_ite (p := fun t : Transaction => t.status = .reversed), ← List.sum_map_add]
  refine List.sum_eq_zero fun x hx => ?_
  obtain ⟨t, -, rfl⟩ := List.mem_map.1 hx
  split <;> simp

/-- What stands has moved all that has been moved. -/
theorem Books.Recorded.settled_eq_standing (h : b.Recorded) (hk : b.Keyed s) (a : Id) :
    b.settled a = tally Transaction.Stands (fun t => b.moved t.id a) b.transactions := by
  have hcancel := h.reversals_cancel hk a
  have hsplit : ∀ t ∈ b.transactions, b.moved t.id a =
      (if t.Stands then b.moved t.id a else 0) +
        ((if t.type = .reversal then b.moved t.id a else 0) +
          if t.status = .reversed then b.moved t.id a else 0) := by
    intro t ht
    have hstanding := h.reversals.standing t ht
    have hzero : t.status = .pending ∨ t.status = .failed → b.moved t.id a = 0 := fun hs => by
      rw [moved_eq]
      exact tally_eq_zero fun line hline hp =>
        absurd hp.2 ((h.vouched t ht).unsettled hs line hline)
    by_cases htype : t.type = .reversal
    · simp [Transaction.Stands, htype, hstanding htype]
    · cases hs : t.status with
      | success => simp [Transaction.Stands, htype, hs]
      | reversed => simp [Transaction.Stands, htype, hs]
      | _ => simp [htype, hs, hzero]
  rw [settled_eq_moved hk, List.map_congr_left hsplit, List.sum_map_add, List.sum_map_add,
    sum_map_ite, sum_map_ite, sum_map_ite, hcancel, add_zero]

/-- What the entries of a row without details have moved is left to them. -/
theorem Books.Recorded.settled_eq (h : b.Recorded) (hk : b.Keyed s) {a : Account}
    (ha : a ∈ b.accounts) (hcustomer : a.IsCustomer) :
    b.settled a.id =
      tally (fun t => t.Stands ∧ t.details ≠ .empty) (fun t => t.moves a.id) b.transactions +
        tally (fun t => t.Stands ∧ t.details = .empty) (fun t => b.moved t.id a.id)
          b.transactions := by
  have hrows : tally (fun t => t.Stands ∧ t.details ≠ .empty) (fun t => b.moved t.id a.id)
      b.transactions = tally (fun t => t.Stands ∧ t.details ≠ .empty) (fun t => t.moves a.id)
        b.transactions := by
    refine tally_congr (fun _ _ => Iff.rfl) fun t ht hs => ?_
    rw [moved_eq]
    exact (h.vouched t ht).settledOn_eq hk hs.1 hs.2 ha hcustomer
  rw [h.settled_eq_standing hk, tally_split (q := fun t => t.details = .empty), hrows, add_comm]

/-! ## Wherever processes are killed -/

/-- **Every row vouches for its entries.**  Wherever the processes of requests, webhooks and
commands have been killed, the entries of every transaction are those that its row says: with its
type, its status, its amount and its details. -/
theorem vouched_of_crashes {st : Store} (h : Run (crash cfg web pay) Entry.Exact Store.empty st) :
    ∀ t ∈ st.db.books.transactions, Vouches st.db.books t (st.db.books.linesOf t.id) :=
  (recorded_of_crashes h).1.vouched

/-- **The balance is what the transactions say.**  Wherever processes have been killed, what a
customer's account has settled is what the rows of the transactions that stand say they move on
it, the funds of the operator apart, whose rows do not name the account; and what it has reserved
is what its waiting transfers send. -/
theorem holdings_of_crashes {st : Store} (h : Run (crash cfg web pay) Entry.Exact Store.empty st)
    {a : Account} (ha : a ∈ st.db.books.accounts) (hcustomer : a.IsCustomer) :
    st.db.books.settled a.id =
        tally (fun t => t.Stands ∧ t.details ≠ .empty) (fun t => t.moves a.id)
            st.db.books.transactions +
          tally (fun t => t.Stands ∧ t.details = .empty) (fun t => st.db.books.moved t.id a.id)
            st.db.books.transactions ∧
      st.db.books.reserved a.id =
        -tally (fun t => t.WaitsOn a.id) Transaction.amount st.db.books.transactions := by
  obtain ⟨hrecorded, hs⟩ := recorded_of_crashes h
  exact ⟨hrecorded.settled_eq hs.keyed ha hcustomer,
    hrecorded.reservations.reserved_eq hs.keyed a.id⟩

/-- Alice has been funded, and the process of her transfer has been killed after its commit. -/
def transferredStore : Store :=
  (killedCommands ++ [(Entry.post keyedRequest, 25)]).foldl
    (fun s x => crash (offlineConfig 100) transferBodies signedPayments x s) Store.empty

theorem run_transferredStore :
    Run (crash (offlineConfig 100) transferBodies signedPayments) Entry.Exact Store.empty
      transferredStore := Run.of_along (by decide +kernel)

/-- Its row vouches for the pair of entries. -/
theorem vouched_transfer : ∃ t ∈ transferredStore.db.books.transactions,
    t.details = .transfer 0 1 ∧
      Vouches transferredStore.db.books t (transferredStore.db.books.linesOf t.id) := by
  have hrow : ∃ t ∈ transferredStore.db.books.transactions, t.details = .transfer 0 1 := by
    decide +kernel
  obtain ⟨t, ht, hd⟩ := hrow
  exact ⟨t, ht, hd, vouched_of_crashes run_transferredStore t ht⟩

/-- What Alice has is what she was funded less what she sent. -/
theorem holdings_of_transfer : ∃ a ∈ transferredStore.db.books.accounts, a.ownerId = "alice" ∧
    transferredStore.db.books.settled a.id =
      tally (fun t => t.Stands ∧ t.details ≠ .empty) (fun t => t.moves a.id)
          transferredStore.db.books.transactions +
        tally (fun t => t.Stands ∧ t.details = .empty)
          (fun t => transferredStore.db.books.moved t.id a.id)
          transferredStore.db.books.transactions := by
  have hrow : ∃ a ∈ transferredStore.db.books.accounts, a.ownerId = "alice" ∧ a.IsCustomer := by
    decide +kernel
  obtain ⟨a, ha, howner, hcustomer⟩ := hrow
  exact ⟨a, ha, howner, (holdings_of_crashes run_transferredStore ha hcustomer).1⟩

/-! ## What is held back -/

/-- The row is a transfer above the limit of the approval, and has not been carried out. -/
def Books.Withholds (b : Books) (cfg : Config) (id : Id) : Prop :=
  ∃ t ∈ b.transactions, t.id = id ∧ t.type = .transfer ∧ cfg.autoApprovalLimit < t.amount ∧
    (t.status = .pending ∨ t.status = .failed)

theorem Books.Withholds.mono {id : Id} (h : b.Withholds cfg id)
    (ht : ∀ t ∈ b.transactions, t.id = id → (t.status = .pending ∨ t.status = .failed) →
      t ∈ b'.transactions) : b'.Withholds cfg id := by
  obtain ⟨t, hmem, hid, htype, hlimit, hstatus⟩ := h
  exact ⟨t, ht t hmem hid hstatus, hid, htype, hlimit, hstatus⟩

/-- No operation carries it out. -/
theorem Effect.withholds {op : Operation} (hk : b.Keyed s) (hk' : b'.Keyed s') (hl : b.Linked)
    (hv : b.Vouched) (he : Effect cfg b op b') {id : Id} (h : b.Withholds cfg id) :
    b'.Withholds cfg id := by
  have hids := hk'.transactionIds
  cases he with
  | createAccount a owner code new => exact h
  | initiateDeposit account money t reference account_mem account_id money_eq positive records =>
    have hsame : ((Write.setReference t.id reference).applyBooks
        (b.addTransaction t)).transactions.map Transaction.id =
          (b.transactions ++ [t]).map Transaction.id := map_modify fun _ => rfl
    rw [hsame] at hids
    exact h.mono fun x hx _ _ =>
      mem_modify_of_ne (List.mem_append_left _ hx) (fresh_of_nodup hids x hx)
  | settle t authorized account clearing b₁ _ es found pending authorized_eq reconciled account_id
      account_mem owner code opened posted cuts =>
    obtain ⟨u, hu, hid, htype, hlimit, hstatus⟩ := h
    refine ⟨u, ?_, hid, htype, hlimit, hstatus⟩
    rw [cuts.rest.2.1]
    refine mem_modify_of_ne (opened.rest.1.symm ▸ hu) fun hsame => ?_
    -- a transfer does not name an account to settle
    obtain rfl : u = t :=
      eq_of_key_eq hk.transactionIds hu (List.mem_of_find?_eq_some found) hsame
    obtain ⟨senderId, receiverId, details⟩ := (hv u hu).exists_transfer htype
    rw [details] at account_id
    cases account_id
  | execute k t es _ records posted cuts =>
    refine h.mono fun x hx _ _ => ?_
    rw [cuts.rest.2.1]
    exact List.mem_append_left _ hx
  | initiate k t e records line transaction =>
    exact h.mono fun x hx _ _ => List.mem_append_left _ hx
  | commit t money debit credit sender receiver _ found pending money_eq approved reserved
      sender_mem sender_id receiver_id receiver_mem line transaction balanced cuts =>
    obtain ⟨u, hu, hid, htype, hlimit, hstatus⟩ := h
    refine ⟨u, ?_, hid, htype, hlimit, hstatus⟩
    rw [cuts.rest.2.1]
    refine mem_modify_of_ne hu fun hsame => ?_
    obtain ⟨ht, -⟩ := transaction_of_find found
    obtain rfl : u = t := eq_of_key_eq hk.transactionIds hu ht hsame
    rw [hl.amount_of_make ht money_eq] at approved
    exact hlimit.not_ge approved
  | fail t found pending =>
    obtain ⟨u, hu, hid, htype, hlimit, hstatus⟩ := h
    have hmem := hu
    rw [← (Books.setEntries_rest (b.entries.filter (LedgerEntry.isOf t.id .pending)) .failed b).2]
      at hmem
    by_cases hsame : u.id = t.id
    · exact ⟨{ u with status := .failed }, mem_modify.2 ⟨u, hmem, by rw [if_pos hsame]⟩, hid,
        htype, hlimit, .inr rfl⟩
    · exact ⟨u, mem_modify_of_ne hmem hsame, hid, htype, hlimit, hstatus⟩
  | executeFxTransfer k received poolFrom poolTo b₁ b₂ _ t es exchange received_eq owner_from
      code_from opened_from owner_to code_to opened_to records posted cuts =>
    have hb₂ : b₂.transactions = b.transactions := opened_to.rest.1.trans opened_from.rest.1
    refine h.mono fun x hx _ _ => ?_
    rw [cuts.rest.2.1]
    exact List.mem_append_left _ (hb₂.symm ▸ hx)
  | reverse t reversal lines es _ found success original records mirrored balanced posted cuts =>
    refine h.mono fun x hx _ hstatus => ?_
    rw [cuts.rest.2.1]
    refine mem_modify_of_ne (List.mem_append_left _ hx) fun hsame => ?_
    rw [eq_of_key_eq hk.transactionIds hx (transaction_of_find found).1 hsame, success] at hstatus
    simp at hstatus

theorem LedgerStep.withholds (hk : b.Keyed s) (hk' : b'.Keyed s') (hb : b.Recorded)
    (h : LedgerStep cfg F b b') {id : Id} (hw : b.Withholds cfg id) : b'.Withholds cfg id := by
  cases h with
  | service op _ he => exact he.withholds hk hk' hb.upright.linked hb.vouched hw
  | fund number amount _ _ he =>
    obtain ⟨account, clearing, b₁, t, es, -, -, -, -, hopened, -⟩ := he
    exact hw.mono fun x hx _ _ => List.mem_append_left _ (hopened.rest.1.symm ▸ hx)

/-- **What is above the limit is held back.**  A transfer that waits, of an amount above the limit
of the approval, is never carried out, whatever is asked of the application and wherever its
processes are killed: it waits or fails, and none of its entries is ever settled. -/
theorem held_back {s s' : Store} {t : Transaction}
    (h : Run (crash cfg web pay) Entry.Exact Store.empty s) (ht : t ∈ s.db.books.transactions)
    (htype : t.type = .transfer) (hpending : t.status = .pending)
    (hlimit : cfg.autoApprovalLimit < t.amount)
    (hafter : Run (crash cfg web pay) Entry.Exact s s') :
    (∃ t' ∈ s'.db.books.transactions, t'.id = t.id ∧ t'.type = .transfer ∧
        (t'.status = .pending ∨ t'.status = .failed)) ∧
      ∀ e ∈ s'.db.books.entries, e.transactionId = t.id → e.status ≠ .success := by
  obtain ⟨hrecorded, hs⟩ := recorded_of_crashes h
  have hsteps := (ledger_of_crashes hs hafter).1
  have hboth : s'.db.books.Recorded ∧ s'.db.books.Withholds cfg t.id := by
    refine hsteps.invariant (I := fun b => b.Recorded ∧ b.Withholds cfg t.id) ⟨_, hs.keyed⟩
      ⟨hrecorded, t, ht, rfl, htype, hlimit, .inl hpending⟩ ?_
    intro b b' s s' hk hk' hstep hb
    exact ⟨hstep.recorded hk hk' hb.1, hstep.withholds hk hk' hb.1 hb.2⟩
  obtain ⟨hrecorded', t', ht', hid, htype', -, hstatus⟩ := hboth
  refine ⟨⟨t', ht', hid, htype', hstatus⟩, fun e he hte => ?_⟩
  have hline : e.line ∈ s'.db.books.linesOf t'.id :=
    List.mem_map_of_mem (List.mem_filter.2 ⟨he, decide_eq_true (hte.trans hid.symm)⟩)
  exact (hrecorded'.vouched t' ht').unsettled hstatus e.line hline

/-- What is above ten waits. -/
def limitedConfig : Config := { offlineConfig 100 with autoApprovalLimit := 10 }

/-- Alice has initiated her transfer. -/
def heldStore : Store :=
  (killedCommands ++ [(Entry.post { keyedRequest with endpoint := .initiateTransfer }, 30)]).foldl
    (fun s x => crash limitedConfig transferBodies signedPayments x s) Store.empty

/-- The request to commit a transfer. -/
def heldCommit (transactionId : Id) : HttpRequest :=
  { keyedRequest with
    endpoint := .commitTransfer transactionId
    key := none }

/-- Its commit is refused, and what is killed of it settles nothing. -/
theorem held_transfer : ∃ t ∈ heldStore.db.books.transactions, t.status = .pending ∧ ∀ n,
    ∀ e ∈ (crash limitedConfig transferBodies signedPayments (.post (heldCommit t.id), n)
        heldStore).db.books.entries, e.transactionId = t.id → e.status ≠ .success := by
  have hrow : ∃ t ∈ heldStore.db.books.transactions, t.type = .transfer ∧ t.status = .pending ∧
      limitedConfig.autoApprovalLimit < t.amount := by
    decide +kernel
  have hrun : Run (crash limitedConfig transferBodies signedPayments) Entry.Exact Store.empty
      heldStore := Run.of_along (by decide +kernel)
  obtain ⟨t, ht, htype, hpending, hlimit⟩ := hrow
  refine ⟨t, ht, hpending, fun n => ?_⟩
  have hexact : Entry.Exact (.post (heldCommit t.id), n) heldStore := trivial
  exact (held_back hrun ht htype hpending hlimit (.step _ .start hexact)).2

end WalletLedger
