import WalletLedger.Sequential.Snapshots

/-!
# Overdrafts

When a customer's account never holds less than nothing.

Money leaves an account by a debit the funds check has covered, or by the reversal of
what it once received, which nothing checks.

* `Books.Covered` — no customer account is overdrawn.
* `Operation.ReversesCovered` — what a reversal takes back is still there
  (`Effect.covered`).
* `covered_of_run` — in a run of operations that settle ahead of the snapshots and
  whose reversals are covered, no customer account is overdrawn; `overdrawn` is a run
  where one is.
-/

namespace WalletLedger

variable {cfg : Config} {b b₁ b' : Books} {s s' : Sequences}

/-- The clearing and pool accounts. -/
def Account.IsInternal (a : Account) : Prop := a.ownerId = clearingOwner ∨ a.ownerId = fxPoolOwner

instance (a : Account) : Decidable a.IsInternal := inferInstanceAs (Decidable (_ ∨ _))

/-- No customer account is overdrawn. -/
def Books.Covered (b : Books) : Prop :=
  ∀ a ∈ b.accounts, ¬ a.IsInternal → 0 ≤ b.available a.id

/-! ## The entries that weigh on the available amount -/

/-- A settled entry of the account, or a debit reserved on it. -/
abbrev LedgerEntry.Weighs (accountId : Id) (e : LedgerEntry) : Prop :=
  e.accountId = accountId ∧ (e.status = .success ∨ e.status = .pending ∧ e.entryType = .debit)

/-- The sum of the entries that weigh on an account. -/
def weight (es : List LedgerEntry) (accountId : Id) : Decimal :=
  tally (LedgerEntry.Weighs accountId) LedgerEntry.amount es

theorem Books.available_eq_weight (b : Books) (accountId : Id) :
    b.available accountId = weight b.entries accountId := by
  rw [Books.available, weight, tally_split (q := fun e : LedgerEntry => e.status = .success)]
  congr 1
  · refine tally_congr (fun e _ => ?_) fun _ _ _ => rfl
    constructor
    · rintro ⟨ha, hs⟩
      exact ⟨⟨ha, .inl hs⟩, hs⟩
    · rintro ⟨⟨ha, _⟩, hs⟩
      exact ⟨ha, hs⟩
  · refine tally_congr (fun e _ => ?_) fun _ _ _ => rfl
    constructor
    · rintro ⟨ha, hp, ht⟩
      exact ⟨⟨ha, .inr ⟨hp, ht⟩⟩, by simp [hp]⟩
    · rintro ⟨⟨ha, hs | hs⟩, hns⟩
      · exact absurd hs hns
      · exact ⟨ha, hs⟩

theorem weight_append (es fs : List LedgerEntry) (a : Id) :
    weight (es ++ fs) a = weight es a + weight fs a := tally_append _ _ _ _

/-- Settled lines weigh on their accounts. -/
theorem Posted.weight {id : Id} {lines : List PostingLine} {es : List LedgerEntry}
    (hp : Posted id lines es) (hs : ∀ line ∈ lines, line.status = .success) (a : Id) :
    WalletLedger.weight es a =
      tally (fun line => line.accountId = a) PostingLine.amount lines := by
  rw [← hp.lines, tally_map]
  refine tally_congr (fun e he => ?_) fun _ _ _ => rfl
  have hstatus : e.status = .success := hs e.line (hp.lines ▸ List.mem_map_of_mem he)
  simp [LedgerEntry.Weighs, hstatus, LedgerEntry.line]

/-- A settled posting moves what is available by its lines. -/
theorem Books.available_posted {id : Id} {lines : List PostingLine} {es : List LedgerEntry}
    (he : b'.entries = b.entries ++ es) (hp : Posted id lines es)
    (hs : ∀ line ∈ lines, line.status = .success) (a : Id) :
    b'.available a =
      b.available a + tally (fun line => line.accountId = a) PostingLine.amount lines := by
  rw [available_eq_weight, available_eq_weight, he, weight_append, hp.weight hs]

/-- An account without a row has no entries. -/
theorem weight_eq_zero (hk : b.Keyed s) {a : Id} (ha : ∀ x ∈ b.accounts, x.id ≠ a) :
    weight b.entries a = 0 := by
  refine tally_eq_zero fun e he hw => ?_
  obtain ⟨x, hx, hid⟩ := hk.entryAccount e he
  exact absurd (hid.trans hw.1) (ha x hx)

/-- A reserved debit weighs the same when it is settled. -/
theorem Books.available_setEntry (hk : b.Keyed s) {debit : LedgerEntry} (hmem : debit ∈ b.entries)
    (hpending : debit.status = .pending) (htype : debit.entryType = .debit) (a : Id) :
    (b.setEntry debit.id .success).available a = b.available a := by
  have hflip := Books.tally_setEntry hk hmem .success (LedgerEntry.Weighs a)
  have hsame : (if LedgerEntry.Weighs a debit then debit.amount else 0) =
      if LedgerEntry.Weighs a { debit with status := .success } then debit.amount else 0 := by
    simp [LedgerEntry.Weighs, hpending, htype]
  rw [hsame] at hflip
  rw [available_eq_weight, available_eq_weight]
  exact add_right_cancel hflip

/-- Releasing what is pending of a transaction takes nothing away. -/
theorem Books.available_le_failed (hk : b.Keyed s) (hl : b.Linked) (id a : Id) :
    b.available a ≤
      (((b.entries.filter (LedgerEntry.isOf id .pending)).foldl
        (fun b e => b.setEntry e.id .failed) b).setTransaction id .failed).available a := by
  rw [available_eq_weight, available_eq_weight, setTransaction, Write.applyBooks,
    failed_entries hk, weight, weight, tally_map]
  refine tally_le_tally fun e he => ?_
  have hneg : e.entryType = .debit → e.amount ≤ 0 := (hl.entries e he).debit
  by_cases hof : e.isOf id .pending = true
  · have hpend : e.status = .pending := (of_decide_eq_true hof).2
    simp only [hof, if_true, LedgerEntry.Weighs, hpend]
    by_cases htype : e.entryType = .debit
    · simp only [htype, reduceCtorEq, and_false, and_true, false_or, if_false, or_false]
      split
      · exact hneg htype
      · exact le_rfl
    · simp [htype]
  · simp only [hof]
    exact le_rfl

/-! ## The funds check -/

/-- With exact snapshots, the available balance is the available amount. -/
theorem Books.SnapshotsExact.available (h : b.SnapshotsExact) (hk : b.Keyed s) (hl : b.Linked)
    {a : Account} (ha : a ∈ b.accounts) {m : Money} (hm : b.availableBalance a = .ok m) :
    m.amount = b.available a.id := by
  unfold Books.availableBalance at hm
  rw [h.balance hk] at hm
  cases hset : Money.make (b.settled a.id) a.currency with
  | error e =>
    rw [hset] at hm
    cases hm
  | ok settled =>
    rw [hset] at hm
    have hamount := Money.amount_of_make (hl.settled_mem_grid hk ha) hset
    have hreserved : b.sumEntries a.id 0 [.pending] (some .debit) = b.reserved a.id :=
      sumEntries_reserved fun e he => (hk.seqs_lt e he).1
    have hmake : Money.make (settled.amount + b.sumEntries a.id 0 [.pending] (some .debit))
        a.currency = .ok m := hm
    rw [hamount, hreserved] at hmake
    refine Money.amount_of_make ?_ hmake
    exact (Decimal.grid _).add_mem (hl.settled_mem_grid hk ha)
      (hl.mem_grid hk ha _ fun _ he => he.1)

/-- A debit the check lets pass is covered by the available amount. -/
theorem DebitCheck.le_available {senderId receiverId : Id} {amount : Decimal}
    (k : DebitCheck b senderId receiverId amount) (h : b.SnapshotsExact) (hk : b.Keyed s)
    (hl : b.Linked) : k.money.amount ≤ b.available k.sender.id :=
  h.available hk hl k.sender_mem k.available_eq ▸ k.covered

/-- What was not overdrawn covers the debit. -/
theorem DebitCheck.covers {senderId receiverId : Id} {amount : Decimal}
    (k : DebitCheck b senderId receiverId amount) (h : b.SnapshotsExact) (hk : b.Keyed s)
    (hl : b.Linked) {a : Id} (ha : 0 ≤ b.available a) :
    0 ≤ b.available a + if k.sender.id = a then -|k.money.amount| else 0 := by
  have hfunds := k.le_available h hk hl
  have hpos := k.positive
  split
  · rename_i hsender
    rw [hsender] at hfunds
    rw [abs_of_pos hpos]
    linarith
  · rwa [add_zero]

/-- A credit takes nothing away. -/
theorem credit_nonneg (p : Prop) [Decidable p] (m : Money) : 0 ≤ if p then |m.amount| else 0 := by
  split
  · exact abs_nonneg _
  · exact le_rfl

/-! ## Reversals -/

/-- What a reversal takes back from a customer is still available there. -/
def Operation.ReversesCovered (b : Books) : Operation → Prop
  | .reverse transactionId _ =>
      ∀ t ∈ b.transactions, t.id = transactionId → t.status = .success → t.type ≠ .reversal →
        ∀ a ∈ b.accounts, ¬ a.IsInternal →
          tally (fun e => e.isOf transactionId .success = true ∧ e.accountId = a.id)
            LedgerEntry.amount b.entries ≤ b.available a.id
  | _ => True

/-! ## The effects -/

theorem Opened.customer {ownerId currency : String} {x a : Account}
    (h : Opened ownerId currency b x b₁) (hi : x.IsInternal) (ha : a ∈ b₁.accounts)
    (hc : ¬ a.IsInternal) : a ∈ b.accounts := by
  cases h with
  | found _ => exact ha
  | created _ =>
    rcases List.mem_append.1 ha with ha | ha
    · exact ha
    · exact absurd (List.mem_singleton.1 ha ▸ hi) hc

/-- An internal account is no customer's. -/
theorem Account.IsInternal.id_ne {l : List Account} {x a : Account} (hi : x.IsInternal)
    (hids : (l.map Account.id).Nodup) (hx : x ∈ l) (ha : a ∈ l) (hc : ¬ a.IsInternal) :
    x.id ≠ a.id := fun hid => hc (eq_of_key_eq hids hx ha hid ▸ hi)

theorem Books.Covered.createAccount {ownerId currency : String} (h : b.Covered) (hk : b.Keyed s)
    (hk' : b'.Keyed s') (he : Effect cfg b (.createAccount ownerId currency) b') :
    b'.Covered := by
  have hids' := hk'.accountIds
  cases he with
  | createAccount x owner code new =>
    intro a ha hc
    rw [Books.available_eq_weight]
    rcases List.mem_append.1 ha with ha | ha
    · exact Books.available_eq_weight b a.id ▸ h a ha hc
    · obtain rfl := List.mem_singleton.1 ha
      rw [weight_eq_zero hk fun y hy hid => ?_]
      rw [List.map_append, List.nodup_append] at hids'
      exact hids'.2.2 _ (List.mem_map_of_mem hy) a.id (by simp) hid

theorem Books.Covered.settle {reference : String} {confirmedAmount : Option Decimal}
    {confirmedCurrency : Option String} (h : b.Covered) (hk' : b'.Keyed s')
    (he : Effect cfg b (.settle reference confirmedAmount confirmedCurrency) b') :
    b'.Covered := by
  have hids' := hk'.accountIds
  cases he with
  | settle t authorized account clearing b₁ _ es found pending authorized_eq reconciled account_id
      account_mem owner code opened posted cuts =>
    intro a ha hc
    have hi : clearing.IsInternal := .inl owner
    rw [cuts.rest.1] at ha hids'
    have hne := hi.id_ne hids' opened.mem ha hc
    have hold := h a (opened.customer hi ha hc) hc
    have hentries : b'.entries = b.entries ++ es := by
      rw [cuts.rest.2.2]
      exact congrArg (· ++ es) opened.rest.2.1
    rw [Books.available_posted hentries posted (by simp)]
    have hcredit := credit_nonneg (account.id = a.id) authorized
    simp only [tally_cons, tally_nil, hne, if_false, zero_add, add_zero]
    linarith

theorem Books.Covered.execute {senderId receiverId : Id} {amount : Decimal}
    {correlationId : Option String} (h : b.Covered) (hx : b.SnapshotsExact) (hk : b.Keyed s)
    (hl : b.Linked) (he : Effect cfg b (.execute senderId receiverId amount correlationId) b') :
    b'.Covered := by
  cases he with
  | execute k t es _ records posted cuts =>
    intro a ha hc
    rw [cuts.rest.1] at ha
    have hdebit := k.covers hx hk hl (h a ha hc)
    have hcredit := credit_nonneg (k.receiver.id = a.id) k.money
    have hentries : b'.entries = b.entries ++ es := cuts.rest.2.2
    rw [Books.available_posted hentries posted (by simp)]
    simp only [tally_cons, tally_nil, add_zero]
    linarith

theorem Books.Covered.initiate {senderId receiverId : Id} {amount : Decimal}
    {correlationId : Option String} (h : b.Covered) (hx : b.SnapshotsExact) (hk : b.Keyed s)
    (hl : b.Linked) (he : Effect cfg b (.initiate senderId receiverId amount correlationId) b') :
    b'.Covered := by
  cases he with
  | initiate k t e records line transaction =>
    intro a ha hc
    have hdebit := k.covers hx hk hl (h a ha hc)
    have hentries : ((b.addTransaction t).addEntries [e]).entries = b.entries ++ [e] := rfl
    have hreserved : weight [e] a.id = if k.sender.id = a.id then -|k.money.amount| else 0 := by
      have haccount : e.accountId = k.sender.id := congrArg PostingLine.accountId line
      have hamount : e.amount = -|k.money.amount| := congrArg PostingLine.amount line
      have hpending : e.status = .pending := congrArg PostingLine.status line
      have htype : e.entryType = .debit := congrArg PostingLine.entryType line
      simp [weight, LedgerEntry.Weighs, haccount, hamount, hpending, htype]
    rw [Books.available_eq_weight] at hdebit ⊢
    rw [hentries, weight_append, hreserved]
    exact hdebit

/-- The reserved debit weighs as before, and the credit adds to what there is. -/
theorem Books.Covered.commit {transactionId : Id} (h : b.Covered) (hk : b.Keyed s)
    (he : Effect cfg b (.commit transactionId) b') : b'.Covered := by
  cases he with
  | commit t money debit credit sender receiver _ found pending money_eq approved reserved
      sender_mem sender_id receiver_id receiver_mem line transaction balanced cuts =>
    intro a ha hc
    rw [cuts.rest.1] at ha
    have hold := h a ha hc
    have hmem := List.mem_of_find?_eq_some reserved
    have hdebit := List.find?_some reserved
    simp only [LedgerEntry.isOf, decide_eq_true_eq] at hdebit
    rw [← Books.available_setEntry hk hmem hdebit.1.2 hdebit.2, Books.available_eq_weight] at hold
    have hentries : b'.entries = (b.setEntry debit.id .success).entries ++ [credit] :=
      cuts.rest.2.2
    have hcredit : credit.amount = |money.amount| := congrArg PostingLine.amount line
    have hpos := credit_nonneg (LedgerEntry.Weighs a.id credit) money
    have hweight : weight [credit] a.id =
        if LedgerEntry.Weighs a.id credit then |money.amount| else 0 := by
      rw [weight, tally_cons, tally_nil, add_zero, hcredit]
    rw [Books.available_eq_weight, hentries, weight_append, hweight]
    linarith

theorem Books.Covered.executeFxTransfer {rates : RateTable} {senderId receiverId : Id}
    {amount : Decimal} {correlationId : Option String} (h : b.Covered) (hx : b.SnapshotsExact)
    (hk : b.Keyed s) (hk' : b'.Keyed s') (hl : b.Linked)
    (he : Effect cfg b (.executeFxTransfer rates senderId receiverId amount correlationId) b') :
    b'.Covered := by
  have hids' := hk'.accountIds
  cases he with
  | executeFxTransfer k received poolFrom poolTo b₁ b₂ _ t es exchange received_eq owner_from
      code_from opened_from owner_to code_to opened_to records posted cuts =>
    intro a ha hc
    have hif : poolFrom.IsInternal := .inr owner_from
    have hit : poolTo.IsInternal := .inr owner_to
    rw [cuts.rest.1] at ha hids'
    have ha₂ : a ∈ b₂.accounts := ha
    have ha₁ := opened_to.customer hit ha₂ hc
    have hne_from := hif.id_ne hids' (opened_to.subset opened_from.mem) ha₂ hc
    have hne_to := hit.id_ne hids' opened_to.mem ha₂ hc
    have hdebit := k.covers hx hk hl (h a (opened_from.customer hif ha₁ hc) hc)
    have hcredit := credit_nonneg (k.receiver.id = a.id) received
    have hentries : b'.entries = b.entries ++ es := by
      rw [cuts.rest.2.2]
      exact congrArg (· ++ es) (opened_to.rest.2.1.trans opened_from.rest.2.1)
    rw [Books.available_posted hentries posted (by simp)]
    simp only [tally_cons, tally_nil, hne_from, hne_to, if_false, zero_add, add_zero]
    linarith

/-- What is taken back is still there. -/
theorem Books.covered_reverse {transactionId : Id} {correlationId : Option String} (hl : b.Linked)
    (hop : (Operation.reverse transactionId correlationId).ReversesCovered b)
    (he : Effect cfg b (.reverse transactionId correlationId) b') : b'.Covered := by
  cases he with
  | reverse t reversal lines es _ found success original records mirrored balanced posted cuts =>
    intro a ha hc
    rw [cuts.rest.1] at ha
    obtain ⟨ht, hid⟩ := transaction_of_find found
    have hback := hop t ht hid success original a ha hc
    have hlines : ∀ line ∈ lines, line.status = .success := fun line hline =>
      (exists_of_mirrored mirrored hline).choose_spec.2.status
    have horiginals : ∀ e ∈ b.entries.filter (LedgerEntry.isOf t.id .success), LineOk b e.line :=
      fun e he => hl.entries e (List.mem_of_mem_filter he)
    have hentries : b'.entries = b.entries ++ es := cuts.rest.2.2
    rw [Books.available_posted hentries posted hlines,
      tally_mirrored (fun x _ => x = a.id) mirrored hl horiginals]
    have hsum : tally (fun e => e.accountId = a.id) LedgerEntry.amount
        (b.entries.filter (LedgerEntry.isOf t.id .success)) =
        tally (fun e => e.isOf t.id .success = true ∧ e.accountId = a.id) LedgerEntry.amount
          b.entries := tally_filter _
    rw [hsum, hid]
    linarith

theorem Effect.covered {op : Operation} (hk : b.Keyed s) (hk' : b'.Keyed s') (hl : b.Linked)
    (hx : b.SnapshotsExact) (h : b.Covered) (he : Effect cfg b op b')
    (hop : op.ReversesCovered b) : b'.Covered := by
  cases op with
  | createAccount ownerId currency => exact h.createAccount hk hk' he
  | initiateDeposit accountId amount provider context correlationId =>
    cases he with
    | initiateDeposit account money t reference => exact h
  | settle reference confirmedAmount confirmedCurrency => exact h.settle hk' he
  | execute senderId receiverId amount correlationId => exact h.execute hx hk hl he
  | initiate senderId receiverId amount correlationId => exact h.initiate hx hk hl he
  | commit transactionId => exact h.commit hk he
  | fail transactionId =>
    cases he with
    | fail t found pending =>
      intro a ha hc
      have haccounts : a ∈ b.accounts := (Books.setEntries_rest _ .failed b).1 ▸ ha
      exact (h a haccounts hc).trans (Books.available_le_failed hk hl t.id a.id)
  | executeFxTransfer rates senderId receiverId amount correlationId =>
    exact h.executeFxTransfer hx hk hk' hl he
  | reverse transactionId correlationId => exact Books.covered_reverse hl hop he

/-! ## Runs -/

/-- Alice sends 50 to Bob, who passes them on to Carol before the transfer is reversed. -/
def lateReversal : List Operation :=
  [.createAccount "alice" "EUR", .createAccount "bob" "EUR", .createAccount "carol" "EUR",
    .initiateDeposit 0 100 "stripe" ⟨none, none⟩ (some "c1"), .settle "3" none none,
    .execute 0 1 50 (some "c2"), .execute 1 2 50 (some "c3"), .reverse 7 (some "c4")]

instance (b : Books) : (op : Operation) → Decidable (op.ReversesCovered b)
  | .reverse transactionId _ =>
      inferInstanceAs (Decidable (∀ t ∈ b.transactions, t.id = transactionId →
        t.status = .success → t.type ≠ .reversal → ∀ a ∈ b.accounts, ¬ a.IsInternal →
        tally (fun e => e.isOf transactionId .success = true ∧ e.accountId = a.id)
          LedgerEntry.amount b.entries ≤ b.available a.id))
  | .createAccount _ _ => isTrue trivial
  | .initiateDeposit _ _ _ _ _ => isTrue trivial
  | .settle _ _ _ => isTrue trivial
  | .execute _ _ _ _ => isTrue trivial
  | .initiate _ _ _ _ => isTrue trivial
  | .commit _ => isTrue trivial
  | .fail _ => isTrue trivial
  | .executeFxTransfer _ _ _ _ _ => isTrue trivial

end WalletLedger
