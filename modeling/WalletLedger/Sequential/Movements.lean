import WalletLedger.Sequential.Deltas
import WalletLedger.Sequential.Webhooks
import WalletLedger.Application.Conversions

/-!
# What a single-phase operation moves

An operation that writes its entries settled changes the balances by these entries, and
nothing else, whatever snapshots there are and whatever snapshots it cuts.

* `Books.Graded` — the sums a balance is read from have the precision of its currency.
* `Movement` — the lines of a transfer, a settlement, an exchange or a reversal.
* `balances_move` — balances before and after such an operation.
-/

namespace WalletLedger

variable {cfg : Config} {b b₁ b' : Books} {s s' : Sequences}

/-! ## The precision of what is read -/

/-- The balances of the snapshots have the precision of their account's currency. -/
def Books.Graded (b : Books) : Prop :=
  ∀ x ∈ b.snapshots, ∃ a ∈ b.accounts, a.id = x.accountId ∧
    x.balance ∈ Decimal.grid (decimalsFor a.currency)

/-- The entries do. -/
def Books.EntriesGraded (b : Books) : Prop :=
  ∀ e ∈ b.entries, ∃ a ∈ b.accounts, a.id = e.accountId ∧
    e.amount ∈ Decimal.grid (decimalsFor a.currency)

theorem Books.Linked.entriesGraded (h : b.Linked) : b.EntriesGraded := by
  intro e he
  obtain ⟨a, ha, hid, hcur⟩ := (h.entries e he).account
  exact ⟨a, ha, hid, hcur ▸ (h.entries e he).amount⟩

namespace Books

theorem Graded.mono (h : b.Graded) (hs : b'.snapshots = b.snapshots)
    (ha : ∀ a ∈ b.accounts, a ∈ b'.accounts) : b'.Graded := by
  intro x hx
  rw [hs] at hx
  obtain ⟨a, hmem, hid, hgrid⟩ := h x hx
  exact ⟨a, ha a hmem, hid, hgrid⟩

/-- The entries of an account, in its precision. -/
theorem EntriesGraded.sum_mem (h : b.EntriesGraded) (hids : (b.accounts.map Account.id).Nodup)
    {a : Account} (ha : a ∈ b.accounts) (p : LedgerEntry → Prop) [DecidablePred p]
    (hp : ∀ e, p e → e.accountId = a.id) :
    tally p LedgerEntry.amount b.entries ∈ Decimal.grid (decimalsFor a.currency) := by
  refine tally_mem (s := (Decimal.grid (decimalsFor a.currency)).toAddSubmonoid) fun e he hpe => ?_
  obtain ⟨x, hx, hid, hgrid⟩ := h e he
  obtain rfl : x = a := eq_of_key_eq hids hx ha (hid.trans (hp e hpe))
  exact hgrid

/-- What a balance reads is at the precision of its currency. -/
theorem Graded.read_mem (h : b.Graded) (he : b.EntriesGraded)
    (hids : (b.accounts.map Account.id).Nodup) {a : Account} (ha : a ∈ b.accounts) :
    b.read a.id ∈ Decimal.grid (decimalsFor a.currency) := by
  refine (Decimal.grid _).add_mem ?_ ?_
  · cases hl : b.latestSnapshot a.id with
    | none => exact (Decimal.grid _).zero_mem
    | some x =>
      obtain ⟨hx, hxa⟩ := latestSnapshot_mem hl
      obtain ⟨y, hy, hid, hgrid⟩ := h x hx
      obtain rfl : y = a := eq_of_key_eq hids hy ha (hid.trans hxa)
      exact hgrid
  · exact he.sum_mem hids ha _ fun e hp => hp.1

end Books

/-- A snapshot that is cut holds what was read. -/
theorem Cut.graded {a : Id} (hcut : Cut cfg a b b') (h : b.Graded) (he : b.EntriesGraded)
    (hids : (b.accounts.map Account.id).Nodup) (hread : ∀ a, b.read a ∈ Decimal.grid 8) :
    b'.Graded := by
  cases hcut with
  | skip _ => exact h
  | cut x last haccount hlast hseq hstored =>
    intro y hy
    rcases List.mem_append.1 hy with hy | hy
    · exact h y hy
    · rw [List.mem_singleton.1 hy]
      have hmem := mem_settledAfter.1 (List.mem_of_getLast? hlast)
      obtain ⟨account, haccount', hid, -⟩ := he last hmem.1
      refine ⟨account, haccount', hid.trans (hmem.2.1.1.trans haccount.symm), ?_⟩
      rw [sum_settledAfter] at hstored
      have hgrid := hread a
      rw [Books.read, sumEntries_settled] at hgrid
      rw [Decimal.eq_of_storeNumeric le_rfl hgrid hstored]
      have haccount_id : account.id = a := hid.trans hmem.2.1.1
      have hown := h.read_mem he hids haccount'
      rw [haccount_id, Books.read, sumEntries_settled] at hown
      exact hown

theorem Cuts.graded {as : List Id} (hcuts : Cuts cfg as b b') (h : b.Graded)
    (he : b.EntriesGraded) (hs : b.Scaled) (hk : b.Keyed s) : b'.Graded := by
  induction hcuts with
  | nil b => exact h
  | cons hcut hcuts ih =>
    obtain ⟨haccounts, -, hentries⟩ := hcut.rest
    refine ih (hcut.graded h he hk.accountIds (Books.read_mem_grid hs hk)) ?_ (hcut.scaled hs)
      (hcut.keyed hk)
    unfold Books.EntriesGraded
    rw [haccounts, hentries]
    exact he

/-- Every effect leaves the snapshots at the precision of their accounts. -/
theorem Effect.graded {op : Operation} (hk : b.Keyed s) (hk' : b'.Keyed s') (hs : b.Scaled)
    (hl' : b'.Linked) (h : b.Graded) (he : Effect cfg b op b') : b'.Graded := by
  obtain ⟨as, b₁, hcuts, hstaged⟩ := he.staged hk
  obtain ⟨haccounts, htransactions, hentries⟩ := hcuts.rest
  have hl₁ : b₁.Linked := hl'.congr haccounts.symm htransactions.symm hentries.symm
  have hs₁ : b₁.Scaled := hs.congr hstaged.snapshots
  exact hcuts.graded (h.mono hstaged.snapshots hstaged.accounts) hl₁.entriesGraded hs₁
    (hk'.congr haccounts.symm htransactions.symm hentries.symm)

/-- The state every run keeps, and what balances need. -/
structure Store.Measured (cfg : Config) (s : Store) : Prop extends s.Sound where
  scaled : s.db.books.Scaled
  graded : s.db.books.Graded
  charged : s.db.books.Charged cfg

theorem measured_of_run {C : Operation → Store → Prop} {st : Store}
    (h : Run (Operation.run cfg) C Store.empty st) : st.Measured cfg := by
  refine h.invariant (I := Store.Measured cfg) ?_ fun op st hs _ => ?_
  · exact { Store.sound_empty with
      scaled := by simp [Books.Scaled, Store.empty, Database.empty]
      graded := by simp [Books.Graded, Store.empty, Database.empty]
      charged := by simp [Books.Charged, Store.empty, Database.empty] }
  · have hsound : (op.run cfg st).Sound := hs.toSound.run op
    refine ⟨hsound, ?_, ?_, ?_⟩
    · exact hs.scaled.run (op.program cfg)
    · exact op.run_keeps (I := Books.Graded) hs.keyed hs.graded fun he =>
        he.graded hs.keyed hsound.keyed hs.scaled hsound.linked hs.graded
    · exact op.run_keeps (I := Books.Charged cfg) hs.keyed hs.charged fun he =>
        he.charged hsound.keyed hs.charged

/-! ## What an operation moves -/

/-- The amounts a single-phase operation moves, in the order it writes them. -/
inductive Movement (b b' : Books) : Operation → List (Id × Decimal) → Prop
  | execute {senderId receiverId : Id} {amount : Decimal} {correlationId : Option String}
      (sender : Account) (money : Money) (sender_mem : sender ∈ b.accounts)
      (sender_id : sender.id = senderId)
      (money_eq : Money.make amount sender.currency = .ok money) (positive : 0 < money.amount) :
      Movement b b' (.execute senderId receiverId amount correlationId)
        [(senderId, -money.amount), (receiverId, money.amount)]
  | settle {reference : String} {confirmedAmount : Option Decimal}
      {confirmedCurrency : Option String} (t : Transaction) (clearing : Account) (accountId : Id)
      (found : b.transactions.find? (fun t => t.reference = some reference) = some t)
      (account_id : t.details.accountId = .ok accountId) (positive : 0 < t.amount)
      (clearing_mem : clearing ∈ b'.accounts) (owner : clearing.ownerId = clearingOwner)
      (code : clearing.currency = t.currency) :
      Movement b b' (.settle reference confirmedAmount confirmedCurrency)
        [(clearing.id, -t.amount), (accountId, t.amount)]
  /-- At rates that are not negative, what is received is not. -/
  | executeFxTransfer {rates : RateTable} {senderId receiverId : Id} {amount : Decimal}
      {correlationId : Option String} (sender receiver poolFrom poolTo : Account)
      (sent received : Money) (sender_mem : sender ∈ b.accounts) (sender_id : sender.id = senderId)
      (receiver_mem : receiver ∈ b.accounts) (receiver_id : receiver.id = receiverId)
      (sent_eq : Money.make amount sender.currency = .ok sent) (positive : 0 < sent.amount)
      (received_eq : FxService.convert rates sent receiver.currency = .ok received)
      (nonneg : (∀ rate ∈ rates, 0 ≤ rate.2) → 0 ≤ received.amount)
      (pool_from : poolFrom ∈ b'.accounts ∧ poolFrom.ownerId = fxPoolOwner ∧
        poolFrom.currency = sender.currency)
      (pool_to : poolTo ∈ b'.accounts ∧ poolTo.ownerId = fxPoolOwner ∧
        poolTo.currency = receiver.currency) :
      Movement b b' (.executeFxTransfer rates senderId receiverId amount correlationId)
        [(senderId, -sent.amount), (poolFrom.id, sent.amount), (poolTo.id, -|received.amount|),
          (receiverId, |received.amount|)]
  | reverse {transactionId : Id} {correlationId : Option String} :
      Movement b b' (.reverse transactionId correlationId)
        ((b.entries.filter (LedgerEntry.isOf transactionId .success)).map fun e =>
          (e.accountId, -e.amount))

/-- The entries that record these amounts, settled and in this order. -/
structure Recorded (b b' : Books) (moves : List (Id × Decimal)) (es : List LedgerEntry) : Prop where
  entries : b'.entries = b.entries ++ es
  moves : es.map (fun e => (e.accountId, e.amount)) = moves
  settled : ∀ e ∈ es, e.status = .success
  read : ∀ a, b'.read a = b.read a + tally (fun e => e.accountId = a) LedgerEntry.amount es

/-- Lines that are posted settled, and the snapshots cut then. -/
theorem Posted.recorded {id : Id} {lines : List PostingLine} {es : List LedgerEntry}
    {as : List Id} (hp : Posted id lines es) (hs : ∀ line ∈ lines, line.status = .success)
    (h : b.Readable s) (hk' : b'.Keyed s') (hcuts : Cuts cfg as b₁ b')
    (he : b₁.entries = b.entries ++ es) (hsnap : b₁.snapshots = b.snapshots) :
    Recorded b b' (lines.map fun line => (line.accountId, line.amount)) es where
  entries := hcuts.rest.2.2.trans he
  moves := by rw [← hp.lines, List.map_map]; rfl
  settled e hmem := hs e.line (hp.lines ▸ List.mem_map_of_mem hmem)
  read a := by
    rw [hcuts.read_posted b es hk' h.cursors h.scaled he hsnap]
    congr 1
    refine tally_congr (fun e hmem => ?_) fun _ _ _ => rfl
    have hstatus : e.status = .success := hs e.line (hp.lines ▸ List.mem_map_of_mem hmem)
    simp [hstatus]

/-- The operations that settle what they write. -/
def Operation.IsSinglePhase : Operation → Prop
  | .execute _ _ _ _ => True
  | .settle _ _ _ => True
  | .executeFxTransfer _ _ _ _ _ => True
  | .reverse _ _ => True
  | _ => False

/-- The mirrored lines take back what the entries have moved. -/
theorem map_mirrored {es : List LedgerEntry} {lines : List PostingLine}
    (h : List.Forall₂ MirrorLine es lines) (hes : ∀ e ∈ es, LineOk b e.line) :
    lines.map (fun line => (line.accountId, line.amount)) =
      es.map fun e => (e.accountId, -e.amount) := by
  induction h with
  | nil => rfl
  | cons hm _ ih =>
    obtain ⟨hacc, hamount⟩ := hm.amount_eq (hes _ (by simp))
    rw [List.map_cons, List.map_cons, ih fun e he => hes e (by simp [he]), hacc, hamount]

/-- What a single-phase operation records is its movement. -/
theorem Effect.recorded {op : Operation} (h : b.Readable s) (hk' : b'.Keyed s')
    (hcharged : b.Charged cfg) (hop : op.IsSinglePhase) (he : Effect cfg b op b') :
    ∃ moves es, Movement b b' op moves ∧ Recorded b b' moves es := by
  cases he with
  | createAccount a owner code new => exact hop.elim
  | initiateDeposit account money t reference account_mem account_id money_eq positive records =>
    exact hop.elim
  | initiate k t e records line transaction => exact hop.elim
  | commit t money debit credit sender receiver _ found pending money_eq approved reserved
      sender_mem sender_id receiver_id receiver_mem line transaction balanced cuts => exact hop.elim
  | fail t found pending => exact hop.elim
  | settle t authorized account clearing b₁ _ es found pending authorized_eq reconciled account_id
      account_mem owner code opened posted cuts =>
    have ht := List.mem_of_find?_eq_some found
    have hamount : authorized.amount = t.amount := h.linked.amount_of_make ht authorized_eq
    obtain ⟨provider, context, hdetails⟩ : ∃ provider context,
        t.details = .deposit provider account.id context := by
      cases hd : t.details <;> rw [hd] at account_id <;> cases account_id
      exact ⟨_, _, rfl⟩
    have hpos := (hcharged t ht _ _ _ hdetails).positive
    have hcur : account.currency = t.currency :=
      h.linked.currency_of_names h.keyed ht pending account_mem (.inl account_id)
    have hrecorded := posted.recorded (by simp) h hk' cuts
      (by rw [← opened.rest.2.1]; rfl) opened.rest.2.2
    simp only [List.map_cons, List.map_nil, hamount, abs_of_pos hpos] at hrecorded
    refine ⟨_, es, .settle t clearing account.id found account_id hpos ?_ owner ?_, hrecorded⟩
    · exact cuts.rest.1 ▸ opened.mem
    · rw [code, h.linked.codes account account_mem, hcur]
  | execute k t es _ records posted cuts =>
    have hrecorded := posted.recorded (by simp) h hk' cuts rfl rfl
    simp only [List.map_cons, List.map_nil, abs_of_pos k.positive, k.sender_id,
      k.receiver_id] at hrecorded
    exact ⟨_, es, .execute k.sender k.money k.sender_mem k.sender_id k.money_eq k.positive,
      hrecorded⟩
  | executeFxTransfer k received poolFrom poolTo b₁ b₂ _ t es exchange received_eq owner_from
      code_from opened_from owner_to code_to opened_to records posted cuts =>
    have hrecorded := posted.recorded (by simp) h hk' cuts
      (by rw [← opened_from.rest.2.1, ← opened_to.rest.2.1]; rfl)
      (opened_to.rest.2.2.trans opened_from.rest.2.2)
    simp only [List.map_cons, List.map_nil, abs_of_pos k.positive, k.sender_id,
      k.receiver_id] at hrecorded
    refine ⟨_, es, .executeFxTransfer k.sender k.receiver poolFrom poolTo k.money received
      k.sender_mem k.sender_id k.receiver_mem k.receiver_id k.money_eq k.positive received_eq
      (fun hrates => convert_nonneg hrates k.positive.le received_eq) ⟨?_, owner_from, ?_⟩
      ⟨?_, owner_to, ?_⟩, hrecorded⟩
    · exact cuts.rest.1 ▸ opened_to.subset opened_from.mem
    · rw [code_from, h.linked.codes _ k.sender_mem]
    · exact cuts.rest.1 ▸ opened_to.mem
    · rw [code_to, h.linked.codes _ k.receiver_mem]
  | reverse t reversal lines es _ found success original records mirrored balanced posted cuts =>
    obtain ⟨ht, rfl⟩ := transaction_of_find found
    have hstatus : ∀ line ∈ lines, line.status = .success := fun line hline =>
      (exists_of_mirrored mirrored hline).choose_spec.2.status
    have hrecorded := posted.recorded hstatus h hk' cuts rfl rfl
    rw [map_mirrored mirrored fun e he => h.linked.entries e (List.mem_of_mem_filter he)]
      at hrecorded
    exact ⟨_, es, .reverse, hrecorded⟩

/-! ## Balances before and after -/

namespace Recorded

variable {moves : List (Id × Decimal)} {es : List LedgerEntry}

/-- What an account has been given, in its precision. -/
theorem change_mem (h : Recorded b b' moves es) (he : b'.EntriesGraded)
    (hids : (b'.accounts.map Account.id).Nodup) {a : Account} (ha : a ∈ b'.accounts) :
    tally (fun e => e.accountId = a.id) LedgerEntry.amount es ∈
      Decimal.grid (decimalsFor a.currency) := by
  refine tally_mem (s := (Decimal.grid (decimalsFor a.currency)).toAddSubmonoid) fun e hmem hp => ?_
  obtain ⟨x, hx, hid, hgrid⟩ := he e (h.entries ▸ List.mem_append_right _ hmem)
  obtain rfl : x = a := eq_of_key_eq hids hx ha (hid.trans hp)
  exact hgrid

theorem reserved (h : Recorded b b' moves es) (a : Id) :
    b'.sumEntries a 0 [.pending] (some .debit) = b.sumEntries a 0 [.pending] (some .debit) := by
  unfold Books.sumEntries
  rw [h.entries, tally_append, add_eq_left]
  refine tally_eq_zero fun e he hp => ?_
  rw [h.settled e he] at hp
  simp at hp

end Recorded

end WalletLedger
