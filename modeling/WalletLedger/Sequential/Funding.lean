import WalletLedger.Sequential.Movements
import WalletLedger.Sequential.Postings
import WalletLedger.Application.Seeds

/-!
# The operator funds an account

Whatever goes through `Money` is at the precision of its currency.  The fund command hands the
ledger the operator's amount as it is, and the columns keep eight decimals of it.

* `Command` — the operations of the services, and the fund command.
* `Funded` — what the command does to the books.
* `amounts_exact_of_run` — while the amounts that are funded have the precision of their
  account's currency, rounding changes nothing; `fund_makes_money` is the run without.
-/

namespace WalletLedger

variable {cfg : Config} {b b₁ b' : Books} {s s' : Sequences}

/-! ## Commands -/

/-- What the clients of the services and the operator run. -/
inductive Command where
  | service (op : Operation)
  | fund (number : String) (amount : Decimal)

namespace Command

def program (cfg : Config) : Command → App Unit
  | service op => op.program cfg
  | fund number amount => (fun _ => ()) <$> Seeds.fundAccount number amount

/-- A command alone on the store. -/
def run (cfg : Config) (command : Command) (s : Store) : Store :=
  (Program.run (Conn.exec cfg) (command.program cfg) ⟨s, Session.fresh⟩).2.store

end Command

/-! ## What funding does -/

/-- The lines of a fund, as the columns keep them. -/
def fundLines (clearingId accountId : Id) (amount : Decimal) (currency : String) :
    List PostingLine :=
  [LedgerEntry.debit clearingId amount currency, LedgerEntry.credit accountId amount currency].map
    PostingLine.store

/-- The effect of the command on the books. -/
inductive Funded (b : Books) (number : String) (amount : Decimal) : Books → Prop
  | mk (account clearing : Account) (b₁ : Books) (t : Transaction) (es : List LedgerEntry)
      (account_mem : account ∈ b.accounts) (account_number : account.number = number)
      (code : clearing.currency = account.currency.toUpper)
      (opened : Opened clearingOwner account.currency.toUpper b clearing b₁)
      (stored : Decimal.storeNumeric 28 8 amount = some t.amount)
      (settled : t.status = .success) (currency : t.currency = account.currency)
      (posted : Posted t.id (fundLines clearing.id account.id amount account.currency) es) :
      Funded b number amount ((b₁.addTransaction t).addEntries es)

theorem getByNumber_ok {number : String} {a : Account}
    (h : Returns cfg (AccountService.getByNumber number) b a b') :
    b' = b ∧ a ∈ b.accounts ∧ a.number = number := by
  obtain ⟨found, b₁, h₁, h₂⟩ := returns_bind h
  obtain ⟨rfl, keys, trail, hq⟩ := returns_select h₁
  obtain ⟨rfl, hsome⟩ := returns_ofOption h₂
  rw [hq] at hsome
  exact ⟨rfl, List.mem_of_find?_eq_some hsome, by simpa using List.find?_some hsome⟩

theorem quiet_postEntries (entries : List (PostingLine × Id)) :
    Quiet (LedgerService.postEntries entries) :=
  (quiet_ofExcept _).bind fun _ => .forEach fun _ => quiet_mutate _

theorem fund_effect {number : String} {amount : Decimal} :
    Commits cfg (Funded b number amount) (Seeds.fundAccount number amount) b := by
  refine .bind ((quiet_select _).bind fun _ => quiet_ofOption _ _) fun account b₁ h₁ => ?_
  obtain ⟨rfl, ha, hnumber⟩ := getByNumber_ok h₁
  unfold Seeds.fund
  simp only [Program.bind_assoc]
  refine .bind (quiet_getOrCreateInternal _ _) fun clearing b₂ h₂ => ?_
  obtain ⟨⟨-, hcode⟩, hopened⟩ := getOrCreateInternal_ok h₂
  refine .bind (quiet_mutate _) fun t b₃ h₃ => ?_
  obtain ⟨seqs, db, w, rfl, hm, rfl⟩ := returns_mutate h₃
  obtain ⟨stored, hs, rfl, rfl⟩ := Mutation.exec_insertTransaction hm
  refine .bind (quiet_postEntries _) fun _ b₄ h₄ => ?_
  obtain ⟨_, b₅, h₅, h₆⟩ := returns_bind h₄
  obtain ⟨rfl, -⟩ := returns_ofExcept h₅
  -- both entries carry the identifier of the new transaction
  have hlines : Returns cfg
      (Program.forEach
        [LedgerEntry.debit clearing.id amount account.currency,
          LedgerEntry.credit account.id amount account.currency] fun line =>
        ask (.mutate (.insertEntry line.accountId seqs.nextId line.amount line.entryType line.status
          line.currency))) _ _ b₄ := h₆
  obtain ⟨es, hes, rfl⟩ := stored_lines_ok hlines
  exact .commit trivial
    (.mk account clearing _ _ es ha hnumber hcode hopened hs rfl rfl hes)

/-! ## The precision of what is funded -/

/-- What the columns keep of the amount has the precision of the account's currency. -/
def Command.Exact : Command → Store → Prop
  | .service _, _ => True
  | .fund number amount, s => ∀ a ∈ s.db.books.accounts, a.number = number →
      (∀ x ∈ Decimal.storeNumeric 28 8 amount, x ∈ Decimal.grid (decimalsFor a.currency)) ∧
        (LedgerEntry.credit a.id amount a.currency).stored ∈
          Decimal.grid (decimalsFor a.currency)

instance (s : Store) : (command : Command) → Decidable (command.Exact s)
  | .service _ => inferInstanceAs (Decidable True)
  | .fund number amount =>
      inferInstanceAs (Decidable (∀ a ∈ s.db.books.accounts, a.number = number →
        (∀ x ∈ Decimal.storeNumeric 28 8 amount, x ∈ Decimal.grid (decimalsFor a.currency)) ∧
          (LedgerEntry.credit a.id amount a.currency).stored ∈
            Decimal.grid (decimalsFor a.currency)))

theorem stored_credit_nonneg (id : Id) (amount : Decimal) (currency : String) :
    0 ≤ (LedgerEntry.credit id amount currency).stored := by
  have hround := Decimal.roundContext_nonneg (abs_nonneg amount)
  unfold PostingLine.stored
  cases h : Decimal.storeNumeric 28 8 (LedgerEntry.credit id amount currency).amount with
  | none => exact le_rfl
  | some x => exact Decimal.storeNumeric_nonneg hround h

/-- The two lines are stored with one amount. -/
theorem stored_debit (id id' : Id) (amount : Decimal) (currency : String) :
    (LedgerEntry.debit id amount currency).stored =
      -(LedgerEntry.credit id' amount currency).stored := by
  have hneg : (LedgerEntry.debit id amount currency).amount =
      -(LedgerEntry.credit id' amount currency).amount := rfl
  rw [PostingLine.stored, PostingLine.stored, hneg, Decimal.storeNumeric_neg]
  cases Decimal.storeNumeric 28 8 (LedgerEntry.credit id' amount currency).amount with
  | none => simp
  | some x => rfl

/-- The lines of an exact fund fit their accounts. -/
theorem lineOk_fund {clearing account : Account} {amount : Decimal} (hc : clearing ∈ b.accounts)
    (ha : account ∈ b.accounts) (hcode : clearing.currency = account.currency)
    (hgrid : (LedgerEntry.credit account.id amount account.currency).stored ∈
      Decimal.grid (decimalsFor account.currency)) :
    ∀ line ∈ fundLines clearing.id account.id amount account.currency, LineOk b line := by
  have hnonneg := stored_credit_nonneg account.id amount account.currency
  intro line hl
  simp only [fundLines, List.map_cons, List.map_nil, List.mem_cons, List.not_mem_nil,
    or_false] at hl
  rcases hl with rfl | rfl
  · refine ⟨⟨clearing, hc, rfl, hcode⟩, ?_, fun _ => ?_, fun h => by cases h⟩
    · show (LedgerEntry.debit clearing.id amount account.currency).stored ∈ _
      rw [stored_debit _ account.id]
      exact (Decimal.grid _).neg_mem hgrid
    · show (LedgerEntry.debit clearing.id amount account.currency).stored ≤ 0
      rw [stored_debit _ account.id]
      exact neg_nonpos.2 hnonneg
  · exact ⟨⟨account, ha, rfl, rfl⟩, hgrid, fun h => (by cases h), fun _ => hnonneg⟩

/-- An exact fund keeps the links of the books, and cuts no snapshot. -/
theorem Funded.linked {number : String} {amount : Decimal} {st : Store}
    (hf : Funded st.db.books number amount b') (h : st.db.books.Linked)
    (hexact : (Command.fund number amount).Exact st) :
    b'.Linked ∧ b'.snapshots = st.db.books.snapshots ∧
      ∀ a ∈ st.db.books.accounts, a ∈ b'.accounts := by
  obtain ⟨account, clearing, b₁, t, es, ha, hnumber, hcode, hopened, hstored, hsettled, hcurrency,
    hposted⟩ := hf
  obtain ⟨htransaction, hentries⟩ := hexact account ha hnumber
  have hupper : account.currency.toUpper = account.currency := h.codes account ha
  have h₁ : b₁.Linked := h.opened hopened (by rw [hcode, toUpper_toUpper])
  have ht : (b₁.addTransaction t).Linked := by
    refine h₁.addTransaction ?_ fun hp => ?_
    · rw [hcurrency]
      exact ⟨hupper, htransaction _ hstored⟩
    · rw [hsettled] at hp
      cases hp
  refine ⟨ht.posted hposted ?_, hopened.rest.2.2, fun a ha => hopened.subset ha⟩
  exact lineOk_fund (b := b₁.addTransaction t) hopened.mem (hopened.subset ha)
    (hcode.trans hupper) hentries

/-! ## Runs -/

/-- What the commands keep. -/
structure Store.Precise (s : Store) : Prop where
  keyed : s.db.books.Keyed s.seqs
  linked : s.db.books.Linked
  scaled : s.db.books.Scaled
  graded : s.db.books.Graded

theorem Store.Precise.run {st : Store} (h : st.Precise) {command : Command}
    (hexact : command.Exact st) : (command.run cfg st).Precise := by
  have hkeyed : (command.run cfg st).db.books.Keyed (command.run cfg st).seqs := by
    have hconn : Conn.Keyed ⟨st, Session.fresh⟩ := ⟨h.keyed, h.keyed⟩
    exact (hconn.run (command.program cfg)).store
  have hscaled : (command.run cfg st).db.books.Scaled :=
    h.scaled.run (command.program cfg)
  cases command with
  | service op =>
    have heffect : (op.run cfg st).db.books = st.db.books ∨
        Effect cfg st.db.books op (op.run cfg st).db.books := Operation.run_effect h.keyed op
    rcases heffect with hb | he
    · have hb : ((Command.service op).run cfg st).db.books = st.db.books := hb
      exact ⟨hkeyed, hb.symm ▸ h.linked, hscaled, hb.symm ▸ h.graded⟩
    · have hlinked : ((Command.service op).run cfg st).db.books.Linked := he.linked h.keyed h.linked
      exact ⟨hkeyed, hlinked, hscaled, he.graded h.keyed hkeyed h.scaled hlinked h.graded⟩
  | fund number amount =>
    have hcommits : Commits cfg (Funded st.db.books number amount)
        ((fun _ => ()) <$> Seeds.fundAccount number amount) st.db.books := fund_effect.map
    rcases hcommits.run (c := ⟨st, Session.fresh⟩) rfl with hb | hf
    · have hb : ((Command.fund number amount).run cfg st).db.books = st.db.books := hb
      exact ⟨hkeyed, hb.symm ▸ h.linked, hscaled, hb.symm ▸ h.graded⟩
    · obtain ⟨hlinked, hsnapshots, haccounts⟩ := hf.linked h.linked hexact
      exact ⟨hkeyed, hlinked, hscaled, h.graded.mono hsnapshots haccounts⟩

theorem precise_of_run {st : Store}
    (h : Run (Command.run cfg) Command.Exact Store.empty st) : st.Precise := by
  refine h.invariant (I := Store.Precise) ?_ fun command st hs hexact => hs.run hexact
  exact { keyed := Store.sound_empty.keyed
          linked := Store.sound_empty.linked
          scaled := by simp [Books.Scaled, Store.empty, Database.empty]
          graded := by simp [Books.Graded, Store.empty, Database.empty] }

/-- `Money` rounds nothing that a balance reads. -/
theorem Store.Precise.amount_eq {st : Store} (h : st.Precise) {account : Account}
    (ha : account ∈ st.db.books.accounts) {m : Money} :
    (st.balance cfg account = .ok m → m.amount = st.db.books.read account.id) ∧
      (st.availableBalance cfg account = .ok m →
        m.amount = st.db.books.read account.id + st.db.books.reserved account.id) := by
  have hentries := h.linked.entriesGraded
  have hread := h.graded.read_mem hentries h.keyed.accountIds ha
  have hsettled : ∀ {m : Money}, st.db.books.balance account = .ok m →
      m.amount = st.db.books.read account.id := fun hm => Money.amount_of_make hread hm
  have hreserved : st.db.books.reserved account.id ∈ Decimal.grid (decimalsFor account.currency) :=
    hentries.sum_mem h.keyed.accountIds ha _ fun _ hp => hp.1
  rw [Store.balance_eq, Store.availableBalance_eq]
  refine ⟨hsettled, fun hm => ?_⟩
  obtain ⟨settled, hs, hmake⟩ := except_bind_ok.1 hm
  rw [hsettled hs, sumEntries_reserved fun e he => (h.keyed.seqs_lt e he).1] at hmake
  exact Money.amount_of_make ((Decimal.grid _).add_mem hread hreserved) hmake

/-- The operations that check an amount against what its sender has. -/
inductive Operation.Spends (senderId : Id) (amount : Decimal) : Operation → Prop
  | execute (receiverId : Id) (correlationId : Option String) :
      Spends senderId amount (.execute senderId receiverId amount correlationId)
  | initiate (receiverId : Id) (correlationId : Option String) :
      Spends senderId amount (.initiate senderId receiverId amount correlationId)
  | executeFxTransfer (rates : RateTable) (receiverId : Id) (correlationId : Option String) :
      Spends senderId amount (.executeFxTransfer rates senderId receiverId amount correlationId)

/-- The check they have passed. -/
theorem Effect.debitCheck {op : Operation} {senderId : Id} {amount : Decimal}
    (hop : op.Spends senderId amount) (he : Effect cfg b op b') :
    ∃ receiverId, Nonempty (DebitCheck b senderId receiverId amount) := by
  cases hop with
  | execute receiverId correlationId =>
    cases he with
    | execute k => exact ⟨receiverId, ⟨k.toDebitCheck⟩⟩
  | initiate receiverId correlationId =>
    cases he with
    | initiate k => exact ⟨receiverId, ⟨k.toDebitCheck⟩⟩
  | executeFxTransfer rates receiverId correlationId =>
    cases he with
    | executeFxTransfer k => exact ⟨receiverId, ⟨k⟩⟩

/-- **Exact amounts.**  While every amount that is funded is stored at the precision of its
account's currency, so is every entry; no balance and no available balance that is given differs
from the sum it is read from; and an operation that spends has found this sum to cover it. -/
theorem amounts_exact_of_run {st : Store}
    (h : Run (Command.run cfg) Command.Exact Store.empty st) :
    (∀ e ∈ st.db.books.entries, e.amount ∈ Decimal.grid (decimalsFor e.currency)) ∧
      (∀ account ∈ st.db.books.accounts, ∀ m,
        (st.balance cfg account = .ok m → m.amount = st.db.books.read account.id) ∧
        (st.availableBalance cfg account = .ok m →
          m.amount = st.db.books.read account.id + st.db.books.reserved account.id)) ∧
      ∀ (op : Operation) senderId amount, op.Spends senderId amount → op.outcome cfg st = .ok () →
        ∃ sender ∈ st.db.books.accounts, sender.id = senderId ∧ ∃ money,
          Money.make amount sender.currency = .ok money ∧
          money.amount ≤ st.db.books.read senderId + st.db.books.reserved senderId := by
  have hs : st.Precise := precise_of_run h
  refine ⟨fun e he => (hs.linked.entries e he).amount, fun account ha m => hs.amount_eq ha, ?_⟩
  intro op senderId amount hop hok
  obtain ⟨receiverId, ⟨k⟩⟩ := (Operation.run_effect_of_ok hs.keyed hok).debitCheck hop
  have havailable : st.availableBalance cfg k.sender = .ok k.available :=
    (Store.availableBalance_eq st k.sender).trans k.available_eq
  refine ⟨k.sender, k.sender_mem, k.sender_id, k.money, k.money_eq, ?_⟩
  have hamount := (hs.amount_eq k.sender_mem).2 havailable
  rw [k.sender_id] at hamount
  exact hamount ▸ k.covered

/-- Alice is funded with 10.50 and sends 3.25 to bob. -/
theorem amounts_exact_of_cents :
    let st := List.foldl (fun s command => Command.run (offlineConfig 2) command s) Store.empty
      [.service (.createAccount "alice" "EUR"), .service (.createAccount "bob" "EUR"),
        .fund "2000000000" (21 / 2), .service (.execute 0 1 (13 / 4) (some "c1"))]
    (∀ e ∈ st.db.books.entries, e.amount ∈ Decimal.grid (decimalsFor e.currency)) ∧
      st.db.books.read 0 = 29 / 4 := by
  intro st
  have hrun : Run (Command.run (offlineConfig 2)) Command.Exact Store.empty st :=
    Run.of_along (by decide +kernel)
  exact ⟨(amounts_exact_of_run hrun).1, by decide +kernel⟩

/-- Alice is funded with 1.5 cents, which she sees as 2 and sends to bob. -/
theorem fund_makes_money :
    let st := List.foldl (fun s command => Command.run (offlineConfig 1000) command s) Store.empty
      [.service (.createAccount "alice" "EUR"), .service (.createAccount "bob" "EUR"),
        .fund "2000000000" (15 / 1000)]
    let op := Operation.execute 0 1 (2 / 100) (some "c1")
    (∃ e ∈ st.db.books.entries, e.amount ∉ Decimal.grid (decimalsFor e.currency)) ∧
      st.db.books.read 0 = 15 / 1000 ∧
      (∃ account ∈ st.db.books.accounts, account.id = 0 ∧
        (st.balance (offlineConfig 1000) account).map Money.amount = .ok (2 / 100) ∧
        (st.availableBalance (offlineConfig 1000) account).map Money.amount = .ok (2 / 100)) ∧
      op.outcome (offlineConfig 1000) st = .ok () ∧
      (op.run (offlineConfig 1000) st).db.books.read 0 = -(5 / 1000) := by
  decide +kernel

end WalletLedger
