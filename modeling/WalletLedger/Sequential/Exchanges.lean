import WalletLedger.Sequential.Invariants
import WalletLedger.Application.Conversions

/-!
# What an exchange pays out

An exchange checks that the amount it takes is positive, and not that something is left of
it in the other currency.

* `exchange_pays_iff` — it pays something out exactly when the amount is worth more than half
  a unit of that currency; `exchange_for_nothing` takes one franc and pays no cent.
-/

namespace WalletLedger

variable {cfg : Config} {s : Store}

/-- **Something for something.**  The entries of an exchange that commits take a positive
amount from the sender and give the receiver a positive one, exactly when the amount sent is
worth more than half a unit of the receiver's currency at the quoted rate. -/
theorem exchange_pays_iff {rates : RateTable} {senderId receiverId : Id} {amount rate : Decimal}
    {correlationId : Option String} {sender receiver : Account} {sent : Money}
    (hk : s.db.books.Keyed s.seqs) (hrates : ∀ p ∈ rates, 0 < p.2)
    (hsender : sender ∈ s.db.books.accounts) (hsid : sender.id = senderId)
    (hreceiver : receiver ∈ s.db.books.accounts) (hrid : receiver.id = receiverId)
    (hsent : Money.make amount sender.currency = .ok sent)
    (hrate : getRate rates sent.currency receiver.currency = .ok rate)
    (hcommits : ((Operation.executeFxTransfer rates senderId receiverId amount
      correlationId).run cfg s).db.books ≠ s.db.books) :
    ∃ debit poolCredit poolDebit credit : LedgerEntry,
      ((Operation.executeFxTransfer rates senderId receiverId amount correlationId).run cfg
        s).db.books.entries = s.db.books.entries ++ [debit, poolCredit, poolDebit, credit] ∧
      debit.accountId = senderId ∧ debit.entryType = .debit ∧
      credit.accountId = receiverId ∧ credit.entryType = .credit ∧
      (debit.amount < 0 ∧ 0 < credit.amount ↔
        1 / 2 < sent.amount * rate * 10 ^ decimalsFor receiver.currency) := by
  have heffect := (Operation.run_effect hk _).resolve_left hcommits
  generalize ((Operation.executeFxTransfer rates senderId receiverId amount
    correlationId).run cfg s).db.books = b' at heffect
  cases heffect with
  | executeFxTransfer k received poolFrom poolTo b₁ b₂ _ t es exchange received_eq owner_from
      code_from opened_from owner_to code_to opened_to records posted cuts =>
    -- the accounts and the amount the exchange has read are those
    obtain rfl : k.sender = sender := eq_of_key_eq hk.accountIds k.sender_mem hsender
      (k.sender_id.trans hsid.symm)
    obtain rfl : k.receiver = receiver :=
      eq_of_key_eq hk.accountIds k.receiver_mem hreceiver (k.receiver_id.trans hrid.symm)
    obtain rfl : k.money = sent := Except.ok.inj (k.money_eq.symm.trans hsent)
    have hentries := cuts.rest.2.2
    have hlines := posted.lines
    obtain ⟨debit, poolCredit, poolDebit, credit, rfl⟩ :
        ∃ debit poolCredit poolDebit credit, es = [debit, poolCredit, poolDebit, credit] :=
      List.length_eq_four.1 (by simpa using congrArg List.length hlines)
    simp only [List.map_cons, List.map_nil, List.cons.injEq, and_true] at hlines
    obtain ⟨hdebit, -, -, hcredit⟩ := hlines
    have hsame : b₂.entries = s.db.books.entries :=
      opened_to.rest.2.1.trans opened_from.rest.2.1
    refine ⟨debit, poolCredit, poolDebit, credit, ?_,
      (congrArg PostingLine.accountId hdebit).trans hsid,
      congrArg PostingLine.entryType hdebit, (congrArg PostingLine.accountId hcredit).trans hrid,
      congrArg PostingLine.entryType hcredit, ?_⟩
    · rw [hentries, ← hsame]
      rfl
    · have hrates' : ∀ p ∈ rates, 0 ≤ p.2 := fun p hp => (hrates p hp).le
      have hnonneg := convert_nonneg hrates' k.positive.le received_eq
      have htaken : debit.amount = -|k.money.amount| := congrArg PostingLine.amount hdebit
      have hgiven : credit.amount = |received.amount| := congrArg PostingLine.amount hcredit
      rw [htaken, hgiven, abs_of_pos k.positive, abs_of_nonneg hnonneg,
        ← converted_pos_iff hrates' k.positive.le received_eq hrate]
      exact and_iff_right (neg_neg_of_pos k.positive)

/-- Alice holds 100 francs, and bob no euro yet. -/
def francs : Store :=
  runAll (offlineConfig 1000)
    [.createAccount "alice" "XAF", .createAccount "bob" "EUR",
      .initiateDeposit 0 100 "stripe" ⟨none, none⟩ (some "c1"), .settle "2" none none] Store.empty

/-- At the reference rates, one franc is worth less than half a cent. -/
theorem exchange_for_nothing :
    let op := Operation.executeFxTransfer referencePerEur 0 1 1 (some "c2")
    op.outcome (offlineConfig 1000) francs = .ok () ∧
      (∃ debit ∈ (op.run (offlineConfig 1000) francs).db.books.entries,
        debit.accountId = 0 ∧ debit.entryType = .debit ∧ debit.amount = -1) ∧
      ∃ credit ∈ (op.run (offlineConfig 1000) francs).db.books.entries,
        credit.accountId = 1 ∧ credit.entryType = .credit ∧ credit.amount = 0 := by
  decide +kernel

/-- Fifty of them are worth several cents. -/
theorem exchange_for_cents :
    ∃ debit poolCredit poolDebit credit : LedgerEntry,
      ((Operation.executeFxTransfer referencePerEur 0 1 50 (some "c2")).run (offlineConfig 1000)
        francs).db.books.entries = francs.db.books.entries ++
          [debit, poolCredit, poolDebit, credit] ∧
      debit.accountId = 0 ∧ credit.accountId = 1 ∧ debit.amount < 0 ∧ 0 < credit.amount := by
  have hkeyed : francs.db.books.Keyed francs.seqs :=
    (sound_of_run (Run.foldl _ : Run (Operation.run (offlineConfig 1000)) anyOp Store.empty
      francs)).keyed
  have hfifty : (fun m : Money => (m.amount, m.currency)) <$> Money.make 50 "XAF" =
      .ok (50, "XAF") := by
    decide +kernel
  obtain ⟨sent, hsent, hfields⟩ := except_map_ok.1 hfifty
  obtain ⟨hamount, hcurrency⟩ := Prod.mk.inj hfields
  have hrate : getRate referencePerEur sent.currency "EUR" = .ok 0.00152449 := by
    rw [hcurrency]
    decide +kernel
  have hsender : ⟨0, "2000000000", "alice", "XAF"⟩ ∈ francs.db.books.accounts := by decide +kernel
  have hreceiver : ⟨1, "2000000001", "bob", "EUR"⟩ ∈ francs.db.books.accounts := by decide +kernel
  have hcommits : ((Operation.executeFxTransfer referencePerEur 0 1 50 (some "c2")).run
      (offlineConfig 1000) francs).db.books ≠ francs.db.books := by
    decide +kernel
  obtain ⟨debit, poolCredit, poolDebit, credit, hentries, hdebit, -, hcredit, -, hiff⟩ :=
    exchange_pays_iff hkeyed (by decide +kernel) hsender rfl hreceiver rfl hsent hrate hcommits
  refine ⟨debit, poolCredit, poolDebit, credit, hentries, hdebit, hcredit, hiff.2 ?_⟩
  rw [hamount]
  decide +kernel

end WalletLedger
