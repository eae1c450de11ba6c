import WalletLedger.Api.Quotes
import WalletLedger.Sequential.Outcomes
import WalletLedger.Sequential.Releases

/-!
# What was quoted is what is paid

A client asks what an amount is worth, and then sends it.  The exchange prices the amount by the
same rates and the same rounding as the quote, and nothing is kept back on the way: no fee, and no
fraction of a cent that goes elsewhere.

* `Books.settled_appended` — what entries that are posted settled add to a balance.
* `Effect.exchanged` — what an exchange moves on the accounts of customers.
* `quoted_exactly` — the result; `quoted_euros` is a quote and the exchange after it.
-/

namespace WalletLedger

variable {cfg : Config} {web : Web} {pay : Payments} {b b' : Books} {s : Store}

/-- What is appended to the entries moves the balance by its settled lines. -/
theorem Books.settled_appended {es : List LedgerEntry} (hes : b'.entries = b.entries ++ es)
    (a : Id) : b'.settled a = b.settled a + settledOn a (es.map LedgerEntry.line) := by
  unfold Books.settled settledOn
  rw [hes, tally_append, tally_map]
  rfl

/-- An exchange takes what is sent, gives what it is worth, and moves no other customer's money. -/
theorem Effect.exchanged {rates : RateTable} {senderId receiverId : Id} {amount : Decimal}
    {correlationId : Option String} {seqs : Sequences} (hk' : b'.Keyed seqs)
    (hrates : ∀ p ∈ rates, 0 ≤ p.2)
    (he : Effect cfg b (.executeFxTransfer rates senderId receiverId amount correlationId) b') :
    ∃ (k : DebitCheck b senderId receiverId amount) (received : Money),
      k.sender.currency ≠ k.receiver.currency ∧
      FxService.convert rates k.money k.receiver.currency = .ok received ∧
      ∀ a ∈ b.accounts, a.IsCustomer → b'.settled a.id = b.settled a.id +
        ((if receiverId = a.id then received.amount else 0) -
          if senderId = a.id then k.money.amount else 0) := by
  cases he with
  | executeFxTransfer k received poolFrom poolTo b₁ b₂ _ t es exchange received_eq owner_from
      code_from opened_from owner_to code_to opened_to records posted cuts =>
    refine ⟨k, received, exchange, received_eq, fun a ha hcustomer => ?_⟩
    obtain ⟨haccounts, -, hentries⟩ := cuts.rest
    have hes : b'.entries = b.entries ++ es := by
      rw [hentries, ← opened_from.rest.2.1, ← opened_to.rest.2.1]
      rfl
    have hfrom : poolFrom ∈ b'.accounts := by
      rw [haccounts]
      exact opened_to.subset opened_from.mem
    have hto : poolTo ∈ b'.accounts := by
      rw [haccounts]
      exact opened_to.mem
    have hmem : a ∈ b'.accounts := by
      rw [haccounts]
      exact opened_to.subset (opened_from.subset ha)
    -- the pools are not the customer's
    have hfrom_ne : poolFrom.id ≠ a.id := hcustomer.id_ne hk' hmem hfrom (.inr owner_from)
    have hto_ne : poolTo.id ≠ a.id := hcustomer.id_ne hk' hmem hto (.inr owner_to)
    have hsent : |k.money.amount| = k.money.amount := abs_of_pos k.positive
    have hreceived : |received.amount| = received.amount :=
      abs_of_nonneg (convert_nonneg hrates k.positive.le received_eq)
    have hlines : es.map LedgerEntry.line =
        settledPair k.sender.id poolFrom.id k.money.amount k.money.currency ++
          settledPair poolTo.id k.receiver.id received.amount received.currency := by
      have hpair := lines_eq_settledPair (m := k.money) rfl rfl k.positive k.sender.id poolFrom.id
      rw [posted.lines, ← hpair, settledPair, ← hreceived]
      rfl
    rw [Books.settled_appended hes, hlines, settledOn_append, settledOn_settledPair,
      settledOn_settledPair, if_neg hfrom_ne, if_neg hto_ne, k.sender_id, k.receiver_id]
    ring

/-- **What was quoted is what is paid.**  Wherever the processes before it have been killed, an
exchange that is accepted, and not only repeated, has had a quote: the amount it sends, in the
currency of the sender, is worth to `GET /fx/convert` what the receiver is given.  The sender is
taken that amount, and the money of no other customer moves, as long as no rate is negative and
the names of the channels fit their column. -/
theorem quoted_exactly {r : HttpRequest} {response : Response}
    (h : Run (crash cfg web pay) Entry.Exact Store.empty s) (hnamed : cfg.Named)
    (hfx : r.endpoint = .fxTransfer) (hrates : ∀ p ∈ r.rates, 0 ≤ p.2)
    (hresponse : r.response cfg web s = .ok response) (hsuccess : response.status < 400)
    (hnew : ¬ r.Replays web s response) :
    ∃ (data : TransferBody) (sender receiver : Account) (sent received : Money),
      web.transferSchema r.body = some data ∧
      s.db.books.numbered data.senderAccountNumber = some sender ∧
      s.db.books.numbered data.receiverAccountNumber = some receiver ∧
      sender.currency ≠ receiver.currency ∧
      Money.make data.amount sender.currency = .ok sent ∧
      fxConvert r.rates (some ⟨sender.currency, receiver.currency, data.amount⟩) =
        .ok ⟨200, [("converted_amount", .text received.text),
          ("currency", .text received.currency)]⟩ ∧
      ∀ a ∈ s.db.books.accounts, a.IsCustomer →
        (r.run cfg web s).db.books.settled a.id = s.db.books.settled a.id +
          ((if receiver.id = a.id then received.amount else 0) -
            if sender.id = a.id then sent.amount else 0) := by
  have hs := attended_of_run h
  have hanswered := hs.answered hnamed web r
  rw [hresponse] at hanswered
  cases hanswered with
  | refused status books keys => exact absurd hsuccess (Nat.not_lt.2 status)
  | replayed status replays same => exact absurd replays hnew
  | carried status effect stored =>
    obtain ⟨op, hop, heffect⟩ := effect
    simp only [HttpRequest.operation, hfx, Option.mem_def, Option.bind_eq_bind,
      Option.bind_eq_some_iff, Option.pure_def, Option.some.injEq] at hop
    obtain ⟨data, hdata, sender, hsender, receiver, hreceiver, rfl⟩ := hop
    have hk' := (recorded_of_crashes (h.trans (run_of_request pay r s))).2.keyed
    obtain ⟨k, received, hcurrency, hreceived, hmoved⟩ := heffect.exchanged hk' hrates
    -- the accounts that the exchange has locked are those that the numbers name
    have hids := hs.keyed.accountIds
    have hsame : k.sender = sender := eq_of_key_eq hids k.sender_mem
      (List.mem_of_find?_eq_some hsender) k.sender_id
    have hsame' : k.receiver = receiver := eq_of_key_eq hids k.receiver_mem
      (List.mem_of_find?_eq_some hreceiver) k.receiver_id
    rw [hsame, hsame'] at hcurrency
    rw [hsame'] at hreceived
    have hsent := k.money_eq
    rw [hsame] at hsent
    exact ⟨data, sender, receiver, k.money, received, hdata, hsender, hreceiver, hcurrency, hsent,
      fxConvert_ok hsent hreceived, hmoved⟩

/-- Alice has 50 euros, and Bob an account in francs. -/
def eurosStore : Store :=
  [(Entry.createAccount (some (.obj [("owner_id", .str "alice"), ("currency", .str "EUR")])), 9),
    (.createAccount (some (.obj [("owner_id", .str "bob"), ("currency", .str "XAF")])), 9),
    (.fund "2000000000" 50, 9)].foldl
      (fun s x => crash (offlineConfig 100) transferBodies signedPayments x s) Store.empty

/-- She sends him 20 of them, at the reference rates. -/
def exchangeRequest : HttpRequest :=
  { keyedRequest with
    endpoint := .fxTransfer
    key := none
    rates := referencePerEur }

/-- She has been quoted 13119 francs, and this is what he gets. -/
theorem quoted_euros :
    ∃ received : Money, received.text = "13119" ∧
      fxConvert referencePerEur (some ⟨"EUR", "XAF", 20⟩) =
        .ok ⟨200, [("converted_amount", .text received.text),
          ("currency", .text received.currency)]⟩ ∧
      (exchangeRequest.run (offlineConfig 100) transferBodies eurosStore).db.books.settled 1 =
        received.amount := by
  have hrun : Run (crash (offlineConfig 100) transferBodies signedPayments) Entry.Exact Store.empty
      eurosStore := Run.of_along (by decide +kernel)
  have hnamed : (offlineConfig 100).Named := fun _ hmem => by cases hmem
  have hrates : ∀ p ∈ exchangeRequest.rates, 0 ≤ p.2 := by decide +kernel
  have hnew : ∀ response, ¬ exchangeRequest.Replays transferBodies eurosStore response := by
    rintro response ⟨key, hkey, -⟩
    cases hkey
  obtain ⟨response, hresponse, hsuccess⟩ : ∃ response, exchangeRequest.response (offlineConfig 100)
      transferBodies eurosStore = .ok response ∧ response.status < 400 := by
    have hstatus : httpStatus (exchangeRequest.response (offlineConfig 100) transferBodies
        eurosStore) = 201 := by decide +kernel
    cases hresponse : exchangeRequest.response (offlineConfig 100) transferBodies eurosStore with
    | error e =>
      have herror := httpStatus_error e
      rw [hresponse] at hstatus
      omega
    | ok response =>
      rw [hresponse] at hstatus
      have hstatus : response.status = 201 := hstatus
      exact ⟨response, rfl, by omega⟩
  obtain ⟨data, sender, receiver, sent, received, hdata, hsender, hreceiver, -, -, hquote,
    hmoved⟩ := quoted_exactly hrun hnamed rfl hrates hresponse hsuccess (hnew response)
  have hdata : data = ⟨"2000000000", "2000000001", 20⟩ := (Option.some.inj hdata).symm
  subst hdata
  have halice : eurosStore.db.books.numbered "2000000000" =
      some ⟨0, "2000000000", "alice", "EUR"⟩ := by decide +kernel
  have hbob : eurosStore.db.books.numbered "2000000001" =
      some ⟨1, "2000000001", "bob", "XAF"⟩ := by decide +kernel
  obtain rfl := Option.some.inj (halice.symm.trans hsender)
  obtain rfl := Option.some.inj (hbob.symm.trans hreceiver)
  have htext : fxConvert referencePerEur (some ⟨"EUR", "XAF", 20⟩) =
      .ok ⟨200, [("converted_amount", .text "13119"), ("currency", .text "XAF")]⟩ := by
    decide +kernel
  have hbefore : eurosStore.db.books.settled 1 = 0 := by decide +kernel
  have hbody := Except.ok.inj (hquote.symm.trans htext)
  simp only [Response.mk.injEq, List.cons.injEq, Prod.mk.injEq, JsonValue.text.injEq, true_and,
    and_true] at hbody
  have hgiven := hmoved ⟨1, "2000000001", "bob", "XAF"⟩ (List.mem_of_find?_eq_some hbob)
    (by decide)
  refine ⟨received, hbody.1, hquote, ?_⟩
  simpa [hbefore] using hgiven

end WalletLedger
