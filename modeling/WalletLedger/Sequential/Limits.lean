import WalletLedger.Sequential.Movements

/-!
# The limits of an amount

An amount crosses three limits: the digits of the decimal context at the precision of a
currency, the digits of the columns, and those of the balances that are computed or folded into
a snapshot.

* `Operation.Admissible` — the amounts, and the states, that stay within the limits.
* `Books.Appends.cutsFit_iff` — which snapshots can be cut, one after the other, depends on what
  a posting moves.
* `ends_pays` — the checks before an amount leaves an account.
* `ends_newRow` — the transaction that is written then.
-/

namespace WalletLedger

variable {cfg : Config} {b b' b₁ : Books} {s s' : Sequences}

/-! ## The limits -/

namespace Decimal

/-- At `d` decimals the number has no more digits than the context. -/
def Short (d : ℕ) (x : ℚ) : Prop := |roundHalfEven (x * 10 ^ d)| < 10 ^ precision

/-- The number rounded to `d` decimals, half to even. -/
def round (d : ℕ) (x : ℚ) : ℚ := roundHalfEven (x * 10 ^ d) / 10 ^ d

theorem quantize_of_short {d : ℕ} {x : ℚ} (h : Short d x) : quantize d x = some (round d x) :=
  if_pos h

theorem quantize_of_not_short {d : ℕ} {x : ℚ} (h : ¬ Short d x) : quantize d x = none := if_neg h

theorem round_of_mem_grid {d : ℕ} {x : ℚ} (h : x ∈ grid d) : round d x = x := by
  obtain ⟨n, rfl⟩ := mem_grid_iff.1 h
  rw [round, mul_pow_eq, roundHalfEven_intCast]

/-- The columns keep what is below `10²⁰`. -/
theorem storeNumeric_iff {x : ℚ} (h : x ∈ grid 8) :
    storeNumeric 28 8 x = some x ↔ |x| < 10 ^ 20 := by
  have hlimit : |x * 10 ^ 8| < 10 ^ 28 ↔ |x| < 10 ^ 20 := by
    have hpow : (10 : ℚ) ^ 28 = 10 ^ 20 * 10 ^ 8 := by norm_num
    rw [abs_mul, abs_of_pos (by positivity : (0 : ℚ) < 10 ^ 8), hpow,
      mul_lt_mul_iff_left₀ (by positivity)]
  rw [storeNumeric_of_mem_grid h, ← hlimit]
  split
  · exact ⟨fun _ => ‹_›, fun _ => rfl⟩
  · exact ⟨fun h => (by cases h), fun h => absurd h ‹_›⟩

end Decimal

/-- What the constructor does on either side of the limit. -/
theorem Money.make_of_short {x : Decimal} {c : String} (h : Decimal.Short (decimalsFor c) x) :
    ∃ m, make x c = .ok m ∧ m.amount = Decimal.round (decimalsFor c) x := by
  have hq := Decimal.quantize_of_short h
  unfold make
  split
  · rename_i hnone
    rw [hq] at hnone
    cases hnone
  · rename_i y hsome
    rw [hq] at hsome
    cases hsome
    exact ⟨_, rfl, rfl⟩

theorem Money.make_of_not_short {x : Decimal} {c : String}
    (h : ¬ Decimal.Short (decimalsFor c) x) : make x c = .error .invalidOperation := by
  have hq := Decimal.quantize_of_not_short h
  unfold make
  split
  · rfl
  · rename_i y hsome
    rw [hq] at hsome
    cases hsome

/-- An identifier is written in 36 characters, like a `uuid4()`; an operation draws no more
than four of them before it writes its transaction. -/
def Sequences.Written (s : Sequences) : Prop := ∀ id ≤ s.nextId + 3, id.text.length ≤ 36

/-- A correlation identifier that is given fits its column. -/
def CorrelationFits (correlationId : Option String) : Prop :=
  ∀ text ∈ correlationId, text.length ≤ 36

namespace Books

/-- The codes of the accounts fit their columns. -/
def Narrow (b : Books) : Prop := ∀ a ∈ b.accounts, fitsIn 3 a.currency = true

/-- The snapshots that these settled amounts make due, on the accounts that they move, can be
cut: one after the other, and where an account comes twice nothing is left for the second. -/
def AbsorbsAll (cfg : Config) (b : Books) (moves : List (Id × Decimal)) : Prop :=
  (1 ≤ cfg.snapshotEveryNEntries ∨ (moves.map Prod.fst).Nodup) ∧
    ∀ a ∈ moves.map Prod.fst, b.Absorbs cfg a (tally (fun m => m.1 = a) (fun _ => 1) moves)
      (tally (fun m => m.1 = a) Prod.snd moves)

/-- An amount may leave an account: it is short at the precision of the currency, and if it is
positive, so are the balance and the available balance; if they cover it, the rest follows. -/
def Pays (b : Books) (sender : Account) (amount : Decimal) (rest : Decimal → Prop) : Prop :=
  let d := decimalsFor sender.currency
  let sent := Decimal.round d amount
  let settled := b.read sender.id
  let available := settled + b.reserved sender.id
  Decimal.Short d amount ∧ (0 < sent → Decimal.Short d settled ∧ Decimal.Short d available ∧
    (sent ≤ available → rest sent))

/-- The accounts of a payment, if there are such. -/
def Parties (b : Books) (senderId receiverId : Id) (p : Account → Account → Prop) : Prop :=
  ∀ sender ∈ b.accounts, sender.id = senderId → ∀ receiver ∈ b.accounts, receiver.id = receiverId →
    p sender receiver

/-- The exchange pool of a currency. -/
def pool (b : Books) (currency : String) : Option Account :=
  b.accounts.find? fun a => a.ownerId = fxPoolOwner ∧ a.currency = currency

end Books

/-- The number that is drawn after `i` others. -/
def Sequences.number (cfg : Config) (s : Sequences) (i : ℕ) : String :=
  accountNumber (cfg.randbelow (s.draws + i))

namespace Store

/-- No account has the number that is drawn after `i` others. -/
def NumberFree (cfg : Config) (s : Store) (i : ℕ) : Prop :=
  ∀ a ∈ s.db.books.accounts, a.number ≠ s.seqs.number cfg i

/-- The pools of two currencies are there, or can be opened. -/
def PoolsOpen (cfg : Config) (s : Store) (base quote : String) : Prop :=
  match s.db.books.pool base, s.db.books.pool quote with
  | some _, some _ => True
  | none, none =>
      s.NumberFree cfg 0 ∧ s.NumberFree cfg 1 ∧ s.seqs.number cfg 1 ≠ s.seqs.number cfg 0
  | _, _ => s.NumberFree cfg 0

/-- An exchange at the rates: the quoted rate and what is bought are short. -/
def Converts (rates : RateTable) (sent : Decimal) (base quote : String)
    (rest : Decimal → Prop) : Prop :=
  ∀ perBase ∈ rates.lookup base, ∀ perQuote ∈ rates.lookup quote,
    let rate := Decimal.roundContext (perQuote / perBase)
    let bought := Decimal.roundContext (sent * Decimal.round 8 rate)
    perBase ≠ 0 ∧ Decimal.Short 8 rate ∧ Decimal.Short (decimalsFor quote) bought ∧
      rest |Decimal.round (decimalsFor quote) bought|

/-- What an exchange moves on the accounts that are there. -/
def exchangeMoves (b : Books) (sender receiver : Account) (sent received : Decimal) :
    List (Id × Decimal) :=
  [(sender.id, -sent), (receiver.id, received)] ++
    ((b.pool sender.currency).toList.map fun a => (a.id, sent)) ++
      (b.pool receiver.currency).toList.map fun a => (a.id, -received)

end Store

/-- The operation stays within the limits. -/
def Operation.Admissible (cfg : Config) (s : Store) : Operation → Prop
  | .execute senderId receiverId amount correlationId =>
      s.db.books.Parties senderId receiverId fun sender receiver =>
        sender.currency = receiver.currency →
        s.db.books.Pays sender amount fun sent =>
          sent < 10 ^ 20 ∧ CorrelationFits correlationId ∧
            s.db.books.AbsorbsAll cfg [(sender.id, -sent), (receiver.id, sent)]
  | .initiate senderId receiverId amount correlationId =>
      s.db.books.Parties senderId receiverId fun sender receiver =>
        sender.currency = receiver.currency →
        s.db.books.Pays sender amount fun sent => sent < 10 ^ 20 ∧ CorrelationFits correlationId
  | .initiateDeposit accountId amount _ _ correlationId =>
      ∀ account ∈ s.db.books.accounts, account.id = accountId →
        let d := decimalsFor account.currency
        Decimal.Short d amount ∧ (0 < Decimal.round d amount →
          Decimal.round d amount < 10 ^ 20 ∧ CorrelationFits correlationId)
  | .executeFxTransfer rates senderId receiverId amount correlationId =>
      s.db.books.Parties senderId receiverId fun sender receiver =>
        sender.currency ≠ receiver.currency →
        s.db.books.Pays sender amount fun sent =>
          Store.Converts rates sent sender.currency receiver.currency fun received =>
            sent < 10 ^ 20 ∧ received < 10 ^ 20 ∧ CorrelationFits correlationId ∧
              s.PoolsOpen cfg sender.currency receiver.currency ∧
              s.db.books.AbsorbsAll cfg
                (Store.exchangeMoves s.db.books sender receiver sent received)
  | _ => True

/-! ## Snapshots, one after the other -/

/-- The snapshots that are due on the accounts can be cut in this order. -/
def Books.CutsFit (cfg : Config) (b : Books) (ids : List Id) : Prop :=
  (1 ≤ cfg.snapshotEveryNEntries ∨ ids.Nodup) ∧ ∀ a ∈ ids, b.CutFits cfg a

/-- A first cut, and the others after it. -/
theorem Cut.cutsFit_cons {a : Id} {as : List Id} (hcut : Cut cfg a b b') (hs : b.Scaled)
    (hk : b.Keyed s) : b.CutsFit cfg (a :: as) ↔ b'.CutsFit cfg as := by
  have hself := hcut.cutFits_self
  constructor
  · rintro ⟨hN, hall⟩
    refine ⟨hN.imp_right fun hnodup => (List.nodup_cons.1 hnodup).2, fun x hx => ?_⟩
    by_cases hxa : x = a
    · subst hxa
      exact hself.2 (hN.resolve_right fun hnodup => (List.nodup_cons.1 hnodup).1 hx)
    · exact (hcut.cutFits_of_ne hs hk hxa).2 (hall x (List.mem_cons_of_mem _ hx))
  · rintro ⟨hN, hall⟩
    constructor
    · by_cases ha : a ∈ as
      · exact .inl (hself.1 (hall a ha))
      · exact hN.imp_right fun hnodup => List.nodup_cons.2 ⟨ha, hnodup⟩
    · intro x hx
      by_cases hxa : x = a
      · exact hxa ▸ hcut.fits
      · exact (hcut.cutFits_of_ne hs hk hxa).1
          (hall x ((List.mem_cons.1 hx).resolve_left hxa))

theorem ends_maybeSnapshots {β : Type} {Q : Except Exn β → Conn → Prop} {b₀ : Books} {c : Conn}
    {f : Unit → App β} {accounts : List Account} (ho : c.Open b₀ b) (hs : b.Scaled)
    (ha : ∀ a ∈ accounts, a ∈ b.accounts)
    (h : b.CutsFit cfg (accounts.map Account.id) → ∀ (b' : Books) (d : Conn),
      Cuts cfg (accounts.map Account.id) b b' → d.Open b₀ b' → Ends cfg (f ()) d Q)
    (he : ¬ b.CutsFit cfg (accounts.map Account.id) → ∀ (e : Exn) (d : Conn),
      e = .service .data ∨ e = .indexError → Q (.error e) d) :
    Ends cfg (Program.forEach accounts (LedgerService.maybeSnapshot cfg) >>= f) c Q := by
  induction accounts generalizing b c with
  | nil => exact h ⟨.inr List.nodup_nil, by simp⟩ b c (.nil b) ho
  | cons a accounts ih =>
    rw [Program.forEach, Program.bind_assoc]
    refine ends_maybeSnapshot ho (ha a (by simp)) (fun _ b₁ c₁ hcut h₁ => ?_)
      fun hunfit e d herror _ => he (fun hfits => hunfit (hfits.2 a.id (by simp))) e d
        (herror.imp_right And.left)
    have hcons : b.CutsFit cfg (a.id :: accounts.map Account.id) ↔
        b₁.CutsFit cfg (accounts.map Account.id) := hcut.cutsFit_cons hs ho.view_keyed
    refine ih h₁ (hcut.scaled hs) (fun x hx => ?_)
      (fun hfits b' d hcuts hd => h (hcons.2 hfits) b' d (.cons hcut hcuts) hd)
      fun hunfit => he fun hfits => hunfit (hcons.1 hfits)
    rw [hcut.rest.1]
    exact ha x (List.mem_cons_of_mem _ hx)

/-- An amount that is counted. -/
theorem count_ne_zero {moves : List (Id × Decimal)} {a : Id} (ha : a ∈ moves.map Prod.fst) :
    tally (fun m => m.1 = a) (fun _ => 1) moves ≠ 0 := by
  obtain ⟨m, hm, rfl⟩ := List.mem_map.1 ha
  have hlength : tally (fun x : Id × Decimal => x.1 = m.1) (fun _ => 1) moves =
      (moves.filter fun x => x.1 = m.1).length := by
    rw [tally, List.map_const', List.sum_replicate, smul_eq_mul, mul_one]
  rw [hlength, Ne, List.length_eq_zero_iff]
  exact List.ne_nil_of_mem (List.mem_filter.2 ⟨hm, decide_eq_true rfl⟩)

/-- The snapshots that fall due after a posting depend on what it moves. -/
theorem Books.Appends.cutsFit_iff {es : List LedgerEntry} (h : b.Appends b₁ es)
    (hc : b.CursorsDrawn) (hk : b₁.Keyed s) {ids : List Id} {moves : List (Id × Decimal)}
    (hids : ids.Perm (moves.map Prod.fst))
    (hmoves : (es.map fun e => (e.accountId, e.amount)).Perm moves)
    (hsettled : ∀ e ∈ es, e.status = .success) :
    b₁.CutsFit cfg ids ↔ b.AbsorbsAll cfg moves := by
  have htally : ∀ {M : Type} [AddCommMonoid M] (g : Decimal → M) (a : Id),
      tally (fun line => line.accountId = a ∧ line.status = .success)
        (fun line => g line.amount) (es.map LedgerEntry.line) =
        tally (fun m => m.1 = a) (fun m => g m.2) moves := by
    intro M _ g a
    rw [← tally_perm hmoves, tally_map, tally_map]
    refine tally_congr (fun e he => ?_) fun _ _ _ => rfl
    exact and_iff_left (hsettled e he)
  refine and_congr (or_congr Iff.rfl hids.nodup_iff) ?_
  refine forall_congr' fun a => ?_
  rw [hids.mem_iff]
  refine forall_congr' fun ha => ?_
  exact h.cutFits_iff hc hk (count_ne_zero ha) (htally (fun _ => 1) a) (htally id a)

theorem Posted.moves {id : Id} {lines : List PostingLine} {es : List LedgerEntry}
    (h : Posted id lines es) : es.map (fun e => (e.accountId, e.amount)) =
      lines.map fun line => (line.accountId, line.amount) := by
  rw [← h.lines, List.map_map]
  rfl

/-! ## The checks of an amount -/

/-- It returns, or raises an error of the domain. -/
def Answered {α : Type} : Except Exn α → Prop
  | .ok _ => True
  | .error (.domain _) => True
  | .error _ => False

theorem answered_map {α β : Type} (g : α → β) (o : Except Exn α) :
    Answered (o.map g) ↔ Answered o := by
  cases o with
  | ok a => rfl
  | error e => cases e <;> rfl

section rules

variable {α β : Type} {c : Conn} {sender : Account}

theorem ends_imp {p : App β} {P Q : Except Exn β → Conn → Prop} (h : Ends cfg p c P)
    (himp : ∀ o d, P o d → Q o d) : Ends cfg p c Q := himp _ _ h

/-- The available balance on either side of its limits. -/
theorem availableBalance_of_short (hk : b.Keyed s) (hl : b.Linked) (hg : b.Graded)
    (hs : sender ∈ b.accounts)
    (hsettled : Decimal.Short (decimalsFor sender.currency) (b.read sender.id))
    (havailable : Decimal.Short (decimalsFor sender.currency)
      (b.read sender.id + b.reserved sender.id)) :
    ∃ m, b.availableBalance sender = .ok m ∧ m.currency = sender.currency.toUpper ∧
      m.amount = b.read sender.id + b.reserved sender.id := by
  have hentries := hl.entriesGraded
  have hread := hg.read_mem hentries hk.accountIds hs
  have hreserved : b.reserved sender.id ∈ Decimal.grid (decimalsFor sender.currency) :=
    hentries.sum_mem hk.accountIds hs _ fun _ hp => hp.1
  obtain ⟨settled, hmake, hamount⟩ := Money.make_of_short hsettled
  obtain ⟨m, hmake', hamount'⟩ := Money.make_of_short havailable
  refine ⟨m, ?_, Money.currency_of_make hmake', ?_⟩
  · rw [Books.availableBalance, Books.balance_eq_read, hmake]
    show Money.make (settled.amount + _) _ = _
    rw [hamount, Decimal.round_of_mem_grid hread,
      sumEntries_reserved fun e he => (hk.seqs_lt e he).1, hmake']
  · rw [hamount', Decimal.round_of_mem_grid ((Decimal.grid _).add_mem hread hreserved)]

theorem availableBalance_of_not_short (hk : b.Keyed s) (hl : b.Linked) (hg : b.Graded)
    (hs : sender ∈ b.accounts)
    (h : ¬ (Decimal.Short (decimalsFor sender.currency) (b.read sender.id) ∧
      Decimal.Short (decimalsFor sender.currency) (b.read sender.id + b.reserved sender.id))) :
    b.availableBalance sender = .error .invalidOperation := by
  have hread := hg.read_mem hl.entriesGraded hk.accountIds hs
  rw [Books.availableBalance, Books.balance_eq_read]
  by_cases hsettled : Decimal.Short (decimalsFor sender.currency) (b.read sender.id)
  · obtain ⟨settled, hmake, hamount⟩ := Money.make_of_short hsettled
    rw [hmake]
    show Money.make (settled.amount + _) _ = _
    rw [hamount, Decimal.round_of_mem_grid hread,
      sumEntries_reserved fun e he => (hk.seqs_lt e he).1]
    exact Money.make_of_not_short fun havailable => h ⟨hsettled, havailable⟩
  · rw [Money.make_of_not_short hsettled]
    rfl

/-- The check of the funds, in one currency. -/
theorem ensureCanDebit_eq {amount available : Money} (h : available.currency = amount.currency) :
    AccountAggregate.ensureCanDebit amount available =
      if available.amount < amount.amount then
        .error (.domain (.insufficientFunds available.amount amount.amount))
      else .ok () := by
  by_cases hlt : available.amount < amount.amount <;>
    simp [AccountAggregate.ensureCanDebit, Money.lt, Money.ensureSameCurrency, h, hlt, bind,
      Except.bind, pure, Except.pure, throw, throwThe, MonadExceptOf.throw]

/-- An amount is checked before it leaves an account. -/
theorem ends_pays {f : Money → App β} (ho : c.Open b b) (hl : b.Linked) (hg : b.Graded)
    (hs : sender ∈ b.accounts) {amount : Decimal} {rest : Decimal → Prop}
    (h : ∀ money, Money.make amount sender.currency = .ok money → 0 < money.amount →
      Ends cfg (f money) c fun o _ => Answered o ↔ rest money.amount) :
    Ends cfg (Program.ofExcept (Money.make amount sender.currency) >>= fun money =>
        raiseIf (¬ money.isPositive) (.domain .invalidAmount) >>= fun _ =>
        LedgerService.availableBalance sender >>= fun available =>
        Program.ofExcept (AccountAggregate.ensureCanDebit money available) >>= fun _ => f money) c
      fun o _ => Answered o ↔ b.Pays sender amount rest := by
  have hk := ho.view_keyed
  by_cases hshort : Decimal.Short (decimalsFor sender.currency) amount
  swap
  · exact ends_raises (Money.make_of_not_short hshort)
      ⟨False.elim, fun hpays => absurd hpays.1 hshort⟩
  obtain ⟨money, hmoney, hamount⟩ := Money.make_of_short hshort
  refine ends_ofExcept hmoney ?_
  by_cases hpos : 0 < money.amount
  swap
  · refine ends_raisesIf (by simpa [Money.isPositive] using hpos)
      ⟨fun _ => ⟨hshort, ?_⟩, fun _ => trivial⟩
    rw [← hamount]
    exact fun hsent => absurd hsent hpos
  refine ends_raiseIf (by simpa [Money.isPositive] using hpos) ?_
  have hpays : b.Pays sender amount rest ↔
      Decimal.Short (decimalsFor sender.currency) (b.read sender.id) ∧
        Decimal.Short (decimalsFor sender.currency) (b.read sender.id + b.reserved sender.id) ∧
        (money.amount ≤ b.read sender.id + b.reserved sender.id → rest money.amount) := by
    unfold Books.Pays
    dsimp only
    rw [← hamount]
    exact ⟨fun hp => hp.2 hpos, fun hp => ⟨hshort, fun _ => hp⟩⟩
  by_cases hbalance : Decimal.Short (decimalsFor sender.currency) (b.read sender.id) ∧
      Decimal.Short (decimalsFor sender.currency) (b.read sender.id + b.reserved sender.id)
  swap
  · have herror := availableBalance_of_not_short hk hl hg hs hbalance
    refine ends_availableBalance ho (fun m hm => ?_) fun e he => ?_
    · rw [herror] at hm
      cases hm
    · rw [herror] at he
      cases he
      exact ⟨False.elim, fun hp => hbalance ⟨(hpays.1 hp).1, (hpays.1 hp).2.1⟩⟩
  obtain ⟨available, havailable, hcurrency, hsum⟩ :=
    availableBalance_of_short hk hl hg hs hbalance.1 hbalance.2
  refine ends_availableBalance ho (fun m hm => ?_) fun e he => ?_
  swap
  · rw [havailable] at he
    cases he
  rw [havailable] at hm
  cases hm
  have hcheck := ensureCanDebit_eq (hcurrency.trans (Money.currency_of_make hmoney).symm)
  by_cases hlt : available.amount < money.amount
  · rw [if_pos hlt] at hcheck
    refine ends_raises hcheck
      ⟨fun _ => hpays.2 ⟨hbalance.1, hbalance.2, fun hle => ?_⟩, fun _ => trivial⟩
    rw [hsum] at hlt
    exact absurd hle (not_le.2 hlt)
  · rw [if_neg hlt] at hcheck
    refine ends_ofExcept hcheck ?_
    have hrest : b.Pays sender amount rest ↔ rest money.amount := by
      rw [hpays]
      exact ⟨fun hp => hp.2.2 (hsum ▸ not_lt.1 hlt),
        fun hr => ⟨hbalance.1, hbalance.2, fun _ => hr⟩⟩
    rw [hrest]
    exact h money hmoney hpos

/-- The accounts of a payment are looked up. -/
theorem ends_parties {senderId receiverId : Id} {f : Account → Account → App β} (ho : c.Open b b)
    {p : Account → Account → Prop}
    (h : ∀ sender ∈ b.accounts, ∀ receiver ∈ b.accounts, sender.id = senderId →
      receiver.id = receiverId →
        Ends cfg (f sender receiver) c fun o _ => Answered o ↔ p sender receiver) :
    Ends cfg (AccountService.lock senderId >>= fun sender =>
        AccountService.get receiverId >>= fun receiver => f sender receiver) c
      fun o _ => Answered o ↔ b.Parties senderId receiverId p := by
  have hids := ho.view_keyed.accountIds
  by_cases hsender : ∃ a ∈ b.accounts, a.id = senderId
  swap
  · refine ends_lock_missing ho (fun a ha hid => hsender ⟨a, ha, hid⟩)
      ⟨fun _ => ?_, fun _ => trivial⟩
    exact fun sender hs hid => absurd ⟨sender, hs, hid⟩ hsender
  by_cases hreceiver : ∃ a ∈ b.accounts, a.id = receiverId
  swap
  · obtain ⟨sender, hs, rfl⟩ := hsender
    refine ends_lock ho hs ?_
    refine ends_get_missing ho (fun a ha hid => hreceiver ⟨a, ha, hid⟩)
      ⟨fun _ => ?_, fun _ => trivial⟩
    exact fun _ _ _ receiver hr hid => absurd ⟨receiver, hr, hid⟩ hreceiver
  obtain ⟨sender, hs, rfl⟩ := hsender
  obtain ⟨receiver, hr, rfl⟩ := hreceiver
  have hparties : b.Parties sender.id receiver.id p ↔ p sender receiver :=
    (forall_key_iff hids hs).trans (forall_key_iff hids hr)
  rw [hparties]
  exact ends_lock ho hs (ends_get ho hr (h sender hs receiver hr rfl rfl))

/-- The correlation identifier of the transaction fits its column if the one given does. -/
theorem ends_correlation {Q : Except Exn β → Conn → Prop} {f : String → App β} {b₀ : Books}
    (ho : c.Open b₀ b) {correlationId : Option String}
    (hw : c.store.seqs.nextId.text.length ≤ 36)
    (h : ∀ (text : String) (d : Conn), (fitsIn 36 text = true ↔ CorrelationFits correlationId) →
      d.Open b₀ b → d.store.seqs.nextId ≤ c.store.seqs.nextId + 1 → Ends cfg (f text) d Q) :
    Ends cfg (correlationIdOr correlationId >>= f) c Q := by
  refine ends_correlationIdOr ho (fun text hgiven _ => ?_) fun hnone d hd hseqs => ?_
  · refine h text c ?_ ho (Nat.le_succ _)
    rw [hgiven, fitsIn, decide_eq_true_eq]
    exact ⟨fun hlen x hx => Option.some.inj hx ▸ hlen, fun hfits => hfits text rfl⟩
  · refine h _ d ?_ hd (by rw [hseqs])
    rw [fitsIn, decide_eq_true_eq]
    refine ⟨fun _ x hx => ?_, fun _ => hw⟩
    rcases hnone with hnone | hnone <;> rw [hnone] at hx <;> cases hx
    exact Nat.zero_le _

/-- A new row: an amount too wide for its column is refused, and so is a correlation identifier
too long for its own. -/
theorem ends_newRow {Q : Except Exn β → Conn → Prop} {b₀ : Books} {type : TransactionType}
    {status : TransactionStatus} {money : Money} {details : Details} {text : String}
    {f : Transaction → App β} (ho : c.Open b₀ b) (hfit : fitsIn 3 money.currency = true)
    (hpos : 0 < money.amount)
    (h : money.amount < 10 ^ 20 → fitsIn 36 text = true → ∀ (t : Transaction) (d : Conn),
      t.id = c.store.seqs.nextId → d.Open b₀ (b.addTransaction t) → Ends cfg (f t) d Q)
    (he : ¬ (money.amount < 10 ^ 20 ∧ fitsIn 36 text = true) → ∀ d : Conn,
      Q (.error (.service .data)) d) :
    Ends cfg (ask (.mutate (.insertTransaction type status money.amount money.currency details
      (some text))) >>= f) c Q := by
  have hstorable : Decimal.storeNumeric 28 8 money.amount = some money.amount ↔
      money.amount < 10 ^ 20 := by
    rw [Decimal.storeNumeric_iff money.amount_mem_grid, abs_of_pos hpos]
  by_cases hrow : money.amount < 10 ^ 20 ∧ fitsIn 36 text = true
  · exact ends_insertTransaction_next ho (hstorable.2 hrow.1) hfit (by simpa using hrow.2)
      fun t d ht hd => h hrow.1 hrow.2 t d (by rw [ht]) hd
  · refine ends_insertTransaction_refused ho money.amount_mem_grid (fun hfits => hrow ?_)
      fun d _ => he hrow d
    exact ⟨hstorable.1 hfits.1, by simpa using hfits.2.2⟩

end rules

end WalletLedger
