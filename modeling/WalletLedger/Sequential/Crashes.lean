import WalletLedger.Infrastructure.Verification
import WalletLedger.Sequential.Seeding
import WalletLedger.Sequential.Webhooks

/-!
# Processes that are killed

A process of the application can be killed between any two of its requests: what it has not
committed is gone, and the next process starts from what is stored.

* `Entry.Effect` — what an entry point does to the books when it goes through.
* `Entry.killed` — what a process leaves that is killed after `n` requests.
* `Store.Restartable` — what the next process relies on, kept wherever the last one was killed.
* `atomic_of_crashes` — an entry point that is killed has had its whole effect or none.
-/

namespace WalletLedger

variable {cfg : Config} {web : Web} {pay : Payments} {b b' : Books} {s : Store} {e : Entry}
  {C : Entry × ℕ → Store → Prop} {F : Books → String → Decimal → Prop}

/-! ## Webhooks -/

/-- A webhook request settles the deposit that it is accepted for. -/
def WebhookRequest.Effect (cfg : Config) (pay : Payments) (r : WebhookRequest) (b b' : Books) :
    Prop :=
  ∃ t result reference, r.Accepted pay b t result ∧ t.reference = some reference ∧
    WalletLedger.Effect cfg b (.settle reference none none) b'

/-- What the checks have cleared is posted as by a settlement of its reference. -/
theorem credit_commits {missing : Exn} {check : Transaction → Money → Except Exn Unit}
    {reference : String} {t : Transaction} {authorized : Money} {accountId : Id}
    (h : DepositService.cleared missing check
      (b.transactions.find? fun t => t.reference = some reference) =
        .ok (t, authorized, accountId)) :
    Commits cfg (Effect cfg b (.settle reference none none))
      (DepositService.credit cfg t authorized accountId) b := by
  obtain ⟨hfound, hpending, hmake, -, haccount⟩ := DepositService.cleared_ok_iff.1 h
  have hcleared := (@DepositService.cleared_ok_iff (.domain (.transactionNotFound reference))
    (fun t authorized => DepositService.reconcile t authorized none none) _ t authorized
      accountId).2
    ⟨hfound, hpending, hmake, DepositService.reconcile_ok_iff.2 (by simp), haccount⟩
  have hsettle : Commits cfg (Effect cfg b (.settle reference none none))
      (DepositService.settle cfg reference none none) b := settle_effect
  have hposted : Commits cfg (Effect cfg b (.settle reference none none))
      (DepositService.settleFound cfg (.domain (.transactionNotFound reference))
        (fun t authorized => DepositService.reconcile t authorized none none)
        (b.transactions.find? fun t => t.reference = some reference)) b :=
    hsettle.2.2.2 _ b (.select [] [])
  rwa [DepositService.settleFound_eq, hcleared] at hposted

theorem process_commits (hb : b.Charged cfg) (r : WebhookRequest) :
    Commits cfg (r.Effect cfg pay b) (r.process cfg pay) b := by
  unfold WebhookRequest.process
  refine .bind (quiet_ofExcept _) fun result b₁ h₁ => ?_
  obtain ⟨rfl, hcallback⟩ := returns_ofExcept h₁
  by_cases hsuccess : ¬ result.isSuccess
  · rw [if_pos hsuccess]
    trivial
  rw [if_neg hsuccess]
  refine Commits.then ?_ (fun txn => (harmless_reloadTransaction _).bind fun _ => trivial)
    fun txn => ((quiet_select _).bind fun _ => quiet_ofOption _ _).bind fun _ => trivial
  unfold DepositService.settleCallback
  refine .bind (quiet_ofExcept _) fun reference b₂ h₂ => ?_
  obtain ⟨rfl, hbound⟩ := returns_ofExcept h₂
  refine .bind (quiet_select _) fun found b₃ h₃ => ?_
  obtain ⟨rfl, keys, trail, rfl⟩ := returns_select h₃
  rw [DepositService.settleFound_eq]
  refine .bind (quiet_ofExcept _) fun x b₄ h₄ => ?_
  obtain ⟨rfl, hcleared⟩ := returns_ofExcept h₄
  obtain ⟨t, authorized, accountId⟩ := x
  obtain ⟨hfound, hpending, hmake, hreconcile, haccount⟩ := DepositService.cleared_ok_iff.1 hcleared
  -- a pending deposit has the reference of its provider
  obtain ⟨p, context, hdetails⟩ := Details.eq_deposit haccount
  obtain ⟨-, -, ref, -, -, href⟩ :=
    hb t (List.mem_of_find?_eq_some hfound) p accountId context hdetails
  have hselected := List.find?_some hfound
  rw [decide_eq_true_eq, href] at hselected
  subst hselected
  have haccepted : r.Accepted pay b₄ t result :=
    ⟨hcallback, not_not.1 hsuccess, ⟨_, hbound, hfound⟩, ⟨authorized, hmake, hreconcile⟩⟩
  exact (credit_commits hcleared).mono fun b' he => ⟨t, result, ref, haccepted, href, he⟩

/-! ## Entry points -/

/-- What an entry point does to the books when it goes through. -/
def Entry.Effect (cfg : Config) (web : Web) (pay : Payments) : Entry → Books → Books → Prop
  | .post r => r.Effect cfg web
  | .createAccount json => fun b b' => ∃ data ∈ CreateAccountSchema.load (jsonPayload json),
      WalletLedger.Effect cfg b (.createAccount data.ownerId data.currency) b'
  | .getAccount _ => fun _ _ => False
  | .accountBalance _ => fun _ _ => False
  | .webhook r => r.Effect cfg pay
  | .fund number amount => fun b b' => OperatorFund b number amount b'
  | .seed => LedgerSteps cfg fun _ _ amount => amount ∈ Seeds.amounts

theorem createAccount_commits (json : Option PyJson) :
    Commits cfg ((Entry.createAccount json).Effect cfg web pay b) (createAccount json) b := by
  refine .bind (quiet_ofOption _ _) fun data b₁ h₁ => ?_
  obtain ⟨rfl, hdata⟩ := returns_ofOption h₁
  have hharmless : ∀ a : Account, Harmless (reloadAccount a.id >>= fun account =>
      (.ret ⟨201, serializeAccount account⟩ : App Response)) :=
    fun _ => (harmless_reloadAccount _).bind fun _ => trivial
  have hquiet : ∀ a : Account, Quiet (reloadAccount a.id >>= fun account =>
      (.ret ⟨201, serializeAccount account⟩ : App Response)) :=
    fun _ => ((quiet_select _).bind fun _ => quiet_ofOption _ _).bind fun _ => trivial
  exact (createAccount_effect.then hharmless hquiet).mono fun b' he => ⟨data, hdata, he⟩

theorem harmless_getByNumber (number : String) : Harmless (AccountService.getByNumber number) :=
  (harmless_ask rfl).bind fun _ => harmless_ofOption _ _

theorem harmless_balanceQuery (account : Account) : Harmless (BalanceQuery.get account) := by
  have hget : Harmless (BalanceCache.get account.id account.currency) := by
    refine Program.All.bind (Program.All.attempt (harmless_ask rfl) fun _ => trivial) fun raw => ?_
    cases raw with
    | none => trivial
    | some amount => exact all_map (Program.all_ofExcept _) _
  refine hget.bind fun cached => ?_
  cases cached with
  | some money => trivial
  | none =>
    have hbalance : Harmless (LedgerService.balance account) :=
      (harmless_ask rfl).bind fun _ => (harmless_ask rfl).bind fun _ => Program.all_ofExcept _
    exact hbalance.bind fun _ =>
      Program.All.bind (Program.All.attempt (harmless_ask rfl) fun _ => trivial) fun _ => trivial

theorem harmless_getAccount (number : String) : Harmless (getAccount number) := by
  refine (harmless_getByNumber number).bind fun account => ?_
  trivial

theorem harmless_accountBalance (number : String) : Harmless (accountBalance number) := by
  refine (harmless_getByNumber number).bind fun account => ?_
  refine (harmless_balanceQuery account).bind fun balance => ?_
  trivial

/-- On its way, an entry point leaves the committed books alone, or has had its effect. -/
theorem Entry.throughout (web : Web) (pay : Payments) (hk : s.db.books.Keyed s.seqs)
    (hc : s.db.books.Charged cfg) (e : Entry) :
    (e.program cfg web pay).Throughout (Conn.exec cfg)
      (fun d => d.store.db.books = s.db.books ∨
        e.Effect cfg web pay s.db.books d.store.db.books) ⟨s, Session.fresh⟩ := by
  have hbeside : (Conn.mk s Session.fresh).session.Beside := Session.beside_nil false
  have idle : ∀ {α : Type} {p : App α} {P : Books → Prop}, Harmless p →
      p.Throughout (Conn.exec cfg) (fun d => d.store.db.books = s.db.books ∨ P d.store.db.books)
        ⟨s, Session.fresh⟩ := fun hp => (hp.throughout cfg hbeside).mono fun _ => .inl
  cases e with
  | post r => exact (handle_throughout hk web r).map
  | createAccount json =>
    exact ((createAccount_commits json).throughout (c := ⟨s, Session.fresh⟩) rfl).map
  | getAccount number => exact (idle (harmless_getAccount number)).map
  | accountBalance number => exact (idle (harmless_accountBalance number)).map
  | webhook r =>
    exact ((process_commits hc r).throughout (c := ⟨s, Session.fresh⟩) rfl).map
  | fund number amount =>
    exact (fundAccount_commits.throughout (c := ⟨s, Session.fresh⟩) rfl).map
  | seed =>
    have hkeyed : Conn.Keyed ⟨s, Session.fresh⟩ := ⟨hk, hk⟩
    have hseed : (Seeds.seed cfg).Throughout (Conn.exec cfg) (fun d => LedgerSteps cfg
        (fun _ _ amount => amount ∈ Seeds.amounts) s.db.books d.store.db.books)
        ⟨s, Session.fresh⟩ := seed_throughout (fun _ hx _ _ => hx) hkeyed rfl
    exact (hseed.mono fun _ => .inr).map

/-! ## Processes that are killed -/

/-- What a process leaves that is killed after `n` requests. -/
def Entry.killed (cfg : Config) (web : Web) (pay : Payments) (n : ℕ) (e : Entry) (s : Store) :
    Store :=
  (Program.killed (Conn.exec cfg) n (e.program cfg web pay) ⟨s, Session.fresh⟩).store

/-- What it leaves when it runs to its end. -/
def Entry.run (cfg : Config) (web : Web) (pay : Payments) (e : Entry) (s : Store) : Store :=
  (runOn cfg (e.program cfg web pay) ⟨s, Session.fresh⟩).2.store

/-- Killed late enough, it has run to its end. -/
theorem Entry.killed_eq_run (cfg : Config) (web : Web) (pay : Payments) (e : Entry) (s : Store) :
    ∃ n, e.killed cfg web pay n s = e.run cfg web pay s := by
  obtain ⟨n, hn⟩ := Program.killed_eq_run (Conn.exec cfg) (e.program cfg web pay)
    ⟨s, Session.fresh⟩
  exact ⟨n, congrArg Conn.store hn⟩

/-- One process after the other, each killed somewhere. -/
abbrev crash (cfg : Config) (web : Web) (pay : Payments) : Entry × ℕ → Store → Store :=
  fun x s => x.1.killed cfg web pay x.2 s

/-- What a new process relies on. -/
structure Store.Restartable (cfg : Config) (s : Store) : Prop where
  keyed : s.db.books.Keyed s.seqs
  charged : s.db.books.Charged cfg

/-- What an entry point funds. -/
def Entry.Funds : Entry → Books → String → Decimal → Prop
  | .fund number amount, _, n, x => n = number ∧ x = amount
  | .seed, _, _, x => x ∈ Seeds.amounts
  | _, _, _, _ => False

/-- The effect of an entry point is a series of movements. -/
theorem Entry.Effect.steps (h : e.Effect cfg web pay b b') (hk : ∃ s : Sequences, b'.Keyed s) :
    LedgerSteps cfg e.Funds b b' := by
  cases e with
  | post r =>
    obtain ⟨op, -, he⟩ := h
    exact .single (.service op hk he)
  | createAccount json =>
    obtain ⟨data, -, he⟩ := h
    exact .single (.service _ hk he)
  | getAccount number => exact h.elim
  | accountBalance number => exact h.elim
  | webhook r =>
    obtain ⟨t, result, reference, -, -, he⟩ := h
    exact .single (.service _ hk he)
  | fund number amount => exact .single (.fund number amount hk ⟨rfl, rfl⟩ h)
  | seed => exact h

/-- The row that a fund records is no deposit of a provider. -/
theorem LedgerStep.charged {s' : Sequences} (h : LedgerStep cfg F b b') (hk' : b'.Keyed s')
    (hc : b.Charged cfg) : b'.Charged cfg := by
  cases h with
  | service op _ he => exact he.charged hk' hc
  | fund number amount _ _ he =>
    obtain ⟨t, ht, -, hdetails, -⟩ := he.recorded
    exact (hc.addTransaction (t := t) (by simp [hdetails])).congr ht

namespace Store.Restartable

theorem conn (h : s.Restartable cfg) : Conn.Keyed ⟨s, Session.fresh⟩ := ⟨h.keyed, h.keyed⟩

theorem killed_keyed (h : s.Restartable cfg) (n : ℕ) (e : Entry) :
    (e.killed cfg web pay n s).db.books.Keyed (e.killed cfg web pay n s).seqs :=
  (Program.throughout_iff_killed.1 (h.conn.throughout cfg (e.program cfg web pay)) n).store

/-- A process that is killed leaves the books as they were, or as its entry point leaves
them. -/
theorem killed_cases (h : s.Restartable cfg) (web : Web) (pay : Payments) (n : ℕ) (e : Entry) :
    (e.killed cfg web pay n s).db.books = s.db.books ∨
      e.Effect cfg web pay s.db.books (e.killed cfg web pay n s).db.books :=
  Program.throughout_iff_killed.1 (e.throughout web pay h.keyed h.charged) n

/-- It takes them through whole movements. -/
theorem killed_steps (h : s.Restartable cfg) (n : ℕ) (e : Entry) :
    LedgerSteps cfg e.Funds s.db.books (e.killed cfg web pay n s).db.books := by
  rcases h.killed_cases web pay n e with hsame | he
  · rw [hsame]
  · exact he.steps ⟨_, h.killed_keyed n e⟩

theorem killed (h : s.Restartable cfg) (n : ℕ) (e : Entry) :
    (e.killed cfg web pay n s).Restartable cfg where
  keyed := h.killed_keyed n e
  charged := (h.killed_steps n e).invariant ⟨_, h.keyed⟩ h.charged
    fun _ _ _ _ _ hk' hstep hc => hstep.charged hk' hc

end Store.Restartable

theorem Store.restartable_empty : Store.empty.Restartable cfg where
  keyed := Books.keyed_empty
  charged := by simp [Books.Charged, Store.empty, Database.empty]

theorem restartable_of_run (h : Run (crash cfg web pay) C Store.empty s) : s.Restartable cfg :=
  h.invariant (I := Store.Restartable cfg) Store.restartable_empty fun x _ hs _ => hs.killed x.2 x.1

/-- **Whole or not at all.**  Wherever the processes before it have been killed, and wherever it
is killed itself, an entry point has had its whole effect on the books or none; the books are
what whole movements have made of the empty ones. -/
theorem atomic_of_crashes (h : Run (crash cfg web pay) C Store.empty s) :
    LedgerSteps cfg (fun _ _ _ => True) Store.empty.db.books s.db.books ∧
      ∀ (e : Entry) (n : ℕ), (e.killed cfg web pay n s).db.books = s.db.books ∨
        e.Effect cfg web pay s.db.books (e.killed cfg web pay n s).db.books := by
  refine ⟨?_, fun e n => (restartable_of_run h).killed_cases web pay n e⟩
  refine h.invariant_of (J := Store.Restartable cfg)
    (I := fun s => LedgerSteps cfg (fun _ _ _ => True) Store.empty.db.books s.db.books)
    (fun hr => restartable_of_run hr) .refl fun x s hs hI _ => ?_
  exact hI.trans (Relation.ReflTransGen.mono (fun _ _ hstep => hstep.mono fun _ _ _ _ => trivial)
    _ _ (hs.killed_steps x.2 x.1))

/-- One transfer, of 20 from the first account to the second, is all that bodies ask for. -/
def transferBodies : Web :=
  { transferSchema := fun _ => some ⟨"2000000000", "2000000001", 20⟩
    depositSchema := fun _ => none
    sha256 := fun _ => "e3b0c44298fc1c149afbf4c8996fb92427ae41e4649b934ca495991b7852b855" }

/-- That transfer, with a key. -/
def keyedRequest : HttpRequest :=
  { endpoint := .executeTransfer
    body := ""
    key := some "k"
    correlationId := some "c1"
    rates := [] }

/-- Alice and Bob have accounts, Alice has been funded twice, and the second command has been
killed before its commit. -/
def killedCommands : List (Entry × ℕ) :=
  [(.createAccount (some (.obj [("owner_id", .str "alice"), ("currency", .str "EUR")])), 9),
    (.createAccount (some (.obj [("owner_id", .str "bob"), ("currency", .str "EUR")])), 9),
    (.fund "2000000000" 50, 9), (.fund "2000000000" 70, 4)]

/-- The transfer is killed, anywhere. -/
theorem atomic_transfer :
    let cfg := offlineConfig 100
    let s := killedCommands.foldl (fun s x => crash cfg transferBodies signedPayments x s)
      Store.empty
    s.db.books.read 0 = 50 ∧ ∀ n,
      ((Entry.post keyedRequest).killed cfg transferBodies signedPayments n s).db.books =
          s.db.books ∨
        (Entry.post keyedRequest).Effect cfg transferBodies signedPayments s.db.books
          ((Entry.post keyedRequest).killed cfg transferBodies signedPayments n s).db.books := by
  intro cfg s
  have hrun : Run (crash cfg transferBodies signedPayments) anyOp Store.empty s := Run.foldl _
  exact ⟨by decide +kernel, (atomic_of_crashes hrun).2 (.post keyedRequest)⟩

/-! ## Money -/

/-- What the columns keep of the amount has the precision of the account's currency. -/
def Books.ExactFund (b : Books) (number : String) (amount : Decimal) : Prop :=
  ∀ a ∈ b.accounts, a.number = number →
    (∀ x ∈ Decimal.storeNumeric 28 8 amount, x ∈ Decimal.grid (decimalsFor a.currency)) ∧
      (LedgerEntry.credit a.id amount a.currency).stored ∈ Decimal.grid (decimalsFor a.currency)

/-- The operator funds no fraction of a cent. -/
def Entry.Exact : Entry × ℕ → Store → Prop
  | (.fund number amount, _), s => s.db.books.ExactFund number amount
  | _, _ => True

instance (b : Books) (number : String) (amount : Decimal) :
    Decidable (b.ExactFund number amount) :=
  inferInstanceAs (Decidable (∀ a ∈ b.accounts, a.number = number →
    (∀ x ∈ Decimal.storeNumeric 28 8 amount, x ∈ Decimal.grid (decimalsFor a.currency)) ∧
      (LedgerEntry.credit a.id amount a.currency).stored ∈ Decimal.grid (decimalsFor a.currency)))

instance (s : Store) : (x : Entry × ℕ) → Decidable (Entry.Exact x s)
  | (.fund number amount, _) => inferInstanceAs (Decidable (s.db.books.ExactFund number amount))
  | (.post _, _) => inferInstanceAs (Decidable True)
  | (.createAccount _, _) => inferInstanceAs (Decidable True)
  | (.getAccount _, _) => inferInstanceAs (Decidable True)
  | (.accountBalance _, _) => inferInstanceAs (Decidable True)
  | (.webhook _, _) => inferInstanceAs (Decidable True)
  | (.seed, _) => inferInstanceAs (Decidable True)

/-- The seeds fund whole units, which every currency has. -/
theorem exactFund_seeds {amount : Decimal} (h : amount ∈ Seeds.amounts) (b : Books)
    (number : String) : b.ExactFund number amount := by
  obtain ⟨n, hamount, hstore, hstored⟩ : ∃ n : ℤ, amount = n ∧
      Decimal.storeNumeric 28 8 amount = some amount ∧
        Decimal.storeNumeric 28 8 (Decimal.roundContext |amount|) = some amount := by
    simp only [Seeds.amounts, List.mem_cons, List.not_mem_nil, or_false] at h
    rcases h with rfl | rfl | rfl
    · exact ⟨200, by norm_num, by decide +kernel, by decide +kernel⟩
    · exact ⟨5000, by norm_num, by decide +kernel, by decide +kernel⟩
    · exact ⟨100, by norm_num, by decide +kernel, by decide +kernel⟩
  have hgrid : ∀ d, amount ∈ Decimal.grid d := fun d =>
    Decimal.grid_le (Nat.zero_le d) (Decimal.mem_grid_iff.2 ⟨n, by simp [hamount]⟩)
  intro a _ _
  refine ⟨fun x hx => ?_, ?_⟩
  · rw [hstore] at hx
    cases hx
    exact hgrid _
  · rw [PostingLine.stored, show (LedgerEntry.credit a.id amount a.currency).amount =
      Decimal.roundContext |amount| from rfl, hstored]
    exact hgrid _

theorem zeroSum_fundLines (clearingId accountId : Id) (amount : Decimal) (currency : String) :
    ZeroSum (fundLines clearingId accountId amount currency) := by
  intro c
  have hneg := stored_debit clearingId accountId amount currency
  by_cases hc : currency = c
  · simp [fundLines, PostingLine.store, LedgerEntry.debit, LedgerEntry.credit, hc] at hneg ⊢
    rw [hneg]
    simp
  · simp [fundLines, PostingLine.store, LedgerEntry.debit, LedgerEntry.credit, hc]

/-- What the books keep of every movement. -/
structure Books.Upright (b : Books) : Prop where
  linked : b.Linked
  balanced : b.Balanced
  cursors : b.CursorsDrawn

theorem Funded.upright {number : String} {amount : Decimal} (hf : Funded b number amount b')
    (h : b.Upright) (hexact : b.ExactFund number amount) : b'.Upright := by
  have hfunded : Funded (Store.mk ⟨b, [], []⟩ ⟨0, 1, 0⟩ []).db.books number amount b' := hf
  have hlinked := hfunded.linked h.linked hexact
  obtain ⟨account, clearing, b₁, t, es, -, -, -, hopened, -, -, -, hposted⟩ := hf
  have hbalanced : (b₁.addTransaction t).Balanced := h.balanced.congr hopened.rest.2.1
  have hcursors : b₁.CursorsDrawn := h.cursors.opened hopened
  refine ⟨hlinked.1, hbalanced.posted hposted ?_ (zeroSum_fundLines _ _ _ _),
    hcursors.addEntries es⟩
  simp [fundLines, PostingLine.store, LedgerEntry.debit, LedgerEntry.credit]

theorem LedgerStep.upright {s : Sequences} (h : LedgerStep cfg F b b') (hk : b.Keyed s)
    (hF : ∀ b number amount, F b number amount → b.ExactFund number amount) (hu : b.Upright) :
    b'.Upright := by
  cases h with
  | service op _ he =>
    exact ⟨he.linked hk hu.linked, he.balanced hk hu.linked hu.balanced, he.cursorsDrawn hu.cursors⟩
  | fund number amount _ hallowed he => exact he.funded.upright hu (hF _ _ _ hallowed)

/-- Funding whole cents, a process that is killed takes the books through movements that fund whole
cents. -/
theorem Store.Restartable.killed_exact (hs : s.Restartable cfg) (web : Web) (pay : Payments)
    {x : Entry × ℕ} (hexact : Entry.Exact x s) :
    LedgerSteps cfg Books.ExactFund s.db.books (crash cfg web pay x s).db.books := by
  obtain ⟨e, n⟩ := x
  have allowed : ∀ {F : Books → String → Decimal → Prop}, LedgerSteps cfg F s.db.books
      (e.killed cfg web pay n s).db.books → (∀ b number amount, F b number amount →
        b.ExactFund number amount) →
      LedgerSteps cfg Books.ExactFund s.db.books (e.killed cfg web pay n s).db.books :=
    fun hsteps hF => Relation.ReflTransGen.mono (fun _ _ hstep => hstep.mono hF) _ _ hsteps
  cases e with
  | fund number amount =>
    rcases hs.killed_cases web pay n (.fund number amount) with hsame | he
    · show LedgerSteps cfg _ _ ((Entry.fund number amount).killed cfg web pay n s).db.books
      rw [hsame]
    · exact .single (.fund number amount ⟨_, hs.killed_keyed n _⟩ hexact he)
  | seed => exact allowed (hs.killed_steps n .seed) fun _ _ _ hx => exactFund_seeds hx _ _
  | _ => exact allowed (hs.killed_steps n _) fun _ _ _ hx => hx.elim

/-- So do any number of them. -/
theorem ledger_of_crashes {s' : Store} (hs : s.Restartable cfg)
    (h : Run (crash cfg web pay) Entry.Exact s s') :
    LedgerSteps cfg Books.ExactFund s.db.books s'.db.books ∧ s'.Restartable cfg :=
  h.invariant (I := fun s' => LedgerSteps cfg Books.ExactFund s.db.books s'.db.books ∧
    s'.Restartable cfg) ⟨.refl, hs⟩ fun x _ hI hexact =>
      ⟨hI.1.trans (hI.2.killed_exact web pay hexact), hI.2.killed x.2 x.1⟩

/-- A store whose processes have been killed anywhere is sound. -/
theorem sound_of_crashes (h : Run (crash cfg web pay) Entry.Exact Store.empty s) : s.Sound := by
  obtain ⟨hsteps, hs⟩ := ledger_of_crashes Store.restartable_empty h
  have hu : s.db.books.Upright := hsteps.invariant ⟨_, Store.sound_empty.keyed⟩
    ⟨Store.sound_empty.linked, Store.sound_empty.balanced, Store.sound_empty.cursors⟩
    fun _ _ _ _ hk _ hstep hu => hstep.upright hk (fun _ _ _ hx => hx) hu
  exact ⟨hs.keyed, hu.linked, hu.balanced, hu.cursors⟩

/-- An entry is in the currency of its account. -/
theorem Store.Sound.currency_of_entry (h : s.Sound) {e : LedgerEntry} (he : e ∈ s.db.books.entries)
    {a : Account} (ha : a ∈ s.db.books.accounts) (hid : a.id = e.accountId) :
    a.currency = e.currency := by
  obtain ⟨x, hx, hxid, hcur⟩ := (h.linked.entries e he).account
  have hxid : x.id = e.accountId := hxid
  obtain rfl : x = a := eq_of_key_eq h.keyed.accountIds hx ha (hxid.trans hid.symm)
  exact hcur

/-- **Killing a process moves no money.**  Wherever the processes of requests, webhooks and
commands have been killed, the settled entries of every transaction sum to zero in every currency,
every entry is in the currency of its account, and the settled balances of the accounts of a
currency sum to zero, as long as the operator funds no fraction of a cent. -/
theorem conservation_of_crashes (h : Run (crash cfg web pay) Entry.Exact Store.empty s) :
    (∀ t ∈ s.db.books.transactions, ∀ c : String,
      tally (fun e => e.transactionId = t.id ∧ e.currency = c ∧ e.status = .success)
        LedgerEntry.amount s.db.books.entries = 0) ∧
    (∀ e ∈ s.db.books.entries, (∃ a ∈ s.db.books.accounts, a.id = e.accountId) ∧
      ∀ a ∈ s.db.books.accounts, a.id = e.accountId → a.currency = e.currency) ∧
    ∀ c : String, ((s.db.books.accounts.filter fun a => a.currency = c).map
      fun a => s.db.books.settled a.id).sum = 0 := by
  have hs := sound_of_crashes h
  refine ⟨fun t _ c => hs.balanced t.id c, fun e he => ⟨hs.keyed.entryAccount e he, ?_⟩,
    fun c => ?_⟩
  · exact fun a ha hid => hs.currency_of_entry he ha hid
  · rw [sum_settled_eq hs c, tally_currency_eq_zero hs c]

/-- Nor does it where the transfer has been killed after its commit. -/
theorem conservation_of_killed :
    let cfg := offlineConfig 100
    let s := (killedCommands ++ [(Entry.post keyedRequest, 25)]).foldl
      (fun s x => crash cfg transferBodies signedPayments x s) Store.empty
    s.db.books.read 0 = 30 ∧ ∀ c : String, ((s.db.books.accounts.filter fun a => a.currency = c).map
      fun a => s.db.books.settled a.id).sum = 0 := by
  intro cfg s
  have hrun : Run (crash cfg transferBodies signedPayments) Entry.Exact Store.empty s :=
    Run.of_along (by decide +kernel)
  exact ⟨by decide +kernel, (conservation_of_crashes hrun).2.2⟩

/-! ## Seeding -/

/-- The accounts of the seeds stay, wherever the processes after it are killed. -/
theorem Seeded.killed {numbers : List (String × String)} (h : Seeded s.db.books numbers) (n : ℕ)
    (e : Entry) : Seeded (e.killed cfg web pay n s).db.books numbers := by
  refine h.mono fun a ha => ?_
  have hthrough : (e.program cfg web pay).Throughout (Conn.exec cfg)
      (fun d => d.Everywhere fun _ db => a ∈ db.books.accounts) ⟨s, Session.fresh⟩ :=
    Conn.Everywhere.throughout (I := fun _ db => a ∈ db.books.accounts) (Q := fun _ => True)
      (fun _ h => h) (fun _ _ _ _ w _ h _ => w.mem_accounts h) (Program.all_true _) ⟨ha, ha⟩
  exact (Program.throughout_iff_killed.1 hthrough n).store

/-- **Seeding is done once.**  Once it has returned, it changes nothing any more, and returns the
same account numbers, whatever has been asked of the application since and wherever its processes
have been killed. -/
theorem seeded_once {numbers : List (String × String)} {c : Conn}
    (h : Run (crash cfg web pay) C Store.empty s)
    (hseed : runOn cfg (Seeds.seed cfg) ⟨s, Session.fresh⟩ = (.ok numbers, c)) {s' : Store}
    (hafter : Run (crash cfg web pay) C c.store s') :
    runOn cfg (Seeds.seed cfg) ⟨s', Session.fresh⟩ = (.ok numbers, ⟨s', Session.fresh⟩) := by
  have hs := restartable_of_run h
  have hseeded : Seeded c.store.db.books numbers := seed_returns hs.conn rfl hseed
  have hc : c.store.Restartable cfg := by
    obtain ⟨n, hn⟩ := Entry.killed_eq_run cfg web pay .seed s
    have hrun : Entry.run cfg web pay .seed s = c.store := by
      have hmap : Program.run (Conn.exec cfg) ((fun _ => none) <$> Seeds.seed cfg :
          App (Option Response)) ⟨s, Session.fresh⟩ = _ := Program.run_map _ _ _ _
      show (runOn cfg _ _).2.store = _
      rw [runOn, Entry.program, hmap, ← runOn, hseed]
    exact hrun ▸ hn ▸ hs.killed n .seed
  have hboth : s'.Restartable cfg ∧ Seeded s'.db.books numbers :=
    hafter.invariant (I := fun s => s.Restartable cfg ∧ Seeded s.db.books numbers) ⟨hc, hseeded⟩
      fun x s hs _ => ⟨hs.1.killed x.2 x.1, hs.2.killed x.2 x.1⟩
  exact seed_again hboth.1.conn rfl hboth.2

/-- The numbers of the seeds of an empty store. -/
def seedNumbers : List (String × String) :=
  [("alice", "2000000000"), ("bob", "2000000002"), ("kamga", "2000000003"),
    ("claire", "2000000005")]

/-- The seeds have been run, Alice is funded, and a second seeding is killed. -/
def seededStore : Store :=
  [(Entry.fund "2000000000" 50, 9), (.seed, 3)].foldl
    (fun s x => crash (offlineConfig 100) transferBodies signedPayments x s)
    (runOn (offlineConfig 100) (Seeds.seed (offlineConfig 100))
      ⟨Store.empty, Session.fresh⟩).2.store

/-- A third one finds everything there. -/
theorem seeded_again :
    runOn (offlineConfig 100) (Seeds.seed (offlineConfig 100)) ⟨seededStore, Session.fresh⟩ =
      (.ok seedNumbers, ⟨seededStore, Session.fresh⟩) := by
  have hseed : runOn (offlineConfig 100) (Seeds.seed (offlineConfig 100))
      ⟨Store.empty, Session.fresh⟩ = (.ok seedNumbers, _) := Prod.ext (by decide +kernel) rfl
  have hafter : Run (crash (offlineConfig 100) transferBodies signedPayments) anyOp _
      seededStore := Run.foldl _
  exact seeded_once .start hseed hafter

end WalletLedger
