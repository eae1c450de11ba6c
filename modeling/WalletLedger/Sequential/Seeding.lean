import WalletLedger.Sequential.Handling
import WalletLedger.Sequential.Funding

/-!
# The operator's commands

What funding and seeding do to the books, whole or in part.

* `OperatorFund` — what a fund records; `fund_commits`, `fundAccount_commits`.
* `LedgerStep` — one movement of the ledger: the effect of an operation, or a fund.
* `seed_throughout` — seeding takes the books through whole movements only.
-/

namespace WalletLedger

variable {cfg : Config} {α β : Type} {b b' : Books} {c d : Conn} {s : Store}
  {F : Books → String → Decimal → Prop}

/-! ## Funding -/

/-- What a fund records: its entries, and the row of a deposit that no provider knows. -/
inductive OperatorFund (b : Books) (number : String) (amount : Decimal) : Books → Prop
  | mk (account clearing : Account) (b₁ : Books) (t : Transaction) (es : List LedgerEntry)
      (account_mem : account ∈ b.accounts) (account_number : account.number = number)
      (owner : clearing.ownerId = clearingOwner)
      (code : clearing.currency = account.currency.toUpper)
      (opened : Opened clearingOwner account.currency.toUpper b clearing b₁)
      (stored : Decimal.storeNumeric 28 8 amount = some t.amount) (type : t.type = .deposit)
      (details : t.details = .empty) (settled : t.status = .success)
      (currency : t.currency = account.currency)
      (posted : Posted t.id (fundLines clearing.id account.id amount account.currency) es) :
      OperatorFund b number amount ((b₁.addTransaction t).addEntries es)

theorem OperatorFund.funded {number : String} {amount : Decimal}
    (h : OperatorFund b number amount b') : Funded b number amount b' := by
  obtain ⟨account, clearing, b₁, t, es, ha, hnumber, -, hcode, hopened, hstored, -, -, hsettled,
    hcurrency, hposted⟩ := h
  exact .mk account clearing b₁ t es ha hnumber hcode hopened hstored hsettled hcurrency hposted

theorem OperatorFund.recorded {number : String} {amount : Decimal}
    (h : OperatorFund b number amount b') : ∃ t, b'.transactions = b.transactions ++ [t] ∧
      t.type = .deposit ∧ t.details = .empty ∧ t.status = .success := by
  obtain ⟨account, clearing, b₁, t, es, -, -, -, -, hopened, -, htype, hdetails, hsettled,
    -, -⟩ := h
  exact ⟨t, congrArg (· ++ _) hopened.rest.1, htype, hdetails, hsettled⟩

theorem fund_commits {account : Account} {amount : Decimal} (ha : account ∈ b.accounts) :
    Commits cfg (OperatorFund b account.number amount) (Seeds.fund account amount) b := by
  unfold Seeds.fund
  refine .bind (quiet_getOrCreateInternal _ _) fun clearing b₁ h₁ => ?_
  obtain ⟨⟨howner, hcode⟩, hopened⟩ := getOrCreateInternal_ok h₁
  refine .bind (quiet_mutate _) fun t b₂ h₂ => ?_
  obtain ⟨seqs, db, w, rfl, hm, rfl⟩ := returns_mutate h₂
  obtain ⟨stored, hs, rfl, rfl⟩ := Mutation.exec_insertTransaction hm
  refine .bind (quiet_postEntries _) fun _ b₃ h₃ => ?_
  obtain ⟨_, b₄, h₄, h₅⟩ := returns_bind h₃
  obtain ⟨rfl, -⟩ := returns_ofExcept h₄
  have hlines : Returns cfg
      (Program.forEach
        [LedgerEntry.debit clearing.id amount account.currency,
          LedgerEntry.credit account.id amount account.currency] fun line =>
        ask (.mutate (.insertEntry line.accountId seqs.nextId line.amount line.entryType line.status
          line.currency))) _ _ b₃ := h₅
  obtain ⟨es, hes, rfl⟩ := stored_lines_ok hlines
  exact .commit trivial
    (.mk account clearing _ _ es ha rfl howner hcode hopened hs rfl rfl rfl rfl hes)

theorem fundAccount_commits {number : String} {amount : Decimal} :
    Commits cfg (OperatorFund b number amount) (Seeds.fundAccount number amount) b := by
  refine .bind (quiet_getByNumber _) fun account b₁ h₁ => ?_
  obtain ⟨rfl, ha, rfl⟩ := getByNumber_ok h₁
  exact (fund_commits ha).then (fun _ => trivial) fun _ => trivial

/-! ## Movements -/

/-- One movement of the ledger, between books with their keys: the effect of an operation, or a
fund that is allowed. -/
inductive LedgerStep (cfg : Config) (F : Books → String → Decimal → Prop) (b b' : Books) : Prop
  | service (op : Operation) (keyed : ∃ s : Sequences, b'.Keyed s) (effect : Effect cfg b op b')
  | fund (number : String) (amount : Decimal) (keyed : ∃ s : Sequences, b'.Keyed s)
      (allowed : F b number amount) (effect : OperatorFund b number amount b')

theorem LedgerStep.keyed (h : LedgerStep cfg F b b') : ∃ s : Sequences, b'.Keyed s := by
  cases h with
  | service op keyed effect => exact keyed
  | fund number amount keyed allowed effect => exact keyed

theorem LedgerStep.mono {G : Books → String → Decimal → Prop} (h : LedgerStep cfg F b b')
    (hFG : ∀ b number amount, F b number amount → G b number amount) : LedgerStep cfg G b b' := by
  cases h with
  | service op keyed effect => exact .service op keyed effect
  | fund number amount keyed allowed effect =>
    exact .fund number amount keyed (hFG _ _ _ allowed) effect

/-- Any number of movements. -/
abbrev LedgerSteps (cfg : Config) (F : Books → String → Decimal → Prop) : Books → Books → Prop :=
  Relation.ReflTransGen (LedgerStep cfg F)

/-- What every movement keeps. -/
theorem LedgerSteps.invariant {I : Books → Prop} (h : LedgerSteps cfg F b b')
    (hk : ∃ s : Sequences, b.Keyed s) (hI : I b)
    (hstep : ∀ (b b' : Books) (s s' : Sequences), b.Keyed s → b'.Keyed s' → LedgerStep cfg F b b' →
      I b → I b') : I b' := by
  have hboth : (∃ s : Sequences, b'.Keyed s) ∧ I b' := by
    induction h with
    | refl => exact ⟨hk, hI⟩
    | tail _ hlast ih =>
      obtain ⟨⟨s, hs⟩, hI⟩ := ih
      obtain ⟨s', hs'⟩ := hlast.keyed
      exact ⟨⟨s', hs'⟩, hstep _ _ s s' hs hs' hlast hI⟩
  exact hboth.2

/-- Every state on the way of a program has its keys. -/
theorem Conn.Keyed.throughout (cfg : Config) (hk : c.Keyed) (p : App α) :
    p.Throughout (Conn.exec cfg) Conn.Keyed c :=
  Program.Throughout.of_all (fun r _ _ hd => hd.exec r) p.all_true hk

/-- A program that commits one movement takes the books through movements. -/
theorem Commits.steps {b₀ : Books} {P : Books → Prop} {p : App α}
    (h : Commits cfg P p c.view.books) (hk : c.Keyed) (hc : c.session = Session.fresh)
    (hP : ∀ b', (∃ s : Sequences, b'.Keyed s) → P b' → LedgerStep cfg F c.store.db.books b')
    (hs : LedgerSteps cfg F b₀ c.store.db.books) :
    p.Throughout (Conn.exec cfg) (fun d => LedgerSteps cfg F b₀ d.store.db.books) c := by
  refine ((h.throughout (by rw [hc]; rfl)).and (hk.throughout cfg p)).mono fun d hd => ?_
  obtain ⟨hd | hd, hkeyed⟩ := hd
  · exact hd.symm ▸ hs
  · exact hs.tail (hP _ ⟨_, hkeyed.store⟩ hd)

/-- A harmless one through none. -/
theorem Harmless.steps {b₀ : Books} {p : App α} (h : Harmless p) (hc : c.session.Beside)
    (hs : LedgerSteps cfg F b₀ c.store.db.books) :
    p.Throughout (Conn.exec cfg) (fun d => LedgerSteps cfg F b₀ d.store.db.books) c := by
  refine (h.throughout cfg hc).mono fun d hd => ?_
  rwa [hd]

theorem beside_of_fresh (hc : c.session = Session.fresh) : c.session.Beside := by
  rw [hc]
  exact Session.beside_nil false

/-! ## Sessions between two movements -/

theorem view_of_fresh (hc : c.session = Session.fresh) : c.view = c.store.db := by
  unfold Conn.view
  rw [hc]
  rfl

/-- A request that is answered. -/
theorem exec_of_run_ask {r : Request} {v : r.Result} (h : runOn cfg (ask r) c = (.ok v, d)) :
    Conn.exec cfg r c = (.ok v, d) := by
  have hrun : runOn cfg (ask r) c =
      ((Conn.exec cfg r c).1.mapError .service, (Conn.exec cfg r c).2) :=
    Program.run_ofExcept _ _ _
  rw [hrun] at h
  cases hx : Conn.exec cfg r c with
  | mk o t =>
    rw [hx] at h
    cases o with
    | error e => cases congrArg Prod.fst h
    | ok v' =>
      cases h
      rfl

/-- A commit that goes through leaves a fresh session. -/
theorem fresh_of_commit {a x : α}
    (h : runOn cfg (ask .commit >>= fun _ => .ret a) c = (.ok x, d)) :
    d.session = Session.fresh := by
  obtain ⟨_, t, ht, hret⟩ := (Program.run_bind_ok _).1 h
  obtain rfl := congrArg Prod.snd hret
  have hx := exec_of_run_ask ht
  rw [Conn.exec_commit] at hx
  split at hx
  · cases congrArg Prod.fst hx
  · obtain rfl := congrArg Prod.snd hx
    rfl

/-- What `create` does with an error. -/
def createRefused (ownerId currency : String) (e : Exn) : App Account :=
  match e with
  | .service .integrity => do
      ask .rollback
      .raise (.domain (.duplicateAccount ownerId currency))
  | e => .raise e

theorem raises_createRefused (ownerId currency : String) (e : Exn) :
    Raises (createRefused ownerId currency e) := by
  unfold createRefused
  split
  · exact fun v => by cases v <;> trivial
  · trivial

theorem fresh_of_create {ownerId currency : String} {a : Account}
    (h : runOn cfg (AccountService.create ownerId currency) c = (.ok a, d)) :
    d.session = Session.fresh := by
  obtain ⟨a', t, -, ht⟩ := (Program.run_bind_ok _).1
    (run_attempt_raises (raises_createRefused ownerId currency) h)
  exact fresh_of_commit ht

theorem fresh_of_fund {account : Account} {amount : Decimal} {u : Unit}
    (h : runOn cfg (Seeds.fund account amount) c = (.ok u, d)) : d.session = Session.fresh := by
  obtain ⟨clearing, t₁, -, h₁⟩ := (Program.run_bind_ok _).1 h
  obtain ⟨txn, t₂, -, h₂⟩ := (Program.run_bind_ok _).1 h₁
  obtain ⟨_, t₃, -, h₃⟩ := (Program.run_bind_ok _).1 h₂
  exact fresh_of_commit h₃

/-- A query leaves the session as it is. -/
theorem same_of_select {q : Query} {v : q.Result}
    (h : runOn cfg (ask (.select q)) c = (.ok v, d)) : d = c ∧ v = q.eval c.view := by
  have hx := exec_of_run_ask h
  obtain ⟨-, hv, hd⟩ := Conn.exec_select_ok cfg c (congrArg Prod.fst hx)
  rw [hx] at hd
  exact ⟨hd, hv⟩

theorem reloadAccount_returns {id : Id} {a : Account}
    (h : runOn cfg (reloadAccount id) c = (.ok a, d)) :
    d = c ∧ a ∈ c.view.books.accounts ∧ a.id = id := by
  obtain ⟨found, t, ht, hret⟩ := (Program.run_bind_ok _).1 h
  obtain ⟨rfl, rfl⟩ := same_of_select ht
  cases hfound : (Query.account id).eval t.view with
  | none =>
    rw [hfound] at hret
    cases congrArg Prod.fst hret
  | some x =>
    rw [hfound] at hret
    cases hret
    exact ⟨rfl, List.mem_of_find?_eq_some hfound, by simpa using List.find?_some hfound⟩

/-! ## Accounts stay -/

theorem Write.mem_accounts (w : Write) {a : Account} (h : a ∈ b.accounts) :
    a ∈ (w.applyBooks b).accounts := by
  cases w <;> first | exact h | exact List.mem_append_left _ h

/-- No program removes an account, or changes one. -/
theorem mem_accounts_run (p : App α) {a : Account} (hc : c.session = Session.fresh)
    (h : a ∈ c.store.db.books.accounts) : a ∈ (runOn cfg p c).2.store.db.books.accounts :=
  Conn.run_invariant (I := fun b => a ∈ b.accounts) (fun _ _ _ _ w h _ => w.mem_accounts h) p h
    (by rw [view_of_fresh hc]; exact h)

/-- A new account is there. -/
theorem create_returns {ownerId currency : String} {a : Account}
    (h : runOn cfg (AccountService.create ownerId currency) c = (.ok a, d)) :
    a ∈ d.store.db.books.accounts ∧ a.ownerId = ownerId ∧ a.currency = currency.toUpper := by
  obtain ⟨v, t, hinsert, ht⟩ := (Program.run_bind_ok _).1
    (run_attempt_raises (raises_createRefused ownerId currency) h)
  have hx := exec_of_run_ask hinsert
  obtain ⟨-, w, hm, hwrote⟩ := Conn.exec_mutate_ok cfg c (congrArg Prod.fst hx)
  rw [hx] at hwrote
  obtain ⟨hv, rfl, -⟩ := Mutation.exec_insertAccount hm
  obtain ⟨_, u, hcommit, hret⟩ := (Program.run_bind_ok _).1 ht
  cases hret
  have hcommit := exec_of_run_ask hcommit
  rw [Conn.exec_commit] at hcommit
  split at hcommit
  · cases congrArg Prod.fst hcommit
  · obtain rfl := congrArg Prod.snd hcommit
    obtain rfl : t = _ := hwrote
    refine ⟨?_, by rw [hv], by rw [hv]⟩
    show a ∈ (Conn.view _).books.accounts
    rw [Conn.view_wrote]
    exact List.mem_append_right _ (List.mem_singleton_self a)

/-! ## Seeding -/

/-- An account that is ensured is there; where it was there before, nothing has been done. -/
structure Ensured (ownerId currency : String) (c : Conn) (x : Account × Bool) (d : Conn) :
    Prop where
  fresh : d.session = Session.fresh
  mem : x.1 ∈ d.store.db.books.accounts
  owner : x.1.ownerId = ownerId
  code : x.1.currency = currency
  found : (∃ a ∈ c.store.db.books.accounts, a.ownerId = ownerId ∧ a.currency = currency) →
    d = c ∧ x.2 = false

theorem ensure_returns {ownerId currency : String} {fundAmount : Option Decimal}
    {x : Account × Bool} (hupper : currency.toUpper = currency) (hc : c.session = Session.fresh)
    (hk : c.Keyed) (h : runOn cfg (Seeds.ensure ownerId currency fundAmount) c = (.ok x, d)) :
    Ensured ownerId currency c x d := by
  obtain ⟨found, t, ht, h⟩ := (Program.run_bind_ok _).1 h
  obtain ⟨rfl, rfl⟩ := same_of_select ht
  rw [view_of_fresh hc] at h
  cases hfound : (Query.accountByOwner ownerId currency).eval t.store.db with
  | some a =>
    rw [hfound] at h
    cases h
    obtain ⟨howner, hcode⟩ : a.ownerId = ownerId ∧ a.currency = currency := by
      simpa using List.find?_some hfound
    exact ⟨hc, List.mem_of_find?_eq_some hfound, howner, hcode, fun _ => ⟨rfl, rfl⟩⟩
  | none =>
    rw [hfound] at h
    have hnone :
        ¬ ∃ a ∈ t.store.db.books.accounts, a.ownerId = ownerId ∧ a.currency = currency := by
      rintro ⟨a, ha, hown⟩
      simpa [hown] using List.find?_eq_none.1 hfound a ha
    obtain ⟨a, u, hcreate, h⟩ := (Program.run_bind_ok _).1 h
    obtain ⟨ha, howner, hcode⟩ := create_returns hcreate
    rw [hupper] at hcode
    have hu := fresh_of_create hcreate
    cases fundAmount with
    | none =>
      cases h
      exact ⟨hu, ha, howner, hcode, fun hex => absurd hex hnone⟩
    | some amount =>
      have hfunds : runOn cfg (reloadAccount a.id >>= fun account => Seeds.fund account amount >>=
          fun _ => .ret (account, true)) u = (.ok x, d) := h
      obtain ⟨a', u', hreload, hrest⟩ := (Program.run_bind_ok _).1 hfunds
      obtain ⟨rfl, ha', hid⟩ := reloadAccount_returns hreload
      rw [view_of_fresh hu] at ha'
      have hkeyed : (runOn cfg (AccountService.create ownerId currency) t).2.Keyed := hk.run _
      rw [runOn, hcreate] at hkeyed
      obtain rfl : a' = a := eq_of_key_eq hkeyed.store.accountIds ha' ha hid
      obtain ⟨_, v, hfund, hret⟩ := (Program.run_bind_ok _).1 hrest
      cases hret
      have hkept : a' ∈ (runOn cfg (Seeds.fund a' amount) u').2.store.db.books.accounts :=
        mem_accounts_run _ hu ha'
      rw [runOn, hfund] at hkept
      exact ⟨fresh_of_fund hfund, hkept, howner, hcode, fun hex => absurd hex hnone⟩

/-- On its way, it goes through whole movements. -/
theorem ensure_throughout {b₀ : Books} {ownerId currency : String} {fundAmount : Option Decimal}
    (hF : ∀ amount ∈ fundAmount, ∀ b number, F b number amount) (hk : c.Keyed)
    (hc : c.session = Session.fresh) (hs : LedgerSteps cfg F b₀ c.store.db.books) :
    (Seeds.ensure ownerId currency fundAmount).Throughout (Conn.exec cfg)
      (fun d => LedgerSteps cfg F b₀ d.store.db.books) c := by
  have hselect : (ask (.select (.accountByOwner ownerId currency))).Throughout (Conn.exec cfg)
      (fun d => LedgerSteps cfg F b₀ d.store.db.books) c :=
    (harmless_ask rfl).steps (beside_of_fresh hc) hs
  refine hselect.bind fun found t ht _ => ?_
  obtain ⟨rfl, -⟩ := same_of_select ht
  cases found with
  | some a => exact hs
  | none =>
    refine Program.Throughout.bind ?_ fun a u hcreate hu => ?_
    · refine createAccount_effect.steps hk hc (fun _ hkeyed he => ?_) hs
      rw [view_of_fresh hc] at he
      exact .service _ hkeyed he
    · have hfresh := fresh_of_create hcreate
      have hkeyed : (runOn cfg (AccountService.create ownerId currency) t).2.Keyed := hk.run _
      rw [runOn, hcreate] at hkeyed
      cases fundAmount with
      | none => exact hu
      | some amount =>
        have hreload : (reloadAccount a.id).Throughout (Conn.exec cfg)
            (fun d => LedgerSteps cfg F b₀ d.store.db.books) u :=
          (harmless_reloadAccount _).steps (beside_of_fresh hfresh) hu
        refine hreload.bind fun a' v hv _ => ?_
        obtain ⟨rfl, ha', -⟩ := reloadAccount_returns hv
        refine ((fund_commits ha').steps hkeyed hfresh (fun b' hb' he => ?_) hu).bind
          fun _ _ _ hd => hd
        rw [view_of_fresh hfresh] at he
        exact .fund _ _ hb' (hF amount rfl _ _) he

theorem harmless_numbers (alice bob kamga claire : Account) :
    Harmless (Seeds.numbers alice bob kamga claire) :=
  (harmless_reloadAccount _).bind fun _ => (harmless_reloadAccount _).bind fun _ =>
    (harmless_reloadAccount _).bind fun _ => (harmless_reloadAccount _).bind fun _ => trivial

/-- What the seeds fund. -/
def Seeds.amounts : List Decimal := [200, 5000, 100]

theorem seed_throughout (hF : ∀ amount ∈ Seeds.amounts, ∀ b number, F b number amount)
    (hk : c.Keyed) (hc : c.session = Session.fresh) :
    (Seeds.seed cfg).Throughout (Conn.exec cfg)
      (fun d => LedgerSteps cfg F c.store.db.books d.store.db.books) c := by
  have hs : LedgerSteps cfg F c.store.db.books c.store.db.books := .refl
  have next : ∀ {ownerId currency : String} {fundAmount : Option Decimal} {x : Account × Bool}
      {c d : Conn}, currency.toUpper = currency → c.session = Session.fresh → c.Keyed →
      runOn cfg (Seeds.ensure ownerId currency fundAmount) c = (.ok x, d) →
      d.session = Session.fresh ∧ d.Keyed := by
    intro ownerId currency fundAmount x c d hupper hc hk h
    have hkeyed : (runOn cfg (Seeds.ensure ownerId currency fundAmount) c).2.Keyed := hk.run _
    rw [h] at hkeyed
    exact ⟨(ensure_returns hupper hc hk h).fresh, hkeyed⟩
  have amounts : ∀ {x : Decimal}, x ∈ Seeds.amounts →
      ∀ amount ∈ some x, ∀ b number, F b number amount := by
    rintro x hx amount ⟨⟩
    exact hF _ hx
  have nothing : ∀ amount ∈ (none : Option Decimal), ∀ b number, F b number amount := by
    rintro amount ⟨⟩
  unfold Seeds.seed
  refine (ensure_throughout (amounts (by simp [Seeds.amounts])) hk hc hs).bind fun x t₁ h₁ hs₁ => ?_
  obtain ⟨hc₁, hk₁⟩ := next (by decide +kernel) hc hk h₁
  obtain ⟨alice, created⟩ := x
  refine (ensure_throughout nothing hk₁ hc₁ hs₁).bind fun x t₂ h₂ hs₂ => ?_
  obtain ⟨hc₂, hk₂⟩ := next (by decide +kernel) hc₁ hk₁ h₂
  obtain ⟨bob, _⟩ := x
  refine (ensure_throughout (amounts (by simp [Seeds.amounts])) hk₂ hc₂ hs₂).bind
    fun x t₃ h₃ hs₃ => ?_
  obtain ⟨hc₃, hk₃⟩ := next (by decide +kernel) hc₂ hk₂ h₃
  obtain ⟨kamga, _⟩ := x
  refine (ensure_throughout (amounts (by simp [Seeds.amounts])) hk₃ hc₃ hs₃).bind
    fun x t₄ h₄ hs₄ => ?_
  obtain ⟨hc₄, hk₄⟩ := next (by decide +kernel) hc₃ hk₃ h₄
  obtain ⟨claire, _⟩ := x
  dsimp only
  have hnumbers := harmless_numbers alice bob kamga claire
  split
  · refine ((harmless_reloadAccount _).steps (beside_of_fresh hc₄) hs₄).bind fun a t ha _ => ?_
    obtain ⟨rfl, -, -⟩ := reloadAccount_returns ha
    refine ((harmless_reloadAccount _).steps (beside_of_fresh hc₄) hs₄).bind fun b t hb _ => ?_
    obtain ⟨rfl, -, -⟩ := reloadAccount_returns hb
    have heffect : Commits cfg (Effect cfg t.view.books (.execute a.id b.id 30 none))
        (TransferService.execute cfg a.id b.id 30 none) t.view.books := execute_effect
    refine (heffect.steps hk₄ hc₄ (fun _ hkeyed he => ?_) hs₄).bind fun txn t₅ h₅ hs₅ => ?_
    · rw [view_of_fresh hc₄] at he
      exact .service _ hkeyed he
    · have h₅ : runOn cfg (TransferService.execute cfg a.id b.id 30 none) t = (.ok txn, t₅) := h₅
      have hfirst := (Operation.commitsFirst cfg (.execute a.id b.id 30 none)).of_map
      have hidle := heffect.run_idle hfirst (by rw [hc₄]; rfl) (by rw [h₅]; rfl)
      rw [h₅] at hidle
      exact hnumbers.steps hidle hs₅
  · exact hnumbers.steps (beside_of_fresh hc₄) hs₄

/-! ## Seeding again -/

/-- The accounts that seeding returns the numbers of. -/
structure Seeded (b : Books) (numbers : List (String × String)) : Prop where
  accounts : ∃ alice ∈ b.accounts, ∃ bob ∈ b.accounts, ∃ kamga ∈ b.accounts, ∃ claire ∈ b.accounts,
    (alice.ownerId = "alice" ∧ alice.currency = "USD") ∧
    (bob.ownerId = "bob" ∧ bob.currency = "USD") ∧
    (kamga.ownerId = "kamga" ∧ kamga.currency = "XAF") ∧
    (claire.ownerId = "claire" ∧ claire.currency = "EUR") ∧
    numbers = [("alice", alice.number), ("bob", bob.number), ("kamga", kamga.number),
      ("claire", claire.number)]

theorem Seeded.mono {numbers : List (String × String)} (h : Seeded b numbers)
    (hb : ∀ a ∈ b.accounts, a ∈ b'.accounts) : Seeded b' numbers := by
  obtain ⟨alice, ha, bob, hb', kamga, hk, claire, hc, hall⟩ := h.accounts
  exact ⟨alice, hb _ ha, bob, hb _ hb', kamga, hb _ hk, claire, hb _ hc, hall⟩

/-- An account that is selected again is itself. -/
theorem reloadAccount_same (hk : c.Keyed) {a x : Account} (ha : a ∈ c.view.books.accounts)
    (h : runOn cfg (reloadAccount a.id) c = (.ok x, d)) : d = c ∧ x = a := by
  obtain ⟨rfl, hx, hid⟩ := reloadAccount_returns h
  exact ⟨rfl, eq_of_key_eq hk.view.accountIds hx ha hid⟩

theorem numbers_returns (hk : c.Keyed) {alice bob kamga claire : Account}
    (ha : alice ∈ c.view.books.accounts) (hb : bob ∈ c.view.books.accounts)
    (hm : kamga ∈ c.view.books.accounts) (hl : claire ∈ c.view.books.accounts)
    {numbers : List (String × String)}
    (h : runOn cfg (Seeds.numbers alice bob kamga claire) c = (.ok numbers, d)) :
    d = c ∧ numbers = [("alice", alice.number), ("bob", bob.number), ("kamga", kamga.number),
      ("claire", claire.number)] := by
  obtain ⟨a, t₁, h₁, hrest₁⟩ := (Program.run_bind_ok _).1 h
  obtain ⟨rfl, rfl⟩ := reloadAccount_same hk ha h₁
  obtain ⟨b, t₂, h₂, hrest₂⟩ := (Program.run_bind_ok _).1 hrest₁
  obtain ⟨rfl, rfl⟩ := reloadAccount_same hk hb h₂
  obtain ⟨m, t₃, h₃, hrest₃⟩ := (Program.run_bind_ok _).1 hrest₂
  obtain ⟨rfl, rfl⟩ := reloadAccount_same hk hm h₃
  obtain ⟨l, t₄, h₄, hrest₄⟩ := (Program.run_bind_ok _).1 hrest₃
  obtain ⟨rfl, rfl⟩ := reloadAccount_same hk hl h₄
  cases hrest₄
  exact ⟨rfl, rfl⟩

/-- Seeding that has returned has its accounts. -/
theorem seed_returns (hk : c.Keyed) (hc : c.session = Session.fresh)
    {numbers : List (String × String)} (h : runOn cfg (Seeds.seed cfg) c = (.ok numbers, d)) :
    Seeded d.store.db.books numbers := by
  have keyed : ∀ {α : Type} {p : App α} {o : Except Exn α} {c d : Conn}, c.Keyed →
      runOn cfg p c = (o, d) → d.Keyed := by
    intro α p o c d hk h
    have hkeyed : (runOn cfg p c).2.Keyed := hk.run p
    rwa [h] at hkeyed
  have kept : ∀ {α : Type} {p : App α} {o : Except Exn α} {c d : Conn} {a : Account},
      c.session = Session.fresh → runOn cfg p c = (o, d) → a ∈ c.store.db.books.accounts →
      a ∈ d.store.db.books.accounts := by
    intro α p o c d a hc h ha
    have hkept : a ∈ (runOn cfg p c).2.store.db.books.accounts := mem_accounts_run p hc ha
    rwa [h] at hkept
  obtain ⟨x₁, t₁, h₁, hrest₁⟩ := (Program.run_bind_ok _).1 h
  have e₁ := ensure_returns (by decide +kernel) hc hk h₁
  have k₁ := keyed hk h₁
  obtain ⟨x₂, t₂, h₂, hrest₂⟩ := (Program.run_bind_ok _).1 hrest₁
  have e₂ := ensure_returns (by decide +kernel) e₁.fresh k₁ h₂
  have k₂ := keyed k₁ h₂
  obtain ⟨x₃, t₃, h₃, hrest₃⟩ := (Program.run_bind_ok _).1 hrest₂
  have e₃ := ensure_returns (by decide +kernel) e₂.fresh k₂ h₃
  have k₃ := keyed k₂ h₃
  obtain ⟨x₄, t₄, h₄, hrest₄⟩ := (Program.run_bind_ok _).1 hrest₃
  have e₄ := ensure_returns (by decide +kernel) e₃.fresh k₃ h₄
  have k₄ := keyed k₃ h₄
  have hbob := kept e₃.fresh h₄ (kept e₂.fresh h₃ e₂.mem)
  have halice := kept e₃.fresh h₄ (kept e₂.fresh h₃ (kept e₁.fresh h₂ e₁.mem))
  have hkamga := kept e₃.fresh h₄ e₃.mem
  -- what is left runs on books that hold the four accounts
  have finish : ∀ {u : Conn}, u.Keyed → u.view.books = u.store.db.books →
      (∀ a ∈ t₄.store.db.books.accounts, a ∈ u.store.db.books.accounts) →
      runOn cfg (Seeds.numbers x₁.1 x₂.1 x₃.1 x₄.1) u = (.ok numbers, d) →
      Seeded d.store.db.books numbers := by
    intro u hku hview hmem hrun
    obtain ⟨rfl, rfl⟩ := numbers_returns hku (hview ▸ hmem _ halice) (hview ▸ hmem _ hbob)
      (hview ▸ hmem _ hkamga) (hview ▸ hmem _ e₄.mem) hrun
    exact ⟨x₁.1, hmem _ halice, x₂.1, hmem _ hbob, x₃.1, hmem _ hkamga, x₄.1, hmem _ e₄.mem,
      ⟨e₁.owner, e₁.code⟩, ⟨e₂.owner, e₂.code⟩, ⟨e₃.owner, e₃.code⟩, ⟨e₄.owner, e₄.code⟩, rfl⟩
  dsimp only at hrest₄
  split at hrest₄
  · obtain ⟨a, t₅, h₅, hrest₅⟩ := (Program.run_bind_ok _).1 hrest₄
    obtain ⟨rfl, -, -⟩ := reloadAccount_returns h₅
    obtain ⟨b, t₆, h₆, hrest₆⟩ := (Program.run_bind_ok _).1 hrest₅
    obtain ⟨rfl, -, -⟩ := reloadAccount_returns h₆
    obtain ⟨txn, u, hexecute, hrest₇⟩ := (Program.run_bind_ok _).1 hrest₆
    have hexecute : runOn cfg (TransferService.execute cfg a.id b.id 30 none) t₆ = (.ok txn, u) :=
      hexecute
    have hfirst := (Operation.commitsFirst cfg (.execute a.id b.id 30 none)).of_map
    have hidle := execute_effect.run_idle hfirst (by rw [e₄.fresh]; rfl) (by rw [hexecute]; rfl)
    rw [hexecute] at hidle
    exact finish (keyed k₄ hexecute) hidle.view (fun a ha => kept e₄.fresh hexecute ha) hrest₇
  · exact finish k₄ (beside_of_fresh e₄.fresh).view (fun a ha => ha) hrest₄

/-- An account that is there is selected. -/
theorem run_reloadAccount (hk : c.Keyed) (hc : c.session = Session.fresh) {a : Account}
    (ha : a ∈ c.store.db.books.accounts) :
    runOn cfg (reloadAccount a.id) c = (.ok a, c) := by
  have hfound : (Query.account a.id).eval c.view = some a := by
    rw [view_of_fresh hc]
    exact find?_of_key hk.store.accountIds ha
  have hx : Conn.exec cfg (.select (.account a.id)) c = (.ok (some a), c) := by
    rw [Conn.exec_select, hc, hfound]
    rfl
  exact run_answered hx

/-- It is ensured by selecting it. -/
theorem ensure_again (hk : c.Keyed) (hc : c.session = Session.fresh) {a : Account}
    {ownerId currency : String} {fundAmount : Option Decimal}
    (ha : a ∈ c.store.db.books.accounts) (hown : a.ownerId = ownerId ∧ a.currency = currency) :
    runOn cfg (Seeds.ensure ownerId currency fundAmount) c = (.ok (a, false), c) := by
  have hfound : (Query.accountByOwner ownerId currency).eval c.view = some a := by
    rw [view_of_fresh hc, ← hown.1, ← hown.2]
    have hkey := find?_of_key hk.store.owners ha
    simp only [Prod.mk.injEq] at hkey
    exact hkey
  have hx : Conn.exec cfg (.select (.accountByOwner ownerId currency)) c = (.ok (some a), c) := by
    rw [Conn.exec_select, hc, hfound]
    rfl
  exact run_answered hx

/-- Where its accounts are, seeding changes nothing, and says the same. -/
theorem seed_again (hk : c.Keyed) (hc : c.session = Session.fresh)
    {numbers : List (String × String)} (h : Seeded c.store.db.books numbers) :
    runOn cfg (Seeds.seed cfg) c = (.ok numbers, c) := by
  obtain ⟨alice, ha, bob, hb, kamga, hm, claire, hl, hA, hB, hM, hL, rfl⟩ := h.accounts
  have ensured : ∀ {a : Account} {ownerId currency : String} {fundAmount : Option Decimal},
      a ∈ c.store.db.books.accounts → a.ownerId = ownerId ∧ a.currency = currency →
        runOn cfg (Seeds.ensure ownerId currency fundAmount) c = (.ok (a, false), c) :=
    ensure_again hk hc
  have reload : ∀ {a : Account}, a ∈ c.store.db.books.accounts →
      runOn cfg (reloadAccount a.id) c = (.ok a, c) := run_reloadAccount hk hc
  refine (Program.run_bind_ok _).2 ⟨_, _, ensured ha hA, ?_⟩
  refine (Program.run_bind_ok _).2 ⟨_, _, ensured hb hB, ?_⟩
  refine (Program.run_bind_ok _).2 ⟨_, _, ensured hm hM, ?_⟩
  refine (Program.run_bind_ok _).2 ⟨_, _, ensured hl hL, ?_⟩
  refine (Program.run_bind_ok _).2 ⟨_, _, reload ha, ?_⟩
  refine (Program.run_bind_ok _).2 ⟨_, _, reload hb, ?_⟩
  refine (Program.run_bind_ok _).2 ⟨_, _, reload hm, ?_⟩
  exact (Program.run_bind_ok _).2 ⟨_, _, reload hl, rfl⟩

end WalletLedger
