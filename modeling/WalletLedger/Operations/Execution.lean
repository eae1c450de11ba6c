import WalletLedger.Operations.Effects

/-!
# Running an operation to its end

What an operation alone on the store comes to, for the statements that are known to go
through.  `Ends cfg p c Q` says that the program, run on the session `c`, ends as `Q`
says; there is one rule for each thing a program does.

* `Conn.Open` — a session that answers, with the committed books and those it sees.
* `ends_select`, `ends_mutate`, `ends_refused`, `ends_commit` — the requests;
  `ends_quiet` — any program up to the commit, by what it may return.
* `ends_lock`, `ends_get`, `ends_availableBalance`, `ends_maybeSnapshot`, `ends_publish` — the
  services.
-/

namespace WalletLedger

variable {cfg : Config} {α β : Type} {b b₀ : Books} {c : Conn}

/-- Run on the session, the program ends as `Q` says. -/
def Ends (cfg : Config) (p : App α) (c : Conn) (Q : Except Exn α → Conn → Prop) : Prop :=
  Q (runOn cfg p c).1 (runOn cfg p c).2

/-- A session that answers, the books that are committed, and the books it sees. -/
structure Conn.Open (c : Conn) (b₀ b : Books) : Prop where
  alive : c.session.failed = false
  committed : c.store.db.books = b₀
  sees : c.view.books = b
  keyed : c.Keyed

theorem Conn.open_fresh {s : Store} (h : s.db.books.Keyed s.seqs) :
    Conn.Open ⟨s, Session.fresh⟩ s.db.books s.db.books := ⟨rfl, rfl, rfl, ⟨h, h⟩⟩

theorem Conn.Open.view_keyed (h : c.Open b₀ b) : b.Keyed c.store.seqs := h.sees ▸ h.keyed.view

section rules

variable {Q : Except Exn β → Conn → Prop} {f : α → App β}

theorem ends_ret {a : β} (h : Q (.ok a) c) : Ends cfg (.ret a) c Q := h

theorem ends_mono {p : App α} {Q Q' : Except Exn α → Conn → Prop} (h : Ends cfg p c Q)
    (hQ : ∀ o d, Q o d → Q' o d) : Ends cfg p c Q' := hQ _ _ h

theorem ends_and {p : App α} {Q Q' : Except Exn α → Conn → Prop} (h : Ends cfg p c Q)
    (h' : Ends cfg p c Q') : Ends cfg p c fun o d => Q o d ∧ Q' o d := ⟨h, h'⟩

theorem ends_bind {p : App α}
    (h : Ends cfg p c fun o d =>
      match o with
      | .ok a => Ends cfg (f a) d Q
      | .error e => Q (.error e) d) :
    Ends cfg (p >>= f) c Q := by
  unfold Ends at h ⊢
  rw [runOn, Program.run_bind]
  cases hp : Program.run (Conn.exec cfg) p c with
  | mk o d =>
    rw [runOn, hp] at h
    cases o <;> exact h

/-- Dropping the result. -/
theorem ends_map {p : App α} {g : α → β} (h : Ends cfg p c fun o d => Q (o.map g) d) :
    Ends cfg (g <$> p) c Q := by
  rw [map_eq_pure_bind]
  refine ends_bind ?_
  unfold Ends at h ⊢
  dsimp only at h ⊢
  cases ho : (runOn cfg p c).1 <;> rw [ho] at h <;> exact h

theorem ends_ofExcept {x : Except Exn α} {a : α} (hx : x = .ok a) (h : Ends cfg (f a) c Q) :
    Ends cfg (Program.ofExcept x >>= f) c Q := by
  rw [hx]
  exact h

theorem ends_raises {x : Except Exn α} {e : Exn} (hx : x = .error e) (h : Q (.error e) c) :
    Ends cfg (Program.ofExcept x >>= f) c Q := by
  rw [hx]
  exact h

theorem ends_ofOption {e : Exn} {o : Option α} {a : α} (ho : o = some a)
    (h : Ends cfg (f a) c Q) : Ends cfg (ofOption e o >>= f) c Q := by
  rw [ho]
  exact h

theorem ends_raiseIf {p : Prop} [Decidable p] {e : Exn} {f : Unit → App β} (hp : ¬ p)
    (h : Ends cfg (f ()) c Q) : Ends cfg (raiseIf p e >>= f) c Q := by
  rw [raiseIf, if_neg hp]
  exact h

theorem ends_raisesIf {p : Prop} [Decidable p] {e : Exn} {f : Unit → App β} (hp : p)
    (h : Q (.error e) c) : Ends cfg (raiseIf p e >>= f) c Q := by
  rw [raiseIf, if_pos hp]
  exact h

/-! ## Requests -/

theorem ends_ask_ok {r : Request} {f : r.Result → App β} {v : r.Result} {d : Conn}
    (hx : Conn.exec cfg r c = (.ok v, d)) (h : Ends cfg (f v) d Q) :
    Ends cfg (ask r >>= f) c Q := by
  unfold Ends
  rw [run_ask_ok hx]
  exact h

theorem ends_ask_error {r : Request} {f : r.Result → App β} {e : ServiceError} {d : Conn}
    (hx : Conn.exec cfg r c = (.error e, d)) (h : Q (.error (.service e)) d) :
    Ends cfg (ask r >>= f) c Q := by
  unfold Ends
  rw [run_ask_error hx]
  exact h

theorem exec_select_live (halive : c.session.failed = false) (q : Query) :
    Conn.exec cfg (.select q) c = (.ok (q.eval c.view), c) := by
  rw [Conn.exec_select, halive]
  rfl

theorem ends_select {q : Query} {f : q.Result → App β} (ho : c.Open b₀ b)
    (h : Ends cfg (f (q.eval c.view)) c Q) : Ends cfg (ask (.select q) >>= f) c Q :=
  ends_ask_ok (exec_select_live ho.alive q) h

/-- A statement that goes through, and the generators after it. -/
theorem ends_mutate_next {m : Mutation} {f : m.Result → App β} (ho : c.Open b₀ b) {v : m.Result}
    {w : Write} (hm : m.exec cfg c.store.seqs c.view = .ok (v, w))
    (h : ∀ d : Conn, d.Open b₀ (w.applyBooks b) → d.store.seqs = m.advance c.store.seqs →
      Ends cfg (f v) d Q) :
    Ends cfg (ask (.mutate m) >>= f) c Q := by
  have hx := Conn.exec_goes ho.alive hm
  refine ends_ask_ok hx (h _ ⟨rfl, ho.committed, ?_, ?_⟩ rfl)
  · rw [Conn.view_wrote, ← ho.sees]
    rfl
  · have hk : (Conn.exec cfg (.mutate m) c).2.Keyed := ho.keyed.exec (.mutate m)
    rwa [hx] at hk

/-- A statement that goes through. -/
theorem ends_mutate {m : Mutation} {f : m.Result → App β} (ho : c.Open b₀ b) {v : m.Result}
    {w : Write} (hm : m.exec cfg c.store.seqs c.view = .ok (v, w))
    (h : ∀ d : Conn, d.Open b₀ (w.applyBooks b) → Ends cfg (f v) d Q) :
    Ends cfg (ask (.mutate m) >>= f) c Q :=
  ends_mutate_next ho hm fun d hd _ => h d hd

/-- A statement that is refused: nothing of the session is left. -/
theorem ends_refused {m : Mutation} {f : m.Result → App β} (ho : c.Open b₀ b) {e : ServiceError}
    (hm : m.exec cfg c.store.seqs c.view = .error e)
    (h : ∀ d : Conn, d.store.db.books = b₀ → Q (.error (.service e)) d) :
    Ends cfg (ask (.mutate m) >>= f) c Q := by
  exact ends_ask_error (Conn.exec_refused ho.alive hm) (h _ ho.committed)

theorem Conn.Open.commit (ho : c.Open b₀ b) : c.committed.Open b b :=
  ⟨rfl, ho.sees, ho.sees, ho.keyed.view, ho.keyed.view⟩

/-- A session that answers commits what it sees. -/
theorem ends_committed {f : Unit → App β} (halive : c.session.failed = false)
    (h : Ends cfg (f ()) c.committed Q) : Ends cfg (ask .commit >>= f) c Q := by
  have hx : Conn.exec cfg .commit c = (.ok (), c.committed) := by
    rw [Conn.exec_commit, halive]
    rfl
  exact ends_ask_ok hx h

theorem ends_commit {f : Unit → App β} (ho : c.Open b₀ b)
    (h : ∀ d : Conn, d.Open b b → d.session.writes = [] → Ends cfg (f ()) d Q) :
    Ends cfg (ask .commit >>= f) c Q :=
  ends_committed ho.alive (h c.committed ho.commit rfl)

/-- A program that does not commit: whatever it returns, or raises. -/
theorem ends_quiet {p : App α} (hp : Quiet p) (ho : c.Open b₀ b)
    (h : ∀ (a : α) (b' : Books) (d : Conn), Returns cfg p b a b' → d.Open b₀ b' →
      Ends cfg (f a) d Q)
    (he : ∀ (e : Exn) (d : Conn), d.store.db.books = b₀ → Q (.error e) d) :
    Ends cfg (p >>= f) c Q := by
  induction p generalizing c b with
  | ret a => exact h a b c ⟨rfl, rfl⟩ ho
  | raise e => exact he e c ho.committed
  | call r k ih =>
    show Ends cfg (k (Conn.exec cfg r c).1 >>= f) (Conn.exec cfg r c).2 Q
    cases hx : Conn.exec cfg r c with
    | mk v c' =>
      cases v with
      | error e =>
        obtain ⟨x, hraise⟩ := hp.2.1 e
        have hdb := (Conn.exec_error hx ho.alive).1
        dsimp only
        rw [hraise]
        exact he x c' (by rw [hdb, ho.committed])
      | ok v =>
        obtain ⟨hans, hdb, hsession⟩ := answers_of_exec hx hp.1
        have halive : c'.session.failed = false := by
          rcases hsession with hs | hs
          · rw [hs, ho.alive]
          · exact hs
        have hkeyed : (Conn.exec cfg r c).2.Keyed := ho.keyed.exec r
        rw [hx] at hkeyed
        rw [ho.sees] at hans
        exact ih _ (hp.2.2 v) ⟨halive, by rw [hdb, ho.committed], rfl, hkeyed⟩
          fun a b' d ha hd => h a b' d ⟨v, _, hans, ha⟩ hd

theorem quiet_run {p : App α} (hp : Quiet p) (ho : c.Open b₀ b) :
    Ends cfg p c fun o d =>
      match o with
      | .ok a => ∃ b', Returns cfg p b a b' ∧ d.Open b₀ b'
      | .error _ => d.store.db.books = b₀ := by
  rw [← Program.bind_ret p]
  refine ends_quiet hp ho (fun a b' d ha hd => ends_ret ⟨b', ?_, hd⟩) fun _ _ hd => hd
  rwa [Program.bind_ret]

/-! ## Services -/

theorem Conn.Open.find_account (ho : c.Open b₀ b) {a : Account} (ha : a ∈ b.accounts) :
    c.view.books.accounts.find? (fun x => x.id = a.id) = some a := by
  rw [ho.sees]
  exact find?_of_key ho.view_keyed.accountIds ha

theorem Conn.Open.find_account_missing (ho : c.Open b₀ b) {id : Id}
    (ha : ∀ a ∈ b.accounts, a.id ≠ id) :
    c.view.books.accounts.find? (fun x => x.id = id) = none := by
  rw [ho.sees]
  exact List.find?_eq_none.2 fun a hmem => by simpa using ha a hmem

theorem Conn.Open.find_transaction (ho : c.Open b₀ b) {t : Transaction} (ht : t ∈ b.transactions) :
    c.view.books.transactions.find? (fun x => x.id = t.id) = some t := by
  rw [ho.sees]
  exact find?_of_key ho.view_keyed.transactionIds ht

theorem ends_lock {f : Account → App β} (ho : c.Open b₀ b) {a : Account} (ha : a ∈ b.accounts)
    (h : Ends cfg (f a) c Q) : Ends cfg (AccountService.lock a.id >>= f) c Q := by
  unfold AccountService.lock
  rw [Program.bind_assoc]
  exact ends_select ho (ends_ofOption (ho.find_account ha) h)

theorem ends_get {f : Account → App β} (ho : c.Open b₀ b) {a : Account} (ha : a ∈ b.accounts)
    (h : Ends cfg (f a) c Q) : Ends cfg (AccountService.get a.id >>= f) c Q := by
  unfold AccountService.get
  rw [Program.bind_assoc]
  exact ends_select ho (ends_ofOption (ho.find_account ha) h)

/-- An account that is not there. -/
theorem ends_lock_missing {f : Account → App β} (ho : c.Open b₀ b) {id : Id}
    (ha : ∀ a ∈ b.accounts, a.id ≠ id)
    (h : Q (.error (.domain (.accountNotFound id.text))) c) :
    Ends cfg (AccountService.lock id >>= f) c Q := by
  unfold AccountService.lock
  rw [Program.bind_assoc]
  refine ends_select ho ?_
  have hnone : (Query.accountForUpdate id).eval c.view = none := ho.find_account_missing ha
  rw [hnone]
  exact h

theorem ends_get_missing {f : Account → App β} (ho : c.Open b₀ b) {id : Id}
    (ha : ∀ a ∈ b.accounts, a.id ≠ id)
    (h : Q (.error (.domain (.accountNotFound id.text))) c) :
    Ends cfg (AccountService.get id >>= f) c Q := by
  unfold AccountService.get
  rw [Program.bind_assoc]
  refine ends_select ho ?_
  have hnone : (Query.account id).eval c.view = none := ho.find_account_missing ha
  rw [hnone]
  exact h

/-- A session that answers reads its balances off the books it sees. -/
theorem run_balance (halive : c.session.failed = false) (a : Account) :
    runOn cfg (LedgerService.balance a) c = (c.view.books.balance a, c) := by
  unfold LedgerService.balance LedgerService.latestSnapshot LedgerService.sum
  rw [run_ask_ok (exec_select_live halive _), run_ask_ok (exec_select_live halive _)]
  exact Program.run_ofExcept _ _ _

theorem run_availableBalance (halive : c.session.failed = false) (a : Account) :
    runOn cfg (LedgerService.availableBalance a) c = (c.view.books.availableBalance a, c) := by
  unfold LedgerService.availableBalance LedgerService.sum
  rw [runOn, Program.run_bind, ← runOn, run_balance halive, Books.availableBalance]
  cases c.view.books.balance a with
  | error e => rfl
  | ok settled =>
    show runOn cfg (ask _ >>= _) c = _
    rw [run_ask_ok (exec_select_live halive _)]
    exact Program.run_ofExcept _ _ _

/-- An available balance is computed from the books. -/
theorem ends_availableBalance {f : Money → App β} (ho : c.Open b₀ b) {account : Account}
    (h : ∀ m, b.availableBalance account = .ok m → Ends cfg (f m) c Q)
    (he : ∀ e, b.availableBalance account = .error e → Q (.error e) c) :
    Ends cfg (LedgerService.availableBalance account >>= f) c Q := by
  obtain rfl := ho.sees
  refine ends_bind ?_
  unfold Ends
  rw [run_availableBalance ho.alive]
  cases hb : c.view.books.availableBalance account with
  | error e => exact he e hb
  | ok m => exact h m hb

/-- The correlation identifier is the one that is given, or is drawn. -/
theorem ends_correlationIdOr {f : String → App β} (ho : c.Open b₀ b)
    {correlationId : Option String}
    (hgiven : ∀ text, correlationId = some text → text ≠ "" → Ends cfg (f text) c Q)
    (hdrawn : correlationId = none ∨ correlationId = some "" → ∀ d : Conn, d.Open b₀ b →
      d.store.seqs = { c.store.seqs with nextId := c.store.seqs.nextId + 1 } →
      Ends cfg (f c.store.seqs.nextId.text) d Q) :
    Ends cfg (correlationIdOr correlationId >>= f) c Q := by
  have draw : correlationId = none ∨ correlationId = some "" →
      Ends cfg ((Id.text <$> ask .uuid4) >>= f) c Q := by
    intro hnone
    have hk : (Conn.exec cfg .uuid4 c).2.Keyed := ho.keyed.exec .uuid4
    rw [map_eq_pure_bind, Program.bind_assoc]
    exact ends_ask_ok rfl (hdrawn hnone _ ⟨ho.alive, ho.committed, ho.sees, hk⟩ rfl)
  unfold correlationIdOr
  cases correlationId with
  | none => exact draw (.inl rfl)
  | some text =>
    by_cases htext : text = ""
    · dsimp only
      rw [if_pos htext]
      exact draw (.inr (congrArg some htext))
    · dsimp only
      rw [if_neg htext]
      exact hgiven text rfl htext

/-- The number of the next new account. -/
def Sequences.nextNumber (cfg : Config) (s : Sequences) : String :=
  accountNumber (cfg.randbelow s.draws)

/-- An internal account is found, or opened unless the next number is taken; then the number
after it is drawn next. -/
theorem ends_getOrCreateInternal_next {ownerId currency : String} {f : Account → App β}
    (ho : c.Open b₀ b) (howner : fitsIn 64 ownerId = true) (hcur : fitsIn 3 currency.toUpper = true)
    (hfound : ∀ a, b.accounts.find? (fun x => x.ownerId = ownerId ∧ x.currency = currency.toUpper) =
      some a → Ends cfg (f a) c Q)
    (hnew : (∀ x ∈ b.accounts, ¬ (x.ownerId = ownerId ∧ x.currency = currency.toUpper)) →
      (∀ x ∈ b.accounts, x.number ≠ c.store.seqs.nextNumber cfg) →
      ∀ (a : Account) (d : Conn), a.ownerId = ownerId ∧ a.currency = currency.toUpper →
        a.number = c.store.seqs.nextNumber cfg →
        d.Open b₀ { b with accounts := b.accounts ++ [a] } →
        d.store.seqs = (Mutation.insertAccount ownerId currency.toUpper).advance c.store.seqs →
        Ends cfg (f a) d Q)
    (htaken : (∀ x ∈ b.accounts, ¬ (x.ownerId = ownerId ∧ x.currency = currency.toUpper)) →
      (∃ x ∈ b.accounts, x.number = c.store.seqs.nextNumber cfg) →
      ∀ d : Conn, d.store.db.books = b₀ → Q (.error (.service .integrity)) d) :
    Ends cfg (AccountService.getOrCreateInternal ownerId currency >>= f) c Q := by
  unfold AccountService.getOrCreateInternal
  rw [Program.bind_assoc]
  refine ends_select ho ?_
  have hquery : (Query.accountByOwner ownerId currency.toUpper).eval c.view =
      b.accounts.find? fun x => x.ownerId = ownerId ∧ x.currency = currency.toUpper := by
    rw [← ho.sees]
    rfl
  rw [hquery]
  cases hfind : b.accounts.find? fun x => x.ownerId = ownerId ∧ x.currency = currency.toUpper with
  | some a => exact hfound a hfind
  | none =>
    have hnone : ∀ x ∈ b.accounts, ¬ (x.ownerId = ownerId ∧ x.currency = currency.toUpper) := by
      intro x hx
      simpa using List.find?_eq_none.1 hfind x hx
    have hunique : c.view.books.accounts.any (fun x =>
        x.number = c.store.seqs.nextNumber cfg ∨
          x.ownerId = ownerId ∧ x.currency = currency.toUpper) =
        b.accounts.any fun x => x.number = c.store.seqs.nextNumber cfg := by
      rw [ho.sees, Bool.eq_iff_iff]
      simp only [List.any_eq_true, decide_eq_true_eq]
      exact ⟨fun ⟨x, hx, h⟩ => ⟨x, hx, h.resolve_right (hnone x hx)⟩,
        fun ⟨x, hx, h⟩ => ⟨x, hx, .inl h⟩⟩
    by_cases htakes : ∃ x ∈ b.accounts, x.number = c.store.seqs.nextNumber cfg
    · refine ends_refused ho (e := .integrity) ?_ (htaken hnone htakes)
      have hany : (b.accounts.any fun x => x.number = c.store.seqs.nextNumber cfg) = true := by
        simpa using htakes
      unfold Sequences.nextNumber at hunique hany
      dsimp only [Mutation.exec]
      rw [if_neg (by simp [howner, hcur]), if_pos (hunique.trans hany)]
    · refine ends_mutate_next ho (v := ⟨c.store.seqs.nextId, c.store.seqs.nextNumber cfg, ownerId,
        currency.toUpper⟩) (w := .addAccount ⟨c.store.seqs.nextId, c.store.seqs.nextNumber cfg,
          ownerId, currency.toUpper⟩) ?_
        fun d hd hseqs => hnew hnone (by simpa using htakes) _ d ⟨rfl, rfl⟩ rfl hd hseqs
      have hany : (b.accounts.any fun x => x.number = c.store.seqs.nextNumber cfg) = false := by
        simpa using htakes
      unfold Sequences.nextNumber at hunique hany
      dsimp only [Mutation.exec]
      rw [if_neg (by simp [howner, hcur]), if_neg (by rw [hunique, hany]; simp)]
      rfl

/-- An internal account is found, or opened unless the next number is taken. -/
theorem ends_getOrCreateInternal {ownerId currency : String} {f : Account → App β}
    (ho : c.Open b₀ b) (howner : fitsIn 64 ownerId = true) (hcur : fitsIn 3 currency.toUpper = true)
    (hfound : ∀ a, b.accounts.find? (fun x => x.ownerId = ownerId ∧ x.currency = currency.toUpper) =
      some a → Ends cfg (f a) c Q)
    (hnew : (∀ x ∈ b.accounts, ¬ (x.ownerId = ownerId ∧ x.currency = currency.toUpper)) →
      (∀ x ∈ b.accounts, x.number ≠ c.store.seqs.nextNumber cfg) →
      ∀ (a : Account) (d : Conn), a.ownerId = ownerId ∧ a.currency = currency.toUpper →
        d.Open b₀ { b with accounts := b.accounts ++ [a] } → Ends cfg (f a) d Q)
    (htaken : (∀ x ∈ b.accounts, ¬ (x.ownerId = ownerId ∧ x.currency = currency.toUpper)) →
      (∃ x ∈ b.accounts, x.number = c.store.seqs.nextNumber cfg) →
      ∀ d : Conn, d.store.db.books = b₀ → Q (.error (.service .integrity)) d) :
    Ends cfg (AccountService.getOrCreateInternal ownerId currency >>= f) c Q :=
  ends_getOrCreateInternal_next ho howner hcur hfound
    (fun hnone hfree a d ha _ hd _ => hnew hnone hfree a d ha hd) htaken

theorem ends_reloadAccount {f : Account → App β} (ho : c.Open b₀ b) {a : Account}
    (ha : a ∈ b.accounts) (h : Ends cfg (f a) c Q) :
    Ends cfg (reloadAccount a.id >>= f) c Q := by
  unfold reloadAccount
  rw [Program.bind_assoc]
  exact ends_select ho (ends_ofOption (ho.find_account ha) h)

theorem ends_reloadTransaction {f : Transaction → App β} (ho : c.Open b₀ b) {t : Transaction}
    (ht : t ∈ b.transactions) (h : Ends cfg (f t) c Q) :
    Ends cfg (reloadTransaction t.id >>= f) c Q := by
  unfold reloadTransaction
  rw [Program.bind_assoc]
  exact ends_select ho (ends_ofOption (ho.find_transaction ht) h)

/-- An entry of a transaction and an account that are there. -/
theorem ends_insertEntry {f : Unit → App β} (ho : c.Open b₀ b) {accountId transactionId : Id}
    {amount : Decimal} {entryType : EntryType} {status : EntryStatus} {currency : String}
    (hstore : Decimal.storeNumeric 28 8 amount = some amount) (hcur : fitsIn 3 currency = true)
    (ha : ∃ a ∈ b.accounts, a.id = accountId) (ht : ∃ t ∈ b.transactions, t.id = transactionId)
    (h : ∀ d : Conn, d.Open b₀ (b.addEntries [⟨c.store.seqs.nextId, c.store.seqs.nextSeq, accountId,
      transactionId, amount, entryType, status, currency⟩]) → Ends cfg (f ()) d Q) :
    Ends cfg (ask (.mutate (.insertEntry accountId transactionId amount entryType status currency))
      >>= f) c Q := by
  refine ends_mutate ho (v := ()) (w := .addEntry ⟨c.store.seqs.nextId, c.store.seqs.nextSeq,
    accountId, transactionId, amount, entryType, status, currency⟩) ?_ h
  obtain ⟨a, ha, haid⟩ := ha
  obtain ⟨t, ht, htid⟩ := ht
  rw [← ho.sees] at ha ht
  have hrefs : c.view.books.accounts.any (fun a => a.id = accountId) = true ∧
      c.view.books.transactions.any (fun t => t.id = transactionId) = true :=
    ⟨List.any_eq_true.2 ⟨a, ha, decide_eq_true haid⟩,
      List.any_eq_true.2 ⟨t, ht, decide_eq_true htid⟩⟩
  dsimp only [Mutation.exec]
  rw [hstore]
  simp [hcur, hrefs]

/-- A new transaction that fits its columns takes the next identifier. -/
theorem ends_insertTransaction_next {type : TransactionType} {status : TransactionStatus}
    {amount : Decimal} {currency : String} {details : Details} {correlationId : Option String}
    {f : Transaction → App β} (ho : c.Open b₀ b)
    (hstore : Decimal.storeNumeric 28 8 amount = some amount) (hcur : fitsIn 3 currency = true)
    (hcorr : correlationId.all (fitsIn 36) = true)
    (h : ∀ (t : Transaction) (d : Conn),
      t = ⟨c.store.seqs.nextId, type, status, amount, currency, details, none, correlationId⟩ →
      d.Open b₀ (b.addTransaction t) → Ends cfg (f t) d Q) :
    Ends cfg (ask (.mutate (.insertTransaction type status amount currency details correlationId))
      >>= f) c Q := by
  let t : Transaction :=
    ⟨c.store.seqs.nextId, type, status, amount, currency, details, none, correlationId⟩
  refine ends_mutate ho (v := t) (w := .addTransaction t) ?_ fun d hd => h t d rfl hd
  dsimp only [Mutation.exec]
  rw [hstore]
  simp [hcur, hcorr, t]

/-- A new transaction that fits its columns. -/
theorem ends_insertTransaction {type : TransactionType} {status : TransactionStatus}
    {amount : Decimal} {currency : String} {details : Details} {correlationId : Option String}
    {f : Transaction → App β} (ho : c.Open b₀ b)
    (hstore : Decimal.storeNumeric 28 8 amount = some amount) (hcur : fitsIn 3 currency = true)
    (hcorr : correlationId.all (fitsIn 36) = true)
    (h : ∀ (t : Transaction) (d : Conn),
      t = ⟨t.id, type, status, amount, currency, details, none, correlationId⟩ →
      d.Open b₀ (b.addTransaction t) → Ends cfg (f t) d Q) :
    Ends cfg (ask (.mutate (.insertTransaction type status amount currency details correlationId))
      >>= f) c Q :=
  ends_insertTransaction_next ho hstore hcur hcorr fun t d ht hd => h t d (ht ▸ rfl) hd

/-- One that does not fit is refused. -/
theorem ends_insertTransaction_refused {type : TransactionType} {status : TransactionStatus}
    {amount : Decimal} {currency : String} {details : Details} {correlationId : Option String}
    {f : Transaction → App β} (ho : c.Open b₀ b) (hgrid : amount ∈ Decimal.grid 8)
    (hfit : ¬ (Decimal.storeNumeric 28 8 amount = some amount ∧ fitsIn 3 currency = true ∧
      correlationId.all (fitsIn 36) = true))
    (h : ∀ d : Conn, d.store.db.books = b₀ → Q (.error (.service .data)) d) :
    Ends cfg (ask (.mutate (.insertTransaction type status amount currency details correlationId))
      >>= f) c Q := by
  refine ends_refused ho (e := .data) ?_ h
  dsimp only [Mutation.exec]
  cases hstore : Decimal.storeNumeric 28 8 amount with
  | none => rfl
  | some stored =>
    obtain rfl := Decimal.eq_of_storeNumeric le_rfl hgrid hstore
    rw [hstore] at hfit
    dsimp only
    rw [if_pos fun hboth => hfit ⟨rfl, hboth⟩]

/-- A debit and a credit of one amount that fits its column. -/
theorem ends_postPair {transaction : TransactionAggregate} {id : Id} (debit credit : PostingLine)
    {f : Unit → App β} (ho : c.Open b₀ b) (hlines : transaction.lines = [debit, credit])
    (hcur : debit.currency = credit.currency) (hamount : debit.amount = -credit.amount)
    (hstore : Decimal.storeNumeric 28 8 credit.amount = some credit.amount)
    (hfit : fitsIn 3 credit.currency = true) (hd : ∃ a ∈ b.accounts, a.id = debit.accountId)
    (hc : ∃ a ∈ b.accounts, a.id = credit.accountId) (ht : ∃ t ∈ b.transactions, t.id = id)
    (h : ∀ (es : List LedgerEntry) (d : Conn), Posted id [debit, credit] es →
      d.Open b₀ (b.addEntries es) → Ends cfg (f ()) d Q) :
    Ends cfg (LedgerService.post transaction id >>= f) c Q := by
  unfold LedgerService.post
  rw [Program.bind_assoc]
  have hstore' : Decimal.storeNumeric 28 8 debit.amount = some debit.amount :=
    Decimal.storeNumeric_abs hstore (by rw [hamount, abs_neg])
  have hdebit : Decimal.roundContext debit.amount = debit.amount :=
    Decimal.roundContext_of_fits (Decimal.storeNumeric_mem_grid hstore')
      (Decimal.storeNumeric_fits hstore')
  refine ends_ofExcept (TransactionAggregate.assertBalanced_pair hlines hcur hamount hdebit) ?_
  rw [hlines, Program.forEach, Program.bind_assoc]
  refine ends_insertEntry ho hstore' (hcur ▸ hfit) hd ht fun c₁ h₁ => ?_
  rw [Program.forEach, Program.bind_assoc]
  refine ends_insertEntry h₁ hstore hfit hc ht fun c₂ h₂ => ?_
  refine h [⟨c.store.seqs.nextId, c.store.seqs.nextSeq, debit.accountId, id, debit.amount,
      debit.entryType, debit.status, debit.currency⟩,
    ⟨c₁.store.seqs.nextId, c₁.store.seqs.nextSeq, credit.accountId, id, credit.amount,
      credit.entryType, credit.status, credit.currency⟩] c₂ ⟨rfl, ?_⟩ ?_
  · intro e he
    simp only [List.mem_cons, List.not_mem_nil, or_false] at he
    rcases he with rfl | rfl <;> rfl
  · simpa [Books.addEntries] using h₂

theorem ends_updateEntryStatus {f : Unit → App β} (ho : c.Open b₀ b) {id : Id}
    (he : ∃ e ∈ b.entries, e.id = id) {status : EntryStatus}
    (h : ∀ d : Conn, d.Open b₀ (b.setEntry id status) → Ends cfg (f ()) d Q) :
    Ends cfg (ask (.mutate (.updateEntryStatus id status)) >>= f) c Q := by
  refine ends_mutate ho (v := ()) (w := .setEntryStatus id status) ?_ h
  obtain ⟨e, he, hid⟩ := he
  rw [← ho.sees] at he
  have hany : c.view.books.entries.any (fun x => x.id = id) = true :=
    List.any_eq_true.2 ⟨e, he, decide_eq_true hid⟩
  dsimp only [Mutation.exec]
  rw [if_pos hany]

/-- The statuses of entries that are there. -/
theorem ends_setEntries {f : Unit → App β} {es : List LedgerEntry} {status : EntryStatus}
    (ho : c.Open b₀ b) (hes : ∀ e ∈ es, ∃ x ∈ b.entries, x.id = e.id)
    (h : ∀ d : Conn, d.Open b₀ (es.foldl (fun b e => b.setEntry e.id status) b) →
      Ends cfg (f ()) d Q) :
    Ends cfg ((Program.forEach es fun e => ask (.mutate (.updateEntryStatus e.id status))) >>= f)
      c Q := by
  induction es generalizing b c with
  | nil => exact h c ho
  | cons e es ih =>
    rw [Program.forEach, Program.bind_assoc]
    refine ends_updateEntryStatus ho (hes e (by simp)) fun d hd => ih hd ?_ h
    intro x hx
    obtain ⟨y, hy, hid⟩ := hes x (by simp [hx])
    refine ⟨_, mem_modify.2 ⟨y, hy, rfl⟩, ?_⟩
    split <;> exact hid

theorem ends_updateTransactionStatus {f : Unit → App β} (ho : c.Open b₀ b) {t : Transaction}
    (ht : t ∈ b.transactions) {status : TransactionStatus}
    (h : ∀ d : Conn, d.Open b₀ (b.setTransaction t.id status) → Ends cfg (f ()) d Q) :
    Ends cfg (ask (.mutate (.updateTransactionStatus t.id status)) >>= f) c Q := by
  refine ends_mutate ho (v := ()) (w := .setTransactionStatus t.id status) ?_ h
  rw [← ho.sees] at ht
  have hany : c.view.books.transactions.any (fun x => x.id = t.id) = true :=
    List.any_eq_true.2 ⟨t, ht, decide_eq_true rfl⟩
  dsimp only [Mutation.exec]
  rw [if_pos hany]

/-- The snapshot the account is due, if any, can be written. -/
def Books.CutFits (cfg : Config) (b : Books) (accountId : Id) : Prop :=
  let snapshot := b.latestSnapshot accountId
  let entries := b.settledAfter accountId (LedgerService.snapshotCursor snapshot)
  cfg.snapshotEveryNEntries ≤ entries.length → entries ≠ [] ∧
    (Decimal.storeNumeric 28 8
      (LedgerService.snapshotBase snapshot + (entries.map LedgerEntry.amount).sum)).isSome

theorem exec_insertSnapshot_goes (cfg : Config) (halive : c.session.failed = false) {accountId : Id}
    {balance stored : Decimal} (ha : ∃ x ∈ c.view.books.accounts, x.id = accountId)
    (hstore : Decimal.storeNumeric 28 8 balance = some stored) (lastEntrySeq entryCount : ℕ) :
    Conn.exec cfg (.mutate (.insertSnapshot accountId balance lastEntrySeq entryCount)) c =
      (.ok (), c.wrote { c.store.seqs with nextId := c.store.seqs.nextId + 1 }
        (.addSnapshot ⟨c.store.seqs.nextId, accountId, stored, lastEntrySeq, entryCount⟩)) := by
  refine Conn.exec_goes halive ?_
  have hany : c.view.books.accounts.any (fun x => x.id = accountId) = true := by simpa using ha
  dsimp only [Mutation.exec]
  rw [hstore]
  simp [hany]

/-- `maybe_snapshot` on a session that answers: the one statement it may make is the insertion of
the snapshot that is due, and it raises where that cannot be written. -/
theorem ends_snapshot {f : Unit → App β} (halive : c.session.failed = false) {a : Account}
    (ha : ∃ x ∈ c.view.books.accounts, x.id = a.id)
    (h : c.view.books.CutFits cfg a.id → ∀ d : Conn,
      (d = c ∨ ∃ (m : Mutation) (v : m.Result), Conn.exec cfg (.mutate m) c = (.ok v, d)) →
      Cut cfg a.id c.view.books d.view.books → Ends cfg (f ()) d Q)
    (he : ¬ c.view.books.CutFits cfg a.id → ∀ (e : Exn) (d : Conn), e = .service .data ∨
      e = .indexError ∧ cfg.snapshotEveryNEntries ≤ 0 → d.store.db = c.store.db → Q (.error e) d) :
    Ends cfg (LedgerService.maybeSnapshot cfg a >>= f) c Q := by
  unfold LedgerService.maybeSnapshot LedgerService.latestSnapshot
  rw [Program.bind_assoc]
  refine ends_ask_ok (exec_select_live halive _) ?_
  rw [Program.bind_assoc]
  refine ends_ask_ok (exec_select_live halive _) ?_
  generalize hbooks : c.view.books = b at *
  have hsnapshot : (Query.latestSnapshot a.id).eval c.view = b.latestSnapshot a.id := by
    rw [← hbooks]
    rfl
  rw [hsnapshot]
  set cursor := LedgerService.snapshotCursor (b.latestSnapshot a.id) with hcursor
  have hentries : (Query.entriesAfter a.id cursor).eval c.view =
      (b.settledAfter a.id cursor).map fun e => (e.seq, e.amount) := by
    rw [← hbooks]
    rfl
  rw [hentries]
  by_cases hfew : ((b.settledAfter a.id cursor).length : ℤ) < cfg.snapshotEveryNEntries
  · rw [if_pos (by simpa using hfew)]
    refine h (fun hle => absurd hle (not_le.2 hfew)) c (.inl rfl) ?_
    rw [hbooks]
    exact .skip hfew
  rw [if_neg (by simpa using hfew), Program.bind_assoc]
  rw [List.getLast?_map]
  cases hlast : (b.settledAfter a.id cursor).getLast? with
  | none =>
    have hnil : b.settledAfter a.id cursor = [] := List.getLast?_eq_none_iff.1 hlast
    refine he (fun hfits => (hfits (not_lt.1 hfew)).1 hnil) _ c (.inr ⟨rfl, ?_⟩) rfl
    rw [hnil] at hfew
    simpa using hfew
  | some last =>
    refine ends_ofOption rfl ?_
    rw [List.map_map]
    have hamounts : (Prod.snd ∘ fun e : LedgerEntry => (e.seq, e.amount)) = LedgerEntry.amount :=
      rfl
    rw [hamounts]
    cases hstore : Decimal.storeNumeric 28 8 (LedgerService.snapshotBase (b.latestSnapshot a.id) +
        ((b.settledAfter a.id cursor).map LedgerEntry.amount).sum) with
    | none =>
      refine ends_ask_error (Conn.exec_refused halive (e := .data) ?_) (he ?_ _ _ (.inl rfl) rfl)
      · dsimp only [Mutation.exec]
        rw [hstore]
      · intro hfits
        have hsome := (hfits (not_lt.1 hfew)).2
        rw [← hcursor, hstore] at hsome
        cases hsome
    | some stored =>
      have hne : b.settledAfter a.id cursor ≠ [] := by
        intro hnil
        rw [hnil] at hlast
        cases hlast
      have hfits : b.CutFits cfg a.id := fun _ => ⟨hne, by rw [← hcursor, hstore]; rfl⟩
      have ha' : ∃ x ∈ c.view.books.accounts, x.id = a.id := by rwa [hbooks]
      have hgoes := exec_insertSnapshot_goes cfg halive ha' hstore last.seq
      refine ends_ask_ok (hgoes _) (h hfits _ (.inr ⟨_, _, hgoes _⟩) ?_)
      rw [Conn.view_wrote]
      show Cut cfg a.id b { c.view.books with snapshots := c.view.books.snapshots ++ [_] }
      rw [hbooks]
      exact .cut _ last rfl hlast rfl hstore

/-- `maybe_snapshot` cuts what is due, or raises because it cannot be written. -/
theorem ends_maybeSnapshot {f : Unit → App β} (ho : c.Open b₀ b) {a : Account}
    (ha : a ∈ b.accounts)
    (h : b.CutFits cfg a.id → ∀ (b' : Books) (d : Conn), Cut cfg a.id b b' → d.Open b₀ b' →
      Ends cfg (f ()) d Q)
    (he : ¬ b.CutFits cfg a.id → ∀ (e : Exn) (d : Conn), e = .service .data ∨
      e = .indexError ∧ cfg.snapshotEveryNEntries ≤ 0 → d.store.db.books = b₀ → Q (.error e) d) :
    Ends cfg (LedgerService.maybeSnapshot cfg a >>= f) c Q := by
  obtain rfl := ho.sees
  refine ends_snapshot ho.alive ⟨a, ha, rfl⟩ (fun hfits d hd hcut => h hfits _ d hcut ?_)
    fun hunfit e d hexn hdb => he hunfit e d hexn (by rw [hdb, ho.committed])
  rcases hd with rfl | ⟨m, v, hx⟩
  · exact ho
  · have hkeyed : (Conn.exec cfg (.mutate m) c).2.Keyed := ho.keyed.exec (.mutate m)
    obtain ⟨-, w, -, hwrote⟩ := Conn.exec_mutate_ok cfg c (m := m) (v := v) (by rw [hx])
    rw [hx] at hkeyed hwrote
    obtain rfl : d = _ := hwrote
    exact ⟨rfl, ho.committed, rfl, hkeyed⟩

/-- Publishing an event never raises: the bus keeps what its subscribers raise to itself. -/
theorem publish_returns (event : DomainEvent) (c : Conn) :
    (runOn cfg (EventBus.publish (subscribers cfg) event) c).1 = .ok () := by
  have hok : ∀ (handlers : List (DomainEvent → App Unit)) (d : Conn),
      (runOn cfg (Program.forEach handlers fun handler =>
        (handler event).attempt fun _ => .ret ()) d).1 = .ok () := by
    intro handlers
    induction handlers with
    | nil => exact fun d => rfl
    | cons handler handlers ih =>
      intro d
      rw [Program.forEach, runOn, Program.run_bind, Program.run_attempt]
      cases hrun : Program.run (Conn.exec cfg) (handler event) d with
      | mk o d' => cases o <;> exact ih d'
  exact hok _ c

/-- After the commit, it leaves the books alone. -/
theorem publish_books (ho : c.Open b b) (hw : c.session.writes = []) (event : DomainEvent) :
    (runOn cfg (EventBus.publish (subscribers cfg) event) c).2.store.db.books = b := by
  have hbeside : c.session.Beside := by
    intro w hmem
    rw [hw] at hmem
    cases hmem
  have hharmless : Harmless (EventBus.publish (subscribers cfg) event) := harmless_publish event
  exact (hharmless.books cfg hbeside).trans ho.committed

/-- What comes after an event goes on from where its subscribers have left the session. -/
theorem ends_published {f : Unit → App β} {event : DomainEvent}
    (h : Ends cfg (f ()) (runOn cfg (EventBus.publish (subscribers cfg) event) c).2 Q) :
    Ends cfg (EventBus.publish (subscribers cfg) event >>= f) c Q := by
  refine ends_bind ?_
  unfold Ends
  dsimp only
  rw [publish_returns]
  exact h

theorem ends_publish {f : Unit → App β} (ho : c.Open b b) (hw : c.session.writes = [])
    (event : DomainEvent) (hf : ∀ d : Conn, d.store.db.books = b → Ends cfg (f ()) d Q) :
    Ends cfg (EventBus.publish (subscribers cfg) event >>= f) c Q :=
  ends_published (hf _ (publish_books ho hw event))

end rules

end WalletLedger
