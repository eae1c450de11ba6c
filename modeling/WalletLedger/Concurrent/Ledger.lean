import WalletLedger.Concurrent.Journal
import WalletLedger.Sequential.Overdraft

/-!
# What the sessions keep of the ledger together

The invariant of any number of sessions that move money at the same time, and what each
of them may rely on.  Some accounts are tracked: their latest snapshot stays exact.  Some
are funded: they are never overdrawn, for who takes money from one holds its row.

* `Shared.Permits` — what a session must know before it writes.
* `Consistent` — the invariant; `Consistent.after`, `Consistent.finish`: every turn that
  writes only what is permitted keeps it.
* `Later` — what a session keeps while it drafts some entries; `Consistent.later`: every
  turn of another keeps it, and so do its own (`Consistent.later_own`).
* `together` — the discipline made of the two.
-/

namespace WalletLedger

variable {ι : Type}

/-! ## The parts of the invariant -/

/-- The amount of the entry is at the precision of the account it is on. -/
def LedgerEntry.Fits (accounts : List Account) (e : LedgerEntry) : Prop :=
  ∃ a ∈ accounts, a.id = e.accountId ∧ e.amount ∈ Decimal.grid (decimalsFor a.currency)

theorem LedgerEntry.Fits.mono {accounts accounts' : List Account} {e : LedgerEntry}
    (h : e.Fits accounts) (hsub : ∀ a ∈ accounts, a ∈ accounts') : e.Fits accounts' := by
  obtain ⟨a, ha, hid, hgrid⟩ := h
  exact ⟨a, hsub a ha, hid, hgrid⟩

/-- Entries of an account sum to an amount at its precision. -/
theorem LedgerEntry.tally_mem_grid {accounts : List Account}
    (hids : ∀ a ∈ accounts, ∀ a' ∈ accounts, a.id = a'.id → a = a') {es : List LedgerEntry}
    (hes : ∀ e ∈ es, e.Fits accounts) {a : Account} (ha : a ∈ accounts) (p : LedgerEntry → Prop)
    [DecidablePred p] (hp : ∀ e, p e → e.accountId = a.id) :
    tally p LedgerEntry.amount es ∈ Decimal.grid (decimalsFor a.currency) := by
  refine tally_mem (s := (Decimal.grid (decimalsFor a.currency)).toAddSubmonoid) fun e he hpe => ?_
  obtain ⟨x, hx, hid, hgrid⟩ := hes e he
  obtain rfl : x = a := hids x hx a ha (hid.trans (hp e hpe))
  exact hgrid

/-- No pending write changes an entry, opens a deposit or puts a transaction back. -/
def Write.Allowed (accounts : List Account) : Write → Prop
  | .addEntry e => e.Fits accounts
  | .addTransaction t => t.status = .pending → ∃ e, t.details.accountId = .error e
  | .setTransactionStatus _ status => status ≠ .pending
  | .setEntryStatus _ _ => False
  | _ => True

theorem Write.Allowed.mono {accounts accounts' : List Account} {w : Write}
    (h : w.Allowed accounts) (hsub : ∀ a ∈ accounts, a ∈ accounts') : w.Allowed accounts' := by
  cases w with
  | addEntry e => exact LedgerEntry.Fits.mono h hsub
  | _ => exact h

theorem Write.Allowed.flips {accounts : List Account} {w : Write} (h : w.Allowed accounts) :
    w.flips = false := by
  cases w <;> first | rfl | exact h.elim

/-- A pending deposit is for an account of its currency that was there at the start. -/
def Books.DepositsOn (b : Books) (accounts : List Account) : Prop :=
  ∀ t ∈ b.transactions, t.status = .pending → ∀ id, t.details.accountId = .ok id →
    ∃ a ∈ accounts, a.id = id ∧ a.currency = t.currency

theorem Books.DepositsOn.modify {b : Books} {accounts : List Account} (h : b.DepositsOn accounts)
    {id : Id} {g : Transaction → Transaction} (hcur : ∀ t, (g t).currency = t.currency)
    (hdetails : ∀ t, (g t).details = t.details)
    (hstatus : ∀ t, (g t).status = .pending → t.status = .pending) :
    Books.DepositsOn { b with transactions := modify Transaction.id id g b.transactions }
      accounts := by
  intro x hx
  obtain ⟨t, ht, rfl⟩ := mem_modify.1 hx
  split
  · rw [hcur, hdetails]
    exact fun hp => h t ht (hstatus t hp)
  · exact h t ht

theorem Books.DepositsOn.replay {b : Books} {accounts accounts' : List Account} {ws : List Write}
    (h : b.DepositsOn accounts) (hws : ∀ w ∈ ws, w.Allowed accounts') :
    (replayBooks ws b).DepositsOn accounts := by
  induction ws generalizing b with
  | nil => exact h
  | cons w ws ih =>
    refine ih ?_ fun v hv => hws v (by simp [hv])
    have hw := hws w (by simp)
    cases w with
    | addTransaction t =>
      intro x hx hp id hid
      rcases List.mem_append.1 hx with hx | hx
      · exact h x hx hp id hid
      · obtain rfl := List.mem_singleton.1 hx
        obtain ⟨e, he⟩ := hw hp
        rw [he] at hid
        cases hid
    | setTransactionStatus id status =>
      exact h.modify (fun _ => rfl) (fun _ => rfl) fun _ hp => absurd hp hw
    | setReference id reference => exact h.modify (fun _ => rfl) (fun _ => rfl) fun _ hp => hp
    | _ => exact h

/-- The latest snapshot among old and new ones is the old one or a new one. -/
theorem latestSnapshot_append {b b' : Books} {xs : List BalanceSnapshot}
    (h : b'.snapshots = b.snapshots ++ xs) (a : Id) :
    b'.latestSnapshot a = b.latestSnapshot a ∨
      ∃ x ∈ xs, x.accountId = a ∧ b'.latestSnapshot a = some x := by
  have main : ∀ ys zs : List BalanceSnapshot,
      (ys ++ zs).argmax BalanceSnapshot.lastEntrySeq = ys.argmax BalanceSnapshot.lastEntrySeq ∨
        ∃ x ∈ zs, (ys ++ zs).argmax BalanceSnapshot.lastEntrySeq = some x := by
    intro ys zs
    induction zs using List.reverseRecOn with
    | nil => exact .inl (by rw [List.append_nil])
    | append_singleton zs z ih =>
      rw [← List.append_assoc, List.argmax_concat]
      cases hm : (ys ++ zs).argmax BalanceSnapshot.lastEntrySeq with
      | none => exact .inr ⟨z, by simp, rfl⟩
      | some m =>
        rw [hm] at ih
        by_cases hlt : m.lastEntrySeq < z.lastEntrySeq
        · exact .inr ⟨z, by simp, if_pos hlt⟩
        · rcases ih with ih | ⟨x, hx, ih⟩
          · exact .inl ((if_neg hlt).trans ih)
          · exact .inr ⟨x, by simp [hx], (if_neg hlt).trans ih⟩
  unfold Books.latestSnapshot
  rw [h, List.filter_append]
  rcases main _ _ with hold | ⟨x, hx, hnew⟩
  · exact .inl hold
  · rw [List.mem_filter] at hx
    exact .inr ⟨x, hx.1, of_decide_eq_true hx.2, hnew⟩

namespace Shared

/-- An account that is committed, or that a session has just opened. -/
def Known (s : Shared ι) (a : Account) : Prop :=
  a ∈ s.store.db.books.accounts ∨ ∃ i, a ∈ opened (s.sessions i).writes

/-- The accounts that are known have identifiers of their own, below the next one. -/
structure Distinct (s : Shared ι) : Prop where
  lt : ∀ a, s.Known a → a.id < s.store.seqs.nextId
  inj : ∀ a a', s.Known a → s.Known a' → a.id = a'.id → a = a'

/-- The checkpoint is exact on the committed entries, and stays so. -/
abbrev SettledOn (s : Shared ι) (a : Id) (cursor : ℕ) (base : Decimal) : Prop :=
  s.log.Settled LedgerEntry.seq (fun e : LedgerEntry => e.accountId = a ∧ e.status = .success)
    LedgerEntry.amount cursor base

/-- The checkpoint is exact on what the session sees, and stays so once it commits. -/
abbrev SealedOn (s : Shared ι) (i : ι) (a : Id) (cursor : ℕ) (base : Decimal) : Prop :=
  s.log.Sealed LedgerEntry.seq (fun e : LedgerEntry => e.accountId = a ∧ e.status = .success)
    LedgerEntry.amount i cursor base

/-- The account is not overdrawn, and who takes money from it holds its row. -/
abbrev SolventOn (s : Shared ι) (a : Id) : Prop :=
  s.log.Solvent (LedgerEntry.Weighs a) LedgerEntry.amount
    fun i => s.locks.Holds i (.account a) .update

/-- What a session must know before it writes: an account it opens is internal, a debit on
a funded account is under its lock and covered, and a snapshot of a tracked account is
exact on what the session sees. -/
structure Permits (tracked funded : Id → Prop) (s : Shared ι) (i : ι) (w : Write) : Prop where
  allowed : w.Allowed (s.conn i).view.books.accounts
  account : ∀ a, w = .addAccount a → a.currency.toUpper = a.currency ∧ a.IsInternal
  covered : ∀ e, w = .addEntry e → funded e.accountId → e.amount < 0 →
    s.locks.Holds i (.account e.accountId) .update ∧
      0 ≤ s.store.db.books.available e.accountId +
        weight (drafts (s.sessions i).writes) e.accountId + e.amount
  exact : ∀ x, w = .addSnapshot x → tracked x.accountId →
    s.SealedOn i x.accountId x.lastEntrySeq x.balance

end Shared

/-- The invariant of the sessions, started on the books `b₀`. -/
structure Consistent (b₀ : Books) (tracked funded : Id → Prop) (s : Shared ι) : Prop where
  exclusive : s.locks.Exclusive
  refused : ∀ i, (s.sessions i).failed = true → (s.sessions i).writes = []
  ids_lt : ∀ a, s.Known a → a.id < s.store.seqs.nextId
  ids : ∀ a a', s.Known a → s.Known a' → a.id = a'.id → a = a'
  codes : ∀ a, s.Known a → a.currency.toUpper = a.currency
  customers : ∀ a, s.Known a → ¬ a.IsInternal → a ∈ b₀.accounts
  base : ∀ a ∈ b₀.accounts, a ∈ s.store.db.books.accounts
  seq_pos : 0 < s.store.seqs.nextSeq
  numbered : s.log.Numbered LedgerEntry.seq
  entries : ∀ e ∈ s.store.db.books.entries, e.Fits s.store.db.books.accounts
  pending : ∀ i, ∀ w ∈ (s.sessions i).writes, w.Allowed (s.conn i).view.books.accounts
  deposits : s.store.db.books.DepositsOn b₀.accounts
  latest : ∀ a, tracked a →
    s.SettledOn a (LedgerService.snapshotCursor (s.store.db.books.latestSnapshot a))
      (LedgerService.snapshotBase (s.store.db.books.latestSnapshot a))
  cuts : ∀ i, ∀ x ∈ cutting (s.sessions i).writes, tracked x.accountId →
    s.SealedOn i x.accountId x.lastEntrySeq x.balance
  funds : ∀ a, funded a → s.SolventOn a

/-- What session `i` keeps while it drafts the entries `es`: its locks, the accounts it
sees, the checkpoints it may cut, and the money of a funded account whose row it holds. -/
structure Later (funded : Id → Prop) (i : ι) (es : List LedgerEntry) (s t : Shared ι) : Prop where
  alive : (s.sessions i).failed = false → (t.sessions i).failed = false
  drafted : drafts (t.sessions i).writes = drafts (s.sessions i).writes ++ es
  holds : ∀ {row : Row} {m : LockMode}, s.locks.Holds i row m → t.locks.Holds i row m
  accounts : ∀ a ∈ (s.conn i).view.books.accounts, a ∈ (t.conn i).view.books.accounts
  cuts : ∀ {a : Id} {cursor : ℕ} {base : Decimal}, s.SealedOn i a cursor base →
    t.SealedOn i a cursor base
  funds : ∀ a, funded a → s.locks.Holds i (.account a) .update →
    s.store.db.books.settled a ≤ t.store.db.books.settled a ∧
      s.store.db.books.reserved a ≤ t.store.db.books.reserved a

theorem Later.refl {funded : Id → Prop} (i : ι) (s : Shared ι) : Later funded i [] s s :=
  ⟨id, (List.append_nil _).symm, id, fun _ => id, id, fun _ _ _ => ⟨le_rfl, le_rfl⟩⟩

theorem Later.trans {funded : Id → Prop} {i : ι} {es fs : List LedgerEntry} {s t u : Shared ι}
    (h : Later funded i es s t) (h' : Later funded i fs t u) : Later funded i (es ++ fs) s u where
  alive := h'.alive ∘ h.alive
  drafted := by rw [h'.drafted, h.drafted, List.append_assoc]
  holds := fun hl => h'.holds (h.holds hl)
  accounts := fun a ha => h'.accounts a (h.accounts a ha)
  cuts := fun hc => h'.cuts (h.cuts hc)
  funds := fun a ha hl =>
    have h₁ := h.funds a ha hl
    have h₂ := h'.funds a ha (h.holds hl)
    ⟨h₁.1.trans h₂.1, h₁.2.trans h₂.2⟩

/-- What is available on a funded account only grows while its row is held. -/
theorem Later.available_le {funded : Id → Prop} {i : ι} {es : List LedgerEntry} {s t : Shared ι}
    (h : Later funded i es s t) {a : Id} (ha : funded a)
    (hl : s.locks.Holds i (.account a) .update) :
    s.store.db.books.available a ≤ t.store.db.books.available a :=
  add_le_add (h.funds a ha hl).1 (h.funds a ha hl).2

/-- The discipline of sessions that move money at the same time. -/
def together (ι : Type) (b₀ : Books) (tracked funded : Id → Prop) : Discipline ι (Shared ι) where
  inv := Consistent b₀ tracked funded
  rely i := Later funded i []
  rely_refl := Later.refl
  rely_trans := Later.trans

variable {cfg : Config} {b₀ : Books} {tracked funded : Id → Prop} {s t : Shared ι} {i j : ι}
  {r : Request}

theorem Consistent.noFlips (h : Consistent b₀ tracked funded s) (i : ι) :
    ∀ w ∈ (s.sessions i).writes, w.flips = false := fun w hw => (h.pending i w hw).flips

theorem Consistent.distinct (h : Consistent b₀ tracked funded s) : s.Distinct := ⟨h.ids_lt, h.ids⟩

/-- At most one session holds a row for update. -/
theorem Consistent.holder (h : Consistent b₀ tracked funded s) {row : Row}
    (hi : s.locks.Holds i row .update) (hj : s.locks.Holds j row .update) : i = j := by
  by_contra hne
  exact h.exclusive.not_holds hj hne hi

/-! ## One turn -/

section turns

variable [DecidableEq ι]

/-- A lock is kept, or its session has lost its writes. -/
theorem Consistent.holds_after (h : Consistent b₀ tracked funded s) {row : Row} {m : LockMode}
    (hl : s.locks.Holds j row m) :
    (s.after cfg i r).locks.Holds j row m ∨ ((s.after cfg i r).sessions j).writes = [] := by
  by_cases hj : j = i
  · subst hj
    cases Shared.turn_after cfg s j r with
    | kept hr hsession _ _ =>
      cases hf : (s.sessions j).failed with
      | true => exact .inr (by rw [hsession]; exact h.refused j hf)
      | false =>
        rw [hf] at hr
        exact .inl (Shared.holds_after_self (hr.resolve_left (by simp)) (by rw [hsession, hf]) hl)
    | wrote m v w hr _ _ hsession _ _ =>
      exact .inl (Shared.holds_after_self (by rw [hr]; rfl) (by rw [hsession]) hl)
    | committed _ _ hsession _ _ => exact .inr (by rw [hsession]; rfl)
    | dropped hwrites _ _ => exact .inr hwrites
  · exact .inl ((Shared.after_frame hj).holds hl)

/-- Committed accounts stay. -/
theorem Shared.accounts_after {a : Account} (ha : a ∈ s.store.db.books.accounts) :
    a ∈ (s.after cfg i r).store.db.books.accounts := by
  cases Shared.turn_after cfg s i r with
  | kept _ _ hdb _ => exact hdb ▸ ha
  | wrote m v w _ _ _ _ hdb _ => exact hdb ▸ ha
  | dropped _ hdb _ => exact hdb ▸ ha
  | committed _ _ _ hdb _ =>
    rw [hdb, Shared.view_accounts]
    exact List.mem_append_left _ ha

/-- An account is known already, or has just been written. -/
theorem Shared.known_after {a : Account} (ha : (s.after cfg i r).Known a) :
    s.Known a ∨ ∃ m v, r = .mutate m ∧
      m.exec cfg s.store.seqs (s.conn i).view = .ok (v, .addAccount a) ∧
      (s.after cfg i r).store.seqs = m.advance s.store.seqs := by
  rcases ha with ha | ⟨j, ha⟩
  · cases Shared.turn_after cfg s i r with
    | kept _ _ hdb _ => exact .inl (.inl (hdb ▸ ha))
    | wrote m v w _ _ _ _ hdb _ => exact .inl (.inl (hdb ▸ ha))
    | dropped _ hdb _ => exact .inl (.inl (hdb ▸ ha))
    | committed _ _ _ hdb _ =>
      rw [hdb, Shared.view_accounts] at ha
      rcases List.mem_append.1 ha with ha | ha
      · exact .inl (.inl ha)
      · exact .inl (.inr ⟨i, ha⟩)
  · by_cases hj : j = i
    · subst hj
      cases Shared.turn_after cfg s j r with
      | kept _ hsession _ _ => exact .inl (.inr ⟨j, hsession ▸ ha⟩)
      | wrote m v w hr _ hm hsession _ hseqs =>
        rw [hsession] at ha
        rcases List.mem_append.1 (mem_opened.1 ha) with hw | hw
        · exact .inl (.inr ⟨j, mem_opened.2 hw⟩)
        · rw [List.mem_singleton.1 hw]
          exact .inr ⟨m, v, hr, hm, hseqs⟩
      | committed _ _ hsession _ _ => rw [hsession] at ha; cases ha
      | dropped hwrites _ _ => rw [hwrites] at ha; cases ha
    · rw [Shared.sessions_after_of_ne hj] at ha
      exact .inl (.inr ⟨j, ha⟩)

/-- A new account has the next identifier, and is of the owner that is asked for. -/
theorem Mutation.exec_addAccount {m : Mutation} {v : m.Result} {a : Account} {seqs : Sequences}
    {db : Database} (h : m.exec cfg seqs db = .ok (v, .addAccount a)) :
    a.id = seqs.nextId ∧ seqs.nextId < (m.advance seqs).nextId ∧
      m = .insertAccount a.ownerId a.currency := by
  cases m with
  | insertAccount ownerId currency =>
    obtain ⟨rfl, hw, -⟩ := exec_insertAccount h
    cases hw
    exact ⟨rfl, Nat.lt_succ_self _, rfl⟩
  | insertTransaction type status amount currency details correlationId =>
    obtain ⟨_, -, -, hw⟩ := exec_insertTransaction h
    cases hw
  | insertEntry accountId transactionId amount entryType status currency =>
    obtain ⟨_, -, -, -, hw⟩ := exec_insertEntry h
    cases hw
  | insertSnapshot accountId balance lastEntrySeq entryCount =>
    obtain ⟨_, -, hw⟩ := exec_insertSnapshot h
    cases hw
  | updateEntryStatus id status => cases exec_updateEntryStatus h
  | updateTransactionStatus id status => cases exec_updateTransactionStatus h
  | updateReference id reference => cases exec_updateReference h
  | insertKey key requestHash => cases exec_besideBooks h rfl
  | completeKey id status body => cases exec_besideBooks h rfl
  | deleteKey id => cases exec_besideBooks h rfl
  | insertNotification channel recipient message eventType status correlationId =>
    cases exec_besideBooks h rfl

/-- New accounts are distinct from those that are known. -/
theorem Shared.Distinct.after (h : s.Distinct) : (s.after cfg i r).Distinct where
  lt := by
    intro a ha
    rcases Shared.known_after ha with ha | ⟨m, v, -, hm, hseqs⟩
    · exact lt_of_lt_of_le (h.lt a ha) (Shared.turn_after cfg s i r).seqs_le.nextId
    · obtain ⟨hid, hlt, -⟩ := Mutation.exec_addAccount hm
      rw [hid, hseqs]
      exact hlt
  inj := by
    intro a a' ha ha' hid
    rcases Shared.known_after ha with ha | ⟨m, v, hr, hm, -⟩ <;>
      rcases Shared.known_after ha' with ha' | ⟨m', v', hr', hm', -⟩
    · exact h.inj a a' ha ha' hid
    · have hlt := h.lt a ha
      rw [hid, (Mutation.exec_addAccount hm').1] at hlt
      exact absurd hlt (lt_irrefl _)
    · have hlt := h.lt a' ha'
      rw [← hid, (Mutation.exec_addAccount hm).1] at hlt
      exact absurd hlt (lt_irrefl _)
    · cases hr.symm.trans hr'
      have heq := Except.ok.inj (hm.symm.trans hm')
      cases heq
      rfl

/-- A session that ends makes no account known. -/
theorem Shared.known_finish {a : Account} (h : (s.finish i).Known a) : s.Known a := by
  rcases h with ha | ⟨j, ha⟩
  · exact .inl ha
  · by_cases hj : j = i
    · rw [hj, Shared.finish_self] at ha
      cases ha
    · exact .inr ⟨j, by rwa [(Shared.finish_frame hj).session] at ha⟩

/-- The request writes only what is permitted. -/
def Shared.Permitted (cfg : Config) (tracked funded : Id → Prop) (s : Shared ι) (i : ι)
    (r : Request) : Prop :=
  ∀ m v w, r = .mutate m → m.exec cfg s.store.seqs (s.conn i).view = .ok (v, w) →
    s.Permits tracked funded i w

namespace Consistent

theorem known_after (h : Consistent b₀ tracked funded s)
    (hw : s.Permitted cfg tracked funded i r) :
    ∀ a, (s.after cfg i r).Known a →
      a.currency.toUpper = a.currency ∧ (¬ a.IsInternal → a ∈ b₀.accounts) := by
  intro a ha
  rcases Shared.known_after ha with ha | ⟨m, v, hr, hm, -⟩
  · exact ⟨h.codes a ha, h.customers a ha⟩
  · obtain ⟨hcode, hinternal⟩ := (hw m v _ hr hm).account a rfl
    exact ⟨hcode, fun hc => absurd hinternal hc⟩

/-- What a session sees of the accounts grows with a turn of another. -/
theorem view_accounts_after {a : Account} (hj : j ≠ i)
    (ha : a ∈ (s.conn j).view.books.accounts) :
    a ∈ ((s.after cfg i r).conn j).view.books.accounts := by
  rw [Shared.view_accounts] at ha ⊢
  rw [Shared.sessions_after_of_ne hj]
  rcases List.mem_append.1 ha with ha | ha
  · exact List.mem_append_left _ (Shared.accounts_after ha)
  · exact List.mem_append_right _ ha

theorem entries_after (h : Consistent b₀ tracked funded s) :
    ∀ e ∈ (s.after cfg i r).store.db.books.entries,
      e.Fits (s.after cfg i r).store.db.books.accounts := by
  cases Shared.turn_after cfg s i r with
  | kept _ _ hdb _ => rw [hdb]; exact h.entries
  | wrote m v w _ _ _ _ hdb _ => rw [hdb]; exact h.entries
  | dropped _ hdb _ => rw [hdb]; exact h.entries
  | committed _ _ _ hdb _ =>
    rw [hdb, Shared.view_entries (h.noFlips i)]
    intro e he
    rcases List.mem_append.1 he with he | he
    · refine (h.entries e he).mono fun a ha => ?_
      rw [Shared.view_accounts]
      exact List.mem_append_left _ ha
    · exact h.pending i _ (mem_drafts.1 he)

theorem pending_after (h : Consistent b₀ tracked funded s)
    (hw : s.Permitted cfg tracked funded i r) :
    ∀ j, ∀ w ∈ ((s.after cfg i r).sessions j).writes,
      w.Allowed ((s.after cfg i r).conn j).view.books.accounts := by
  intro j w hmem
  by_cases hj : j = i
  · subst hj
    cases Shared.turn_after cfg s j r with
    | kept _ hsession hdb _ =>
      rw [hsession] at hmem
      rw [Shared.view_accounts, hsession, hdb, ← Shared.view_accounts]
      exact h.pending j w hmem
    | wrote m v w' hr _ hm hsession hdb _ =>
      rw [hsession] at hmem
      have hsub : ∀ a ∈ (s.conn j).view.books.accounts,
          a ∈ ((s.after cfg j r).conn j).view.books.accounts := by
        intro a ha
        rw [Shared.view_accounts] at ha ⊢
        rw [hsession, hdb, opened_append, ← List.append_assoc]
        exact List.mem_append_left _ ha
      rcases List.mem_append.1 hmem with hmem | hmem
      · exact (h.pending j w hmem).mono hsub
      · rw [List.mem_singleton.1 hmem]
        exact (hw m v w' hr hm).allowed.mono hsub
    | committed _ _ hsession _ _ => rw [hsession] at hmem; cases hmem
    | dropped hwrites _ _ => rw [hwrites] at hmem; cases hmem
  · rw [Shared.sessions_after_of_ne hj] at hmem
    exact (h.pending j w hmem).mono fun a => view_accounts_after hj

theorem deposits_after (h : Consistent b₀ tracked funded s) :
    (s.after cfg i r).store.db.books.DepositsOn b₀.accounts := by
  cases Shared.turn_after cfg s i r with
  | kept _ _ hdb _ => rw [hdb]; exact h.deposits
  | wrote m v w _ _ _ _ hdb _ => rw [hdb]; exact h.deposits
  | dropped _ hdb _ => rw [hdb]; exact h.deposits
  | committed _ _ _ hdb _ =>
    rw [hdb, Conn.view, replay_books]
    exact h.deposits.replay (h.pending i)

theorem refused_after (h : Consistent b₀ tracked funded s) :
    ∀ j, ((s.after cfg i r).sessions j).failed = true →
      ((s.after cfg i r).sessions j).writes = [] := by
  intro j hf
  by_cases hj : j = i
  · subst hj
    cases Shared.turn_after cfg s j r with
    | kept _ hsession _ _ =>
      rw [hsession] at hf ⊢
      exact h.refused j hf
    | wrote m v w _ _ _ hsession _ _ => rw [hsession] at hf; cases hf
    | committed _ _ hsession _ _ => rw [hsession] at hf; cases hf
    | dropped hwrites _ _ => exact hwrites
  · rw [Shared.sessions_after_of_ne hj] at hf ⊢
    exact h.refused j hf

/-- The latest snapshots after a turn: what has been committed is exact. -/
theorem latest_after (h : Consistent b₀ tracked funded s) {a : Id} (ha : tracked a) :
    (s.after cfg i r).SettledOn a
      (LedgerService.snapshotCursor ((s.after cfg i r).store.db.books.latestSnapshot a))
      (LedgerService.snapshotBase ((s.after cfg i r).store.db.books.latestSnapshot a)) := by
  have hstep := Shared.log_step cfg r (h.noFlips i)
  have hold := (h.latest a ha).step hstep
  cases Shared.turn_after cfg s i r with
  | kept _ _ hdb _ => rw [hdb]; exact hold
  | wrote m v w _ _ _ _ hdb _ => rw [hdb]; exact hold
  | dropped _ hdb _ => rw [hdb]; exact hold
  | committed _ _ hsession hdb _ =>
    have hsnapshots := Shared.view_snapshots s i
    rw [← hdb] at hsnapshots
    rcases latestSnapshot_append hsnapshots a with hl | ⟨x, hx, rfl, hl⟩
    · rw [hl]
      exact hold
    · rw [hl]
      refine (h.cuts i x hx ha).publish hstep ?_ ?_
      · show (s.after cfg i r).store.db.books.entries = _
        rw [hdb]
        exact Shared.view_entries (h.noFlips i)
      · show drafts ((s.after cfg i r).sessions i).writes = _
        rw [hsession]
        rfl

theorem cuts_after (h : Consistent b₀ tracked funded s)
    (hw : s.Permitted cfg tracked funded i r) :
    ∀ j, ∀ x ∈ cutting ((s.after cfg i r).sessions j).writes, tracked x.accountId →
      (s.after cfg i r).SealedOn j x.accountId x.lastEntrySeq x.balance := by
  have hstep := Shared.log_step cfg r (h.noFlips i)
  intro j x hx ht
  by_cases hj : j = i
  · subst hj
    cases Shared.turn_after cfg s j r with
    | kept _ hsession hdb _ =>
      rw [hsession] at hx
      refine (h.cuts j x hx ht).step_self hstep ?_ ⟨[], ?_⟩
      · exact congrArg (fun d : Database => d.books.entries) hdb
      · rw [List.append_nil]
        exact congrArg (fun y : Session => drafts y.writes) hsession
    | wrote m v w hr _ hm hsession hdb _ =>
      have hself : ∀ {cursor : ℕ} {base : Decimal}, s.SealedOn j x.accountId cursor base →
          (s.after cfg j r).SealedOn j x.accountId cursor base := by
        intro cursor base hs
        refine hs.step_self hstep ?_ ⟨drafts [w], ?_⟩
        · exact congrArg (fun d : Database => d.books.entries) hdb
        · show drafts ((s.after cfg j r).sessions j).writes = _
          rw [hsession]
          exact drafts_append _ _
      rw [hsession] at hx
      rcases List.mem_append.1 (mem_cutting.1 hx) with hx | hx
      · exact hself (h.cuts j x (mem_cutting.2 hx) ht)
      · exact hself ((hw m v w hr hm).exact x (List.mem_singleton.1 hx).symm ht)
    | committed _ _ hsession _ _ => rw [hsession] at hx; cases hx
    | dropped hwrites _ _ => rw [hwrites] at hx; cases hx
  · rw [Shared.sessions_after_of_ne hj] at hx
    exact (h.cuts j x hx ht).step hstep hj

theorem funds_after (h : Consistent b₀ tracked funded s)
    (hw : s.Permitted cfg tracked funded i r) {a : Id} (ha : funded a) :
    (s.after cfg i r).SolventOn a := by
  have hstep := Shared.log_step cfg r (h.noFlips i)
  refine (h.funds a ha).step (fun _ _ => h.holder) hstep (fun j hl => ?_)
    fun e he hweighs hneg => ?_
  · refine (h.holds_after hl).imp_right fun hwrites => ?_
    show drafts ((s.after cfg i r).sessions j).writes = []
    rw [hwrites]
    rfl
  · have hown : drafts ((s.after cfg i r).sessions i).writes =
        drafts (s.sessions i).writes ++ [e] := he
    obtain rfl := hweighs.1
    cases Shared.turn_after cfg s i r with
    | kept _ hsession _ _ =>
      rw [hsession, List.self_eq_append_right] at hown
      cases hown
    | wrote m v w hr _ hm hsession _ _ =>
      rw [hsession, drafts_append, List.append_cancel_left_eq] at hown
      have hmem : e ∈ drafts [w] := hown ▸ List.mem_singleton_self e
      obtain rfl := List.mem_singleton.1 (mem_drafts.1 hmem)
      obtain ⟨hl, hcover⟩ := (hw m v _ hr hm).covered e rfl ha hneg
      refine ⟨Shared.holds_after_self (by rw [hr]; rfl) (by rw [hsession]) hl, ?_⟩
      rw [Books.available_eq_weight] at hcover
      exact hcover
    | committed _ _ hsession _ _ =>
      rw [hsession] at hown
      exact absurd hown.symm (List.append_ne_nil_of_right_ne_nil _ (List.cons_ne_nil _ _))
    | dropped hwrites _ _ =>
      rw [hwrites] at hown
      exact absurd hown.symm (List.append_ne_nil_of_right_ne_nil _ (List.cons_ne_nil _ _))

/-- **One turn.**  A turn that writes only what is permitted keeps the invariant. -/
theorem after (h : Consistent b₀ tracked funded s)
    (hb : s.locks.blocked i (s.wanted cfg i r) = false)
    (hw : s.Permitted cfg tracked funded i r) : Consistent b₀ tracked funded (s.after cfg i r) where
  exclusive := Shared.exclusive_after h.exclusive hb
  refused := h.refused_after
  ids_lt := h.distinct.after.lt
  ids := h.distinct.after.inj
  codes a ha := (h.known_after hw a ha).1
  customers a ha := (h.known_after hw a ha).2
  base a ha := Shared.accounts_after (h.base a ha)
  seq_pos := lt_of_lt_of_le h.seq_pos (Shared.turn_after cfg s i r).seqs_le.nextSeq
  numbered := h.numbered.step h.seq_pos (Shared.log_step cfg r (h.noFlips i))
  entries := h.entries_after
  pending := h.pending_after hw
  deposits := h.deposits_after
  latest _ ha := h.latest_after ha
  cuts := h.cuts_after hw
  funds _ ha := h.funds_after hw ha

/-- What the others rely on is kept by every turn. -/
theorem later (h : Consistent b₀ tracked funded s) (hj : j ≠ i) :
    Later funded j [] s (s.after cfg i r) where
  alive := by rw [Shared.sessions_after_of_ne hj]; exact id
  drafted := by rw [Shared.sessions_after_of_ne hj, List.append_nil]
  holds := (Shared.after_frame hj).holds
  accounts _ := view_accounts_after hj
  cuts hc := hc.step (Shared.log_step cfg r (h.noFlips i)) hj
  funds a ha hl :=
    have hstep := Shared.log_step cfg r (h.noFlips i)
    ⟨(h.funds a ha).grows (fun _ _ => h.holder) hstep hl hj fun _ he => ⟨he.1, .inl he.2⟩,
      (h.funds a ha).grows (fun _ _ => h.holder) hstep hl hj fun _ he => ⟨he.1, .inr he.2⟩⟩

/-- A request of its own that writes `ws` and leaves the committed rows alone. -/
theorem later_own (h : Consistent b₀ tracked funded s) (hr : r.ends = false) (ws : List Write)
    (hsession : (s.after cfg i r).sessions i = ⟨(s.sessions i).writes ++ ws, false⟩)
    (hdb : (s.after cfg i r).store.db = s.store.db) :
    Later funded i (drafts ws) s (s.after cfg i r) where
  alive _ := by rw [hsession]
  drafted := by rw [hsession, drafts_append]
  holds := Shared.holds_after_self hr (by rw [hsession])
  accounts a ha := by
    rw [Shared.view_accounts] at ha ⊢
    rw [hsession, hdb, opened_append, ← List.append_assoc]
    exact List.mem_append_left _ ha
  cuts hc := by
    refine hc.step_self (Shared.log_step cfg r (h.noFlips i)) ?_ ⟨drafts ws, ?_⟩
    · exact congrArg (fun d : Database => d.books.entries) hdb
    · show drafts ((s.after cfg i r).sessions i).writes = _
      rw [hsession]
      exact drafts_append _ _
  funds a _ _ := by rw [hdb]; exact ⟨le_rfl, le_rfl⟩

/-- A request of its own that writes nothing. -/
theorem later_read (h : Consistent b₀ tracked funded s) (hr : r.ends = false)
    (hf : (s.sessions i).failed = false)
    (hsession : (Conn.exec cfg r (s.conn i)).2.session = s.sessions i)
    (hdb : (Conn.exec cfg r (s.conn i)).2.store.db = s.store.db) :
    Later funded i [] s (s.after cfg i r) := by
  refine h.later_own hr [] ?_ hdb
  rw [Shared.after_self, hsession, List.append_nil, ← hf]

/-- A session that ends keeps the invariant. -/
theorem finish (h : Consistent b₀ tracked funded s) :
    Consistent b₀ tracked funded (s.finish i) := by
  have hof : ∀ {j : ι} {w : Write}, w ∈ ((s.finish i).sessions j).writes →
      (s.finish i).sessions j = s.sessions j := by
    intro j w hw
    by_cases hj : j = i
    · rw [hj, Shared.finish_self] at hw
      cases hw
    · exact (Shared.finish_frame hj).session
  have hstep : s.log.Step LedgerEntry.seq i (s.finish i).log := Shared.log_finish
  refine { h with
    exclusive := LockTable.exclusive_release h.exclusive i
    refused := fun j hf => ?_
    ids_lt := fun a ha => h.ids_lt a (Shared.known_finish ha)
    ids := fun a a' ha ha' => h.ids a a' (Shared.known_finish ha) (Shared.known_finish ha')
    codes := fun a ha => h.codes a (Shared.known_finish ha)
    customers := fun a ha => h.customers a (Shared.known_finish ha)
    numbered := h.numbered.step h.seq_pos hstep
    pending := fun j w hw => ?_
    latest := fun a ha => (h.latest a ha).step hstep
    cuts := fun j x hx ht => ?_
    funds := fun a ha => ?_ }
  · by_cases hj : j = i
    · rw [hj, Shared.finish_self]
      rfl
    · rw [(Shared.finish_frame hj).session] at hf ⊢
      exact h.refused j hf
  · have hsession := hof hw
    rw [hsession] at hw
    have hallowed := h.pending j w hw
    rw [Shared.view_accounts] at hallowed ⊢
    rwa [hsession]
  · have hsession := hof (mem_cutting.1 hx)
    rw [hsession] at hx
    by_cases hj : j = i
    · rw [← hsession, hj, Shared.finish_self] at hx
      cases hx
    · exact (h.cuts j x hx ht).step hstep hj
  · refine (h.funds a ha).step (fun _ _ => h.holder) hstep (fun j hl => ?_) fun _ he => ?_
    · by_cases hj : j = i
      · right
        show drafts ((s.finish i).sessions j).writes = []
        rw [hj, Shared.finish_self]
        rfl
      · exact .inl ((Shared.finish_frame hj).holds hl)
    · have hown : drafts ((s.finish i).sessions i).writes = _ := he
      rw [Shared.finish_self] at hown
      exact absurd hown.symm (List.append_ne_nil_of_right_ne_nil _ (List.cons_ne_nil _ _))

theorem later_finish (hj : j ≠ i) : Later funded j [] s (s.finish i) where
  alive := by rw [(Shared.finish_frame hj).session]; exact id
  drafted := by rw [(Shared.finish_frame hj).session, List.append_nil]
  holds := (Shared.finish_frame hj).holds
  accounts a ha := by
    rw [Shared.view_accounts] at ha ⊢
    rwa [(Shared.finish_frame hj).session]
  cuts hc := hc.step Shared.log_finish hj
  funds _ _ _ := ⟨le_rfl, le_rfl⟩

end Consistent

end turns

end WalletLedger
