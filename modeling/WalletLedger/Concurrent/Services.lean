import WalletLedger.Concurrent.Ledger

/-!
# Services used at the same time

What each service may count on while other sessions move money, and that it writes
nothing it is not permitted to.

* `Behaves` — a program of a session keeps the discipline, whatever the others do, with
  a rule for each kind of request (`behaves_select`, `behaves_mutate`) and for each
  service, down to the rest of the program.
* `behaves_availableBalance` — under its lock, what a session reads of a funded account
  in two queries is at most what is available there.
* `behaves_insertEntry`, `behaves_post` — entries of a known account, the debits covered.
* `CutsExactly` — the condition on the turns that cut snapshots, and
  `behaves_maybeSnapshot`.
-/

namespace WalletLedger

variable {ι : Type} [DecidableEq ι] {cfg : Config} {b₀ : Books} {tracked funded : Id → Prop}
  {C : ι → Request → Shared ι → Prop} {i : ι} {s t : Shared ι} {α β : Type}

/-- The session keeps the discipline while it runs the program. -/
abbrev Behaves (cfg : Config) (b₀ : Books) (tracked funded : Id → Prop)
    (C : ι → Request → Shared ι → Prop) (i : ι) (p : App α) (s : Shared ι) : Prop :=
  wp (machine ι cfg) (together ι b₀ tracked funded) C i p (fun _ _ => True) s

/-! ## Requests -/

theorem behaves_ask {r : Request} {f : r.Result → App α}
    (h : ∀ t, Later funded i [] s t → Consistent b₀ tracked funded t → C i r t →
      t.Permitted cfg tracked funded i r ∧ ∀ v, (Conn.exec cfg r (t.conn i)).1 = .ok v →
        Consistent b₀ tracked funded (t.after cfg i r) →
        Behaves cfg b₀ tracked funded C i (f v) (t.after cfg i r)) :
    Behaves cfg b₀ tracked funded C i (ask r >>= f) s := by
  intro t hrely hinv hC v u hx
  obtain ⟨hb, rfl, rfl⟩ := Shared.exec_eq_some hx
  obtain ⟨hpermitted, hgo⟩ := h t hrely hinv hC
  have hafter : Consistent b₀ tracked funded (t.after cfg i r) := hinv.after hb hpermitted
  refine ⟨⟨hafter, fun j hj => hinv.later hj⟩, ?_⟩
  cases hv : (Conn.exec cfg r (t.conn i)).1 with
  | error e => exact fun _ _ _ => trivial
  | ok v => exact hgo v hv hafter

omit [DecidableEq ι] in
/-- A request that writes nothing needs no permission. -/
theorem Shared.permitted_of_ne {r : Request} (hr : ∀ m, r ≠ .mutate m) :
    s.Permitted cfg tracked funded i r := fun m _ _ h => absurd h (hr m)

/-- A query: the session reads what it sees, and holds the rows the query locks. -/
theorem behaves_select {q : Query} {f : q.Result → App α}
    (h : ∀ t, Later funded i [] s t → Consistent b₀ tracked funded t →
      (∀ x ∈ q.locks (t.conn i).view, t.locks.Holds i x.1 x.2) →
      Behaves cfg b₀ tracked funded C i (f (q.eval (t.conn i).view)) t) :
    Behaves cfg b₀ tracked funded C i (ask (.select q) >>= f) s := by
  refine behaves_ask fun t hlater hinv _ =>
    ⟨Shared.permitted_of_ne (by simp), fun v hv hafter => ?_⟩
  obtain ⟨hf, rfl, hconn⟩ := Conn.exec_select_ok cfg _ hv
  have hsame : (t.after cfg i (.select q)).conn i = t.conn i := by rw [Shared.after_conn, hconn]
  have hread := h (t.after cfg i (.select q))
    (hlater.trans (hinv.later_read rfl hf (by rw [hconn]; rfl) (by rw [hconn]; rfl))) hafter
  rw [hsame] at hread
  refine hread fun x hx => ?_
  show LockTable.Holds (ite _ _ _) _ _ _
  have hnot : (t.sessions i).failed = false := hf
  rw [hconn, if_neg (by simp [Request.ends, hf])]
  refine LockTable.holds_grant ?_
  rw [Shared.wanted, if_neg (by simp [hnot])]
  exact hx

theorem behaves_uuid4 {f : Id → App α} (hs : (s.sessions i).failed = false)
    (h : ∀ t id, Later funded i [] s t → Consistent b₀ tracked funded t →
      Behaves cfg b₀ tracked funded C i (f id) t) :
    Behaves cfg b₀ tracked funded C i (ask .uuid4 >>= f) s := by
  refine behaves_ask fun t hlater hinv _ =>
    ⟨Shared.permitted_of_ne (by simp), fun v _ hafter => ?_⟩
  exact h _ v (hlater.trans (hinv.later_read rfl (hlater.alive hs) rfl rfl)) hafter

/-- A statement: it must be permitted, and its row is drafted. -/
theorem behaves_mutate {m : Mutation} {f : m.Result → App α}
    (h : ∀ t, Later funded i [] s t → Consistent b₀ tracked funded t → C i (.mutate m) t →
      ∀ v w, m.exec cfg t.store.seqs (t.conn i).view = .ok (v, w) →
        t.Permits tracked funded i w ∧ ∀ u, Later funded i (drafts [w]) t u →
          Consistent b₀ tracked funded u → (u.conn i).view = w.apply (t.conn i).view →
          Behaves cfg b₀ tracked funded C i (f v) u) :
    Behaves cfg b₀ tracked funded C i (ask (.mutate m) >>= f) s := by
  refine behaves_ask fun t hlater hinv hC => ⟨fun m' v w hm hexec => ?_, fun v hv hafter => ?_⟩
  · cases hm
    exact (h t hlater hinv hC v w hexec).1
  · obtain ⟨hf, w, hexec, hconn⟩ := Conn.exec_mutate_ok cfg _ hv
    refine (h t hlater hinv hC v w hexec).2 _ ?_ hafter ?_
    · refine hinv.later_own rfl _ ?_ ?_
      · rw [Shared.after_self, hconn]
        rfl
      · rw [Shared.after_store, hconn]
        rfl
    · rw [Shared.after_conn, hconn, Conn.view_wrote]

/-! ## Steps that ask nothing -/

theorem behaves_ofExcept {x : Except Exn β} {f : β → App α}
    (h : ∀ a, x = .ok a → Behaves cfg b₀ tracked funded C i (f a) s) :
    Behaves cfg b₀ tracked funded C i (Program.ofExcept x >>= f) s := by
  cases x with
  | error e => exact fun _ _ _ => trivial
  | ok a => exact h a rfl

theorem behaves_ofOption {e : Exn} {o : Option β} {f : β → App α}
    (h : ∀ a, o = some a → Behaves cfg b₀ tracked funded C i (f a) s) :
    Behaves cfg b₀ tracked funded C i (ofOption e o >>= f) s := by
  cases o with
  | none => exact fun _ _ _ => trivial
  | some a => exact h a rfl

theorem behaves_raiseIf {p : Prop} [Decidable p] {e : Exn} {f : Unit → App α}
    (h : ¬ p → Behaves cfg b₀ tracked funded C i (f ()) s) :
    Behaves cfg b₀ tracked funded C i (raiseIf p e >>= f) s := by
  unfold raiseIf
  split
  · exact fun _ _ _ => trivial
  · exact h ‹_›

/-- Dropping the result changes nothing. -/
theorem behaves_map {p : App α} {g : α → β} (h : Behaves cfg b₀ tracked funded C i p s) :
    Behaves cfg b₀ tracked funded C i (g <$> p) s := by
  show Behaves cfg b₀ tracked funded C i (p >>= fun a => .ret (g a)) s
  refine wp_bind (wp_mono (fun o t _ _ => ?_) h)
  cases o with
  | error e => trivial
  | ok a => exact fun _ _ _ => trivial

/-! ## After the commit -/

omit [DecidableEq ι] in
/-- A write beside the books is permitted. -/
theorem Shared.permits_beside {w : Write} (hw : w.touchesBooks = false) :
    s.Permits tracked funded i w := by
  constructor
  · cases w <;> trivial
  · rintro a rfl; cases hw
  · rintro e rfl; cases hw
  · rintro x rfl; cases hw

/-- A program that writes nothing to the books keeps the discipline. -/
theorem behaves_harmless {p : App α} (hp : Harmless p) :
    Behaves cfg b₀ tracked funded C i p s := by
  refine wp_of_stable (P := fun r : Request => r.harmless = true) (I := fun _ => True)
    (fun _ _ _ _ _ => trivial) (fun r hr t v u hinv _ _ hx => ?_) hp trivial
  obtain ⟨hb, -, rfl⟩ := Shared.exec_eq_some hx
  refine ⟨⟨hinv.after hb fun m v w hm hexec => ?_, fun j hj => hinv.later hj⟩, trivial⟩
  subst hm
  exact Shared.permits_beside (Mutation.exec_besideBooks hexec hr)

/-- The commit, and what the code does after it. -/
theorem behaves_commit {f : Unit → App α} (hf : Harmless (f ())) :
    Behaves cfg b₀ tracked funded C i (ask .commit >>= f) s :=
  behaves_ask fun _ _ _ _ => ⟨Shared.permitted_of_ne (by simp), fun _ _ _ => behaves_harmless hf⟩

/-! ## Accounts -/

theorem behaves_lock {id : Id} {f : Account → App α}
    (h : ∀ t a, Later funded i [] s t → Consistent b₀ tracked funded t →
      a ∈ (t.conn i).view.books.accounts → a.id = id → t.locks.Holds i (.account id) .update →
      Behaves cfg b₀ tracked funded C i (f a) t) :
    Behaves cfg b₀ tracked funded C i (AccountService.lock id >>= f) s := by
  rw [AccountService.lock, bind_assoc]
  refine behaves_select fun t hlater hinv hlocks => behaves_ofOption fun a ha => ?_
  have hid : a.id = id := by simpa using List.find?_some ha
  refine h t a hlater hinv (List.mem_of_find?_eq_some ha) hid (hlocks (.account id, .update) ?_)
  simp only [Query.locks, ha, Option.toList_some, List.map_cons, List.map_nil, hid,
    List.mem_singleton]

theorem behaves_get {id : Id} {f : Account → App α}
    (h : ∀ t a, Later funded i [] s t → Consistent b₀ tracked funded t →
      a ∈ (t.conn i).view.books.accounts → a.id = id →
      Behaves cfg b₀ tracked funded C i (f a) t) :
    Behaves cfg b₀ tracked funded C i (AccountService.get id >>= f) s := by
  rw [AccountService.get, bind_assoc]
  refine behaves_select fun t hlater hinv _ => behaves_ofOption fun a ha => ?_
  exact h t a hlater hinv (List.mem_of_find?_eq_some ha) (by simpa using List.find?_some ha)

/-- An internal account is found, or opened. -/
theorem behaves_getOrCreateInternal {ownerId currency : String}
    (howner : ownerId = clearingOwner ∨ ownerId = fxPoolOwner) {f : Account → App α}
    (h : ∀ t a, Later funded i [] s t → Consistent b₀ tracked funded t →
      a ∈ (t.conn i).view.books.accounts → a.IsInternal → a.currency = currency.toUpper →
      Behaves cfg b₀ tracked funded C i (f a) t) :
    Behaves cfg b₀ tracked funded C i
      (AccountService.getOrCreateInternal ownerId currency >>= f) s := by
  rw [AccountService.getOrCreateInternal, bind_assoc]
  refine behaves_select fun t hlater hinv _ => ?_
  split
  · rename_i a ha
    have hfound := List.find?_some ha
    rw [decide_eq_true_eq] at hfound
    have hinternal : a.IsInternal := by
      unfold Account.IsInternal
      rwa [hfound.1]
    exact h t a hlater hinv (List.mem_of_find?_eq_some ha) hinternal hfound.2
  · refine behaves_mutate fun u hlater' hinv' _ v w hexec => ?_
    obtain ⟨rfl, rfl, -⟩ := Mutation.exec_insertAccount hexec
    refine ⟨⟨trivial, fun a ha => ?_, by rintro e ⟨⟩, by rintro x ⟨⟩⟩, fun x hx hinv'' hview => ?_⟩
    · cases ha
      exact ⟨toUpper_toUpper currency, howner⟩
    · refine h x _ ((hlater.trans hlater').trans hx) hinv'' ?_ howner rfl
      rw [hview]
      exact List.mem_append_right _ (List.mem_singleton_self _)

theorem behaves_correlationIdOr {correlationId : Option String} {f : String → App α}
    (hs : (s.sessions i).failed = false)
    (h : ∀ t c, Later funded i [] s t → Consistent b₀ tracked funded t →
      Behaves cfg b₀ tracked funded C i (f c) t) :
    Behaves cfg b₀ tracked funded C i (correlationIdOr correlationId >>= f) s := by
  have draw : Behaves cfg b₀ tracked funded C i ((Id.text <$> ask .uuid4) >>= f) s := by
    rw [map_eq_pure_bind, bind_assoc]
    exact behaves_uuid4 hs fun t id hlater hinv => h t _ hlater hinv
  have given : ∀ c, Behaves cfg b₀ tracked funded C i (f c) s := fun c =>
    wp_intro fun t hlater hinv => h t c hlater hinv
  unfold correlationIdOr
  split
  · split
    · exact draw
    · exact given _
  · exact draw

/-! ## What a session reads -/

section reads

omit [DecidableEq ι]

namespace Consistent

theorem known (s : Shared ι) {a : Account} (ha : a ∈ (s.conn i).view.books.accounts) :
    s.Known a := by
  rw [Shared.view_accounts] at ha
  exact (List.mem_append.1 ha).imp_right fun ha => ⟨i, ha⟩

/-- Every entry a session sees is at the precision of an account it sees. -/
theorem seen_fits (h : Consistent b₀ tracked funded s) :
    ∀ e ∈ s.log.seen i, e.Fits (s.conn i).view.books.accounts := by
  intro e he
  rcases List.mem_append.1 he with he | he
  · refine (h.entries e he).mono fun a ha => ?_
    rw [Shared.view_accounts]
    exact List.mem_append_left _ ha
  · exact h.pending i _ (mem_drafts.1 he)

/-- What a session sees of an account sums to an amount at the account's precision. -/
theorem tally_mem_grid (h : Consistent b₀ tracked funded s) {a : Account}
    (ha : a ∈ (s.conn i).view.books.accounts) (p : LedgerEntry → Prop) [DecidablePred p]
    (hp : ∀ e, p e → e.accountId = a.id) :
    tally p LedgerEntry.amount (s.log.seen i) ∈ Decimal.grid (decimalsFor a.currency) := by
  exact LedgerEntry.tally_mem_grid (fun x hx y hy => h.ids x y (known s hx) (known s hy))
    h.seen_fits ha p hp

/-- The latest snapshot a session sees of a tracked account is exact on what it sees. -/
theorem latest_sealed (h : Consistent b₀ tracked funded s) {a : Id} (ha : tracked a) :
    s.SealedOn i a (LedgerService.snapshotCursor ((s.conn i).view.books.latestSnapshot a))
      (LedgerService.snapshotBase ((s.conn i).view.books.latestSnapshot a)) := by
  rcases latestSnapshot_append (Shared.view_snapshots s i) a with hl | ⟨x, hx, rfl, hl⟩
  · rw [hl]
    exact (h.latest a ha).seal i
  · rw [hl]
    exact h.cuts i x hx ha

/-- A session that has drafted nothing sees the committed entries. -/
theorem seen_of_undrafted (h : drafts (s.sessions i).writes = []) :
    s.log.seen i = s.store.db.books.entries := by
  show s.store.db.books.entries ++ drafts (s.sessions i).writes = _
  rw [h, List.append_nil]

/-- Through it, such a session reads the settled sum. -/
theorem settled_read (h : Consistent b₀ tracked funded s) (hd : drafts (s.sessions i).writes = [])
    {account : Account} (hmem : account ∈ (s.conn i).view.books.accounts) {cursor : ℕ}
    {base : Decimal} (hs : s.SealedOn i account.id cursor base) {m : Money}
    (hm : Money.make (base + (s.conn i).view.books.sumEntries account.id cursor [.success] none)
      account.currency = .ok m) :
    m.amount = s.store.db.books.settled account.id := by
  have hread : base + (s.conn i).view.books.sumEntries account.id cursor [.success] none =
      tally (fun e : LedgerEntry => e.accountId = account.id ∧ e.status = .success)
        LedgerEntry.amount (s.log.seen i) := by
    rw [sumEntries_settled, ← Shared.log_seen (h.noFlips i)]
    exact hs.read
  rw [hread] at hm
  rw [Money.amount_of_make (h.tally_mem_grid hmem _ fun _ he => he.1) hm, seen_of_undrafted hd]
  rfl

/-- The pending debits it reads. -/
theorem reserved_read (h : Consistent b₀ tracked funded s) (hd : drafts (s.sessions i).writes = [])
    (a : Id) :
    (s.conn i).view.books.sumEntries a 0 [.pending] (some .debit) =
      s.store.db.books.reserved a := by
  have hview : (s.conn i).view.books.entries = s.store.db.books.entries := by
    rw [← Shared.log_seen (h.noFlips i), seen_of_undrafted hd]
  unfold Books.sumEntries
  rw [hview]
  exact sumEntries_reserved fun e he => (h.numbered e (.inl he)).1

end Consistent

end reads

/-- **The funds check.**  A session that holds a funded account and has drafted nothing
reads at most what is available there, although it reads the two sums one after the
other. -/
theorem behaves_availableBalance (hsub : ∀ a, funded a → tracked a) {account : Account}
    {f : Money → App α} (hdrafts : drafts (s.sessions i).writes = [])
    (hmem : account ∈ (s.conn i).view.books.accounts)
    (hlock : s.locks.Holds i (.account account.id) .update)
    (h : ∀ t m, Later funded i [] s t → Consistent b₀ tracked funded t →
      (funded account.id → m.amount ≤ t.store.db.books.available account.id) →
      Behaves cfg b₀ tracked funded C i (f m) t) :
    Behaves cfg b₀ tracked funded C i (LedgerService.availableBalance account >>= f) s := by
  simp only [LedgerService.availableBalance, LedgerService.balance, bind_assoc]
  refine behaves_select fun t₁ hl₁ hinv₁ _ => behaves_select fun t₂ hl₂ hinv₂ _ => ?_
  refine behaves_ofExcept fun settled hsettled => behaves_select fun t₃ hl₃ hinv₃ _ => ?_
  refine behaves_ofExcept fun m hm => ?_
  have hl₀₂ := hl₁.trans hl₂
  have hl₀₃ := hl₀₂.trans hl₃
  refine h t₃ m hl₀₃ hinv₃ fun hfunded => ?_
  have hundrafted : ∀ {t : Shared ι}, Later funded i [] s t → drafts (t.sessions i).writes = [] :=
    fun hl => by rw [hl.drafted, hdrafts]; rfl
  -- the settled sum, through the snapshot read before it
  have hsealed := hl₂.cuts (hinv₁.latest_sealed (i := i) (hsub _ hfunded))
  have hamount := hinv₂.settled_read (hundrafted hl₀₂) (hl₀₂.accounts _ hmem) hsealed hsettled
  -- the pending debits, read later
  have hreserved : Money.make (settled.amount + t₃.store.db.books.reserved account.id)
      account.currency = .ok m := by
    rw [← hinv₃.reserved_read (hundrafted hl₀₃)]
    exact hm
  have hgrid : t₃.store.db.books.reserved account.id ∈
      Decimal.grid (decimalsFor account.currency) := by
    have hmem₃ := hinv₃.tally_mem_grid (hl₀₃.accounts _ hmem)
      (fun e : LedgerEntry => e.accountId = account.id ∧ e.status = .pending ∧ e.entryType = .debit)
      fun _ he => he.1
    rwa [Consistent.seen_of_undrafted (hundrafted hl₀₃)] at hmem₃
  have hsum := (Decimal.grid (decimalsFor account.currency)).add_mem
    (Money.amount_mem_grid_of_make hsettled) hgrid
  -- nobody takes money from the account between the two
  have hgrows := (hl₃.funds account.id hfunded (hl₀₂.holds hlock)).1
  calc m.amount = settled.amount + t₃.store.db.books.reserved account.id :=
        Money.amount_of_make hsum hreserved
    _ ≤ t₃.store.db.books.settled account.id + t₃.store.db.books.reserved account.id :=
        add_le_add (hamount ▸ hgrows) le_rfl

/-! ## What a session writes -/

/-- A transaction that opens no deposit. -/
theorem behaves_insertTransaction {type : TransactionType} {status : TransactionStatus}
    {amount : Decimal} {currency : String} {details : Details} {correlationId : Option String}
    {f : Transaction → App α} (hd : status = .pending → ∃ e, details.accountId = .error e)
    (h : ∀ t x, Later funded i [] s t → Consistent b₀ tracked funded t →
      Behaves cfg b₀ tracked funded C i (f x) t) :
    Behaves cfg b₀ tracked funded C i
      (ask (.mutate (.insertTransaction type status amount currency details correlationId)) >>= f)
      s := by
  refine behaves_mutate fun t hlater hinv _ v w hexec => ?_
  obtain ⟨stored, -, rfl, rfl⟩ := Mutation.exec_insertTransaction hexec
  refine ⟨⟨hd, by rintro a ⟨⟩, by rintro e ⟨⟩, by rintro x ⟨⟩⟩, fun u hu hinv' _ => ?_⟩
  exact h u _ (hlater.trans hu) hinv'

/-- A transaction whose status moves on. -/
theorem behaves_updateTransactionStatus {id : Id} {status : TransactionStatus} {f : Unit → App α}
    (hstatus : status ≠ .pending)
    (h : ∀ t, Later funded i [] s t → Consistent b₀ tracked funded t →
      Behaves cfg b₀ tracked funded C i (f ()) t) :
    Behaves cfg b₀ tracked funded C i
      (ask (.mutate (.updateTransactionStatus id status)) >>= f) s := by
  refine behaves_mutate fun t hlater hinv _ v w hexec => ?_
  obtain rfl := Mutation.exec_updateTransactionStatus hexec
  refine ⟨⟨hstatus, by rintro a ⟨⟩, by rintro e ⟨⟩, by rintro x ⟨⟩⟩, fun u hu hinv' _ => ?_⟩
  exact h u (hlater.trans hu) hinv'

/-- The amount is at the precision of an account the session sees. -/
def Shared.FitsOn (s : Shared ι) (i : ι) (accountId : Id) (amount : Decimal) : Prop :=
  ∃ a ∈ (s.conn i).view.books.accounts, a.id = accountId ∧
    amount ∈ Decimal.grid (decimalsFor a.currency)

omit [DecidableEq ι] in
theorem Shared.FitsOn.later {accountId : Id} {amount : Decimal} {es : List LedgerEntry}
    (h : s.FitsOn i accountId amount) (hl : Later funded i es s t) :
    t.FitsOn i accountId amount := by
  obtain ⟨a, ha, hid, hgrid⟩ := h
  exact ⟨a, hl.accounts a ha, hid, hgrid⟩

/-- An entry of an account the session sees; a debit on a funded account is covered. -/
theorem behaves_insertEntry {accountId transactionId : Id} {amount : Decimal}
    {entryType : EntryType} {status : EntryStatus} {currency : String} {f : Unit → App α}
    (hfits : s.FitsOn i accountId amount)
    (hcovered : funded accountId → amount < 0 → drafts (s.sessions i).writes = [] ∧
      s.locks.Holds i (.account accountId) .update ∧
      -amount ≤ s.store.db.books.available accountId)
    (h : ∀ t e, Later funded i [e] s t → Consistent b₀ tracked funded t →
      Behaves cfg b₀ tracked funded C i (f ()) t) :
    Behaves cfg b₀ tracked funded C i
      (ask (.mutate (.insertEntry accountId transactionId amount entryType status currency)) >>= f)
      s := by
  refine behaves_mutate fun t hlater hinv _ v w hexec => ?_
  obtain ⟨stored, hstored, -, -, rfl⟩ := Mutation.exec_insertEntry hexec
  obtain ⟨a, ha, hid, hgrid⟩ := hfits.later hlater
  obtain rfl : stored = amount :=
    Decimal.eq_of_storeNumeric le_rfl (Decimal.grid_le (decimalsFor_le _) hgrid) hstored
  refine ⟨⟨⟨a, ha, hid, hgrid⟩, by rintro x ⟨⟩, ?_, by rintro x ⟨⟩⟩, fun u hu hinv' _ => ?_⟩
  · intro e he hfunded hneg
    cases he
    obtain ⟨hdrafts, hlock, hle⟩ := hcovered hfunded hneg
    have hgrows := hlater.available_le hfunded hlock
    rw [hlater.drafted, hdrafts]
    refine ⟨hlater.holds hlock, ?_⟩
    have hnone : weight ([] ++ []) accountId = 0 := rfl
    rw [hnone]
    linarith
  · exact h u _ (hlater.trans hu) hinv'

/-- Lines that take nothing from a funded account. -/
theorem behaves_lines {transactionId : Id} {lines : List PostingLine} {f : Unit → App α}
    (hlines : ∀ line ∈ lines, s.FitsOn i line.accountId line.amount ∧
      (funded line.accountId → 0 ≤ line.amount))
    (h : ∀ t es, Later funded i es s t → Consistent b₀ tracked funded t →
      Behaves cfg b₀ tracked funded C i (f ()) t) :
    Behaves cfg b₀ tracked funded C i
      ((Program.forEach lines fun line =>
        ask (.mutate (.insertEntry line.accountId transactionId line.amount line.entryType
          line.status line.currency))) >>= f) s := by
  induction lines generalizing s with
  | nil => exact wp_intro fun t hlater hinv => h t [] hlater hinv
  | cons line lines ih =>
    rw [Program.forEach, bind_assoc]
    obtain ⟨hfits, hpos⟩ := hlines line (by simp)
    refine behaves_insertEntry hfits (fun hf hneg => absurd (hpos hf) (not_le.2 hneg)) ?_
    intro t e hlater _
    refine ih (fun l hl => ?_) fun u es hlater' => h u _ (hlater.trans hlater')
    exact (hlines l (by simp [hl])).imp_left fun hf => hf.later hlater

/-- A transaction that starts with a covered debit and takes nothing else from a funded
account. -/
theorem behaves_post {transaction : TransactionAggregate} {transactionId : Id}
    (line : PostingLine) (lines : List PostingLine) {f : Unit → App α}
    (hshape : transaction.lines = line :: lines)
    (hfits : s.FitsOn i line.accountId line.amount)
    (hcovered : funded line.accountId → line.amount < 0 → drafts (s.sessions i).writes = [] ∧
      s.locks.Holds i (.account line.accountId) .update ∧
      -line.amount ≤ s.store.db.books.available line.accountId)
    (hlines : ∀ l ∈ lines, s.FitsOn i l.accountId l.amount ∧ (funded l.accountId → 0 ≤ l.amount))
    (h : ∀ t es, Later funded i es s t → Consistent b₀ tracked funded t →
      Behaves cfg b₀ tracked funded C i (f ()) t) :
    Behaves cfg b₀ tracked funded C i (LedgerService.post transaction transactionId >>= f) s := by
  rw [LedgerService.post, bind_assoc]
  refine behaves_ofExcept fun _ _ => ?_
  rw [hshape, Program.forEach, bind_assoc]
  refine behaves_insertEntry hfits hcovered fun t e hlater _ => ?_
  refine behaves_lines (fun l hl => ?_) fun u es hlater' => h u _ (hlater.trans hlater')
  exact (hlines l hl).imp_left fun hf => hf.later hlater

/-! ## Snapshots -/

/-- A session that reads enough entries to cut a snapshot sees no entry whose number is
above that of another session's settled draft on the account. -/
def Shared.CutsInOrder (cfg : Config) (s : Shared ι) (i : ι) (accountId : Id) (cursor : ℕ) : Prop :=
  cfg.snapshotEveryNEntries ≤ ((s.conn i).view.books.settledAfter accountId cursor).length →
    ∀ last ∈ ((s.conn i).view.books.settledAfter accountId cursor).getLast?, ∀ j, j ≠ i →
      ∀ e ∈ drafts (s.sessions j).writes, e.accountId = accountId → e.status = .success →
        last.seq < e.seq

/-- The turns cut no snapshot, or each is cut in order. -/
inductive CutsExactly (cfg : Config) (C : ι → Request → Shared ι → Prop) : Prop
  | never : (∀ i a balance last count s, ¬ C i (.mutate (.insertSnapshot a balance last count)) s) →
      CutsExactly cfg C
  | inOrder : (∀ i a cursor s, C i (.select (.entriesAfter a cursor)) s →
      s.CutsInOrder cfg i a cursor) → CutsExactly cfg C

omit [DecidableEq ι] in
/-- A snapshot cut in order is exact on what its session sees. -/
theorem Consistent.sealed_cut (h : Consistent b₀ tracked funded s) {a : Id} {cursor : ℕ}
    {base : Decimal} (hs : s.SealedOn i a cursor base) (horder : s.CutsInOrder cfg i a cursor)
    (hmany : cfg.snapshotEveryNEntries ≤ ((s.conn i).view.books.settledAfter a cursor).length)
    {last : LedgerEntry}
    (hlast : ((s.conn i).view.books.settledAfter a cursor).getLast? = some last) :
    s.SealedOn i a last.seq
      (base + (((s.conn i).view.books.settledAfter a cursor).map LedgerEntry.amount).sum) := by
  rw [sum_settledAfter, ← Shared.log_seen (h.noFlips i)]
  obtain ⟨hmem, -, hbeyond⟩ := mem_settledAfter.1 (List.mem_of_getLast? hlast)
  rw [← Shared.log_seen (h.noFlips i)] at hmem
  refine hs.cut (fun e he hc => ?_) (h.numbered last (DraftLog.has_of_mem_seen hmem)).2 ?_
  · by_cases hlt : cursor < e.seq
    · rw [Shared.log_seen (h.noFlips i)] at he
      exact le_getLast_settledAfter hlast e (mem_settledAfter.2 ⟨he, hc, hlt⟩)
    · exact (not_lt.1 hlt).trans hbeyond.le
  · exact fun j hj e he hc => horder hmany last hlast j hj e he hc.1 hc.2

omit [DecidableEq ι] in
/-- The base of an exact checkpoint has the scale of its column. -/
theorem Consistent.base_mem_grid (h : Consistent b₀ tracked funded s) {a : Id} {cursor : ℕ}
    {base : Decimal} (hs : s.SealedOn i a cursor base) : base ∈ Decimal.grid 8 := by
  rw [show base = _ from hs.exact]
  refine tally_mem (s := (Decimal.grid 8).toAddSubmonoid) fun e he _ => ?_
  obtain ⟨x, -, -, hgrid⟩ := h.seen_fits e he
  exact Decimal.grid_le (decimalsFor_le _) hgrid

/-- `maybe_snapshot`, if the turns cut exactly. -/
theorem behaves_maybeSnapshot (hC : CutsExactly cfg C) {account : Account} {f : Unit → App α}
    (h : ∀ t, Later funded i [] s t → Consistent b₀ tracked funded t →
      Behaves cfg b₀ tracked funded C i (f ()) t) :
    Behaves cfg b₀ tracked funded C i (LedgerService.maybeSnapshot cfg account >>= f) s := by
  simp only [LedgerService.maybeSnapshot, bind_assoc]
  refine behaves_select fun t₁ hl₁ hinv₁ _ => ?_
  refine behaves_ask fun t₂ hl₂ hinv₂ hC₂ =>
    ⟨Shared.permitted_of_ne (by simp), fun v hv hinv₃ => ?_⟩
  obtain ⟨hf, rfl, hconn⟩ := Conn.exec_select_ok cfg _ hv
  have hl₃ : Later funded i [] t₂ _ := hinv₂.later_read (r := .select (.entriesAfter account.id
    (LedgerService.snapshotCursor (Query.eval (.latestSnapshot account.id) (t₁.conn i).view))))
    rfl hf (by rw [hconn]; rfl) (by rw [hconn]; rfl)
  split
  · exact h _ ((hl₁.trans hl₂).trans hl₃) hinv₃
  · rename_i hmany
    rw [bind_assoc]
    refine behaves_ofOption fun last hlast => behaves_mutate fun t₄ hl₄ hinv₄ hC₄ v w hexec => ?_
    obtain ⟨stored, hstored, rfl⟩ := Mutation.exec_insertSnapshot hexec
    refine ⟨⟨trivial, by rintro a ⟨⟩, by rintro e ⟨⟩, fun x hx ht => ?_⟩, fun u hu hinv₅ _ =>
      h u ((((hl₁.trans hl₂).trans hl₃).trans hl₄).trans hu) hinv₅⟩
    cases hx
    cases hC with
    | never hnever => exact absurd hC₄ (hnever _ _ _ _ _ _)
    | inOrder horder =>
      simp only [Query.eval, List.getLast?_map, Option.map_eq_some_iff] at hlast
      obtain ⟨e, he, rfl⟩ := hlast
      simp only [Query.eval, List.map_map, List.length_map, not_lt] at hstored hmany hC₂
      have hsealed := hinv₂.sealed_cut
        (hl₂.cuts (hinv₁.latest_sealed (i := i) (a := account.id) ht))
        (horder _ _ _ _ hC₂) hmany he
      have hstored' := Decimal.eq_of_storeNumeric le_rfl (hinv₂.base_mem_grid hsealed) hstored
      rw [hstored']
      exact hl₄.cuts (hl₃.cuts hsealed)

end WalletLedger
