import WalletLedger.Concurrent.Conservation
import WalletLedger.Sequential.Releases

/-!
# Requests that decide different transfers

Two sessions that set the status of one entry may both find it waiting and commit one after the
other.  They are only the requests to commit or to fail one transfer: where no two of the requests
at the same time are about the same one, whatever a session sets still waits when it commits, in
any order of turns.

* `Apart` — what a session is about to set still waits, and belongs to what it may decide;
  `Apart.keeps` — a turn keeps it so, and leaves what the others may decide as it is.
* `undecided_execute` and its like — the services that set no status; `decides_commit`,
  `decides_fail` — those that do.
* `reaches_timely` — so every turn is in time.
* `conserved_apart` — the result; `conserved_fail` is two requests at the same time.
-/

namespace WalletLedger

/-! ## Statuses that are set -/

/-- The statement sets the status of an entry. -/
def Mutation.decides : Mutation → Bool
  | .updateEntryStatus _ _ => true
  | _ => false

/-- The request does. -/
def Request.decides : Request → Bool
  | .mutate m => m.decides
  | _ => false

theorem Mutation.decides_exec {cfg : Config} {seqs : Sequences} {db : Database} {m : Mutation}
    {v : m.Result} {id : Id} {status : EntryStatus}
    (h : m.exec cfg seqs db = .ok (v, .setEntryStatus id status)) :
    m = .updateEntryStatus id status := by
  cases m with
  | updateEntryStatus id' status' =>
    unfold exec at h
    dsimp only at h
    repeat' split at h
    all_goals cases h
    rfl
  | _ =>
    unfold exec at h
    dsimp only at h
    repeat' split at h
    all_goals cases h

/-- A row whose status no write sets stays as it is. -/
theorem mem_replayBooks {ws : List Write} {b : Books} {e : LedgerEntry} (he : e ∈ b.entries)
    (hws : ∀ status, .setEntryStatus e.id status ∉ ws) : e ∈ (replayBooks ws b).entries := by
  induction ws generalizing b with
  | nil => exact he
  | cons w ws ih =>
    rw [replayBooks_cons]
    apply ih
    · cases w with
      | addEntry x => exact List.mem_append_left _ he
      | setEntryStatus id status =>
        have hne : e.id ≠ id := fun hid => hws status (by simp [hid])
        exact mem_modify.2 ⟨e, he, (if_neg hne).symm⟩
      | _ => exact he
    · intro status hmem
      exact hws status (List.mem_cons_of_mem _ hmem)

/-! ## The discipline -/

section discipline

variable {ι : Type} {D : ι → Id → Prop}

/-- What a session is about to set still waits, and belongs to a transaction that it may decide. -/
structure Apart (D : ι → Id → Prop) (s : Shared ι) : Prop where
  ids : s.idLog.Distinct id
  own : ∀ i id status, .setEntryStatus id status ∈ (s.sessions i).writes →
    ∃ e ∈ s.store.db.books.entries, e.id = id ∧ e.status = .pending ∧ D i e.transactionId

theorem Apart.nodup {s : Shared ι} (h : Apart D s) (i : ι) :
    (s.store.db.books.entries.map LedgerEntry.id).Nodup := by
  have hids := h.ids.published i
  rwa [List.map_id] at hids

theorem Apart.timely {s : Shared ι} (h : Apart D s) (i : ι) (r : Request) : Timely i r s := by
  intro _ w hw
  cases w with
  | setEntryStatus id status =>
    obtain ⟨e, he, hid, hpending, -⟩ := h.own i id status hw
    intro x hx hxid
    rwa [eq_of_key_eq (h.nodup i) hx he (hxid.trans hid.symm)]
  | _ => trivial

/-- Each session relies on its own side being left alone, and on what it may decide being left to
it. -/
def apartness (D : ι → Id → Prop) : Discipline ι (Shared ι) where
  inv := Apart D
  rely i s t := t.sessions i = s.sessions i ∧ ∀ e ∈ s.store.db.books.entries,
    D i e.transactionId → e ∈ t.store.db.books.entries
  rely_refl _ _ := ⟨rfl, fun _ he _ => he⟩
  rely_trans h h' := ⟨h'.1.trans h.1, fun e he hD => h'.2 e (h.2 e he hD) hD⟩

variable [DecidableEq ι] {cfg : Config} {s t : Shared ι} {i : ι} {r : Request}

/-- A turn keeps the sessions apart, where the status it may set is one of an entry that waits and
that the session may decide. -/
theorem Apart.keeps (hD : ∀ i j id, D i id → D j id → i = j) (h : Apart D s)
    (hr : ∀ id status, r = .mutate (.updateEntryStatus id status) →
      ∃ e ∈ s.store.db.books.entries, e.id = id ∧ e.status = .pending ∧ D i e.transactionId) :
    (apartness D).Keeps i s (s.after cfg i r) := by
  have hids := h.ids.step (Shared.idLog_step cfg s i r)
  have hothers : ∀ j, j ≠ i → (s.after cfg i r).sessions j = s.sessions j := fun j hj =>
    Shared.sessions_after_of_ne hj
  -- a turn that commits nothing: only what the session itself has written matters
  have idle : (s.after cfg i r).store.db = s.store.db →
      (∀ id status, .setEntryStatus id status ∈ ((s.after cfg i r).sessions i).writes →
        ∃ e ∈ s.store.db.books.entries, e.id = id ∧ e.status = .pending ∧
          D i e.transactionId) → (apartness D).Keeps i s (s.after cfg i r) := by
    intro hdb hown
    refine ⟨⟨hids, fun j id status hmem => ?_⟩, fun j hj => ⟨hothers j hj, fun e he _ => ?_⟩⟩
    · rw [hdb]
      by_cases hj : j = i
      · subst hj
        exact hown id status hmem
      · rw [hothers j hj] at hmem
        exact h.own j id status hmem
    · rwa [hdb]
  cases Shared.turn_after cfg s i r with
  | kept _ hsession hdb _ =>
    apply idle hdb
    intro id status hmem
    rw [hsession] at hmem
    exact h.own i id status hmem
  | wrote m v w hm _ hexec hsession hdb _ =>
    apply idle hdb
    intro id status hmem
    rw [hsession] at hmem
    rcases List.mem_append.1 hmem with hmem | hmem
    · exact h.own i id status hmem
    · obtain rfl := List.mem_singleton.1 hmem
      exact hr id status (by rw [hm, Mutation.decides_exec hexec])
  | committed _ _ hsession hdb _ =>
    have hentries : ∀ j, j ≠ i → ∀ e ∈ s.store.db.books.entries, D j e.transactionId →
        e ∈ (s.after cfg i r).store.db.books.entries := by
      intro j hj e he hDe
      rw [hdb, Conn.view, replay_books]
      refine mem_replayBooks he fun status hmem => hj ?_
      -- what the session has set is its own to decide
      obtain ⟨x, hx, hid, -, hDx⟩ := h.own i e.id status hmem
      rw [eq_of_key_eq (h.nodup i) hx he hid] at hDx
      exact hD j i _ hDe hDx
    refine ⟨⟨hids, fun j id status hmem => ?_⟩, fun j hj => ⟨hothers j hj, hentries j hj⟩⟩
    by_cases hj : j = i
    · subst hj
      rw [hsession] at hmem
      cases hmem
    · rw [hothers j hj] at hmem
      obtain ⟨e, he, hid, hpending, hDe⟩ := h.own j id status hmem
      exact ⟨e, hentries j hj e he hDe, hid, hpending, hDe⟩
  | dropped hwrites hdb _ =>
    apply idle hdb
    intro id status hmem
    rw [hwrites] at hmem
    cases hmem

/-- A session that ends commits nothing. -/
theorem Apart.keeps_finish (h : Apart D s) : (apartness D).Keeps i s (s.finish i) := by
  refine ⟨⟨h.ids.step Shared.idLog_finish, fun j id status hmem => ?_⟩,
    fun j hj => ⟨(Shared.finish_frame hj).session, fun _ he _ => he⟩⟩
  by_cases hj : j = i
  · subst hj
    rw [Shared.finish_self] at hmem
    cases hmem
  · rw [(Shared.finish_frame hj).session] at hmem
    exact h.own j id status hmem

end discipline

/-! ## Programs that set no status -/

/-- A program that sets the status of no entry. -/
abbrev Undecided {α : Type} (p : App α) : Prop := p.All fun r => r.decides = false

/-- Such is what leaves the entries alone. -/
theorem Program.All.undecided {α : Type} {p : App α} (h : OffEntries p) : Undecided p := by
  refine h.mono fun r hr => ?_
  cases r with
  | mutate m =>
    cases m with
    | updateEntryStatus id status => cases hr
    | _ => rfl
  | _ => rfl

section undecided

variable {cfg : Config}

theorem undecided_post (transaction : TransactionAggregate) (id : Id) :
    Undecided (LedgerService.post transaction id) :=
  (Program.all_ofExcept _).bind fun _ => Program.All.forEach fun _ _ => all_ask rfl

theorem undecided_execute (senderId receiverId : Id) (amount : Decimal)
    (correlationId : Option String) :
    Undecided (TransferService.execute cfg senderId receiverId amount correlationId) := by
  refine (offEntries_lock _).undecided.bind fun sender => ?_
  refine (offEntries_get _).undecided.bind fun receiver => ?_
  refine (Bookkeeping.validate _ _ _).bind fun money => ?_
  refine (offEntries_ensureFunds _ _).undecided.bind fun _ => ?_
  refine (offEntries_correlationIdOr _).undecided.bind fun correlationId => ?_
  refine (offEntries_mutate _ rfl).undecided.bind fun txn => ?_
  refine (undecided_post _ _).bind fun _ => Program.All.undecided ?_
  refine (offEntries_maybeSnapshot _).bind fun _ => (offEntries_maybeSnapshot _).bind fun _ => ?_
  exact offEntries_commit.bind fun _ => offEntries_transferPublish _ _ _ _ _

theorem undecided_initiate (senderId receiverId : Id) (amount : Decimal)
    (correlationId : Option String) :
    Undecided (TransferService.initiate cfg senderId receiverId amount correlationId) := by
  refine (offEntries_lock _).undecided.bind fun sender => ?_
  refine (offEntries_get _).undecided.bind fun receiver => ?_
  refine (Bookkeeping.validate _ _ _).bind fun money => ?_
  refine (offEntries_ensureFunds _ _).undecided.bind fun _ => ?_
  refine (offEntries_correlationIdOr _).undecided.bind fun correlationId => ?_
  refine (offEntries_mutate _ rfl).undecided.bind fun txn => ?_
  refine Program.All.bind (all_ask rfl) fun _ => Program.All.undecided ?_
  exact offEntries_commit.bind fun _ => offEntries_transferPublish _ _ _ _ _

theorem undecided_reverse (transactionId : Id) (correlationId : Option String) :
    Undecided (ReversalService.reverse cfg transactionId correlationId) := by
  refine (offEntries_select _).undecided.bind fun found => ?_
  refine (all_ofOption _ _).bind fun txn => (all_raiseIf _ _).bind fun _ => ?_
  refine (all_raiseIf _ _).bind fun _ => (offEntries_select _).undecided.bind fun entries => ?_
  refine Program.All.bind (Program.All.forEach fun _ _ =>
    (offEntries_lock _).undecided.bind fun _ => trivial) fun _ => ?_
  refine (offEntries_correlationIdOr _).undecided.bind fun correlationId => ?_
  refine (offEntries_mutate _ rfl).undecided.bind fun reversal => ?_
  refine (Program.all_ofExcept _).bind fun mirrored => (undecided_post _ _).bind fun _ => ?_
  refine Program.All.undecided ((offEntries_mutate _ rfl).bind fun _ => ?_)
  refine Program.All.bind (Program.All.forEach fun _ _ =>
    (offEntries_get _).bind fun _ => offEntries_maybeSnapshot _) fun _ => ?_
  exact offEntries_commit.bind fun _ => trivial

theorem undecided_initiateDeposit (accountId : Id) (amount : Decimal) (provider : String)
    (context : DepositContext) (correlationId : Option String) :
    Undecided (DepositService.initiate cfg accountId amount provider context correlationId) := by
  refine Program.All.undecided ((offEntries_get _).bind fun account => ?_)
  refine (Program.all_ofExcept _).bind fun money => (all_raiseIf _ _).bind fun _ => ?_
  refine (offEntries_correlationIdOr _).bind fun _ => (offEntries_mutate _ rfl).bind fun txn => ?_
  refine (Program.all_ofExcept _).bind fun _ => (Program.all_ofExcept _).bind fun _ => ?_
  exact (offEntries_mutate _ rfl).bind fun _ => offEntries_commit.bind fun _ => trivial

theorem undecided_settleFound (missing : Exn) (check : Transaction → Money → Except Exn Unit)
    (found : Option Transaction) :
    Undecided (DepositService.settleFound cfg missing check found) := by
  refine (all_ofOption _ _).bind fun txn => (all_raiseIf _ _).bind fun _ => ?_
  refine (Program.all_ofExcept _).bind fun authorized => (Program.all_ofExcept _).bind fun _ => ?_
  refine (Program.all_ofExcept _).bind fun accountId => ?_
  refine (offEntries_lock _).undecided.bind fun account => ?_
  refine (offEntries_getOrCreateInternal _ _).undecided.bind fun clearing => ?_
  refine (undecided_post _ _).bind fun _ => Program.All.undecided ?_
  refine (offEntries_mutate _ rfl).bind fun _ => (offEntries_maybeSnapshot _).bind fun _ => ?_
  refine (offEntries_maybeSnapshot _).bind fun _ => offEntries_commit.bind fun _ => ?_
  refine (offEntries_reloadTransaction _).bind fun _ => ?_
  exact (offEntries_reloadAccount _).bind fun _ => (offEntries_publish _).bind fun _ => trivial

theorem undecided_executeFxTransfer (rates : RateTable) (senderId receiverId : Id)
    (amount : Decimal) (correlationId : Option String) :
    Undecided
      (FxService.executeFxTransfer cfg rates senderId receiverId amount correlationId) := by
  refine (offEntries_lock _).undecided.bind fun sender => ?_
  refine (offEntries_get _).undecided.bind fun receiver => (all_raiseIf _ _).bind fun _ => ?_
  refine (Program.all_ofExcept _).bind fun sent => (all_raiseIf _ _).bind fun _ => ?_
  refine (offEntries_availableBalance _).undecided.bind fun available => ?_
  refine (Program.all_ofExcept _).bind fun _ => (Program.all_ofExcept _).bind fun received => ?_
  refine (offEntries_getOrCreateInternal _ _).undecided.bind fun poolFrom => ?_
  refine (offEntries_getOrCreateInternal _ _).undecided.bind fun poolTo => ?_
  refine (offEntries_correlationIdOr _).undecided.bind fun correlationId => ?_
  refine (offEntries_mutate _ rfl).undecided.bind fun txn => ?_
  refine (undecided_post _ _).bind fun _ => Program.All.undecided ?_
  refine Program.All.bind (Program.All.forEach fun _ _ => offEntries_maybeSnapshot _) fun _ => ?_
  refine offEntries_commit.bind fun _ => (offEntries_reloadTransaction _).bind fun _ => ?_
  refine (offEntries_reloadAccount _).bind fun _ => (offEntries_reloadAccount _).bind fun _ => ?_
  exact (offEntries_publish _).bind fun _ => trivial

end undecided

/-! ## Rules -/

section rules

variable {ι : Type} [DecidableEq ι] {D : ι → Id → Prop} {cfg : Config} {i : ι} {s t : Shared ι}
  {α β : Type} {R : α → Shared ι → Prop}

/-- The session keeps the discipline while it runs the program, and where it returns, `R` holds. -/
abbrev KeepsApart (cfg : Config) (D : ι → Id → Prop) (i : ι) (p : App α) (R : α → Shared ι → Prop)
    (s : Shared ι) : Prop :=
  wp (machine ι cfg) (apartness D) anyTurn i p (onExit R fun _ _ => True) s

variable (hD : ∀ i j id, D i id → D j id → i = j)

include hD

theorem Apart.keeps_undecided {r : Request} (h : Apart D s) (hr : r.decides = false) :
    (apartness D).Keeps i s (s.after cfg i r) := by
  refine h.keeps hD fun id status heq => ?_
  rw [heq] at hr
  cases hr

/-- What the others leave alone and the requests of the program keep holds where it returns. -/
theorem decides_of_stable {P : Request → Prop} {I : Shared ι → Prop}
    (hI : (apartness D).Stable i I) (hP : ∀ r, P r → r.decides = false)
    (hstep : ∀ r t, P r → I t → I (t.after cfg i r)) {p : App α} (hp : p.All P) (hs : I s) :
    KeepsApart cfg D i p (fun _ => I) s := by
  have hwp : wp (machine ι cfg) (apartness D) anyTurn i p (fun _ => I) s := by
    refine wp_of_stable hI ?_ hp hs
    intro r hr t v u hinv _ ht hx
    obtain ⟨-, -, rfl⟩ := Shared.exec_eq_some hx
    exact ⟨hinv.keeps_undecided hD (hP r hr), hstep r t hr ht⟩
  refine wp_mono (fun o t _ ho => ?_) hwp
  cases o with
  | error e => trivial
  | ok a => exact ho

theorem decides_undecided {p : App α} (hp : Undecided p) :
    KeepsApart cfg D i p (fun _ _ => True) s :=
  decides_of_stable hD (fun _ _ _ _ _ => trivial) (fun _ hr => hr) (fun _ _ _ _ => trivial) hp
    trivial

/-- A session that has written nothing to the entries has still written nothing to them. -/
theorem decides_blank {p : App α} (hp : OffEntries p) (hs : s.Blank i) :
    KeepsApart cfg D i p (fun _ t => t.Blank i) s := by
  refine decides_of_stable hD (P := fun r : Request => r.offEntries = true) ?_ ?_ ?_ hp hs
  · intro s t hrely _ hs w hw
    exact hs w (by rwa [← hrely.1])
  · intro r hr
    have hall : Undecided (ask r) := Program.All.undecided (all_ask hr)
    exact hall.1
  · exact fun r t hr ht => (carried_blank i).after hr ht

omit hD

theorem decides_bind {p : App β} {f : β → App α} {S : β → Shared ι → Prop}
    (hp : KeepsApart cfg D i p S s) (h : ∀ b t, S b t → KeepsApart cfg D i (f b) R t) :
    KeepsApart cfg D i (p >>= f) R s := by
  refine wp_bind (wp_mono (fun o t _ ho => ?_) hp)
  cases o with
  | error e => trivial
  | ok b => exact h b t ho

/-- A request, and what follows where it is answered. -/
theorem decides_ask {r : Request} {f : r.Result → App α}
    (h : ∀ t, (apartness D).rely i s t → Apart D t → (apartness D).Keeps i t (t.after cfg i r) ∧
      ∀ v, (Conn.exec cfg r (t.conn i)).1 = .ok v → KeepsApart cfg D i (f v) R (t.after cfg i r)) :
    KeepsApart cfg D i (ask r >>= f) R s := by
  intro t hrely hinv _ v u hx
  obtain ⟨-, rfl, rfl⟩ := Shared.exec_eq_some hx
  obtain ⟨hkeeps, hgo⟩ := h t hrely hinv
  refine ⟨hkeeps, ?_⟩
  cases hv : (Conn.exec cfg r (t.conn i)).1 with
  | error e => exact fun _ _ _ => trivial
  | ok v => exact hgo v hv

include hD

/-- A query of a session that has written nothing to the entries. -/
theorem decides_select {q : Query} {f : q.Result → App α} (hs : s.Blank i)
    (h : ∀ t, t.Blank i → KeepsApart cfg D i (f (q.eval (t.conn i).view)) R t) :
    KeepsApart cfg D i (ask (.select q) >>= f) R s := by
  refine decides_ask fun t hrely hinv => ⟨hinv.keeps_undecided hD rfl, fun v hv => ?_⟩
  have ht : t.Blank i := fun w hw => hs w (by rwa [← hrely.1])
  obtain ⟨-, rfl, hconn⟩ := Conn.exec_select_ok cfg _ hv
  have hsame : (t.after cfg i (.select q)).conn i = t.conn i := by rw [Shared.after_conn, hconn]
  have hread := h (t.after cfg i (.select q)) ((carried_blank i).after (r := .select q) rfl ht)
  rwa [hsame] at hread

/-- The status of an entry that waits, of a transaction that the session may decide. -/
theorem decides_update {e : LedgerEntry} {status : EntryStatus} {f : Unit → App α}
    (he : e ∈ s.store.db.books.entries) (hpending : e.status = .pending)
    (hDe : D i e.transactionId)
    (h : ∀ t, (∀ x ∈ s.store.db.books.entries, D i x.transactionId →
      x ∈ t.store.db.books.entries) → KeepsApart cfg D i (f ()) R t) :
    KeepsApart cfg D i (ask (.mutate (.updateEntryStatus e.id status)) >>= f) R s := by
  refine decides_ask fun t hrely hinv => ⟨hinv.keeps hD fun id status' heq => ?_, fun v hv => ?_⟩
  · cases heq
    exact ⟨e, hrely.2 e he hDe, rfl, hpending, hDe⟩
  · refine h _ fun x hx hDx => ?_
    rw [Shared.after_db (by simp)]
    exact hrely.2 x hx hDx

/-- What the session may decide waits for it, as long as it commits nothing. -/
theorem decides_waiting {p : App α} {e : LedgerEntry} (hDe : D i e.transactionId)
    (hp : p.All fun r => r.decides = false ∧ r ≠ .commit) (he : e ∈ s.store.db.books.entries) :
    KeepsApart cfg D i p (fun _ t => e ∈ t.store.db.books.entries) s := by
  refine decides_of_stable hD (P := fun r : Request => r.decides = false ∧ r ≠ .commit) ?_
    (fun r hr => hr.1) ?_ hp he
  · intro s t hrely _ hs
    exact hrely.2 e hs hDe
  · intro r t hr ht
    rwa [Shared.after_db hr.2]

/-- A transaction that waits, found by its identifier. -/
theorem decides_pendingTransaction {transactionId : Id} {f : Transaction → App α}
    (hs : s.Blank i) (h : ∀ txn t, txn.id = transactionId → t.Blank i →
      KeepsApart cfg D i (f txn) R t) :
    KeepsApart cfg D i (TransferService.pendingTransaction transactionId >>= f) R s := by
  unfold TransferService.pendingTransaction
  rw [Program.bind_assoc]
  refine decides_select hD hs fun t ht => ?_
  rw [Program.bind_assoc]
  cases hfound : (Query.transaction transactionId).eval (t.conn i).view with
  | none => exact fun _ _ _ => trivial
  | some txn =>
    have hfind : (t.conn i).view.books.transactions.find? (fun t => decide (t.id = transactionId)) =
        some txn := hfound
    have hid : txn.id = transactionId := by simpa using List.find?_some hfind
    show KeepsApart cfg D i ((raiseIf (txn.status ≠ .pending) _ >>= fun _ => .ret txn) >>= f) R t
    unfold raiseIf
    split
    · exact fun _ _ _ => trivial
    · exact h txn t hid ht

/-! ## The services that set a status -/

theorem decides_commit {transactionId : Id} (hDi : D i transactionId) (hs : s.Blank i) :
    KeepsApart cfg D i (TransferService.commit cfg transactionId) (fun _ _ => True) s := by
  refine decides_pendingTransaction hD hs fun txn t hid ht => ?_
  refine decides_bind (decides_blank hD (Program.all_ofExcept _) ht) fun money t ht => ?_
  refine decides_bind (decides_blank hD (all_raiseIf _ _) ht) fun _ t ht => ?_
  refine decides_select hD ht fun t ht => ?_
  cases hfound : (Query.entryOf txn.id .debit .pending).eval (t.conn i).view with
  | none => exact fun _ _ _ => trivial
  | some debit =>
    -- the debit is committed, and it is the session's to decide
    have hmem : debit ∈ t.store.db.books.entries := ht.view ▸ List.mem_of_find?_eq_some hfound
    have hdebit := List.find?_some hfound
    simp only [LedgerEntry.isOf, decide_eq_true_eq] at hdebit
    have hDe : D i debit.transactionId := by rwa [hdebit.1.1, hid]
    have hlock : (AccountService.lock debit.accountId).All fun r =>
        r.decides = false ∧ r ≠ .commit :=
      (all_ask ⟨rfl, by simp⟩).bind fun _ => all_ofOption _ _
    have hget : ∀ id, (AccountService.get id).All fun r => r.decides = false ∧ r ≠ .commit :=
      fun id => (all_ask ⟨rfl, by simp⟩).bind fun _ => all_ofOption _ _
    show KeepsApart cfg D i (AccountService.lock debit.accountId >>= _) _ t
    refine decides_bind (decides_waiting hD hDe hlock hmem) fun sender t ht => ?_
    refine decides_bind (decides_waiting hD hDe (Program.all_ofExcept _) ht) fun _ t ht => ?_
    refine decides_bind (decides_waiting hD hDe (hget _) ht) fun receiver t ht => ?_
    refine decides_update hD ht hdebit.1.2 hDe fun t _ => decides_undecided hD ?_
    refine Program.All.bind (all_ask rfl) fun _ => (Program.all_ofExcept _).bind fun _ => ?_
    refine Program.All.undecided ((offEntries_mutate _ rfl).bind fun _ => ?_)
    refine (offEntries_maybeSnapshot _).bind fun _ => (offEntries_maybeSnapshot _).bind fun _ => ?_
    exact offEntries_commit.bind fun _ => offEntries_transferPublish _ _ _ _ _

/-- The entries are marked as failed, one after the other. -/
theorem decides_release {es : List LedgerEntry} {f : Unit → App α}
    (hes : ∀ e ∈ es, e ∈ s.store.db.books.entries ∧ e.status = .pending ∧ D i e.transactionId)
    (h : ∀ t, KeepsApart cfg D i (f ()) R t) :
    KeepsApart cfg D i
      ((Program.forEach es fun e => ask (.mutate (.updateEntryStatus e.id .failed))) >>= f) R
      s := by
  induction es generalizing s with
  | nil => exact h s
  | cons e es ih =>
    rw [Program.forEach, Program.bind_assoc]
    obtain ⟨he, hpending, hDe⟩ := hes e (by simp)
    refine decides_update hD he hpending hDe fun t hkept => ih fun x hx => ?_
    obtain ⟨hxs, hxp, hDx⟩ := hes x (by simp [hx])
    exact ⟨hkept x hxs hDx, hxp, hDx⟩

theorem decides_fail {transactionId : Id} (hDi : D i transactionId) (hs : s.Blank i) :
    KeepsApart cfg D i (TransferService.fail cfg transactionId) (fun _ _ => True) s := by
  refine decides_pendingTransaction hD hs fun txn t hid ht => ?_
  refine decides_select hD ht fun t ht => ?_
  refine decides_release hD (fun e he => ?_) fun t => decides_undecided hD ?_
  · obtain ⟨hview, hof⟩ := List.mem_filter.1 he
    rw [ht.view] at hview
    obtain ⟨hte, hpending⟩ : e.transactionId = txn.id ∧ e.status = .pending := of_decide_eq_true hof
    exact ⟨hview, hpending, by rwa [hte, hid]⟩
  · refine Program.All.undecided ((offEntries_mutate _ rfl).bind fun _ => ?_)
    refine offEntries_commit.bind fun _ => (offEntries_reloadTransaction _).bind fun _ => ?_
    exact (offEntries_publish _).bind fun _ => trivial

end rules

/-! ## Requests and webhooks -/

/-- The request is to commit or to fail the transaction. -/
def HttpRequest.Decided (r : HttpRequest) (transactionId : Id) : Prop :=
  r.endpoint = .commitTransfer transactionId ∨ r.endpoint = .failTransfer transactionId

/-- The entry point is such a request. -/
def Entry.Decided : Entry → Id → Prop
  | .post r, transactionId => r.Decided transactionId
  | _, _ => False

section entries

variable {ι : Type} [DecidableEq ι] {D : ι → Id → Prop} {cfg : Config} {web : Web} {pay : Payments}
  {i : ι} {s : Shared ι} (hD : ∀ i j id, D i id → D j id → i = j)

include hD

theorem decides_view {r : HttpRequest} (hr : ∀ id, r.Decided id → D i id) (hs : s.Blank i) :
    KeepsApart cfg D i (r.view cfg web) (fun _ _ => True) s := by
  have serialized : ∀ (txn : Transaction) (status : ℕ),
      Undecided (serializeExpired txn >>= fun body => .ret (Response.mk status body)) :=
    fun txn status => (offEntries_serializeExpired txn).undecided.bind fun _ => trivial
  unfold HttpRequest.view
  cases hendpoint : r.endpoint with
  | executeTransfer =>
    refine decides_undecided hD ((all_ofOption _ _).bind fun data => ?_)
    refine (offEntries_resolvePair _).undecided.bind fun pair => ?_
    exact (undecided_execute _ _ _ _).bind fun txn => serialized txn 201
  | initiateTransfer =>
    refine decides_undecided hD ((all_ofOption _ _).bind fun data => ?_)
    refine (offEntries_resolvePair _).undecided.bind fun pair => ?_
    exact (undecided_initiate _ _ _ _).bind fun txn => trivial
  | commitTransfer transactionId =>
    exact decides_bind (decides_commit hD (hr transactionId (.inl hendpoint)) hs) fun txn t _ =>
      decides_undecided hD (serialized txn 200)
  | failTransfer transactionId =>
    exact decides_bind (decides_fail hD (hr transactionId (.inr hendpoint)) hs) fun txn t _ =>
      decides_undecided hD (p := .ret _) trivial
  | reverseTransaction transactionId =>
    exact decides_undecided hD ((undecided_reverse _ _).bind fun txn => serialized txn 201)
  | createDeposit =>
    refine decides_undecided hD ((all_ofOption _ _).bind fun data => ?_)
    refine (offEntries_getByNumber _).undecided.bind fun account => ?_
    exact (undecided_initiateDeposit _ _ _ _ _).bind fun txn => serialized txn 201
  | fxTransfer =>
    refine decides_undecided hD ((all_ofOption _ _).bind fun data => ?_)
    refine (offEntries_getByNumber _).undecided.bind fun sender => ?_
    refine (offEntries_getByNumber _).undecided.bind fun receiver => ?_
    exact (undecided_executeFxTransfer _ _ _ _ _).bind fun txn => serialized txn 201

theorem decides_handle {r : HttpRequest} (hr : ∀ id, r.Decided id → D i id) (hs : s.Blank i) :
    KeepsApart cfg D i (r.handle cfg web) (fun _ _ => True) s := by
  unfold HttpRequest.handle idempotent
  cases r.key with
  | none => exact decides_view hD hr hs
  | some key =>
    dsimp only
    split
    · exact decides_view hD hr hs
    have hclaim : OffEntries (claimKey key (r.requestHash web)) :=
      decorating_offEntries.claimKey key _
    refine decides_bind (decides_blank hD hclaim hs) fun replayed t ht => ?_
    cases replayed with
    | some response => exact decides_undecided hD (p := .ret response) trivial
    | none =>
      refine decides_bind (S := fun _ _ => True) ?_ fun response t _ => ?_
      · refine wp_attempt (wp_mono (fun o t _ _ => ?_) (decides_view hD hr ht))
        cases o with
        | ok response => trivial
        | error e =>
          have hrelease : OffEntries (releaseKey key) := decorating_offEntries.releaseKey key
          exact decides_undecided hD (hrelease.undecided.bind fun _ => trivial)
      · have hstore : OffEntries (storeResponse key response) :=
          decorating_offEntries.storeResponse key response
        exact decides_undecided hD (hstore.undecided.bind fun _ => trivial)

theorem decides_entry {e : Entry} (he : e.OverHttp) (hdecides : ∀ id, e.Decided id → D i id)
    (hs : s.Blank i) : KeepsApart cfg D i (e.program cfg web pay) (fun _ _ => True) s := by
  cases e with
  | post r =>
    exact decides_bind (decides_handle hD hdecides hs) fun _ _ _ =>
      decides_undecided hD (p := .ret _) trivial
  | webhook r =>
    refine decides_undecided hD (all_map ?_ _)
    refine (Program.all_ofExcept _).bind fun result => ?_
    split
    · trivial
    · refine Program.All.bind ?_ fun txn =>
        (offEntries_reloadTransaction _).undecided.bind fun _ => trivial
      exact (Program.all_ofExcept _).bind fun _ => Program.All.bind (all_ask rfl) fun _ =>
        undecided_settleFound _ _ _
  | createAccount json =>
    refine decides_undecided hD (all_map (Program.All.undecided ?_) _)
    refine (all_ofOption _ _).bind fun data => (offEntries_create _ _).bind fun account => ?_
    exact (offEntries_reloadAccount _).bind fun _ => trivial
  | getAccount number =>
    refine decides_undecided hD (all_map (Program.All.undecided ?_) _)
    exact (offEntries_getByNumber _).bind fun _ => trivial
  | accountBalance number =>
    exact decides_undecided hD
      (all_map (Program.All.undecided (consulting_offEntries.accountBalance number)) _)
  | fund number amount => exact he.elim
  | seed => exact he.elim

end entries

/-! ## The result -/

section result

variable {ι : Type} [DecidableEq ι] {cfg : Config} {web : Web} {pay : Payments}

/-- Where no two of the requests are about the same transfer, every turn is in time. -/
theorem reaches_timely {st : Store} (hst : st.db.books.Keyed st.seqs) {es : ι → Entry}
    (hes : ∀ i, (es i).OverHttp)
    (hapart : ∀ i j id, (es i).Decided id → (es j).Decided id → i = j)
    {w : World ι Request Request.Answer Exn (Option Response) (Shared ι)}
    (h : Reaches (machine ι cfg) anyTurn
      (World.start (Shared.start st) fun i => (es i).program cfg web pay) w) :
    Reaches (machine ι cfg) Timely
      (World.start (Shared.start st) fun i => (es i).program cfg web pay) w := by
  have hsafe : ∀ {w}, Reaches (machine ι cfg) anyTurn
      (World.start (Shared.start st) fun i => (es i).program cfg web pay) w →
      Apart (fun i => (es i).Decided) w.shared := by
    intro w hw
    refine (Reaches.sound (D := apartness fun i => (es i).Decided)
      (Q := fun i => onExit (fun _ _ => True) fun _ _ => True) (R := fun _ _ _ => True)
      (fun i o s hinv _ => ⟨hinv.keeps_finish, trivial⟩) (fun _ _ _ _ _ _ _ => trivial)
      ?_ (fun i => ?_) hw).1
    · refine ⟨Shared.idLog_start hst, fun i id status hmem => ?_⟩
      cases hmem
    · exact decides_entry hapart (hes i) (fun _ hid => hid) (Shared.blank_of_nil rfl)
  induction h with
  | start => exact .start
  | @step w w' i hw _ hs ih =>
    refine .step ih ?_ hs
    show Task.Allowed Timely i w.shared (w.tasks i)
    cases w.tasks i with
    | finished o => trivial
    | running p =>
      cases p with
      | ret a => trivial
      | raise e => trivial
      | call r k => exact (hsafe hw).timely i r

/-- **Conservation of money, whatever the order of turns.**  After any commands, requests and
webhooks, wherever they have been killed, any number of requests and webhooks take turns in any
order: in every moment, the settled entries of every transaction sum to zero in every currency,
and so do all of them, as long as no two of the requests are to commit or to fail the same
transfer. -/
theorem conserved_apart {st : Store} (hrun : Run (crash cfg web pay) Entry.Exact Store.empty st)
    {es : ι → Entry} (hes : ∀ i, (es i).OverHttp)
    (hapart : ∀ i j id, (es i).Decided id → (es j).Decided id → i = j)
    {w : World ι Request Request.Answer Exn (Option Response) (Shared ι)}
    (h : Reaches (machine ι cfg) anyTurn
      (World.start (Shared.start st) fun i => (es i).program cfg web pay) w) :
    (∀ (id : Id) (c : String),
      tally (fun e => e.transactionId = id ∧ e.currency = c ∧ e.status = .success)
        LedgerEntry.amount w.books.entries = 0) ∧
      ∀ c : String, tally (fun e => e.currency = c ∧ e.status = .success) LedgerEntry.amount
        w.books.entries = 0 := by
  have hsound := sound_of_crashes hrun
  have hbalanced := (conserved_of_reaches hsound hes
    (reaches_timely hsound.keyed hes hapart h)).balanced
  exact ⟨hbalanced, hbalanced.total⟩

end result

/-! ## A release and a transfer -/

/-- The reservation is released, and Alice sends Bob another 20. -/
def releaseAndSend (i : Fin 2) : Entry :=
  if i.val = 0 then .post (heldFail 9) else .post { keyedRequest with key := some "other" }

/-- The transfer has read the accounts before the release commits. -/
theorem conserved_fail :
    ∃ w, Reaches (machine (Fin 2) (offlineConfig 100)) anyTurn
        (World.start (Shared.start initiatedStore) fun i =>
          (releaseAndSend i).program (offlineConfig 100) transferBodies signedPayments) w ∧
      w.Quiescent ∧ w.books.settled 1 = 20 ∧
      ∀ c : String, tally (fun e => e.currency = c ∧ e.status = .success) LedgerEntry.amount
        w.books.entries = 0 := by
  have hrun : Run (crash (offlineConfig 100) transferBodies signedPayments) Entry.Exact Store.empty
      initiatedStore := Run.of_along (by decide +kernel)
  have hhttp : ∀ i, (releaseAndSend i).OverHttp := by
    intro i
    unfold releaseAndSend
    split <;> trivial
  have hsecond : ∀ i id, (releaseAndSend i).Decided id → i.val = 0 := by
    intro i id hid
    unfold releaseAndSend at hid
    split at hid
    · assumption
    · rcases hid with hid | hid <;> cases hid
  have hapart : ∀ i j id, (releaseAndSend i).Decided id → (releaseAndSend j).Decided id → i = j :=
    fun i j id hi hj => Fin.ext ((hsecond i id hi).trans (hsecond j id hj).symm)
  obtain ⟨w, hw, hq, hsettled⟩ : ∃ w, Reaches (machine (Fin 2) (offlineConfig 100)) anyTurn
      (World.start (Shared.start initiatedStore) fun i =>
        (releaseAndSend i).program (offlineConfig 100) transferBodies signedPayments) w ∧
      w.Quiescent ∧ w.books.settled 1 = 20 :=
    exists_reaches (List.replicate 4 1 ++ List.replicate 7 0 ++ List.replicate 25 1)
      (by decide +kernel)
  exact ⟨w, hw, hq, hsettled, (conserved_apart hrun hhttp hapart hw).2⟩

end WalletLedger
