import WalletLedger.Concurrent.Sums
import WalletLedger.Operations.Refinement
import WalletLedger.Operations.Surface
import WalletLedger.Sequential.Holdings

/-!
# Conservation of money at the same time

Any number of requests and webhooks, of any kind, at the same time.  A session reads at several
moments and commits at a later one; what it commits sums to zero all the same, as long as the
entries whose status it sets still wait when it does.

* `OffEntries` — programs that leave the entries alone.
* `Conserves` — a session keeps the discipline of `conserving`, with a rule for such programs
  (`conserves_then`), for entries (`conserves_insertEntry`, `conserves_post`) and for a debit that
  is settled (`conserves_settle`).
* `settles_execute` and its like — the services; `settles_handle`, `settles_process`,
  `settles_entry` — what serves them.
* `conserved_together` — the result; `conserved_pair` is two requests at the same time.
-/

namespace WalletLedger

/-! ## Programs that leave the entries alone -/

/-- The statement adds no entry, and sets the status of none. -/
def Mutation.offEntries : Mutation → Bool
  | .insertEntry _ _ _ _ _ _ => false
  | .updateEntryStatus _ _ => false
  | _ => true

/-- The request leaves the entries alone. -/
def Request.offEntries : Request → Bool
  | .mutate m => m.offEntries
  | _ => true

theorem Mutation.offEntries_exec {cfg : Config} {seqs : Sequences} {db : Database} {m : Mutation}
    {v : m.Result} {w : Write} (hm : m.offEntries = true) (h : m.exec cfg seqs db = .ok (v, w)) :
    w.offEntries = true := by
  cases m with
  | insertEntry accountId transactionId amount entryType status currency => cases hm
  | updateEntryStatus id status => cases hm
  | _ =>
    unfold exec at h
    dsimp only at h
    repeat' split at h
    all_goals cases h
    all_goals rfl

/-- A program that leaves the entries alone. -/
abbrev OffEntries {α : Type} (p : App α) : Prop := p.All fun r => r.offEntries = true

section offEntries

variable {cfg : Config}

theorem offEntries_select (q : Query) : OffEntries (ask (.select q)) := all_ask (r := .select q) rfl

theorem offEntries_mutate (m : Mutation) (hm : m.offEntries = true) :
    OffEntries (ask (.mutate m)) := all_ask (r := .mutate m) hm

theorem offEntries_uuid4 : OffEntries (ask .uuid4) := all_ask (r := .uuid4) rfl

theorem offEntries_commit : OffEntries (ask .commit) := all_ask (r := .commit) rfl

theorem offEntries_rollback : OffEntries (ask .rollback) := all_ask (r := .rollback) rfl

theorem consulting_offEntries : Consulting fun r => r.offEntries = true :=
  ⟨fun _ => rfl, fun _ => rfl, fun _ _ => rfl⟩

theorem offEntries_lock (id : Id) : OffEntries (AccountService.lock id) :=
  (offEntries_select _).bind fun _ => all_ofOption _ _

theorem offEntries_get (id : Id) : OffEntries (AccountService.get id) :=
  (offEntries_select _).bind fun _ => all_ofOption _ _

theorem offEntries_getByNumber (number : String) : OffEntries (AccountService.getByNumber number) :=
  (offEntries_select _).bind fun _ => all_ofOption _ _

theorem offEntries_getOrCreateInternal (ownerId currency : String) :
    OffEntries (AccountService.getOrCreateInternal ownerId currency) := by
  refine (offEntries_select _).bind fun found => ?_
  cases found with
  | some account => trivial
  | none => exact offEntries_mutate _ rfl

theorem offEntries_create (ownerId currency : String) :
    OffEntries (AccountService.create ownerId currency) := by
  refine Program.All.attempt ?_ fun e => ?_
  · exact (offEntries_mutate _ rfl).bind fun _ => offEntries_commit.bind fun _ => trivial
  · split
    · exact offEntries_rollback.bind fun _ => trivial
    · trivial

theorem offEntries_reloadTransaction (id : Id) : OffEntries (reloadTransaction id) :=
  (offEntries_select _).bind fun _ => all_ofOption _ _

theorem offEntries_reloadAccount (id : Id) : OffEntries (reloadAccount id) :=
  (offEntries_select _).bind fun _ => all_ofOption _ _

theorem offEntries_correlationIdOr (correlationId : Option String) :
    OffEntries (correlationIdOr correlationId) := by
  have draw : OffEntries (Id.text <$> ask .uuid4) := all_map offEntries_uuid4 _
  unfold correlationIdOr
  split
  · split
    · exact draw
    · trivial
  · exact draw

theorem offEntries_availableBalance (account : Account) :
    OffEntries (LedgerService.availableBalance account) :=
  (consulting_offEntries.balance account).bind fun _ => (offEntries_select _).bind fun _ =>
    Program.all_ofExcept _

theorem offEntries_ensureFunds (sender : Account) (money : Money) :
    OffEntries (TransferService.ensureFunds sender money) :=
  (offEntries_availableBalance sender).bind fun _ => Program.all_ofExcept _

theorem offEntries_pendingTransaction (id : Id) :
    OffEntries (TransferService.pendingTransaction id) :=
  (offEntries_select _).bind fun _ => (all_ofOption _ _).bind fun _ =>
    (all_raiseIf _ _).bind fun _ => trivial

theorem offEntries_maybeSnapshot (account : Account) :
    OffEntries (LedgerService.maybeSnapshot cfg account) := by
  refine (offEntries_select _).bind fun snapshot => (offEntries_select _).bind fun entries => ?_
  split
  · trivial
  · exact (all_ofOption _ _).bind fun _ => offEntries_mutate _ rfl

theorem offEntries_publish (event : DomainEvent) :
    OffEntries (EventBus.publish (subscribers cfg) event) := by
  have hannouncing : Announcing fun r : Request => r.offEntries = true :=
    ⟨fun _ => rfl, fun _ _ _ _ _ _ => rfl, rfl⟩
  exact hannouncing.publish (fun _ => rfl) event

theorem offEntries_transferPublish (eventType : EventType) (txn : Transaction) (money : Money)
    (sender receiver : Account) :
    OffEntries (TransferService.publish cfg eventType txn money sender receiver) :=
  (offEntries_reloadTransaction _).bind fun _ => (offEntries_reloadAccount _).bind fun _ =>
    (offEntries_reloadAccount _).bind fun _ => (offEntries_publish _).bind fun _ => trivial

theorem offEntries_resolvePair (data : TransferBody) : OffEntries (resolvePair data) :=
  (offEntries_getByNumber _).bind fun _ => (offEntries_getByNumber _).bind fun _ => trivial

theorem offEntries_serializeExpired (txn : Transaction) : OffEntries (serializeExpired txn) :=
  (offEntries_reloadTransaction _).bind fun _ => trivial

theorem decorating_offEntries : Decorating fun r => r.offEntries = true where
  select _ := rfl
  mutate m hm := by
    cases m with
    | insertEntry accountId transactionId amount entryType status currency => cases hm
    | updateEntryStatus id status => cases hm
    | _ => rfl
  commit := rfl
  rollback := rfl

end offEntries

/-! ## Rules -/

section rules

variable {ι : Type} {i : ι} {s t : Shared ι} {I : Shared ι → Prop}

/-- An assertion that the others keep, and the session too while it leaves the entries alone: as
long as it holds, the session may commit. -/
structure Carried (i : ι) (I : Shared ι → Prop) : Prop where
  neutral : ∀ {s}, I s → s.Neutral i
  later : ∀ {s t}, (conserving ι).rely i s t → I s → I t
  wrote : ∀ {s t w}, I s → Write.offEntries w = true →
    (t.sessions i).writes = (s.sessions i).writes ++ [w] → t.store.db = s.store.db → I t
  ended : ∀ {s t}, I s → (t.sessions i).writes = [] →
    s.store.db.books.Keeps t.store.db.books → I t

theorem carried_neutral (i : ι) : Carried i fun s => s.Neutral i where
  neutral h := h
  later hrely h := h.later hrely.1 hrely.2
  wrote h hw hwrites hdb := h.wrote hw hwrites hdb
  ended _ hnil _ := (Shared.blank_of_nil hnil).neutral

/-- The session has written nothing to the entries since it has read the books `b`. -/
def Shared.Since (s : Shared ι) (i : ι) (b : Books) : Prop :=
  s.Blank i ∧ b.Keeps s.store.db.books

theorem carried_since (i : ι) (b : Books) : Carried i fun s => s.Since i b where
  neutral h := h.1.neutral
  later hrely h := by
    refine ⟨fun w hw => h.1 w ?_, h.2.trans hrely.2⟩
    rwa [← hrely.1]
  wrote h hw hwrites hdb := by
    refine ⟨fun v hv => ?_, by rw [hdb]; exact h.2⟩
    rw [hwrites] at hv
    rcases List.mem_append.1 hv with hv | hv
    · exact h.1 v hv
    · exact List.mem_singleton.1 hv ▸ hw
  ended h hnil hkeeps := ⟨Shared.blank_of_nil hnil, h.2.trans hkeeps⟩

theorem carried_blank (i : ι) : Carried i fun s => s.Blank i where
  neutral h := h.neutral
  later hrely h := fun w hw => h w (by rwa [← hrely.1])
  wrote h hw hwrites _ := by
    intro v hv
    rw [hwrites] at hv
    rcases List.mem_append.1 hv with hv | hv
    · exact h v hv
    · exact List.mem_singleton.1 hv ▸ hw
  ended _ hnil _ := Shared.blank_of_nil hnil

theorem carried_settlesNone (i : ι) : Carried i fun s => s.SettlesNone i where
  neutral h := h.neutral
  later hrely h := fun w hw => h w (by rwa [← hrely.1])
  wrote h hw hwrites _ := by
    intro v hv
    rw [hwrites] at hv
    rcases List.mem_append.1 hv with hv | hv
    · exact h v hv
    · exact Write.settlesNone_of_offEntries (List.mem_singleton.1 hv ▸ hw)
  ended _ hnil _ := (Shared.blank_of_nil hnil).settlesNone

variable [DecidableEq ι] {cfg : Config} {α β : Type} {R : α → Shared ι → Prop}

/-- The session keeps the discipline while it runs the program, and where it returns, `R` holds. -/
abbrev Conserves (cfg : Config) (i : ι) (p : App α) (R : α → Shared ι → Prop) (s : Shared ι) :
    Prop := wp (machine ι cfg) (conserving ι) Timely i p (onExit R fun _ _ => True) s

/-- A request that leaves the entries alone keeps the assertion. -/
theorem Carried.after (hI : Carried i I) {r : Request} (hr : r.offEntries = true) (hs : I s) :
    I (s.after cfg i r) := by
  cases Shared.turn_after cfg s i r with
  | kept _ hsession hdb _ =>
    refine hI.later ⟨hsession, ?_⟩ hs
    rw [hdb]
    exact .refl _
  | wrote m v w hm _ hexec hsession hdb _ =>
    subst hm
    exact hI.wrote hs (Mutation.offEntries_exec hr hexec) (by rw [hsession]) hdb
  | committed _ _ hsession _ _ =>
    exact hI.ended hs (by rw [hsession]; rfl) (Shared.keeps_after s i r)
  | dropped hwrites _ _ => exact hI.ended hs hwrites (Shared.keeps_after s i r)

/-- And what the others rely on. -/
theorem Carried.keeps (hI : Carried i I) {r : Request} (hinv : Conserved s) (hC : Timely i r s)
    (hs : I s) : (conserving ι).Keeps i s (s.after cfg i r) := by
  by_cases hr : r = .commit
  · subst hr
    exact hinv.keeps_commit (hI.neutral hs) hC
  · exact hinv.keeps_idle (Shared.after_db hr)

/-- A program that leaves the entries alone. -/
theorem conserves_offEntries (hI : Carried i I) {p : App α} (hp : OffEntries p) (hs : I s) :
    Conserves cfg i p (fun _ => I) s := by
  have hwp : wp (machine ι cfg) (conserving ι) Timely i p (fun _ => I) s := by
    refine wp_of_stable (fun s t hrely _ hs => hI.later hrely hs) ?_ hp hs
    intro r hr t v u hinv hC ht hx
    obtain ⟨-, -, rfl⟩ := Shared.exec_eq_some hx
    exact ⟨hI.keeps hinv hC ht, hI.after hr ht⟩
  refine wp_mono (fun o t _ ho => ?_) hwp
  cases o with
  | error e => trivial
  | ok a => exact ho

/-- One after the other. -/
theorem conserves_bind {p : App β} {f : β → App α} {S : β → Shared ι → Prop}
    (hp : Conserves cfg i p S s) (h : ∀ b t, S b t → Conserves cfg i (f b) R t) :
    Conserves cfg i (p >>= f) R s := by
  refine wp_bind (wp_mono (fun o t _ ho => ?_) hp)
  cases o with
  | error e => trivial
  | ok b => exact h b t ho

/-- A program that leaves the entries alone, and the rest. -/
theorem conserves_then (hI : Carried i I) {p : App β} {f : β → App α} (hp : OffEntries p) (hs : I s)
    (h : ∀ b t, I t → Conserves cfg i (f b) R t) : Conserves cfg i (p >>= f) R s :=
  conserves_bind (conserves_offEntries hI hp hs) h

theorem conserves_ofExcept {x : Except Exn β} {f : β → App α}
    (h : ∀ b, x = .ok b → Conserves cfg i (f b) R s) :
    Conserves cfg i (Program.ofExcept x >>= f) R s := by
  cases x with
  | error e => exact fun _ _ _ => trivial
  | ok b => exact h b rfl

theorem conserves_ofOption {e : Exn} {o : Option β} {f : β → App α}
    (h : ∀ b, o = some b → Conserves cfg i (f b) R s) :
    Conserves cfg i (ofOption e o >>= f) R s := by
  cases o with
  | none => exact fun _ _ _ => trivial
  | some b => exact h b rfl

/-- A request, and what follows where it is answered. -/
theorem conserves_ask {r : Request} {f : r.Result → App α}
    (h : ∀ t, (conserving ι).rely i s t → Conserved t → Timely i r t →
      (conserving ι).Keeps i t (t.after cfg i r) ∧
        ∀ v, (Conn.exec cfg r (t.conn i)).1 = .ok v →
          Conserves cfg i (f v) R (t.after cfg i r)) :
    Conserves cfg i (ask r >>= f) R s := by
  intro t hrely hinv hC v u hx
  obtain ⟨-, rfl, rfl⟩ := Shared.exec_eq_some hx
  obtain ⟨hkeeps, hgo⟩ := h t hrely hinv hC
  refine ⟨hkeeps, ?_⟩
  cases hv : (Conn.exec cfg r (t.conn i)).1 with
  | error e => exact fun _ _ _ => trivial
  | ok v => exact hgo v hv

/-- A query: what the session reads, it sees. -/
theorem conserves_select (hI : Carried i I) {q : Query} {f : q.Result → App α} (hs : I s)
    (h : ∀ t, I t → Conserved t → Conserves cfg i (f (q.eval (t.conn i).view)) R t) :
    Conserves cfg i (ask (.select q) >>= f) R s := by
  refine conserves_ask fun t hrely hinv hC => ?_
  have ht : I t := hI.later hrely hs
  have hkeeps : (conserving ι).Keeps i t (t.after cfg i (.select q)) := hI.keeps hinv hC ht
  refine ⟨hkeeps, fun v hv => ?_⟩
  obtain ⟨-, rfl, hconn⟩ := Conn.exec_select_ok cfg _ hv
  have hsame : (t.after cfg i (.select q)).conn i = t.conn i := by rw [Shared.after_conn, hconn]
  have hread := h (t.after cfg i (.select q)) (hI.after (r := .select q) rfl ht) hkeeps.1
  rwa [hsame] at hread

/-- A statement. -/
theorem conserves_mutate {m : Mutation} {f : m.Result → App α}
    (h : ∀ t u v w, (conserving ι).rely i s t → m.exec cfg t.store.seqs (t.conn i).view =
      .ok (v, w) → (u.sessions i).writes = (t.sessions i).writes ++ [w] →
      u.store.db = t.store.db → Conserves cfg i (f v) R u) :
    Conserves cfg i (ask (.mutate m) >>= f) R s := by
  refine conserves_ask fun t hrely hinv hC => ⟨hinv.keeps_idle (Shared.after_db (by simp)), ?_⟩
  intro v hv
  obtain ⟨-, w, hexec, hconn⟩ := Conn.exec_mutate_ok cfg _ hv
  refine h t _ v w hrely hexec ?_ (Shared.after_db (by simp))
  rw [Shared.after_self, hconn]
  rfl

/-! ## Entries -/

omit [DecidableEq ι]

/-- What a line adds to the settled entries of a transaction, once it is posted. -/
def PostingLine.settles (transactionId : Id) (line : PostingLine) (id : Id) (c : String) :
    Decimal :=
  if transactionId = id ∧ line.currency = c ∧ line.status = .success then line.amount else 0

/-- Settled lines that sum to zero add nothing. -/
theorem sum_settles {lines : List PostingLine} (hstatus : ∀ line ∈ lines, line.status = .success)
    (hzero : ZeroSum lines) (transactionId : Id) :
    (lines.map (PostingLine.settles transactionId)).sum = 0 := by
  have hsum : ∀ id c, (lines.map (PostingLine.settles transactionId)).sum id c =
      if transactionId = id then tally (fun line => line.currency = c) PostingLine.amount lines
      else 0 := by
    clear hzero
    intro id c
    induction lines with
    | nil => simp
    | cons line lines ih =>
      have hline := hstatus line (by simp)
      rw [List.map_cons, List.sum_cons, Pi.add_apply, Pi.add_apply,
        ih fun l hl => hstatus l (by simp [hl]), tally_cons]
      by_cases hid : transactionId = id <;> simp [PostingLine.settles, hid, hline]
  funext id c
  rw [hsum, hzero c, ite_self]
  rfl

variable [DecidableEq ι] {x : Id → String → Decimal}

/-- An entry of an amount of money. -/
theorem conserves_insertEntry {line : PostingLine} {transactionId : Id} {f : Unit → App α}
    (hs : s.Adds i x) (hline : line.OfMoney)
    (h : ∀ t, t.Adds i (x + line.settles transactionId) → Conserves cfg i (f ()) R t) :
    Conserves cfg i
      (ask (.mutate (.insertEntry line.accountId transactionId line.amount line.entryType
        line.status line.currency)) >>= f) R s := by
  refine conserves_mutate fun t u v w hrely hexec hwrites hdb => ?_
  obtain ⟨stored, hstore, -, -, rfl⟩ := Mutation.exec_insertEntry hexec
  have hgrid : line.amount ∈ Decimal.grid 8 :=
    Decimal.grid_le (decimalsFor_le _) hline.mem_grid
  obtain rfl : stored = line.amount := Decimal.eq_of_storeNumeric le_rfl hgrid hstore
  let e : LedgerEntry := ⟨t.store.seqs.nextId, t.store.seqs.nextSeq, line.accountId, transactionId,
    line.amount, line.entryType, line.status, line.currency⟩
  have he : e.Ruled := PostingLine.OfMoney.ruled (e := e) hline hstore
  exact h u ((hs.later hrely.1 hrely.2).drafted he hwrites hdb)

theorem conserves_lines {lines : List PostingLine} {transactionId : Id} {f : Unit → App α}
    (hs : s.Adds i x) (hlines : ∀ line ∈ lines, line.OfMoney)
    (h : ∀ t, t.Adds i (x + (lines.map (PostingLine.settles transactionId)).sum) →
      Conserves cfg i (f ()) R t) :
    Conserves cfg i
      ((Program.forEach lines fun line =>
        ask (.mutate (.insertEntry line.accountId transactionId line.amount line.entryType
          line.status line.currency))) >>= f) R s := by
  induction lines generalizing s x with
  | nil =>
    rw [List.map_nil, List.sum_nil, add_zero] at h
    exact h s hs
  | cons line lines ih =>
    rw [Program.forEach, Program.bind_assoc]
    refine conserves_insertEntry hs (hlines line (by simp)) fun t ht => ?_
    refine ih ht (fun l hl => hlines l (by simp [hl])) ?_
    rwa [List.map_cons, List.sum_cons, ← add_assoc] at h

/-- Settled lines that sum to zero, posted. -/
theorem conserves_post {transaction : TransactionAggregate} {transactionId : Id}
    {f : Unit → App α} (hs : s.Neutral i) (hlines : ∀ line ∈ transaction.lines, line.OfMoney)
    (hstatus : ∀ line ∈ transaction.lines, line.status = .success)
    (hzero : ZeroSum transaction.lines)
    (h : ∀ t, t.Neutral i → Conserves cfg i (f ()) R t) :
    Conserves cfg i (LedgerService.post transaction transactionId >>= f) R s := by
  rw [LedgerService.post, Program.bind_assoc]
  refine conserves_ofExcept fun _ _ => conserves_lines hs hlines fun t ht => ?_
  rw [sum_settles hstatus hzero, add_zero] at ht
  exact h t ht

/-- A debit and a credit of one amount. -/
theorem conserves_postPair {transaction : TransactionAggregate} {transactionId a a' : Id}
    {m : Money} {f : Unit → App α} (hs : s.Neutral i)
    (hlines : transaction.lines = [debitLine a m, creditLine a' m])
    (h : ∀ t, t.Neutral i → Conserves cfg i (f ()) R t) :
    Conserves cfg i (LedgerService.post transaction transactionId >>= f) R s := by
  refine conserves_post hs ?_ ?_ ?_ h
  · rw [hlines]
    simp only [List.mem_cons, List.not_mem_nil, or_false]
    rintro line (rfl | rfl)
    · exact ofMoney_debit _ m
    · exact ofMoney_credit _ m
  · rw [hlines]
    simp
  · rw [hlines]
    exact zeroSum_pair _ _ _

/-- A debit that has been read is settled. -/
theorem conserves_settle {b : Books} {e : LedgerEntry} {f : Unit → App α} (hs : s.Since i b)
    (he : e ∈ b.entries)
    (h : ∀ t, t.Adds i (LedgerEntry.settles { e with status := .success }) →
      Conserves cfg i (f ()) R t) :
    Conserves cfg i (ask (.mutate (.updateEntryStatus e.id .success)) >>= f) R s := by
  refine conserves_mutate fun t u v w hrely hexec hwrites hdb => ?_
  obtain rfl := Mutation.exec_updateEntryStatus hexec
  obtain ⟨hblank, hb⟩ := (carried_since i b).later hrely hs
  exact h u (hblank.settled hb he hwrites hdb)

/-- A rollback drops whatever has been written. -/
theorem conserves_rollback {f : Unit → App α}
    (h : ∀ t, t.Blank i → Conserves cfg i (f ()) R t) :
    Conserves cfg i (ask .rollback >>= f) R s := by
  refine conserves_ask fun t _ hinv _ => ⟨hinv.keeps_idle (Shared.after_db (by simp)), ?_⟩
  intro v _
  refine h _ (Shared.blank_of_nil ?_)
  rw [Shared.after_self]
  rfl

/-- Entries are marked as failed, one after the other. -/
theorem conserves_release (es : List LedgerEntry) {f : Unit → App α} (hs : s.SettlesNone i)
    (h : ∀ t, t.SettlesNone i → Conserves cfg i (f ()) R t) :
    Conserves cfg i ((Program.forEach es fun e => ask (.mutate (.updateEntryStatus e.id .failed)))
      >>= f) R s := by
  induction es generalizing s with
  | nil => exact h s hs
  | cons e es ih =>
    rw [Program.forEach, Program.bind_assoc]
    refine conserves_mutate fun t u v w hrely hexec hwrites hdb => ih fun x hx => ?_
    obtain rfl := Mutation.exec_updateEntryStatus hexec
    rw [hwrites] at hx
    rcases List.mem_append.1 hx with hx | hx
    · exact (carried_settlesNone i).later hrely hs x hx
    · exact List.mem_singleton.1 hx ▸ rfl

end rules

/-! ## Services -/

section services

variable {ι : Type} [DecidableEq ι] {cfg : Config} {i : ι} {s : Shared ι}

/-- A session that returns has written nothing that adds up to anything. -/
abbrev Settles (cfg : Config) (i : ι) {α : Type} (p : App α) (s : Shared ι) : Prop :=
  Conserves cfg i p (fun _ t => t.Neutral i) s

theorem settles_offEntries {α : Type} {p : App α} (hp : OffEntries p) (hs : s.Neutral i) :
    Settles cfg i p s := conserves_offEntries (carried_neutral i) hp hs

theorem settles_execute (senderId receiverId : Id) (amount : Decimal)
    (correlationId : Option String) (hs : s.Neutral i) :
    Settles cfg i (TransferService.execute cfg senderId receiverId amount correlationId) s := by
  have hI := carried_neutral i
  refine conserves_then hI (offEntries_lock _) hs fun sender t ht => ?_
  refine conserves_then hI (offEntries_get _) ht fun receiver t ht => ?_
  refine conserves_then hI (Bookkeeping.validate _ _ _) ht fun money t ht => ?_
  refine conserves_then hI (offEntries_ensureFunds _ _) ht fun _ t ht => ?_
  refine conserves_then hI (offEntries_correlationIdOr _) ht fun correlationId t ht => ?_
  refine conserves_then hI (offEntries_mutate _ rfl) ht fun txn t ht => ?_
  refine conserves_postPair ht rfl fun t ht => settles_offEntries ?_ ht
  refine (offEntries_maybeSnapshot _).bind fun _ => (offEntries_maybeSnapshot _).bind fun _ => ?_
  exact offEntries_commit.bind fun _ => offEntries_transferPublish _ _ _ _ _

theorem settles_settleFound (missing : Exn) (check : Transaction → Money → Except Exn Unit)
    (found : Option Transaction) (hs : s.Neutral i) :
    Settles cfg i (DepositService.settleFound cfg missing check found) s := by
  have hI := carried_neutral i
  refine conserves_then hI (all_ofOption _ _) hs fun txn t ht => ?_
  refine conserves_then hI (all_raiseIf _ _) ht fun _ t ht => ?_
  refine conserves_then hI (Program.all_ofExcept _) ht fun authorized t ht => ?_
  refine conserves_then hI (Program.all_ofExcept _) ht fun _ t ht => ?_
  refine conserves_then hI (Program.all_ofExcept _) ht fun accountId t ht => ?_
  refine conserves_then hI (offEntries_lock _) ht fun account t ht => ?_
  refine conserves_then hI (offEntries_getOrCreateInternal _ _) ht fun clearing t ht => ?_
  refine conserves_postPair ht rfl fun t ht => settles_offEntries ?_ ht
  refine (offEntries_mutate _ rfl).bind fun _ => (offEntries_maybeSnapshot _).bind fun _ => ?_
  refine (offEntries_maybeSnapshot _).bind fun _ => offEntries_commit.bind fun _ => ?_
  refine (offEntries_reloadTransaction _).bind fun _ => ?_
  exact (offEntries_reloadAccount _).bind fun _ => (offEntries_publish _).bind fun _ => trivial

theorem settles_executeFxTransfer (rates : RateTable) (senderId receiverId : Id) (amount : Decimal)
    (correlationId : Option String) (hs : s.Neutral i) :
    Settles cfg i
      (FxService.executeFxTransfer cfg rates senderId receiverId amount correlationId) s := by
  have hI := carried_neutral i
  refine conserves_then hI (offEntries_lock _) hs fun sender t ht => ?_
  refine conserves_then hI (offEntries_get _) ht fun receiver t ht => ?_
  refine conserves_then hI (all_raiseIf _ _) ht fun _ t ht => ?_
  refine conserves_then hI (Program.all_ofExcept _) ht fun sent t ht => ?_
  refine conserves_then hI (all_raiseIf _ _) ht fun _ t ht => ?_
  refine conserves_then hI (offEntries_availableBalance _) ht fun available t ht => ?_
  refine conserves_then hI (Program.all_ofExcept _) ht fun _ t ht => ?_
  refine conserves_then hI (Program.all_ofExcept _) ht fun received t ht => ?_
  refine conserves_then hI (offEntries_getOrCreateInternal _ _) ht fun poolFrom t ht => ?_
  refine conserves_then hI (offEntries_getOrCreateInternal _ _) ht fun poolTo t ht => ?_
  refine conserves_then hI (offEntries_correlationIdOr _) ht fun correlationId t ht => ?_
  refine conserves_then hI (offEntries_mutate _ rfl) ht fun txn t ht => ?_
  have hlines : ∀ line ∈ [debitLine sender.id sent, creditLine poolFrom.id sent,
      debitLine poolTo.id received, creditLine receiver.id received],
      line.OfMoney ∧ line.status = .success := by
    simp only [List.mem_cons, List.not_mem_nil, or_false]
    rintro line (rfl | rfl | rfl | rfl)
    · exact ⟨ofMoney_debit _ sent, rfl⟩
    · exact ⟨ofMoney_credit _ sent, rfl⟩
    · exact ⟨ofMoney_debit _ received, rfl⟩
    · exact ⟨ofMoney_credit _ received, rfl⟩
  refine conserves_post ht (fun line hl => (hlines line hl).1) (fun line hl => (hlines line hl).2)
    ((zeroSum_pair _ _ _).append (zeroSum_pair _ _ _)) fun t ht => settles_offEntries ?_ ht
  refine Program.All.bind (Program.All.forEach fun _ _ => offEntries_maybeSnapshot _) fun _ => ?_
  refine offEntries_commit.bind fun _ => (offEntries_reloadTransaction _).bind fun _ => ?_
  refine (offEntries_reloadAccount _).bind fun _ => (offEntries_reloadAccount _).bind fun _ => ?_
  exact (offEntries_publish _).bind fun _ => trivial

/-- A lone pending debit adds nothing. -/
theorem settles_initiate (senderId receiverId : Id) (amount : Decimal)
    (correlationId : Option String) (hs : s.Neutral i) :
    Settles cfg i (TransferService.initiate cfg senderId receiverId amount correlationId) s := by
  have hI := carried_neutral i
  refine conserves_then hI (offEntries_lock _) hs fun sender t ht => ?_
  refine conserves_then hI (offEntries_get _) ht fun receiver t ht => ?_
  refine conserves_then hI (Bookkeeping.validate _ _ _) ht fun money t ht => ?_
  refine conserves_then hI (offEntries_ensureFunds _ _) ht fun _ t ht => ?_
  refine conserves_then hI (offEntries_correlationIdOr _) ht fun correlationId t ht => ?_
  refine conserves_then hI (offEntries_mutate _ rfl) ht fun txn t ht => ?_
  let line : PostingLine := ⟨sender.id, -|money.amount|, .debit, money.currency, .pending⟩
  have hpending : line.settles txn.id = 0 := by
    funext id c
    exact if_neg fun h => nomatch h.2.2
  have hline : line.OfMoney := ⟨money, rfl, .inl ⟨rfl, rfl⟩⟩
  refine conserves_insertEntry ht hline fun t ht => ?_
  rw [hpending, add_zero] at ht
  exact settles_offEntries (offEntries_commit.bind fun _ => offEntries_transferPublish _ _ _ _ _) ht

theorem settles_initiateDeposit (accountId : Id) (amount : Decimal) (provider : String)
    (context : DepositContext) (correlationId : Option String) (hs : s.Neutral i) :
    Settles cfg i
      (DepositService.initiate cfg accountId amount provider context correlationId) s := by
  refine settles_offEntries ?_ hs
  refine (offEntries_get _).bind fun account => (Program.all_ofExcept _).bind fun money => ?_
  refine (all_raiseIf _ _).bind fun _ => (offEntries_correlationIdOr _).bind fun _ => ?_
  refine (offEntries_mutate _ rfl).bind fun txn => (Program.all_ofExcept _).bind fun _ => ?_
  refine (Program.all_ofExcept _).bind fun _ => (offEntries_mutate _ rfl).bind fun _ => ?_
  exact offEntries_commit.bind fun _ => trivial

/-- A reserved debit is settled, and the credit of its amount is written. -/
theorem settles_commit (transactionId : Id) (hs : s.Blank i) :
    Settles cfg i (TransferService.commit cfg transactionId) s := by
  refine conserves_then (carried_blank i) (offEntries_pendingTransaction _) hs fun txn t ht => ?_
  refine conserves_ofExcept fun money _ => ?_
  refine conserves_then (carried_blank i) (all_raiseIf _ _) ht fun _ t ht => ?_
  refine conserves_select (carried_blank i) ht fun t ht hinv => ?_
  refine conserves_ofOption fun debit hfound => ?_
  -- the debit is committed, and the session has written nothing since
  have hmem : debit ∈ t.store.db.books.entries := ht.view ▸ List.mem_of_find?_eq_some hfound
  have hdebit := List.find?_some hfound
  simp only [LedgerEntry.isOf, decide_eq_true_eq] at hdebit
  have hsince : t.Since i t.store.db.books := ⟨ht, .refl _⟩
  have hI := carried_since i t.store.db.books
  refine conserves_then hI (offEntries_lock _) hsince fun sender u hu => ?_
  refine conserves_ofExcept fun receiverId _ => ?_
  refine conserves_then hI (offEntries_get _) hu fun receiver u hu => ?_
  refine conserves_settle hu hmem fun u hu => ?_
  refine conserves_insertEntry hu (ofMoney_credit receiver.id money) fun u hu => ?_
  refine conserves_ofExcept fun _ hbalanced => ?_
  have hzero : LedgerEntry.settles { debit with status := .success } +
      (creditLine receiver.id money).settles txn.id = 0 := by
    have hsum := TransactionAggregate.tally_of_assertBalanced (LedgerService.rebuild_lines _)
      (hinv.ruled debit hmem).written hbalanced
    rw [LedgerService.rebuild_lines] at hsum
    funext id c
    have hsum := hsum c
    simp only [tally_cons, tally_nil, add_zero] at hsum
    rw [Pi.add_apply, Pi.add_apply]
    by_cases hid : txn.id = id
    · simpa [LedgerEntry.settles, PostingLine.settles, hdebit, hid] using hsum
    · simp [LedgerEntry.settles, PostingLine.settles, hdebit, hid]
  rw [hzero] at hu
  refine settles_offEntries ?_ hu
  refine (offEntries_mutate _ rfl).bind fun _ => (offEntries_maybeSnapshot _).bind fun _ => ?_
  refine (offEntries_maybeSnapshot _).bind fun _ => offEntries_commit.bind fun _ => ?_
  exact offEntries_transferPublish _ _ _ _ _

/-- Pending entries are marked as failed. -/
theorem settles_fail (transactionId : Id) (hs : s.Blank i) :
    Settles cfg i (TransferService.fail cfg transactionId) s := by
  have hI := carried_settlesNone i
  refine conserves_then hI (offEntries_pendingTransaction _) hs.settlesNone fun txn t ht => ?_
  refine conserves_then hI (offEntries_select _) ht fun entries t ht => ?_
  refine conserves_release entries ht fun t ht => settles_offEntries ?_ ht.neutral
  refine (offEntries_mutate _ rfl).bind fun _ => offEntries_commit.bind fun _ => ?_
  exact (offEntries_reloadTransaction _).bind fun _ => (offEntries_publish _).bind fun _ => trivial

/-- The mirror of entries that sum to zero is posted. -/
theorem settles_reverse (transactionId : Id) (correlationId : Option String) (hs : s.Blank i) :
    Settles cfg i (ReversalService.reverse cfg transactionId correlationId) s := by
  refine conserves_then (carried_blank i) (offEntries_select _) hs fun found t ht => ?_
  refine conserves_then (carried_blank i) (all_ofOption _ _) ht fun txn t ht => ?_
  refine conserves_then (carried_blank i) (all_raiseIf _ _) ht fun _ t ht => ?_
  refine conserves_then (carried_blank i) (all_raiseIf _ _) ht fun _ t ht => ?_
  refine conserves_select (carried_blank i) ht fun t ht hinv => ?_
  -- the original entries, as they are committed
  have hentries : (Query.entriesOf txn.id .success).eval (t.conn i).view =
      t.store.db.books.entries.filter (LedgerEntry.isOf txn.id .success) :=
    congrArg (List.filter _) ht.view
  rw [hentries]
  generalize horiginal : t.store.db.books.entries.filter (LedgerEntry.isOf txn.id .success) = es
  have hruled : ∀ e ∈ es, e.Ruled := fun e he =>
    hinv.ruled e (List.mem_of_mem_filter (horiginal ▸ he))
  have hsum : ∀ c : String, tally (fun e => e.currency = c) LedgerEntry.amount es = 0 := by
    intro c
    rw [← horiginal, tally_filter, ← hinv.balanced txn.id c]
    refine tally_congr (fun e _ => ?_) fun _ _ _ => rfl
    simp only [LedgerEntry.isOf, decide_eq_true_eq, and_comm, and_left_comm]
  have hI := carried_neutral i
  refine conserves_then hI (Program.All.forEach fun _ _ =>
    (offEntries_lock _).bind fun _ => trivial) ht.neutral fun _ t ht => ?_
  refine conserves_then hI (offEntries_correlationIdOr _) ht fun correlationId t ht => ?_
  refine conserves_then hI (offEntries_mutate _ rfl) ht fun reversal t ht => ?_
  refine conserves_ofExcept fun mirrored hmirror => ?_
  obtain ⟨-, hlines⟩ := mirror_ok hmirror
  refine conserves_post ht (fun line hl => ?_) (fun line hl => ?_) (fun c => ?_) fun t ht => ?_
  · obtain ⟨e, he, hm⟩ := exists_of_mirrored hlines hl
    exact (hm.of_ruled (hruled e he)).1
  · obtain ⟨e, -, hm⟩ := exists_of_mirrored hlines hl
    exact hm.status
  · rw [sum_mirrored hlines hruled, hsum c, neg_zero]
  · refine settles_offEntries ((offEntries_mutate _ rfl).bind fun _ => ?_) ht
    refine Program.All.bind (Program.All.forEach fun _ _ =>
      (offEntries_get _).bind fun _ => offEntries_maybeSnapshot _) fun _ => ?_
    exact offEntries_commit.bind fun _ => trivial

/-! ## Requests and webhooks -/

theorem settles_view (web : Web) (r : HttpRequest) (hs : s.Blank i) :
    Settles cfg i (r.view cfg web) s := by
  have hI := carried_neutral i
  have serialized : ∀ (txn : Transaction) (status : ℕ) {t : Shared ι}, t.Neutral i →
      Settles cfg i (serializeExpired txn >>= fun body => .ret (Response.mk status body)) t :=
    fun txn status t ht =>
      settles_offEntries ((offEntries_serializeExpired txn).bind fun _ => trivial) ht
  have returned : ∀ (response : Response) {t : Shared ι}, t.Neutral i →
      Settles cfg i (.ret response) t := fun response t ht =>
    settles_offEntries (p := .ret response) trivial ht
  unfold HttpRequest.view
  cases r.endpoint with
  | executeTransfer =>
    refine conserves_then hI (all_ofOption _ _) hs.neutral fun data t ht => ?_
    refine conserves_then hI (offEntries_resolvePair _) ht fun pair t ht => ?_
    exact conserves_bind (settles_execute _ _ _ _ ht) fun txn t ht => serialized txn 201 ht
  | initiateTransfer =>
    refine conserves_then hI (all_ofOption _ _) hs.neutral fun data t ht => ?_
    refine conserves_then hI (offEntries_resolvePair _) ht fun pair t ht => ?_
    exact conserves_bind (settles_initiate _ _ _ _ ht) fun txn t ht => returned _ ht
  | commitTransfer transactionId =>
    exact conserves_bind (settles_commit _ hs) fun txn t ht => serialized txn 200 ht
  | failTransfer transactionId =>
    exact conserves_bind (settles_fail _ hs) fun txn t ht => returned _ ht
  | reverseTransaction transactionId =>
    exact conserves_bind (settles_reverse _ _ hs) fun txn t ht => serialized txn 201 ht
  | createDeposit =>
    refine conserves_then hI (all_ofOption _ _) hs.neutral fun data t ht => ?_
    refine conserves_then hI (offEntries_getByNumber _) ht fun account t ht => ?_
    exact conserves_bind (settles_initiateDeposit _ _ _ _ _ ht) fun txn t ht =>
      serialized txn 201 ht
  | fxTransfer =>
    refine conserves_then hI (all_ofOption _ _) hs.neutral fun data t ht => ?_
    refine conserves_then hI (offEntries_getByNumber _) ht fun sender t ht => ?_
    refine conserves_then hI (offEntries_getByNumber _) ht fun receiver t ht => ?_
    exact conserves_bind (settles_executeFxTransfer _ _ _ _ _ ht) fun txn t ht =>
      serialized txn 201 ht

/-- The decorator: what a view that raises has written is rolled back. -/
theorem settles_handle (web : Web) (r : HttpRequest) (hs : s.Blank i) :
    Settles cfg i (r.handle cfg web) s := by
  unfold HttpRequest.handle idempotent
  cases r.key with
  | none => exact settles_view web r hs
  | some key =>
    dsimp only
    split
    · exact settles_view web r hs
    have hclaim : OffEntries (claimKey key (r.requestHash web)) :=
      decorating_offEntries.claimKey key _
    refine conserves_then (carried_blank i) hclaim hs fun replayed t ht => ?_
    cases replayed with
    | some response => exact settles_offEntries (p := .ret response) trivial ht.neutral
    | none =>
      refine conserves_bind (S := fun _ t => t.Neutral i) ?_ fun response t ht => ?_
      · refine wp_attempt (wp_mono (fun o t _ ho => ?_) (settles_view web r ht))
        cases o with
        | ok response => exact ho
        | error e =>
          show Settles cfg i (releaseKey key >>= fun _ => .raise e) t
          rw [releaseKey_eq, Program.bind_assoc]
          refine conserves_rollback fun u hu => settles_offEntries ?_ hu.neutral
          refine Program.All.bind ?_ fun _ => trivial
          exact (offEntries_select _).bind fun _ => deleteClaim_requests (fun _ _ => rfl) rfl
      · have hstore : OffEntries (storeResponse key response) :=
          decorating_offEntries.storeResponse key response
        exact settles_offEntries (hstore.bind fun _ => trivial) ht

theorem settles_process (pay : Payments) (r : WebhookRequest) (hs : s.Neutral i) :
    Settles cfg i (r.process cfg pay) s := by
  have hI := carried_neutral i
  refine conserves_then hI (Program.all_ofExcept _) hs fun result t ht => ?_
  split
  · exact settles_offEntries (p := .ret WebhookResponse.ignored) trivial ht
  · refine conserves_bind (S := fun _ t => t.Neutral i) ?_ fun txn t ht => ?_
    · refine conserves_then hI (Program.all_ofExcept _) ht fun reference t ht => ?_
      refine conserves_then hI (offEntries_select _) ht fun found t ht => ?_
      exact settles_settleFound _ _ _ ht
    · exact settles_offEntries ((offEntries_reloadTransaction _).bind fun _ => trivial) ht

end services

/-! ## The result -/

/-- What is asked over HTTP, the commands of the operator apart. -/
def Entry.OverHttp : Entry → Prop
  | fund _ _ => False
  | seed => False
  | _ => True

section result

variable {ι : Type} [DecidableEq ι] {cfg : Config} {web : Web} {pay : Payments}

theorem settles_entry {e : Entry} (he : e.OverHttp) {i : ι} {s : Shared ι} (hs : s.Blank i) :
    Settles cfg i (e.program cfg web pay) s := by
  have returned : ∀ (response : Option Response) {t : Shared ι}, t.Neutral i →
      Settles cfg i (.ret response) t := fun response t ht =>
    settles_offEntries (p := .ret response) trivial ht
  cases e with
  | post r => exact conserves_bind (settles_handle web r hs) fun a t ht => returned _ ht
  | webhook r =>
    exact conserves_bind (settles_process pay r hs.neutral) fun a t ht => returned _ ht
  | createAccount json =>
    refine settles_offEntries (all_map ?_ _) hs.neutral
    refine (all_ofOption _ _).bind fun data => (offEntries_create _ _).bind fun account => ?_
    exact (offEntries_reloadAccount _).bind fun _ => trivial
  | getAccount number =>
    refine settles_offEntries (all_map ?_ _) hs.neutral
    exact (offEntries_getByNumber _).bind fun _ => trivial
  | accountBalance number =>
    exact settles_offEntries (all_map (consulting_offEntries.accountBalance number) _) hs.neutral
  | fund number amount => exact he.elim
  | seed => exact he.elim

/-- Any requests and webhooks at the same time keep the books balanced. -/
theorem conserved_of_reaches {st : Store} (hs : st.Sound) {es : ι → Entry}
    (hes : ∀ i, (es i).OverHttp)
    {w : World ι Request Request.Answer Exn (Option Response) (Shared ι)}
    (h : Reaches (machine ι cfg) Timely
      (World.start (Shared.start st) fun i => (es i).program cfg web pay) w) :
    Conserved w.shared := by
  refine (Reaches.sound (D := conserving ι)
    (Q := fun i => onExit (fun _ t => t.Neutral i) fun _ _ => True) (R := fun _ _ _ => True)
    (fun i o s hinv _ => ⟨hinv.keeps_finish, trivial⟩) (fun _ _ _ _ _ _ _ => trivial)
    ?_ (fun i => ?_) h).1
  · exact conserved_start hs
  · exact settles_entry (hes i) (Shared.blank_of_nil rfl)

/-- Balanced books balance as a whole. -/
theorem Books.Balanced.total {b : Books} (h : b.Balanced) (c : String) :
    tally (fun e => e.currency = c ∧ e.status = .success) LedgerEntry.amount b.entries = 0 := by
  have hnodup : ((b.entries.map LedgerEntry.transactionId).dedup.map id).Nodup := by
    rw [List.map_id]
    exact List.nodup_dedup _
  have hfibers := tally_eq_sum_fiber (p := fun e => e.currency = c ∧ e.status = .success) hnodup
    (fun e he _ => ⟨e.transactionId, List.mem_dedup.2 (List.mem_map_of_mem he), rfl⟩)
    LedgerEntry.amount
  rw [hfibers]
  refine List.sum_eq_zero fun x hx => ?_
  obtain ⟨transactionId, -, rfl⟩ := List.mem_map.1 hx
  rw [← h transactionId c]
  exact tally_congr (fun e _ => ⟨fun hp => ⟨hp.2, hp.1⟩, fun hp => ⟨hp.2, hp.1⟩⟩) fun _ _ _ => rfl

/-- **Conservation of money, whatever is asked at the same time.**  After any commands, requests
and webhooks, wherever they have been killed, any number of requests and webhooks take turns: in
every moment, the settled entries of every transaction sum to zero in every currency, and so do all
of them, as long as a session commits the status of an entry only while the entry still waits. -/
theorem conserved_together {st : Store} (hrun : Run (crash cfg web pay) Entry.Exact Store.empty st)
    {es : ι → Entry} (hes : ∀ i, (es i).OverHttp)
    {w : World ι Request Request.Answer Exn (Option Response) (Shared ι)}
    (h : Reaches (machine ι cfg) Timely
      (World.start (Shared.start st) fun i => (es i).program cfg web pay) w) :
    (∀ (id : Id) (c : String),
      tally (fun e => e.transactionId = id ∧ e.currency = c ∧ e.status = .success)
        LedgerEntry.amount w.books.entries = 0) ∧
      ∀ c : String, tally (fun e => e.currency = c ∧ e.status = .success) LedgerEntry.amount
        w.books.entries = 0 := by
  have hbalanced := (conserved_of_reaches (sound_of_crashes hrun) hes h).balanced
  exact ⟨hbalanced, hbalanced.total⟩

end result

/-! ## Two requests -/

/-- Alice has reserved 20 for Bob. -/
def initiatedStore : Store :=
  (killedCommands ++ [(Entry.post { keyedRequest with endpoint := .initiateTransfer }, 30)]).foldl
    (fun s x => crash (offlineConfig 100) transferBodies signedPayments x s) Store.empty

/-- The reservation is committed, and she sends him another 20. -/
def bothTransfers (i : Fin 2) : Entry :=
  if i.val = 0 then .post (heldCommit 9) else .post { keyedRequest with key := some "other" }

/-- The second request has read the accounts before the first one commits, and the first one
answers before the second one commits. -/
theorem conserved_pair :
    ∃ w, Reaches (machine (Fin 2) (offlineConfig 100)) Timely
        (World.start (Shared.start initiatedStore) fun i =>
          (bothTransfers i).program (offlineConfig 100) transferBodies signedPayments) w ∧
      w.Quiescent ∧ w.books.settled 1 = 40 ∧
      ∀ c : String, tally (fun e => e.currency = c ∧ e.status = .success) LedgerEntry.amount
        w.books.entries = 0 := by
  have hrun : Run (crash (offlineConfig 100) transferBodies signedPayments) Entry.Exact Store.empty
      initiatedStore := Run.of_along (by decide +kernel)
  have hhttp : ∀ i, (bothTransfers i).OverHttp := by
    intro i
    unfold bothTransfers
    split <;> trivial
  obtain ⟨w, hw, hq, hsettled⟩ : ∃ w, Reaches (machine (Fin 2) (offlineConfig 100)) Timely
      (World.start (Shared.start initiatedStore) fun i =>
        (bothTransfers i).program (offlineConfig 100) transferBodies signedPayments) w ∧
      w.Quiescent ∧ w.books.settled 1 = 40 :=
    exists_reaches (List.replicate 4 1 ++ List.replicate 12 0 ++ List.replicate 9 1 ++
      List.replicate 9 0 ++ List.replicate 16 1) (by decide +kernel)
  exact ⟨w, hw, hq, hsettled, (conserved_together hrun hhttp hw).2⟩

end WalletLedger
