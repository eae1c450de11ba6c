import WalletLedger.Sequential.Audit

/-!
# Reversals

A reversal leaves the transaction and its entries as they are, and records one more
transaction that takes everything back.

* `Books.reversalsOf`, `Books.moved`, `Books.movedIn` — the reversals of a transaction, and
  what it has moved on an account.
* `Books.ReversalsExact` — a transaction is reversed exactly when one reversal references
  it, and the two cancel; `Progress.reversalsExact` keeps it.
* `reversals_exact` — it holds after every run.
-/

namespace WalletLedger

variable {cfg : Config} {b b' : Books} {s s' : Sequences}

namespace Books

/-- The reversals of a transaction. -/
def reversalsOf (b : Books) (id : Id) : List Transaction :=
  b.transactions.filter fun t => t.type = .reversal ∧ t.details = .reversal id

/-- What the settled entries of a transaction have moved on an account. -/
def moved (b : Books) (id accountId : Id) : Decimal :=
  tally (fun e => e.accountId = accountId) LedgerEntry.amount
    (b.entries.filter (LedgerEntry.isOf id .success))

/-- What they have moved there in one currency. -/
def movedIn (b : Books) (id accountId : Id) (currency : String) : Decimal :=
  tally (fun e => e.accountId = accountId ∧ e.currency = currency) LedgerEntry.amount
    (b.entries.filter (LedgerEntry.isOf id .success))

theorem mem_reversalsOf {r : Transaction} {id : Id} :
    r ∈ b.reversalsOf id ↔ r ∈ b.transactions ∧ r.type = .reversal ∧ r.details = .reversal id := by
  simp [reversalsOf]

theorem filter_isOf (b : Books) (id : Id) (status : EntryStatus) :
    b.entries.filter (LedgerEntry.isOf id status) =
      (b.entriesOf id).filter fun e => e.status = status := by
  rw [entriesOf, List.filter_filter]
  refine List.filter_congr fun e _ => ?_
  simp [LedgerEntry.isOf, Bool.and_comm]

/-- With the same entries, a transaction has moved the same. -/
theorem movedIn_congr {id : Id} (h : b'.entriesOf id = b.entriesOf id) (a : Id) (c : String) :
    b'.movedIn id a c = b.movedIn id a c := by
  rw [movedIn, movedIn, filter_isOf, filter_isOf, h]

/-- Every transaction is reversed exactly when one reversal references it, the two cancel,
and no reversal is itself reversed. -/
structure ReversalsExact (b : Books) : Prop where
  count : ∀ t ∈ b.transactions,
    (b.reversalsOf t.id).length = if t.status = .reversed then 1 else 0
  cancels : ∀ t ∈ b.transactions, t.status = .reversed → ∀ r ∈ b.reversalsOf t.id, ∀ a c,
    b.movedIn t.id a c + b.movedIn r.id a c = 0
  standing : ∀ r ∈ b.transactions, r.type = .reversal → r.status = .success
  references : ∀ r ∈ b.transactions, r.type = .reversal → ∀ id, r.details = .reversal id →
    ∃ t ∈ b.transactions, t.id = id

namespace ReversalsExact

/-- Nothing refers to a transaction that is not there. -/
theorem reversalsOf_eq_nil (h : b.ReversalsExact) {id : Id}
    (hid : ∀ t ∈ b.transactions, t.id ≠ id) : b.reversalsOf id = [] := by
  refine List.eq_nil_iff_forall_not_mem.2 fun r hr => ?_
  obtain ⟨hmem, htype, hdetails⟩ := mem_reversalsOf.1 hr
  obtain ⟨t, ht, rfl⟩ := h.references r hmem htype id hdetails
  exact hid t ht rfl

/-- Reversed transactions and reversals are finished: what they have moved stays. -/
theorem cancels_later (h : b.ReversalsExact) {R : Transaction → Transaction → Prop}
    (ha : b.Audited R b') {t : Transaction} (ht : t ∈ b.transactions) (hs : t.status = .reversed)
    {r : Transaction} (hr : r ∈ b.reversalsOf t.id) (a : Id) (c : String) :
    b'.movedIn t.id a c + b'.movedIn r.id a c = 0 := by
  obtain ⟨hmem, htype, -⟩ := mem_reversalsOf.1 hr
  have hstanding := h.standing r hmem htype
  rw [movedIn_congr (ha.finished t ht (by simp [hs])) a c,
    movedIn_congr (ha.finished r hmem (by simp [hstanding])) a c]
  exact h.cancels t ht hs r hr a c

/-- What a reversal refers to stays when a status changes. -/
theorem references_modify (h : b.ReversalsExact) {id : Id} {status : TransactionStatus}
    {y : Transaction}
    (hy : y ∈ modify Transaction.id id (fun x => { x with status := status }) b.transactions)
    (htype : y.type = .reversal) {original : Id} (hdetails : y.details = .reversal original) :
    ∃ u ∈ modify Transaction.id id (fun x => { x with status := status }) b.transactions,
      u.id = original := by
  obtain ⟨x, hx, rfl⟩ := mem_modify.1 hy
  have hx' : x.type = .reversal ∧ x.details = .reversal original := by
    split at htype <;> split at hdetails <;> exact ⟨htype, hdetails⟩
  obtain ⟨u, hu, huid⟩ := h.references x hx hx'.1 original hx'.2
  refine ⟨_, mem_modify.2 ⟨u, hu, rfl⟩, ?_⟩
  split <;> exact huid

/-- New rows that are no reversals. -/
theorem opened (h : b.ReversalsExact) {R : Transaction → Transaction → Prop}
    (ha : b.Audited R b') {t : Transaction} (fresh : ∀ x ∈ b.transactions, x.id ≠ t.id)
    (status : t.status ≠ .reversed) (original : t.type ≠ .reversal)
    (ht : b'.transactions = b.transactions ++ [t]) : b'.ReversalsExact := by
  have hreversals : ∀ id, b'.reversalsOf id = b.reversalsOf id := by
    intro id
    simp [reversalsOf, ht, original]
  have hmem : ∀ x ∈ b'.transactions, x ∈ b.transactions ∨ x = t := by
    intro x hx
    simpa [ht] using hx
  refine ⟨fun x hx => ?_, fun x hx hs r hr => ?_, fun r hr htype => ?_,
    fun r hr htype id hdetails => ?_⟩
  · rw [hreversals]
    rcases hmem x hx with hx | rfl
    · exact h.count x hx
    · rw [h.reversalsOf_eq_nil fresh, if_neg status]
      rfl
  · rw [hreversals] at hr
    rcases hmem x hx with hx | rfl
    · exact h.cancels_later ha hx hs hr
    · exact absurd hs status
  · rcases hmem r hr with hr | rfl
    · exact h.standing r hr htype
    · exact absurd htype original
  · rcases hmem r hr with hr | rfl
    · obtain ⟨x, hx, hxid⟩ := h.references r hr htype id hdetails
      exact ⟨x, ht ▸ List.mem_append_left _ hx, hxid⟩
    · exact absurd htype original

/-- A pending transaction ends. -/
theorem closed (h : b.ReversalsExact) (hk : b.Keyed s) {R : Transaction → Transaction → Prop}
    (ha : b.Audited R b') {t : Transaction} {status : TransactionStatus}
    (mem : t ∈ b.transactions) (pending : t.status = .pending) (final : status ≠ .reversed)
    (ht : b'.transactions =
      modify Transaction.id t.id (fun x => { x with status := status }) b.transactions) :
    b'.ReversalsExact := by
  have hrow : ∀ x ∈ b.transactions, x.id = t.id → x = t := fun x hx hid =>
    eq_of_key_eq hk.transactionIds hx mem hid
  have hreversals : ∀ id, b'.reversalsOf id =
      modify Transaction.id t.id (fun x => { x with status := status }) (b.reversalsOf id) := by
    intro id
    rw [reversalsOf, ht]
    exact filter_modify fun _ => rfl
  -- the reversals are standing, so they are not the transaction that ends
  have hsame : ∀ id, b'.reversalsOf id = b.reversalsOf id := by
    intro id
    rw [hreversals]
    refine modify_of_forall_ne fun r hr hid => ?_
    obtain ⟨hmem, htype, -⟩ := mem_reversalsOf.1 hr
    have hstanding := h.standing r hmem htype
    rw [hrow r hmem hid, pending] at hstanding
    cases hstanding
  refine ⟨fun y hy => ?_, fun y hy hs r hr => ?_, fun y hy htype => ?_,
    fun y hy htype id hdetails => ht ▸ h.references_modify (ht ▸ hy) htype hdetails⟩ <;>
    rw [ht] at hy <;> obtain ⟨x, hx, rfl⟩ := mem_modify.1 hy
  · rw [hsame]
    by_cases hid : x.id = t.id
    · have hcount := h.count x hx
      rw [hrow x hx hid, pending] at hcount
      simpa [hid, final] using hcount
    · rw [if_neg hid]
      exact h.count x hx
  · rw [hsame] at hr
    by_cases hid : x.id = t.id
    · simp [hid, final] at hs
    · rw [if_neg hid] at hs hr ⊢
      exact h.cancels_later ha hx hs hr
  · by_cases hid : x.id = t.id
    · rw [if_pos hid] at htype
      have hstanding := h.standing x hx htype
      rw [hrow x hx hid, pending] at hstanding
      cases hstanding
    · rw [if_neg hid] at htype ⊢
      exact h.standing x hx htype

end ReversalsExact

end Books

/-- What a new transaction has moved is what was posted for it. -/
theorem Books.movedIn_new (hk : b.Keyed s) {id : Id} {es : List LedgerEntry}
    (fresh : ∀ x ∈ b.transactions, x.id ≠ id) (he : b'.entries = b.entries ++ es)
    (own : ∀ e ∈ es, e.transactionId = id ∧ e.status = .success) (a : Id) (c : String) :
    b'.movedIn id a c =
      tally (fun e => e.accountId = a ∧ e.currency = c) LedgerEntry.amount es := by
  have hold : b.entries.filter (LedgerEntry.isOf id .success) = [] := by
    refine List.filter_eq_nil_iff.2 fun e hmem hof => ?_
    obtain ⟨x, hx, hid⟩ := hk.entryTransaction e hmem
    exact fresh x hx (hid.trans (of_decide_eq_true hof).1)
  have hentries : b'.entries.filter (LedgerEntry.isOf id .success) = es := by
    rw [he, List.filter_append, hold, List.nil_append, List.filter_eq_self]
    exact fun e hmem => decide_eq_true (own e hmem)
  rw [Books.movedIn, hentries]

/-- A successful transaction is reversed. -/
theorem Books.ReversalsExact.reversed (h : b.ReversalsExact) (hk : b.Keyed s)
    {R : Transaction → Transaction → Prop} (ha : b.Audited R b') {t reversal : Transaction}
    {es : List LedgerEntry} (mem : t ∈ b.transactions) (success : t.status = .success)
    (original : t.type ≠ .reversal) (fresh : ∀ x ∈ b.transactions, x.id ≠ reversal.id)
    (type : reversal.type = .reversal) (details : reversal.details = .reversal t.id)
    (status : reversal.status = .success)
    (ht : b'.transactions = modify Transaction.id t.id (fun x => { x with status := .reversed })
      (b.transactions ++ [reversal]))
    (he : b'.entries = b.entries ++ es)
    (own : ∀ e ∈ es, e.transactionId = reversal.id ∧ e.status = .success)
    (cancels : ∀ a c, tally (fun e => e.accountId = a ∧ e.currency = c) LedgerEntry.amount es =
      -b.movedIn t.id a c) : b'.ReversalsExact := by
  have hrow : ∀ x ∈ b.transactions, x.id = t.id → x = t := fun x hx hid =>
    eq_of_key_eq hk.transactionIds hx mem hid
  have hne : reversal.id ≠ t.id := Ne.symm (fresh t mem)
  have hlist : b'.transactions =
      modify Transaction.id t.id (fun x => { x with status := .reversed }) b.transactions ++
        [reversal] := by
    rw [ht, modify_append]
    congr 1
    simp [modify, hne]
  -- an older reversal is standing, and keeps its row
  have hreversals : ∀ id, b'.reversalsOf id =
      b.reversalsOf id ++ if id = t.id then [reversal] else [] := by
    intro id
    have hselect : (modify Transaction.id t.id (fun x => { x with status := .reversed })
        b.transactions).filter (fun x => x.type = .reversal ∧ x.details = .reversal id) =
        modify Transaction.id t.id (fun x => { x with status := .reversed })
          (b.reversalsOf id) := filter_modify fun _ => rfl
    have hold := hselect.trans <| modify_of_forall_ne fun r hr hid => by
      obtain ⟨hmem, htype, -⟩ := Books.mem_reversalsOf.1 hr
      exact original (hrow r hmem hid ▸ htype)
    rw [Books.reversalsOf, hlist, List.filter_append, hold]
    congr 1
    by_cases hid : id = t.id
    · simp [hid, type, details]
    · simp [details, Ne.symm hid, hid]
  have hnone : b.reversalsOf reversal.id = [] := h.reversalsOf_eq_nil fresh
  have hmoved : ∀ a c, b'.movedIn reversal.id a c = -b.movedIn t.id a c := fun a c =>
    (Books.movedIn_new hk fresh he own a c).trans (cancels a c)
  refine ⟨fun y hy => ?_, fun y hy hs r hr a c => ?_, fun y hy htype => ?_,
    fun y hy htype id hdetails => ?_⟩ <;> rw [hlist] at hy <;>
    rcases List.mem_append.1 hy with hy | hy
  · obtain ⟨x, hx, rfl⟩ := mem_modify.1 hy
    have hcount := h.count x hx
    by_cases hid : x.id = t.id
    · rw [hrow x hx hid, success] at hcount
      simp [hreversals, hid, hcount]
    · rw [if_neg hid, hreversals, if_neg hid, List.append_nil]
      exact hcount
  · rw [List.mem_singleton.1 hy, hreversals, if_neg hne, hnone, status]
    rfl
  · obtain ⟨x, hx, rfl⟩ := mem_modify.1 hy
    by_cases hid : x.id = t.id
    · obtain rfl := hrow x hx hid
      have hcount := h.count x hx
      rw [success, if_neg (by simp), List.length_eq_zero_iff] at hcount
      rw [if_pos rfl, hreversals, if_pos rfl, hcount, List.nil_append, List.mem_singleton] at hr
      rw [if_pos rfl, hr, hmoved,
        Books.movedIn_congr (ha.finished x hx (by simp [success])) a c, add_neg_cancel]
    · rw [if_neg hid] at hs hr ⊢
      rw [hreversals, if_neg hid, List.append_nil] at hr
      exact h.cancels_later ha hx hs hr a c
  · rw [List.mem_singleton.1 hy, status] at hs
    cases hs
  · obtain ⟨x, hx, rfl⟩ := mem_modify.1 hy
    by_cases hid : x.id = t.id
    · rw [if_pos hid] at htype
      exact absurd (hrow x hx hid ▸ htype) original
    · rw [if_neg hid] at htype ⊢
      exact h.standing x hx htype
  · rw [List.mem_singleton.1 hy, status]
  · obtain ⟨u, hu, huid⟩ := h.references_modify hy htype hdetails
    exact ⟨u, hlist ▸ List.mem_append_left _ hu, huid⟩
  · rw [List.mem_singleton.1 hy, details] at hdetails
    cases hdetails
    refine ⟨_, hlist ▸ List.mem_append_left _ (mem_modify.2 ⟨t, mem, rfl⟩), ?_⟩
    simp

/-- One operation keeps the reversals exact. -/
theorem Progress.reversalsExact (hk : b.Keyed s) (h : b.ReversalsExact) (hp : Progress b b') :
    b'.ReversalsExact := by
  have ha := hp.audited hk
  cases hp with
  | idle ht he =>
    have hreversals : ∀ id, b'.reversalsOf id = b.reversalsOf id := fun id => by
      rw [Books.reversalsOf, ht, Books.reversalsOf]
    refine ⟨fun t hmem => ?_, fun t hmem hs r hr => ?_, ht ▸ h.standing, ht ▸ h.references⟩ <;>
      rw [ht] at hmem
    · rw [hreversals]
      exact h.count t hmem
    · rw [hreversals] at hr
      exact h.cancels_later ha hmem hs hr
  | opened t es fresh status original ht he own _ =>
    refine h.opened ha fresh ?_ original ht
    rcases status with hs | hs <;> simp [hs]
  | closed t status outcome selected es mem pending status_final _ _ ht _ _ _ =>
    refine h.closed hk ha mem pending ?_ ht
    rcases status_final with rfl | rfl <;> simp
  | reversed t reversal es mem success original fresh type details status ht he own cancels =>
    exact h.reversed hk ha mem success original fresh type details status ht he own cancels

/-- Every state of a run has exact reversals. -/
theorem reversalsExact_of_run {C : Operation → Store → Prop} {s : Store}
    (h : Run (Operation.run cfg) C Store.empty s) : s.Sound ∧ s.db.books.ReversalsExact := by
  refine ⟨sound_of_run h, h.invariant_of (I := fun s => s.db.books.ReversalsExact) sound_of_run ?_
    fun op s hs hx _ => op.run_keeps (I := Books.ReversalsExact) hs.keyed hx fun he => ?_⟩
  · constructor <;> simp [Store.empty, Database.empty]
  · exact (he.progress hs.keyed (hs.run op).keyed hs.linked).reversalsExact hs.keyed hx

/-- **Reversals are exact and unique.**  After any run, a transaction is reversed exactly
when one and only one reversal references it, and otherwise none does; what is reversed is
no reversal, and the settled entries of the two cancel on every account and in every
currency.  Whatever comes later, a transaction that has succeeded keeps its entries. -/
theorem reversals_exact (cfg : Config) (ops ops' : List Operation) :
    let s := runAll cfg ops Store.empty
    let b := s.db.books
    ∀ t ∈ b.transactions,
      (t.status = .reversed → t.type ≠ .reversal ∧ ∃ r, b.reversalsOf t.id = [r] ∧
        ∀ a c, b.movedIn t.id a c + b.movedIn r.id a c = 0) ∧
      (t.status ≠ .reversed → b.reversalsOf t.id = []) ∧
      (t.status = .success ∨ t.status = .reversed →
        (runAll cfg ops' s).db.books.entriesOf t.id = b.entriesOf t.id) := by
  intro s b t ht
  have hrun : Run (Operation.run cfg) anyOp Store.empty s := Run.foldl ops
  obtain ⟨hs, h⟩ := reversalsExact_of_run hrun
  have hcount := h.count t ht
  refine ⟨fun hr => ⟨fun htype => ?_, ?_⟩, fun hne => ?_, fun hfinal => ?_⟩
  · rw [h.standing t ht htype] at hr
    cases hr
  · rw [if_pos hr] at hcount
    obtain ⟨r, hrs⟩ := List.length_eq_one_iff.1 hcount
    exact ⟨r, hrs, h.cancels t ht hr r (by rw [hrs]; exact List.mem_singleton_self r)⟩
  · rw [if_neg hne] at hcount
    exact List.length_eq_zero_iff.1 hcount
  · refine (hs.audited_run (Run.foldl ops')).2.finished t ht ?_
    rcases hfinal with hs | hs <;> simp [hs]

end WalletLedger
