import WalletLedger.Concurrent.LockOrder

/-!
# The locks of an operation, one after the other

* `Obeys` — the rest of an operation follows the protocol, from what it holds.
* `obeys_lock`, `obeys_post` — a lock, and the entries of a transaction, account by account.
* `Operation.obeys` — every operation follows the protocol from its start.
-/

namespace WalletLedger

variable {cfg : Config}

/-! ## The operations -/

/-- A request that locks nothing in question. -/
def Request.Plain (r : Request) : Prop :=
  r.claim = none ∧ ∀ reference, r ≠ .select (.transactionForUpdate reference)

theorem Request.Plain.taken {r : Request} (h : r.Plain) (v : r.Answer) : r.taken v = [] := by
  unfold Request.taken
  split
  · cases h.1
  · exact absurd rfl (h.2 _)
  · cases h.1
  · cases h.1
  · rfl

theorem plain_announcing : Announcing Request.Plain :=
  ⟨fun _ => ⟨rfl, by simp⟩, fun _ _ _ _ _ _ => ⟨rfl, by simp⟩, ⟨rfl, by simp⟩⟩

section operations

variable {rank : Id → ℕ} {late : Id → Prop} {op : Operation} {held : List (Row × LockMode)}
  {α β : Type}

/-- The rest of the operation asks for locks in order. -/
abbrev Obeys (rank : Id → ℕ) (late : Id → Prop) (op : Operation) (p : App α)
    (held : List (Row × LockMode)) : Prop :=
  (lockOrder rank late op).Follows p (fun _ _ => True) held

theorem obeys_of_all {p : App α} (hp : p.All Request.Plain) : Obeys rank late op p held := by
  induction p generalizing held with
  | ret a => trivial
  | raise e => trivial
  | call r k ih =>
    refine ⟨⟨fun a m h => ?_, fun reference h => absurd h (hp.1.2 reference)⟩,
      fun v _ => ih v (hp.2 v)⟩
    rw [hp.1.1] at h
    cases h

theorem obeys_map {p : App α} {g : α → β} (h : Obeys rank late op p held) :
    Obeys rank late op (g <$> p) held := by
  rw [map_eq_pure_bind]
  exact .bind (h.mono fun _ _ _ => trivial)

theorem obeys_ask {r : Request} {f : r.Result → App α}
    (hallows : (lockOrder rank late op).allows held r)
    (h : ∀ v, (lockOrder rank late op).expects held r (.ok v) →
      Obeys rank late op (f v) (if r.ends then [] else held ++ r.taken (.ok v))) :
    Obeys rank late op (ask r >>= f) held := by
  refine ⟨hallows, fun v hv => ?_⟩
  cases v with
  | error e => trivial
  | ok v => exact h v hv

/-- A request that locks nothing in question, inside the transaction. -/
theorem obeys_plain {r : Request} {f : r.Result → App α} (hr : r.Plain) (hends : r.ends = false)
    (h : ∀ v, (lockOrder rank late op).expects held r (.ok v) → Obeys rank late op (f v) held) :
    Obeys rank late op (ask r >>= f) held := by
  refine obeys_ask ⟨fun a m hclaim => ?_, fun reference heq => absurd heq (hr.2 reference)⟩
    fun v hv => ?_
  · rw [hr.1] at hclaim
    cases hclaim
  · rw [hends, hr.taken, List.append_nil]
    exact h v hv

/-- A part that locks nothing in question. -/
theorem obeys_quiet {p : App β} {f : β → App α} (hq : Quiet p) (hp : p.All Request.Plain)
    (h : ∀ a, Obeys rank late op (f a) held) : Obeys rank late op (p >>= f) held := by
  induction p with
  | ret a => exact h a
  | raise e => trivial
  | call r k ih =>
    refine ⟨⟨fun a m hclaim => ?_, fun reference heq => absurd heq (hp.1.2 reference)⟩,
      fun v _ => ?_⟩
    · rw [hp.1.1] at hclaim
      cases hclaim
    · cases v with
      | error e =>
        obtain ⟨x, hx⟩ := hq.2.1 e
        show Obeys rank late op (k (.error e) >>= f) _
        rw [hx]
        trivial
      | ok v =>
        have hends : r.ends = false := by
          cases r <;> first | rfl | exact absurd rfl hq.1.1 | exact absurd rfl hq.1.2
        have hnext : (lockOrder rank late op).next held r (.ok v) = held := by
          show ite _ _ (held ++ r.taken (.ok v)) = _
          rw [hends, hp.1.taken, List.append_nil]
          rfl
        show Obeys rank late op (k (.ok v) >>= f) _
        rw [hnext]
        exact ih _ (hq.2.2 v) (hp.2 _)

theorem obeys_ofExcept {x : Except Exn β} {f : β → App α}
    (h : ∀ a, x = .ok a → Obeys rank late op (f a) held) :
    Obeys rank late op (Program.ofExcept x >>= f) held :=
  .bind (Protocol.follows_ofExcept h)

theorem obeys_ofOption {e : Exn} {o : Option β} {f : β → App α}
    (h : ∀ a, o = some a → Obeys rank late op (f a) held) :
    Obeys rank late op (ofOption e o >>= f) held := by
  cases o with
  | none => trivial
  | some a => exact h a rfl

/-- `AccountService.lock`. -/
theorem obeys_lock {id : Id} {f : Account → App α} (hclaim : Claimable rank late held id .update)
    (h : ∀ a, a.id = id → Obeys rank late op (f a) (held ++ [(.account id, .update)])) :
    Obeys rank late op (AccountService.lock id >>= f) held := by
  rw [AccountService.lock, bind_assoc]
  refine obeys_ask ⟨fun a m heq => ?_, fun _ heq => by cases heq⟩ fun found hfound => ?_
  · cases heq
    exact hclaim
  · refine obeys_ofOption fun a ha => ?_
    subst ha
    obtain rfl : a.id = id := hfound.1
    exact h a rfl

/-- `AccountService.get`. -/
theorem obeys_get {id : Id} {f : Account → App α}
    (h : ∀ a, a.id = id → op.Ordered rank late (forUpdate held) (.select (.account id))
      (.ok (some a)) → Obeys rank late op (f a) held) :
    Obeys rank late op (AccountService.get id >>= f) held := by
  rw [AccountService.get, bind_assoc]
  refine obeys_plain ⟨rfl, by simp⟩ rfl fun found hfound => obeys_ofOption fun a ha => ?_
  subst ha
  exact h a hfound.1 hfound.2

/-- `AccountService.get_or_create_internal`. -/
theorem obeys_getOrCreateInternal {ownerId currency : String} {f : Account → App α}
    (h : ∀ a : Account, a.ownerId = ownerId → (∃ (r : Request) (v : r.Answer), a ∈ r.finds v ∧
      op.Ordered rank late (forUpdate held) r v) → Obeys rank late op (f a) held) :
    Obeys rank late op (AccountService.getOrCreateInternal ownerId currency >>= f) held := by
  rw [AccountService.getOrCreateInternal, bind_assoc]
  refine obeys_plain ⟨rfl, by simp⟩ rfl fun found hfound => ?_
  cases found with
  | some a => exact h a hfound.1 ⟨_, _, rfl, hfound.2⟩
  | none =>
    exact obeys_plain ⟨rfl, by simp⟩ rfl fun a ha => h a ha.1 ⟨_, _, rfl, ha.2⟩

theorem obeys_insertEntry {accountId transactionId : Id} {amount : Decimal} {entryType : EntryType}
    {status : EntryStatus} {currency : String} {f : Unit → App α}
    (hclaim : Claimable rank late held accountId .keyShare)
    (h : Obeys rank late op (f ()) (held ++ [(.account accountId, .keyShare)])) :
    Obeys rank late op
      (ask (.mutate (.insertEntry accountId transactionId amount entryType status currency)) >>= f)
      held := by
  refine obeys_ask ⟨fun a m heq => ?_, fun _ heq => by cases heq⟩ fun _ _ => h
  cases heq
  exact hclaim

/-- A snapshot of an account whose row is held already. -/
theorem obeys_maybeSnapshot {account : Account} {f : Unit → App α}
    (hheld : (.account account.id, .update) ∈ held ∨ (.account account.id, .keyShare) ∈ held)
    (h : ∀ held', (∀ x ∈ held, x ∈ held') → Obeys rank late op (f ()) held') :
    Obeys rank late op (LedgerService.maybeSnapshot cfg account >>= f) held := by
  unfold LedgerService.maybeSnapshot LedgerService.latestSnapshot
  simp only [bind_assoc]
  refine obeys_plain ⟨rfl, by simp⟩ rfl fun snapshot _ => ?_
  refine obeys_plain ⟨rfl, by simp⟩ rfl fun entries _ => ?_
  split
  · exact h held fun _ hx => hx
  · rw [bind_assoc]
    refine obeys_ofOption fun last _ => ?_
    refine obeys_ask ⟨fun a m heq => ?_, fun _ heq => by cases heq⟩ fun _ _ => ?_
    · cases heq
      exact .again rfl hheld
    · exact h _ fun x hx => List.mem_append_left _ hx

/-- The commit releases everything; what comes after it locks nothing. -/
theorem obeys_commit {f : Unit → App α} (h : ∀ u, (f u).All Request.Plain) :
    Obeys rank late op (ask .commit >>= f) held :=
  obeys_of_all ((all_ask ⟨rfl, by simp⟩).bind h)

theorem plain_availableBalance (account : Account) :
    (LedgerService.availableBalance account).All Request.Plain := by
  refine Program.All.bind ?_ fun _ =>
    (all_ask ⟨rfl, by simp⟩).bind fun _ => Program.all_ofExcept _
  exact (all_ask ⟨rfl, by simp⟩).bind fun _ => (all_ask ⟨rfl, by simp⟩).bind fun _ =>
    Program.all_ofExcept _

theorem plain_ensureFunds (sender : Account) (money : Money) :
    (TransferService.ensureFunds sender money).All Request.Plain :=
  (plain_availableBalance _).bind fun _ => Program.all_ofExcept _

theorem plain_correlationIdOr (correlationId : Option String) :
    (correlationIdOr correlationId).All Request.Plain := by
  have draw : (Id.text <$> ask .uuid4).All Request.Plain := all_map (all_ask ⟨rfl, by simp⟩) _
  unfold correlationIdOr
  split
  · split
    · exact draw
    · trivial
  · exact draw

theorem plain_reloadTransaction (id : Id) : (reloadTransaction id).All Request.Plain :=
  (all_ask ⟨rfl, by simp⟩).bind fun _ => all_ofOption _ _

theorem plain_reloadAccount (id : Id) : (reloadAccount id).All Request.Plain :=
  (all_ask ⟨rfl, by simp⟩).bind fun _ => all_ofOption _ _

theorem plain_publish (event : DomainEvent) :
    (EventBus.publish (subscribers cfg) event).All Request.Plain :=
  plain_announcing.publish (fun _ => ⟨rfl, by simp⟩) event

theorem plain_transferPublish (eventType : EventType) (txn : Transaction) (money : Money)
    (sender receiver : Account) :
    (TransferService.publish cfg eventType txn money sender receiver).All Request.Plain :=
  (plain_reloadTransaction _).bind fun _ => (plain_reloadAccount _).bind fun _ =>
    (plain_reloadAccount _).bind fun _ => (plain_publish _).bind fun _ => trivial

/-- The first lock of a session. -/
theorem Claimable.first {a : Id} {m : LockMode} : Claimable rank late [] a m :=
  .ahead (fun _ h => by cases h) (fun _ h => by cases h) fun _ ⟨_, _, h⟩ => by cases h

/-- An account that comes after the only one that is held `FOR UPDATE`. -/
theorem Claimable.after {a b : Id} (h : b = a ∨ rank b < rank a)
    (hheld : ∀ c, (.account c, .update) ∈ held → c = b)
    (hb : (.account b, .update) ∈ held)
    (hshared : ∀ c, (.account c, .keyShare) ∈ held → c = b ∨ ¬ late c) :
    Claimable rank late held a .keyShare := by
  rcases h with rfl | hlt
  · exact .again rfl (.inl hb)
  · refine .ahead (fun c hc => hheld c hc ▸ hlt) (fun c hc => ?_) fun h => by cases h
    rcases hshared c hc with rfl | hlate
    · exact .inl hb
    · exact .inr hlate

/-- The accounts may be referenced one after the other. -/
def ClaimsInTurn (rank : Id → ℕ) (late : Id → Prop) : List (Row × LockMode) → List Id → Prop
  | _, [] => True
  | held, a :: as => Claimable rank late held a .keyShare ∧
      ClaimsInTurn rank late (held ++ [(.account a, .keyShare)]) as

/-- Accounts that are held `FOR UPDATE` may be referenced at any time. -/
theorem claimsInTurn_of_held {as : List Id} (h : ∀ a ∈ as, (.account a, .update) ∈ held) :
    ClaimsInTurn rank late held as := by
  induction as generalizing held with
  | nil => trivial
  | cons a as ih =>
    exact ⟨.again rfl (.inl (h a (by simp))),
      ih fun b hb => List.mem_append_left _ (h b (by simp [hb]))⟩

/-- `LedgerService.post`. -/
theorem obeys_post {t : TransactionAggregate} {id : Id} {f : Unit → App α} (as : List Id)
    (has : t.lines.map PostingLine.accountId = as) (hclaims : ClaimsInTurn rank late held as)
    (h : Obeys rank late op (f ()) (held ++ as.map fun a => (.account a, .keyShare))) :
    Obeys rank late op (LedgerService.post t id >>= f) held := by
  have hlines : ∀ (lines : List PostingLine) (held : List (Row × LockMode)),
      ClaimsInTurn rank late held (lines.map PostingLine.accountId) →
      Obeys rank late op (f ()) (held ++
        (lines.map PostingLine.accountId).map fun a => (.account a, .keyShare)) →
      Obeys rank late op ((Program.forEach lines fun line =>
        ask (.mutate (.insertEntry line.accountId id line.amount line.entryType line.status
          line.currency))) >>= f) held := by
    intro lines
    induction lines with
    | nil =>
      intro held _ h
      rwa [List.map_nil, List.map_nil, List.append_nil] at h
    | cons line lines ih =>
      intro held hclaims h
      rw [Program.forEach, bind_assoc]
      refine obeys_insertEntry hclaims.1 (ih _ hclaims.2 ?_)
      simpa using h
  subst has
  unfold LedgerService.post
  rw [bind_assoc]
  exact obeys_ofExcept fun _ _ => hlines _ _ hclaims h

/-! ### One by one -/

theorem execute_obeys {senderId receiverId : Id} {amount : Decimal}
    {correlationId : Option String} :
    Obeys rank late (.execute senderId receiverId amount correlationId)
      (TransferService.execute cfg senderId receiverId amount correlationId) [] := by
  unfold TransferService.execute
  refine obeys_lock .first fun sender hs => obeys_get fun receiver _ hreceiver => ?_
  have hafter : sender.id = receiver.id ∨ rank sender.id < rank receiver.id :=
    hreceiver receiver rfl _ (by simp [hs])
  subst hs
  refine obeys_quiet (quiet_validate _ _ _) (Bookkeeping.validate _ _ _) fun money => ?_
  refine obeys_quiet (quiet_ensureFunds _ _) (plain_ensureFunds _ _) fun _ => ?_
  refine obeys_quiet (quiet_correlationIdOr _) (plain_correlationIdOr _) fun text => ?_
  refine obeys_plain ⟨rfl, by simp⟩ rfl fun txn _ => ?_
  refine obeys_post [sender.id, receiver.id] rfl ⟨?_, ?_, trivial⟩ ?_
  · exact .again rfl (by simp)
  · exact .after hafter (by simp) (by simp) (by simp +contextual)
  refine obeys_maybeSnapshot (by simp) fun held₁ h₁ => ?_
  refine obeys_maybeSnapshot (.inr (h₁ _ (by simp))) fun held₂ _ => ?_
  exact obeys_commit fun _ => plain_transferPublish _ _ _ _ _

theorem initiate_obeys {senderId receiverId : Id} {amount : Decimal}
    {correlationId : Option String} :
    Obeys rank late (.initiate senderId receiverId amount correlationId)
      (TransferService.initiate cfg senderId receiverId amount correlationId) [] := by
  unfold TransferService.initiate
  refine obeys_lock .first fun sender hs => obeys_get fun receiver _ _ => ?_
  subst hs
  refine obeys_quiet (quiet_validate _ _ _) (Bookkeeping.validate _ _ _) fun money => ?_
  refine obeys_quiet (quiet_ensureFunds _ _) (plain_ensureFunds _ _) fun _ => ?_
  refine obeys_quiet (quiet_correlationIdOr _) (plain_correlationIdOr _) fun text => ?_
  refine obeys_plain ⟨rfl, by simp⟩ rfl fun txn _ => ?_
  refine obeys_insertEntry (.again rfl (by simp)) ?_
  exact obeys_commit fun _ => plain_transferPublish _ _ _ _ _

theorem plain_pendingTransaction (id : Id) :
    (TransferService.pendingTransaction id).All Request.Plain :=
  (all_ask ⟨rfl, by simp⟩).bind fun _ => (all_ofOption _ _).bind fun _ =>
    (all_raiseIf _ _).bind fun _ => trivial

theorem commit_obeys {transactionId : Id} :
    Obeys rank late (.commit transactionId) (TransferService.commit cfg transactionId) [] := by
  unfold TransferService.commit
  refine obeys_quiet (quiet_pendingTransaction _) (plain_pendingTransaction _) fun txn => ?_
  refine obeys_ofExcept fun money _ => ?_
  refine obeys_quiet (quiet_raiseIf _ _) (all_raiseIf _ _) fun _ => ?_
  refine obeys_plain ⟨rfl, by simp⟩ rfl fun found _ => obeys_ofOption fun debit _ => ?_
  refine obeys_lock .first fun sender hs => obeys_ofExcept fun receiverId _ => ?_
  refine obeys_get fun receiver _ hreceiver => ?_
  have hafter : sender.id = receiver.id ∨ rank sender.id < rank receiver.id :=
    hreceiver receiver rfl _ (by simp [hs])
  rw [← hs]
  refine obeys_plain ⟨rfl, by simp⟩ rfl fun _ _ => ?_
  refine obeys_insertEntry (.after hafter (by simp) (by simp) (by simp)) ?_
  refine obeys_ofExcept fun _ _ => obeys_plain ⟨rfl, by simp⟩ rfl fun _ _ => ?_
  refine obeys_maybeSnapshot (by simp) fun held₁ h₁ => ?_
  refine obeys_maybeSnapshot (.inr (h₁ _ (by simp))) fun held₂ _ => ?_
  exact obeys_commit fun _ => plain_transferPublish _ _ _ _ _

theorem settle_obeys {reference : String} {confirmedAmount : Option Decimal}
    {confirmedCurrency : Option String} :
    Obeys rank late (.settle reference confirmedAmount confirmedCurrency)
      (DepositService.settle cfg reference confirmedAmount confirmedCurrency) [] := by
  unfold DepositService.settle DepositService.settleFound
  refine obeys_ask ⟨fun _ _ heq => (by cases heq), fun _ _ => rfl⟩ fun found _ => ?_
  refine obeys_ofOption fun txn ha => ?_
  subst ha
  -- the transaction's row is no account's
  show Obeys rank late _ _ [(.transaction txn.id, .update)]
  refine obeys_quiet (quiet_raiseIf _ _) (all_raiseIf _ _) fun _ => ?_
  refine obeys_ofExcept fun authorized _ => obeys_ofExcept fun _ _ => ?_
  refine obeys_ofExcept fun accountId _ => ?_
  refine obeys_lock (.ahead (by simp) (by simp) (by simp)) fun account hs => ?_
  subst hs
  refine obeys_getOrCreateInternal fun clearing _ ⟨r, v, hfound, hordered⟩ => ?_
  have hafter : account.id = clearing.id ∨ rank account.id < rank clearing.id :=
    hordered clearing hfound _ (by simp)
  refine obeys_post [clearing.id, account.id] rfl ⟨?_, ?_, trivial⟩ ?_
  · exact .after hafter (by simp) (by simp) (by simp)
  · exact .again rfl (by simp)
  refine obeys_plain ⟨rfl, by simp⟩ rfl fun _ _ => ?_
  refine obeys_maybeSnapshot (by simp) fun held₁ h₁ => ?_
  refine obeys_maybeSnapshot (.inr (h₁ _ (by simp))) fun held₂ _ => ?_
  exact obeys_commit fun _ => (plain_reloadTransaction _).bind fun _ =>
    (plain_reloadAccount _).bind fun _ => (plain_publish _).bind fun _ => trivial

/-- Snapshots of accounts whose rows are held already. -/
theorem obeys_maybeSnapshots {accounts : List Account} {f : Unit → App α}
    (hheld : ∀ a ∈ accounts,
      (.account a.id, .update) ∈ held ∨ (.account a.id, .keyShare) ∈ held)
    (h : ∀ held', Obeys rank late op (f ()) held') :
    Obeys rank late op (Program.forEach accounts (LedgerService.maybeSnapshot cfg) >>= f) held := by
  induction accounts generalizing held with
  | nil => exact h held
  | cons a accounts ih =>
    rw [Program.forEach, bind_assoc]
    refine obeys_maybeSnapshot (hheld a (by simp)) fun held' hsub => ih fun b hb => ?_
    exact (hheld b (by simp [hb])).imp (hsub _) (hsub _)

theorem executeFxTransfer_obeys {rates : RateTable} {senderId receiverId : Id} {amount : Decimal}
    {correlationId : Option String} :
    Obeys rank late (.executeFxTransfer rates senderId receiverId amount correlationId)
      (FxService.executeFxTransfer cfg rates senderId receiverId amount correlationId) [] := by
  unfold FxService.executeFxTransfer
  refine obeys_lock .first fun sender hs => obeys_get fun receiver _ hreceiver => ?_
  have hafter : sender.id = receiver.id ∨ rank sender.id < rank receiver.id :=
    (hreceiver receiver rfl).1 _ (by simp [hs])
  subst hs
  refine obeys_quiet (quiet_raiseIf _ _) (all_raiseIf _ _) fun _ => obeys_ofExcept fun sent _ => ?_
  refine obeys_quiet (quiet_raiseIf _ _) (all_raiseIf _ _) fun _ => ?_
  refine obeys_quiet (quiet_availableBalance _) (plain_availableBalance _) fun available => ?_
  refine obeys_ofExcept fun _ _ => obeys_ofExcept fun received _ => ?_
  refine obeys_getOrCreateInternal fun poolFrom hfrom ⟨r, v, hfound, hordered⟩ => ?_
  have hfromAfter : sender.id = poolFrom.id ∨ rank sender.id < rank poolFrom.id :=
    (hordered poolFrom hfound).1 _ (by simp)
  have hfromLate : ¬ late poolFrom.id := (hordered poolFrom hfound).2 hfrom
  refine obeys_getOrCreateInternal fun poolTo hto ⟨r', v', hfound', hordered'⟩ => ?_
  have htoAfter : sender.id = poolTo.id ∨ rank sender.id < rank poolTo.id :=
    (hordered' poolTo hfound').1 _ (by simp)
  have htoLate : ¬ late poolTo.id := (hordered' poolTo hfound').2 hto
  refine obeys_quiet (quiet_correlationIdOr _) (plain_correlationIdOr _) fun text => ?_
  refine obeys_plain ⟨rfl, by simp⟩ rfl fun txn _ => ?_
  refine obeys_post [sender.id, poolFrom.id, poolTo.id, receiver.id] rfl
    ⟨?_, ?_, ?_, ?_, trivial⟩ ?_
  · exact .again rfl (by simp)
  · exact .after hfromAfter (by simp) (by simp) (by simp +contextual)
  · refine .after htoAfter (by simp) (by simp) fun c hc => ?_
    simp only [List.nil_append, List.cons_append, List.mem_cons, List.not_mem_nil, or_false,
      Prod.mk.injEq, Row.account.injEq, reduceCtorEq, and_false, and_true, false_or] at hc
    rcases hc with rfl | rfl
    · exact .inl rfl
    · exact .inr hfromLate
  · refine .after hafter (by simp) (by simp) fun c hc => ?_
    simp only [List.nil_append, List.cons_append, List.mem_cons, List.not_mem_nil, or_false,
      Prod.mk.injEq, Row.account.injEq, reduceCtorEq, and_false, and_true, false_or] at hc
    rcases hc with rfl | rfl | rfl
    · exact .inl rfl
    · exact .inr hfromLate
    · exact .inr htoLate
  refine obeys_maybeSnapshots (fun a ha => ?_) fun _ => ?_
  · simp only [List.mem_cons, List.not_mem_nil, or_false] at ha
    rcases ha with rfl | rfl | rfl | rfl <;> exact .inr (by simp)
  · exact obeys_commit fun _ => (plain_reloadTransaction _).bind fun _ =>
      (plain_reloadAccount _).bind fun _ => (plain_reloadAccount _).bind fun _ =>
        (plain_publish _).bind fun _ => trivial

/-- The accounts of a reversal, locked one after the other. -/
theorem obeys_lockAll {ids : List Id} {f : Unit → App α}
    (hids : ids.Pairwise fun a b => rank a < rank b) (hlate : ∀ a ∈ ids.tail, late a)
    (h : Obeys rank late op (f ()) (ids.map fun a => (.account a, .update))) :
    Obeys rank late op ((Program.forEach ids fun id => do
      let _ ← AccountService.lock id
      return ()) >>= f) [] := by
  have main : ∀ (todo done : List Id), done ++ todo = ids →
      Obeys rank late op ((Program.forEach todo fun id => do
        let _ ← AccountService.lock id
        return ()) >>= f) (done.map fun a => (.account a, .update)) := by
    intro todo
    induction todo with
    | nil =>
      intro done hdone
      rw [List.append_nil] at hdone
      exact hdone ▸ h
    | cons a todo ih =>
      intro done hdone
      have hbefore : ∀ b ∈ done, rank b < rank a := fun b hb => by
        rw [← hdone, List.pairwise_append] at hids
        exact hids.2.2 b hb a (by simp)
      have hlast : done ≠ [] → late a := fun hne => by
        refine hlate a ?_
        rw [← hdone, List.tail_append_of_ne_nil hne]
        simp
      rw [Program.forEach, bind_assoc, bind_assoc]
      refine obeys_lock (.ahead ?_ ?_ ?_) fun _ _ => ?_
      · intro b hb
        obtain ⟨x, hx, heq⟩ := List.mem_map.1 hb
        cases heq
        exact hbefore b hx
      · intro b hb
        obtain ⟨x, -, heq⟩ := List.mem_map.1 hb
        cases heq
      · rintro - ⟨b, m, hb⟩
        obtain ⟨x, hx, -⟩ := List.mem_map.1 hb
        exact hlast (List.ne_nil_of_mem hx)
      · have hgo := ih (done ++ [a]) (by rw [← hdone]; simp)
        rwa [List.map_append] at hgo
  exact main ids [] rfl

/-- The snapshots after a reversal. -/
theorem obeys_snapshotAll {ids : List Id} {f : Unit → App α}
    (hheld : ∀ a ∈ ids, (.account a, .update) ∈ held)
    (h : ∀ held', Obeys rank late op (f ()) held') :
    Obeys rank late op ((Program.forEach ids fun id => do
      let account ← AccountService.get id
      LedgerService.maybeSnapshot cfg account) >>= f) held := by
  induction ids generalizing held with
  | nil => exact h held
  | cons a ids ih =>
    rw [Program.forEach, bind_assoc, bind_assoc]
    refine obeys_get fun account hid _ => ?_
    refine obeys_maybeSnapshot (.inl (hid ▸ hheld a (by simp))) fun held' hsub => ?_
    exact ih fun b hb => hsub _ (hheld b (by simp [hb]))

theorem reverse_obeys {transactionId : Id} {correlationId : Option String} :
    Obeys rank late (.reverse transactionId correlationId)
      (ReversalService.reverse cfg transactionId correlationId) [] := by
  unfold ReversalService.reverse
  refine obeys_plain ⟨rfl, by simp⟩ rfl fun found _ => obeys_ofOption fun txn _ => ?_
  refine obeys_quiet (quiet_raiseIf _ _) (all_raiseIf _ _) fun _ => ?_
  refine obeys_quiet (quiet_raiseIf _ _) (all_raiseIf _ _) fun _ => ?_
  refine obeys_plain ⟨rfl, by simp⟩ rfl fun entries hentries => ?_
  obtain ⟨hsorted, hlate⟩ := hentries.2
  -- the accounts of the entries, in the order of their identifiers
  have hids : ∀ e ∈ entries, e.accountId ∈
      (entries.map LedgerEntry.accountId).dedup.insertionSort (· ≤ ·) := fun e he => by
    rw [List.mem_insertionSort, List.mem_dedup]
    exact List.mem_map_of_mem he
  refine obeys_lockAll hsorted hlate ?_
  refine obeys_quiet (quiet_correlationIdOr _) (plain_correlationIdOr _) fun text => ?_
  refine obeys_plain ⟨rfl, by simp⟩ rfl fun reversal _ => obeys_ofExcept fun mirrored hm => ?_
  refine obeys_post _ rfl (claimsInTurn_of_held fun a ha => ?_) ?_
  · obtain ⟨line, hline, rfl⟩ := List.mem_map.1 ha
    obtain ⟨e, he, hmirror⟩ := exists_of_mirrored (mirror_ok hm).2 hline
    exact List.mem_map_of_mem (hmirror.account ▸ hids e he)
  refine obeys_plain ⟨rfl, by simp⟩ rfl fun _ _ => obeys_snapshotAll (fun a ha => ?_) fun _ => ?_
  · obtain ⟨e, he, rfl⟩ := List.mem_map.1 (List.mem_dedup.1 ha)
    exact List.mem_append_left _ (List.mem_map_of_mem (hids e he))
  · exact obeys_commit fun _ => trivial

theorem plain_createAccount (ownerId currency : String) :
    (AccountService.create ownerId currency).All Request.Plain := by
  refine Program.All.attempt ?_ fun e => ?_
  · exact (all_ask ⟨rfl, by simp⟩).bind fun _ => (all_ask ⟨rfl, by simp⟩).bind fun _ => trivial
  · split
    · exact (all_ask ⟨rfl, by simp⟩).bind fun _ => trivial
    · trivial

theorem plain_initiateDeposit (accountId : Id) (amount : Decimal) (provider : String)
    (context : DepositContext) (correlationId : Option String) :
    (DepositService.initiate cfg accountId amount provider context correlationId).All
      Request.Plain := by
  refine ((all_ask ⟨rfl, by simp⟩).bind fun _ => all_ofOption _ _).bind fun account => ?_
  refine (Program.all_ofExcept _).bind fun money => (all_raiseIf _ _).bind fun _ => ?_
  refine (plain_correlationIdOr _).bind fun _ => (all_ask ⟨rfl, by simp⟩).bind fun txn => ?_
  refine (Program.all_ofExcept _).bind fun _ => (Program.all_ofExcept _).bind fun _ => ?_
  exact (all_ask ⟨rfl, by simp⟩).bind fun _ => (all_ask ⟨rfl, by simp⟩).bind fun _ => trivial

theorem plain_fail (transactionId : Id) :
    (TransferService.fail cfg transactionId).All Request.Plain := by
  refine (plain_pendingTransaction _).bind fun txn => (all_ask ⟨rfl, by simp⟩).bind fun _ => ?_
  refine (Program.All.forEach fun _ _ => all_ask ⟨rfl, by simp⟩).bind fun _ => ?_
  refine (all_ask ⟨rfl, by simp⟩).bind fun _ => (all_ask ⟨rfl, by simp⟩).bind fun _ => ?_
  exact (plain_reloadTransaction _).bind fun _ => (plain_publish _).bind fun _ => trivial

/-- Every operation asks for its locks in order. -/
theorem Operation.obeys (op : Operation) : Obeys rank late op (op.program cfg) [] := by
  cases op with
  | createAccount ownerId currency => exact obeys_of_all (all_map (plain_createAccount _ _) _)
  | initiateDeposit accountId amount provider context correlationId =>
    exact obeys_of_all (all_map (plain_initiateDeposit _ _ _ _ _) _)
  | settle reference confirmedAmount confirmedCurrency => exact obeys_map settle_obeys
  | execute senderId receiverId amount correlationId => exact obeys_map execute_obeys
  | initiate senderId receiverId amount correlationId => exact obeys_map initiate_obeys
  | commit transactionId => exact obeys_map commit_obeys
  | fail transactionId => exact obeys_of_all (all_map (plain_fail _) _)
  | executeFxTransfer rates senderId receiverId amount correlationId =>
    exact obeys_map executeFxTransfer_obeys
  | reverse transactionId correlationId => exact obeys_map reverse_obeys

end operations

end WalletLedger
