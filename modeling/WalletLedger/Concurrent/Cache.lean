import WalletLedger.Concurrent.Invalidation

/-!
# Cached balances, read and dropped at the same time

* `wp_get`, `wp_execute`, `wp_settle` — the sessions, one by one.
* `caches_settle` — once all have finished, the cache is right; `stale_after_all` is a run in
  which a reader stores too late.
-/

namespace WalletLedger

variable {ι : Type} {cfg : Config}

/-! ## The sessions -/

section sessions

variable {x : Shared ι × History ι} {i : ι} {N : List Id} {calls : ι → BalanceCall} {b₀ : Books}

theorem all_within_ensureFunds (sender : Account) (money : Money) :
    (TransferService.ensureFunds sender money).All (Request.Within N) := by
  refine Program.All.bind (Program.All.bind ?_ fun _ => ?_) fun _ => Program.all_ofExcept _
  · exact (all_ask trivial).bind fun _ => (all_ask trivial).bind fun _ => Program.all_ofExcept _
  · exact (all_ask trivial).bind fun _ => Program.all_ofExcept _

theorem all_within_correlationIdOr (correlationId : Option String) :
    (correlationIdOr correlationId).All (Request.Within N) := by
  have draw : (Id.text <$> ask .uuid4).All (Request.Within N) := all_map (all_ask trivial) _
  unfold correlationIdOr
  split
  · split
    · exact draw
    · trivial
  · exact draw

theorem all_within_post {transaction : TransactionAggregate} {id : Id}
    (h : ∀ line ∈ transaction.lines, line.accountId ∈ N) :
    (LedgerService.post transaction id).All (Request.Within N) :=
  (Program.all_ofExcept _).bind fun _ => Program.All.forEach fun line hl => all_ask (h line hl)

theorem all_within_maybeSnapshot {account : Account} (h : account.id ∈ N) :
    (LedgerService.maybeSnapshot cfg account).All (Request.Within N) := by
  refine (all_ask trivial).bind fun snapshot => (all_ask trivial).bind fun entries => ?_
  split
  · trivial
  · exact (all_ofOption _ _).bind fun _ => all_ask h

variable [DecidableEq ι]

/-- A transfer drops the balances of both its accounts. -/
theorem wp_execute {senderId receiverId : Id} {amount : Decimal} {correlationId : Option String}
    (hr : x.1.Ready [] [] [] i) :
    Minds cfg calls b₀ i (TransferService.execute cfg senderId receiverId amount correlationId)
      x := by
  unfold TransferService.execute
  refine minds_lock hr fun sender x₁ h₁ => minds_get h₁ fun receiver x₂ h₂ => ?_
  have hN : ∀ a ∈ ([] : List Id), a ∈ [sender.id, receiver.id] := by simp
  refine minds_quiet (quiet_validate _ _ _) (Bookkeeping.validate _ _ _) (h₂.mono hN)
    fun money x₃ h₃ => ?_
  refine minds_quiet (quiet_ensureFunds _ _) (all_within_ensureFunds _ _) h₃ fun _ x₄ h₄ => ?_
  refine minds_quiet (quiet_correlationIdOr _) (all_within_correlationIdOr _) h₄
    fun text x₅ h₅ => ?_
  refine minds_insertTransaction h₅ fun t x₆ h₆ => ?_
  refine minds_quiet (quiet_post _ _) (all_within_post ?_) h₆ fun _ x₇ h₇ => ?_
  · simp [TransactionAggregate.debit, TransactionAggregate.credit, TransactionAggregate.record,
      TransactionAggregate.new]
  refine minds_quiet (quiet_maybeSnapshot _) (all_within_maybeSnapshot (by simp)) h₇
    fun _ x₈ h₈ => ?_
  refine minds_quiet (quiet_maybeSnapshot _) (all_within_maybeSnapshot (by simp)) h₈
    fun _ x₉ h₉ => ?_
  refine minds_commit h₉ fun y₁ p₁ => ?_
  unfold TransferService.publish
  refine minds_reloadTransaction (by simp) p₁ fun t' y₂ p₂ => ?_
  refine minds_reloadAccount (a := sender) (by simp) p₂ fun sender' y₃ hs p₃ => ?_
  refine minds_reloadAccount (a := receiver) (by simp) p₃ fun receiver' y₄ hr' p₄ => ?_
  refine minds_publish (.inl rfl) p₄.toOwing fun y₅ D hD p₅ => minds_ret (p₅.settled fun a ha => ?_)
  left
  rcases List.mem_cons.1 ha with rfl | ha
  · exact hs ▸ hD sender'.id (by simp)
  · rw [List.mem_singleton.1 ha]
    exact hr' ▸ hD receiver'.id (by simp)

/-- A settled deposit drops the balance of its account; the clearing account is internal. -/
theorem wp_settle {reference : String} {confirmedAmount : Option Decimal}
    {confirmedCurrency : Option String} (hr : x.1.Ready [] [] [] i) :
    Minds cfg calls b₀ i (DepositService.settle cfg reference confirmedAmount confirmedCurrency)
      x := by
  unfold DepositService.settle DepositService.settleFound
  refine minds_select hr fun x₁ h₁ => minds_ofOption h₁.settled fun t ht => ?_
  have h₂ : x₁.1.Ready [] [] [t.id] i := by
    refine { h₁ with transactions := fun id hid => ⟨t, List.mem_of_find?_eq_some ht, ?_⟩ }
    exact (List.mem_singleton.1 hid).symm
  refine minds_quiet (quiet_raiseIf _ _) (all_raiseIf _ _) h₂ fun _ x₃ h₃ => ?_
  refine minds_quiet (quiet_ofExcept _) (Program.all_ofExcept _) h₃ fun authorized x₄ h₄ => ?_
  refine minds_quiet (quiet_ofExcept _) (Program.all_ofExcept _) h₄ fun _ x₅ h₅ => ?_
  refine minds_quiet (quiet_ofExcept _) (Program.all_ofExcept _) h₅ fun accountId x₆ h₆ => ?_
  refine minds_lock h₆ fun account x₇ h₇ => ?_
  refine minds_getOrCreateInternal (.inl rfl) h₇ fun clearing x₈ hinternal h₈ => ?_
  have hN : ∀ a ∈ ([] : List Id), a ∈ [account.id, clearing.id] := by simp
  refine minds_quiet (quiet_post _ _) (all_within_post ?_) (h₈.mono hN) fun _ x₉ h₉ => ?_
  · simp [TransactionAggregate.debit, TransactionAggregate.credit, TransactionAggregate.record,
      TransactionAggregate.new]
  refine minds_quiet (quiet_mutate _) (all_ask trivial) h₉ fun _ y₁ h₁₀ => ?_
  refine minds_quiet (quiet_maybeSnapshot _) (all_within_maybeSnapshot (by simp)) h₁₀
    fun _ y₂ h₁₁ => ?_
  refine minds_quiet (quiet_maybeSnapshot _) (all_within_maybeSnapshot (by simp)) h₁₁
    fun _ y₃ h₁₂ => ?_
  refine minds_commit h₁₂ fun y₄ p₁ => ?_
  refine minds_reloadTransaction (by simp) p₁ fun t' y₅ p₂ => ?_
  refine minds_reloadAccount (a := account) (by simp) p₂ fun account' y₆ ha' p₃ => ?_
  refine minds_publish (.inr rfl) p₃.toOwing fun y₇ D hD p₄ => minds_ret (p₄.settled fun a ha => ?_)
  rcases List.mem_cons.1 ha with rfl | ha
  · exact .inl (ha' ▸ hD account'.id (by simp))
  · rw [List.mem_singleton.1 ha]
    exact .inr ⟨clearing, by simp, rfl, hinternal⟩

/-- A session that reads has committed, written and stored nothing. -/
structure Shared.Reads (s : Shared ι) (i : ι) : Prop where
  commits : ∀ ws, (i, ws) ∉ s.commits
  writes : (s.sessions i).writes = []
  store : ∀ a v, .cacheSet a v ∉ s.asked i

omit [DecidableEq ι] in
theorem Shared.Reads.settled {s : Shared ι} (h : s.Reads i) : s.Settled i := by
  rintro a ⟨⟨z, hz, rfl, -⟩, -⟩
  exact absurd hz (h.commits z.2)

omit [DecidableEq ι] in
theorem Undisturbed.reads {y : Shared ι × History ι} (h : Undisturbed calls i x y)
    (hr : x.1.Reads i) : y.1.Reads i :=
  ⟨fun ws hws => hr.commits ws (h.commits ws hws), h.frame.session ▸ hr.writes,
    h.frame.asked ▸ hr.store⟩

/-- A request of a reader before it stores anything. -/
theorem Shared.Reads.after {s : Shared ι} {r : Request} (h : s.Reads i)
    (hr : (∃ q, r = .select q) ∨ ∃ a, r = .cacheGet a) : (s.after cfg i r).Reads i := by
  have hne : r ≠ .commit := by rcases hr with ⟨q, rfl⟩ | ⟨a, rfl⟩ <;> simp
  have hsession : (s.after cfg i r).sessions i = s.sessions i := by
    rw [Shared.after_self]
    rcases hr with ⟨q, rfl⟩ | ⟨a, rfl⟩
    · rw [Conn.exec_select]
      split <;> rfl
    · rfl
  refine ⟨?_, by rw [hsession, h.writes], fun a v => ?_⟩
  · rw [Shared.after_commits hne]
    exact h.commits
  · rw [Shared.after_asked, List.mem_append, List.mem_singleton]
    rintro (hmem | rfl)
    · exact h.store a v hmem
    · simp at hr

theorem minds_read {α : Type} {r : Request} {k : r.Answer → App α} (hr : x.1.Reads i)
    (hread : (∃ q, r = .select q) ∨ ∃ a, r = .cacheGet a)
    (h : ∀ y, Undisturbed calls i x y → y.1.Reads i →
      Minds cfg calls b₀ i (k (Conn.exec cfg r (y.1.conn i)).1)
        (y.1.after cfg i r, y.2 ++ [(i, r)])) :
    Minds cfg calls b₀ i (.call r k : App α) x := by
  refine wp_request fun y hrely _ => ⟨⟨?_, ?_, ?_⟩, h y hrely (hrely.reads hr)⟩
  · rintro rfl
    simp at hread
  · rintro a v rfl
    simp at hread
  · rintro ownerId currency rfl
    simp at hread

/-- Who reads drops nothing. -/
theorem Covered.select {q : Query} {a : Id} (h : Covered i a x) :
    Covered i a (x.1.after cfg i (.select q), x.2 ++ [(i, .select q)]) := by
  obtain ⟨k, howes, hbefore⟩ := h
  exact ⟨k, howes.after (by simp), hbefore.mono (List.prefix_append _ _)⟩

omit [DecidableEq ι] in
/-- A session that has written nothing sees the committed rows. -/
theorem Shared.Reads.view {s : Shared ι} (h : s.Reads i) : (s.conn i).view = s.store.db := by
  show replay (s.sessions i).writes s.store.db = _
  rw [h.writes]
  rfl

/-- A query of a reader, answered from the committed rows. -/
theorem minds_query {α : Type} {q : Query} {f : q.Result → App α} (hr : x.1.Reads i)
    (h : ∀ y, Undisturbed calls i x y → (y.1.after cfg i (.select q)).Reads i →
      Minds cfg calls b₀ i (f (q.eval y.1.store.db))
        (y.1.after cfg i (.select q), y.2 ++ [(i, .select q)])) :
    Minds cfg calls b₀ i (ask (.select q) >>= f) x := by
  refine minds_read hr (.inl ⟨q, rfl⟩) fun y hrely hy => ?_
  have hafter : (y.1.after cfg i (.select q)).Reads i := hy.after (.inl ⟨q, rfl⟩)
  cases hv : (Conn.exec cfg (.select q) (y.1.conn i)).1 with
  | error e => exact minds_raise hafter.settled
  | ok v =>
    obtain ⟨-, rfl, -⟩ := Conn.exec_select_ok cfg _ hv
    rw [hy.view]
    exact h y hrely hafter

/-- What has been read is stored: it is the balance of the ledger, or is still to be dropped. -/
theorem minds_store {account : Account} {made : Except Exn Money}
    (hids : (b₀.accounts.map Account.id).Nodup) (ha : account ∈ b₀.accounts) (hr : x.1.Reads i)
    (hreading : x.1.Reading calls i account.id)
    (hfresh : Covered i account.id x ∨ x.1.store.db.books.balance account = made) :
    Minds cfg calls b₀ i (Program.ofExcept made >>= fun money =>
      BalanceCache.set account.id money >>= fun _ => pure money) x := by
  cases made with
  | error e => exact minds_raise hr.settled
  | ok money =>
    refine wp_request fun y hrely _ => ⟨⟨(fun heq => by cases heq), fun a v heq => ?_,
      fun _ _ heq => by cases heq⟩, ?_⟩
    · cases heq
      intro account' ha' _ hid
      obtain rfl := eq_of_key_eq hids ha' ha hid
      have hcovered : Covered i account'.id y → y.1.store.db.books.Shows account' money.amount ∨
          ∃ j, y.1.Owes j account'.id := fun ⟨k, howes, _⟩ => .inr ⟨k, howes⟩
      rcases hfresh with hc | hbalance
      · exact hcovered (hrely.covered _ hreading hc)
      rcases hrely.reading _ hreading with hc | hsame
      · exact hcovered hc
      · exact .inl ⟨money, hsame.balance.trans hbalance, rfl⟩
    · refine minds_ret fun a ho => ?_
      have hy := hrely.reads hr
      obtain ⟨⟨z, hz, rfl, -⟩, -⟩ := ho
      rw [Shared.after_commits (by simp)] at hz
      exact absurd hz (hy.commits z.2)

/-- A balance that has been read is stored, unless it is out of date and still to be dropped. -/
theorem wp_get {account : Account} (hcall : calls i = .get account)
    (hids : (b₀.accounts.map Account.id).Nodup) (ha : account ∈ b₀.accounts)
    (hr : x.1.Reads i) : Minds cfg calls b₀ i (BalanceQuery.get account) x := by
  unfold BalanceQuery.get BalanceCache.get
  rw [bind_assoc]
  refine minds_read hr (.inr ⟨_, rfl⟩) fun y₁ _ hr₁ => ?_
  have hr₂ : (y₁.1.after cfg i (.cacheGet account.id)).Reads i := hr₁.after (.inr ⟨_, rfl⟩)
  have hraw : (Conn.exec cfg (.cacheGet account.id) (y₁.1.conn i)).1 =
      .ok (y₁.1.store.cache.lookup account.id) := rfl
  rw [hraw]
  cases y₁.1.store.cache.lookup account.id with
  | some amount =>
    show Minds cfg calls b₀ i
      ((some <$> Program.ofExcept (Money.make amount account.currency)) >>= _) _
    cases Money.make amount account.currency with
    | error e => exact minds_raise hr₂.settled
    | ok m => exact minds_ret hr₂.settled
  | none =>
    show Minds cfg calls b₀ i (LedgerService.balance account >>= fun money =>
      BalanceCache.set account.id money >>= fun _ => pure money) _
    unfold LedgerService.balance LedgerService.latestSnapshot LedgerService.sum
    simp only [bind_assoc]
    -- the snapshot
    refine minds_query hr₂ fun y₂ _ hr₃ => ?_
    have hreading : (y₂.1.after cfg i (.select (.latestSnapshot account.id))).Reading calls i
        account.id := by
      refine ⟨⟨account, hcall, rfl⟩, ?_, hr₃.store account.id⟩
      rw [Shared.after_asked]
      exact List.mem_append_right _ (List.mem_singleton_self _)
    -- the entries beyond it: a commit in between may have changed what the balance is
    refine minds_query hr₃ fun y₃ hrely₃ hr₄ => ?_
    have hbetween := hrely₃.reading account.id hreading
    rw [Shared.after_db (by simp)] at hbetween
    refine minds_store hids ha hr₄ ⟨hreading.1, ?_, hr₄.store account.id⟩ ?_
    · rw [Shared.after_asked]
      exact List.mem_append_left _ (hrely₃.frame.asked ▸ hreading.2.1)
    rcases hbetween with hc | hsame
    · exact .inl hc.select
    · refine .inr ?_
      rw [Shared.after_db (by simp), Books.balance, hsame.snapshot]
      rfl

end sessions

/-! ## All together -/

section theorems

variable [DecidableEq ι] {b₀ : Books} {s₀ : Store} {calls : ι → BalanceCall}

theorem tidy_finish {calls : ι → BalanceCall} {x : Shared ι × History ι} {i : ι}
    (h : Tidy b₀ x) : (keptTidy calls b₀).Keeps i x (x.1.finish i, x.2) := by
  have howes : ∀ {j a}, (x.1.finish i).Owes j a ↔ x.1.Owes j a := Iff.rfl
  refine ⟨⟨h.history, ⟨fun a ha => h.distinct.lt a (Shared.known_finish ha), fun a a' ha ha' =>
    h.distinct.inj a a' (Shared.known_finish ha) (Shared.known_finish ha')⟩,
    fun a ha => h.customers a (Shared.known_finish ha), h.cached⟩, fun j hj => ?_⟩
  exact ⟨Shared.finish_frame hj, List.prefix_rfl, fun _ hws => hws, fun _ ha => ha,
    fun t ht => ⟨t, ht, rfl⟩, fun _ _ hc => hc, fun a _ => .inr (.refl a _)⟩

/-- **Cached balances.**  Whatever balance reads, transfers and settlements run at the same time,
if every balance that was read before a commit is stored before it is dropped, then once all have
finished what is cached of a customer is the balance of the ledger. -/
theorem caches_settle (hk : s₀.db.books.Keyed s₀.seqs)
    (hcache : ∀ account ∈ s₀.db.books.accounts, ¬ account.IsInternal → ∀ v,
      s₀.cache.lookup account.id = some v → s₀.db.books.Shows account v)
    (hcalls : ∀ i account, calls i = .get account → account ∈ s₀.db.books.accounts)
    {w : World ι Request Request.Answer Exn Unit (Shared ι × History ι)}
    (h : Reaches (machine ι cfg).logged (InTime calls)
      (World.start (Shared.start s₀, []) fun i => (calls i).program cfg) w)
    (hq : w.Quiescent) :
    ∀ account ∈ w.shared.1.store.db.books.accounts, ¬ account.IsInternal → ∀ v,
      w.shared.1.store.cache.lookup account.id = some v →
        w.shared.1.store.db.books.Shows account v := by
  have hknown : ∀ a, (Shared.start s₀ : Shared ι).Known a → a ∈ s₀.db.books.accounts := by
    rintro a (ha | ⟨i, ha⟩)
    · exact ha
    · cases ha
  have hstart : Tidy s₀.db.books ((Shared.start s₀, []) : Shared ι × History ι) := by
    refine ⟨fun i r => by simp [Shared.start], ⟨fun a ha => ?_, fun a a' ha ha' hid => ?_⟩,
      fun a ha _ => hknown a ha, fun account ha hc v hv => .inl (hcache account ha hc v hv)⟩
    · exact hk.accountIds_lt a (hknown a ha)
    · exact eq_of_key_eq hk.accountIds (hknown a ha) (hknown a' ha') hid
  have hready : ∀ i, (Shared.start s₀ : Shared ι).Ready [] [] [] i := fun i =>
    ⟨by simp [Shared.start], by simp [Shared.start], by simp [Shared.start],
      by simp [Shared.start, Session.fresh], by simp, by simp⟩
  have hcall : ∀ i, Minds cfg calls s₀.db.books i ((calls i).program cfg)
      (Shared.start s₀, []) := by
    intro i
    cases hi : calls i with
    | get account =>
      refine minds_map (wp_get hi hk.accountIds (hcalls i account hi) ⟨?_, rfl, ?_⟩)
      · simp [Shared.start]
      · simp [Shared.start]
    | execute senderId receiverId amount correlationId => exact minds_map (wp_execute (hready i))
    | settle reference confirmedAmount confirmedCurrency => exact minds_map (wp_settle (hready i))
  have hstable : ∀ (i : ι) (_ : Except Exn Unit),
      (keptTidy calls s₀.db.books).Stable i fun x => x.1.Settled i :=
    fun _ _ _ _ hrely _ hs => Undisturbed.settled hrely hs
  obtain ⟨htidy, hsettled⟩ := h.sound (D := keptTidy calls s₀.db.books)
    (R := fun i _ x => x.1.Settled i) (fun i o x hinv hs => ⟨tidy_finish hinv, hs⟩) hstable
    (by exact hstart) (by exact hcall)
  intro account ha hc v hv
  rcases htidy.cached account (htidy.customers account (.inl ha) hc) hc v hv with hshows | ⟨i, ho⟩
  · exact hshows
  · -- whoever still had to drop it has finished
    have hi := hsettled i
    cases hT : w.tasks i with
    | running p =>
      have hnone := hq i
      rw [hT] at hnone
      cases hnone
    | finished o =>
      rw [hT] at hi
      obtain ⟨x, hx, hid, hinternal⟩ := hi account.id ho
      obtain rfl := htidy.distinct.inj x account (.inl hx) (.inl ha) hid
      exact absurd hinternal hc

/-- Alice has 100. -/
def funded : Store :=
  runAll (offlineConfig 1000) [.createAccount "alice" "EUR", .createAccount "bob" "EUR",
    .initiateDeposit 0 100 "card" ⟨none, none⟩ (some "c1"), .settle "2" none none] Store.empty

/-- Her balance is read while she sends 30 to Bob. -/
def readAndSend : Fin 2 → BalanceCall
  | 0 => .get ⟨0, "2000000000", "alice", "EUR"⟩
  | 1 => .execute 0 1 30 (some "c2")

/-- The two calls at their beginning. -/
def reading {S : Type} (s : S) : World (Fin 2) Request Request.Answer Exn Unit S :=
  World.start s fun i => (readAndSend i).program (offlineConfig 1000)

/-- The balance is read before the transfer, and stored when the transfer has dropped it:
100 stays in the cache, and Alice has 70. -/
theorem stale_after_all :
    ∃ w, Reaches (machine (Fin 2) (offlineConfig 1000)) anyTurn (reading (Shared.start funded)) w ∧
      w.Quiescent ∧ ∃ account ∈ w.shared.store.db.books.accounts, ¬ account.IsInternal ∧
        w.shared.store.cache.lookup account.id = some 100 ∧
        (w.shared.store.db.books.balance account).map Money.amount = .ok 70 :=
  exists_reaches ([0, 0, 0] ++ List.replicate 21 1 ++ [0, 0]) (by decide +kernel)

/-- The balance is stored before the transfer drops it; the history is of a run of the machine
without. -/
theorem caches_settle_in_time :
    ∃ w, Reaches (machine (Fin 2) (offlineConfig 1000)).logged (InTime readAndSend)
        (reading (Shared.start funded, [])) w ∧
      Reaches (machine (Fin 2) (offlineConfig 1000)) anyTurn (reading (Shared.start funded))
        w.forget ∧
      w.Quiescent ∧ w.shared.1.store.cache.lookup 0 = none ∧
      ∀ account ∈ w.shared.1.store.db.books.accounts, ¬ account.IsInternal → ∀ v,
        w.shared.1.store.cache.lookup account.id = some v →
          w.shared.1.store.db.books.Shows account v := by
  obtain ⟨w, hw, hq, hnone⟩ : ∃ w, Reaches (machine (Fin 2) (offlineConfig 1000)).logged
      (InTime readAndSend) (reading (Shared.start funded, [])) w ∧ w.Quiescent ∧
      w.shared.1.store.cache.lookup 0 = none :=
    exists_reaches ([0, 0, 0] ++ List.replicate 14 1 ++ [0] ++ List.replicate 7 1 ++ [0])
      (by decide +kernel)
  have hs : funded.Sound := sound_of_run (Run.foldl _)
  have hempty : funded.cache = [] := by decide +kernel
  refine ⟨w, hw, hw.forget, hq, hnone, ?_⟩
  refine caches_settle hs.keyed (by simp [hempty]) (fun i account hcall => ?_) hw hq
  match i with
  | 0 => cases hcall; decide +kernel
  | 1 => cases hcall

end theorems

end WalletLedger
