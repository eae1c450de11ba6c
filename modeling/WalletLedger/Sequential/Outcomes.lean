import WalletLedger.Operations.Surface
import WalletLedger.Sequential.Crashes
import WalletLedger.Sequential.Notifications

/-!
# What a client is told

A request to a decorated endpoint that answers with an error has moved nothing, and one that
answers with a success has been carried out, now or by the request it repeats.

* `publish_alive` — what follows a commit does not lose the session.
* `Finished` — what becomes of a service: it raises and leaves the books alone, or it returns a
  transaction that is there, on a session that still answers.
* `view_finished` — so do the views.
* `Store.Attended` — what is stored between two processes, killed or not.
* `answered_truly` — the result.
-/

namespace WalletLedger

variable {cfg : Config} {web : Web} {pay : Payments} {b b' : Books} {c d : Conn} {s : Store}
  {C : Entry × ℕ → Store → Prop} {trail : List Notification}

/-! ## Sessions after a commit -/

section events

variable {event : DomainEvent}

/-- Dropping cached balances leaves the session alone. -/
theorem invalidateBalances_alive (cfg : Config) (event : DomainEvent)
    (halive : c.session.failed = false) :
    (runOn cfg (invalidateBalances event) c).2.session.failed = false := by
  have hcache : (invalidateBalances event).All fun r => ∃ a, r = .cacheDelete a :=
    Program.All.forEach fun a _ => Program.All.attempt (all_ask ⟨a, rfl⟩) fun _ => trivial
  have hkept : (invalidateBalances event).Throughout (Conn.exec cfg)
      (fun d => d.session.failed = false) c := by
    refine Program.Throughout.of_all (fun r d hr hd => ?_) hcache halive
    obtain ⟨a, rfl⟩ := hr
    exact hd
  exact hkept.last

/-- A channel that raises leaves the session as it is. -/
theorem channels_alive {channels : List NotificationChannel} {recipient message : String}
    (hnames : ∀ channel ∈ channels, fitsIn 10 channel.name = true)
    (hrecipient : fitsIn 255 recipient = true)
    (hcorr : event.correlationId.all (fitsIn 36) = true) (halive : c.session.failed = false) :
    Ends cfg (Program.forEach channels fun channel => do
        let sent ← Program.ofExcept (channel.send recipient message)
        ask (.mutate (.insertNotification channel.name recipient message event.eventType.name
          (if sent then "SENT" else "FAILED") event.correlationId))) c
      fun _ d => d.session.failed = false := by
  induction channels generalizing c with
  | nil => exact halive
  | cons channel channels ih =>
    rw [Program.forEach, bind_assoc]
    cases hsend : channel.send recipient message with
    | error e => exact ends_raises rfl halive
    | ok sent =>
      have hstatus : fitsIn 10 (if sent then "SENT" else "FAILED") = true := by
        cases sent <;> rfl
      refine ends_ofExcept rfl (ends_insertNotification halive (fun _ => ?_) fun hnot => ?_)
      · exact ih (fun x hx => hnames x (List.mem_cons_of_mem _ hx)) rfl
      · exact absurd ⟨hnames channel List.mem_cons_self, hrecipient, event.eventType.fits_name,
          hstatus, hcorr⟩ hnot

/-- Telling the owner of an account leaves a session that answers. -/
theorem notify_alive (ho : c.Open b b) (hl : b.Labelled) {a : Account} (ha : a ∈ b.accounts)
    {message : String} (hcorr : event.correlationId.all (fitsIn 36) = true)
    (hnamed : cfg.Named) :
    Ends cfg (NotificationService.notify cfg a.id message event) c
      fun _ d => d.session.failed = false := by
  have hrecipient : fitsIn 255 a.ownerId = true := by
    have howner := hl.owners a ha
    unfold fitsIn at howner ⊢
    rw [decide_eq_true_eq] at howner ⊢
    omega
  unfold NotificationService.notify
  refine ends_recipientFor ho ha (ends_bind ?_)
  refine ends_mono (channels_alive hnamed hrecipient hcorr ho.alive) fun o d hd => ?_
  cases o with
  | error e => exact hd
  | ok u =>
    rw [← Program.bind_ret (ask .commit)]
    exact ends_committed hd (ends_ret rfl)

/-- An event without an addressee makes the notification service do nothing. -/
theorem subscribers_untold (cfg : Config) (h : event.addressee = none)
    {handler : DomainEvent → App Unit} (hmem : handler ∈ subscribers cfg event.eventType) :
    handler = invalidateBalances ∨ ∀ c, (runOn cfg (handler event) c).2 = c := by
  unfold DomainEvent.addressee at h
  cases heventType : event.eventType <;> rw [heventType] at h hmem <;>
    simp only [subscribers, List.mem_cons, List.not_mem_nil, or_false] at hmem
  · exact .inl hmem
  · refine hmem.symm.imp_right ?_
    rintro rfl c
    unfold NotificationService.onTransferCompleted
    cases hamount : event.payload.amount
    · rfl
    cases hcurrency : event.payload.currency
    · rfl
    rw [hamount, hcurrency] at h
    rw [show event.payload.senderId = none from h]
    rfl
  · refine hmem.symm.imp_right ?_
    rintro rfl c
    unfold NotificationService.onTransferFailed NotificationService.notifyTransactionParty
    rw [show event.payload.senderId.or event.payload.accountId = none from h]
    rfl
  · refine hmem.symm.imp_right ?_
    rintro rfl c
    unfold NotificationService.onDepositCompleted
    cases hamount : event.payload.amount
    · rfl
    cases hcurrency : event.payload.currency
    · rfl
    rw [hamount, hcurrency] at h
    rw [show event.payload.accountId = none from h]
    rfl

/-- The bus goes on after a handler that raises. -/
theorem attempted_alive {p : App Unit} (h : (runOn cfg p c).2.session.failed = false) :
    (runOn cfg (p.attempt fun _ => .ret ()) c).2.session.failed = false := by
  rw [runOn, Program.run_attempt]
  rw [runOn] at h
  cases hrun : Program.run (Conn.exec cfg) p c with
  | mk o d =>
    rw [hrun] at h
    cases o <;> exact h

/-- Handlers that leave any session answering. -/
theorem handlers_alive {handlers : List (DomainEvent → App Unit)}
    (h : ∀ handler ∈ handlers, ∀ c : Conn, c.session.failed = false →
      (runOn cfg (handler event) c).2.session.failed = false) (halive : c.session.failed = false) :
    (runOn cfg (Program.forEach handlers fun handler =>
      (handler event).attempt fun _ => .ret ()) c).2.session.failed = false := by
  induction handlers generalizing c with
  | nil => exact halive
  | cons handler handlers ih =>
    have hfirst := attempted_alive (h handler List.mem_cons_self c halive)
    exact Program.run_bind_keeps (Conn.exec cfg) (I := fun d => d.session.failed = false) hfirst
      fun _ _ hd => ih (fun x hx => h x (List.mem_cons_of_mem _ hx)) hd

/-- So does an event that names an account that is there, or none. -/
theorem publish_alive (ho : c.Open b b) (hl : b.Labelled)
    (hevent : ∀ accountId, event.addressee = some accountId → ∃ a ∈ b.accounts, a.id = accountId)
    (hcorr : event.correlationId.all (fitsIn 36) = true) (hnamed : cfg.Named) :
    (runOn cfg (EventBus.publish (subscribers cfg) event) c).2.session.failed = false := by
  have hinvalidate : ∀ d : Conn, d.session.failed = false →
      (runOn cfg (invalidateBalances event) d).2.session.failed = false :=
    fun _ => invalidateBalances_alive cfg event
  unfold EventBus.publish
  cases haddressee : event.addressee with
  | some accountId =>
    obtain ⟨handler, message, hlist, hhandler⟩ := subscribers_addressed cfg haddressee
    obtain ⟨a, ha, rfl⟩ := hevent accountId haddressee
    have hfirst : (runOn cfg (handler event) c).2.session.failed = false := by
      rw [hhandler]
      exact notify_alive ho hl ha hcorr hnamed
    rw [hlist]
    refine Program.run_bind_keeps (Conn.exec cfg) (I := fun d => d.session.failed = false)
      (attempted_alive hfirst) fun _ d hd => handlers_alive (fun x hx => ?_) hd
    rw [List.mem_singleton.1 hx]
    exact hinvalidate
  | none =>
    refine handlers_alive (fun handler hmem d hd => ?_) ho.alive
    rcases subscribers_untold cfg haddressee hmem with rfl | hsame
    · exact hinvalidate d hd
    · rwa [hsame]

end events

/-! ## What becomes of a service -/

/-- A service raises and leaves the books alone, or returns a transaction that is there, on a
session that still answers. -/
inductive Finished (b : Books) : Except Exn Transaction → Conn → Prop
  | raised {e : Exn} {d : Conn} (books : d.store.db.books = b) : Finished b (.error e) d
  | returned {t : Transaction} {d : Conn} (alive : d.session.failed = false)
      (beside : d.session.Beside) (stored : ∃ x ∈ d.store.db.books.transactions, x.id = t.id) :
      Finished b (.ok t) d

theorem beside_of_idle (h : c.session.writes = []) : c.session.Beside := by
  intro w hw
  rw [h] at hw
  cases hw

/-- What follows the event of an operation finds a session that answers. -/
theorem Operation.Told.finished {op : Operation} {o : Except Exn Transaction}
    (h : op.Told cfg b trail o d) (hl : d.store.db.books.Labelled) (hnamed : cfg.Named) :
    Finished b o d := by
  cases h with
  | raised hbooks => exact .raised hbooks
  | @announced b' t event c noted idle announces =>
    have hbooks : (runOn cfg (EventBus.publish (subscribers cfg) event) c).2.store.db.books = b' :=
      publish_books noted.toOpen idle event
    rw [hbooks] at hl
    have hcorr := hl.correlations t announces.transaction
    rw [← announces.correlation] at hcorr
    refine .returned (publish_alive noted.toOpen hl (fun accountId haddressee => ?_) hcorr hnamed)
      ((harmless_publish event).beside cfg (beside_of_idle idle)) ⟨t, ?_, rfl⟩
    · cases htells : op.tells with
      | true =>
        obtain ⟨a, ha, hto, -⟩ := announces.reaches htells
        exact ⟨a, ha, Option.some.inj (hto.symm.trans haddressee)⟩
      | false =>
        rw [announces.misses htells] at haddressee
        cases haddressee
    · rw [hbooks]
      exact announces.transaction

/-- Nothing but the result follows the commit. -/
theorem ends_commitReturn {t : Transaction} {b₀ : Books} (ho : c.Open b₀ b)
    (ht : ∃ x ∈ b.transactions, x.id = t.id) :
    Ends cfg (ask .commit >>= fun _ => .ret t) c (Finished b₀) := by
  refine ends_commit ho fun d hd hw => ends_ret (.returned hd.alive (beside_of_idle hw) ?_)
  rw [hd.committed]
  exact ht

/-- A step of a service before its commit. -/
theorem ends_before {α : Type} {b₀ : Books} {p : App α} {f : α → App Transaction} (hp : Quiet p)
    (ho : c.Open b₀ b)
    (h : ∀ (a : α) (b' : Books) (d : Conn), Returns cfg p b a b' → d.Open b₀ b' →
      Ends cfg (f a) d (Finished b₀)) : Ends cfg (p >>= f) c (Finished b₀) :=
  ends_quiet hp ho h fun _ _ => .raised

theorem initiateDeposit_finished {accountId : Id} {amount : Decimal} {provider : String}
    {context : DepositContext} {correlationId : Option String} (ho : c.Open b b) :
    Ends cfg (DepositService.initiate cfg accountId amount provider context correlationId) c
      (Finished b) := by
  unfold DepositService.initiate
  refine ends_before (quiet_get _) ho fun account b₁ c₁ h₁ ho₁ => ?_
  obtain ⟨rfl, -, -⟩ := get_ok h₁
  refine ends_before (quiet_ofExcept _) ho₁ fun money b₂ c₂ h₂ ho₂ => ?_
  obtain ⟨rfl, -⟩ := returns_ofExcept h₂
  refine ends_before (quiet_raiseIf _ _) ho₂ fun _ b₃ c₃ h₃ ho₃ => ?_
  obtain ⟨rfl, -⟩ := returns_raiseIf h₃
  refine ends_before (quiet_correlationIdOr _) ho₃ fun corr b₄ c₄ h₄ ho₄ => ?_
  obtain rfl := correlationIdOr_ok h₄
  refine ends_before (quiet_mutate _) ho₄ fun t b₅ c₅ h₅ ho₅ => ?_
  obtain ⟨-, rfl⟩ := insertTransaction_ok money.amount_mem_grid h₅
  refine ends_before (quiet_ofExcept _) ho₅ fun prov b₆ c₆ h₆ ho₆ => ?_
  obtain ⟨rfl, -⟩ := returns_ofExcept h₆
  refine ends_before (quiet_ofExcept _) ho₆ fun reference b₇ c₇ h₇ ho₇ => ?_
  obtain ⟨rfl, -⟩ := returns_ofExcept h₇
  refine ends_before (quiet_mutate _) ho₇ fun _ b₈ c₈ h₈ ho₈ => ?_
  obtain ⟨seqs, db, w, -, hm, rfl⟩ := returns_mutate h₈
  obtain rfl := Mutation.exec_updateReference hm
  refine ends_commitReturn ho₈ ⟨_, mem_modify.2 ⟨t, ?_, rfl⟩, by split <;> rfl⟩
  exact List.mem_append_right _ (List.mem_singleton_self t)

theorem reverse_finished {transactionId : Id} {correlationId : Option String} (ho : c.Open b b)
    (hgrid : ∀ t ∈ b.transactions, t.amount ∈ Decimal.grid 8) :
    Ends cfg (ReversalService.reverse cfg transactionId correlationId) c (Finished b) := by
  unfold ReversalService.reverse
  refine ends_before (quiet_select _) ho fun found b₁ c₁ h₁ ho₁ => ?_
  obtain ⟨rfl, keys, trail, hfound⟩ := returns_select h₁
  refine ends_before (quiet_ofOption _ _) ho₁ fun t b₂ c₂ h₂ ho₂ => ?_
  obtain ⟨rfl, ht⟩ := returns_ofOption h₂
  have hfind := hfound.symm.trans ht
  refine ends_before (quiet_raiseIf _ _) ho₂ fun _ b₃ c₃ h₃ ho₃ => ?_
  obtain ⟨rfl, -⟩ := returns_raiseIf h₃
  refine ends_before (quiet_raiseIf _ _) ho₃ fun _ b₄ c₄ h₄ ho₄ => ?_
  obtain ⟨rfl, -⟩ := returns_raiseIf h₄
  refine ends_before (quiet_select _) ho₄ fun entries b₅ c₅ h₅ ho₅ => ?_
  obtain ⟨rfl, -⟩ := returns_select h₅
  refine ends_before (quiet_lockAll _) ho₅ fun _ b₆ c₆ h₆ ho₆ => ?_
  obtain rfl := lockAll_ok h₆
  refine ends_before (quiet_correlationIdOr _) ho₆ fun corr b₇ c₇ h₇ ho₇ => ?_
  obtain rfl := correlationIdOr_ok h₇
  refine ends_before (quiet_mutate _) ho₇ fun reversal b₈ c₈ h₈ ho₈ => ?_
  obtain ⟨-, rfl⟩ := insertTransaction_ok (hgrid t (List.mem_of_find?_eq_some hfind)) h₈
  refine ends_before (quiet_ofExcept _) ho₈ fun mirrored b₉ c₉ h₉ ho₉ => ?_
  obtain ⟨rfl, hmirror⟩ := returns_ofExcept h₉
  refine ends_before (quiet_post _ _) ho₉ fun _ b₁₀ c₁₀ h₁₀ ho₁₀ => ?_
  obtain ⟨-, es, -, rfl⟩ := post_ok (mem_grid_of_mirrored (mirror_ok hmirror).2) h₁₀
  refine ends_before (quiet_mutate _) ho₁₀ fun _ b₁₁ c₁₁ h₁₁ ho₁₁ => ?_
  obtain rfl := setTransaction_ok h₁₁
  refine ends_before (quiet_snapshotAll _) ho₁₁ fun _ b₁₂ c₁₂ h₁₂ ho₁₂ => ?_
  obtain ⟨-, htransactions, -⟩ := (snapshotAll_ok h₁₂).rest
  have hmem : reversal ∈ (b₇.addTransaction reversal).transactions :=
    List.mem_append_right _ (List.mem_singleton_self reversal)
  refine ends_commitReturn ho₁₂ ?_
  rw [htransactions]
  exact ⟨_, mem_modify.2 ⟨reversal, hmem, rfl⟩, by split <;> rfl⟩

theorem finished_of_told {op : Operation} {p : App Transaction} (ho : c.Noted b b trail)
    (hl : b.Labelled) (hnamed : cfg.Named) (h : Ends cfg p c (op.Told cfg b trail)) :
    Ends cfg p c (Finished b) := by
  have hlast : (runOn cfg p c).2.store.db.books.Labelled :=
    Conn.run_invariant (I := Books.Labelled) (fun _ _ _ _ _ hl hm => hl.exec hm) p
      (ho.committed.symm ▸ hl) (ho.sees.symm ▸ hl)
  exact Operation.Told.finished h hlast hnamed

/-! ## What becomes of a view -/

/-- A view raises and leaves the books alone, or returns a success on a session that still
answers. -/
inductive Responded (b : Books) : Except Exn Response → Conn → Prop
  | refused {e : Exn} {d : Conn} (books : d.store.db.books = b) : Responded b (.error e) d
  | answered {response : Response} {d : Conn} (success : response.status ∈ [200, 201])
      (alive : d.session.failed = false) (beside : d.session.Beside) :
      Responded b (.ok response) d

section responses

variable {status : ℕ} {p : App Transaction}

/-- The transaction is there to be selected again. -/
theorem ends_reloadStored {β : Type} {Q : Except Exn β → Conn → Prop} {f : Transaction → App β}
    {id : Id} (halive : c.session.failed = false) (hbeside : c.session.Beside)
    (hstored : ∃ x ∈ c.store.db.books.transactions, x.id = id) (h : ∀ x, Ends cfg (f x) c Q) :
    Ends cfg (reloadTransaction id >>= f) c Q := by
  unfold reloadTransaction
  rw [Program.bind_assoc]
  refine ends_ask_ok (exec_select_live halive _) ?_
  cases hfound : (Query.transaction id).eval c.view with
  | none =>
    obtain ⟨x, hx, hid⟩ := hstored
    have hnone := List.find?_eq_none.1 hfound x (by rw [hbeside.view]; exact hx)
    simp [hid] at hnone
  | some x => exact ends_ofOption rfl (h x)

theorem ends_serialized (hstatus : status ∈ [200, 201]) (h : Ends cfg p c (Finished b)) :
    Ends cfg (p >>= fun txn => serializeExpired txn >>= fun body =>
      (.ret ⟨status, body⟩ : App Response)) c (Responded b) := by
  refine ends_bind (ends_mono h fun o d hd => ?_)
  cases hd with
  | raised books => exact .refused books
  | returned alive beside stored =>
    unfold serializeExpired
    simp only [Program.bind_assoc]
    exact ends_reloadStored alive beside stored fun x =>
      ends_ret (.answered hstatus alive beside)

theorem ends_returned (hstatus : status ∈ [200, 201]) (h : Ends cfg p c (Finished b)) :
    Ends cfg (p >>= fun txn => (.ret ⟨status, serializeTransaction txn⟩ : App Response)) c
      (Responded b) := by
  refine ends_bind (ends_mono h fun o d hd => ?_)
  cases hd with
  | raised books => exact .refused books
  | returned alive beside _ => exact ends_ret (.answered hstatus alive beside)

end responses

/-- What is looked up before a service is called. -/
theorem ends_lookup {α : Type} {p : App α} {f : α → App Response} (hp : Quiet p)
    (hs : p.All fun r => r.keepsTrail = true) (ho : c.Noted b b trail)
    (hsame : ∀ {a : α} {b' : Books}, Returns cfg p b a b' → b' = b)
    (h : ∀ (a : α) (d : Conn), d.Noted b b trail → Ends cfg (f a) d (Responded b)) :
    Ends cfg (p >>= f) c (Responded b) :=
  ends_silent hp hs ho (fun a _ d hreturns hd => by
    obtain rfl := hsame hreturns
    exact h a d hd) fun _ _ => .refused

theorem view_finished {s : Sequences} (web : Web) (r : HttpRequest) (ho : c.Noted b b trail)
    (hk : b.Keyed s) (hl : b.Labelled) (hnamed : cfg.Named) :
    Ends cfg (r.view cfg web) c (Responded b) := by
  have k := Bookkeeping.keepsTrail
  have told : ∀ {op : Operation} {p : App Transaction} {d : Conn}, d.Noted b b trail →
      Ends cfg p d (op.Told cfg b trail) → Ends cfg p d (Finished b) :=
    fun hd h => finished_of_told hd hl hnamed h
  have load : ∀ {α : Type} (o : Option α) {f : α → App Response},
      (∀ (a : α) (d : Conn), d.Noted b b trail → Ends cfg (f a) d (Responded b)) →
      Ends cfg (ofOption .validationError o >>= f) c (Responded b) := fun o _ h =>
    ends_lookup (quiet_ofOption _ o) (all_ofOption _ o) ho (fun h => (returns_ofOption h).1) h
  have number : ∀ (number : String) {f : Account → App Response} {d : Conn}, d.Noted b b trail →
      (∀ (a : Account) (d : Conn), d.Noted b b trail → Ends cfg (f a) d (Responded b)) →
      Ends cfg (AccountService.getByNumber number >>= f) d (Responded b) := fun n _ _ hd h =>
    ends_lookup (quiet_getByNumber n) (k.getByNumber n) hd (fun h => (numbered_of_returns h).1) h
  have pair : ∀ (data : TransferBody) {f : Id × Id → App Response} {d : Conn},
      d.Noted b b trail →
      (∀ (ids : Id × Id) (d : Conn), d.Noted b b trail → Ends cfg (f ids) d (Responded b)) →
      Ends cfg (resolvePair data >>= f) d (Responded b) := fun data _ _ hd h =>
    ends_lookup (quiet_resolvePair data)
      ((k.getByNumber _).bind fun _ => (k.getByNumber _).bind fun _ => trivial) hd
      (fun h => (resolvePair_ok h).1) h
  unfold HttpRequest.view
  cases r.endpoint with
  | executeTransfer =>
    refine load _ fun data d₁ h₁ => pair data h₁ fun ids d₂ h₂ => ?_
    exact ends_serialized (by decide) (told h₂ (execute_told h₂))
  | initiateTransfer =>
    refine load _ fun data d₁ h₁ => pair data h₁ fun ids d₂ h₂ => ?_
    exact ends_returned (by decide) (told h₂ (initiate_told h₂))
  | commitTransfer transactionId => exact ends_serialized (by decide) (told ho (commit_told ho))
  | failTransfer transactionId => exact ends_returned (by decide) (told ho (fail_told ho))
  | reverseTransaction transactionId =>
    exact ends_serialized (by decide) (reverse_finished ho.toOpen hk.transactionAmounts)
  | createDeposit =>
    refine load _ fun data d₁ h₁ => number _ h₁ fun account d₂ h₂ => ?_
    exact ends_serialized (by decide) (initiateDeposit_finished h₂.toOpen)
  | fxTransfer =>
    refine load _ fun data d₁ h₁ => number _ h₁ fun sender d₂ h₂ => ?_
    refine number _ h₂ fun receiver d₃ h₃ => ?_
    exact ends_serialized (by decide) (told h₃ (executeFxTransfer_told h₃))

/-! ## Between two processes -/

/-- Every response that is stored is a success. -/
def StoresSuccess (keys : List IdempotencyKey) : Prop :=
  ∀ k ∈ keys, ∀ body, k.responseBody = some body →
    ∃ status ∈ [200, 201], k.responseStatus = some status

theorem StoresSuccess.exec {m : Mutation} {s : Sequences} {db : Database} {v : m.Result} {w : Write}
    (h : StoresSuccess db.keys) (hm : (Request.mutate m).StoresSuccess)
    (hexec : m.exec cfg s db = .ok (v, w)) : StoresSuccess (w.apply db).keys := by
  show StoresSuccess (w.applyKeys db.keys)
  have hbeside : m.onKeys = false → StoresSuccess (w.applyKeys db.keys) := fun hm' => by
    rwa [Write.applyKeys_of_not (Mutation.touchesKeys_exec hm' hexec)]
  cases m with
  | insertKey key requestHash =>
    obtain ⟨-, -, rfl⟩ := Mutation.exec_insertKey hexec
    intro k hk body hbody
    rcases List.mem_append.1 hk with hk | hk
    · exact h k hk body hbody
    · rw [List.mem_singleton.1 hk] at hbody
      cases hbody
  | completeKey id status body =>
    dsimp only [Mutation.exec] at hexec
    split at hexec <;> cases hexec
    intro k hk body' hbody
    obtain ⟨x, hx, rfl⟩ := mem_modify.1 hk
    split at hbody
    · rename_i hid
      rw [if_pos hid]
      exact ⟨status, hm, rfl⟩
    · rename_i hid
      rw [if_neg hid]
      exact h x hx body' hbody
  | deleteKey id =>
    cases hexec
    exact fun k hk => h k (List.mem_of_mem_filter hk)
  | _ => exact hbeside rfl

/-- What is stored between two processes, wherever the first was killed. -/
structure Store.Attended (cfg : Config) (s : Store) : Prop extends s.Restartable cfg where
  labelled : s.db.books.Labelled
  table : KeyTable s.db.keys s.seqs
  successes : StoresSuccess s.db.keys

theorem Store.attended_empty : Store.empty.Attended cfg :=
  { Store.restartable_empty with
    labelled := by constructor <;> simp [Store.empty, Database.empty]
    table := keyTable_nil _
    successes := by simp [StoresSuccess, Store.empty, Database.empty] }

/-- Every entry point stores successes only. -/
theorem entry_completes (cfg : Config) (web : Web) (pay : Payments) (e : Entry) :
    (e.program cfg web pay).All Request.StoresSuccess := by
  have hother : ∀ {e : Entry}, (∀ r, e ≠ .post r) →
      (e.program cfg web pay).All Request.StoresSuccess := fun he =>
    (offKeys_entry web pay he).mono fun q hq => by
      cases q with
      | mutate m => cases m <;> trivial
      | _ => trivial
  cases e with
  | post r => exact all_map (handle_completes cfg web r) _
  | _ => exact hother fun r h => by cases h

theorem Store.Attended.killed (h : s.Attended cfg) (n : ℕ) (e : Entry) :
    (e.killed cfg web pay n s).Attended cfg := by
  have hthrough : (e.program cfg web pay).Throughout (Conn.exec cfg) (fun d => d.Everywhere
      fun seqs db => db.books.Labelled ∧ KeyTable db.keys seqs ∧ StoresSuccess db.keys)
      ⟨s, Session.fresh⟩ :=
    Conn.Everywhere.throughout
      (I := fun seqs db => db.books.Labelled ∧ KeyTable db.keys seqs ∧ StoresSuccess db.keys)
      (fun hle hs => ⟨hs.1, hs.2.1.mono hle.nextId, hs.2.2⟩)
      (fun _ _ _ _ _ hm hs hx => ⟨hs.1.exec hx, hs.2.1.exec hx, hs.2.2.exec hm hx⟩)
      (entry_completes cfg web pay e) ⟨⟨h.labelled, h.table, h.successes⟩,
        ⟨h.labelled, h.table, h.successes⟩⟩
  obtain ⟨hlabelled, htable, hsuccesses⟩ := (Program.throughout_iff_killed.1 hthrough n).store
  exact { h.toRestartable.killed n e with
          labelled := hlabelled, table := htable, successes := hsuccesses }

theorem attended_of_run (h : Run (crash cfg web pay) C Store.empty s) : s.Attended cfg :=
  h.invariant (I := Store.Attended cfg) Store.attended_empty fun x _ hs _ => hs.killed x.2 x.1

/-! ## What a request is answered -/

/-- What a client may conclude from what it receives: an error has changed neither the books nor
the keys; a success repeats one that is stored, or is stored itself, the operation carried out. -/
inductive HttpRequest.Answered (cfg : Config) (web : Web) (r : HttpRequest) (s : Store) :
    Except Exn Response → Store → Prop
  | refused {o : Except Exn Response} {s' : Store} (status : 400 ≤ httpStatus o)
      (books : s'.db.books = s.db.books) (keys : s'.db.keys = s.db.keys) : Answered cfg web r s o s'
  | replayed {response : Response} {s' : Store} (status : response.status ∈ [200, 201])
      (replays : r.Replays web s response) (same : s'.db = s.db) :
      Answered cfg web r s (.ok response) s'
  | carried {response : Response} {s' : Store} (status : response.status ∈ [200, 201])
      (effect : r.Effect cfg web s.db.books s'.db.books)
      (stored : ∀ key, r.key = some key → key ≠ "" →
        s'.db.storedResponse key (r.requestHash web) = some response) :
      Answered cfg web r s (.ok response) s'

section answered

variable {r : HttpRequest} {key : String}

/-- The view, alone on a store. -/
theorem view_responded (hs : s.Attended cfg) (hnamed : cfg.Named) (web : Web) (r : HttpRequest)
    (s' : Store) (hb : s'.db.books = s.db.books) (hk : s'.db.books.Keyed s'.seqs) :
    Responded s.db.books (runOn cfg (r.view cfg web) ⟨s', Session.fresh⟩).1
      (runOn cfg (r.view cfg web) ⟨s', Session.fresh⟩).2 := by
  have hnoted := Conn.noted_fresh (s := s') hk
  rw [hb] at hnoted
  exact view_finished web r hnoted hs.keyed hs.labelled hnamed

/-- A view that returns has had the effect that is asked for. -/
theorem view_effect (hs : s.Attended cfg) (web : Web) (r : HttpRequest) (s' : Store)
    (hb : s'.db.books = s.db.books) {response : Response} {d : Conn}
    (hrun : runOn cfg (r.view cfg web) ⟨s', Session.fresh⟩ = (.ok response, d)) :
    r.Effect cfg web s.db.books d.store.db.books := by
  have hcommits : Commits cfg (r.Effect cfg web s.db.books) (r.view cfg web)
      (Conn.view ⟨s', Session.fresh⟩).books := by
    show Commits cfg _ _ s'.db.books
    rw [hb]
    exact view_commits web r hs.keyed
  have heffect := hcommits.run_ok (view_commitsFirst cfg web r) rfl (by rw [hrun]; rfl)
  rwa [hrun] at heffect

/-- A response is stored with its row. -/
theorem storeResponse_stored (cfg : Config) {k : IdempotencyKey} (halive : c.session.failed = false)
    (hoff : c.session.OffKeys) (hbeside : c.session.Beside)
    (hk : c.store.db.keys.find? (fun k => k.key = key) = some k) (response : Response) :
    Ends cfg (storeResponse key response) c fun o d => o = .ok () ∧
      d.store.db.books = c.store.db.books ∧ d.store.db.keys =
        modify IdempotencyKey.id k.id (fun k =>
          { k with responseStatus := some response.status, responseBody := some response.body })
          c.store.db.keys := by
  have hview : c.view.keys.find? (fun k => decide (k.key = key)) = some k := by rw [hoff.view, hk]
  have hany : c.view.keys.any (fun x => decide (x.id = k.id)) = true :=
    List.any_eq_true.2 ⟨k, List.mem_of_find?_eq_some hview, decide_eq_true rfl⟩
  have hexec : (Mutation.completeKey k.id response.status response.body).exec cfg c.store.seqs
      c.view = .ok ((), .completeKey k.id response.status response.body) := if_pos hany
  unfold storeResponse
  refine ends_ask_ok (exec_select_live halive _) (ends_ofOption hview ?_)
  refine ends_ask_ok (Conn.exec_goes halive hexec) ?_
  rw [← Program.bind_ret (ask .commit)]
  refine ends_committed rfl (ends_ret ⟨rfl, ?_, ?_⟩)
  · show (Conn.view _).books = _
    rw [Conn.view_wrote]
    exact hbeside.view
  · show (Conn.view _).keys = _
    rw [Conn.view_wrote]
    show modify _ _ _ c.view.keys = _
    rw [hoff.view]

/-- The row of a claim is found by its key. -/
theorem find?_claimed {ks : List IdempotencyKey} {id : Id} {requestHash : String}
    (hfound : ks.find? (fun k => k.key = key) = none) :
    (ks ++ [claimedRow id key requestHash]).find? (fun k => k.key = key) =
      some (claimedRow id key requestHash) := by
  rw [List.find?_append, hfound]
  simp [claimedRow]

/-- Once it is completed, it carries the response. -/
theorem storedResponse_completed {db : Database} {ks : List IdempotencyKey} {id : Id}
    {requestHash : String} {response : Response}
    (hfound : ks.find? (fun k => k.key = key) = none) (hids : ∀ x ∈ ks, x.id ≠ id)
    (h : db.keys = modify IdempotencyKey.id id (fun k =>
      { k with responseStatus := some response.status, responseBody := some response.body })
      (ks ++ [claimedRow id key requestHash])) :
    db.storedResponse key requestHash = some response := by
  have hkeys : db.keys = ks ++ [{ claimedRow id key requestHash with
      responseStatus := some response.status, responseBody := some response.body }] := by
    rw [h, modify_append, claimedRow, modify_of_forall_ne hids]
    simp [modify]
  unfold Database.storedResponse
  rw [hkeys, List.find?_append, hfound]
  simp [claimedRow]

/-- A key that is too wide is no key of the table. -/
theorem run_handle_wide (hkey : r.key = some key) (hne : key ≠ "")
    (hfits : ¬ (fitsIn 255 key = true ∧ fitsIn 64 (r.requestHash web) = true)) :
    runOn cfg (r.handle cfg web) ⟨s, Session.fresh⟩ =
      (.error (.service .data), ⟨s.drawn, ⟨[], true⟩⟩) := by
  unfold HttpRequest.handle
  rw [hkey, run_idempotent_error hne (run_claimKey_wide hfits)]

/-- With its key taken, a request resolves the duplicate. -/
theorem run_handle_taken (hkey : r.key = some key) (hne : key ≠ "")
    (hfits : fitsIn 255 key = true ∧ fitsIn 64 (r.requestHash web) = true)
    {k : IdempotencyKey} (hfound : s.db.keys.find? (fun k => k.key = key) = some k) :
    runOn cfg (r.handle cfg web) ⟨s, Session.fresh⟩ =
      (.ok (duplicateResponse (r.requestHash web) (some k)), ⟨s.drawn, Session.fresh⟩) := by
  unfold HttpRequest.handle
  rw [hkey, run_idempotent hne (run_claimKey_taken hfits hfound)]
  rfl

/-- With its key free, it claims it and serves. -/
theorem run_handle_free (hkey : r.key = some key) (hne : key ≠ "")
    (hfits : fitsIn 255 key = true ∧ fitsIn 64 (r.requestHash web) = true)
    (hfound : s.db.keys.find? (fun k => k.key = key) = none) :
    runOn cfg (r.handle cfg web) ⟨s, Session.fresh⟩ =
      runOn cfg (serveClaimed key (r.view cfg web))
        ⟨s.claimed key (r.requestHash web), Session.fresh⟩ := by
  unfold HttpRequest.handle
  rw [hkey, run_idempotent hne (run_claimKey_free hfits hfound)]
  rfl

/-- Without a key, the view is the request. -/
theorem answered_unkeyed (hs : s.Attended cfg) (hnamed : cfg.Named)
    (hkey : r.key = none ∨ r.key = some "") :
    r.Answered cfg web s (r.response cfg web s) (r.run cfg web s) := by
  have hhandle : r.handle cfg web = r.view cfg web := by
    unfold HttpRequest.handle idempotent
    rcases hkey with hkey | hkey
    · rw [hkey]
    · rw [hkey]
      rfl
  have hresponded := view_responded hs hnamed web r s rfl hs.keyed
  have hquiet : OffKeys (r.view cfg web) := offKeys_view web r
  have hoff := hquiet.run cfg (c := ⟨s, Session.fresh⟩) (Session.offKeys_nil false)
  unfold HttpRequest.response HttpRequest.run
  rw [hhandle]
  cases hrun : runOn cfg (r.view cfg web) ⟨s, Session.fresh⟩ with
  | mk o d =>
    rw [hrun] at hresponded hoff
    cases hresponded with
    | refused books => exact .refused (httpStatus_error _) books hoff.2
    | answered success _ _ =>
      refine .carried success (view_effect hs web r s rfl hrun) fun key hk hne => ?_
      rcases hkey with hkey | hkey
      · rw [hkey] at hk
        cases hk
      · rw [hkey] at hk
        cases hk
        exact absurd rfl hne

/-- A key that is taken is answered from its row. -/
theorem answered_taken (hs : s.Attended cfg) (hkey : r.key = some key) (hne : key ≠ "")
    (hfits : fitsIn 255 key = true ∧ fitsIn 64 (r.requestHash web) = true)
    {k : IdempotencyKey} (hfound : s.db.keys.find? (fun k => k.key = key) = some k) :
    r.Answered cfg web s (r.response cfg web s) (r.run cfg web s) := by
  unfold HttpRequest.response HttpRequest.run
  rw [run_handle_taken hkey hne hfits hfound]
  have hcases := duplicateResponse_cases s.db key (r.requestHash web)
  rw [hfound] at hcases
  rcases hcases with hstored | ⟨-, message, hconflict⟩
  · refine .replayed ?_ ⟨key, hkey, hne, hstored⟩ rfl
    obtain ⟨x, hx, -, -, hresponse⟩ := hs.table.storedResponse_iff.1 hstored
    obtain ⟨body, hbody, heq⟩ := Option.map_eq_some_iff.1 hresponse
    obtain ⟨status, hstatus, hset⟩ := hs.successes x hx body hbody
    rw [← heq, hset]
    exact hstatus
  · exact .refused (by rw [hconflict]; exact (by decide : 400 ≤ 409)) rfl rfl

/-- A key that is free is claimed for the view. -/
theorem answered_free (hs : s.Attended cfg) (hnamed : cfg.Named) (hkey : r.key = some key)
    (hne : key ≠ "") (hfits : fitsIn 255 key = true ∧ fitsIn 64 (r.requestHash web) = true)
    (hfound : s.db.keys.find? (fun k => k.key = key) = none) :
    r.Answered cfg web s (r.response cfg web s) (r.run cfg web s) := by
  have hkeyed : (s.claimed key (r.requestHash web)).db.books.Keyed
      (s.claimed key (r.requestHash web)).seqs := hs.keyed.mono ⟨Nat.le_succ _, le_rfl⟩
  have hresponded := view_responded hs hnamed web r (s.claimed key (r.requestHash web)) rfl hkeyed
  have hquiet : OffKeys (r.view cfg web) := offKeys_view web r
  have hoff := hquiet.run cfg (c := ⟨s.claimed key (r.requestHash web), Session.fresh⟩)
    (Session.offKeys_nil false)
  unfold HttpRequest.response HttpRequest.run
  rw [run_handle_free hkey hne hfits hfound]
  cases hrun : runOn cfg (r.view cfg web) ⟨s.claimed key (r.requestHash web), Session.fresh⟩ with
  | mk o d =>
    rw [hrun] at hresponded hoff
    have hkeys : d.store.db.keys =
        s.db.keys ++ [claimedRow s.seqs.nextId key (r.requestHash web)] :=
      hoff.2
    have hclaim : d.store.db.keys.find? (fun k => k.key = key) =
        some (claimedRow s.seqs.nextId key (r.requestHash web)) := by
      rw [hkeys]
      exact find?_claimed hfound
    cases hresponded with
    | @refused e _ books =>
      obtain ⟨hok, hfreed⟩ := run_releaseKey cfg hclaim rfl
      rw [run_serveClaimed_raised hrun hok]
      refine .refused (httpStatus_error e) ?_ (hfreed.trans ?_)
      · have hlast := (releaseKey_throughout cfg key d).last
        exact hlast.trans books
      · rw [hkeys, List.filter_append, List.filter_eq_self.2 fun x hx => ?_]
        · simp [claimedRow]
        · exact decide_eq_true (hs.table.ids_lt x hx).ne
    | @answered response _ success alive beside =>
      have hstored := storeResponse_stored cfg alive hoff.1 beside hclaim response
      unfold Ends at hstored
      rw [run_serveClaimed_returned key hrun]
      obtain ⟨hok, hbooks, hset⟩ := hstored
      have heffect := view_effect hs web r (s.claimed key (r.requestHash web)) rfl hrun
      rw [hok]
      refine .carried success (by rwa [hbooks]) fun key' hk' _ => ?_
      obtain rfl : key = key' := Option.some.inj (hkey.symm.trans hk')
      rw [hkeys] at hset
      exact storedResponse_completed hfound (fun x hx => (hs.table.ids_lt x hx).ne) hset

/-- One request, on what another process has left. -/
theorem Store.Attended.answered (hs : s.Attended cfg) (hnamed : cfg.Named) (web : Web)
    (r : HttpRequest) : r.Answered cfg web s (r.response cfg web s) (r.run cfg web s) := by
  cases hkey : r.key with
  | none => exact answered_unkeyed hs hnamed (.inl hkey)
  | some key =>
    by_cases hne : key = ""
    · exact answered_unkeyed hs hnamed (.inr (hne ▸ hkey))
    by_cases hfits : fitsIn 255 key = true ∧ fitsIn 64 (r.requestHash web) = true
    · cases hfound : s.db.keys.find? fun k => decide (k.key = key) with
      | some k => exact answered_taken hs hkey hne hfits hfound
      | none => exact answered_free hs hnamed hkey hne hfits hfound
    · unfold HttpRequest.response HttpRequest.run
      rw [run_handle_wide hkey hne hfits]
      exact .refused (httpStatus_error _) rfl rfl

/-- **Clients are told the truth.**  Wherever the processes before it have been killed, a request
to a decorated endpoint that is answered with an error has changed neither the books nor the keys;
any other answer is a success, which repeats one that is stored and changes nothing, or which is
stored with the key, the operation asked for carried out; as long as the names of the channels fit
their column.  The database and the cache answer every statement of a process until it is killed:
in `paid_twice` one fails after the commit, and the client is told of an error. -/
theorem answered_truly (h : Run (crash cfg web pay) C Store.empty s) (hnamed : cfg.Named)
    (r : HttpRequest) :
    (400 ≤ httpStatus (r.response cfg web s) ∧ (r.run cfg web s).db.books = s.db.books ∧
        (r.run cfg web s).db.keys = s.db.keys) ∨
      ∃ response, r.response cfg web s = .ok response ∧ response.status ∈ [200, 201] ∧
        (r.Replays web s response ∧ (r.run cfg web s).db = s.db ∨
          r.Effect cfg web s.db.books (r.run cfg web s).db.books ∧
            ∀ key, r.key = some key → key ≠ "" →
              (r.run cfg web s).db.storedResponse key (r.requestHash web) = some response) := by
  have hanswered := (attended_of_run h).answered hnamed web r
  cases hresponse : r.response cfg web s with
  | error e =>
    rw [hresponse] at hanswered
    cases hanswered with
    | refused status books keys => exact .inl ⟨status, books, keys⟩
  | ok response =>
    rw [hresponse] at hanswered
    cases hanswered with
    | refused status books keys => exact .inl ⟨status, books, keys⟩
    | replayed status replays same => exact .inr ⟨response, rfl, status, .inl ⟨replays, same⟩⟩
    | carried status effect stored => exact .inr ⟨response, rfl, status, .inr ⟨effect, stored⟩⟩

/-- Alice's transfer is accepted, so it has been carried out. -/
theorem answered_transfer :
    let cfg := offlineConfig 100
    let s := killedCommands.foldl (fun s x => crash cfg transferBodies signedPayments x s)
      Store.empty
    httpStatus (keyedRequest.response cfg transferBodies s) = 201 ∧
      keyedRequest.Effect cfg transferBodies s.db.books
        (keyedRequest.run cfg transferBodies s).db.books := by
  intro cfg s
  have hrun : Run (crash cfg transferBodies signedPayments) anyOp Store.empty s := Run.foldl _
  have hnamed : cfg.Named := fun _ hmem => by cases hmem
  have hstatus : httpStatus (keyedRequest.response cfg transferBodies s) = 201 := by decide +kernel
  rcases answered_truly hrun hnamed keyedRequest with ⟨hrefused, -⟩ | ⟨response, -, -, hcases⟩
  · rw [hstatus] at hrefused
    exact absurd hrefused (by decide)
  · rcases hcases with ⟨⟨key, -, -, hstored⟩, -⟩ | ⟨heffect, -⟩
    · have hfree : s.db.keys = [] := by decide +kernel
      rw [storedResponse_of_absent (by simp [hfree])] at hstored
      cases hstored
    · exact ⟨hstatus, heffect⟩

end answered

end WalletLedger
