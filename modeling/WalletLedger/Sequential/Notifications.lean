import WalletLedger.Sequential.Announcements

/-!
# Notifications

What the notification service records of the outcome of an operation.

* `Books.Labelled` — owners and correlation identifiers fit the columns of a notification.
* `notify_sent`, `notify_lost` — the service records a row for each channel, or none when the
  name of one is too wide.
* `publish_trail`, `publish_untold` — what an event leaves, by its addressee.
* `notified_iff` — which outcomes are notified, for every run; `release_untold` is a failed
  transfer that its sender hears nothing of.
-/

namespace WalletLedger

variable {cfg : Config} {b : Books} {c : Conn} {trail : List Notification}

/-! ## What fits -/

/-- The owners of the accounts and the correlation identifiers fit their columns. -/
structure Books.Labelled (b : Books) : Prop where
  owners : ∀ a ∈ b.accounts, fitsIn 64 a.ownerId = true
  correlations : ∀ t ∈ b.transactions, t.correlationId.all (fitsIn 36) = true

namespace Books.Labelled

/-- Every statement keeps to the columns. -/
theorem exec {m : Mutation} {s : Sequences} {db : Database} {v : m.Result} {w : Write}
    (h : db.books.Labelled) (hm : m.exec cfg s db = .ok (v, w)) :
    (w.applyBooks db.books).Labelled where
  owners := by
    intro a ha
    rcases Mutation.exec_account hm ha with ha | hfits
    · exact h.owners a ha
    · exact hfits.1
  correlations := by
    intro t ht
    rcases Mutation.exec_transaction hm ht with ⟨x, hx, heq⟩ | hfits
    · have hcorr : t.correlationId = x.correlationId := congrArg (·.2.2) heq
      rw [hcorr]
      exact h.correlations x hx
    · exact hfits.2.2

/-- So does every program on a fresh session. -/
theorem run {α : Type} (cfg : Config) {s : Store} (h : s.db.books.Labelled) (p : App α) :
    (runOn cfg p ⟨s, Session.fresh⟩).2.store.db.books.Labelled :=
  Conn.run_invariant (I := Books.Labelled) (fun _ _ _ _ _ hl hm => hl.exec hm) p
    (c := ⟨s, Session.fresh⟩) h h

end Books.Labelled

theorem labelled_of_run {C : Operation → Store → Prop} {s : Store}
    (h : Run (Operation.run cfg) C Store.empty s) : s.db.books.Labelled := by
  refine h.invariant (I := fun s => s.db.books.Labelled) ?_ fun op s hs _ => ?_
  · constructor <;> simp [Store.empty, Database.empty]
  · exact hs.run cfg (op.program cfg)

/-! ## What the service records -/

/-- The row is the trace of a message on the channel. -/
structure Notification.Traces (channel : NotificationChannel) (recipient : String)
    (correlationId : Option String) (n : Notification) : Prop where
  channel : n.channel = channel.name
  recipient : n.recipient = recipient
  correlation : n.correlationId = correlationId

/-- No channel raises. -/
def Config.Sends (cfg : Config) : Prop :=
  ∀ channel ∈ cfg.channels, ∀ recipient message, ∃ sent, channel.send recipient message = .ok sent

/-- The names of the channels fit their column. -/
def Config.Named (cfg : Config) : Prop :=
  ∀ channel ∈ cfg.channels, fitsIn 10 channel.name = true

theorem EventType.fits_name (eventType : EventType) : fitsIn 64 eventType.name = true := by
  cases eventType <;> rfl

section channels

variable {channels : List NotificationChannel} {recipient message : String} {event : DomainEvent}

/-- A row that fits is added; one that does not loses the session. -/
theorem ends_insertNotification {β : Type} {Q : Except Exn β → Conn → Prop} {f : Unit → App β}
    {channel recipient message eventType status : String} {correlationId : Option String}
    (halive : c.session.failed = false)
    (h : fitsIn 10 channel = true → Ends cfg (f ())
      (c.wrote { c.store.seqs with nextId := c.store.seqs.nextId + 1 } (.addNotification
        ⟨c.store.seqs.nextId, channel, recipient, message, eventType, status, correlationId⟩)) Q)
    (he : ¬ (fitsIn 10 channel ∧ fitsIn 255 recipient ∧ fitsIn 64 eventType ∧ fitsIn 10 status ∧
      correlationId.all (fitsIn 36)) →
      ∀ d : Conn, d.Trail c.store.db.notifications → Q (.error (.service .data)) d) :
    Ends cfg (ask (.mutate (.insertNotification channel recipient message eventType status
      correlationId)) >>= f) c Q := by
  by_cases hfits : fitsIn 10 channel ∧ fitsIn 255 recipient ∧ fitsIn 64 eventType ∧
      fitsIn 10 status ∧ correlationId.all (fitsIn 36)
  · have hm : (Mutation.insertNotification channel recipient message eventType status
        correlationId).exec cfg c.store.seqs c.view = .ok ((), .addNotification
          ⟨c.store.seqs.nextId, channel, recipient, message, eventType, status, correlationId⟩) :=
      if_pos hfits
    exact ends_ask_ok (Conn.exec_goes halive hm) (h hfits.1)
  · exact ends_ask_error (Conn.exec_refused halive (if_neg hfits)) (he hfits _ ⟨rfl, rfl⟩)

/-- Each channel leaves its row. -/
theorem channels_sent
    (hsends : ∀ channel ∈ channels, ∀ recipient message,
      ∃ sent, channel.send recipient message = .ok sent)
    (hnames : ∀ channel ∈ channels, fitsIn 10 channel.name = true)
    (hrecipient : fitsIn 255 recipient = true)
    (hcorr : event.correlationId.all (fitsIn 36) = true) (halive : c.session.failed = false) :
    Ends cfg (Program.forEach channels fun channel => do
        let sent ← Program.ofExcept (channel.send recipient message)
        ask (.mutate (.insertNotification channel.name recipient message event.eventType.name
          (if sent then "SENT" else "FAILED") event.correlationId))) c
      fun o d => o = .ok () ∧ d.session.failed = false ∧
        ∃ ns, d.view.notifications = c.view.notifications ++ ns ∧
          List.Forall₂ (Notification.Traces · recipient event.correlationId) channels ns := by
  induction channels generalizing c with
  | nil => exact ⟨rfl, halive, [], (List.append_nil _).symm, .nil⟩
  | cons channel channels ih =>
    obtain ⟨sent, hsent⟩ := hsends channel List.mem_cons_self recipient message
    have hstatus : fitsIn 10 (if sent then "SENT" else "FAILED") = true := by
      cases sent <;> rfl
    rw [Program.forEach, bind_assoc]
    refine ends_ofExcept hsent (ends_insertNotification halive (fun _ => ?_) fun hnot => ?_)
    · let n : Notification := ⟨c.store.seqs.nextId, channel.name, recipient, message,
        event.eventType.name, if sent then "SENT" else "FAILED", event.correlationId⟩
      obtain ⟨hok, halive', ns, hns, htraces⟩ := ih
        (c := c.wrote { c.store.seqs with nextId := c.store.seqs.nextId + 1 } (.addNotification n))
        (fun x hx => hsends x (List.mem_cons_of_mem _ hx))
        (fun x hx => hnames x (List.mem_cons_of_mem _ hx)) rfl
      refine ⟨hok, halive', n :: ns, hns.trans ?_, .cons ⟨rfl, rfl, rfl⟩ htraces⟩
      rw [Conn.view_wrote]
      exact List.append_assoc c.view.notifications [n] ns
    · exact absurd ⟨hnames channel List.mem_cons_self, hrecipient, event.eventType.fits_name,
        hstatus, hcorr⟩ hnot

/-- The first name that does not fit loses the session. -/
theorem channels_lost
    (hsends : ∀ channel ∈ channels, ∀ recipient message,
      ∃ sent, channel.send recipient message = .ok sent)
    (hwide : ¬ ∀ channel ∈ channels, fitsIn 10 channel.name = true)
    (halive : c.session.failed = false) :
    Ends cfg (Program.forEach channels fun channel => do
        let sent ← Program.ofExcept (channel.send recipient message)
        ask (.mutate (.insertNotification channel.name recipient message event.eventType.name
          (if sent then "SENT" else "FAILED") event.correlationId))) c
      fun o d => (∃ e, o = .error e) ∧ d.Trail c.store.db.notifications := by
  induction channels generalizing c with
  | nil => exact absurd (fun _ h => by cases h) hwide
  | cons channel channels ih =>
    obtain ⟨sent, hsent⟩ := hsends channel List.mem_cons_self recipient message
    rw [Program.forEach, bind_assoc]
    refine ends_ofExcept hsent (ends_insertNotification halive (fun hname => ?_) fun _ d htrail =>
      ⟨⟨_, rfl⟩, htrail⟩)
    refine ih (fun x hx => hsends x (List.mem_cons_of_mem _ hx)) (fun h => hwide ?_) rfl
    exact List.forall_mem_cons.2 ⟨hname, h⟩

end channels

/-- The owner of an account that is there is found. -/
theorem ends_recipientFor {α : Type} {Q : Except Exn α → Conn → Prop} {f : String → App α}
    {b₀ : Books} (ho : c.Open b₀ b) {a : Account} (ha : a ∈ b.accounts)
    (h : Ends cfg (f a.ownerId) c Q) :
    Ends cfg (NotificationService.recipientFor a.id >>= f) c Q := by
  have hget : Ends cfg (AccountService.get a.id >>= Program.ret) c fun o d => o = .ok a ∧ d = c :=
    ends_get ho ha (ends_ret ⟨rfl, rfl⟩)
  rw [Program.bind_ret] at hget
  have hrun : runOn cfg (NotificationService.recipientFor a.id) c = (.ok a.ownerId, c) := by
    unfold NotificationService.recipientFor
    rw [runOn, Program.run_attempt, Program.run_map, ← runOn, hget.1, hget.2]
    rfl
  refine ends_bind ?_
  unfold Ends
  rw [hrun]
  exact h

section notify

variable {a : Account} {message : String} {event : DomainEvent}

/-- The owner of the account is told on every channel. -/
theorem notify_sent (ho : c.Noted b b trail) (hl : b.Labelled) (ha : a ∈ b.accounts)
    (hcorr : event.correlationId.all (fitsIn 36) = true) (hsends : cfg.Sends) (hnamed : cfg.Named) :
    Ends cfg (NotificationService.notify cfg a.id message event) c fun _ d =>
      ∃ ns, d.Trail (trail ++ ns) ∧
        List.Forall₂ (Notification.Traces · a.ownerId event.correlationId) cfg.channels ns := by
  have hrecipient : fitsIn 255 a.ownerId = true := by
    have howner := hl.owners a ha
    unfold fitsIn at howner ⊢
    rw [decide_eq_true_eq] at howner ⊢
    omega
  unfold NotificationService.notify
  refine ends_recipientFor ho.toOpen ha (ends_bind ?_)
  refine ends_mono (channels_sent hsends hnamed hrecipient hcorr ho.alive) fun o d hd => ?_
  obtain ⟨rfl, halive, ns, hns, htraces⟩ := hd
  rw [ho.trail.view] at hns
  dsimp only
  rw [← Program.bind_ret (ask .commit)]
  exact ends_committed halive (ends_ret ⟨ns, ⟨hns, hns⟩, htraces⟩)

/-- A channel whose name is too wide loses them all. -/
theorem notify_lost (ho : c.Noted b b trail) (ha : a ∈ b.accounts) (hsends : cfg.Sends)
    (hwide : ¬ cfg.Named) :
    Ends cfg (NotificationService.notify cfg a.id message event) c fun _ d => d.Trail trail := by
  unfold NotificationService.notify
  refine ends_recipientFor ho.toOpen ha (ends_bind ?_)
  refine ends_mono (channels_lost hsends hwide ho.alive) fun o d hd => ?_
  obtain ⟨⟨e, rfl⟩, htrail⟩ := hd
  exact ho.trail.store ▸ htrail

end notify

/-! ## What an event leaves -/

section events

variable {event : DomainEvent} {accountId : Id}

theorem keepsTrail_invalidateBalances (event : DomainEvent) :
    (invalidateBalances event).All fun r => r.keepsTrail = true :=
  Program.All.forEach fun _ _ => Program.All.attempt (all_ask rfl) fun _ => trivial

/-- An event with an addressee has the service write to it, before the balances are dropped. -/
theorem subscribers_addressed (cfg : Config) (h : event.addressee = some accountId) :
    ∃ handler message, subscribers cfg event.eventType = [handler, invalidateBalances] ∧
      handler event = NotificationService.notify cfg accountId message event := by
  unfold DomainEvent.addressee at h
  cases heventType : event.eventType <;> rw [heventType] at h <;> dsimp only at h
  · cases h
  · split at h
    · rename_i hsome
      obtain ⟨amount, hamount⟩ := Option.isSome_iff_exists.1 hsome.1
      obtain ⟨currency, hcurrency⟩ := Option.isSome_iff_exists.1 hsome.2
      refine ⟨_, "Transfert de " ++ amount ++ " " ++ currency ++ " effectué.", rfl, ?_⟩
      unfold NotificationService.onTransferCompleted
      rw [hamount, hcurrency, h]
      rfl
    · cases h
  · refine ⟨_, "Votre transfert a échoué ; les fonds réservés ont été libérés.", rfl, ?_⟩
    unfold NotificationService.onTransferFailed NotificationService.notifyTransactionParty
    rw [h]
  · split at h
    · rename_i hsome
      obtain ⟨amount, hamount⟩ := Option.isSome_iff_exists.1 hsome.1
      obtain ⟨currency, hcurrency⟩ := Option.isSome_iff_exists.1 hsome.2
      refine ⟨_, "Dépôt de " ++ amount ++ " " ++ currency ++ " crédité sur votre compte.", rfl, ?_⟩
      unfold NotificationService.onDepositCompleted
      rw [hamount, hcurrency, h]
      rfl
    · cases h

/-- An event leaves the trail its addressee's message has left. -/
theorem publish_trail {N : List Notification → Prop} (h : event.addressee = some accountId)
    (hnotify : ∀ message, Ends cfg (NotificationService.notify cfg accountId message event) c
      fun _ d => ∃ ns, d.Trail (trail ++ ns) ∧ N ns) :
    ∃ ns, (runOn cfg (EventBus.publish (subscribers cfg) event) c).2.Trail (trail ++ ns) ∧
      N ns := by
  obtain ⟨handler, message, hhandlers, hhandler⟩ := subscribers_addressed cfg h
  have hrest : (Program.forEach [invalidateBalances] fun handler =>
      (handler event).attempt fun _ => .ret ()).All fun r => r.keepsTrail = true :=
    Program.All.forEach fun handler hmem => by
      rw [List.mem_singleton.1 hmem]
      exact Program.All.attempt (keepsTrail_invalidateBalances event) fun _ => trivial
  have hsent := hnotify message
  unfold Ends at hsent
  rw [← hhandler] at hsent
  unfold EventBus.publish
  rw [hhandlers, Program.forEach, runOn, Program.run_bind, Program.run_attempt]
  rw [runOn] at hsent
  cases hrun : Program.run (Conn.exec cfg) (handler event) c with
  | mk o d =>
    rw [hrun] at hsent
    obtain ⟨ns, htrail, hns⟩ := hsent
    cases o <;> exact ⟨ns, htrail.run hrest, hns⟩

/-- An event without an addressee leaves the trail alone. -/
theorem publish_untold (cfg : Config) (h : event.addressee = none) (htrail : c.Trail trail) :
    (runOn cfg (EventBus.publish (subscribers cfg) event) c).2.Trail trail := by
  refine htrail.run (Program.All.forEach fun handler hmem => ?_)
  refine Program.All.attempt ?_ fun _ => trivial
  have hinvalidate := keepsTrail_invalidateBalances event
  unfold DomainEvent.addressee at h
  cases heventType : event.eventType <;> rw [heventType] at h hmem <;>
    simp only [subscribers, List.mem_cons, List.not_mem_nil, or_false] at hmem
  · rwa [hmem]
  · rcases hmem with rfl | rfl
    · unfold NotificationService.onTransferCompleted
      cases hamount : event.payload.amount
      · trivial
      cases hcurrency : event.payload.currency
      · trivial
      rw [hamount, hcurrency] at h
      rw [show event.payload.senderId = none from h]
      trivial
    · exact hinvalidate
  · rcases hmem with rfl | rfl
    · unfold NotificationService.onTransferFailed NotificationService.notifyTransactionParty
      rw [show event.payload.senderId.or event.payload.accountId = none from h]
      trivial
    · exact hinvalidate
  · rcases hmem with rfl | rfl
    · unfold NotificationService.onDepositCompleted
      cases hamount : event.payload.amount
      · trivial
      cases hcurrency : event.payload.currency
      · trivial
      rw [hamount, hcurrency] at h
      rw [show event.payload.accountId = none from h]
      trivial
    · exact hinvalidate

end events

/-! ## Every run -/

/-- Between the two stores a notification has been recorded for every channel: it is addressed
to the owner of the account that the transaction is about, and carries the correlation
identifier of the transaction. -/
def Notified (cfg : Config) (s s' : Store) (t : Transaction) : Prop :=
  ∃ ns, s'.db.notifications = s.db.notifications ++ ns ∧
    List.Forall₂ (fun channel n => ∃ account ∈ s'.db.books.accounts,
      t.details.party = some account.id ∧ n.Traces channel account.ownerId t.correlationId)
      cfg.channels ns

/-- Where nothing has been recorded, nobody was to be told. -/
theorem notified_unchanged {s s' : Store} {t : Transaction}
    (h : s'.db.notifications = s.db.notifications) :
    Notified cfg s s' t ↔ cfg.channels = [] := by
  constructor
  · rintro ⟨ns, hns, hall⟩
    obtain rfl : ns = [] := List.append_right_eq_self.1 (hns.symm.trans h)
    exact List.forall₂_nil_right_iff.1 hall
  · intro hnone
    exact ⟨[], h.trans (List.append_nil _).symm, hnone ▸ .nil⟩

/-- **Outcomes are notified.**  After any run, when no channel raises, an operation that has
gone through leaves a notification for every channel, to the owner of the account its
transaction is about and with the correlation identifier of the transaction, exactly if the
names of the channels fit their column and it is no failed transfer; of that the channels hear
nothing. -/
theorem notified_iff {C : Operation → Store → Prop} {s : Store}
    (h : Run (Operation.run cfg) C Store.empty s) (hsends : cfg.Sends) {op : Operation}
    {p : App Transaction} (hp : op.concluding cfg = some p) {t : Transaction} {d : Conn}
    (hrun : runOn cfg p ⟨s, Session.fresh⟩ = (.ok t, d)) :
    Notified cfg s d.store t ↔
      (∀ channel ∈ cfg.channels, fitsIn 10 channel.name = true) ∧
        ∀ transactionId, op = .fail transactionId → cfg.channels = [] := by
  have hordered := ordered_of_run h
  have hlabelled : d.store.db.books.Labelled := by
    have hl := (labelled_of_run h).run cfg p
    rwa [hrun] at hl
  have htold := Operation.told hp (Conn.noted_fresh hordered.keyed)
  unfold Ends at htold
  rw [hrun] at htold
  cases htold with
  | @announced b' t event c noted idle announces =>
    have hbooks : (runOn cfg (EventBus.publish (subscribers cfg) event) c).2.store.db.books = b' :=
      publish_books noted.toOpen idle event
    rw [hbooks] at hlabelled
    cases htells : op.tells with
    | true =>
      have hfail : ∀ transactionId, op = .fail transactionId → cfg.channels = [] := by
        rintro transactionId rfl
        cases htells
      obtain ⟨a, ha, haddressee, hparty⟩ := announces.reaches htells
      by_cases hnamed : cfg.Named
      · refine iff_of_true ?_ ⟨hnamed, hfail⟩
        have hcorr := hlabelled.correlations t announces.transaction
        rw [← announces.correlation] at hcorr
        obtain ⟨ns, htrail, hns⟩ := publish_trail haddressee fun message =>
          notify_sent noted hlabelled ha hcorr hsends hnamed
        refine ⟨ns, htrail.store, hns.imp fun channel n hn => ?_⟩
        exact ⟨a, hbooks.symm ▸ ha, hparty hordered.reservations, announces.correlation ▸ hn⟩
      · refine iff_of_false ?_ fun hboth => hnamed hboth.1
        obtain ⟨ns, htrail, rfl⟩ := publish_trail (N := fun ns => ns = []) haddressee fun message =>
          ends_mono (notify_lost noted ha hsends hnamed) fun _ d hd =>
            ⟨[], by rwa [List.append_nil], rfl⟩
        rw [notified_unchanged (htrail.store.trans (List.append_nil _))]
        intro hnone
        exact hnamed fun channel hmem => by rw [hnone] at hmem; cases hmem
    | false =>
      have htrail := publish_untold cfg (announces.misses htells) noted.trail
      obtain ⟨transactionId, rfl⟩ : ∃ transactionId, op = .fail transactionId := by
        cases op <;> cases htells <;> cases hp
        exact ⟨_, rfl⟩
      rw [notified_unchanged htrail.store]
      constructor
      · intro hnone
        exact ⟨fun channel hmem => (by rw [hnone] at hmem; cases hmem), fun _ _ => hnone⟩
      · exact fun hboth => hboth.2 transactionId rfl

/-- A configuration with one channel. -/
def mailConfig : Config :=
  { offlineConfig 100 with channels := [⟨"EMAIL", fun _ _ => .ok true⟩] }

theorem mailConfig_sends : mailConfig.Sends := by
  intro channel hmem recipient message
  rw [List.mem_singleton.1 hmem]
  exact ⟨true, rfl⟩

/-- Alice has been funded, and has reserved 30 for Bob in the transfer 7. -/
def mailedReserve : Store :=
  runAll mailConfig
    [.createAccount "alice" "EUR", .createAccount "bob" "EUR",
      .initiateDeposit 0 100 "stripe" ⟨none, none⟩ (some "c1"), .settle "2" none none,
      .initiate 0 1 30 (some "c2")] Store.empty

/-- Its failure is told to nobody, although no channel raises. -/
theorem release_untold :
    mailConfig.Sends ∧ ∃ t d,
      runOn mailConfig (TransferService.fail mailConfig 7) ⟨mailedReserve, Session.fresh⟩ =
        (.ok t, d) ∧ ¬ Notified mailConfig mailedReserve d.store t := by
  refine ⟨mailConfig_sends,
    ⟨7, .transfer, .failed, 30, "EUR", .transfer 0 1, none, some "c2"⟩, _,
    Prod.ext (by decide +kernel) rfl, ?_⟩
  rw [notified_unchanged (by decide +kernel)]
  exact List.cons_ne_nil _ _

/-- Its settlement is told to Alice. -/
theorem notified_commit :
    ∃ t d, runOn mailConfig (TransferService.commit mailConfig 7)
      ⟨mailedReserve, Session.fresh⟩ = (.ok t, d) ∧
        Notified mailConfig mailedReserve d.store t := by
  have hrun : runOn mailConfig (TransferService.commit mailConfig 7)
      ⟨mailedReserve, Session.fresh⟩ =
      (.ok ⟨7, .transfer, .success, 30, "EUR", .transfer 0 1, none, some "c2"⟩, _) :=
    Prod.ext (by decide +kernel) rfl
  have hp : (Operation.commit 7).concluding mailConfig =
      some (TransferService.commit mailConfig 7) := rfl
  have hreached : Run (Operation.run mailConfig) anyOp Store.empty mailedReserve :=
    Run.foldl _
  exact ⟨_, _, hrun, (notified_iff hreached mailConfig_sends hp hrun).2
    ⟨by decide, fun _ h => by cases h⟩⟩

end WalletLedger
