import WalletLedger.Concurrent.Tidy

/-!
# Dropping what was changed

What a session has written, before its commit, and what it has still to drop, after it.

* `Shared.Ready` — before the commit: its writes change the balances of some accounts at most.
* `Shared.Owing` — after it: these are the balances it has to drop.
* `minds_commit`, `minds_publish` — from the one to the other, and to the end.
-/

namespace WalletLedger

variable {ι : Type} {cfg : Config}

/-! ## Before the commit -/

/-- The statement changes the balances of these accounts at most. -/
def Mutation.Within (N : List Id) : Mutation → Prop
  | .insertEntry accountId _ _ _ _ _ => accountId ∈ N
  | .insertSnapshot accountId _ _ _ => accountId ∈ N
  | .updateEntryStatus _ _ => False
  | .insertAccount ownerId _ => ownerId = clearingOwner ∨ ownerId = fxPoolOwner
  | _ => True

/-- A query, a statement within these accounts, or a drawn identifier. -/
def Request.Within (N : List Id) : Request → Prop
  | .select _ => True
  | .mutate m => m.Within N
  | .uuid4 => True
  | _ => False

theorem Mutation.touches_within {N : List Id} {m : Mutation} {seqs : Sequences} {db : Database}
    {v : m.Result} {w : Write} (h : m.exec cfg seqs db = .ok (v, w)) (hm : m.Within N) {a : Id}
    (hw : w.Touches a) : a ∈ N := by
  cases m with
  | insertEntry accountId transactionId amount entryType status currency =>
    obtain ⟨stored, -, -, -, rfl⟩ := exec_insertEntry h
    exact (show accountId = a from hw) ▸ hm
  | insertSnapshot accountId balance lastEntrySeq entryCount =>
    obtain ⟨stored, -, rfl⟩ := exec_insertSnapshot h
    exact (show accountId = a from hw) ▸ hm
  | updateEntryStatus id status => exact hm.elim
  | insertAccount ownerId currency =>
    obtain ⟨-, rfl, -⟩ := exec_insertAccount h
    exact hw.elim
  | insertTransaction type status amount currency details correlationId =>
    obtain ⟨_, -, -, rfl⟩ := exec_insertTransaction h
    exact hw.elim
  | updateTransactionStatus id status =>
    obtain rfl := exec_updateTransactionStatus h
    exact hw.elim
  | updateReference id reference =>
    obtain rfl := exec_updateReference h
    exact hw.elim
  | insertKey key requestHash =>
    have hbeside := exec_besideBooks h rfl
    cases w <;> first | exact hw.elim | cases hbeside
  | completeKey id status body =>
    have hbeside := exec_besideBooks h rfl
    cases w <;> first | exact hw.elim | cases hbeside
  | deleteKey id =>
    have hbeside := exec_besideBooks h rfl
    cases w <;> first | exact hw.elim | cases hbeside
  | insertNotification channel recipient message eventType status correlationId =>
    have hbeside := exec_besideBooks h rfl
    cases w <;> first | exact hw.elim | cases hbeside

/-- The session has committed and dropped nothing; its writes change the balances of the accounts
`N` at most, and it sees the accounts `As` and the transactions `Ts`. -/
structure Shared.Ready (N : List Id) (As : List Account) (Ts : List Id) (s : Shared ι) (i : ι) :
    Prop where
  commit : .commit ∉ s.asked i
  drop : ∀ a, .cacheDelete a ∉ s.asked i
  commits : ∀ ws, (i, ws) ∉ s.commits
  writes : ∀ w ∈ (s.sessions i).writes, ∀ a, w.Touches a → a ∈ N
  accounts : ∀ a ∈ As, a ∈ (s.conn i).view.books.accounts
  transactions : ∀ id ∈ Ts, ∃ t ∈ (s.conn i).view.books.transactions, t.id = id

/-- What the session still has to drop is of the internal accounts. -/
def Shared.Settled (s : Shared ι) (i : ι) : Prop :=
  ∀ a, s.Owes i a → ∃ x ∈ s.store.db.books.accounts, x.id = a ∧ x.IsInternal

section before

variable {x y : Shared ι × History ι} {s : Shared ι} {i : ι} {N : List Id} {As : List Account}
  {Ts : List Id} {calls : ι → BalanceCall} {b₀ : Books}

namespace Shared

theorem Ready.settled (h : s.Ready N As Ts i) : s.Settled i := by
  rintro a ⟨⟨x, hx, rfl, -⟩, -⟩
  exact absurd hx (h.commits x.2)

theorem Ready.mono {N' : List Id} (h : s.Ready N As Ts i) (hN : ∀ a ∈ N, a ∈ N') :
    s.Ready N' As Ts i := { h with writes := fun w hw a ht => hN a (h.writes w hw a ht) }

end Shared

theorem Undisturbed.owes (h : Undisturbed calls i x y) {a : Id} (ho : y.1.Owes i a) :
    x.1.Owes i a := by
  obtain ⟨⟨⟨k, ws⟩, hws, rfl, hw⟩, hdrop⟩ := ho
  exact ⟨⟨(k, ws), h.commits ws hws, rfl, hw⟩, h.frame.asked ▸ hdrop⟩

theorem Undisturbed.settled (h : Undisturbed calls i x y) (hs : x.1.Settled i) :
    y.1.Settled i := by
  intro a ho
  obtain ⟨z, hz, hid, hinternal⟩ := hs a (h.owes ho)
  exact ⟨z, h.accounts z hz, hid, hinternal⟩

theorem Undisturbed.ready (h : Undisturbed calls i x y) (hr : x.1.Ready N As Ts i) :
    y.1.Ready N As Ts i where
  commit := h.frame.asked ▸ hr.commit
  drop := h.frame.asked ▸ hr.drop
  commits := fun ws hws => hr.commits ws (h.commits ws hws)
  writes := h.frame.session ▸ hr.writes
  accounts := by
    intro a ha
    have hmem := hr.accounts a ha
    rw [Shared.view_accounts] at hmem ⊢
    rw [h.frame.session]
    exact List.mem_append.2 ((List.mem_append.1 hmem).imp_left (h.accounts a))
  transactions := by
    intro id hid
    rw [mem_view_transactions, h.frame.session]
    rcases (mem_view_transactions _ _).1 (hr.transactions id hid) with ⟨t, ht, rfl⟩ | hadded
    · exact .inl (h.transactions t ht)
    · exact .inr hadded

variable [DecidableEq ι]

/-- As long as nothing is committed, there is nothing to drop. -/
theorem Shared.Ready.settled_after {r : Request} (h : s.Ready N As Ts i) (hr : r ≠ .commit) :
    (s.after cfg i r).Settled i := by
  rintro a ⟨⟨x, hx, rfl, -⟩, -⟩
  rw [Shared.after_commits hr] at hx
  exact absurd hx (h.commits x.2)

/-- A request before the commit that is answered. -/
theorem Shared.Ready.after {r : Request} {v : r.Result} (h : s.Ready N As Ts i)
    (hN : r.Within N) (hv : (Conn.exec cfg r (s.conn i)).1 = .ok v) :
    (s.after cfg i r).Ready N As Ts i := by
  have hr : r ≠ .commit := by rintro rfl; exact hN
  have hview : (s.after cfg i r).conn i = (Conn.exec cfg r (s.conn i)).2 := Shared.after_conn
  have hasked : ∀ q, q ≠ r → q ∉ s.asked i → q ∉ (s.after cfg i r).asked i := by
    intro q hq hnot
    rw [Shared.after_asked, List.mem_append, List.mem_singleton]
    exact fun hmem => hmem.elim hnot hq
  have hcommits : (s.after cfg i r).commits = s.commits := Shared.after_commits hr
  cases r with
  | select q =>
    obtain ⟨-, -, hconn⟩ := Conn.exec_select_ok cfg _ hv
    rw [hconn] at hview
    refine ⟨hasked _ hr.symm h.commit, fun a => hasked _ (by simp) (h.drop a),
      fun ws => hcommits ▸ h.commits ws, ?_, fun a ha => hview ▸ h.accounts a ha,
      fun id hid => hview ▸ h.transactions id hid⟩
    rw [show (s.after cfg i (.select q)).sessions i = s.sessions i from congrArg Conn.session hview]
    exact h.writes
  | mutate m =>
    obtain ⟨-, w, hexec, hconn⟩ := Conn.exec_mutate_ok cfg _ hv
    rw [hconn] at hview
    have hbooks : ((s.after cfg i (.mutate m)).conn i).view.books =
        w.applyBooks (s.conn i).view.books := by
      rw [hview, Conn.view_wrote]
      rfl
    refine ⟨hasked _ hr.symm h.commit, fun a => hasked _ (by simp) (h.drop a),
      fun ws => hcommits ▸ h.commits ws, ?_, fun a ha => ?_, fun id hid => ?_⟩
    · rw [show (s.after cfg i (.mutate m)).sessions i = _ from congrArg Conn.session hview]
      intro w' hw' a ht
      rcases List.mem_append.1 hw' with hw' | hw'
      · exact h.writes w' hw' a ht
      · rw [List.mem_singleton.1 hw'] at ht
        exact Mutation.touches_within hexec hN ht
    · rw [hbooks]
      have hmem := h.accounts a ha
      cases w <;> first | exact hmem | exact List.mem_append_left _ hmem
    · rw [mem_view_transactions]
      have hsession : (s.after cfg i (.mutate m)).sessions i =
          ⟨(s.sessions i).writes ++ [w], false⟩ := congrArg Conn.session hview
      rw [hsession, Shared.after_db hr]
      exact ((mem_view_transactions s i).1 (h.transactions id hid)).imp_right
        fun ⟨t, ht, htid⟩ => ⟨t, List.mem_append_left _ ht, htid⟩
  | uuid4 =>
    have hsame : (Conn.exec cfg .uuid4 (s.conn i)).2.view = (s.conn i).view := rfl
    refine ⟨hasked _ hr.symm h.commit, fun a => hasked _ (by simp) (h.drop a),
      fun ws => hcommits ▸ h.commits ws, ?_, fun a ha => ?_, fun id hid => ?_⟩
    · rw [show (s.after cfg i .uuid4).sessions i = s.sessions i from congrArg Conn.session hview]
      exact h.writes
    · rw [hview, hsame]
      exact h.accounts a ha
    · rw [hview, hsame]
      exact h.transactions id hid
  | _ => exact hN.elim

/-- The session keeps the discipline while it runs the program, and at its end has nothing of a
customer to drop. -/
abbrev Minds (cfg : Config) (calls : ι → BalanceCall) (b₀ : Books) (i : ι) {α : Type} (p : App α)
    (x : Shared ι × History ι) : Prop :=
  wp (machine ι cfg).logged (keptTidy calls b₀) (InTime calls) i p (fun _ y => y.1.Settled i) x

variable {α β : Type}

theorem minds_raise {e : Exn} (h : x.1.Settled i) :
    Minds cfg calls b₀ i (.raise e : App α) x := fun _ hrely _ => hrely.settled h

theorem minds_ret {a : α} (h : x.1.Settled i) : Minds cfg calls b₀ i (.ret a : App α) x :=
  fun _ hrely _ => hrely.settled h

/-- A request, whatever is to hold at the end. -/
theorem wp_request {r : Request} {k : r.Answer → App α}
    {Q : Except Exn α → Shared ι × History ι → Prop}
    (h : ∀ y, Undisturbed calls i x y → Tidy b₀ y → Orderly b₀ i r y.1 ∧
      wp (machine ι cfg).logged (keptTidy calls b₀) (InTime calls) i
        (k (Conn.exec cfg r (y.1.conn i)).1) Q (y.1.after cfg i r, y.2 ++ [(i, r)])) :
    wp (machine ι cfg).logged (keptTidy calls b₀) (InTime calls) i (.call r k : App α) Q x := by
  intro y hrely hinv hin v z hx
  obtain ⟨hx, hz⟩ := Machine.logged_exec hx
  obtain ⟨-, rfl, hs⟩ := Shared.exec_eq_some hx
  obtain ⟨hp, hgo⟩ := h y hrely hinv
  obtain ⟨t, L⟩ := z
  obtain rfl : t = y.1.after cfg i r := hs
  obtain rfl : L = y.2 ++ [(i, r)] := hz
  exact ⟨⟨hinv.after hp, fun j hj => hinv.undisturbed hin hp hj⟩, hgo⟩

/-- What is dropped from a result is not looked at. -/
theorem minds_map {p : App α} {g : α → β} (h : Minds cfg calls b₀ i p x) :
    Minds cfg calls b₀ i (g <$> p) x := by
  show Minds cfg calls b₀ i (p >>= fun a => .ret (g a)) x
  refine wp_bind (wp_mono (fun o y _ hs => ?_) h)
  cases o with
  | error e => exact hs
  | ok a => exact fun _ hrely _ => Undisturbed.settled hrely hs

omit [DecidableEq ι] in
/-- Neither a commit nor a balance that is stored. -/
theorem orderly_of_within {r : Request} (hN : r.Within N) : Orderly b₀ i r s where
  commit := by
    rintro rfl
    exact hN.elim
  store := by
    rintro a v rfl
    exact hN.elim
  opens := by
    rintro ownerId currency rfl
    exact hN

/-- Steps before the commit that write within `N`. -/
theorem minds_quiet {p : App β} {f : β → App α} (hp : Quiet p) (hN : p.All (Request.Within N))
    (hr : x.1.Ready N As Ts i) (h : ∀ a y, y.1.Ready N As Ts i → Minds cfg calls b₀ i (f a) y) :
    Minds cfg calls b₀ i (p >>= f) x := by
  induction p generalizing x with
  | ret a => exact h a x hr
  | raise e => exact minds_raise hr.settled
  | call r k ih =>
    refine wp_request fun y hrely _ => ⟨orderly_of_within hN.1, ?_⟩
    have hready := hrely.ready hr
    cases hv : (Conn.exec cfg r (y.1.conn i)).1 with
    | error e =>
      obtain ⟨u, hu⟩ := hp.2.1 e
      show Minds cfg calls b₀ i (k (.error e) >>= f) _
      rw [hu]
      exact minds_raise (hready.settled_after hp.1.1)
    | ok v => exact ih _ (hp.2.2 v) (hN.2 _) (hready.after hN.1 hv)

/-- A query before the commit. -/
theorem minds_select {q : Query} {f : q.Result → App α} (hr : x.1.Ready N As Ts i)
    (h : ∀ y, y.1.Ready N As Ts i → Minds cfg calls b₀ i (f (q.eval (y.1.conn i).view)) y) :
    Minds cfg calls b₀ i (ask (.select q) >>= f) x := by
  refine wp_request fun y hrely _ => ⟨orderly_of_within (N := N) trivial, ?_⟩
  have hready := hrely.ready hr
  cases hv : (Conn.exec cfg (.select q) (y.1.conn i)).1 with
  | error e => exact minds_raise (hready.settled_after (by simp))
  | ok v =>
    obtain ⟨-, rfl, hconn⟩ := Conn.exec_select_ok cfg _ hv
    have hafter : (y.1.after cfg i (.select q)).Ready N As Ts i :=
      hready.after (r := .select q) trivial hv
    have hsame : (y.1.after cfg i (.select q)).conn i = y.1.conn i := by
      rw [Shared.after_conn, hconn]
    have hgo := h (y.1.after cfg i (.select q), y.2 ++ [(i, .select q)]) hafter
    rw [hsame] at hgo
    exact hgo

theorem minds_ofOption {e : Exn} {o : Option β} {f : β → App α} (hs : x.1.Settled i)
    (h : ∀ a, o = some a → Minds cfg calls b₀ i (f a) x) :
    Minds cfg calls b₀ i (ofOption e o >>= f) x := by
  cases o with
  | none => exact minds_raise hs
  | some a => exact h a rfl

/-- An account that is read before the commit. -/
theorem minds_lock {id : Id} {f : Account → App α} (hr : x.1.Ready N As Ts i)
    (h : ∀ a y, y.1.Ready N (a :: As) Ts i → Minds cfg calls b₀ i (f a) y) :
    Minds cfg calls b₀ i (AccountService.lock id >>= f) x := by
  rw [AccountService.lock, bind_assoc]
  refine minds_select hr fun y hy => minds_ofOption hy.settled fun a ha => h a y ?_
  exact { hy with accounts := List.forall_mem_cons.2 ⟨List.mem_of_find?_eq_some ha, hy.accounts⟩ }

theorem minds_get {id : Id} {f : Account → App α} (hr : x.1.Ready N As Ts i)
    (h : ∀ a y, y.1.Ready N (a :: As) Ts i → Minds cfg calls b₀ i (f a) y) :
    Minds cfg calls b₀ i (AccountService.get id >>= f) x := by
  rw [AccountService.get, bind_assoc]
  refine minds_select hr fun y hy => minds_ofOption hy.settled fun a ha => h a y ?_
  exact { hy with accounts := List.forall_mem_cons.2 ⟨List.mem_of_find?_eq_some ha, hy.accounts⟩ }

/-- A statement before the commit. -/
theorem minds_mutate {m : Mutation} {f : m.Result → App α} (hr : x.1.Ready N As Ts i)
    (hN : m.Within N)
    (h : ∀ (y : Shared ι × History ι) v w,
      m.exec cfg y.1.store.seqs (y.1.conn i).view = .ok (v, w) →
      ∀ z : Shared ι × History ι, z.1.Ready N As Ts i →
        (z.1.conn i).view = w.apply (y.1.conn i).view → Minds cfg calls b₀ i (f v) z) :
    Minds cfg calls b₀ i (ask (.mutate m) >>= f) x := by
  refine wp_request fun y hrely _ => ⟨orderly_of_within (N := N) hN, ?_⟩
  have hready := hrely.ready hr
  cases hv : (Conn.exec cfg (.mutate m) (y.1.conn i)).1 with
  | error e => exact minds_raise (hready.settled_after (by simp))
  | ok v =>
    obtain ⟨-, w, hexec, hconn⟩ := Conn.exec_mutate_ok cfg _ hv
    refine h y v w hexec _ (hready.after (r := .mutate m) hN hv) ?_
    rw [Shared.after_conn, hconn, Conn.view_wrote]

theorem minds_insertTransaction {type : TransactionType} {status : TransactionStatus}
    {amount : Decimal} {currency : String} {details : Details} {correlationId : Option String}
    {f : Transaction → App α} (hr : x.1.Ready N As Ts i)
    (h : ∀ t y, y.1.Ready N As (t.id :: Ts) i → Minds cfg calls b₀ i (f t) y) :
    Minds cfg calls b₀ i
      (ask (.mutate (.insertTransaction type status amount currency details correlationId)) >>= f)
      x := by
  refine minds_mutate hr trivial fun y v w hexec z hz hview => h v z ?_
  obtain ⟨stored, -, rfl, rfl⟩ := Mutation.exec_insertTransaction hexec
  refine { hz with transactions := List.forall_mem_cons.2 ⟨⟨_, ?_, rfl⟩, hz.transactions⟩ }
  rw [hview]
  exact List.mem_append_right _ (List.mem_singleton_self _)

theorem minds_getOrCreateInternal {ownerId currency : String}
    (howner : ownerId = clearingOwner ∨ ownerId = fxPoolOwner) {f : Account → App α}
    (hr : x.1.Ready N As Ts i)
    (h : ∀ a y, a.IsInternal → y.1.Ready N (a :: As) Ts i → Minds cfg calls b₀ i (f a) y) :
    Minds cfg calls b₀ i (AccountService.getOrCreateInternal ownerId currency >>= f) x := by
  rw [AccountService.getOrCreateInternal, bind_assoc]
  refine minds_select hr fun y hy => ?_
  split
  · rename_i a ha
    have hfound := List.find?_some ha
    rw [decide_eq_true_eq] at hfound
    have hinternal : a.IsInternal := by
      unfold Account.IsInternal
      rwa [hfound.1]
    exact h a y hinternal
      { hy with accounts := List.forall_mem_cons.2 ⟨List.mem_of_find?_eq_some ha, hy.accounts⟩ }
  · refine minds_mutate hy howner fun u v w hexec z hz hview => ?_
    obtain ⟨rfl, rfl, -⟩ := Mutation.exec_insertAccount hexec
    refine h _ z howner
      { hz with accounts := List.forall_mem_cons.2 ⟨?_, hz.accounts⟩ }
    rw [hview]
    exact List.mem_append_right _ (List.mem_singleton_self _)

end before

/-! ## After the commit -/

/-- The session has committed what changes the balances of the accounts `N` at most, has dropped
those of `D`, and has written nothing more to the books; the accounts `As` are committed. -/
structure Shared.Owing (N D : List Id) (As : List Account) (s : Shared ι) (i : ι) : Prop where
  writes : ∀ w ∈ (s.sessions i).writes, ∀ a, ¬ w.Touches a
  owes : ∀ a, s.Owes i a → a ∈ N
  dropped : ∀ a ∈ D, .cacheDelete a ∈ s.asked i
  accounts : ∀ a ∈ As, a ∈ s.store.db.books.accounts

/-- So far it has dropped nothing, and its session answers. -/
structure Shared.Published (N : List Id) (As : List Account) (Ts : List Id) (s : Shared ι) (i : ι) :
    Prop extends s.Owing N [] As i where
  alive : (s.sessions i).failed = false
  transactions : ∀ id ∈ Ts, ∃ t ∈ s.store.db.books.transactions, t.id = id

/-- A query, a notification, or a commit. -/
def Request.Announces : Request → Prop
  | .select _ => True
  | .mutate m => m.besideBooks = true
  | .commit => True
  | _ => False

section announcing

variable {x y : Shared ι × History ι} {s : Shared ι} {i : ι} {N D : List Id} {As : List Account}
  {Ts : List Id} {calls : ι → BalanceCall} {b₀ : Books}

theorem Shared.Owing.settled (h : s.Owing N D As i)
    (hN : ∀ a ∈ N, a ∈ D ∨ ∃ z ∈ As, z.id = a ∧ z.IsInternal) : s.Settled i := by
  intro a ho
  rcases hN a (h.owes a ho) with hdropped | ⟨z, hz, hid, hinternal⟩
  · exact absurd (h.dropped a hdropped) ho.2
  · exact ⟨z, h.accounts z hz, hid, hinternal⟩

theorem Undisturbed.owing (h : Undisturbed calls i x y) (ho : x.1.Owing N D As i) :
    y.1.Owing N D As i where
  writes := h.frame.session ▸ ho.writes
  owes := fun a hy => ho.owes a (h.owes hy)
  dropped := h.frame.asked ▸ ho.dropped
  accounts := fun a ha => h.accounts a (ho.accounts a ha)

theorem Undisturbed.published (h : Undisturbed calls i x y) (hp : x.1.Published N As Ts i) :
    y.1.Published N As Ts i where
  toOwing := h.owing hp.toOwing
  alive := h.frame.session ▸ hp.alive
  transactions := by
    intro id hid
    obtain ⟨t, ht, rfl⟩ := hp.transactions id hid
    exact h.transactions t ht

variable [DecidableEq ι]

theorem Shared.Owes.of_after {r : Request} {a : Id}
    (hw : ∀ w ∈ (s.sessions i).writes, ¬ w.Touches a) (h : (s.after cfg i r).Owes i a) :
    s.Owes i a := by
  obtain ⟨⟨x, hx, hxi, w, hwx, ht⟩, hnot⟩ := h
  rw [Shared.after_asked, List.mem_append, not_or] at hnot
  refine ⟨⟨x, ?_, hxi, w, hwx, ht⟩, hnot.1⟩
  have hmem : x ∈ ite _ _ _ := hx
  split at hmem
  · rcases List.mem_append.1 hmem with hmem | hmem
    · exact hmem
    · rw [List.mem_singleton.1 hmem] at hwx
      exact absurd ht (hw w hwx)
  · exact hmem

/-- What is announced changes no balance. -/
theorem Shared.Owing.after {r : Request} (h : s.Owing N D As i) (hr : r.Announces) :
    (s.after cfg i r).Owing N D As i where
  writes := by
    cases Shared.turn_after cfg s i r with
    | kept _ hsession _ _ => exact hsession ▸ h.writes
    | wrote m v w hm _ hexec hsession _ _ =>
      subst hm
      rw [hsession]
      intro w' hw' a ht
      rcases List.mem_append.1 hw' with hw' | hw'
      · exact h.writes w' hw' a ht
      · rw [List.mem_singleton.1 hw'] at ht
        have hbeside := Mutation.exec_besideBooks hexec hr
        cases w <;> first | exact ht.elim | cases hbeside
    | committed _ _ hsession _ _ =>
      rw [hsession]
      exact fun w hw => by cases hw
    | dropped hwrites _ _ =>
      rw [hwrites]
      exact fun w hw => by cases hw
  owes := fun a ho => h.owes a (ho.of_after fun w hw => h.writes w hw a)
  dropped := by
    intro a ha
    rw [Shared.after_asked]
    exact List.mem_append_left _ (h.dropped a ha)
  accounts := fun a ha => Shared.accounts_after (h.accounts a ha)

omit [DecidableEq ι] in
theorem Shared.Owing.orderly {r : Request} (h : s.Owing N D As i)
    (hr : (∃ a, r = .cacheDelete a) ∨ r.Announces) : Orderly b₀ i r s where
  commit := fun _ w hw a ht => absurd ht (h.writes w hw a)
  store := by
    rintro a v rfl
    rcases hr with ⟨_, heq⟩ | hr
    · cases heq
    · exact hr.elim
  opens := by
    rintro ownerId currency rfl
    rcases hr with ⟨_, heq⟩ | hr
    · cases heq
    · cases hr

variable {α β : Type}

/-- The commit. -/
theorem minds_commit {f : Unit → App α} (hr : x.1.Ready N As Ts i)
    (h : ∀ y, y.1.Published N As Ts i → Minds cfg calls b₀ i (f ()) y) :
    Minds cfg calls b₀ i (ask .commit >>= f) x := by
  refine wp_request fun y hrely _ => ?_
  have hready := hrely.ready hr
  refine ⟨⟨fun _ _ _ a _ => ⟨hready.commit, hready.drop a⟩, (fun _ _ heq => by cases heq),
    fun _ _ heq => by cases heq⟩, ?_⟩
  cases hf : (y.1.sessions i).failed with
  | true =>
    have herror : (Conn.exec cfg .commit (y.1.conn i)).1 = .error .pendingRollback := by
      rw [Conn.exec_commit, if_pos (show (y.1.conn i).session.failed = true from hf)]
    rw [herror]
    refine minds_raise fun a ho => ?_
    obtain ⟨⟨z, hz, rfl, -⟩, -⟩ := ho
    rw [(Shared.after_commit_failed cfg hf).2] at hz
    exact absurd hz (hready.commits z.2)
  | false =>
    have hexec : Conn.exec cfg .commit (y.1.conn i) = (.ok (), (y.1.conn i).committed) := by
      rw [Conn.exec_commit, if_neg]
      show ¬ (y.1.sessions i).failed = true
      simp [hf]
    obtain ⟨hdb, hcommits⟩ := Shared.after_commit cfg hf
    have hsession : (y.1.after cfg i .commit).sessions i = Session.fresh := by
      rw [Shared.after_self, hexec]
      rfl
    rw [hexec]
    refine h _ ⟨⟨?_, ?_, (fun _ hmem => by cases hmem), ?_⟩, ?_, ?_⟩
    · rw [hsession]
      exact fun w hw => by cases hw
    · rintro a ⟨⟨⟨k, ws⟩, hmem, hk, w, hw, ht⟩, -⟩
      rw [hcommits] at hmem
      rcases List.mem_append.1 hmem with hold | hnew
      · exact absurd ((show k = i from hk) ▸ hold) (hready.commits ws)
      · obtain ⟨-, rfl⟩ := Prod.mk.inj (List.mem_singleton.1 hnew)
        exact hready.writes w hw a ht
    · rw [hdb]
      exact hready.accounts
    · rw [hsession]
      rfl
    · rw [hdb]
      exact hready.transactions

/-- Nothing is written while an expired object is read again. -/
theorem minds_reload {q : Query} {f : q.Result → App α} (hp : x.1.Published N As Ts i)
    (h : ∀ y, y.1.Published N As Ts i → Minds cfg calls b₀ i (f (q.eval (y.1.conn i).view)) y) :
    Minds cfg calls b₀ i (ask (.select q) >>= f) x := by
  refine wp_request fun y hrely _ => ?_
  have hpub := hrely.published hp
  refine ⟨hpub.orderly (.inr trivial), ?_⟩
  have hexec : Conn.exec cfg (.select q) (y.1.conn i) =
      (.ok (q.eval (y.1.conn i).view), y.1.conn i) := by
    rw [Conn.exec_select, if_neg]
    show ¬ (y.1.sessions i).failed = true
    simp [hpub.alive]
  have hsame : (y.1.after cfg i (.select q)).conn i = y.1.conn i := by
    rw [Shared.after_conn, hexec]
  have hgo := h (y.1.after cfg i (.select q), y.2 ++ [(i, .select q)])
    { hpub.toOwing.after (r := .select q) trivial with
      alive := by
        rw [show (y.1.after cfg i (.select q)).sessions i = y.1.sessions i from
          congrArg Conn.session hsame]
        exact hpub.alive
      transactions := by
        rw [Shared.after_db (by simp)]
        exact hpub.transactions }
  rw [hsame] at hgo
  rw [hexec]
  exact hgo

theorem minds_reloadTransaction {id : Id} {f : Transaction → App α} (hid : id ∈ Ts)
    (hp : x.1.Published N As Ts i)
    (h : ∀ t y, y.1.Published N As Ts i → Minds cfg calls b₀ i (f t) y) :
    Minds cfg calls b₀ i (reloadTransaction id >>= f) x := by
  rw [reloadTransaction, bind_assoc]
  refine minds_reload hp fun y hy => ?_
  obtain ⟨t, ht, htid⟩ := (mem_view_transactions y.1 i).2 (.inl (hy.transactions id hid))
  cases hfound : (Query.transaction id).eval (y.1.conn i).view with
  | none => exact absurd htid (by simpa using List.find?_eq_none.1 hfound t ht)
  | some t => exact h t y hy

theorem minds_reloadAccount {a : Account} {f : Account → App α} (ha : a ∈ As)
    (hp : x.1.Published N As Ts i)
    (h : ∀ a' y, a'.id = a.id → y.1.Published N As Ts i → Minds cfg calls b₀ i (f a') y) :
    Minds cfg calls b₀ i (reloadAccount a.id >>= f) x := by
  rw [reloadAccount, bind_assoc]
  refine minds_reload hp fun y hy => ?_
  have hmem : a ∈ (y.1.conn i).view.books.accounts := by
    rw [Shared.view_accounts]
    exact List.mem_append_left _ (hy.accounts a ha)
  cases hfound : (Query.account a.id).eval (y.1.conn i).view with
  | none => exact absurd (List.find?_eq_none.1 hfound a hmem) (by simp)
  | some a' => exact h a' y (by simpa using List.find?_some hfound) hy

/-- A subscriber that announces, whatever it raises. -/
theorem minds_announce {p : App Unit} {f : Unit → App α} (hp : p.All Request.Announces)
    (ho : x.1.Owing N D As i)
    (h : ∀ y, y.1.Owing N D As i → Minds cfg calls b₀ i (f ()) y) :
    Minds cfg calls b₀ i ((p.attempt fun _ => .ret ()) >>= f) x := by
  have hstable : (keptTidy calls b₀).Stable i fun y => y.1.Owing N D As i :=
    fun y z hrely _ hy => Undisturbed.owing hrely hy
  refine wp_bind (wp_attempt ?_)
  refine wp_mono (fun o y _ hy => ?_)
    (wp_of_stable hstable (fun r hr y v z hinv hin hy hx => ?_) hp ho)
  · cases o with
    | ok u => exact h y hy
    | error e => exact fun z hrely _ => h z (Undisturbed.owing hrely hy)
  · obtain ⟨hx, hz⟩ := Machine.logged_exec hx
    obtain ⟨-, -, hs⟩ := Shared.exec_eq_some hx
    obtain ⟨t, L⟩ := z
    obtain rfl : t = y.1.after cfg i r := hs
    obtain rfl : L = y.2 ++ [(i, r)] := hz
    have hperm : Orderly b₀ i r y.1 := hy.orderly (.inr hr)
    exact ⟨⟨hinv.after hperm, fun j hj => hinv.undisturbed hin hperm hj⟩, hy.after hr⟩

/-- Balances are dropped. -/
theorem wp_invalidate {ids : List Id} {f : Unit → App α}
    {Q : Except Exn α → Shared ι × History ι → Prop} (ho : x.1.Owing N D As i)
    (h : ∀ y D', (∀ a ∈ ids ++ D, a ∈ D') → y.1.Owing N D' As i →
      wp (machine ι cfg).logged (keptTidy calls b₀) (InTime calls) i (f ()) Q y) :
    wp (machine ι cfg).logged (keptTidy calls b₀) (InTime calls) i
      (Program.forEach ids BalanceCache.invalidate >>= f) Q x := by
  induction ids generalizing x D with
  | nil => exact h x D (by simp) ho
  | cons a ids ih =>
    rw [Program.forEach, bind_assoc]
    refine wp_request fun y hrely _ => ?_
    have hy := hrely.owing ho
    refine ⟨hy.orderly (.inl ⟨a, rfl⟩),
      ih (D := a :: D) ?_ fun z D' hD' => h z D' fun b hb => hD' b ?_⟩
    · have hsession : (y.1.after cfg i (.cacheDelete a)).sessions i = y.1.sessions i :=
        Shared.after_self
      refine ⟨hsession ▸ hy.writes,
        fun a' ho' => hy.owes a' (ho'.of_after fun w hw => hy.writes w hw a'),
        fun a' ha' => ?_, fun z hz => Shared.accounts_after (hy.accounts z hz)⟩
      rw [Shared.after_asked]
      rcases List.mem_cons.1 ha' with rfl | ha'
      · exact List.mem_append_right _ (List.mem_singleton_self _)
      · exact List.mem_append_left _ (hy.dropped a' ha')
    · simp only [List.cons_append, List.mem_cons, List.mem_append] at hb ⊢
      tauto

theorem announcing_announces : Announcing Request.Announces :=
  ⟨fun _ => trivial, fun _ _ _ _ _ _ => rfl, trivial⟩

/-- A completed transfer drops the balances of both sides, a settled deposit that of its
account. -/
theorem minds_publish {event : DomainEvent} {f : Unit → App α}
    (hevent : event.eventType = .transferCompleted ∨ event.eventType = .depositCompleted)
    (ho : x.1.Owing N [] As i)
    (h : ∀ y D, (∀ a ∈ event.payload.senderId.toList ++ event.payload.receiverId.toList ++
        event.payload.accountId.toList, a ∈ D) → y.1.Owing N D As i →
      Minds cfg calls b₀ i (f ()) y) :
    Minds cfg calls b₀ i (EventBus.publish (subscribers cfg) event >>= f) x := by
  obtain ⟨handler, hhandlers, hannounces⟩ : ∃ handler,
      subscribers cfg event.eventType = [handler, invalidateBalances] ∧
        (handler event).All Request.Announces := by
    rcases hevent with hevent | hevent <;> rw [hevent]
    · exact ⟨_, rfl, (all_ofOption _ _).bind fun _ => (all_ofOption _ _).bind fun _ =>
        (all_ofOption _ _).bind fun _ => announcing_announces.notify _ _ _⟩
    · exact ⟨_, rfl, (all_ofOption _ _).bind fun _ => (all_ofOption _ _).bind fun _ =>
        (all_ofOption _ _).bind fun _ => announcing_announces.notify _ _ _⟩
  unfold EventBus.publish
  rw [hhandlers, Program.forEach_pair]
  refine minds_announce hannounces ho fun y hy => wp_bind (wp_attempt ?_)
  rw [← Program.bind_ret (invalidateBalances event)]
  unfold invalidateBalances
  refine wp_invalidate hy fun z D hD hz u hrely _ =>
    h u D (fun a ha => ?_) (Undisturbed.owing hrely hz)
  exact hD a (List.mem_append_left _ ha)

end announcing

end WalletLedger
