import WalletLedger.Concurrent.Ledger
import WalletLedger.Sequential.Cache

/-!
# What is cached is right, or still to be dropped

A reader stores the balance it has computed, an operation drops it after its commit: two steps
on either side, and any number of readers and operations.

* `Shared.Owes` — who has committed what changes a balance and has still to drop it.
* `InTime` — the condition on the turns: a balance that was read before a commit is stored
  before it is dropped.
* `Tidy` — what is cached is the balance of the ledger, or is still to be dropped;
  `Tidy.after` — an orderly request keeps it so.
-/

namespace WalletLedger

variable {ι : Type} {cfg : Config} {b b' : Books}

/-! ## What changes a balance -/

/-- The write changes what is read as the balance of the account. -/
def Write.Touches (a : Id) : Write → Prop
  | .addEntry e => e.accountId = a
  | .addSnapshot x => x.accountId = a
  | .setEntryStatus _ _ => True
  | _ => False

instance (a : Id) : (w : Write) → Decidable (w.Touches a)
  | .addEntry e => inferInstanceAs (Decidable (e.accountId = a))
  | .addSnapshot x => inferInstanceAs (Decidable (x.accountId = a))
  | .setEntryStatus _ _ => isTrue trivial
  | .addAccount _ | .addTransaction _ | .setTransactionStatus _ _ | .setReference _ _ | .addKey _
  | .completeKey _ _ _ | .deleteKey _ | .addNotification _ => isFalse id

/-- The account reads the same in both. -/
structure Books.SameOn (a : Id) (b b' : Books) : Prop where
  snapshot : b'.latestSnapshot a = b.latestSnapshot a
  sums : ∀ cursor, b'.sumEntries a cursor [.success] none = b.sumEntries a cursor [.success] none

namespace Books.SameOn

theorem refl (a : Id) (b : Books) : b.SameOn a b := ⟨rfl, fun _ => rfl⟩

theorem trans {a : Id} {b'' : Books} (h : b.SameOn a b') (h' : b'.SameOn a b'') : b.SameOn a b'' :=
  ⟨h'.snapshot.trans h.snapshot, fun cursor => (h'.sums cursor).trans (h.sums cursor)⟩

theorem balance {account : Account} (h : b.SameOn account.id b') :
    b'.balance account = b.balance account := by
  unfold Books.balance
  rw [h.snapshot, h.sums]

theorem apply {a : Id} {w : Write} (b : Books) (hw : ¬ w.Touches a) :
    b.SameOn a (w.applyBooks b) := by
  cases w with
  | addEntry e =>
    refine ⟨rfl, fun cursor => ?_⟩
    have hne : e.accountId ≠ a := hw
    simp [Books.sumEntries, Write.applyBooks, hne]
  | addSnapshot x =>
    refine ⟨?_, fun _ => rfl⟩
    have hne : x.accountId ≠ a := hw
    simp [Books.latestSnapshot, Write.applyBooks, hne]
  | setEntryStatus id status => exact absurd trivial hw
  | _ => exact ⟨rfl, fun _ => rfl⟩

theorem replay {a : Id} {ws : List Write} (h : ∀ w ∈ ws, ¬ w.Touches a) (b : Books) :
    b.SameOn a (replayBooks ws b) := by
  induction ws generalizing b with
  | nil => exact .refl a b
  | cons w ws ih =>
    exact (apply b (h w (by simp))).trans (ih (fun v hv => h v (by simp [hv])) _)

end Books.SameOn

/-! ## Calls -/

/-- A balance that is read, or an operation that moves money. -/
inductive BalanceCall where
  | get (account : Account)
  | execute (senderId receiverId : Id) (amount : Decimal) (correlationId : Option String)
  | settle (reference : String) (confirmedAmount : Option Decimal)
      (confirmedCurrency : Option String)

/-- The program of a call, its result dropped. -/
def BalanceCall.program (cfg : Config) : BalanceCall → App Unit
  | get account => (fun _ => ()) <$> BalanceQuery.get account
  | execute senderId receiverId amount correlationId =>
      (fun _ => ()) <$> TransferService.execute cfg senderId receiverId amount correlationId
  | settle reference confirmedAmount confirmedCurrency =>
      (fun _ => ()) <$> DepositService.settle cfg reference confirmedAmount confirmedCurrency

/-- The requests that have been answered, oldest first. -/
abbrev History (ι : Type) := List (ι × Request)

namespace Shared

/-- The session has committed what changes the balance of the account. -/
def Moved (s : Shared ι) (i : ι) (a : Id) : Prop :=
  ∃ x ∈ s.commits, x.1 = i ∧ ∃ w ∈ x.2, w.Touches a

/-- It has, and has still to drop the balance from the cache. -/
def Owes (s : Shared ι) (i : ι) (a : Id) : Prop := s.Moved i a ∧ .cacheDelete a ∉ s.asked i

/-- A reader of the account has read its balance and has still to store it. -/
def Reading (calls : ι → BalanceCall) (s : Shared ι) (j : ι) (a : Id) : Prop :=
  (∃ account, calls j = .get account ∧ account.id = a) ∧
    .select (.latestSnapshot a) ∈ s.asked j ∧ ∀ v, .cacheSet a v ∉ s.asked j

end Shared

/-- Session `j` has read the balance before session `i` has committed. -/
def History.ReadBefore (L : History ι) (j i : ι) (a : Id) : Prop :=
  ∃ L₁, L₁ <+: L ∧ (j, .select (.latestSnapshot a)) ∈ L₁ ∧ (i, .commit) ∉ L₁

/-- When a session drops a balance, no reader that has read it before the session's commit has
still to store it. -/
def InTime (calls : ι → BalanceCall) (i : ι) (r : Request) (x : Shared ι × History ι) : Prop :=
  ∀ a, r = .cacheDelete a → ∀ j, x.1.Reading calls j a → ¬ x.2.ReadBefore j i a

instance (L : History ι) [DecidableEq ι] (j i : ι) (a : Id) : Decidable (L.ReadBefore j i a) :=
  decidable_of_iff
    (∃ L₁ ∈ L.inits, (j, Request.select (.latestSnapshot a)) ∈ L₁ ∧ (i, Request.commit) ∉ L₁) <| by
      simp only [List.mem_inits, History.ReadBefore]

instance (a : Id) : (c : BalanceCall) → Decidable (∃ account, c = .get account ∧ account.id = a)
  | .get account => decidable_of_iff (account.id = a) (by simp)
  | .execute .. => isFalse (by simp)
  | .settle .. => isFalse (by simp)

instance (a : Id) : (r : Request) → Decidable (∃ v, r = .cacheSet a v)
  | .cacheSet a' _ => decidable_of_iff (a' = a) (by simp)
  | .select _ | .mutate _ | .commit | .rollback | .uuid4 | .cacheGet _ | .cacheDelete _ =>
      isFalse (by simp)

instance (calls : ι → BalanceCall) (s : Shared ι) (j : ι) (a : Id) :
    Decidable (s.Reading calls j a) :=
  decidable_of_iff ((∃ account, calls j = .get account ∧ account.id = a) ∧
      .select (.latestSnapshot a) ∈ s.asked j ∧ ¬ ∃ r ∈ s.asked j, ∃ v, r = .cacheSet a v) <| by
    simp only [Shared.Reading]
    grind

instance [DecidableEq ι] [Fintype ι] (calls : ι → BalanceCall) (i : ι) :
    (r : Request) → (x : Shared ι × History ι) → Decidable (InTime calls i r x)
  | .cacheDelete a, x => decidable_of_iff
      (∀ j, x.1.Reading calls j a → ¬ x.2.ReadBefore j i a) <| by simp [InTime]
  | .select _, _ | .mutate _, _ | .commit, _ | .rollback, _ | .uuid4, _ | .cacheGet _, _
  | .cacheSet _ _, _ => isTrue fun a h => by cases h

/-- The balance of the account is the amount. -/
def Books.Shows (b : Books) (account : Account) (v : Decimal) : Prop :=
  ∃ m, b.balance account = .ok m ∧ m.amount = v

/-- What the reader `j` has read is out of date, but who has made it so has still to drop the
balance. -/
def Covered (j : ι) (a : Id) (x : Shared ι × History ι) : Prop :=
  ∃ i, x.1.Owes i a ∧ x.2.ReadBefore j i a

/-- What is cached of a customer is the balance of the ledger, or is still to be dropped. -/
structure Tidy (b₀ : Books) (x : Shared ι × History ι) : Prop where
  history : ∀ i r, (i, r) ∈ x.2 ↔ r ∈ x.1.asked i
  distinct : x.1.Distinct
  customers : ∀ a, x.1.Known a → ¬ a.IsInternal → a ∈ b₀.accounts
  cached : ∀ account ∈ b₀.accounts, ¬ account.IsInternal → ∀ v,
    x.1.store.cache.lookup account.id = some v →
      x.1.store.db.books.Shows account v ∨ ∃ i, x.1.Owes i account.id

/-- What session `j` relies on the others to keep: its own side, the rows that are committed, and
the balance it is reading. -/
structure Undisturbed (calls : ι → BalanceCall) (j : ι) (x y : Shared ι × History ι) : Prop where
  frame : Shared.Frame j x.1 y.1
  history : x.2 <+: y.2
  commits : ∀ ws, (j, ws) ∈ y.1.commits → (j, ws) ∈ x.1.commits
  accounts : ∀ a ∈ x.1.store.db.books.accounts, a ∈ y.1.store.db.books.accounts
  transactions : ∀ t ∈ x.1.store.db.books.transactions, ∃ t' ∈ y.1.store.db.books.transactions,
    t'.id = t.id
  covered : ∀ a, x.1.Reading calls j a → Covered j a x → Covered j a y
  reading : ∀ a, x.1.Reading calls j a →
    Covered j a y ∨ x.1.store.db.books.SameOn a y.1.store.db.books

theorem Shared.Reading.frame {calls : ι → BalanceCall} {s t : Shared ι} {j : ι} {a : Id}
    (h : s.Reading calls j a) (hf : Shared.Frame j s t) : t.Reading calls j a := by
  obtain ⟨hcall, hread, hstore⟩ := h
  exact ⟨hcall, hf.asked.symm ▸ hread, hf.asked.symm ▸ hstore⟩

theorem Undisturbed.refl (calls : ι → BalanceCall) (j : ι) (x : Shared ι × History ι) :
    Undisturbed calls j x x :=
  ⟨.refl j _, List.prefix_rfl, fun _ h => h, fun _ h => h, fun t ht => ⟨t, ht, rfl⟩,
    fun _ _ h => h, fun a _ => .inr (.refl a _)⟩

theorem Undisturbed.trans {calls : ι → BalanceCall} {j : ι} {x y z : Shared ι × History ι}
    (h : Undisturbed calls j x y) (h' : Undisturbed calls j y z) : Undisturbed calls j x z where
  frame := h.frame.trans h'.frame
  history := h.history.trans h'.history
  commits := fun ws hws => h.commits ws (h'.commits ws hws)
  accounts := fun a ha => h'.accounts a (h.accounts a ha)
  transactions := by
    intro t ht
    obtain ⟨u, hu, hut⟩ := h.transactions t ht
    obtain ⟨v, hv, hvu⟩ := h'.transactions u hu
    exact ⟨v, hv, hvu.trans hut⟩
  covered := fun a hr hc => h'.covered a (hr.frame h.frame) (h.covered a hr hc)
  reading := by
    intro a hr
    have hr' := hr.frame h.frame
    rcases h.reading a hr with hc | hsame
    · exact .inl (h'.covered a hr' hc)
    · exact (h'.reading a hr').imp_right hsame.trans

/-- The discipline of readers and operations. -/
def keptTidy (calls : ι → BalanceCall) (b₀ : Books) : Discipline ι (Shared ι × History ι) where
  inv := Tidy b₀
  rely := Undisturbed calls
  rely_refl := Undisturbed.refl calls
  rely_trans := Undisturbed.trans

/-! ## One turn -/

/-- A commit that changes a balance is the session's first, and no balance has been dropped
before; what is stored is the balance of the ledger, or is still to be dropped; an account that is
opened is internal. -/
structure Orderly (b₀ : Books) (i : ι) (r : Request) (s : Shared ι) : Prop where
  commit : r = .commit → ∀ w ∈ (s.sessions i).writes, ∀ a, w.Touches a →
    .commit ∉ s.asked i ∧ .cacheDelete a ∉ s.asked i
  store : ∀ a v, r = .cacheSet a v → ∀ account ∈ b₀.accounts, ¬ account.IsInternal →
    account.id = a → s.store.db.books.Shows account v ∨ ∃ j, s.Owes j a
  opens : ∀ ownerId currency, r = .mutate (.insertAccount ownerId currency) →
    ownerId = clearingOwner ∨ ownerId = fxPoolOwner

theorem History.ReadBefore.mono {L L' : History ι} {j i : ι} {a : Id} (h : L.ReadBefore j i a)
    (hL : L <+: L') : L'.ReadBefore j i a := by
  obtain ⟨L₁, hpre, hread, hcommit⟩ := h
  exact ⟨L₁, hpre.trans hL, hread, hcommit⟩

/-- A session sees the committed transactions and those it has added. -/
theorem mem_view_transactions (s : Shared ι) (i : ι) {id : Id} :
    (∃ t ∈ (s.conn i).view.books.transactions, t.id = id) ↔
      (∃ t ∈ s.store.db.books.transactions, t.id = id) ∨
        ∃ t, .addTransaction t ∈ (s.sessions i).writes ∧ t.id = id := by
  have hreplay : ∀ (ws : List Write) (b : Books), id ∈ (replayBooks ws b).transactions.map
      Transaction.id ↔ id ∈ b.transactions.map Transaction.id ∨
        ∃ t, .addTransaction t ∈ ws ∧ t.id = id := by
    intro ws
    induction ws with
    | nil => simp
    | cons w ws ih =>
      intro b
      rw [replayBooks_cons, ih]
      cases w with
      | addTransaction x =>
        have hadd : ((Write.addTransaction x).applyBooks b).transactions =
            b.transactions ++ [x] := rfl
        rw [hadd, List.map_append, List.mem_append]
        simp [or_and_right, exists_or, or_assoc, eq_comm]
      | setTransactionStatus id status =>
        have hids : ((Write.setTransactionStatus id status).applyBooks b).transactions.map
            Transaction.id = b.transactions.map Transaction.id := map_modify fun _ => rfl
        simp [hids]
      | setReference id reference =>
        have hids : ((Write.setReference id reference).applyBooks b).transactions.map
            Transaction.id = b.transactions.map Transaction.id := map_modify fun _ => rfl
        simp [hids]
      | _ => simp [Write.applyBooks]
  have hids : ∀ l : List Transaction, id ∈ l.map Transaction.id ↔ ∃ t ∈ l, t.id = id := fun _ =>
    List.mem_map
  rw [← hids, ← hids]
  show id ∈ (replay (s.sessions i).writes s.store.db).books.transactions.map _ ↔ _
  rw [replay_books]
  exact hreplay _ _

section turns

variable [DecidableEq ι] {s : Shared ι} {L : History ι} {i j : ι} {r : Request}
  {calls : ι → BalanceCall} {b₀ : Books}

namespace Shared

/-- Who owes the drop of a balance owes it until it drops it. -/
theorem Owes.after {a : Id} (h : s.Owes j a) (hdrop : r = .cacheDelete a → j ≠ i) :
    (s.after cfg i r).Owes j a := by
  obtain ⟨⟨x, hx, hxj, hw⟩, hnot⟩ := h
  refine ⟨⟨x, ?_, hxj, hw⟩, ?_⟩
  · show x ∈ ite _ _ _
    split
    · exact List.mem_append_left _ hx
    · exact hx
  · by_cases hj : j = i
    · subst hj
      rw [after_asked, List.mem_append, List.mem_singleton]
      rintro (hmem | heq)
      · exact hnot hmem
      · exact hdrop heq.symm rfl
    · rwa [(after_frame hj).asked]

/-- A turn changes the balance of an account only by a commit that does. -/
theorem sameOn_after (cfg : Config) (s : Shared ι) (i : ι) (r : Request) (a : Id) :
    s.store.db.books.SameOn a (s.after cfg i r).store.db.books ∨
      r = .commit ∧ (s.sessions i).failed = false ∧ ∃ w ∈ (s.sessions i).writes, w.Touches a := by
  by_cases hr : r = .commit
  swap
  · exact .inl (by rw [after_db hr]; exact .refl a _)
  subst hr
  cases hf : (s.sessions i).failed with
  | true => exact .inl (by rw [(after_commit_failed cfg hf).1]; exact .refl a _)
  | false =>
    by_cases htouched : ∃ w ∈ (s.sessions i).writes, w.Touches a
    · exact .inr ⟨rfl, rfl, htouched⟩
    · refine .inl ?_
      rw [(after_commit cfg hf).1]
      show s.store.db.books.SameOn a (replay (s.sessions i).writes s.store.db).books
      rw [replay_books]
      exact .replay (fun w hw ht => htouched ⟨w, hw, ht⟩) _

/-- Who commits it owes the drop of the balance. -/
theorem owes_of_commit {a : Id} (hp : Orderly b₀ i .commit s) (hf : (s.sessions i).failed = false)
    (hw : ∃ w ∈ (s.sessions i).writes, w.Touches a) : (s.after cfg i .commit).Owes i a := by
  obtain ⟨w, hw, ht⟩ := hw
  refine ⟨⟨(i, (s.sessions i).writes), ?_, rfl, w, hw, ht⟩, ?_⟩
  · rw [(after_commit cfg hf).2]
    exact List.mem_append_right _ (List.mem_singleton_self _)
  · rw [after_asked, List.mem_append, List.mem_singleton]
    rintro (hmem | heq)
    · exact (hp.commit rfl w hw a ht).2 hmem
    · cases heq

/-- Committed transactions stay, with other statuses. -/
theorem transactions_after {t : Transaction} (ht : t ∈ s.store.db.books.transactions) :
    ∃ t' ∈ (s.after cfg i r).store.db.books.transactions, t'.id = t.id := by
  cases turn_after cfg s i r with
  | kept _ _ hdb _ => exact ⟨t, hdb ▸ ht, rfl⟩
  | wrote m v w _ _ _ _ hdb _ => exact ⟨t, hdb ▸ ht, rfl⟩
  | dropped _ hdb _ => exact ⟨t, hdb ▸ ht, rfl⟩
  | committed _ _ _ hdb _ =>
    rw [hdb]
    exact (mem_view_transactions s i).2 (.inl ⟨t, ht, rfl⟩)

end Shared

/-- A turn keeps what is cached right, or still to be dropped. -/
theorem Tidy.after (h : Tidy b₀ (s, L)) (hp : Orderly b₀ i r s) :
    Tidy b₀ (s.after cfg i r, L ++ [(i, r)]) where
  history := by
    intro j q
    rw [List.mem_append, List.mem_singleton, h.history]
    by_cases hj : j = i
    · subst hj
      simp [eq_comm]
    · rw [(Shared.after_frame hj).asked]
      simp [hj]
  distinct := h.distinct.after
  customers := by
    intro a ha hc
    rcases Shared.known_after ha with ha | ⟨m, v, hr, hm, -⟩
    · exact h.customers a ha hc
    · obtain ⟨-, -, rfl⟩ := Mutation.exec_addAccount hm
      exact absurd (hp.opens _ _ hr) hc
  cached := by
    intro account ha hc v hv
    have hstill : s.store.db.books.Shows account v ∨ (∃ j, s.Owes j account.id) →
        (∀ j, s.Owes j account.id → r = .cacheDelete account.id → j ≠ i) →
        (s.after cfg i r).store.db.books.Shows account v ∨
          ∃ j, (s.after cfg i r).Owes j account.id := by
      rintro (⟨m, hm, hamount⟩ | ⟨j, hj⟩) hdrop
      · rcases Shared.sameOn_after cfg s i r account.id with hsame | ⟨rfl, hf, hw⟩
        · exact .inl ⟨m, hsame.balance.trans hm, hamount⟩
        · exact .inr ⟨i, Shared.owes_of_commit hp hf hw⟩
      · exact .inr ⟨j, hj.after (hdrop j hj)⟩
    have hcache : (s.after cfg i r).store.cache = (Conn.exec cfg r (s.conn i)).2.store.cache := rfl
    by_cases hdelete : ∃ a, r = .cacheDelete a
    · obtain ⟨a, rfl⟩ := hdelete
      have hlookup : (s.store.cache.filter fun x => x.1 ≠ a).lookup account.id = some v := hv
      rw [lookup_dropped] at hlookup
      split at hlookup
      · cases hlookup
      · rename_i hne
        exact hstill (h.cached account ha hc v hlookup) fun j _ heq => by
          cases heq
          exact absurd rfl hne
    by_cases hset : ∃ a x, r = .cacheSet a x
    · obtain ⟨a, x, rfl⟩ := hset
      have hlookup : ((a, x) :: s.store.cache.filter fun y => y.1 ≠ a).lookup account.id =
          some v := hv
      rw [List.lookup_cons, lookup_dropped] at hlookup
      by_cases hid : account.id = a
      · obtain rfl : x = v := by simpa [hid] using hlookup
        exact hstill (hid ▸ hp.store a x rfl account ha hc hid) fun _ _ heq => by cases heq
      · have hbeq : (account.id == a) = false := by simpa using hid
        rw [hbeq, if_neg hid] at hlookup
        exact hstill (h.cached account ha hc v hlookup) fun _ _ heq => by cases heq
    have hsame : (s.after cfg i r).store.cache = s.store.cache := by
      rw [hcache]
      cases r with
      | select q => rw [Conn.exec_select]; split <;> rfl
      | mutate m => rw [Conn.exec_mutate]; split; rfl; split <;> rfl
      | commit => rw [Conn.exec_commit]; split <;> rfl
      | cacheSet a x => exact absurd ⟨a, x, rfl⟩ hset
      | cacheDelete a => exact absurd ⟨a, rfl⟩ hdelete
      | _ => rfl
    have hv' : (s.after cfg i r).store.cache.lookup account.id = some v := hv
    rw [hsame] at hv'
    exact hstill (h.cached account ha hc v hv') fun _ _ heq => absurd ⟨_, heq⟩ hdelete

/-- It disturbs no other reader. -/
theorem Tidy.undisturbed (h : Tidy b₀ (s, L)) (hin : InTime calls i r (s, L))
    (hp : Orderly b₀ i r s) (hj : j ≠ i) :
    Undisturbed calls j (s, L) (s.after cfg i r, L ++ [(i, r)]) where
  frame := Shared.after_frame hj
  history := List.prefix_append _ _
  commits := by
    intro ws hws
    have hmem : (j, ws) ∈ (s.after cfg i r).commits := hws
    unfold Shared.after at hmem
    dsimp only at hmem
    split at hmem
    · rcases List.mem_append.1 hmem with hmem | hmem
      · exact hmem
      · cases List.mem_singleton.1 hmem
        exact absurd rfl hj
    · exact hmem
  accounts := fun a ha => Shared.accounts_after ha
  transactions := fun t ht => Shared.transactions_after ht
  covered := by
    rintro a hr ⟨k, howes, hbefore⟩
    refine ⟨k, howes.after fun hdrop => ?_, hbefore.mono (List.prefix_append _ _)⟩
    rintro rfl
    exact hin a hdrop j hr hbefore
  reading := by
    intro a hr
    rcases Shared.sameOn_after cfg s i r a with hsame | ⟨rfl, hf, hw⟩
    · exact .inr hsame
    · refine .inl ⟨i, Shared.owes_of_commit hp hf hw, L, List.prefix_append _ _, ?_, ?_⟩
      · exact (h.history j _).2 hr.2.1
      · obtain ⟨w, hw, ht⟩ := hw
        rw [h.history]
        exact (hp.commit rfl w hw a ht).1

end turns

end WalletLedger
