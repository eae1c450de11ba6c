import WalletLedger.Operations.Caching
import WalletLedger.Operations.Surface
import WalletLedger.Sequential.Cache
import WalletLedger.Sequential.Crashes

/-!
# The cache decides nothing

The cache is a service of its own: it may be absent, fail, forget, or answer with what it has been
told long ago.  Whatever it does, the ledger and every answer but that of a balance read are the
same; and a read that the cache cannot answer is answered by the ledger.

* `CacheServer` — what answers the requests to the cache, with any state and any behaviour.
* `alike_exec` — outside the cache, it makes no difference.
* `Entry.killedWith`, `Entry.responseWith` — an entry point, beside such a server.
* `cache_decides_nothing` — the result.
-/

namespace WalletLedger

variable {cfg : Config} {web : Web} {pay : Payments} {κ : Type} {s : Store}

/-! ## Cache servers -/

/-- What answers the requests to the cache: it may fail, and its state may become anything. -/
structure CacheServer (κ : Type) where
  get : Id → κ → Except ServiceError (Option Decimal) × κ
  set : Id → Decimal → κ → Except ServiceError Unit × κ
  delete : Id → κ → Except ServiceError Unit × κ

/-- A session beside the server: only the server is asked about the cache. -/
def CacheServer.exec (server : CacheServer κ) (cfg : Config) :
    (r : Request) → Conn × κ → r.Answer × (Conn × κ)
  | .cacheGet a, (c, k) => ((server.get a k).1, c, (server.get a k).2)
  | .cacheSet a amount, (c, k) => ((server.set a amount k).1, c, (server.set a amount k).2)
  | .cacheDelete a, (c, k) => ((server.delete a k).1, c, (server.delete a k).2)
  | r, (c, k) => ((Conn.exec cfg r c).1, (Conn.exec cfg r c).2, k)

/-- The stores have the same rows and the same generators. -/
structure Store.Agrees (s t : Store) : Prop where
  db : t.db = s.db
  seqs : t.seqs = s.seqs

theorem Store.Agrees.refl (s : Store) : s.Agrees s := ⟨rfl, rfl⟩

/-- So do the sessions, with the same uncommitted writes. -/
structure Conn.Agrees (c d : Conn) : Prop where
  store : c.store.Agrees d.store
  session : d.session = c.session

theorem Store.Agrees.symm {s t : Store} (h : s.Agrees t) : t.Agrees s := ⟨h.db.symm, h.seqs.symm⟩

theorem Store.Agrees.trans {s t u : Store} (h : s.Agrees t) (h' : t.Agrees u) : s.Agrees u :=
  ⟨h'.db.trans h.db, h'.seqs.trans h.seqs⟩

theorem Conn.Agrees.refl (c : Conn) : c.Agrees c := ⟨.refl _, rfl⟩

theorem Conn.Agrees.trans {c d e : Conn} (h : c.Agrees d) (h' : d.Agrees e) : c.Agrees e :=
  ⟨h.store.trans h'.store, h'.session.trans h.session⟩

theorem Conn.Agrees.symm {c d : Conn} (h : c.Agrees d) : d.Agrees c :=
  ⟨h.store.symm, h.session.symm⟩

/-- The session with another cache in its store. -/
def Conn.recached (c : Conn) (cache : List (Id × Decimal)) : Conn :=
  ⟨{ c.store with cache := cache }, c.session⟩

theorem Conn.Agrees.recached {c d : Conn} (h : c.Agrees d) : d = c.recached d.store.cache := by
  obtain ⟨⟨db, seqs, cache⟩, session⟩ := d
  obtain ⟨⟨rfl, rfl⟩, rfl⟩ := h
  rfl

theorem Conn.agrees_recached (c : Conn) (cache : List (Id × Decimal)) :
    c.Agrees (c.recached cache) := ⟨⟨rfl, rfl⟩, rfl⟩

/-- A request that is not about the cache leaves it alone. -/
theorem Conn.exec_recached (cfg : Config) {r : Request} (hr : ¬ r.onCache = true) (c : Conn)
    (cache : List (Id × Decimal)) :
    Conn.exec cfg r (c.recached cache) =
      ((Conn.exec cfg r c).1, (Conn.exec cfg r c).2.recached cache) := by
  cases r with
  | select q =>
    rw [Conn.exec_select, Conn.exec_select]
    show (if c.session.failed then _ else _) = _
    split <;> rfl
  | mutate m =>
    rw [Conn.exec_mutate, Conn.exec_mutate]
    have hview : (c.recached cache).view = c.view := rfl
    have hseqs : (c.recached cache).store.seqs = c.store.seqs := rfl
    have hfailed : (c.recached cache).session.failed = c.session.failed := rfl
    rw [hview, hseqs, hfailed]
    split
    · rfl
    · cases m.exec cfg c.store.seqs c.view with
      | ok x => rfl
      | error e => rfl
  | commit =>
    rw [Conn.exec_commit, Conn.exec_commit]
    show (if c.session.failed then _ else _) = _
    split <;> rfl
  | rollback => rfl
  | uuid4 => rfl
  | cacheGet a => exact absurd rfl hr
  | cacheSet a amount => exact absurd rfl hr
  | cacheDelete a => exact absurd rfl hr

/-- A request about the cache leaves the rest alone. -/
theorem Conn.agrees_exec (cfg : Config) {r : Request} (hr : r.onCache = true) (c : Conn) :
    c.Agrees (Conn.exec cfg r c).2 := by
  cases r with
  | cacheGet a => exact ⟨⟨rfl, rfl⟩, rfl⟩
  | cacheSet a amount => exact ⟨⟨rfl, rfl⟩, rfl⟩
  | cacheDelete a => exact ⟨⟨rfl, rfl⟩, rfl⟩
  | _ => cases hr

section servers

variable (server : CacheServer κ)

theorem CacheServer.exec_off {r : Request} (hr : ¬ r.onCache = true) (c : Conn) (k : κ) :
    server.exec cfg r (c, k) = ((Conn.exec cfg r c).1, (Conn.exec cfg r c).2, k) := by
  cases r with
  | cacheGet a => exact absurd rfl hr
  | cacheSet a amount => exact absurd rfl hr
  | cacheDelete a => exact absurd rfl hr
  | _ => rfl

theorem CacheServer.exec_on {r : Request} (hr : r.onCache = true) (c : Conn) (k : κ) :
    (server.exec cfg r (c, k)).2.1 = c := by
  cases r with
  | cacheGet a => rfl
  | cacheSet a amount => rfl
  | cacheDelete a => rfl
  | _ => cases hr

/-- Outside the cache, the server makes no difference. -/
theorem alike_exec : Alike (fun r : Request => r.onCache = true) (Conn.exec cfg) (server.exec cfg)
    fun c d => c.Agrees d.1 where
  answer := by
    rintro r c ⟨d, k⟩ hr h
    have hd : d = c.recached d.store.cache := h.recached
    rw [server.exec_off hr, hd, Conn.exec_recached cfg hr]
  next := by
    rintro r c ⟨d, k⟩ h
    by_cases hr : r.onCache = true
    · rw [server.exec_on hr]
      exact (Conn.agrees_exec cfg hr c).symm.trans h
    · have hd : d = c.recached d.store.cache := h.recached
      rw [server.exec_off hr, hd, Conn.exec_recached cfg hr]
      exact Conn.agrees_recached _ _

end servers

/-! ## Balance reads -/

/-- The request selects rows, or is about the cache. -/
def Request.reads : Request → Bool
  | .select _ => true
  | r => r.onCache

theorem consulting_reads : Consulting fun r => r.reads = true :=
  ⟨fun _ => rfl, fun _ => rfl, fun _ _ => rfl⟩

/-- What reads changes nothing but the cache. -/
theorem Conn.agrees_reads (cfg : Config) {r : Request} (hr : r.reads = true) (c : Conn) :
    c.Agrees (Conn.exec cfg r c).2 := by
  by_cases hcache : r.onCache = true
  · exact Conn.agrees_exec cfg hcache c
  · cases r with
    | select q =>
      rw [Conn.exec_select]
      split <;> exact ⟨⟨rfl, rfl⟩, rfl⟩
    | _ => exact absurd hr hcache

/-! ## Entry points beside a server -/

/-- What a process leaves that is killed after `n` requests, beside the server. -/
def Entry.killedWith (server : CacheServer κ) (cfg : Config) (web : Web) (pay : Payments) (n : ℕ)
    (e : Entry) (x : Store × κ) : Store × κ :=
  let d := Program.killed (server.exec cfg) n (e.program cfg web pay) (⟨x.1, Session.fresh⟩, x.2)
  (d.1.store, d.2)

/-- One process after the other beside the server, each killed somewhere. -/
abbrev crashWith (server : CacheServer κ) (cfg : Config) (web : Web) (pay : Payments) :
    Entry × ℕ → Store × κ → Store × κ := fun y x => y.1.killedWith server cfg web pay y.2 x

/-- What it answers when it runs to its end. -/
def Entry.responseWith (server : CacheServer κ) (cfg : Config) (web : Web) (pay : Payments)
    (e : Entry) (x : Store × κ) : Except Exn (Option Response) :=
  (Program.run (server.exec cfg) (e.program cfg web pay) (⟨x.1, Session.fresh⟩, x.2)).1

/-- What it answers on a store with its own cache. -/
def Entry.response (cfg : Config) (web : Web) (pay : Payments) (e : Entry) (s : Store) :
    Except Exn (Option Response) :=
  (runOn cfg (e.program cfg web pay) ⟨s, Session.fresh⟩).1

section entries

variable (server : CacheServer κ)

theorem Store.Agrees.fresh {s t : Store} (h : s.Agrees t) :
    Conn.Agrees ⟨s, Session.fresh⟩ ⟨t, Session.fresh⟩ := ⟨h, rfl⟩

/-- What reads leaves the rows alone, beside the server too. -/
theorem agrees_of_reads {α : Type} {p : App α} (hp : p.All fun r => r.reads = true) (c : Conn)
    (k : κ) (n : ℕ) : c.Agrees (Program.killed (Conn.exec cfg) n p c) ∧
      c.Agrees (Program.killed (server.exec cfg) n p (c, k)).1 := by
  have hplain : p.Throughout (Conn.exec cfg) (fun d => c.Agrees d) c :=
    Program.Throughout.of_all (fun r d hr hd => hd.trans (Conn.agrees_reads cfg hr d)) hp (.refl c)
  have hserved : p.Throughout (server.exec cfg) (fun d => c.Agrees d.1) (c, k) := by
    refine Program.Throughout.of_all (fun r d hr hd => hd.trans ?_) hp (.refl c)
    obtain ⟨d, k⟩ := d
    by_cases hcache : r.onCache = true
    · rw [server.exec_on hcache]
      exact .refl d
    · rw [server.exec_off hcache]
      exact Conn.agrees_reads cfg hr d
  exact ⟨Program.throughout_iff_killed.1 hplain n, Program.throughout_iff_killed.1 hserved n⟩

/-- An entry point that is killed, beside the server and without it. -/
theorem Store.Agrees.killed {x : Store × κ} (h : s.Agrees x.1) (web : Web) (pay : Payments) (n : ℕ)
    (e : Entry) : (e.killed cfg web pay n s).Agrees (e.killedWith server cfg web pay n x).1 := by
  by_cases he : ∃ number, e = .accountBalance number
  · obtain ⟨number, rfl⟩ := he
    have hreads : ((Entry.accountBalance number).program cfg web pay).All fun r => r.reads = true :=
      all_map (consulting_reads.accountBalance number) _
    have hplain : Conn.Agrees ⟨s, Session.fresh⟩ (Program.killed (Conn.exec cfg) n _ _) :=
      (agrees_of_reads server hreads ⟨s, Session.fresh⟩ x.2 n).1
    have hserved : Conn.Agrees ⟨x.1, Session.fresh⟩
        (Program.killed (server.exec cfg) n _ (⟨x.1, Session.fresh⟩, x.2)).1 :=
      (agrees_of_reads server hreads ⟨x.1, Session.fresh⟩ x.2 n).2
    exact hplain.store.symm.trans (h.trans hserved.store)
  · have hblind : CacheBlind (e.program cfg web pay) :=
      cacheBlind_entry web pay fun number hnumber => he ⟨number, hnumber⟩
    exact (hblind.killed_alike (alike_exec server) (t := (⟨x.1, Session.fresh⟩, x.2)) h.fresh
      n).store

/-- One that runs to its end answers alike, the reader of balances apart. -/
theorem Store.Agrees.response {x : Store × κ} (h : s.Agrees x.1) (web : Web) (pay : Payments)
    {e : Entry} (he : ∀ number, e ≠ .accountBalance number) :
    e.responseWith server cfg web pay x = e.response cfg web pay s := by
  have hblind : CacheBlind (e.program cfg web pay) := cacheBlind_entry web pay he
  exact (hblind.run_alike (alike_exec server) (t := (⟨x.1, Session.fresh⟩, x.2)) h.fresh).1.symm

/-- Any number of them. -/
theorem Store.Agrees.killedAll {x : Store × κ} (h : s.Agrees x.1) (web : Web) (pay : Payments)
    (xs : List (Entry × ℕ)) :
    (xs.foldl (fun s y => crash cfg web pay y s) s).Agrees
      (xs.foldl (fun x y => crashWith server cfg web pay y x) x).1 := by
  induction xs generalizing s x with
  | nil => exact h
  | cons y xs ih => exact ih (h.killed server web pay y.2 y.1)

/-! ## Reads that the cache cannot answer -/

/-- What the ledger answers to a reader of balances. -/
def Books.reading (b : Books) (number : String) : Except Exn (Option Response) :=
  match b.numbered number with
  | none => .error (.domain (.accountNotFound number))
  | some account => (b.balance account).map fun money => some ⟨200, serializeBalance account money⟩

/-- The server does not answer with an amount: it has none, or it fails. -/
def CacheServer.Misses (server : CacheServer κ) (k : κ) : Prop :=
  ∀ a, (server.get a k).1 = .ok none ∨ ∃ e, (server.get a k).1 = .error e

/-- What asks nothing of the cache runs as it does without the server. -/
theorem CacheServer.run_off {α : Type} {p : App α} (hp : OffCache p) (c : Conn) (k : κ) :
    p.run (server.exec cfg) (c, k) = ((runOn cfg p c).1, (runOn cfg p c).2, k) := by
  induction p generalizing c with
  | ret a => rfl
  | raise e => rfl
  | call r f ih =>
    rw [Program.run_call, server.exec_off hp.1]
    exact ih _ (hp.2 _) _

/-- A cache that misses is no cache. -/
theorem CacheServer.run_get_of_misses {k : κ} (hmiss : server.Misses k) (account : Account)
    (c : Conn) :
    (BalanceCache.get account.id account.currency).run (server.exec cfg) (c, k) =
      (.ok none, c, (server.get account.id k).2) := by
  have hexec : server.exec cfg (.cacheGet account.id) (c, k) =
      ((server.get account.id k).1, c, (server.get account.id k).2) := rfl
  unfold BalanceCache.get
  rw [Program.run_bind, Program.run_attempt, ask, Program.run_call, Program.run_ofExcept, hexec]
  rcases hmiss account.id with h | ⟨e, h⟩
  · rw [h]
    rfl
  · rw [h]
    rfl

/-- Writing to the cache returns, whether it works or not. -/
theorem CacheServer.run_set (account : Id) (money : Money) (x : Conn × κ) :
    ((BalanceCache.set account money).run (server.exec cfg) x).1 = .ok () := by
  obtain ⟨c, k⟩ := x
  have hexec : server.exec cfg (.cacheSet account money.amount) (c, k) =
      ((server.set account money.amount k).1, c, (server.set account money.amount k).2) := rfl
  unfold BalanceCache.set
  rw [Program.run_attempt, ask, Program.run_call, Program.run_ofExcept, hexec]
  cases (server.set account money.amount k).1 <;> rfl

/-- A balance that the cache cannot give is the ledger's. -/
theorem CacheServer.run_query_of_misses {k : κ} (hmiss : server.Misses k) (account : Account)
    (s : Store) :
    ((BalanceQuery.get account).run (server.exec cfg) (⟨s, Session.fresh⟩, k)).1 =
      s.db.books.balance account := by
  have hbalance : OffCache (LedgerService.balance account) :=
    (offCache_select _).bind fun _ => (offCache_select _).bind fun _ => Program.all_ofExcept _
  have hview : (Conn.mk s Session.fresh).view.books = s.db.books := rfl
  unfold BalanceQuery.get
  rw [Program.run_bind, server.run_get_of_misses hmiss]
  dsimp only
  rw [Program.run_bind, server.run_off hbalance, run_balance rfl, hview]
  cases s.db.books.balance account with
  | error e => rfl
  | ok money =>
    dsimp only
    have hok : ((BalanceCache.set account.id money).run (server.exec cfg)
        (⟨s, Session.fresh⟩, (server.get account.id k).2)).1 = .ok () :=
      server.run_set account.id money _
    rw [Program.run_bind]
    cases hset : (BalanceCache.set account.id money).run (server.exec cfg)
        (⟨s, Session.fresh⟩, (server.get account.id k).2) with
    | mk o d =>
      rw [hset] at hok
      obtain rfl : o = .ok () := hok
      rfl

/-- A read that the cache cannot answer is answered by the ledger. -/
theorem reading_of_misses {x : Store × κ} (hmiss : server.Misses x.2) (number : String) :
    (Entry.accountBalance number).responseWith server cfg web pay x =
      x.1.db.books.reading number := by
  obtain ⟨s, k⟩ := x
  have hnumber : OffCache (AccountService.getByNumber number) :=
    bookkeeping_offCache.getByNumber number
  unfold Entry.responseWith Books.reading Entry.program
  rw [Program.run_map]
  unfold accountBalance
  rw [Program.run_bind, server.run_off hnumber]
  cases hfound : s.db.books.numbered number with
  | none =>
    rw [run_getByNumber_missing hfound]
    rfl
  | some account =>
    have hquery : ((BalanceQuery.get account).run (server.exec cfg) (⟨s, Session.fresh⟩, k)).1 =
        s.db.books.balance account := server.run_query_of_misses hmiss account s
    rw [run_getByNumber hfound]
    dsimp only
    rw [Program.run_bind, ← hquery]
    cases (BalanceQuery.get account).run (server.exec cfg) (⟨s, Session.fresh⟩, k) with
    | mk o d => cases o <;> rfl

/-- **The cache decides nothing.**  Whatever the cache server does (fail, forget, answer with what
is no longer so), and wherever the processes of requests, webhooks and commands are killed, the
rows are those that are stored without it; every entry point but a balance read answers as it does
without it; and a balance read that the server cannot answer is answered by the ledger. -/
theorem cache_decides_nothing (xs : List (Entry × ℕ)) (s : Store) (k : κ) :
    let served := xs.foldl (fun x y => crashWith server cfg web pay y x) (s, k)
    let alone := xs.foldl (fun s y => crash cfg web pay y s) s
    served.1.db = alone.db ∧
      (∀ e : Entry, (∀ number, e ≠ .accountBalance number) →
        e.responseWith server cfg web pay served = e.response cfg web pay alone) ∧
      (server.Misses served.2 → ∀ number,
        (Entry.accountBalance number).responseWith server cfg web pay served =
          alone.db.books.reading number) := by
  intro served alone
  have hagrees : alone.Agrees served.1 := Store.Agrees.killedAll server (.refl s) web pay xs
  refine ⟨hagrees.db, fun e he => hagrees.response server web pay he, fun hmiss number => ?_⟩
  rw [reading_of_misses server hmiss, hagrees.db]

end entries

/-- A cache server that is down. -/
def deadCache : CacheServer Unit where
  get _ _ := (.error .pendingRollback, ())
  set _ _ _ := (.error .pendingRollback, ())
  delete _ _ := (.error .pendingRollback, ())

/-- Alice's balance is read while the cache is down: it is the ledger's. -/
theorem balance_without_cache :
    let cfg := offlineConfig 100
    let served := (killedCommands ++ [(Entry.post keyedRequest, 25)]).foldl
      (fun x y => crashWith deadCache cfg transferBodies signedPayments y x) (Store.empty, ())
    (Entry.accountBalance "2000000000").responseWith deadCache cfg transferBodies signedPayments
      served = .ok (some ⟨200, [("account_number", .text "2000000000"), ("balance", .text "30.00"),
        ("currency", .text "EUR")]⟩) := by
  intro cfg served
  have hdown : deadCache.Misses served.2 := fun _ => .inr ⟨_, rfl⟩
  have hread : (Entry.accountBalance "2000000000").responseWith deadCache cfg transferBodies
      signedPayments served = ((killedCommands ++ [(Entry.post keyedRequest, 25)]).foldl
        (fun s y => crash cfg transferBodies signedPayments y s) Store.empty).db.books.reading
          "2000000000" :=
    (cache_decides_nothing deadCache (killedCommands ++ [(Entry.post keyedRequest, 25)])
      Store.empty ()).2.2 hdown "2000000000"
  exact hread.trans (by decide +kernel)

end WalletLedger
