import WalletLedger.Operations.Refinement
import WalletLedger.Lib.Runs

/-!
# Operations, one after the other

The service operations as the steps of a sequential system: each runs alone on a
fresh session, to its commit or to the exception that drops its writes, before the
next one starts.

* `Operation.run_effect` — the code refines the abstract ledger: an operation leaves
  the books as they are or has its `Effect` on them.
* `Store.balance_eq` — a balance is read off the books.
-/

namespace WalletLedger

/-- An operation alone on the store; what its session has not committed is lost. -/
def Operation.run (cfg : Config) (op : Operation) (s : Store) : Store :=
  (Program.run (Conn.exec cfg) (op.program cfg) ⟨s, Session.fresh⟩).2.store

/-- What it returns or raises. -/
def Operation.outcome (cfg : Config) (op : Operation) (s : Store) : Except Exn Unit :=
  (Program.run (Conn.exec cfg) (op.program cfg) ⟨s, Session.fresh⟩).1

/-- The operations of the list, in order. -/
def runAll (cfg : Config) (ops : List Operation) (s : Store) : Store :=
  ops.foldl (fun s op => op.run cfg s) s

/-- A balance as the service reads it from the stored state. -/
def Store.balance (cfg : Config) (s : Store) (account : Account) : Except Exn Money :=
  (Program.run (Conn.exec cfg) (LedgerService.balance account) ⟨s, Session.fresh⟩).1

/-- The available balance as the service reads it from the stored state. -/
def Store.availableBalance (cfg : Config) (s : Store) (account : Account) : Except Exn Money :=
  (Program.run (Conn.exec cfg) (LedgerService.availableBalance account) ⟨s, Session.fresh⟩).1

/-- A configuration with a provider that echoes the reference it is given, and no
notification channel. -/
def offlineConfig (snapshotEveryNEntries : ℤ) : Config :=
  { snapshotEveryNEntries := snapshotEveryNEntries
    autoApprovalLimit := 1000000
    randbelow := fun n => n
    getPaymentProvider := fun _ => .ok ⟨fun _ _ reference _ => .ok reference⟩
    channels := []
    foreignKeyLocks := true }

variable {cfg : Config} {s : Store}

/-- The code refines the abstract ledger. -/
theorem Operation.run_effect (hs : s.db.books.Keyed s.seqs) (op : Operation) :
    (op.run cfg s).db.books = s.db.books ∨
      Effect cfg s.db.books op (op.run cfg s).db.books :=
  (op.commits hs).run (c := ⟨s, Session.fresh⟩) rfl

/-- What the effect of an operation keeps of the books, the operation keeps. -/
theorem Operation.run_keeps {I : Books → Prop} (hs : s.db.books.Keyed s.seqs) (op : Operation)
    (h : I s.db.books)
    (hI : Effect cfg s.db.books op (op.run cfg s).db.books → I (op.run cfg s).db.books) :
    I (op.run cfg s).db.books := by
  rcases Operation.run_effect hs op with hb | he
  · exact hb.symm ▸ h
  · exact hI he

/-- An operation that has returned has had its effect. -/
theorem Operation.run_effect_of_ok (hs : s.db.books.Keyed s.seqs) {op : Operation}
    (hok : op.outcome cfg s = .ok ()) : Effect cfg s.db.books op (op.run cfg s).db.books := by
  refine (op.commits hs).run_ok (c := ⟨s, Session.fresh⟩) (op.commitsFirst cfg) rfl ?_
  have hrun : (runOn cfg (op.program cfg) ⟨s, Session.fresh⟩).1 = .ok () := hok
  rw [hrun]
  rfl

theorem Operation.keyed_run (cfg : Config) (hs : s.db.books.Keyed s.seqs) (op : Operation) :
    (op.run cfg s).db.books.Keyed (op.run cfg s).seqs := by
  have hc : Conn.Keyed ⟨s, Session.fresh⟩ := ⟨hs, hs⟩
  exact (hc.run (op.program cfg)).store

/-- The balance is read off the committed books. -/
theorem Store.balance_eq (s : Store) (account : Account) :
    s.balance cfg account = s.db.books.balance account := by
  show (runOn cfg (LedgerService.balance account) ⟨s, Session.fresh⟩).1 = _
  unfold LedgerService.balance LedgerService.latestSnapshot LedgerService.sum
  rw [runOn, Program.run_bind]
  show (Program.run (Conn.exec cfg) (Program.ofExcept _) _).1 = _
  rw [Program.run_ofExcept]
  rfl

/-- So is the available balance. -/
theorem Store.availableBalance_eq (s : Store) (account : Account) :
    s.availableBalance cfg account = s.db.books.availableBalance account := by
  show (runOn cfg (LedgerService.availableBalance account) ⟨s, Session.fresh⟩).1 = _
  unfold LedgerService.availableBalance LedgerService.balance LedgerService.latestSnapshot
    LedgerService.sum Books.availableBalance
  rw [runOn, Program.bind_assoc]
  show (Program.run (Conn.exec cfg) (Program.ofExcept (s.db.books.balance account) >>= _) _).1 = _
  cases s.db.books.balance account with
  | error e => rfl
  | ok settled =>
    show (Program.run (Conn.exec cfg) (Program.ofExcept _) _).1 = _
    rw [Program.run_ofExcept]
    rfl

end WalletLedger
