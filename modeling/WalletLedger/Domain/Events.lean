import WalletLedger.Models.Statements

/-!
# Events and the bus

`domain/events.py`: the events published after a commit, and the synchronous bus
that hands them to their subscribers.  A subscriber that raises is isolated: the
exception goes no further than the bus.
-/

namespace WalletLedger

inductive EventType where
  | fundsReserved
  | transferCompleted
  | transferFailed
  | depositCompleted
  deriving DecidableEq, Repr

/-- The name an event is published under. -/
def EventType.name : EventType → String
  | .fundsReserved => "FundsReserved"
  | .transferCompleted => "TransferCompleted"
  | .transferFailed => "TransferFailed"
  | .depositCompleted => "DepositCompleted"

/-- The payload dictionary; an absent key is `none`. -/
structure Payload where
  transactionId : Id
  senderId : Option Id := none
  receiverId : Option Id := none
  accountId : Option Id := none
  amount : Option String := none
  currency : Option String := none
  targetAmount : Option String := none
  targetCurrency : Option String := none
  deriving DecidableEq

structure DomainEvent where
  eventType : EventType
  payload : Payload
  correlationId : Option String
  deriving DecidableEq

/-- A value that may be missing. -/
def ofOption {α : Type} (e : Exn) : Option α → App α
  | some a => .ret a
  | none => .raise e

/-- `if p: raise e`. -/
def raiseIf (p : Prop) [Decidable p] (e : Exn) : App Unit := if p then .raise e else .ret ()

/-- `EventBus.publish`: every handler runs, whatever the others raise. -/
def EventBus.publish (subscribers : EventType → List (DomainEvent → App Unit))
    (event : DomainEvent) : App Unit :=
  Program.forEach (subscribers event.eventType) fun handler =>
    (handler event).attempt fun _ => .ret ()

end WalletLedger
