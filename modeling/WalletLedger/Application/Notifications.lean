import WalletLedger.Application.Accounts

/-!
# Subscribers

What reacts to the events: the notification service (`application/notifications.py`),
which messages the client and keeps a trace of it, and the invalidation of cached
balances that the application factory wires to the bus.
-/

namespace WalletLedger

namespace NotificationService

/-- `_recipient_for`: the owner of the account, or its identifier when the lookup fails. -/
def recipientFor (accountId : Id) : App String :=
  (Account.ownerId <$> AccountService.get accountId).attempt fun _ => .ret accountId.text

/-- `_notify`: every channel sends, and the trace is committed. -/
def notify (cfg : Config) (accountId : Id) (message : String) (event : DomainEvent) : App Unit := do
  let recipient ← recipientFor accountId
  Program.forEach cfg.channels fun channel => do
    let sent ← Program.ofExcept (channel.send recipient message)
    ask (.mutate (.insertNotification channel.name recipient message event.eventType.name
      (if sent then "SENT" else "FAILED") event.correlationId))
  ask .commit

def onTransferCompleted (cfg : Config) (event : DomainEvent) : App Unit := do
  let amount ← ofOption (.keyError "amount") event.payload.amount
  let currency ← ofOption (.keyError "currency") event.payload.currency
  let message := "Transfert de " ++ amount ++ " " ++ currency ++ " effectué."
  let senderId ← ofOption (.keyError "sender_id") event.payload.senderId
  notify cfg senderId message event

/-- `_notify_transaction_party`: no recipient, no message. -/
def notifyTransactionParty (cfg : Config) (event : DomainEvent) (message : String) : App Unit :=
  match event.payload.senderId.or event.payload.accountId with
  | some recipientAccount => notify cfg recipientAccount message event
  | none => return ()

def onTransferFailed (cfg : Config) (event : DomainEvent) : App Unit :=
  notifyTransactionParty cfg event
    "Votre transfert a échoué ; les fonds réservés ont été libérés."

def onDepositCompleted (cfg : Config) (event : DomainEvent) : App Unit := do
  let amount ← ofOption (.keyError "amount") event.payload.amount
  let currency ← ofOption (.keyError "currency") event.payload.currency
  let message := "Dépôt de " ++ amount ++ " " ++ currency ++ " crédité sur votre compte."
  let accountId ← ofOption (.keyError "account_id") event.payload.accountId
  notify cfg accountId message event

end NotificationService

/-- `BalanceCache.invalidate`: a cache that fails is ignored. -/
def BalanceCache.invalidate (accountId : Id) : App Unit :=
  (ask (.cacheDelete accountId)).attempt fun _ => .ret ()

/-- `_invalidate_balances`: the accounts the payload names. -/
def invalidateBalances (event : DomainEvent) : App Unit :=
  Program.forEach
    (event.payload.senderId.toList ++ event.payload.receiverId.toList ++
      event.payload.accountId.toList)
    BalanceCache.invalidate

/-- `_wire_event_subscribers`. -/
def subscribers (cfg : Config) : EventType → List (DomainEvent → App Unit)
  | .transferCompleted => [NotificationService.onTransferCompleted cfg, invalidateBalances]
  | .transferFailed => [NotificationService.onTransferFailed cfg, invalidateBalances]
  | .depositCompleted => [NotificationService.onDepositCompleted cfg, invalidateBalances]
  | .fundsReserved => [invalidateBalances]

end WalletLedger
