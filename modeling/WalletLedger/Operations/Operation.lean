import WalletLedger.Application.Transfers
import WalletLedger.Application.Deposits
import WalletLedger.Application.Fx
import WalletLedger.Application.Reversals

/-!
# The operations of the services

The entry points of the services, with their inputs, as one type.
-/

namespace WalletLedger

/-- The operations of the services, with their inputs. -/
inductive Operation where
  | createAccount (ownerId currency : String)
  | initiateDeposit (accountId : Id) (amount : Decimal) (provider : String)
      (context : DepositContext) (correlationId : Option String)
  | settle (reference : String) (confirmedAmount : Option Decimal)
      (confirmedCurrency : Option String)
  | execute (senderId receiverId : Id) (amount : Decimal) (correlationId : Option String)
  | initiate (senderId receiverId : Id) (amount : Decimal) (correlationId : Option String)
  | commit (transactionId : Id)
  | fail (transactionId : Id)
  | executeFxTransfer (rates : RateTable) (senderId receiverId : Id) (amount : Decimal)
      (correlationId : Option String)
  | reverse (transactionId : Id) (correlationId : Option String)

namespace Operation

/-- The program of an operation, its result dropped. -/
def program (cfg : Config) : Operation → App Unit
  | createAccount ownerId currency => (fun _ => ()) <$> AccountService.create ownerId currency
  | initiateDeposit accountId amount provider context correlationId =>
      (fun _ => ()) <$>
        DepositService.initiate cfg accountId amount provider context correlationId
  | settle reference confirmedAmount confirmedCurrency =>
      (fun _ => ()) <$> DepositService.settle cfg reference confirmedAmount confirmedCurrency
  | execute senderId receiverId amount correlationId =>
      (fun _ => ()) <$> TransferService.execute cfg senderId receiverId amount correlationId
  | initiate senderId receiverId amount correlationId =>
      (fun _ => ()) <$> TransferService.initiate cfg senderId receiverId amount correlationId
  | commit transactionId => (fun _ => ()) <$> TransferService.commit cfg transactionId
  | fail transactionId => (fun _ => ()) <$> TransferService.fail cfg transactionId
  | executeFxTransfer rates senderId receiverId amount correlationId =>
      (fun _ => ()) <$>
        FxService.executeFxTransfer cfg rates senderId receiverId amount correlationId
  | reverse transactionId correlationId =>
      (fun _ => ()) <$> ReversalService.reverse cfg transactionId correlationId

end Operation

end WalletLedger
