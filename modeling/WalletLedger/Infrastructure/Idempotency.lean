import WalletLedger.Domain.Events

/-!
# Idempotent requests

`infrastructure/idempotency.py`: the decorator of the POST endpoints.  The key is
inserted and committed before the view runs, its unique constraint deciding who may
run it; it is deleted again when the view raises, and carries the response once the
view has returned.
-/

namespace WalletLedger

/-- An HTTP response. -/
structure Response where
  status : ℕ
  body : Json
  deriving DecidableEq

/-- `_conflict`. -/
def conflict (message : String) : Response :=
  ⟨409, [("error", .text message), ("code", .text "IDEMPOTENCY_CONFLICT")]⟩

/-- `_resolve_duplicate`. -/
def resolveDuplicate (key requestHash : String) : App Response := do
  let existing ← ask (.select (.idempotencyKey key))
  match existing with
  | none => return conflict "Clé d'idempotence non résolue"
  | some existing =>
      if existing.requestHash ≠ requestHash then
        return conflict "Clé d'idempotence réutilisée avec un corps différent"
      else
        match existing.responseBody with
        | none => return conflict "Une requête avec cette clé est déjà en cours"
        | some body => return ⟨existing.responseStatus.getD 200, body⟩

/-- Insert and commit the key: `none` if it is ours, else the answer to give. -/
def claimKey (key requestHash : String) : App (Option Response) :=
  Program.attempt
    (do
      ask (.mutate (.insertKey key requestHash))
      ask .commit
      return none)
    fun e =>
      match e with
      | .service .integrity => do
          ask .rollback
          some <$> resolveDuplicate key requestHash
      | e => .raise e

/-- The view raised: drop its writes and free the key. -/
def releaseKey (key : String) : App Unit := do
  ask .rollback
  let claim ← ask (.select (.idempotencyKey key))
  match claim with
  | some claim =>
      if ¬ claim.isCompleted then do
        ask (.mutate (.deleteKey claim.id))
        ask .commit
      else return ()
  | none => return ()

/-- The view returned: store its response with the key. -/
def storeResponse (key : String) (response : Response) : App Unit := do
  let claim ← ask (.select (.idempotencyKey key))
  let claim ← ofOption .attributeError claim
  ask (.mutate (.completeKey claim.id response.status response.body))
  ask .commit

/-- `idempotent.wrapper`. -/
def idempotent (key : Option String) (requestHash : String) (view : App Response) : App Response :=
  match key with
  | none => view
  | some key =>
      if key = "" then view
      else do
        let replayed ← claimKey key requestHash
        match replayed with
        | some response => return response
        | none => do
            let response ← view.attempt fun e => do
              releaseKey key
              .raise e
            storeResponse key response
            return response

end WalletLedger
