import DarajaWrapper.Python.Values

/-!
# Exceptions

The subclasses of `DarajaError` with the fields that a handler reads. All of
them are caught by `except DarajaError`; whatever else leaves a call to Daraja
is not.
-/

namespace DarajaWrapper

open Python

inductive DarajaErrorClass where
  | daraja
  | auth
  | circuitOpen (retryAfter : ℤ)
  | timeout
  deriving DecidableEq

structure DarajaError where
  cls : DarajaErrorClass := .daraja
  darajaCode : Json := .null
  darajaDescription : Json := .null
  httpStatus : Option ℕ := none

/-- What `DarajaClient.post` and `STKPushInitiator.initiate` raise. -/
inductive CallError where
  | daraja (e : DarajaError)
  /-- `tenacity.RetryError`, raised when the attempts are used up. -/
  | retryError
  /-- An error of the token cache, or a body that is not JSON. -/
  | other

/-- What `initiate_stk_push` raises. -/
inductive ServiceError where
  | duplicatePayment (idempotencyKey : String)
  | call (e : CallError)
  /-- A failed statement, a violated constraint or a lost connection. -/
  | database

end DarajaWrapper
