import Mathlib.Data.List.Basic

/-! Exceptions as the three servers raise them, and the role enumeration the
servers repeat (auth-server `Role`, game-event-server `UserRole`). -/
namespace MsaTuto

inductive HttpExceptionClass where
  | badRequest | unauthorized | forbidden | notFound | conflict | internalServerError
  deriving DecidableEq, Repr

def HttpExceptionClass.status : HttpExceptionClass → Nat
  | .badRequest => 400
  | .unauthorized => 401
  | .forbidden => 403
  | .notFound => 404
  | .conflict => 409
  | .internalServerError => 500

/-- A raised error: an `HttpException`, or any other JavaScript error by its name. -/
inductive Failure where
  | http (cls : HttpExceptionClass) (message : String)
  | native (name : String)
  deriving DecidableEq, Repr

def Failure.isBadRequest : Failure → Bool
  | .http .badRequest _ => true
  | _ => false

def Failure.isUnauthorized : Failure → Bool
  | .http .unauthorized _ => true
  | _ => false

def Failure.isNotFound : Failure → Bool
  | .http .notFound _ => true
  | _ => false

def Failure.isConflict : Failure → Bool
  | .http .conflict _ => true
  | _ => false

inductive Role where
  | USER | OPERATOR | AUDITOR | ADMIN
  deriving DecidableEq, Repr

def Role.value : Role → String
  | .USER => "USER"
  | .OPERATOR => "OPERATOR"
  | .AUDITOR => "AUDITOR"
  | .ADMIN => "ADMIN"

def Role.ofValue : String → Option Role
  | "USER" => some .USER
  | "OPERATOR" => some .OPERATOR
  | "AUDITOR" => some .AUDITOR
  | "ADMIN" => some .ADMIN
  | _ => none

theorem Role.ofValue_value (role : Role) : Role.ofValue role.value = some role := by
  cases role <;> rfl

theorem Role.value_injective : Function.Injective Role.value := by
  intro role role' h
  have hsome := congrArg Role.ofValue h
  simpa [Role.ofValue_value] using hsome

theorem Role.value_of_ofValue {s : String} {role : Role} (h : Role.ofValue s = some role) :
    s = role.value := by
  unfold Role.ofValue at h
  split at h <;> first | (cases h; rfl) | cases h

end MsaTuto
