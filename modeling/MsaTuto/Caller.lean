import MsaTuto.Js

/-! Who is calling: the user object the game-event server's `JwtStrategy.validate`
builds from a verified payload, and the `@User` decorator. -/
namespace MsaTuto
open Js

def gameJwtValidate (payload : Json) : Json :=
  literal [("userId", payload.field "sub"), ("email", payload.field "email"),
    ("roles", orElse (payload.field "roles") (some (.arr [])))]

/-- `@User(data)`: `data ? user?.[data] : user`. -/
def userDecorator (data : String) (user : Value) : Value :=
  if data ≠ "" then optGet user data else user

/-- The subject of a payload, where it is a string as in every token issued. -/
def subject (payload : Json) : Option String :=
  match payload.field "sub" with
  | some (.str s) => some s
  | _ => none

/-- The strategy names the field `userId`, so `@User('id')` picks out nothing. -/
theorem user_field_id (payload : Json) :
    userDecorator "id" (some (gameJwtValidate payload)) = none :=
  lookup_spread_of_notMem (by simp) []

end MsaTuto
