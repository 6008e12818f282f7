import Mathlib.Tactic.Common

/-!
# Dashboard users

`dashboard_users` and what a request learns from the row of its caller: the roles it may act in and the
deals it may see.
-/

set_option autoImplicit false

namespace SalesTrades.Users

/-- `VALID_ROLES`. The scripts also store role names from before they were renamed. -/
inductive Role where
  | superadmin
  | admin
  | hod
  | teamLead
  | rep
  | other (name : String)
  deriving DecidableEq

/-- `DashboardUser`. -/
structure DashboardUser where
  email : String
  role : Role
  ownerId : Option Int := none
  deriving DecidableEq

/-- `HTTPException`. -/
structure HttpError where
  statusCode : Nat
  detail : String
  deriving DecidableEq

/-- `get_owner_scope`. -/
def getOwnerScope (user : DashboardUser) : Except HttpError (Option Int) :=
  match user.role with
  | .rep =>
      match user.ownerId with
      | none => .error ⟨403, "Rep account is not linked to a Freshsales owner"⟩
      | some owner => .ok (some owner)
  | _ => .ok none

/-- A rep sees the deals of the linked owner. -/
theorem getOwnerScope_rep {user : DashboardUser} {owner : Int} (hrole : user.role = .rep)
    (howner : user.ownerId = some owner) : getOwnerScope user = .ok (some owner) := by
  rw [getOwnerScope, hrole, howner]

end SalesTrades.Users
