import Mathlib.Order.BooleanAlgebra.Set
import SalesTrades.Library.DirtyWrite
import SalesTrades.Library.Interleaving
import SalesTrades.Python
import SalesTrades.Users.Model

/-!
# The last superadmin

Superadmins create, change and delete dashboard users. A request reads the row of its caller, then the
row of its target, then writes, and other requests may run in between. It never acts on its own caller,
but it does not look at the caller again before it writes. So a table with a superadmin keeps one
exactly when each request that takes the role from its target finds its caller still a superadmin, or a
third user who is one (`superadmin_remains_iff`), and in particular when all those callers still are
(`superadmin_remains_of_callers`).
-/

set_option autoImplicit false

namespace SalesTrades.Users

open SalesTrades.Library SalesTrades.Library.Run SalesTrades.Library.Interleaving

universe u

/-! ## The table -/

/-- The columns of a row of `dashboard_users` beside its primary key. -/
structure UserRow where
  role : Role
  ownerId : Option Int := none
  deriving DecidableEq

/-- `dashboard_users` by `email`, and the ids that `owners` has. -/
structure UserTable where
  rows : String → Option UserRow
  owners : Int → Bool

namespace UserTable

/-- `get_user_by_email`. -/
def getUserByEmail (w : UserTable) (email : String) : Option DashboardUser :=
  (w.rows email).map fun row => ⟨email, row.role, row.ownerId⟩

/-- `get_user_by_email` in the session that loaded `held`, which does not read that row again. -/
def sessionGet (w : UserTable) (held : DashboardUser) (email : String) : Option DashboardUser :=
  if email = held.email then some held else w.getUserByEmail email

def set (w : UserTable) (email : String) (row : Option UserRow) : UserTable :=
  { w with rows := Function.update w.rows email row }

/-- The foreign key of `owner_id`. -/
def hasOwner (w : UserTable) (ownerId : Option Int) : Bool := ownerId.all w.owners

/-- `create_user`: the INSERT. -/
def createUser (w : UserTable) (user : DashboardUser) : Except PyError UserTable :=
  if (w.rows user.email).isSome || !w.hasOwner user.ownerId then .error .integrityError
  else .ok (w.set user.email (some ⟨user.role, user.ownerId⟩))

/-- `update_user`: no UPDATE when neither column changes, one of the changed columns otherwise. -/
def updateUser (w : UserTable) (user : DashboardUser) (role : Role) (ownerId : Option Int) :
    Except PyError UserTable :=
  if role = user.role ∧ ownerId = user.ownerId then .ok w
  else
    match w.rows user.email with
    | none => .error .staleDataError
    | some row =>
        if ownerId ≠ user.ownerId ∧ !w.hasOwner ownerId then .error .integrityError
        else .ok (w.set user.email (some
          ⟨dirtyWrite user.role role row.role, dirtyWrite user.ownerId ownerId row.ownerId⟩))

/-- `delete_user`: a row that has gone already is not an error. -/
def deleteUser (w : UserTable) (user : DashboardUser) : UserTable := w.set user.email none

end UserTable

/-! ## The requests -/

/-- `VALID_ROLES`. -/
def Role.isValid : Role → Bool
  | .other _ => false
  | _ => true

/-- `ALLOWED_EMAIL_DOMAINS`. -/
def allowedEmailDomains : List String := ["@churchgate.com", "@wtcabuja.com"]

/-- `_validate_churchgate_email`. -/
def validateChurchgateEmail (py : LowerCase) (v : String) : Except PyError String :=
  if allowedEmailDomains.any fun domain => (py.lower v).endsWith domain then .ok (py.lower v)
  else .error .valueError

/-- `CreateUserRequest`, validated. -/
structure CreateUserRequest (py : LowerCase) where
  email : String
  role : Role
  ownerId : Option Int := none
  email_valid : ∃ v, validateChurchgateEmail py v = .ok email
  role_valid : role.isValid = true

/-- `UpdateUserRequest`, validated. -/
structure UpdateUserRequest where
  role : Role
  ownerId : Option Int := none
  role_valid : role.isValid = true

/-- The requests that change the table. -/
inductive AdminRequest (py : LowerCase) where
  | createUser (body : CreateUserRequest py)
  | updateUser (email : String) (body : UpdateUserRequest)
  | deleteUser (email : String)

/-- `get_current_user`, from the address in the token on. -/
def getCurrentUser (w : UserTable) (sub : String) : Except HttpError DashboardUser :=
  match w.getUserByEmail sub with
  | none => .error ⟨401, "Unknown user"⟩
  | some user => .ok user

/-- `require_role`. -/
def requireRole (roles : List Role) (user : DashboardUser) : Except HttpError DashboardUser :=
  if user.role ∉ roles then .error ⟨403, "Insufficient role"⟩ else .ok user

/-- What `update_user` and `delete_user` begin with: the caller is not the target, and the target is
loaded. -/
def loadTarget (py : LowerCase) (w : UserTable) (currentUser : DashboardUser) (email : String)
    (ownAccount : String) : Except HttpError DashboardUser :=
  if py.lower email = py.lower currentUser.email then .error ⟨400, ownAccount⟩
  else
    match w.sessionGet currentUser email with
    | none => .error ⟨404, "User not found"⟩
    | some user => .ok user

/-- `new_owner` in `update_user`. -/
def newOwner (user : DashboardUser) (body : UpdateUserRequest) : Option Int :=
  if body.role = .rep then body.ownerId.or user.ownerId else none

/-- Where a request stands. -/
inductive AdminPhase (py : LowerCase) where
  | start (sub : String) (request : AdminRequest py)
  | authorised (currentUser : DashboardUser) (request : AdminRequest py)
  | creating (body : CreateUserRequest py)
  | updating (currentUser user : DashboardUser) (body : UpdateUserRequest)
  | deleting (currentUser user : DashboardUser)
  | responded (statusCode : Nat)
  | refused (error : HttpError)
  | raised (error : PyError)

variable {py : LowerCase}

/-- The response to a request whose commit goes through. -/
def commit (w : UserTable) (statusCode : Nat) :
    Except PyError UserTable → Option (UserTable × AdminPhase py)
  | .ok w' => some (w', .responded statusCode)
  | .error e => some (w, .raised e)

/-- The next read or write of a request. -/
def adminStep (py : LowerCase) (w : UserTable) : AdminPhase py → Option (UserTable × AdminPhase py)
  | .start sub request =>
      match (getCurrentUser w sub).bind (requireRole [.superadmin]) with
      | .error e => some (w, .refused e)
      | .ok currentUser => some (w, .authorised currentUser request)
  | .authorised currentUser (.createUser body) =>
      match w.sessionGet currentUser body.email with
      | some _ => some (w, .refused ⟨409, "Email already registered"⟩)
      | none => some (w, .creating body)
  | .authorised currentUser (.updateUser email body) =>
      match loadTarget py w currentUser email "You can't change your own role" with
      | .error e => some (w, .refused e)
      | .ok user => some (w, .updating currentUser user body)
  | .authorised currentUser (.deleteUser email) =>
      match loadTarget py w currentUser email "You can't delete your own account" with
      | .error e => some (w, .refused e)
      | .ok user => some (w, .deleting currentUser user)
  -- the caller is not loaded again
  | .creating body => commit w 201 (w.createUser ⟨body.email, body.role, body.ownerId⟩)
  | .updating _ user body => commit w 200 (w.updateUser user body.role (newOwner user body))
  | .deleting _ user => commit w 200 (.ok (w.deleteUser user))
  | .responded _ | .refused _ | .raised _ => none

/-! ## Superadmins -/

/-- The users with the role. -/
def UserTable.superadmins (w : UserTable) : Set String :=
  {email | (w.rows email).map UserRow.role = some .superadmin}

/-- The caller still is a superadmin, or a user who is neither the caller nor the target is one. -/
def UserTable.Attended (w : UserTable) (currentUser user : DashboardUser) : Prop :=
  currentUser.email ∈ w.superadmins ∨
    ∃ email ∈ w.superadmins, email ≠ currentUser.email ∧ email ≠ user.email

/-- The UPDATE takes the role from its target: it has another role to write, and the owner it writes
exists. -/
def UserTable.Demotes (w : UserTable) (user : DashboardUser) (body : UpdateUserRequest) : Prop :=
  user.email ∈ w.superadmins ∧ body.role ≠ .superadmin ∧ body.role ≠ user.role ∧
    (newOwner user body ≠ user.ownerId → w.hasOwner (newOwner user body) = true)

/-- A request that is about to take the role from its target is attended. -/
def AdminPhase.Attended (w : UserTable) : AdminPhase py → Prop
  | .updating currentUser user body => w.Demotes user body → w.Attended currentUser user
  | .deleting currentUser user => user.email ∈ w.superadmins → w.Attended currentUser user
  | .start _ _ | .authorised _ _ | .creating _ | .responded _ | .refused _ | .raised _ => True

/-- The caller of a request that is about to take the role from its target still has it. -/
def AdminPhase.CallerKeepsRole (w : UserTable) : AdminPhase py → Prop
  | .updating currentUser user body => w.Demotes user body → currentUser.email ∈ w.superadmins
  | .deleting currentUser user => user.email ∈ w.superadmins → currentUser.email ∈ w.superadmins
  | .start _ _ | .authorised _ _ | .creating _ | .responded _ | .refused _ | .raised _ => True

variable {ι : Type u} [DecidableEq ι]

/-- The process that moves takes no role unattended. -/
def TakesAttended (e : ι × Unit) (c : Config ι UserTable (AdminPhase py)) : Prop :=
  (c.proc e.1).Attended c.shared

/-- The process that moves takes a role only for a caller who still has it. -/
def TakenBySuperadmin (e : ι × Unit) (c : Config ι UserTable (AdminPhase py)) : Prop :=
  (c.proc e.1).CallerKeepsRole c.shared

section Table

variable {w w' : UserTable} {currentUser user : DashboardUser} {email target : String}
  {row : Option UserRow}

theorem mem_superadmins_set : email ∈ (w.set target row).superadmins ↔
    if email = target then row.map UserRow.role = some .superadmin else email ∈ w.superadmins := by
  simp only [UserTable.superadmins, UserTable.set, Set.mem_ofPred_eq, Function.update_apply]
  split <;> rfl

/-- A row without the role takes its user out. -/
theorem superadmins_set_other (hrow : row.map UserRow.role ≠ some .superadmin) :
    (w.set target row).superadmins = w.superadmins \ {target} := by
  ext email
  rw [mem_superadmins_set, Set.mem_sdiff, Set.mem_singleton_iff]
  split
  · rename_i h
    exact ⟨fun hrole => absurd hrole hrow, fun hmem => absurd h hmem.2⟩
  · rename_i h
    exact ⟨fun hmem => ⟨hmem, h⟩, fun hmem => hmem.1⟩

/-- A row that has the role if the row before it has takes nobody out. -/
theorem superadmins_subset_set
    (hrow : target ∈ w.superadmins → row.map UserRow.role = some .superadmin) :
    w.superadmins ⊆ (w.set target row).superadmins := by
  intro email hmem
  rw [mem_superadmins_set]
  split
  · rename_i h
    exact hrow (h ▸ hmem)
  · exact hmem

/-- Somebody is left without the target exactly when the request is attended. -/
theorem nonempty_diff_iff (hself : user.email ≠ currentUser.email) :
    (w.superadmins \ {user.email}).Nonempty ↔ w.Attended currentUser user := by
  constructor
  · rintro ⟨email, hmem, hne⟩
    by_cases hcaller : email = currentUser.email
    · exact Or.inl (hcaller ▸ hmem)
    · exact Or.inr ⟨email, hmem, hcaller, hne⟩
  · rintro (hcaller | ⟨email, hmem, -, hne⟩)
    · exact ⟨currentUser.email, hcaller, Ne.symm hself⟩
    · exact ⟨email, hmem, hne⟩

theorem superadmins_createUser (h : w.createUser user = .ok w') :
    w.superadmins ⊆ w'.superadmins := by
  rw [UserTable.createUser] at h
  split at h
  · cases h
  · rename_i hfree
    obtain rfl := Except.ok.inj h
    apply superadmins_subset_set
    -- the address was free
    intro hmem
    rw [Bool.or_eq_true, not_or, Option.isSome_iff_ne_none, not_not] at hfree
    rw [UserTable.superadmins, Set.mem_ofPred_eq, hfree.1] at hmem
    cases hmem

/-- An UPDATE takes its target out or nobody. -/
theorem superadmins_updateUser {body : UpdateUserRequest}
    (h : w.updateUser user body.role (newOwner user body) = .ok w') :
    (w.Demotes user body → w'.superadmins = w.superadmins \ {user.email}) ∧
      (¬ w.Demotes user body → w.superadmins ⊆ w'.superadmins) := by
  rw [UserTable.updateUser] at h
  split at h
  · rename_i hsame
    obtain rfl := Except.ok.inj h
    exact ⟨fun hd => absurd hsame.1 hd.2.2.1, fun _ => subset_rfl⟩
  · split at h
    · cases h
    · rename_i row hrow
      split at h
      · cases h
      · rename_i howner
        obtain rfl := Except.ok.inj h
        constructor
        · rintro ⟨-, hrole, hnew, -⟩
          apply superadmins_set_other
          simpa [dirtyWrite, hnew] using hrole
        · intro hd
          apply superadmins_subset_set
          intro hmem
          have hcurrent : row.role = .superadmin := by
            simpa [UserTable.superadmins, hrow] using hmem
          -- the new role is this one, or is not written
          by_cases hnew : body.role = user.role
          · simp [dirtyWrite, hnew, hcurrent]
          · by_cases hrole : body.role = .superadmin
            · simpa [dirtyWrite, hnew] using hrole
            · refine absurd ⟨hmem, hrole, hnew, fun hne => ?_⟩ hd
              simpa [hne] using howner

/-- An UPDATE that would take the role goes through. -/
theorem not_demotes_of_error {body : UpdateUserRequest} {e : PyError}
    (h : w.updateUser user body.role (newOwner user body) = .error e) : ¬ w.Demotes user body := by
  rintro ⟨hmem, hrole, hnew, howner⟩
  rw [UserTable.updateUser, if_neg fun hsame => hnew hsame.1] at h
  cases hrow : w.rows user.email with
  | none =>
      rw [UserTable.superadmins, Set.mem_ofPred_eq, hrow] at hmem
      cases hmem
  | some row =>
      rw [hrow] at h
      dsimp only at h
      rw [if_neg] at h
      · cases h
      · rintro ⟨hne, hmissing⟩
        rw [howner hne] at hmissing
        cases hmissing

end Table

/-! ## One step -/

section Step

variable {w w' : UserTable} {phase phase' : AdminPhase py} {currentUser user : DashboardUser}
  {email ownAccount : String}

/-- The target of a request is not its caller. -/
def AdminPhase.NotSelf : AdminPhase py → Prop
  | .updating currentUser user _ | .deleting currentUser user => user.email ≠ currentUser.email
  | .start _ _ | .authorised _ _ | .creating _ | .responded _ | .refused _ | .raised _ => True

/-- Addresses that differ in lower case differ. -/
theorem loadTarget_ok (h : loadTarget py w currentUser email ownAccount = .ok user) :
    user.email ≠ currentUser.email := by
  rw [loadTarget] at h
  split at h
  · cases h
  · rename_i hlower
    have hne : email ≠ currentUser.email := fun heq => hlower (congrArg py.lower heq)
    rw [UserTable.sessionGet, if_neg hne, UserTable.getUserByEmail] at h
    cases hrow : w.rows email with
    | none =>
        rw [hrow] at h
        cases h
    | some row =>
        rw [hrow] at h
        obtain rfl := Except.ok.inj h
        exact hne

theorem commit_cases {statusCode : Nat} {result : Except PyError UserTable}
    (h : commit w statusCode result = some (w', phase')) :
    (result = .ok w' ∧ phase' = .responded statusCode) ∨
      ((∃ e, result = .error e) ∧ w' = w ∧ ∃ e, phase' = .raised e) := by
  cases result with
  | ok r =>
      obtain ⟨rfl, rfl⟩ := Prod.mk.inj (Option.some.inj h)
      exact Or.inl ⟨rfl, rfl⟩
  | error e =>
      obtain ⟨rfl, rfl⟩ := Prod.mk.inj (Option.some.inj h)
      exact Or.inr ⟨⟨e, rfl⟩, rfl, e, rfl⟩

/-- The first read lets superadmins pass. -/
theorem start_cases {sub : String} {request : AdminRequest py}
    (h : adminStep py w (.start sub request) = some (w', phase')) :
    w' = w ∧ ((∃ e, phase' = .refused e) ∨
      ∃ currentUser, currentUser.email ∈ w.superadmins ∧
        phase' = .authorised currentUser request) := by
  simp only [adminStep, getCurrentUser, UserTable.getUserByEmail] at h
  cases hrow : w.rows sub with
  | none =>
      rw [hrow] at h
      obtain ⟨rfl, rfl⟩ := Prod.mk.inj (Option.some.inj h)
      exact ⟨rfl, Or.inl ⟨_, rfl⟩⟩
  | some row =>
      rw [hrow] at h
      by_cases hrole : row.role = .superadmin
      · simp only [Option.map_some, Except.bind, requireRole, hrole, List.mem_singleton,
          not_true_eq_false, if_false] at h
        obtain ⟨rfl, rfl⟩ := Prod.mk.inj (Option.some.inj h)
        refine ⟨rfl, Or.inr ⟨_, ?_, rfl⟩⟩
        rw [UserTable.superadmins, Set.mem_ofPred_eq, hrow, Option.map_some, hrole]
      · simp only [Option.map_some, Except.bind, requireRole, hrole, List.mem_singleton,
          not_false_eq_true, if_true] at h
        obtain ⟨rfl, rfl⟩ := Prod.mk.inj (Option.some.inj h)
        exact ⟨rfl, Or.inl ⟨_, rfl⟩⟩

/-- The second read finds a target that is not the caller. -/
theorem authorised_cases {request : AdminRequest py}
    (h : adminStep py w (.authorised currentUser request) = some (w', phase')) :
    w' = w ∧ ((∃ e, phase' = .refused e) ∨ (∃ body, phase' = .creating body) ∨
      ∃ user, user.email ≠ currentUser.email ∧
        ((∃ body, phase' = .updating currentUser user body) ∨
          phase' = .deleting currentUser user)) := by
  cases request with
  | createUser body =>
      simp only [adminStep] at h
      split at h <;> obtain ⟨rfl, rfl⟩ := Prod.mk.inj (Option.some.inj h)
      · exact ⟨rfl, Or.inl ⟨_, rfl⟩⟩
      · exact ⟨rfl, Or.inr (Or.inl ⟨_, rfl⟩)⟩
  | updateUser email body =>
      simp only [adminStep] at h
      split at h <;> obtain ⟨rfl, rfl⟩ := Prod.mk.inj (Option.some.inj h)
      · exact ⟨rfl, Or.inl ⟨_, rfl⟩⟩
      · rename_i user hload
        exact ⟨rfl, Or.inr (Or.inr ⟨user, loadTarget_ok hload, Or.inl ⟨body, rfl⟩⟩)⟩
  | deleteUser email =>
      simp only [adminStep] at h
      split at h <;> obtain ⟨rfl, rfl⟩ := Prod.mk.inj (Option.some.inj h)
      · exact ⟨rfl, Or.inl ⟨_, rfl⟩⟩
      · rename_i user hload
        exact ⟨rfl, Or.inr (Or.inr ⟨user, loadTarget_ok hload, Or.inr rfl⟩)⟩

theorem deleting_eq (h : adminStep py w (.deleting currentUser user) = some (w', phase')) :
    w' = w.deleteUser user ∧ phase' = .responded 200 := by
  obtain ⟨rfl, rfl⟩ := Prod.mk.inj (Option.some.inj h)
  exact ⟨rfl, rfl⟩

theorem notSelf_step (h : adminStep py w phase = some (w', phase')) : phase'.NotSelf := by
  cases phase with
  | start sub request =>
      rcases (start_cases h).2 with ⟨e, rfl⟩ | ⟨currentUser, -, rfl⟩ <;> trivial
  | authorised currentUser request =>
      rcases (authorised_cases h).2 with ⟨e, rfl⟩ | ⟨body, rfl⟩ | ⟨user, hself, ⟨body, rfl⟩ | rfl⟩
      · trivial
      · trivial
      · exact hself
      · exact hself
  | creating body => rcases commit_cases h with ⟨-, rfl⟩ | ⟨-, -, e, rfl⟩ <;> trivial
  | updating currentUser user body =>
      rcases commit_cases h with ⟨-, rfl⟩ | ⟨-, -, e, rfl⟩ <;> trivial
  | deleting currentUser user =>
      obtain ⟨-, rfl⟩ := deleting_eq h
      trivial
  | responded statusCode => cases h
  | refused error => cases h
  | raised error => cases h

/-- **Step lemma.** A step from a table with a superadmin leaves one exactly when it is attended. -/
theorem nonempty_step (h : adminStep py w phase = some (w', phase')) (hself : phase.NotSelf)
    (hw : w.superadmins.Nonempty) : w'.superadmins.Nonempty ↔ phase.Attended w := by
  cases phase with
  | start sub request =>
      obtain ⟨rfl, -⟩ := start_cases h
      exact ⟨fun _ => trivial, fun _ => hw⟩
  | authorised currentUser request =>
      obtain ⟨rfl, -⟩ := authorised_cases h
      exact ⟨fun _ => trivial, fun _ => hw⟩
  | creating body =>
      refine ⟨fun _ => trivial, fun _ => ?_⟩
      rcases commit_cases h with ⟨hok, -⟩ | ⟨-, rfl, -⟩
      · -- a new user takes the role from no one
        exact hw.mono (superadmins_createUser hok)
      · exact hw
  | updating currentUser user body =>
      simp only [AdminPhase.Attended]
      rcases commit_cases h with ⟨hok, -⟩ | ⟨⟨e, herror⟩, rfl, -⟩
      · obtain ⟨htakes, hkeeps⟩ := superadmins_updateUser hok
        -- an UPDATE that takes the role, and one that does not
        by_cases hd : w.Demotes user body
        · rw [htakes hd, nonempty_diff_iff hself]
          exact ⟨fun hatt _ => hatt, fun hatt => hatt hd⟩
        · exact ⟨fun _ hd' => absurd hd' hd, fun _ => hw.mono (hkeeps hd)⟩
      · exact ⟨fun _ hd => absurd hd (not_demotes_of_error herror), fun _ => hw⟩
  | deleting currentUser user =>
      obtain ⟨rfl, -⟩ := deleting_eq h
      simp only [AdminPhase.Attended]
      rw [UserTable.deleteUser, superadmins_set_other (by simp), nonempty_diff_iff hself]
      constructor
      · exact fun hatt _ => hatt
      · intro hatt
        by_cases hmem : user.email ∈ w.superadmins
        · exact hatt hmem
        · -- the target was none, so whoever was a superadmin is left
          rw [← nonempty_diff_iff hself, Set.sdiff_singleton_eq_self hmem]
          exact hw
  | responded statusCode => cases h
  | refused error => cases h
  | raised error => cases h

end Step

/-- A request whose caller still has the role is attended. -/
theorem attended_of_callerKeepsRole {w : UserTable} {phase : AdminPhase py}
    (h : phase.CallerKeepsRole w) : phase.Attended w := by
  cases phase with
  | updating currentUser user body => exact fun hdemotes => Or.inl (h hdemotes)
  | deleting currentUser user => exact fun hmem => Or.inl (h hmem)
  | start _ _ => trivial
  | authorised _ _ => trivial
  | creating _ => trivial
  | responded _ => trivial
  | refused _ => trivial
  | raised _ => trivial

/-! ## A request on its own -/

/-- The caller is a superadmin of the table. -/
def AdminPhase.CallerIn (w : UserTable) : AdminPhase py → Prop
  | .authorised currentUser _ | .updating currentUser _ _ | .deleting currentUser _ =>
      currentUser.email ∈ w.superadmins
  | .start _ _ | .creating _ | .responded _ | .refused _ | .raised _ => True

section Solo

variable {w w' : UserTable} {phase phase' : AdminPhase py}

theorem callerIn_step (h : adminStep py w phase = some (w', phase')) (hcaller : phase.CallerIn w) :
    phase'.CallerIn w' := by
  cases phase with
  | start sub request =>
      obtain ⟨rfl, ⟨e, rfl⟩ | ⟨currentUser, hmem, rfl⟩⟩ := start_cases h
      · trivial
      · exact hmem
  | authorised currentUser request =>
      obtain ⟨rfl, ⟨e, rfl⟩ | ⟨body, rfl⟩ | ⟨user, -, ⟨body, rfl⟩ | rfl⟩⟩ := authorised_cases h
      · trivial
      · trivial
      · exact hcaller
      · exact hcaller
  | creating body => rcases commit_cases h with ⟨-, rfl⟩ | ⟨-, -, e, rfl⟩ <;> trivial
  | updating currentUser user body =>
      rcases commit_cases h with ⟨-, rfl⟩ | ⟨-, -, e, rfl⟩ <;> trivial
  | deleting currentUser user =>
      obtain ⟨-, rfl⟩ := deleting_eq h
      trivial
  | responded statusCode => cases h
  | refused error => cases h
  | raised error => cases h

theorem callerKeepsRole_of_callerIn (hcaller : phase.CallerIn w) : phase.CallerKeepsRole w := by
  cases phase with
  | updating currentUser user body => exact fun _ => hcaller
  | deleting currentUser user => exact fun _ => hcaller
  | start _ _ => trivial
  | authorised _ _ => trivial
  | creating _ => trivial
  | responded _ => trivial
  | refused _ => trivial
  | raised _ => trivial

/-- **Requests that do not overlap** keep a superadmin: the check of the caller is enough for a request
that runs alone. -/
theorem superadmin_remains_alone (n : Nat) (sub : String) (request : AdminRequest py)
    (hw : w.superadmins.Nonempty) :
    (solo (adminStep py) n w (.start sub request)).1.superadmins.Nonempty := by
  let I : UserTable → AdminPhase py → Prop := fun w phase =>
    w.superadmins.Nonempty ∧ phase.NotSelf ∧ phase.CallerIn w
  have hstep : ∀ w phase w' phase', I w phase → adminStep py w phase = some (w', phase') →
      I w' phase' := by
    rintro w phase w' phase' ⟨hadmin, hself, hcaller⟩ h
    have hattended := attended_of_callerKeepsRole (callerKeepsRole_of_callerIn hcaller)
    exact ⟨(nonempty_step h hself hadmin).2 hattended, notSelf_step h, callerIn_step h hcaller⟩
  have hstart : I w (.start sub request) := ⟨hw, trivial, trivial⟩
  exact (solo_invariant hstep n hstart).1

end Solo

/-! ## Runs -/

variable {c c' : Config ι UserTable (AdminPhase py)} {es : List (ι × Unit)}

/-- No request acts on its own caller. -/
def NoneOnSelf (c : Config ι UserTable (AdminPhase py)) : Prop := ∀ i, (c.proc i).NotSelf

theorem NoneOnSelf.fire {e : ι × Unit} (h : NoneOnSelf c)
    (hfire : fire (fun _ : Unit => adminStep py) e c = some c') : NoneOnSelf c' := by
  obtain ⟨w, phase, hstep, rfl⟩ := fire_eq_some.1 hfire
  intro i
  by_cases hi : i = e.1
  · subst hi
    simpa using notSelf_step hstep
  · simpa [Function.update_of_ne hi] using h i

omit [DecidableEq ι] in
theorem noneOnSelf_start (hstart : ∀ i, ∃ sub request, c.proc i = .start sub request) :
    NoneOnSelf c := by
  intro i
  obtain ⟨sub, request, hi⟩ := hstart i
  rw [hi]
  trivial

/-- A step from a table with a superadmin, among requests on others, leaves one exactly when it is
attended. -/
theorem nonempty_fire {e : ι × Unit} (hself : NoneOnSelf c) (hc : c.shared.superadmins.Nonempty)
    (hfire : fire (fun _ : Unit => adminStep py) e c = some c') :
    c'.shared.superadmins.Nonempty ↔ TakesAttended e c := by
  obtain ⟨w, phase, hstep, rfl⟩ := fire_eq_some.1 hfire
  exact nonempty_step hstep (hself e.1) hc

/-- A table with a superadmin keeps one exactly when every request that takes the role is attended. -/
theorem superadmin_remains_iff
    (hstart : ∀ i, ∃ sub request, c.proc i = .start sub request)
    (hadmin : c.shared.superadmins.Nonempty)
    (hrun : exec (fire fun _ : Unit => adminStep py) es c = some c') :
    Always (fire fun _ : Unit => adminStep py) (fun c => c.shared.superadmins.Nonempty) es c ↔
      Guarded (fire fun _ : Unit => adminStep py) TakesAttended es c := by
  apply always_iff_guarded_of_exact (J := NoneOnSelf) (H := fun _ _ => True)
  · exact fun e c c' hself _ hfire => hself.fire hfire
  · exact fun e c c' hself hc _ hfire => nonempty_fire hself hc hfire
  · exact noneOnSelf_start hstart
  · exact hadmin
  · exact guarded_of_forall (fun _ _ => trivial) c
  · exact hrun

/-- **Callers who keep the role.** In a run in which the caller of each request that takes the role still
is a superadmin, there is always one. -/
theorem superadmin_remains_of_callers
    (hstart : ∀ i, ∃ sub request, c.proc i = .start sub request)
    (hadmin : c.shared.superadmins.Nonempty)
    (hcallers : Guarded (fire fun _ : Unit => adminStep py) TakenBySuperadmin es c) :
    Always (fire fun _ : Unit => adminStep py) (fun c => c.shared.superadmins.Nonempty) es c := by
  let I : Config ι UserTable (AdminPhase py) → Prop := fun c =>
    c.shared.superadmins.Nonempty ∧ NoneOnSelf c
  have hstep : ∀ e c c', I c → TakenBySuperadmin e c →
      fire (fun _ : Unit => adminStep py) e c = some c' → I c' := by
    rintro e c c' ⟨hc, hself⟩ hcaller hfire
    exact ⟨(nonempty_fire hself hc hfire).2 (attended_of_callerKeepsRole hcaller), hself.fire hfire⟩
  exact (always_of_step hstep ⟨hadmin, noneOnSelf_start hstart⟩ hcallers).mono fun _ h => h.1

/-! ## Two superadmins who delete each other -/

def adaRow : DashboardUser := ⟨"ada@churchgate.com", .superadmin, none⟩

def obiRow : DashboardUser := ⟨"obi@churchgate.com", .superadmin, none⟩

/-- A table with two superadmins. -/
def duelTable : UserTable where
  rows email :=
    if email = adaRow.email ∨ email = obiRow.email then some ⟨.superadmin, none⟩ else none
  owners _ := false

/-- Each asks for the deletion of the other. -/
def duelStart : Config Bool UserTable (AdminPhase asciiLower) where
  shared := duelTable
  proc i :=
    if i then .start adaRow.email (.deleteUser obiRow.email)
    else .start obiRow.email (.deleteUser adaRow.email)

/-- Statement by statement in turns. -/
def duelRun : List (Bool × Unit) :=
  [(true, ()), (false, ()), (true, ()), (false, ()), (true, ()), (false, ())]

theorem duel_starts : ∀ i, ∃ sub request, duelStart.proc i = .start sub request := by
  intro i
  cases i with
  | true => exact ⟨_, _, rfl⟩
  | false => exact ⟨_, _, rfl⟩

theorem duelTable_nonempty : duelStart.shared.superadmins.Nonempty := ⟨adaRow.email, rfl⟩

/-- A request that asks for a deletion, and one of the deleted user. -/
theorem duel_one_after_the_other :
    Always (fire fun _ : Unit => adminStep asciiLower) (fun c => c.shared.superadmins.Nonempty)
      [(true, ()), (true, ()), (true, ()), (false, ())] duelStart := by
  apply (superadmin_remains_iff duel_starts duelTable_nonempty rfl).2
  refine ⟨trivial, fun c₁ h₁ => ?_⟩
  obtain rfl := Option.some.inj h₁
  refine ⟨trivial, fun c₂ h₂ => ?_⟩
  obtain rfl := Option.some.inj h₂
  -- the deletion: its caller is a superadmin of the table
  refine ⟨fun _ => Or.inl (rfl : adaRow.email ∈ duelTable.superadmins), fun c₃ h₃ => ?_⟩
  obtain rfl := Option.some.inj h₃
  exact ⟨trivial, fun _ _ => trivial⟩

/-- Both are authorised before either is deleted, and both rows go. -/
theorem duel_ends : ∃ proc, exec (fire fun _ : Unit => adminStep asciiLower) duelRun duelStart =
    some ⟨(duelTable.deleteUser obiRow).deleteUser adaRow, proc⟩ :=
  ⟨_, rfl⟩

theorem last_superadmins_deleted : duelStart.shared.superadmins.Nonempty ∧
    ¬ Always (fire fun _ : Unit => adminStep asciiLower) (fun c => c.shared.superadmins.Nonempty)
      duelRun duelStart := by
  refine ⟨duelTable_nonempty, fun h => ?_⟩
  obtain ⟨proc, hrun⟩ := duel_ends
  obtain ⟨email, hmem⟩ := h.last hrun
  rw [UserTable.deleteUser, superadmins_set_other (by simp), UserTable.deleteUser,
    superadmins_set_other (by simp)] at hmem
  obtain ⟨⟨hrole, hobi⟩, hada⟩ := hmem
  have hnone : duelTable.rows email = none := if_neg (not_or.2 ⟨hada, hobi⟩)
  rw [UserTable.superadmins, Set.mem_ofPred_eq, hnone] at hrole
  cases hrole

end SalesTrades.Users
