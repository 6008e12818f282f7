import SalesTrades.Users.LastSuperadmin

/-!
# Accounts and tokens

The password columns of `dashboard_users`, and the requests that read or write them: login, refresh, the
change and the reset of a password, invitations, and the script that seeds a user. Tokens are signed, not
stored: `get_current_user` trusts what a token says of the address, and reads the rest from the table.
Requests take one read or write at a time, and other requests may run in between. Every step reads the
clock of the instance that it runs on, which need not agree with any other.
-/

set_option autoImplicit false

namespace SalesTrades.Users

open SalesTrades.Library

universe u

/-! ## Tokens -/

/-- The `type` of a token. -/
inductive TokenType where
  | access
  | refresh
  deriving DecidableEq

/-- The payload of a token, as PyJWT stores it: `iat` and `exp` are whole seconds. -/
structure TokenClaims where
  sub : String
  role : Role
  type : TokenType
  iat : Nat
  exp : Nat
  deriving DecidableEq

/-- PyJWT under the secret of the settings, bcrypt, and the lifetimes of the tokens in minutes. -/
structure Security (Token Salt : Type u) where
  encode : TokenClaims → Token
  /-- The payload of a token whose signature holds. -/
  verify : Token → Option TokenClaims
  verify_encode : ∀ claims, verify (encode claims) = some claims
  hashpw : String → Salt → Except PyError String
  checkpw : String → String → Except PyError Bool
  expireMinutes : TokenType → Nat

/-- Microseconds in a second. -/
def second : Nat := 1000000

variable {Token Salt : Type u} {py : LowerCase}

/-- `_encode`, when the clock says `now`. -/
def createToken (sec : Security Token Salt) (type : TokenType) (subject : String) (role : Role) (now : Nat) :
    Token :=
  sec.encode ⟨subject, role, type, now / second, (now + sec.expireMinutes type * 60 * second) / second⟩

/-- `decode_token`: PyJWT refuses a token that has run out, and one from the future. -/
def decodeToken (sec : Security Token Salt) (now : Nat) (token : Token) : Option TokenClaims :=
  (sec.verify token).filter fun payload => payload.iat * second ≤ now && now < payload.exp * second

/-- `verify_password`. -/
def verifyPassword (sec : Security Token Salt) (plain hashed : String) : Bool :=
  match sec.checkpw plain hashed with
  | .ok matched => matched
  | .error _ => false

/-! ## The table -/

/-- The password columns of a row of `dashboard_users`. -/
structure Credentials where
  hashedPassword : Option String := none
  mustChangePassword : Bool := false
  deriving DecidableEq

/-- A row that a session has loaded. -/
structure LoadedUser extends DashboardUser, Credentials
  deriving DecidableEq

/-- `dashboard_users` with the password columns. -/
structure AccountWorld (Token : Type u) where
  users : UserTable
  credentials : String → Credentials
  /-- Whether the stored password is one that a superadmin has handed out. The table does not say. -/
  temporary : String → Bool
  /-- The tokens that have been handed out. No list of them is kept. -/
  issued : List Token

namespace AccountWorld

variable (w : AccountWorld Token)

/-- `get_user_by_email`. -/
def getUserByEmail (email : String) : Option LoadedUser :=
  (w.users.getUserByEmail email).map fun user => ⟨user, w.credentials email⟩

/-- `get_user_by_email` in the session that loaded `held`. -/
def sessionGet (held : LoadedUser) (email : String) : Option LoadedUser :=
  if email = held.email then some held else w.getUserByEmail email

def setCredentials (email : String) (columns : Credentials) (temporary : Bool) : AccountWorld Token :=
  { w with
    credentials := Function.update w.credentials email columns
    temporary := Function.update w.temporary email temporary }

/-- `set_password`. The hash has a salt of its own, so its column is always sent. -/
def setPassword (user : LoadedUser) (hashed : String) (mustChange : Bool) :
    Except PyError (AccountWorld Token) :=
  match w.users.rows user.email with
  | none => .error .staleDataError
  | some _ =>
      .ok (w.setCredentials user.email
        ⟨some hashed, dirtyWrite user.mustChangePassword mustChange
          (w.credentials user.email).mustChangePassword⟩ mustChange)

/-- The commit of `seed_user`. -/
def seedUser (found : Option LoadedUser) (email : String) (role : Role) (ownerId : Option Int)
    (hashed : String) : Except PyError (AccountWorld Token) :=
  match found with
  | none =>
      (w.users.createUser ⟨email, role, ownerId⟩).map fun users =>
        { w with users }.setCredentials email ⟨some hashed, false⟩ false
  | some user =>
      match w.users.rows user.email with
      | none => .error .staleDataError
      | some _ =>
          (w.users.updateUser user.toDashboardUser role ownerId).map fun users =>
            { w with users }.setCredentials user.email
              ⟨some hashed, (w.credentials user.email).mustChangePassword⟩ false

end AccountWorld

/-! ## Requests -/

/-- `MIN_PASSWORD_LENGTH`. -/
def minPasswordLength : Nat := 8

/-- `ChangePasswordRequest`, validated. -/
structure ChangePasswordRequest where
  currentPassword : String
  newPassword : String
  newPassword_strong : minPasswordLength ≤ newPassword.length

/-- What the clients and the operator of the script ask for. -/
inductive AccountRequest (py : LowerCase) (Token : Type u) where
  | login (email password : String)
  | refresh (cookie : Option Token)
  /-- `me`, and the part of every other endpoint that finds out who asks. -/
  | me (cookie : Option Token)
  | changePassword (cookie : Option Token) (body : ChangePasswordRequest)
  | logout
  | resetUserPassword (cookie : Option Token) (email : String)
  /-- The other requests of a superadmin. An invitation may bring a password. -/
  | admin (cookie : Option Token) (password : Option String) (request : AdminRequest py)
  | seedUser (email : String) (role : Role) (password : String) (ownerId : Option Int)

/-- The cookie of a request. -/
def AccountRequest.cookie : AccountRequest py Token → Option Token
  | .refresh cookie | .me cookie | .changePassword cookie _ | .resetUserPassword cookie _
  | .admin cookie _ _ => cookie
  | .login _ _ | .logout | .seedUser _ _ _ _ => none

/-- `CurrentUser`. -/
structure CurrentUser where
  email : String
  role : Role
  ownerId : Option Int
  mustChangePassword : Bool
  deriving DecidableEq

def LoadedUser.current (user : LoadedUser) : CurrentUser :=
  ⟨user.email, user.role, user.ownerId, user.mustChangePassword⟩

/-- The bodies of the responses. -/
inductive AccountResponse (Token : Type u) where
  | auth (accessToken refreshToken : Token) (user : CurrentUser)
  | me (user : CurrentUser)
  | message (message : String)
  | userCreated (user : CurrentUser) (tempPassword : String)
  /-- What the script prints. -/
  | seeded (accessToken : Token)

/-- Where a request stands. -/
inductive AccountPhase (py : LowerCase) (Token : Type u) where
  | start (request : AccountRequest py Token)
  | resetting (currentUser : LoadedUser) (email : String)
  | storing (user : LoadedUser) (password : String) (mustChange : Bool)
  | seeding (found : Option LoadedUser) (email : String) (role : Role) (password : String)
      (ownerId : Option Int)
  | admin (password : Option String) (phase : AdminPhase py)
  | responded (response : AccountResponse Token)
  | refused (error : HttpError)
  | raised (error : PyError)

/-- What a step reads from outside: the clock, when it checks a token and when it makes each of the two,
a salt and a random password. -/
structure Outside (Salt : Type u) where
  now : Nat
  clock : TokenType → Nat
  salt : Salt
  generated : String

/-- `get_current_user`, and the same checks in `refresh`: the type, the clock and the cookie. -/
def tokenUser (sec : Security Token Salt) (type : TokenType) (now : Nat) (w : AccountWorld Token)
    (cookie : Option Token) : Except HttpError LoadedUser :=
  match cookie with
  | none => .error ⟨401, "Not authenticated"⟩
  | some token =>
      match decodeToken sec now token with
      | none => .error ⟨401, "Invalid token"⟩
      | some payload =>
          if payload.type ≠ type then .error ⟨401, "Invalid token type"⟩
          else
            match w.getUserByEmail payload.sub with
            | none => .error ⟨401, "Unknown user"⟩
            | some user => .ok user

/-- Both tokens, as `login` and `refresh` end. -/
def openSession (sec : Security Token Salt) (o : Outside Salt) (w : AccountWorld Token) (user : LoadedUser) :
    AccountWorld Token × AccountPhase py Token :=
  let token := fun type => createToken sec type user.email user.role (o.clock type)
  ({ w with issued := w.issued ++ [token .access, token .refresh] },
    .responded (.auth (token .access) (token .refresh) user.current))

/-- The response to a commit that goes through. -/
def answer (w : AccountWorld Token) (response : AccountResponse Token) :
    Except PyError (AccountWorld Token) → AccountWorld Token × AccountPhase py Token
  | .ok w' => (w', .responded response)
  | .error e => (w, .raised e)

/-- `change_password` up to the hash of the new password. -/
def changePassword (sec : Security Token Salt) (user : LoadedUser) (body : ChangePasswordRequest) :
    AccountPhase py Token :=
  if !verifyPassword sec body.currentPassword (user.hashedPassword.getD "") then
    .refused ⟨400, "Current password is incorrect"⟩
  else if body.newPassword = body.currentPassword then
    .refused ⟨400, "New password must be different from the current one"⟩
  else .storing user body.newPassword false

/-- A step of an invitation, or of a change or a deletion by a superadmin. The row of an invited user
gets a password and the flag. -/
def adminAccountStep (sec : Security Token Salt) (o : Outside Salt) (w : AccountWorld Token)
    (password : Option String) (phase : AdminPhase py) :
    Option (AccountWorld Token × AccountPhase py Token) :=
  match phase with
  | .creating body =>
      match sec.hashpw (password.getD o.generated) o.salt with
      | .error e => some (w, .raised e)
      | .ok hashed =>
          match w.users.createUser ⟨body.email, body.role, body.ownerId⟩ with
          | .error e => some (w, .raised e)
          | .ok users =>
              some ({ w with users }.setCredentials body.email ⟨some hashed, true⟩ true,
                .admin password (.responded 201))
  | phase => (adminStep py w.users phase).map fun r => ({ w with users := r.1 }, .admin password r.2)

/-- The next read or write of a request. -/
def accountStep (sec : Security Token Salt) (o : Outside Salt) (w : AccountWorld Token) :
    AccountPhase py Token → Option (AccountWorld Token × AccountPhase py Token)
  | .start (.login email password) =>
      match w.getUserByEmail email with
      | none => some (w, .refused ⟨401, "Invalid credentials"⟩)
      | some user =>
          if !verifyPassword sec password (user.hashedPassword.getD "") then
            some (w, .refused ⟨401, "Invalid credentials"⟩)
          else some (openSession sec o w user)
  | .start (.refresh cookie) =>
      match tokenUser sec .refresh o.now w cookie with
      | .error e => some (w, .refused e)
      | .ok user => some (openSession sec o w user)
  | .start (.me cookie) =>
      match tokenUser sec .access o.now w cookie with
      | .error e => some (w, .refused e)
      | .ok user => some (w, .responded (.me user.current))
  | .start (.changePassword cookie body) =>
      match tokenUser sec .access o.now w cookie with
      | .error e => some (w, .refused e)
      | .ok user => some (w, changePassword sec user body)
  -- the cookies are deleted in the browser, the tokens stay what they are
  | .start .logout => some (w, .responded (.message "Logged out successfully"))
  | .start (.resetUserPassword cookie email) =>
      match tokenUser sec .access o.now w cookie with
      | .error e => some (w, .refused e)
      | .ok currentUser =>
          match requireRole [.superadmin] currentUser.toDashboardUser with
          | .error e => some (w, .refused e)
          | .ok _ => some (w, .resetting currentUser email)
  | .start (.admin cookie password request) =>
      match tokenUser sec .access o.now w cookie with
      | .error e => some (w, .refused e)
      | .ok currentUser =>
          match requireRole [.superadmin] currentUser.toDashboardUser with
          | .error e => some (w, .refused e)
          | .ok user => some (w, .admin password (.authorised user request))
  | .start (.seedUser email role password ownerId) =>
      some (w, .seeding (w.getUserByEmail email) email role password ownerId)
  | .resetting currentUser email =>
      match w.sessionGet currentUser email with
      | none => some (w, .refused ⟨404, "User not found"⟩)
      | some user => some (w, .storing user o.generated true)
  | .storing user password mustChange =>
      match sec.hashpw password o.salt with
      | .error e => some (w, .raised e)
      | .ok hashed =>
          let response :=
            if mustChange then .userCreated { user.current with mustChangePassword := true } password
            else .message "Password updated"
          some (answer w response (w.setPassword user hashed mustChange))
  | .seeding found email role password ownerId =>
      match sec.hashpw password o.salt with
      | .error e => some (w, .raised e)
      | .ok hashed =>
          match w.seedUser found email role ownerId hashed with
          | .error e => some (w, .raised e)
          | .ok w' =>
              let token := createToken sec .access email role (o.clock .access)
              some ({ w' with issued := w'.issued ++ [token] }, .responded (.seeded token))
  | .admin password phase => adminAccountStep sec o w password phase
  | .responded _ | .refused _ | .raised _ => none

end SalesTrades.Users
