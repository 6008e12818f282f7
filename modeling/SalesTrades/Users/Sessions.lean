import SalesTrades.Users.Accounts

/-!
# Sessions

Nothing is stored about who is logged in. `Session` says what the tokens stand for: a login or the seed
script opens a session of an address, and a refresh within the lifetime of the last refresh token carries
it on. A request is accepted exactly while its access token, the last one of such a session, lives and the
address has a row (`request_accepted_iff`). Nothing else ends a session: not a logout, not a new password,
not even that the row is deleted and made anew.
-/

set_option autoImplicit false

namespace SalesTrades.Users

open SalesTrades.Library SalesTrades.Library.Run SalesTrades.Library.Interleaving

universe u v

variable {Token Salt : Type u} {py : LowerCase} {ι : Type v} [DecidableEq ι]
  {sec : Security Token Salt}

/-! ## The lifetime of a token -/

/-- A token made when a clock said `made` is good when a clock says `now`. -/
def Lives (sec : Security Token Salt) (type : TokenType) (made now : Nat) : Prop :=
  made / second * second ≤ now ∧ now < (made / second + sec.expireMinutes type * 60) * second

/-- The payload of a token. -/
def tokenClaims (sec : Security Token Salt) (type : TokenType) (subject : String) (role : Role)
    (made : Nat) : TokenClaims :=
  ⟨subject, role, type, made / second, made / second + sec.expireMinutes type * 60⟩

theorem verify_createToken (type : TokenType) (subject : String) (role : Role) (made : Nat) :
    sec.verify (createToken sec type subject role made) =
      some (tokenClaims sec type subject role made) := by
  rw [createToken, sec.verify_encode, tokenClaims, Nat.add_mul_div_right _ _ (by decide)]

theorem decodeToken_createToken {type : TokenType} {subject : String} {role : Role} {made now : Nat}
    {payload : TokenClaims} :
    decodeToken sec now (createToken sec type subject role made) = some payload ↔
      Lives sec type made now ∧ tokenClaims sec type subject role made = payload := by
  rw [decodeToken, verify_createToken, Option.filter_eq_some_iff, Option.some.injEq, and_comm,
    and_congr_left_iff]
  rintro rfl
  rw [Bool.and_eq_true, decide_eq_true_eq, decide_eq_true_eq]
  rfl

/-- Only a token with a signature is decoded. -/
theorem verify_of_decodeToken {now : Nat} {token : Token} {payload : TokenClaims}
    (h : decodeToken sec now token = some payload) : sec.verify token = some payload :=
  (Option.filter_eq_some_iff.1 h).1

/-! ## One step -/

section Step

variable {w w' : AccountWorld Token} {o : Outside Salt} {phase phase' : AccountPhase py Token}
  {user : LoadedUser} {email : String} {now : Nat} {type : TokenType}

theorem email_of_getUserByEmail (h : w.getUserByEmail email = some user) : user.email = email := by
  rw [AccountWorld.getUserByEmail, UserTable.getUserByEmail, Option.map_map] at h
  obtain ⟨row, -, rfl⟩ := Option.map_eq_some_iff.1 h
  rfl

/-- Who a cookie stands for. -/
theorem tokenUser_eq_ok {cookie : Option Token} :
    tokenUser sec type now w cookie = .ok user ↔ ∃ token payload, cookie = some token ∧
      decodeToken sec now token = some payload ∧ payload.type = type ∧
        w.getUserByEmail payload.sub = some user := by
  cases cookie with
  | none => simp [tokenUser]
  | some token =>
      simp only [tokenUser]
      cases hdecode : decodeToken sec now token with
      | none => simp [hdecode]
      | some payload =>
          by_cases htype : payload.type = type
          · cases huser : w.getUserByEmail payload.sub with
            | none => simp [hdecode, htype, huser]
            | some found => simp [hdecode, htype, huser]
          · simp [hdecode, htype]

/-- The tokens that a session gets. -/
def sessionTokens (sec : Security Token Salt) (o : Outside Salt) (user : LoadedUser) : List Token :=
  [createToken sec .access user.email user.role (o.clock .access),
    createToken sec .refresh user.email user.role (o.clock .refresh)]

theorem issued_setPassword {hashed : String} {mustChange : Bool}
    (h : w.setPassword user hashed mustChange = .ok w') : w'.issued = w.issued := by
  rw [AccountWorld.setPassword] at h
  split at h
  · cases h
  · obtain rfl := Except.ok.inj h
    rfl

theorem issued_seedUser {found : Option LoadedUser} {role : Role} {ownerId : Option Int}
    {hashed : String} (h : w.seedUser found email role ownerId hashed = .ok w') :
    w'.issued = w.issued := by
  cases found with
  | none =>
      simp only [AccountWorld.seedUser] at h
      cases hcreate : w.users.createUser ⟨email, role, ownerId⟩ with
      | error e =>
          rw [hcreate] at h
          cases h
      | ok users =>
          rw [hcreate] at h
          obtain rfl := Except.ok.inj h
          rfl
  | some user =>
      simp only [AccountWorld.seedUser] at h
      split at h
      · cases h
      · cases hupdate : w.users.updateUser user.toDashboardUser role ownerId with
        | error e =>
            rw [hupdate] at h
            cases h
        | ok users =>
            rw [hupdate] at h
            obtain rfl := Except.ok.inj h
            rfl

theorem issued_adminAccountStep {password : Option String} {admin : AdminPhase py}
    (h : adminAccountStep sec o w password admin = some (w', phase')) : w'.issued = w.issued := by
  rw [adminAccountStep.eq_def] at h
  split at h
  · split at h
    · obtain ⟨rfl, -⟩ := Prod.mk.inj (Option.some.inj h)
      rfl
    · split at h
      · obtain ⟨rfl, -⟩ := Prod.mk.inj (Option.some.inj h)
        rfl
      · obtain ⟨rfl, -⟩ := Prod.mk.inj (Option.some.inj h)
        rfl
  · obtain ⟨r, -, hr⟩ := Option.map_eq_some_iff.1 h
    obtain ⟨rfl, -⟩ := Prod.mk.inj hr
    rfl

/-- **Where tokens come from**: a login with the password of the row, a refresh with a refresh token, or
the script. -/
theorem issued_step (h : accountStep sec o w phase = some (w', phase')) :
    w'.issued = w.issued ∨
      (∃ email password user, phase = .start (.login email password) ∧
        w.getUserByEmail email = some user ∧
        verifyPassword sec password (user.hashedPassword.getD "") = true ∧
        w'.issued = w.issued ++ sessionTokens sec o user) ∨
      (∃ cookie user, phase = .start (.refresh cookie) ∧
        tokenUser sec .refresh o.now w cookie = .ok user ∧
        w'.issued = w.issued ++ sessionTokens sec o user) ∨
      ∃ found email role password ownerId hashed w'',
        phase = .seeding found email role password ownerId ∧
        sec.hashpw password o.salt = .ok hashed ∧
        w.seedUser found email role ownerId hashed = .ok w'' ∧
        w'.issued = w.issued ++ [createToken sec .access email role (o.clock .access)] := by
  cases phase with
  | start request =>
      cases request with
      | login email password =>
          simp only [accountStep] at h
          cases huser : w.getUserByEmail email with
          | none =>
              rw [huser] at h
              obtain ⟨rfl, -⟩ := Prod.mk.inj (Option.some.inj h)
              exact Or.inl rfl
          | some user =>
              rw [huser] at h
              dsimp only at h
              split at h
              · obtain ⟨rfl, -⟩ := Prod.mk.inj (Option.some.inj h)
                exact Or.inl rfl
              · rename_i hpassword
                rw [Bool.not_eq_true, Bool.not_eq_false'] at hpassword
                obtain ⟨rfl, -⟩ := Prod.mk.inj (Option.some.inj h)
                exact Or.inr (Or.inl ⟨email, password, user, rfl, huser, hpassword, rfl⟩)
      | refresh cookie =>
          simp only [accountStep] at h
          cases huser : tokenUser sec .refresh o.now w cookie with
          | error e =>
              rw [huser] at h
              obtain ⟨rfl, -⟩ := Prod.mk.inj (Option.some.inj h)
              exact Or.inl rfl
          | ok user =>
              rw [huser] at h
              obtain ⟨rfl, -⟩ := Prod.mk.inj (Option.some.inj h)
              exact Or.inr (Or.inr (Or.inl ⟨cookie, user, rfl, huser, rfl⟩))
      | me cookie =>
          simp only [accountStep] at h
          split at h <;> obtain ⟨rfl, -⟩ := Prod.mk.inj (Option.some.inj h) <;> exact Or.inl rfl
      | changePassword cookie body =>
          simp only [accountStep] at h
          split at h <;> obtain ⟨rfl, -⟩ := Prod.mk.inj (Option.some.inj h) <;> exact Or.inl rfl
      | logout =>
          obtain ⟨rfl, -⟩ := Prod.mk.inj (Option.some.inj h)
          exact Or.inl rfl
      | resetUserPassword cookie email =>
          simp only [accountStep] at h
          split at h
          · obtain ⟨rfl, -⟩ := Prod.mk.inj (Option.some.inj h)
            exact Or.inl rfl
          · split at h <;> obtain ⟨rfl, -⟩ := Prod.mk.inj (Option.some.inj h) <;> exact Or.inl rfl
      | admin cookie password request =>
          simp only [accountStep] at h
          split at h
          · obtain ⟨rfl, -⟩ := Prod.mk.inj (Option.some.inj h)
            exact Or.inl rfl
          · split at h <;> obtain ⟨rfl, -⟩ := Prod.mk.inj (Option.some.inj h) <;> exact Or.inl rfl
      | seedUser email role password ownerId =>
          obtain ⟨rfl, -⟩ := Prod.mk.inj (Option.some.inj h)
          exact Or.inl rfl
  | resetting currentUser email =>
      simp only [accountStep] at h
      split at h <;> obtain ⟨rfl, -⟩ := Prod.mk.inj (Option.some.inj h) <;> exact Or.inl rfl
  | storing user password mustChange =>
      simp only [accountStep] at h
      split at h
      · obtain ⟨rfl, -⟩ := Prod.mk.inj (Option.some.inj h)
        exact Or.inl rfl
      · rename_i hashed _
        cases hset : w.setPassword user hashed mustChange with
        | error e =>
            rw [hset] at h
            obtain ⟨rfl, -⟩ := Prod.mk.inj (Option.some.inj h)
            exact Or.inl rfl
        | ok w'' =>
            rw [hset] at h
            obtain ⟨rfl, -⟩ := Prod.mk.inj (Option.some.inj h)
            exact Or.inl (issued_setPassword hset)
  | seeding found email role password ownerId =>
      simp only [accountStep] at h
      split at h
      · obtain ⟨rfl, -⟩ := Prod.mk.inj (Option.some.inj h)
        exact Or.inl rfl
      · rename_i hashed hhash
        cases hseed : w.seedUser found email role ownerId hashed with
        | error e =>
            rw [hseed] at h
            obtain ⟨rfl, -⟩ := Prod.mk.inj (Option.some.inj h)
            exact Or.inl rfl
        | ok w'' =>
            rw [hseed] at h
            obtain ⟨rfl, -⟩ := Prod.mk.inj (Option.some.inj h)
            refine Or.inr (Or.inr (Or.inr ⟨found, email, role, password, ownerId, hashed, w'', rfl, hhash,
              hseed, ?_⟩))
            exact congrArg (· ++ _) (issued_seedUser hseed)
  | admin password phase => exact Or.inl (issued_adminAccountStep h)
  | responded response => cases h
  | refused error => cases h
  | raised error => cases h

end Step

/-! ## Sessions -/

/-- The run has given `email` a token of the type, at the time `made` of a clock: after a login with the
password that the row had, for a refresh token of a session that lived when a row was there, or from the
script. -/
inductive Session (sec : Security Token Salt) (start : Config ι (AccountWorld Token) (AccountPhase py Token)) :
    List (ι × Outside Salt) → TokenType → String → Nat → Prop where
  | login {past es : List (ι × Outside Salt)} {i : ι} {o : Outside Salt}
      {c : Config ι (AccountWorld Token) (AccountPhase py Token)} {email password : String}
      {user : LoadedUser} (type : TokenType) (hes : past ++ [(i, o)] <+: es)
      (hrun : exec (fire (accountStep sec)) past start = some c)
      (hproc : c.proc i = .start (.login email password))
      (huser : c.shared.getUserByEmail email = some user)
      (hpassword : verifyPassword sec password (user.hashedPassword.getD "") = true) :
      Session sec start es type email (o.clock type)
  | refresh {past es : List (ι × Outside Salt)} {i : ι} {o : Outside Salt}
      {c : Config ι (AccountWorld Token) (AccountPhase py Token)} {email : String} {role : Role}
      {made : Nat} {user : LoadedUser} (type : TokenType) (hes : past ++ [(i, o)] <+: es)
      (hrun : exec (fire (accountStep sec)) past start = some c)
      (hproc : c.proc i = .start (.refresh (some (createToken sec .refresh email role made))))
      (hsession : Session sec start past .refresh email made) (hlives : Lives sec .refresh made o.now)
      (huser : c.shared.getUserByEmail email = some user) :
      Session sec start es type email (o.clock type)
  | seed {past es : List (ι × Outside Salt)} {i : ι} {o : Outside Salt}
      {c : Config ι (AccountWorld Token) (AccountPhase py Token)} {w : AccountWorld Token}
      {found : Option LoadedUser} {email : String} {role : Role} {password hashed : String}
      {ownerId : Option Int} (hes : past ++ [(i, o)] <+: es)
      (hrun : exec (fire (accountStep sec)) past start = some c)
      (hproc : c.proc i = .seeding found email role password ownerId)
      (hhash : sec.hashpw password o.salt = .ok hashed)
      (hseed : c.shared.seedUser found email role ownerId hashed = .ok w) :
      Session sec start es .access email (o.clock .access)

variable {start c c' : Config ι (AccountWorld Token) (AccountPhase py Token)}
  {es : List (ι × Outside Salt)} {type : TokenType} {email : String} {made now : Nat}

/-- A session is not taken back. -/
theorem Session.later {es' : List (ι × Outside Salt)} (h : Session sec start es type email made)
    (hes' : es <+: es') : Session sec start es' type email made := by
  cases h with
  | login type hes hrun hproc huser hpassword =>
      exact .login type (hes.trans hes') hrun hproc huser hpassword
  | refresh type hes hrun hproc hsession hlives huser =>
      exact .refresh type (hes.trans hes') hrun hproc hsession hlives huser
  | seed hes hrun hproc hhash hseed => exact .seed (hes.trans hes') hrun hproc hhash hseed

/-- The token is one that has been handed out, or its signature does not hold. -/
def Unforged (sec : Security Token Salt) (w : AccountWorld Token) (token : Token) : Prop :=
  sec.verify token ≠ none → token ∈ w.issued

/-- The process that moves has not forged its cookie. -/
def CookieUnforged (sec : Security Token Salt) (e : ι × Outside Salt)
    (c : Config ι (AccountWorld Token) (AccountPhase py Token)) : Prop :=
  ∀ request, c.proc e.1 = .start request → ∀ token ∈ request.cookie, Unforged sec c.shared token

/-- Every token that has been handed out belongs to a session. -/
def TokensStand (sec : Security Token Salt)
    (start : Config ι (AccountWorld Token) (AccountPhase py Token)) (es : List (ι × Outside Salt))
    (c : Config ι (AccountWorld Token) (AccountPhase py Token)) : Prop :=
  ∀ token ∈ c.shared.issued, ∃ type email role made, token = createToken sec type email role made ∧
    Session sec start es type email made

/-- What an unforged token that is good now says. -/
theorem session_of_decodeToken {token : Token} {payload : TokenClaims}
    (hstand : TokensStand sec start es c) (hunforged : Unforged sec c.shared token)
    (hdecode : decodeToken sec now token = some payload) :
    ∃ role made, token = createToken sec payload.type payload.sub role made ∧
      Session sec start es payload.type payload.sub made ∧ Lives sec payload.type made now := by
  have hissued : token ∈ c.shared.issued := by
    apply hunforged
    rw [verify_of_decodeToken hdecode]
    exact Option.some_ne_none _
  obtain ⟨type, email, role, made, rfl, hsession⟩ := hstand token hissued
  obtain ⟨hlives, rfl⟩ := decodeToken_createToken.1 hdecode
  exact ⟨role, made, rfl, hsession, hlives⟩

/-- **Step lemma.** -/
theorem tokensStand_fire {e : ι × Outside Salt} (hpast : exec (fire (accountStep sec)) es start = some c)
    (hstand : TokensStand sec start es c) (hcookie : CookieUnforged sec e c)
    (hfire : fire (accountStep sec) e c = some c') : TokensStand sec start (es ++ [e]) c' := by
  obtain ⟨i, o⟩ := e
  obtain ⟨w, phase, hstep, rfl⟩ := fire_eq_some.1 hfire
  have hold : ∀ token ∈ c.shared.issued, ∃ type email role made,
      token = createToken sec type email role made ∧ Session sec start (es ++ [(i, o)]) type email made := by
    intro token htoken
    obtain ⟨type, email, role, made, heq, hsession⟩ := hstand token htoken
    exact ⟨type, email, role, made, heq, hsession.later (List.prefix_append _ _)⟩
  -- both tokens of a session that is opened or carried on
  have htokens : ∀ user : LoadedUser,
      (∀ type, Session sec start (es ++ [(i, o)]) type user.email (o.clock type)) →
        w.issued = c.shared.issued ++ sessionTokens sec o user →
          TokensStand sec start (es ++ [(i, o)]) ⟨w, Function.update c.proc i phase⟩ := by
    intro user hsession hissued token htoken
    rw [hissued, List.mem_append] at htoken
    rcases htoken with htoken | htoken
    · exact hold token htoken
    · rcases List.mem_pair.1 htoken with rfl | rfl
      · exact ⟨_, _, _, _, rfl, hsession .access⟩
      · exact ⟨_, _, _, _, rfl, hsession .refresh⟩
  rcases issued_step hstep with hsame | ⟨email, password, user, hproc, huser, hpassword, hissued⟩ |
    ⟨cookie, user, hproc, huser, hissued⟩ |
    ⟨found, email, role, password, ownerId, hashed, w'', hproc, hhash, hseed, hissued⟩
  · intro token htoken
    exact hold token (hsame ▸ htoken)
  · apply htokens user _ hissued
    intro type
    rw [email_of_getUserByEmail huser]
    exact .login type List.prefix_rfl hpast hproc huser hpassword
  · apply htokens user _ hissued
    intro type
    obtain ⟨token, payload, rfl, hdecode, htype, hrow⟩ := tokenUser_eq_ok.1 huser
    obtain ⟨role, made, rfl, hsession, hlives⟩ :=
      session_of_decodeToken hstand (hcookie _ hproc token rfl) hdecode
    rw [htype] at hproc hsession hlives
    rw [email_of_getUserByEmail hrow]
    exact .refresh type List.prefix_rfl hpast hproc hsession hlives hrow
  · intro token htoken
    rw [hissued, List.mem_append, List.mem_singleton] at htoken
    rcases htoken with htoken | rfl
    · exact hold token htoken
    · exact ⟨_, _, _, _, rfl, .seed List.prefix_rfl hpast hproc hhash hseed⟩

/-- **Run lemma.** -/
theorem tokensStand_run (hissued : start.shared.issued = [])
    (hcookies : Guarded (fire (accountStep sec)) (CookieUnforged sec) es start)
    (hrun : exec (fire (accountStep sec)) es start = some c) : TokensStand sec start es c := by
  refine exec_history (I := TokensStand sec start) ?_ ?_ hcookies hrun
  · intro past e c c' hpast hstand hcookie hfire
    exact tokensStand_fire hpast hstand hcookie hfire
  · intro token htoken
    rw [hissued] at htoken
    cases htoken

/-- **Who is let in.** After any run without forged cookies, a request with an unforged access token is
accepted as a user exactly when the token is one of a session of the user, made in the last minutes that
it lives, and the row of the user is there. -/
theorem request_accepted_iff {token : Token} {user : LoadedUser} (hissued : start.shared.issued = [])
    (hcookies : Guarded (fire (accountStep sec)) (CookieUnforged sec) es start)
    (hrun : exec (fire (accountStep sec)) es start = some c) (hunforged : Unforged sec c.shared token) :
    tokenUser sec .access now c.shared (some token) = .ok user ↔
      ∃ role made, token = createToken sec .access user.email role made ∧
        Session sec start es .access user.email made ∧ Lives sec .access made now ∧
          c.shared.getUserByEmail user.email = some user := by
  rw [tokenUser_eq_ok]
  constructor
  · rintro ⟨_, payload, hcookie, hdecode, htype, hrow⟩
    rw [← Option.some.inj hcookie] at hdecode
    obtain ⟨role, made, heq, hsession, hlives⟩ :=
      session_of_decodeToken (tokensStand_run hissued hcookies hrun) hunforged hdecode
    have hemail := email_of_getUserByEmail hrow
    rw [htype, ← hemail] at heq hsession
    rw [htype] at hlives
    rw [← hemail] at hrow
    exact ⟨role, made, heq, hsession, hlives, hrow⟩
  · rintro ⟨role, made, rfl, -, hlives, hrow⟩
    exact ⟨_, tokenClaims sec .access user.email role made, rfl,
      decodeToken_createToken.2 ⟨hlives, rfl⟩, rfl, hrow⟩

/-! ## A reset password -/

/-- Signatures that cannot be made outside, and the lifetimes of the settings. -/
def plainSecurity : Security TokenClaims Unit where
  encode claims := claims
  verify token := some token
  verify_encode _ := rfl
  hashpw plain _ := if plain.utf8ByteSize ≤ 72 then .ok ("$2b$" ++ plain) else .error .valueError
  checkpw plain hashed := .ok (hashed == "$2b$" ++ plain)
  expireMinutes
    | .access => 30
    | .refresh => 60 * 24 * 14

/-- The two of `duelTable`, with passwords. -/
def resetWorld : AccountWorld TokenClaims where
  users := duelTable
  credentials email := ⟨some ("$2b$" ++ email), false⟩
  temporary _ := false
  issued := []

/-- Both log in, and Ada resets the password of Obi. -/
def resetStart : Config Nat (AccountWorld TokenClaims) (AccountPhase asciiLower TokenClaims) where
  shared := resetWorld
  proc i :=
    match i with
    | 0 => .start (.login adaRow.email adaRow.email)
    | 1 => .start (.login obiRow.email obiRow.email)
    | _ => .start (.resetUserPassword (some (createToken plainSecurity .access adaRow.email .superadmin 0))
        obiRow.email)

/-- All within a second. -/
def resetMoment : Outside Unit := ⟨0, fun _ => 0, (), "temporary"⟩

def resetRun : List (Nat × Outside Unit) :=
  [(0, resetMoment), (1, resetMoment), (2, resetMoment), (2, resetMoment), (2, resetMoment)]

theorem resetRun_unforged :
    Guarded (fire (accountStep plainSecurity)) (CookieUnforged plainSecurity) resetRun resetStart := by
  refine ⟨?_, fun c₁ h₁ => ?_⟩
  · rintro request hproc token htoken
    obtain rfl := AccountPhase.start.inj hproc
    cases htoken
  obtain rfl := Option.some.inj h₁
  refine ⟨?_, fun c₂ h₂ => ?_⟩
  · rintro request hproc token htoken
    obtain rfl := AccountPhase.start.inj hproc
    cases htoken
  obtain rfl := Option.some.inj h₂
  -- the cookie is the token that the first login has brought
  refine ⟨?_, fun c₃ h₃ => ?_⟩
  · rintro request hproc token htoken -
    obtain rfl := AccountPhase.start.inj hproc
    obtain rfl := Option.some.inj htoken
    exact List.mem_cons_self
  obtain rfl := Option.some.inj h₃
  refine ⟨fun request hproc => ?_, fun c₄ h₄ => ?_⟩
  · cases hproc
  obtain rfl := Option.some.inj h₄
  refine ⟨fun request hproc => ?_, fun _ _ => trivial⟩
  cases hproc

/-- Obi has a new password, and whoever holds the token from before is let in. -/
theorem token_outlives_reset : ∃ c, exec (fire (accountStep plainSecurity)) resetRun resetStart = some c ∧
    (c.shared.credentials obiRow.email).hashedPassword = some "$2b$temporary" ∧
    tokenUser plainSecurity .access 0 c.shared
        (some (createToken plainSecurity .access obiRow.email .superadmin 0)) =
      .ok ⟨obiRow, some "$2b$temporary", true⟩ := by
  refine ⟨_, rfl, rfl, ?_⟩
  apply (request_accepted_iff rfl resetRun_unforged rfl ?_).2
  · have hlogin : exec (fire (accountStep plainSecurity)) [(0, resetMoment)] resetStart = some _ := rfl
    refine ⟨.superadmin, 0, rfl, ?_, ⟨Nat.zero_le _, by decide⟩, rfl⟩
    exact .login (i := 1) .access ⟨_, rfl⟩ hlogin rfl rfl rfl
  · intro _
    exact List.mem_append_right _ List.mem_cons_self

end SalesTrades.Users
