import SalesTrades.Users.Sessions

/-!
# Temporary passwords

`must_change_password` tells whether the password of a row is one that a superadmin has handed out. An
invitation and a reset set it, a change by the user clears it. A request loads the row before it stores
the password, and sends the flag only when it differs from the one that it has loaded. So the flag stays
right exactly when every password is stored over the flag that its request has loaded, or is stored with
another one (`flags_exact_iff`): a reset that has loaded the flag of an invitation leaves a temporary
password without it when the user changes the first one in between.
-/

set_option autoImplicit false

namespace SalesTrades.Users

open SalesTrades.Library SalesTrades.Library.Run SalesTrades.Library.Interleaving

universe u v

variable {Token Salt : Type u} {py : LowerCase} {ι : Type v} [DecidableEq ι]
  {sec : Security Token Salt}

/-- The flag of a row is set exactly while the password is a temporary one. -/
def AccountWorld.FlagExact (w : AccountWorld Token) (email : String) : Prop :=
  (w.users.rows email).isSome = true → (w.credentials email).mustChangePassword = w.temporary email

def AccountWorld.FlagsExact (w : AccountWorld Token) : Prop := ∀ email, w.FlagExact email

/-- A password that is stored with the flag that its request has loaded finds this flag in the row, and
the script finds none. -/
def AccountPhase.FindsFlag (sec : Security Token Salt) (o : Outside Salt) (w : AccountWorld Token) :
    AccountPhase py Token → Prop
  | .storing user password mustChange =>
      ∀ hashed w', sec.hashpw password o.salt = .ok hashed → w.setPassword user hashed mustChange = .ok w' →
        mustChange = user.mustChangePassword →
          (w.credentials user.email).mustChangePassword = user.mustChangePassword
  | .seeding (some user) email role password ownerId =>
      ∀ hashed w', sec.hashpw password o.salt = .ok hashed →
        w.seedUser (some user) email role ownerId hashed = .ok w' →
          (w.credentials user.email).mustChangePassword = false
  | .start _ | .resetting _ _ | .seeding none _ _ _ _ | .admin _ _ | .responded _ | .refused _
  | .raised _ => True

/-- The process that moves finds the flag. -/
def FindsFlag (sec : Security Token Salt) (e : ι × Outside Salt)
    (c : Config ι (AccountWorld Token) (AccountPhase py Token)) : Prop :=
  (c.proc e.1).FindsFlag sec e.2 c.shared

/-! ## One write -/

section Write

variable {w w' : AccountWorld Token} {user : LoadedUser} {hashed email : String} {mustChange : Bool}
  {role : Role} {ownerId : Option Int} {o : Outside Salt} {phase phase' : AccountPhase py Token}

/-- Password columns that are written leave those of the other rows alone. -/
theorem flagsExact_setCredentials {columns : Credentials} {temporary : Bool} (hw : w.FlagsExact)
    (hrow : (w.users.rows email).isSome = true) :
    (w.setCredentials email columns temporary).FlagsExact ↔ columns.mustChangePassword = temporary := by
  constructor
  · intro h
    simpa [AccountWorld.setCredentials] using h email hrow
  · intro h target
    by_cases htarget : target = email
    · subst htarget
      intro _
      simpa [AccountWorld.setCredentials] using h
    · intro hsome
      simpa [AccountWorld.setCredentials, Function.update_of_ne htarget] using hw target hsome

theorem flagsExact_setPassword (hw : w.FlagsExact) (hset : w.setPassword user hashed mustChange = .ok w') :
    w'.FlagsExact ↔ (mustChange = user.mustChangePassword →
      (w.credentials user.email).mustChangePassword = user.mustChangePassword) := by
  rw [AccountWorld.setPassword] at hset
  split at hset
  · cases hset
  · rename_i row hrow
    obtain rfl := Except.ok.inj hset
    rw [flagsExact_setCredentials hw (by rw [hrow]; rfl), dirtyWrite_eq_new_iff]

/-- Another table of users with no new row. -/
theorem flagsExact_users {users : UserTable} (hw : w.FlagsExact)
    (hrows : ∀ email, (users.rows email).isSome = true → (w.users.rows email).isSome = true) :
    ({ w with users } : AccountWorld Token).FlagsExact :=
  fun email hsome => hw email (hrows email hsome)

/-- A row that is written over another one. -/
theorem isSome_set {table : UserTable} {old row : UserRow} (hold : table.rows email = some old)
    (target : String) :
    ((table.set email (some row)).rows target).isSome = (table.rows target).isSome := by
  by_cases htarget : target = email
  · subst htarget
    simp [UserTable.set, hold]
  · simp [UserTable.set, Function.update_of_ne htarget]

/-- An UPDATE makes no row and takes none away. -/
theorem isSome_updateUser {table table' : UserTable} {held : DashboardUser}
    (h : table.updateUser held role ownerId = .ok table') (target : String) :
    (table'.rows target).isSome = (table.rows target).isSome := by
  rw [UserTable.updateUser] at h
  split at h
  · obtain rfl := Except.ok.inj h
    rfl
  · split at h
    · cases h
    · rename_i row hrow
      split at h
      · cases h
      · obtain rfl := Except.ok.inj h
        exact isSome_set hrow target

/-- A row that is inserted brings its own password. -/
theorem flagsExact_createUser {users : UserTable} {columns : Credentials} {temporary : Bool}
    (hw : w.FlagsExact) (hcreate : w.users.createUser ⟨email, role, ownerId⟩ = .ok users) :
    (({ w with users } : AccountWorld Token).setCredentials email columns temporary).FlagsExact ↔
      columns.mustChangePassword = temporary := by
  rw [UserTable.createUser] at hcreate
  split at hcreate
  · cases hcreate
  · obtain rfl := Except.ok.inj hcreate
    constructor
    · intro h
      have hflag := h email
      simp only [AccountWorld.FlagExact, AccountWorld.setCredentials, UserTable.set,
        Function.update_self] at hflag
      exact hflag rfl
    · intro h target
      by_cases htarget : target = email
      · subst htarget
        intro _
        simpa [AccountWorld.setCredentials] using h
      · have hold := hw target
        simpa [AccountWorld.FlagExact, AccountWorld.setCredentials, UserTable.set,
          Function.update_of_ne htarget] using hold

theorem flagsExact_seedUser {found : Option LoadedUser} (hw : w.FlagsExact)
    (hseed : w.seedUser found email role ownerId hashed = .ok w') :
    w'.FlagsExact ↔ ∀ user, found = some user →
      (w.credentials user.email).mustChangePassword = false := by
  cases found with
  | none =>
      simp only [AccountWorld.seedUser] at hseed
      cases hcreate : w.users.createUser ⟨email, role, ownerId⟩ with
      | error e =>
          rw [hcreate] at hseed
          cases hseed
      | ok users =>
          rw [hcreate] at hseed
          obtain rfl := Except.ok.inj hseed
          rw [flagsExact_createUser hw hcreate]
          constructor
          · intro _ user hfound
            cases hfound
          · intro _
            rfl
  | some user =>
      simp only [AccountWorld.seedUser] at hseed
      split at hseed
      · cases hseed
      · rename_i row hrow
        cases hupdate : w.users.updateUser user.toDashboardUser role ownerId with
        | error e =>
            rw [hupdate] at hseed
            cases hseed
        | ok users =>
            rw [hupdate] at hseed
            obtain rfl := Except.ok.inj hseed
            have hsame := isSome_updateUser hupdate
            have hrows : ({ w with users } : AccountWorld Token).FlagsExact :=
              flagsExact_users hw fun target hsome => hsame target ▸ hsome
            rw [flagsExact_setCredentials hrows (by rw [hsame, hrow]; rfl)]
            constructor
            · intro h found hfound
              exact Option.some.inj hfound ▸ h
            · intro h
              exact h user rfl

/-- Only an invitation makes a row. -/
theorem isSome_adminStep {table table' : UserTable} {admin admin' : AdminPhase py}
    (h : adminStep py table admin = some (table', admin')) (hcreating : ∀ body, admin ≠ .creating body)
    (target : String) (hsome : (table'.rows target).isSome = true) :
    (table.rows target).isSome = true := by
  cases admin with
  | start sub request =>
      obtain ⟨rfl, -⟩ := start_cases h
      exact hsome
  | authorised currentUser request =>
      obtain ⟨rfl, -⟩ := authorised_cases h
      exact hsome
  | creating body => exact absurd rfl (hcreating body)
  | updating currentUser user body =>
      rcases commit_cases h with ⟨hok, -⟩ | ⟨-, rfl, -⟩
      · exact isSome_updateUser hok target ▸ hsome
      · exact hsome
  | deleting currentUser user =>
      obtain ⟨rfl, -⟩ := deleting_eq h
      by_cases htarget : target = user.email
      · simp [htarget, UserTable.deleteUser, UserTable.set] at hsome
      · simpa [UserTable.deleteUser, UserTable.set, Function.update_of_ne htarget] using hsome
  | responded statusCode => cases h
  | refused error => cases h
  | raised error => cases h

theorem flagsExact_admin {password : Option String} {admin : AdminPhase py} (hw : w.FlagsExact)
    (h : adminAccountStep sec o w password admin = some (w', phase')) : w'.FlagsExact := by
  rw [adminAccountStep.eq_def] at h
  split at h
  · split at h
    · obtain ⟨rfl, -⟩ := Prod.mk.inj (Option.some.inj h)
      exact hw
    · split at h
      · obtain ⟨rfl, -⟩ := Prod.mk.inj (Option.some.inj h)
        exact hw
      · rename_i users hcreate
        obtain ⟨rfl, -⟩ := Prod.mk.inj (Option.some.inj h)
        exact (flagsExact_createUser hw hcreate).2 rfl
  · rename_i hcreating
    obtain ⟨⟨users, admin'⟩, hstep, hr⟩ := Option.map_eq_some_iff.1 h
    obtain ⟨rfl, -⟩ := Prod.mk.inj hr
    exact flagsExact_users hw (isSome_adminStep hstep hcreating)

/-- A request that has not loaded its target yet writes nothing. -/
theorem start_eq {request : AccountRequest py Token}
    (h : accountStep sec o w (.start request) = some (w', phase')) :
    w'.users = w.users ∧ w'.credentials = w.credentials ∧ w'.temporary = w.temporary := by
  cases request <;> simp only [accountStep, openSession] at h <;>
    (repeat' split at h) <;> obtain ⟨rfl, -⟩ := Prod.mk.inj (Option.some.inj h) <;> exact ⟨rfl, rfl, rfl⟩

end Write

/-- **Step lemma.** A step from a table whose flags are right keeps them right exactly when it finds the
flag. -/
theorem flagsExact_step {w w' : AccountWorld Token} {o : Outside Salt}
    {phase phase' : AccountPhase py Token}
    (h : accountStep sec o w phase = some (w', phase')) (hw : w.FlagsExact) :
    w'.FlagsExact ↔ phase.FindsFlag sec o w := by
  cases phase with
  | start request =>
      obtain ⟨husers, hcredentials, htemporary⟩ := start_eq h
      refine ⟨fun _ => trivial, fun _ email => ?_⟩
      rw [AccountWorld.FlagExact, husers, hcredentials, htemporary]
      exact hw email
  | resetting currentUser email =>
      simp only [accountStep] at h
      split at h <;> obtain ⟨rfl, -⟩ := Prod.mk.inj (Option.some.inj h) <;>
        exact ⟨fun _ => trivial, fun _ => hw⟩
  | storing user password mustChange =>
      simp only [accountStep] at h
      split at h
      · rename_i e hhash
        obtain ⟨rfl, -⟩ := Prod.mk.inj (Option.some.inj h)
        refine ⟨fun _ hashed w' hok => ?_, fun _ => hw⟩
        cases hhash.symm.trans hok
      · rename_i hashed hhash
        cases hset : w.setPassword user hashed mustChange with
        | error e =>
            rw [hset] at h
            obtain ⟨rfl, -⟩ := Prod.mk.inj (Option.some.inj h)
            refine ⟨fun _ hashed' w' hok hset' => ?_, fun _ => hw⟩
            obtain rfl := Except.ok.inj (hhash.symm.trans hok)
            cases hset.symm.trans hset'
        | ok w'' =>
            rw [hset] at h
            obtain ⟨rfl, -⟩ := Prod.mk.inj (Option.some.inj h)
            rw [flagsExact_setPassword hw hset]
            exact ⟨fun hfinds _ _ _ _ => hfinds, fun hfinds => hfinds hashed w'' hhash hset⟩
  | seeding found email role password ownerId =>
      simp only [accountStep] at h
      split at h
      · rename_i e hhash
        obtain ⟨rfl, -⟩ := Prod.mk.inj (Option.some.inj h)
        refine ⟨fun _ => ?_, fun _ => hw⟩
        cases found with
        | none => trivial
        | some user =>
            intro hashed w' hok
            cases hhash.symm.trans hok
      · rename_i hashed hhash
        split at h
        · rename_i e hseed
          obtain ⟨rfl, -⟩ := Prod.mk.inj (Option.some.inj h)
          refine ⟨fun _ => ?_, fun _ => hw⟩
          cases found with
          | none => trivial
          | some user =>
              intro hashed' w' hok hseed'
              obtain rfl := Except.ok.inj (hhash.symm.trans hok)
              cases hseed.symm.trans hseed'
        · rename_i w'' hseed
          obtain ⟨rfl, -⟩ := Prod.mk.inj (Option.some.inj h)
          refine (flagsExact_seedUser hw hseed : w''.FlagsExact ↔ _).trans ?_
          cases found with
          | none =>
              refine ⟨fun _ => trivial, fun _ user hfound => ?_⟩
              cases hfound
          | some user =>
              constructor
              · intro hfinds _ _ _ _
                exact hfinds user rfl
              · intro hfinds user' hfound
                exact Option.some.inj hfound ▸ hfinds hashed w'' hhash hseed
  | admin password phase => exact ⟨fun _ => trivial, fun _ => flagsExact_admin hw h⟩
  | responded response => cases h
  | refused error => cases h
  | raised error => cases h

/-! ## A request on its own -/

/-- The row that a request of a user holds has the flag of the table. -/
def AccountPhase.HoldsFlag (w : AccountWorld Token) : AccountPhase py Token → Prop
  | .resetting user _ | .storing user _ _ =>
      (w.credentials user.email).mustChangePassword = user.mustChangePassword
  | .start (.seedUser _ _ _ _) | .seeding _ _ _ _ _ => False
  | .start _ | .admin _ _ | .responded _ | .refused _ | .raised _ => True

section Solo

variable {w w' : AccountWorld Token} {o : Outside Salt} {phase phase' : AccountPhase py Token}
  {user : LoadedUser} {email : String}

theorem flag_of_getUserByEmail (h : w.getUserByEmail email = some user) :
    (w.credentials user.email).mustChangePassword = user.mustChangePassword := by
  rw [AccountWorld.getUserByEmail, UserTable.getUserByEmail, Option.map_map] at h
  obtain ⟨row, -, rfl⟩ := Option.map_eq_some_iff.1 h
  rfl

theorem flag_of_tokenUser {type : TokenType} {now : Nat} {cookie : Option Token}
    (h : tokenUser sec type now w cookie = .ok user) :
    (w.credentials user.email).mustChangePassword = user.mustChangePassword := by
  simp only [tokenUser] at h
  split at h
  · cases h
  · split at h
    · cases h
    · split at h
      · cases h
      · split at h
        · cases h
        · rename_i found hfound
          obtain rfl := Except.ok.inj h
          exact flag_of_getUserByEmail hfound

theorem holdsFlag_step (h : accountStep sec o w phase = some (w', phase')) (hphase : phase.HoldsFlag w) :
    phase'.HoldsFlag w' := by
  cases phase with
  | start request =>
      cases request with
      | seedUser email role password ownerId => exact hphase.elim
      | changePassword cookie body =>
          simp only [accountStep] at h
          split at h
          · obtain ⟨rfl, rfl⟩ := Prod.mk.inj (Option.some.inj h)
            trivial
          · rename_i user huser
            obtain ⟨rfl, rfl⟩ := Prod.mk.inj (Option.some.inj h)
            rw [changePassword]
            split
            · trivial
            · split
              · trivial
              · exact flag_of_tokenUser huser
      | resetUserPassword cookie email =>
          simp only [accountStep] at h
          split at h
          · obtain ⟨rfl, rfl⟩ := Prod.mk.inj (Option.some.inj h)
            trivial
          · rename_i user huser
            split at h <;> obtain ⟨rfl, rfl⟩ := Prod.mk.inj (Option.some.inj h)
            · trivial
            · exact flag_of_tokenUser huser
      | login email password =>
          simp only [accountStep, openSession] at h
          (repeat' split at h) <;> obtain ⟨rfl, rfl⟩ := Prod.mk.inj (Option.some.inj h) <;> trivial
      | refresh cookie =>
          simp only [accountStep, openSession] at h
          split at h <;> obtain ⟨rfl, rfl⟩ := Prod.mk.inj (Option.some.inj h) <;> trivial
      | me cookie =>
          simp only [accountStep] at h
          split at h <;> obtain ⟨rfl, rfl⟩ := Prod.mk.inj (Option.some.inj h) <;> trivial
      | logout =>
          obtain ⟨rfl, rfl⟩ := Prod.mk.inj (Option.some.inj h)
          trivial
      | admin cookie password request =>
          simp only [accountStep] at h
          (repeat' split at h) <;> obtain ⟨rfl, rfl⟩ := Prod.mk.inj (Option.some.inj h) <;> trivial
  | resetting currentUser email =>
      simp only [accountStep] at h
      split at h
      · obtain ⟨rfl, rfl⟩ := Prod.mk.inj (Option.some.inj h)
        trivial
      · rename_i user huser
        obtain ⟨rfl, rfl⟩ := Prod.mk.inj (Option.some.inj h)
        -- a superadmin who resets the own password is the row that is held already
        rw [AccountWorld.sessionGet] at huser
        split at huser
        · exact Option.some.inj huser ▸ hphase
        · exact flag_of_getUserByEmail huser
  | storing user password mustChange =>
      simp only [accountStep] at h
      split at h
      · obtain ⟨rfl, rfl⟩ := Prod.mk.inj (Option.some.inj h)
        trivial
      · rename_i hashed _
        cases hset : w.setPassword user hashed mustChange <;> rw [hset] at h <;>
          obtain ⟨rfl, rfl⟩ := Prod.mk.inj (Option.some.inj h) <;> trivial
  | seeding found email role password ownerId => exact hphase.elim
  | admin password phase =>
      simp only [accountStep] at h
      rw [adminAccountStep.eq_def] at h
      split at h
      · (repeat' split at h) <;> obtain ⟨rfl, rfl⟩ := Prod.mk.inj (Option.some.inj h) <;> trivial
      · obtain ⟨r, -, hr⟩ := Option.map_eq_some_iff.1 h
        obtain ⟨rfl, rfl⟩ := Prod.mk.inj hr
        trivial
  | responded response => cases h
  | refused error => cases h
  | raised error => cases h

/-- **Requests that do not overlap** keep the flags right. -/
theorem flagsExact_alone (n : Nat) (request : AccountRequest py Token) (hw : w.FlagsExact)
    (hrequest : ∀ email role password ownerId, request ≠ .seedUser email role password ownerId) :
    (solo (accountStep sec o) n w (.start request)).1.FlagsExact := by
  let I : AccountWorld Token → AccountPhase py Token → Prop := fun w phase =>
    w.FlagsExact ∧ phase.HoldsFlag w
  have hstep : ∀ w phase w' phase', I w phase → accountStep sec o w phase = some (w', phase') →
      I w' phase' := by
    rintro w phase w' phase' ⟨hflags, hholds⟩ h
    refine ⟨(flagsExact_step h hflags).2 ?_, holdsFlag_step h hholds⟩
    cases phase with
    | storing user password mustChange => exact fun _ _ _ _ _ => hholds
    | seeding found email role password ownerId => exact hholds.elim
    | start _ => trivial
    | resetting _ _ => trivial
    | admin _ _ => trivial
    | responded _ => trivial
    | refused _ => trivial
    | raised _ => trivial
  have hstart : I w (.start request) := by
    refine ⟨hw, ?_⟩
    cases request with
    | seedUser email role password ownerId => exact hrequest _ _ _ _ rfl
    | _ => trivial
  exact (solo_invariant hstep n hstart).1

end Solo

/-! ## Runs -/

variable {c c' : Config ι (AccountWorld Token) (AccountPhase py Token)} {es : List (ι × Outside Salt)}

/-- **The flag tells a temporary password** throughout a run exactly when every password that is stored
finds the flag that its request has loaded. -/
theorem flags_exact_iff (hflags : c.shared.FlagsExact)
    (hrun : exec (fire (accountStep sec)) es c = some c') :
    Always (fire (accountStep sec)) (fun c => c.shared.FlagsExact) es c ↔
      Guarded (fire (accountStep sec)) (FindsFlag sec) es c := by
  apply always_iff_guarded_of_exact (J := fun _ => True) (H := fun _ _ => True)
  · intro e c c' _ _ _
    trivial
  · intro e c c' _ hc _ hfire
    obtain ⟨w, phase, hstep, rfl⟩ := fire_eq_some.1 hfire
    exact flagsExact_step hstep hc
  · trivial
  · exact hflags
  · exact guarded_of_forall (fun _ _ => trivial) c
  · exact hrun

/-! ## A reset during a change -/

/-- Obi has been invited. -/
def invitedWorld : AccountWorld TokenClaims where
  users := duelTable
  credentials email := ⟨some ("$2b$" ++ email), email == obiRow.email⟩
  temporary email := email == obiRow.email
  issued := []

/-- Ada resets the password of Obi, who is about to replace the first one. -/
def overlapStart : Config Bool (AccountWorld TokenClaims) (AccountPhase asciiLower TokenClaims) where
  shared := invitedWorld
  proc i :=
    if i then
      .start (.resetUserPassword (some (createToken plainSecurity .access adaRow.email .superadmin 0))
        obiRow.email)
    else
      .start (.changePassword (some (createToken plainSecurity .access obiRow.email .superadmin 0))
        ⟨obiRow.email, "my own password", by decide⟩)

/-- The reset has loaded the row before the change is stored. -/
def overlapRun : List (Bool × Outside Unit) :=
  [(true, resetMoment), (true, resetMoment), (false, resetMoment), (false, resetMoment),
    (true, resetMoment)]

theorem reset_loses_flag :
    ¬ Always (fire (accountStep plainSecurity)) (fun c => c.shared.FlagsExact) overlapRun overlapStart := by
  rw [flags_exact_iff (fun _ _ => rfl) rfl]
  intro h
  -- the last step, from the state after the others
  have hlast := ((((h.2 _ rfl).2 _ rfl).2 _ rfl).2 _ rfl).1
  exact absurd (hlast _ _ rfl rfl rfl) (by decide)

end SalesTrades.Users
