import SalesTrades.Library.Run
import SalesTrades.Library.SessionLocks
import Mathlib.Data.List.Basic

/-!
# The locks of the scheduled jobs

Every scheduled job asks for its advisory lock on a connection of its own and does its work only when it
gets it. The instances of the backend share the locks, so a job is at work in one place at most, unless
its work is started without the lock: the admin endpoints do that, and so does every instance that starts
up with the reference sync, and a job whose connection is lost goes on although the server has freed its
lock. These are the only ways in which a job can be at work twice (`exclusive_iff_guarded`). No lock is
left behind (`lock_free`): one that is not free belongs to a call that is at work or about to free it,
or to a process that has died and whose connection the server still keeps.
-/

set_option autoImplicit false

namespace SalesTrades.Jobs

open SalesTrades.Library.Run SalesTrades.Library.SessionLocks

/-! ## The jobs -/

/-- The functions of `app/jobs/tasks.py`. -/
inductive Job where
  | referenceSync
  | dealSync
  | taskSync
  | emailSync
  | dailySnapshot
  | leadCrmSync
  | packDelivery
  | nogActivitySync
  | triageSync
  | tradeCrmSync
  deriving DecidableEq

/-- `LOCK_KEY_REFERENCE_SYNC` and so on. -/
def Job.lockKey : Job → Nat
  | .referenceSync => 17000001
  | .dealSync => 17000002
  | .taskSync => 17000003
  | .emailSync => 17000004
  | .dailySnapshot => 17000005
  | .leadCrmSync => 17000006
  | .packDelivery => 17000007
  | .nogActivitySync => 17000008
  | .triageSync => 17000009
  | .tradeCrmSync => 17000010

/-- Every job has its own lock. -/
theorem Job.lockKey_injective : Function.Injective Job.lockKey := by
  intro job job' h
  cases job <;> cases job' <;> first | rfl | cases h

/-- The jobs whose work is also done without `run_with_advisory_lock`: by the endpoints
`trigger_deal_sync` and its siblings, `resync_leads`, `resend_packs` and `resync_participants`, and the
reference sync by `lifespan` too, when an instance starts up. -/
def Job.hasEndpoint : Job → Bool
  | .nogActivitySync | .triageSync => false
  | _ => true

/-! ## The calls -/

section Calls

universe u v

variable {R : Type u} {C : Type v}

/-- Where a call of `run_with_advisory_lock` is. The connection is the one that the transaction of its
session is on; it is open from the first statement until the session is closed. -/
inductive Phase (C : Type v) where
  /-- Before `SELECT pg_try_advisory_lock`. -/
  | starting
  /-- At `await fn()`, or in the service itself where an endpoint or a startup has called it. -/
  | working (conn : Option C)
  /-- Before `SELECT pg_advisory_unlock`. -/
  | releasing (conn : C)
  /-- At the end of `session_scope`. -/
  | closing (conn : C)
  | ended
  deriving DecidableEq

structure Call (C : Type v) where
  job : Job
  phase : Phase C
  deriving DecidableEq

/-- A connection in the pool, one that a session has, and one that the server has ended. -/
inductive Conn where
  | idle
  | out
  | lost
  deriving DecidableEq

/-- The calls of all instances, the locks of the server and the connections. -/
structure JobWorld (R : Type u) (C : Type v) where
  calls : R → Option (Call C)
  locks : Locks Nat C
  pool : C → Conn

/-- No call has begun. -/
def JobWorld.initial : JobWorld R C := ⟨fun _ => none, fun _ => none, fun _ => .idle⟩

inductive JobEvent (R : Type u) (C : Type v) where
  /-- The scheduler of an instance starts a job. -/
  | tick (call : R) (job : Job)
  /-- An endpoint or a startup starts the work of a job. -/
  | trigger (call : R) (job : Job)
  | tryLock (call : R) (conn : C)
  /-- The work returns or raises; `finally` comes next either way. -/
  | finish (call : R)
  | unlock (call : R)
  | close (call : R)
  /-- The process of the call dies. The server does not know of it yet. -/
  | kill (call : R)
  /-- The server ends a connection: a fault of the network, a timeout, the end of the process. -/
  | lose (conn : C)

variable [DecidableEq R] [DecidableEq C]

/-- The call is now in another phase. -/
def JobWorld.put (w : JobWorld R C) (r : R) (call : Call C) : JobWorld R C :=
  { w with calls := Function.update w.calls r (some call) }

/-- The connection is now in another state. -/
def JobWorld.setConn (w : JobWorld R C) (c : C) (conn : Conn) : JobWorld R C :=
  { w with pool := Function.update w.pool c conn }

/-- `run_with_advisory_lock`, one statement at a time. -/
def jobStep : JobEvent R C → JobWorld R C → Option (JobWorld R C)
  | .tick r job, w => if w.calls r = none then some (w.put r ⟨job, .starting⟩) else none
  | .trigger r job, w =>
      if w.calls r = none ∧ job.hasEndpoint = true then some (w.put r ⟨job, .working none⟩) else none
  | .tryLock r c, w =>
      match w.calls r with
      | some ⟨job, .starting⟩ =>
          if w.pool c = .idle then
            let answer := take job.lockKey c w.locks
            some { (w.put r ⟨job, if answer.1 then .working (some c) else .closing c⟩).setConn c .out with
              locks := answer.2 }
          else none
      | _ => none
  | .finish r, w =>
      match w.calls r with
      | some ⟨job, .working (some c)⟩ => some (w.put r ⟨job, .releasing c⟩)
      | some ⟨job, .working none⟩ => some (w.put r ⟨job, .ended⟩)
      | _ => none
  | .unlock r, w =>
      match w.calls r with
      | some ⟨job, .releasing c⟩ =>
          -- on a lost connection the statement raises, and the session is closed all the same
          if w.pool c = .lost then some (w.put r ⟨job, .closing c⟩)
          else some { w.put r ⟨job, .closing c⟩ with locks := (giveBack job.lockKey c w.locks).2 }
      | _ => none
  | .close r, w =>
      match w.calls r with
      | some ⟨job, .closing c⟩ =>
          -- the pool drops a connection that is lost; a rollback frees no lock of a session
          if w.pool c = .lost then some (w.put r ⟨job, .ended⟩)
          else some ((w.put r ⟨job, .ended⟩).setConn c .idle)
      | _ => none
  | .kill r, w =>
      match w.calls r with
      | some ⟨job, _⟩ => some (w.put r ⟨job, .ended⟩)
      | none => none
  | .lose c, w => some { w.setConn c .lost with locks := endSession c w.locks }

/-- The connection of the call. -/
def Phase.conn : Phase C → Option C
  | .starting | .ended => none
  | .working conn => conn
  | .releasing c | .closing c => some c

/-- The phases from the lock to its release. -/
def Phase.hasLock : Phase C → Option C
  | .working conn => conn
  | .releasing c => some c
  | _ => none

/-- The call is at the work of the job. -/
def Works (w : JobWorld R C) (r : R) (job : Job) : Prop := ∃ conn, w.calls r = some ⟨job, .working conn⟩

/-- A job is at work in one call at most. -/
def Exclusive (w : JobWorld R C) : Prop := ∀ job r r', Works w r job → Works w r' job → r = r'

/-- The work of the job goes on without its lock: an endpoint or a startup started it, or its
connection is lost. -/
def Unlocked (w : JobWorld R C) (job : Job) : Prop :=
  ∃ r, w.calls r = some ⟨job, .working none⟩ ∨
    ∃ c, w.calls r = some ⟨job, .working (some c)⟩ ∧ w.pool c = .lost

/-- No endpoint or startup starts a job that is at work, and no job gets its lock while it works without
it. -/
def StartsAlone (e : JobEvent R C) (w : JobWorld R C) : Prop :=
  match e with
  | .trigger _ job => ∀ r, ¬ Works w r job
  | .tryLock r _ => ∀ job, w.calls r = some ⟨job, .starting⟩ → Unlocked w job →
      w.locks job.lockKey ≠ none
  | _ => True

/-! ## Connections and locks -/

/-- What holds in every state that can be reached. -/
structure Sound (w : JobWorld R C) : Prop where
  /-- No two calls have one connection. -/
  apart : ∀ r r' call call' c, w.calls r = some call → w.calls r' = some call' →
    call.phase.conn = some c → call'.phase.conn = some c → r = r'
  /-- A connection that a call has is not in the pool. -/
  taken : ∀ r call c, w.calls r = some call → call.phase.conn = some c → w.pool c ≠ .idle
  /-- A lock belongs to a connection that is open and outside the pool, and is taken once. Where a call
  has this connection, it is one that has taken the lock and not released it. -/
  locks : ∀ k c n, w.locks k = some (c, n) → n = 0 ∧ w.pool c = .out ∧
    ∀ r call, w.calls r = some call → call.phase.conn = some c →
      call.job.lockKey = k ∧ call.phase.hasLock = some c
  /-- A call that has taken its lock has it, unless its connection is lost. -/
  holds : ∀ r call c, w.calls r = some call → call.phase.hasLock = some c → w.pool c ≠ .lost →
    w.locks call.job.lockKey = some (c, 0)

omit [DecidableEq R] [DecidableEq C] in
theorem Phase.conn_of_hasLock {phase : Phase C} {c : C} (h : phase.hasLock = some c) :
    phase.conn = some c := by
  cases phase with
  | working conn => exact h
  | releasing conn => exact h
  | starting => cases h
  | closing conn => cases h
  | ended => cases h

section Steps

variable {w w' : JobWorld R C} {r : R} {c : C} {job : Job} {call : Call C}

omit [DecidableEq C] in
theorem calls_put (w : JobWorld R C) (r r' : R) (call : Call C) :
    (w.put r call).calls r' = if r' = r then some call else w.calls r' :=
  Function.update_apply _ _ _ _

omit [DecidableEq R] in
theorem pool_setConn (w : JobWorld R C) (c c' : C) (conn : Conn) :
    (w.setConn c conn).pool c' = if c' = c then conn else w.pool c' :=
  Function.update_apply _ _ _ _

omit [DecidableEq R] [DecidableEq C] in
/-- At the start there is no call and no lock. -/
theorem sound_initial : Sound (JobWorld.initial : JobWorld R C) where
  apart := nofun
  taken := nofun
  locks := nofun
  holds := nofun

omit [DecidableEq C] in
/-- A call that moves on without a new connection, where only locks of its own connection are freed. -/
theorem Sound.put_locks (h : Sound w) {locks : Locks Nat C}
    (hconn : ∀ c, call.phase.conn = some c → ∃ before, w.calls r = some before ∧
      before.phase.conn = some c ∧ before.job = call.job)
    (hlock : ∀ c, call.phase.hasLock = some c → (∃ before, w.calls r = some before ∧
      before.phase.hasLock = some c ∧ before.job = call.job) ∧
        locks call.job.lockKey = w.locks call.job.lockKey)
    (hsub : ∀ k lock, locks k = some lock → w.locks k = some lock)
    (hkeeps : ∀ k c n, locks k = some (c, n) → call.phase.conn = some c → call.phase.hasLock = some c)
    (hstays : ∀ k c n, w.locks k = some (c, n) →
      (∀ before, w.calls r = some before → before.phase.conn ≠ some c) → locks k = some (c, n)) :
    Sound { w.put r call with locks := locks } := by
  refine ⟨?_, ?_, ?_, ?_⟩
  · -- the connection of the call that has moved was its own before
    have howner : ∀ r' call' c, (w.put r call).calls r' = some call' → call'.phase.conn = some c →
        ∃ before, w.calls r' = some before ∧ before.phase.conn = some c := by
      intro r' call' c hcall hc
      rw [calls_put] at hcall
      split at hcall
      · next heq =>
          cases hcall
          obtain ⟨before, hbefore, hbc, -⟩ := hconn c hc
          exact ⟨before, heq ▸ hbefore, hbc⟩
      · exact ⟨call', hcall, hc⟩
    intro r' r'' call' call'' c h' h'' hc' hc''
    obtain ⟨before', hbefore', hb'⟩ := howner r' call' c h' hc'
    obtain ⟨before'', hbefore'', hb''⟩ := howner r'' call'' c h'' hc''
    exact h.apart r' r'' before' before'' c hbefore' hbefore'' hb' hb''
  · intro r' call' c hcall hc
    change (w.put r call).calls r' = some call' at hcall
    rw [calls_put] at hcall
    split at hcall
    · cases hcall
      obtain ⟨before, hbefore, hbc, -⟩ := hconn c hc
      exact h.taken r before c hbefore hbc
    · exact h.taken r' call' c hcall hc
  · intro k c n hlocked
    obtain ⟨hn, hout, hcalls⟩ := h.locks k c n (hsub k _ hlocked)
    refine ⟨hn, hout, fun r' call' hcall hc => ?_⟩
    change (w.put r call).calls r' = some call' at hcall
    rw [calls_put] at hcall
    split at hcall
    · cases hcall
      obtain ⟨before, hbefore, hbc, hjob⟩ := hconn c hc
      exact ⟨hjob ▸ (hcalls r before hbefore hbc).1, hkeeps k c n hlocked hc⟩
    · exact hcalls r' call' hcall hc
  · intro r' call' c hcall hc hlive
    change (w.put r call).calls r' = some call' at hcall
    rw [calls_put] at hcall
    split at hcall
    · cases hcall
      obtain ⟨⟨before, hbefore, hbc, hjob⟩, hsame⟩ := hlock c hc
      exact hsame.trans (hjob ▸ h.holds r before c hbefore hbc hlive)
    · next hne =>
        -- the lock of another call is not on the connection of this one
        refine hstays _ c 0 (h.holds r' call' c hcall hc hlive) fun before hbefore hbc => hne ?_
        exact h.apart r' r call' before c hcall hbefore (Phase.conn_of_hasLock hc) hbc

omit [DecidableEq C] in
/-- A call that moves on without a new connection and without freeing its lock. -/
theorem Sound.put (h : Sound w)
    (hconn : ∀ c, call.phase.conn = some c → ∃ before, w.calls r = some before ∧
      before.phase.conn = some c ∧ before.job = call.job)
    (hlock : ∀ c, call.phase.hasLock = some c → ∃ before, w.calls r = some before ∧
      before.phase.hasLock = some c ∧ before.job = call.job)
    (hkeeps : ∀ c, call.phase.conn = some c → w.pool c = .out → call.phase.hasLock = some c) :
    Sound (w.put r call) := by
  apply h.put_locks hconn (fun c hc => ⟨hlock c hc, rfl⟩) (fun _ _ hlocked => hlocked)
  · intro k c n hlocked hc
    exact hkeeps c hc (h.locks k c n hlocked).2.1
  · exact fun _ _ _ hlocked _ => hlocked

omit [DecidableEq C] in
/-- A call that has no connection any more. -/
theorem Sound.put_ended (h : Sound w) : Sound (w.put r ⟨job, .ended⟩) :=
  h.put nofun nofun nofun

omit [DecidableEq R] in
/-- The end of a connection frees its locks. -/
theorem Sound.lose (h : Sound w) :
    Sound { w.setConn c .lost with locks := endSession c w.locks } := by
  refine ⟨h.apart, ?_, ?_, ?_⟩
  · intro r call c' hcall hc
    change (w.setConn c .lost).pool c' ≠ .idle
    rw [pool_setConn]
    split
    · exact nofun
    · exact h.taken r call c' hcall hc
  · intro k c' n hlocked
    obtain ⟨hold, hne⟩ := endSession_eq_some_iff.1 hlocked
    obtain ⟨hn, hout, hcalls⟩ := h.locks k c' n hold
    refine ⟨hn, ?_, hcalls⟩
    change (w.setConn c .lost).pool c' = .out
    rw [pool_setConn, if_neg hne, hout]
  · intro r call c' hcall hc hlive
    change (w.setConn c .lost).pool c' ≠ .lost at hlive
    rw [pool_setConn] at hlive
    split at hlive
    · exact absurd rfl hlive
    · next hne => exact endSession_eq_some_iff.2 ⟨h.holds r call c' hcall hc hlive, hne⟩

/-- A connection that goes back to the pool has no lock. -/
theorem Sound.close (h : Sound w) (hcall : w.calls r = some ⟨job, .closing c⟩)
    (hopen : w.pool c ≠ .lost) :
    Sound ((w.put r ⟨job, .ended⟩).setConn c .idle) := by
  have hended : Sound (w.put r ⟨job, .ended⟩) := h.put_ended
  refine ⟨hended.apart, ?_, ?_, ?_⟩
  · intro r' call' c' hcall' hc'
    rw [pool_setConn]
    split
    · next heq =>
        -- no other call has the connection
        subst heq
        have hne : r' ≠ r := by
          rintro rfl
          change (w.put r' ⟨job, .ended⟩).calls r' = some call' at hcall'
          rw [calls_put, if_pos rfl] at hcall'
          cases hcall'
          cases hc'
        change (w.put r ⟨job, .ended⟩).calls r' = some call' at hcall'
        rw [calls_put, if_neg hne] at hcall'
        exact absurd (h.apart r' r call' _ c' hcall' hcall hc' rfl) hne
    · exact hended.taken r' call' c' hcall' hc'
  · intro k c' n hlocked
    obtain ⟨hn, hout, hcalls⟩ := hended.locks k c' n hlocked
    refine ⟨hn, ?_, hcalls⟩
    rw [pool_setConn]
    split
    · next heq =>
        -- the call is closing, so its connection has no lock
        subst heq
        cases ((h.locks k c' n hlocked).2.2 r _ hcall rfl).2
    · exact hout
  · intro r' call' c' hcall' hc' hlive
    rw [pool_setConn] at hlive
    refine hended.holds r' call' c' hcall' hc' ?_
    split at hlive
    · next heq => exact heq ▸ hopen
    · exact hlive

/-- A call that gives its lock back. -/
theorem Sound.unlock (h : Sound w) (hcall : w.calls r = some ⟨job, .releasing c⟩)
    (hopen : w.pool c ≠ .lost) :
    Sound { w.put r ⟨job, .closing c⟩ with locks := (giveBack job.lockKey c w.locks).2 } := by
  have hheld : w.locks job.lockKey = some (c, 0) := h.holds r _ c hcall rfl hopen
  have hlocks : (giveBack job.lockKey c w.locks).2 = Function.update w.locks job.lockKey none := by
    rw [giveBack_once hheld]
  rw [hlocks]
  apply h.put_locks
  · intro c' hc'
    exact ⟨_, hcall, hc', rfl⟩
  · exact nofun
  · intro k lock hlocked
    rw [Function.update_apply] at hlocked
    split at hlocked
    · cases hlocked
    · exact hlocked
  · intro k c' n hlocked hc'
    rw [Function.update_apply] at hlocked
    split at hlocked
    · cases hlocked
    · next hne =>
        -- the connection of the call has only the lock of its job
        cases hc'
        exact absurd ((h.locks k c n hlocked).2.2 r _ hcall rfl).1.symm hne
  · intro k c' n hlocked hother
    rw [Function.update_apply, if_neg]
    · exact hlocked
    · rintro rfl
      rw [hheld] at hlocked
      cases hlocked
      exact hother _ hcall rfl

/-- A call that gets a connection of the pool, where only locks for this connection are new. -/
theorem Sound.checkout (h : Sound w) (hidle : w.pool c = .idle) (hconn : call.phase.conn = some c)
    {locks : Locks Nat C}
    (hsame : ∀ k lock, lock.1 ≠ c → (locks k = some lock ↔ w.locks k = some lock))
    (hown : ∀ k n, locks k = some (c, n) → n = 0 ∧ call.job.lockKey = k ∧ call.phase.hasLock = some c)
    (hhas : call.phase.hasLock = some c → locks call.job.lockKey = some (c, 0)) :
    Sound { (w.put r call).setConn c .out with locks := locks } := by
  -- no other call has the connection
  have hnobody : ∀ r' call', w.calls r' = some call' → call'.phase.conn ≠ some c :=
    fun r' call' hcall' hc => h.taken r' call' c hcall' hc hidle
  refine ⟨?_, ?_, ?_, ?_⟩
  · intro r' r'' call' call'' c' h' h'' hc' hc''
    change (w.put r call).calls r' = some call' at h'
    change (w.put r call).calls r'' = some call'' at h''
    rw [calls_put] at h' h''
    split at h'
    · next heq' =>
        cases h'
        obtain rfl : c = c' := Option.some.inj (hconn.symm.trans hc')
        split at h''
        · next heq'' => exact heq'.trans heq''.symm
        · exact absurd hc'' (hnobody r'' call'' h'')
    · split at h''
      · cases h''
        obtain rfl : c = c' := Option.some.inj (hconn.symm.trans hc'')
        exact absurd hc' (hnobody r' call' h')
      · exact h.apart r' r'' call' call'' c' h' h'' hc' hc''
  · intro r' call' c' hcall' hc'
    change ((w.put r call).setConn c .out).pool c' ≠ .idle
    change (w.put r call).calls r' = some call' at hcall'
    rw [pool_setConn]
    split
    · exact nofun
    · next hne =>
        rw [calls_put] at hcall'
        split at hcall'
        · cases hcall'
          exact absurd (Option.some.inj (hconn.symm.trans hc')).symm hne
        · exact h.taken r' call' c' hcall' hc'
  · intro k c' n hlocked
    change n = 0 ∧ ((w.put r call).setConn c .out).pool c' = .out ∧
      ∀ r' call', (w.put r call).calls r' = some call' → call'.phase.conn = some c' → _
    rw [pool_setConn]
    by_cases hc : c' = c
    · subst hc
      obtain ⟨hn, hkey, hlock⟩ := hown k n hlocked
      refine ⟨hn, if_pos rfl, fun r' call' hcall' hc' => ?_⟩
      rw [calls_put] at hcall'
      split at hcall'
      · cases hcall'
        exact ⟨hkey, hlock⟩
      · exact absurd hc' (hnobody r' call' hcall')
    · obtain ⟨hn, hout, hcalls⟩ := h.locks k c' n ((hsame k _ hc).1 hlocked)
      refine ⟨hn, ?_, fun r' call' hcall' hc' => ?_⟩
      · rw [if_neg hc]
        exact hout
      · rw [calls_put] at hcall'
        split at hcall'
        · cases hcall'
          exact absurd (Option.some.inj (hconn.symm.trans hc')).symm hc
        · exact hcalls r' call' hcall' hc'
  · intro r' call' c' hcall' hc' hlive
    change (w.put r call).calls r' = some call' at hcall'
    change ((w.put r call).setConn c .out).pool c' ≠ .lost at hlive
    rw [calls_put] at hcall'
    split at hcall'
    · cases hcall'
      obtain rfl : c = c' := Option.some.inj (hconn.symm.trans (Phase.conn_of_hasLock hc'))
      exact hhas hc'
    · have hne : c' ≠ c := by
        rintro rfl
        exact hnobody r' call' hcall' (Phase.conn_of_hasLock hc')
      rw [pool_setConn, if_neg hne] at hlive
      exact (hsame _ _ hne).2 (h.holds r' call' c' hcall' hc' hlive)

omit [DecidableEq R] [DecidableEq C] in
/-- A lock is never on a connection of the pool. -/
theorem Sound.not_held (h : Sound w) (hidle : w.pool c = .idle) {k n : Nat} : w.locks k ≠ some (c, n) := by
  intro hlocked
  rw [(h.locks k c n hlocked).2.1] at hidle
  cases hidle

/-- A call that gets its lock. -/
theorem Sound.acquire (h : Sound w) (hidle : w.pool c = .idle) (hfree : w.locks job.lockKey = none) :
    Sound { (w.put r ⟨job, .working (some c)⟩).setConn c .out with
      locks := Function.update w.locks job.lockKey (some (c, 0)) } := by
  apply h.checkout hidle rfl
  · intro k lock hne
    rw [Function.update_apply]
    split
    · next heq =>
        refine iff_of_false ?_ ?_
        · intro hlocked
          exact hne (congrArg Prod.fst (Option.some.inj hlocked)).symm
        · rw [heq, hfree]
          exact nofun
    · exact Iff.rfl
  · intro k n hlocked
    rw [Function.update_apply] at hlocked
    split at hlocked
    · next heq => exact ⟨(congrArg Prod.snd (Option.some.inj hlocked)).symm, heq.symm, rfl⟩
    · exact absurd hlocked (h.not_held hidle)
  · exact fun _ => Function.update_self _ _ _

/-- A call that is refused its lock. -/
theorem Sound.refuse (h : Sound w) (hidle : w.pool c = .idle) :
    Sound ((w.put r ⟨job, .closing c⟩).setConn c .out) := by
  apply h.checkout hidle rfl
  · exact fun _ _ _ => Iff.rfl
  · exact fun k n hlocked => absurd hlocked (h.not_held hidle)
  · exact nofun

/-- What `pg_try_advisory_lock` answers. -/
theorem tryLock_spec (h : Sound w) (hstep : jobStep (.tryLock r c) w = some w') :
    ∃ job, w.calls r = some ⟨job, .starting⟩ ∧ w.pool c = .idle ∧
      ((w.locks job.lockKey = none ∧ w' = { (w.put r ⟨job, .working (some c)⟩).setConn c .out with
          locks := Function.update w.locks job.lockKey (some (c, 0)) }) ∨
        (w.locks job.lockKey ≠ none ∧ w' = (w.put r ⟨job, .closing c⟩).setConn c .out)) := by
  simp only [jobStep] at hstep
  split at hstep
  · next job hcall =>
      split at hstep
      · next hidle =>
          refine ⟨job, hcall, hidle, ?_⟩
          cases hlock : w.locks job.lockKey with
          | none =>
              rw [take_free hlock] at hstep
              exact Or.inl ⟨rfl, (Option.some.inj hstep).symm⟩
          | some lock =>
              obtain ⟨holder, n⟩ := lock
              have hne : holder ≠ c := by
                rintro rfl
                exact h.not_held hidle hlock
              rw [take_other hlock hne] at hstep
              exact Or.inr ⟨nofun, (Option.some.inj hstep).symm⟩
      · cases hstep
  · cases hstep

/-- **Locks and connections.** Every statement of every call keeps them sound. -/
theorem sound_step {e : JobEvent R C} (h : Sound w) (hstep : jobStep e w = some w') : Sound w' := by
  cases e with
  | tick r job =>
      simp only [jobStep] at hstep
      split at hstep
      · cases hstep
        exact h.put nofun nofun nofun
      · cases hstep
  | trigger r job =>
      simp only [jobStep] at hstep
      split at hstep
      · cases hstep
        exact h.put nofun nofun nofun
      · cases hstep
  | tryLock r c =>
      obtain ⟨job, -, hidle, ⟨hfree, rfl⟩ | ⟨-, rfl⟩⟩ := tryLock_spec h hstep
      · exact h.acquire hidle hfree
      · exact h.refuse hidle
  | finish r =>
      simp only [jobStep] at hstep
      split at hstep
      · next job c hcall =>
          cases hstep
          exact h.put (fun c' hc => ⟨_, hcall, hc, rfl⟩) (fun c' hc => ⟨_, hcall, hc, rfl⟩)
            fun c' hc _ => hc
      · cases hstep
        exact h.put_ended
      · cases hstep
  | unlock r =>
      simp only [jobStep] at hstep
      split at hstep
      · next job c hcall =>
          split at hstep
          · next hlost =>
              cases hstep
              refine h.put (fun c' hc => ⟨_, hcall, hc, rfl⟩) nofun fun c' hc hout => ?_
              -- no lock is on a lost connection
              cases hc
              rw [hlost] at hout
              cases hout
          · next hopen =>
              cases hstep
              exact h.unlock hcall hopen
      · cases hstep
  | close r =>
      simp only [jobStep] at hstep
      split at hstep
      · next job c hcall =>
          split at hstep
          · cases hstep
            exact h.put_ended
          · next hopen =>
              cases hstep
              exact h.close hcall hopen
      · cases hstep
  | kill r =>
      simp only [jobStep] at hstep
      split at hstep
      · cases hstep
        exact h.put_ended
      · cases hstep
  | lose c =>
      cases hstep
      exact h.lose

/-! ## One call at work -/

omit [DecidableEq C] in
theorem works_put {r' : R} : Works (w.put r call) r' job ↔
    (r' = r ∧ ∃ conn, call = ⟨job, .working conn⟩) ∨ r' ≠ r ∧ Works w r' job := by
  rw [Works, calls_put]
  split
  · next heq => simp [heq]
  · next hne => simp [hne, Works]

omit [DecidableEq C] in
/-- A call that does not begin to work leaves the jobs exclusive. -/
theorem Exclusive.put (h : Exclusive w) (hcall : ∀ job conn, call ≠ ⟨job, .working conn⟩) :
    Exclusive (w.put r call) := by
  have hbefore : ∀ job r', Works (w.put r call) r' job → Works w r' job := by
    intro job r' hworks
    rcases works_put.1 hworks with ⟨-, conn, heq⟩ | ⟨-, hold⟩
    · exact absurd heq (hcall job conn)
    · exact hold
  intro job r' r'' h' h''
  exact h job r' r'' (hbefore job r' h') (hbefore job r'' h'')

omit [DecidableEq C] in
/-- A call that begins to work leaves them exclusive exactly when its job is not at work. -/
theorem exclusive_put_iff (h : Exclusive w) {conn : Option C} (hr : ∀ job, ¬ Works w r job) :
    Exclusive (w.put r ⟨job, .working conn⟩) ↔ ∀ r', ¬ Works w r' job := by
  have hnew : Works (w.put r ⟨job, .working conn⟩) r job := works_put.2 (Or.inl ⟨rfl, conn, rfl⟩)
  constructor
  · intro hexcl r' hworks
    have hne : r' ≠ r := by
      rintro rfl
      exact hr job hworks
    exact hne (hexcl job r' r (works_put.2 (Or.inr ⟨hne, hworks⟩)) hnew)
  · intro hnone job' r' r'' h' h''
    rcases works_put.1 h' with ⟨heq', conn', hcall'⟩ | ⟨-, hold'⟩
    · cases hcall'
      rcases works_put.1 h'' with ⟨heq'', -⟩ | ⟨-, hold''⟩
      · exact heq'.trans heq''.symm
      · exact absurd hold'' (hnone r'')
    · rcases works_put.1 h'' with ⟨-, conn'', hcall''⟩ | ⟨-, hold''⟩
      · cases hcall''
        exact absurd hold' (hnone r')
      · exact h job' r' r'' hold' hold''

omit [DecidableEq R] [DecidableEq C] in
theorem not_works_of_calls (hcall : w.calls r = some call) (hphase : ∀ conn, call.phase ≠ .working conn) :
    ∀ job, ¬ Works w r job := by
  rintro job ⟨conn, hworks⟩
  rw [hcall] at hworks
  cases hworks
  exact hphase conn rfl

omit [DecidableEq R] [DecidableEq C] in
/-- Where the lock of a job is free, its work goes on without the lock or not at all. -/
theorem Sound.works_iff_of_free (h : Sound w) (hfree : w.locks job.lockKey = none) :
    (∃ r, Works w r job) ↔ Unlocked w job := by
  constructor
  · rintro ⟨r, conn, hcall⟩
    cases conn with
    | none => exact ⟨r, Or.inl hcall⟩
    | some c =>
        refine ⟨r, Or.inr ⟨c, hcall, ?_⟩⟩
        by_contra hopen
        have hheld := h.holds r _ c hcall rfl hopen
        rw [hfree] at hheld
        cases hheld
  · rintro ⟨r, hcall | ⟨c, hcall, -⟩⟩
    · exact ⟨r, none, hcall⟩
    · exact ⟨r, some c, hcall⟩

/-- A statement keeps the jobs exclusive exactly when it starts no job beside itself. -/
theorem exclusive_step_iff {e : JobEvent R C} (h : Sound w) (hexcl : Exclusive w)
    (hstep : jobStep e w = some w') : Exclusive w' ↔ StartsAlone e w := by
  -- only a trigger and a lock that is given put a call to work
  cases e with
  | tick r job =>
      simp only [jobStep] at hstep
      split at hstep
      · cases hstep
        exact iff_of_true (hexcl.put nofun) trivial
      · cases hstep
  | trigger r job =>
      simp only [jobStep] at hstep
      split at hstep
      · next hnew =>
          cases hstep
          refine exclusive_put_iff hexcl ?_
          rintro job ⟨conn, hworks⟩
          rw [hnew.1] at hworks
          cases hworks
      · cases hstep
  | tryLock r c =>
      obtain ⟨job, hcall, hidle, ⟨hfree, rfl⟩ | ⟨hheld, rfl⟩⟩ := tryLock_spec h hstep
      · have halone : StartsAlone (.tryLock r c) w ↔ ∀ r', ¬ Works w r' job := by
          constructor
          · intro halone r' hworks
            exact halone job hcall ((h.works_iff_of_free hfree).1 ⟨r', hworks⟩) hfree
          · intro hnone job' hcall' hunlocked _
            rw [hcall] at hcall'
            cases hcall'
            obtain ⟨r', hworks⟩ := (h.works_iff_of_free hfree).2 hunlocked
            exact hnone r' hworks
        exact (exclusive_put_iff hexcl (not_works_of_calls hcall nofun)).trans halone.symm
      · refine iff_of_true (hexcl.put nofun) fun job' hcall' _ => ?_
        rw [hcall] at hcall'
        cases hcall'
        exact hheld
  | finish r =>
      simp only [jobStep] at hstep
      split at hstep
      · cases hstep
        exact iff_of_true (hexcl.put nofun) trivial
      · cases hstep
        exact iff_of_true (hexcl.put nofun) trivial
      · cases hstep
  | unlock r =>
      simp only [jobStep] at hstep
      split at hstep
      · split at hstep
        · cases hstep
          exact iff_of_true (hexcl.put nofun) trivial
        · cases hstep
          exact iff_of_true (hexcl.put nofun) trivial
      · cases hstep
  | close r =>
      simp only [jobStep] at hstep
      split at hstep
      · split at hstep
        · cases hstep
          exact iff_of_true (hexcl.put nofun) trivial
        · cases hstep
          exact iff_of_true (hexcl.put nofun) trivial
      · cases hstep
  | kill r =>
      simp only [jobStep] at hstep
      split at hstep
      · cases hstep
        exact iff_of_true (hexcl.put nofun) trivial
      · cases hstep
  | lose c =>
      cases hstep
      exact iff_of_true hexcl trivial

/-- **One instance at a time.** Over all instances, endpoints, startups, lost connections and dead
processes, every job is at work in one call at most exactly when no endpoint or startup starts a job that
is at work and no call gets the lock of a job that works without it. -/
theorem exclusive_iff_guarded {es : List (JobEvent R C)} (hrun : exec jobStep es .initial = some w) :
    Always jobStep Exclusive es .initial ↔ Guarded jobStep StartsAlone es .initial := by
  have hinitial : Exclusive (JobWorld.initial : JobWorld R C) := by
    rintro job r r' ⟨conn, hcall⟩
    cases hcall
  have hany : Guarded jobStep (fun _ _ => True) es (JobWorld.initial : JobWorld R C) :=
    guarded_of_forall (fun _ _ => trivial) _
  exact always_iff_guarded_of_exact (fun _ _ _ h _ hstep => sound_step h hstep)
    (fun _ _ _ h hexcl _ hstep => exclusive_step_iff h hexcl hstep) sound_initial hinitial hany hrun

/-! ## No lock is left behind -/

/-- Every open connection outside the pool is the one of a call. -/
def Attended (w : JobWorld R C) : Prop :=
  ∀ c, w.pool c = .out → ∃ r call, w.calls r = some call ∧ call.phase.conn = some c

omit [DecidableEq R] [DecidableEq C] in
/-- What a call has to do with the connections that stay outside the pool when it moves. -/
theorem Attended.move (h : Attended w) (hothers : ∀ r', r' ≠ r → w'.calls r' = w.calls r')
    (hout : ∀ c, w'.pool c = .out → (∃ call, w'.calls r = some call ∧ call.phase.conn = some c) ∨
      w.pool c = .out ∧ ∀ call, w.calls r = some call → call.phase.conn ≠ some c) : Attended w' := by
  intro c hc
  rcases hout c hc with ⟨call, hcall, hconn⟩ | ⟨hbefore, hnot⟩
  · exact ⟨r, call, hcall, hconn⟩
  · obtain ⟨r', call, hcall, hconn⟩ := h c hbefore
    have hne : r' ≠ r := by
      rintro rfl
      exact hnot call hcall hconn
    exact ⟨r', call, (hothers r' hne).trans hcall, hconn⟩

theorem Attended.put (h : Attended w)
    (hkeeps : ∀ before c, w.calls r = some before → before.phase.conn = some c → w.pool c = .out →
      call.phase.conn = some c) : Attended (w.put r call) := by
  apply h.move (r := r)
  · intro r' hne
    rw [calls_put, if_neg hne]
  · intro c hc
    by_cases hmine : ∃ before, w.calls r = some before ∧ before.phase.conn = some c
    · obtain ⟨before, hbefore, hconn⟩ := hmine
      refine Or.inl ⟨call, ?_, hkeeps before c hbefore hconn hc⟩
      rw [calls_put, if_pos rfl]
    · exact Or.inr ⟨hc, fun before hbefore hconn => hmine ⟨before, hbefore, hconn⟩⟩

/-- Where no process dies, a connection stays with its call until the pool has it back. -/
theorem attended_step {e : JobEvent R C} (hsound : Sound w) (h : Attended w) (halive : ∀ r, e ≠ .kill r)
    (hstep : jobStep e w = some w') : Attended w' := by
  cases e with
  | tick r job =>
      simp only [jobStep] at hstep
      split at hstep
      · next hnew =>
          cases hstep
          refine h.put fun before c hbefore => ?_
          rw [hnew] at hbefore
          cases hbefore
      · cases hstep
  | trigger r job =>
      simp only [jobStep] at hstep
      split at hstep
      · next hnew =>
          cases hstep
          refine h.put fun before c hbefore => ?_
          rw [hnew.1] at hbefore
          cases hbefore
      · cases hstep
  | tryLock r c =>
      obtain ⟨job, hcall, hidle, hanswer⟩ := tryLock_spec hsound hstep
      -- either answer leaves the call with the connection
      have hmoved : ∃ call : Call C, call.phase.conn = some c ∧
          w'.calls = (w.put r call).calls ∧ w'.pool = (w.setConn c .out).pool := by
        rcases hanswer with ⟨-, rfl⟩ | ⟨-, rfl⟩
        · exact ⟨⟨job, .working (some c)⟩, rfl, rfl, rfl⟩
        · exact ⟨⟨job, .closing c⟩, rfl, rfl, rfl⟩
      obtain ⟨call, hconn, hcalls, hpool⟩ := hmoved
      apply h.move (r := r)
      · intro r' hne
        rw [hcalls, calls_put, if_neg hne]
      · intro c' hc'
        rw [hpool, pool_setConn] at hc'
        split at hc'
        · next heq =>
            refine Or.inl ⟨call, ?_, heq ▸ hconn⟩
            rw [hcalls, calls_put, if_pos rfl]
        · refine Or.inr ⟨hc', fun before hbefore => ?_⟩
          rw [hcall] at hbefore
          cases hbefore
          exact nofun
  | finish r =>
      simp only [jobStep] at hstep
      split at hstep
      · next job c hcall =>
          cases hstep
          refine h.put fun before c' hbefore hconn _ => ?_
          rw [hcall] at hbefore
          cases hbefore
          exact hconn
      · next job hcall =>
          cases hstep
          refine h.put fun before c' hbefore hconn _ => ?_
          rw [hcall] at hbefore
          cases hbefore
          cases hconn
      · cases hstep
  | unlock r =>
      simp only [jobStep] at hstep
      split at hstep
      · next job c hcall =>
          have hput : Attended (w.put r ⟨job, .closing c⟩) := by
            refine h.put fun before c' hbefore hconn _ => ?_
            rw [hcall] at hbefore
            cases hbefore
            exact hconn
          split at hstep
          · cases hstep
            exact hput
          · cases hstep
            exact hput
      · cases hstep
  | close r =>
      simp only [jobStep] at hstep
      split at hstep
      · next job c hcall =>
          split at hstep
          · next hlost =>
              cases hstep
              refine h.put fun before c' hbefore hconn hout => ?_
              rw [hcall] at hbefore
              cases hbefore
              cases hconn
              rw [hlost] at hout
              cases hout
          · cases hstep
            apply h.move (r := r)
            · intro r' hne
              change (w.put r ⟨job, .ended⟩).calls r' = w.calls r'
              rw [calls_put, if_neg hne]
            · intro c' hc'
              rw [pool_setConn] at hc'
              split at hc'
              · cases hc'
              · next hne =>
                  refine Or.inr ⟨hc', fun before hbefore hconn => ?_⟩
                  rw [hcall] at hbefore
                  cases hbefore
                  cases hconn
                  exact hne rfl
      · cases hstep
  | kill r => exact absurd rfl (halive r)
  | lose c =>
      cases hstep
      intro c' hc'
      change (w.setConn c .lost).pool c' = .out at hc'
      rw [pool_setConn] at hc'
      split at hc'
      · cases hc'
      · exact h c' hc'

/-- **No lock is left behind.** Where no process has died, a call that asks for its lock gets to work
exactly when no other call of the job has the lock on an open connection. -/
theorem works_iff_lock_unused {w'' : JobWorld R C} {es : List (JobEvent R C)}
    (hrun : exec jobStep es .initial = some w) (halive : ∀ r, JobEvent.kill r ∉ es)
    (hcall : w.calls r = some ⟨job, .starting⟩) (hstep : jobStep (.tryLock r c) w = some w'') :
    Works w'' r job ↔ ¬ ∃ r' call c', w.calls r' = some call ∧ call.job = job ∧
      call.phase.hasLock = some c' ∧ w.pool c' ≠ .lost := by
  -- without deaths every connection that is out belongs to a call
  have hinv : Sound w ∧ Attended w := by
    have hkills : Guarded jobStep (fun e _ => ∀ r, e ≠ .kill r) es (JobWorld.initial : JobWorld R C) := by
      apply guarded_of_forall
      rintro e he r rfl
      exact halive r he
    have hsteps : ∀ e (s t : JobWorld R C), Sound s ∧ Attended s → (∀ r, e ≠ .kill r) →
        jobStep e s = some t → Sound t ∧ Attended t :=
      fun e s t h hkill hstep => ⟨sound_step h.1 hstep, attended_step h.1 h.2 hkill hstep⟩
    exact (always_of_step hsteps ⟨sound_initial, nofun⟩ hkills).last hrun
  obtain ⟨hsound, hattended⟩ := hinv
  obtain ⟨job', hcall', -, hanswer⟩ := tryLock_spec hsound hstep
  rw [hcall] at hcall'
  cases hcall'
  rcases hanswer with ⟨hfree, rfl⟩ | ⟨hheld, rfl⟩
  · refine iff_of_true (works_put.2 (Or.inl ⟨rfl, some c, rfl⟩)) ?_
    rintro ⟨r', call, c', hcalls, rfl, hlock, hopen⟩
    rw [hsound.holds r' call c' hcalls hlock hopen] at hfree
    cases hfree
  · refine iff_of_false ?_ ?_
    · intro hworks
      rcases works_put.1 hworks with ⟨-, conn, heq⟩ | ⟨hne, -⟩
      · cases heq
      · exact hne rfl
    · -- the connection that has the lock is open, so it is the one of a call
      obtain ⟨⟨c', n⟩, hlock⟩ := Option.ne_none_iff_exists'.1 hheld
      obtain ⟨-, hout, howner⟩ := hsound.locks _ c' n hlock
      obtain ⟨r', call, hcalls, hconn⟩ := hattended c' hout
      obtain ⟨hkey, hhas⟩ := howner r' call hcalls hconn
      refine not_not.2 ⟨r', call, c', hcalls, Job.lockKey_injective hkey, hhas, ?_⟩
      rw [hout]
      exact nofun

end Steps

end Calls

/-! ## Two instances -/

/-- The nightly run of the deals is at work when the second instance asks for the lock. -/
theorem second_instance_skips : ∃ w w' : JobWorld Nat Nat,
    exec jobStep [.tick 0 .dealSync, .tryLock 0 0, .tick 1 .dealSync] .initial = some w ∧
      jobStep (.tryLock 1 1) w = some w' ∧ ¬ Works w' 1 .dealSync := by
  refine ⟨_, _, rfl, rfl, ?_⟩
  have halive : ∀ r : Nat, JobEvent.kill r ∉
      [.tick 0 .dealSync, .tryLock 0 0, (.tick 1 .dealSync : JobEvent Nat Nat)] := by simp
  rw [works_iff_lock_unused rfl halive rfl (c := 1) rfl]
  exact not_not.2 ⟨0, _, 0, rfl, rfl, rfl, nofun⟩

/-- An endpoint starts the sync that the scheduler is running. -/
theorem endpoint_overlaps : ∃ w : JobWorld Nat Nat,
    exec jobStep [.tick 0 .dealSync, .tryLock 0 0, .trigger 1 .dealSync] .initial = some w ∧
      ¬ Always jobStep Exclusive [.tick 0 .dealSync, .tryLock 0 0, .trigger 1 .dealSync]
        (.initial : JobWorld Nat Nat) := by
  refine ⟨_, rfl, ?_⟩
  rw [exclusive_iff_guarded (w := _) rfl]
  intro hguarded
  exact ((hguarded.2 _ rfl).2 _ rfl).1 0 ⟨some 0, rfl⟩

end SalesTrades.Jobs
