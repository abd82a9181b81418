import SavedOrganizer.System.Sessions

/-!
# Login lockouts

`LOGIN_LOCK_THRESHOLD` counted failures lock an account, and the delay is computed from the
failures beyond the threshold, up to `LOGIN_LOCK_MAX_SECONDS`. But an attempt after a
completed lockout starts from no failures, so the count never goes beyond the threshold
(`LockoutState`): every lockout lasts as long as the first one. Lockouts escalate in exactly
the runs that never get to a second one (`lockouts_escalate_iff`).

The lockouts begun and the failures counted since the last one are recorded beside the run
(`LoginHistory`); no operation reads them.
-/

namespace SavedOrganizer

open Transition

/-! ## Attempts on one account -/

namespace Accounts

variable (env : AccountEnv) (account : UserId) (s : Accounts)

/-- What sign-in reads and writes of the account: `is_active`, `failed_login_attempts` and
`locked_until`. -/
def signInState : Option (Bool × Nat × Option Instant) :=
  (s.users.find? account).map fun row =>
    (row.isActive, row.failedLoginAttempts, row.lockedUntil)

def locked : Bool := (s.users.find? account).any fun row => row.lockedUntil.any (s.now < ·)

/-- The action is a login that loads this account. -/
def attempts : AccountAction → Bool
  | .login email _ _ _ =>
      (s.users.rows.find? (·.normalizedEmail = normalizeEmail env email)).any (·.id == account)
  | _ => false

def signsIn (action : AccountAction) : Bool :=
  s.attempts env account action &&
    match (s.perform env action).2 with
    | .issued _ _ => true
    | _ => false

/-- A failure that counts: the account is not locked. -/
def counted (action : AccountAction) : Bool :=
  s.attempts env account action && !s.locked account

/-- The failure locks the account. -/
def locks (action : AccountAction) : Bool :=
  s.counted env account action && (s.perform env action).1.locked account

end Accounts

/-- What has happened to an account: the lockouts begun, and the failures counted since. -/
structure LoginHistory where
  lockouts : Nat
  failures : Nat
  deriving DecidableEq, Repr

namespace LoginHistory

def start : LoginHistory := ⟨0, 0⟩

def next (env : AccountEnv) (account : UserId) (s : Accounts) (action : AccountAction)
    (h : LoginHistory) : LoginHistory :=
  if s.locks env account action then ⟨h.lockouts + 1, 0⟩
  else if s.counted env account action then ⟨h.lockouts, h.failures + 1⟩
  else h

end LoginHistory

/-- The accounts, watched. -/
def watchedStep (env : AccountEnv) (account : UserId) (w : Accounts × LoginHistory)
    (action : AccountAction) : Option (Accounts × LoginHistory) :=
  (w.1.step env action).map fun s' => (s', w.2.next env account w.1 action)

/-- The seconds of the lockout that follows `before` others. -/
def escalatedDelay (before : Nat) : Nat := min (30 * 2 ^ min before 5) LOGIN_LOCK_MAX_SECONDS

/-- The step locks the account in time and for as long as it should, and an attempt on a
locked account changes nothing. -/
structure Escalates (env : AccountEnv) (account : UserId) (w : Accounts × LoginHistory)
    (action : AccountAction) (s' : Accounts) : Prop where
  inTime : w.1.counted env account action = true → LOGIN_LOCK_THRESHOLD ≤ w.2.failures + 1 →
    w.1.locks env account action = true
  delay : w.1.locks env account action = true → ∃ active failed,
    s'.signInState account =
      some (active, failed, some (w.1.now + seconds (escalatedDelay w.2.lockouts)))
  ignored : w.1.attempts env account action = true → w.1.locked account = true →
    s'.signInState account = w.1.signInState account

/-- The failure that would lock the account once more. -/
def LocksAgain (env : AccountEnv) (account : UserId) (w : Accounts × LoginHistory)
    (action : AccountAction) : Prop :=
  w.1.counted env account action = true ∧ 1 ≤ w.2.lockouts ∧
    LOGIN_LOCK_THRESHOLD ≤ w.2.failures + 1

instance (env : AccountEnv) (account : UserId) (w : Accounts × LoginHistory)
    (action : AccountAction) : Decidable (LocksAgain env account w action) :=
  inferInstanceAs (Decidable (_ ∧ _ ∧ _))

/-! ## What a call does to the account -/

section Step

variable {env : AccountEnv} {account : UserId} {s : Accounts} {action : AccountAction}

theorem find?_updateUser {userId : UserId} {f : User → User} (hKey : ∀ u, (f u).id = u.id) :
    (s.updateUser userId f hKey).users.find? account =
      (s.users.find? account).map fun row => if row.id = userId then f row else row := by
  have hUpdated := Table.find?_update s.users (fun row => decide (row.id = userId)) f hKey account
  simp only [decide_eq_true_eq] at hUpdated
  exact hUpdated

theorem signInState_updateUser {userId : UserId} {f : User → User} (hKey : ∀ u, (f u).id = u.id)
    (h : ∀ row, userId = account → ((f row).isActive, (f row).failedLoginAttempts,
      (f row).lockedUntil) = (row.isActive, row.failedLoginAttempts, row.lockedUntil)) :
    (s.updateUser userId f hKey).signInState account = s.signInState account := by
  unfold Accounts.signInState
  rw [find?_updateUser, Option.map_map]
  cases hRow : s.users.find? account with
  | none => rfl
  | some row =>
      rw [Option.map_some, Option.map_some, Function.comp_apply]
      have hId : row.id = account := Table.key_of_find? hRow
      split
      · rename_i hSelected
        rw [h row (hSelected.symm.trans hId)]
      · rfl

/-- An action that is not an attempt on the account leaves it as it is. -/
theorem signInState_of_not_attempts (h : s.attempts env account action = false) :
    (s.perform env action).1.signInState account = s.signInState account := by
  cases action with
  | tick elapsed => rfl
  | login email password rehashed createdAt =>
      unfold Accounts.attempts at h
      unfold Accounts.perform Accounts.login
      dsimp only at h ⊢
      cases hLoaded : s.users.rows.find? (·.normalizedEmail = normalizeEmail env email) with
      | none => rfl
      | some stored =>
          rw [hLoaded, Option.any_some, beq_eq_false_iff_ne] at h
          have hOther : (stored.endLockout s.now).id ≠ account := by
            rw [User.endLockout_id]
            exact h
          dsimp only
          split
          · split
            · exact signInState_updateUser _ fun _ hEq => absurd hEq hOther
            · rfl
          · exact signInState_updateUser (f := fun row => (row.endLockout s.now).signIn env rehashed)
              (fun row => row.endLockout_id s.now) fun _ hEq => absurd hEq hOther
  | resolve token =>
      unfold Accounts.perform Accounts.resolveSession
      dsimp only
      split
      · rfl
      · split
        · split <;> rfl
        · split <;> rfl
  | revoke userId sessionId =>
      unfold Accounts.perform Accounts.revokeSession
      dsimp only
      split <;> rfl
  | logout sessionId => rfl
  | changePassword userId currentPassword newHash createdAt =>
      unfold Accounts.perform Accounts.changePassword
      dsimp only
      split
      · rfl
      · split
        · exact signInState_updateUser (f := fun row => { row with passwordHash := newHash })
            (fun _ => rfl) fun _ _ => rfl
        · rfl

/-- The row an attempt loads. -/
theorem attempts_eq_true (h : s.attempts env account action = true) :
    ∃ email password rehashed createdAt stored,
      action = .login email password rehashed createdAt ∧
      s.users.rows.find? (·.normalizedEmail = normalizeEmail env email) = some stored ∧
      s.users.find? account = some stored := by
  cases action with
  | login email password rehashed createdAt =>
      obtain ⟨stored, hLoaded, hId⟩ := (Option.any_eq_true _ _).mp h
      obtain rfl : stored.id = account := by simpa using hId
      exact ⟨email, password, rehashed, createdAt, stored, rfl, hLoaded,
        Table.find?_key (List.mem_of_find?_eq_some hLoaded)⟩
  | tick => cases h
  | resolve => cases h
  | revoke => cases h
  | logout => cases h
  | changePassword => cases h

/-- A lock that is still on is not a completed lockout. -/
theorem endLockout_of_locked {row : User} {now : Instant}
    (h : row.lockedUntil.any (now < ·) = true) : row.endLockout now = row := by
  obtain ⟨lockEnd, hLock, hLater⟩ := (Option.any_eq_true _ _).mp h
  have hLater : now < lockEnd := of_decide_eq_true hLater
  unfold User.endLockout
  rw [hLock, Option.any_some, if_neg]
  simpa using hLater

/-- An attempt on a locked account changes nothing. -/
theorem perform_of_locked (hAttempt : s.attempts env account action = true)
    (hLocked : s.locked account = true) : (s.perform env action).1 = s := by
  obtain ⟨email, password, rehashed, createdAt, stored, rfl, hLoaded, hRow⟩ :=
    attempts_eq_true hAttempt
  unfold Accounts.locked at hLocked
  rw [hRow, Option.any_some] at hLocked
  unfold Accounts.perform Accounts.login
  simp only [hLoaded, endLockout_of_locked hLocked, hLocked, Bool.or_true, Bool.true_or,
    Bool.not_true, Bool.and_false, if_true, Bool.false_eq_true, if_false]

/-- A counted failure is recorded in the row. -/
theorem signInState_of_counted (hCounted : s.counted env account action = true)
    (hFails : s.signsIn env account action = false) {failed : Nat} {lockEnd : Option Instant}
    (hState : s.signInState account = some (true, failed, lockEnd)) :
    (s.perform env action).1.signInState account =
      (s.users.find? account).map fun row =>
        let after := (row.endLockout s.now).failAttempt s.now
        (after.isActive, after.failedLoginAttempts, after.lockedUntil) := by
  unfold Accounts.counted at hCounted
  rw [Bool.and_eq_true, Bool.not_eq_true'] at hCounted
  obtain ⟨hAttempt, hUnlocked⟩ := hCounted
  unfold Accounts.signsIn at hFails
  rw [hAttempt, Bool.true_and] at hFails
  obtain ⟨email, password, rehashed, createdAt, stored, rfl, hLoaded, hRow⟩ :=
    attempts_eq_true hAttempt
  unfold Accounts.locked at hUnlocked
  unfold Accounts.signInState at hState ⊢
  rw [hRow, Option.any_some] at hUnlocked
  rw [hRow, Option.map_some] at hState
  obtain ⟨hActive, -⟩ := Prod.mk.inj (Option.some.inj hState)
  have hUnlocked' : (stored.endLockout s.now).lockedUntil.any (s.now < ·) = false := by
    unfold User.endLockout
    split
    · rfl
    · exact hUnlocked
  have hId : stored.id = account := Table.key_of_find? hRow
  unfold Accounts.perform Accounts.login at hFails ⊢
  simp only [hLoaded, User.endLockout_isActive, hActive, hUnlocked', Bool.not_true,
    Bool.false_or, Bool.or_false, Bool.not_false, Bool.and_self, if_true] at hFails ⊢
  split
  · refine (congrArg (Option.map _) (find?_updateUser
      (f := fun row => (row.endLockout s.now).failAttempt s.now)
      (fun row => row.endLockout_id s.now))).trans ?_
    rw [hRow, Option.map_some, Option.map_some, Option.map_some, User.endLockout_id, if_pos rfl]
  · rename_i hValid
    rw [if_neg hValid] at hFails
    cases hFails

end Step

/-! ## The invariant -/

/-- The account is open with the recorded failures, or has been locked since the last one. -/
inductive LockoutState (account : UserId) (w : Accounts × LoginHistory) : Prop
  | counting (hState : w.1.signInState account = some (true, w.2.failures, none))
      (hFew : w.2.failures < LOGIN_LOCK_THRESHOLD)
  | lockedOut (failed : Nat) (lockEnd : Instant)
      (hState : w.1.signInState account = some (true, failed, some lockEnd))
      (hNone : w.2.failures = 0)

section Invariant

variable {env : AccountEnv} {account : UserId} {w w' : Accounts × LoginHistory}
  {action : AccountAction}

theorem signInState_eq_some {s : Accounts} {active : Bool} {failed : Nat}
    {lockEnd : Option Instant} (h : s.signInState account = some (active, failed, lockEnd)) :
    ∃ row, s.users.find? account = some row ∧ row.isActive = active ∧
      row.failedLoginAttempts = failed ∧ row.lockedUntil = lockEnd := by
  obtain ⟨row, hRow, hEq⟩ := Option.map_eq_some_iff.mp h
  obtain ⟨hActive, hRest⟩ := Prod.mk.inj hEq
  obtain ⟨hFailed, hLock⟩ := Prod.mk.inj hRest
  exact ⟨row, hRow, hActive, hFailed, hLock⟩

theorem locked_eq {s : Accounts} {active : Bool} {failed : Nat} {lockEnd : Option Instant}
    (h : s.signInState account = some (active, failed, lockEnd)) :
    s.locked account = lockEnd.any (s.now < ·) := by
  obtain ⟨row, hRow, -, -, rfl⟩ := signInState_eq_some h
  unfold Accounts.locked
  rw [hRow, Option.any_some]

/-- A login takes no time. -/
theorem now_of_attempts {s : Accounts} (h : s.attempts env account action = true)
    (hFails : s.signsIn env account action = false) : (s.perform env action).1.now = s.now := by
  obtain ⟨email, password, rehashed, createdAt, stored, rfl, hLoaded, -⟩ := attempts_eq_true h
  unfold Accounts.perform Accounts.login
  simp only [hLoaded]
  split
  · split <;> rfl
  · rfl

/-- The failure that is counted: the recorded failures go up by one, and the last one before
the threshold locks the account for thirty seconds. -/
theorem counted_failure (hInv : LockoutState account w)
    (hCounted : w.1.counted env account action = true)
    (hFails : w.1.signsIn env account action = false) :
    (w.1.perform env action).1.signInState account = some (true, w.2.failures + 1,
      if LOGIN_LOCK_THRESHOLD ≤ w.2.failures + 1 then
        some (w.1.now + seconds (escalatedDelay 0)) else none) ∧
      w.2.failures < LOGIN_LOCK_THRESHOLD := by
  have hUnlocked : w.1.locked account = false := by
    unfold Accounts.counted at hCounted
    rw [Bool.and_eq_true, Bool.not_eq_true'] at hCounted
    exact hCounted.2
  cases hInv with
  | counting hState hFew =>
      rw [signInState_of_counted hCounted hFails hState]
      obtain ⟨row, hRow, hActive, hFailed, hLock⟩ := signInState_eq_some hState
      have hOpen : row.endLockout w.1.now = row := by
        unfold User.endLockout
        rw [hLock]
        rfl
      refine ⟨?_, hFew⟩
      rw [hRow, Option.map_some, hOpen]
      unfold User.failAttempt
      dsimp only
      rw [hActive, hFailed, hLock]
      by_cases hLast : LOGIN_LOCK_THRESHOLD ≤ w.2.failures + 1
      · have hExact : w.2.failures + 1 - LOGIN_LOCK_THRESHOLD = 0 :=
          Nat.sub_eq_zero_of_le hFew
        rw [if_pos hLast, if_pos hLast, hExact]
        rfl
      · rw [if_neg hLast, if_neg hLast]
  | lockedOut failed lockEnd hState hNone =>
      rw [signInState_of_counted hCounted hFails hState]
      obtain ⟨row, hRow, hActive, hFailed, hLock⟩ := signInState_eq_some hState
      rw [locked_eq hState, Option.any_some, decide_eq_false_iff_not, not_lt] at hUnlocked
      have hOver : row.endLockout w.1.now =
          { row with failedLoginAttempts := 0, lockedUntil := none } := by
        unfold User.endLockout
        rw [hLock, Option.any_some, if_pos (decide_eq_true hUnlocked)]
      rw [hNone]
      refine ⟨?_, by decide⟩
      rw [hRow, Option.map_some, hOver]
      unfold User.failAttempt
      dsimp only
      rw [hActive]
      rfl

theorem locks_iff (hInv : LockoutState account w)
    (hCounted : w.1.counted env account action = true)
    (hFails : w.1.signsIn env account action = false) :
    w.1.locks env account action = true ↔ LOGIN_LOCK_THRESHOLD ≤ w.2.failures + 1 := by
  have hAttempt : w.1.attempts env account action = true := by
    unfold Accounts.counted at hCounted
    rw [Bool.and_eq_true] at hCounted
    exact hCounted.1
  unfold Accounts.locks
  rw [hCounted, Bool.true_and, locked_eq (counted_failure hInv hCounted hFails).1,
    now_of_attempts hAttempt hFails]
  by_cases hLast : LOGIN_LOCK_THRESHOLD ≤ w.2.failures + 1
  · have hLater : w.1.now < w.1.now + seconds (escalatedDelay 0) :=
      Nat.lt_add_of_pos_right (by decide)
    rw [if_pos hLast, Option.any_some, decide_eq_true hLater]
    exact iff_of_true rfl hLast
  · rw [if_neg hLast]
    exact iff_of_false Bool.false_ne_true hLast

/-- What is not a counted failure changes neither the account nor its history. -/
theorem not_counted (hCounted : w.1.counted env account action = false) :
    (w.1.perform env action).1.signInState account = w.1.signInState account ∧
      w.2.next env account w.1 action = w.2 := by
  constructor
  · unfold Accounts.counted at hCounted
    cases hAttempt : w.1.attempts env account action with
    | false => exact signInState_of_not_attempts hAttempt
    | true =>
        rw [hAttempt, Bool.true_and, Bool.not_eq_false'] at hCounted
        rw [perform_of_locked hAttempt hCounted]
  · have hLocks : w.1.locks env account action = false := by
      unfold Accounts.locks
      rw [hCounted, Bool.false_and]
    simp only [LoginHistory.next, hLocks, hCounted, Bool.false_eq_true, if_false]

theorem lockoutState_step (hInv : LockoutState account w)
    (hFails : w.1.signsIn env account action = false)
    (h : watchedStep env account w action = some w') : LockoutState account w' := by
  obtain rfl := Option.some.inj h
  cases hCounted : w.1.counted env account action with
  | false =>
      obtain ⟨hState, hHistory⟩ := not_counted hCounted
      cases hInv with
      | counting hBefore hFew =>
          refine .counting ?_ ?_
          · dsimp only
            rw [hState, hHistory, hBefore]
          · dsimp only
            rw [hHistory]
            exact hFew
      | lockedOut failed lockEnd hBefore hNone =>
          refine .lockedOut failed lockEnd ?_ ?_
          · dsimp only
            rw [hState, hBefore]
          · dsimp only
            rw [hHistory]
            exact hNone
  | true =>
      obtain ⟨hState, hFew⟩ := counted_failure hInv hCounted hFails
      have hLocks := locks_iff hInv hCounted hFails
      by_cases hLast : LOGIN_LOCK_THRESHOLD ≤ w.2.failures + 1
      · rw [if_pos hLast] at hState
        refine .lockedOut _ _ hState ?_
        simp only [LoginHistory.next, hLocks.mpr hLast, if_true]
      · rw [if_neg hLast] at hState
        have hHistory : w.2.next env account w.1 action =
            ⟨w.2.lockouts, w.2.failures + 1⟩ := by
          have hOpen : w.1.locks env account action = false := by
            rw [← Bool.not_eq_true, hLocks]
            exact hLast
          simp only [LoginHistory.next, hOpen, hCounted, Bool.false_eq_true, if_false, if_true]
        refine .counting ?_ ?_
        · dsimp only
          rw [hState, hHistory]
        · dsimp only
          rw [hHistory]
          exact Nat.lt_of_not_le hLast

/-- The first lockout is shorter than any later one should be. -/
theorem escalatedDelay_lt {before : Nat} (h : 1 ≤ before) :
    escalatedDelay 0 < escalatedDelay before := by
  have hPow : 2 ^ 1 ≤ 2 ^ min before 5 :=
    Nat.pow_le_pow_right (by decide) (Nat.le_min.mpr ⟨h, by decide⟩)
  have hFirst : escalatedDelay 0 = 30 := rfl
  rw [hFirst]
  unfold escalatedDelay LOGIN_LOCK_MAX_SECONDS
  omega

/-- One step escalates exactly when it does not start a further lockout. -/
theorem escalates_iff (hInv : LockoutState account w)
    (hFails : w.1.signsIn env account action = false) :
    Escalates env account w action (w.1.perform env action).1 ↔
      ¬ LocksAgain env account w action := by
  constructor
  · rintro ⟨hInTime, hDelay, -⟩ ⟨hCounted, hAgain, hLast⟩
    obtain ⟨active, failed, hState⟩ := hDelay (hInTime hCounted hLast)
    rw [(counted_failure hInv hCounted hFails).1, if_pos hLast] at hState
    simp only [Option.some.injEq, Prod.mk.injEq, Nat.add_left_cancel_iff] at hState
    obtain ⟨-, -, hSame⟩ := hState
    exact Nat.ne_of_lt (escalatedDelay_lt hAgain)
      (Nat.eq_of_mul_eq_mul_right (by decide) hSame)
  · intro hFirst
    refine ⟨?_, ?_, ?_⟩
    · intro hCounted hLast
      exact (locks_iff hInv hCounted hFails).mpr hLast
    · intro hLocks
      have hCounted : w.1.counted env account action = true := by
        unfold Accounts.locks at hLocks
        rw [Bool.and_eq_true] at hLocks
        exact hLocks.1
      have hLast := (locks_iff hInv hCounted hFails).mp hLocks
      have hNone : w.2.lockouts = 0 := by
        by_contra hSome
        exact hFirst ⟨hCounted, Nat.one_le_iff_ne_zero.mpr hSome, hLast⟩
      refine ⟨true, w.2.failures + 1, ?_⟩
      rw [(counted_failure hInv hCounted hFails).1, if_pos hLast, hNone]
    · intro hAttempt hLocked
      rw [perform_of_locked hAttempt hLocked]

end Invariant

/-! ## Runs -/

/-- In a run of failing attempts on an account that starts with none, every lockout starts in
time and lasts as long as its place in the sequence says, exactly when no attempt gets to a
second one. -/
theorem lockouts_escalate_iff (env : AccountEnv) (account : UserId) (s : Accounts)
    (hStart : s.signInState account = some (true, 0, none)) (actions : List AccountAction)
    (hFailing : ∀ w a w', StepOf (watchedStep env account) (s, LoginHistory.start) actions w a w' →
      w.1.signsIn env account a = false) :
    (∀ w a w', StepOf (watchedStep env account) (s, LoginHistory.start) actions w a w' →
      Escalates env account w a w'.1) ↔
    ∀ w a w', StepOf (watchedStep env account) (s, LoginHistory.start) actions w a w' →
      ¬ LocksAgain env account w a := by
  have hInv : LockoutState account (s, LoginHistory.start) :=
    .counting hStart (Nat.succ_pos 4)
  have hStep : ∀ w a w', StepOf (watchedStep env account) (s, LoginHistory.start) actions w a w' →
      (Escalates env account w a w'.1 ↔ ¬ LocksAgain env account w a) := by
    intro w a w' h
    have hBefore : LockoutState account w := visits_induct hInv h.before
      fun x b y hx hIx => lockoutState_step hIx (hFailing x b y hx) hx.step
    obtain rfl := Option.some.inj h.step
    exact escalates_iff hBefore (hFailing w a _ h)
  constructor
  · intro hAll w a w' h
    exact (hStep w a w' h).mp (hAll w a w' h)
  · intro hAll w a w' h
    exact (hStep w a w' h).mpr (hAll w a w' h)

/-! ### Ten wrong passwords -/

def wrongPassword : AccountAction := .login "ada".toList "guess" "" 0

/-- Five wrong passwords, the lockout, and five more. -/
def guesses : List AccountAction :=
  List.replicate 5 wrongPassword ++ .tick (seconds 30) :: List.replicate 5 wrongPassword

/-- The watched accounts after the actions. -/
def watchedAfter (actions : List AccountAction) : Accounts × LoginHistory :=
  (run (watchedStep demoAccountEnv 1) (demoAccounts, LoginHistory.start) actions).getD
    (demoAccounts, LoginHistory.start)

/-- A run with one lockout, an attempt during it and two after it. -/
theorem lockouts_escalate_once :
    (run (watchedStep demoAccountEnv 1) (demoAccounts, LoginHistory.start)
      (wrongPassword :: guesses.take 8)).isSome = true ∧
    ∀ w a w', StepOf (watchedStep demoAccountEnv 1) (demoAccounts, LoginHistory.start)
      (wrongPassword :: guesses.take 8) w a w' → Escalates demoAccountEnv 1 w a w'.1 := by
  refine ⟨by decide +kernel, (lockouts_escalate_iff demoAccountEnv 1 demoAccounts (by decide)
    (wrongPassword :: guesses.take 8) ?_).mpr ?_⟩
  · intro w a w' h
    have hFails := of_everyStep (p := fun w a => !w.1.signsIn demoAccountEnv 1 a)
      (by decide +kernel) h
    rwa [Bool.not_eq_true'] at hFails
  · intro w a w' h
    exact of_decide_eq_true (of_everyStep (p := fun w a => decide ¬ LocksAgain demoAccountEnv 1 w a)
      (by decide +kernel) h)

/-- The second lockout lasts thirty seconds, like the first, and not sixty. -/
theorem second_lockout_is_short :
    (∀ w a w', StepOf (watchedStep demoAccountEnv 1) (demoAccounts, LoginHistory.start)
      guesses w a w' → w.1.signsIn demoAccountEnv 1 a = false) ∧
    ¬ ∀ w a w', StepOf (watchedStep demoAccountEnv 1) (demoAccounts, LoginHistory.start)
      guesses w a w' → Escalates demoAccountEnv 1 w a w'.1 := by
  constructor
  · intro w a w' h
    have hFails := of_everyStep (p := fun w a => !w.1.signsIn demoAccountEnv 1 a)
      (by decide +kernel) h
    rwa [Bool.not_eq_true'] at hFails
  · intro hAll
    have hFront : run (watchedStep demoAccountEnv 1) (demoAccounts, LoginHistory.start)
        (guesses.take 10) = some (watchedAfter (guesses.take 10)) := run_getD (by decide +kernel)
    have hLast : run (watchedStep demoAccountEnv 1) (watchedAfter (guesses.take 10))
        [wrongPassword] = some (watchedAfter (guesses.take 10 ++ [wrongPassword])) :=
      run_getD_append (by decide +kernel)
    obtain ⟨w, hStep, hEnd⟩ := run_cons.mp hLast
    obtain rfl := Option.some.inj hEnd
    obtain ⟨active, failed, hState⟩ :=
      (hAll _ _ _ ⟨_, [], rfl, hFront, hStep⟩).delay (by decide +kernel)
    have hShort : (watchedAfter (guesses.take 10 ++ [wrongPassword])).1.signInState 1 =
        some (true, 5, some (seconds 30 + seconds 30)) := by decide +kernel
    have hLong : (watchedAfter (guesses.take 10)).1.now +
        seconds (escalatedDelay (watchedAfter (guesses.take 10)).2.lockouts) =
        seconds 30 + seconds 60 := by decide +kernel
    rw [hShort, hLong] at hState
    simp [seconds] at hState

end SavedOrganizer
