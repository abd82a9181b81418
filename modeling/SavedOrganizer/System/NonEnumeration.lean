import SavedOrganizer.System.SiteInvariant

/-!
# What sign-in and registration tell about accounts

Somebody who is not signed in asks for sessions and registers accounts, with any emails and passwords,
as often as the quotas let it. Two sites are run side by side, whose clocks and quota counters agree,
and whose accounts may be entirely different. `answers_agree`: unless a sign-in succeeds, the answers
are the same. A registration of a taken email is answered like a new one, and a sign-in to an unknown,
a locked or an inactive account like one with a wrong password.
-/

namespace SavedOrganizer

open Transition

/-- What somebody may try without an account. -/
inductive Tries : SiteAction → Prop
  | waits (elapsed : Nat) : Tries (.tick elapsed)
  | signsIn (email : Text) (password rehashed : String) (createdAt : Instant) (head : RequestHead) :
      Tries (.request (.anyone (.createSession email password rehashed createdAt)) head)
  | registers (email displayName : Text) (passwordHash : String) (createdAt : Instant)
      (head : RequestHead) :
      Tries (.request (.anyone (.registerAccount email displayName passwordHash createdAt)) head)

/-- The answers of a run. -/
def answers (env : ApiEnv) : Site → List SiteAction → List ApiAnswer
  | _, [] => []
  | s, action :: actions =>
      (s.answer env action).toList ++ answers env ((s.step env action).getD s) actions

/-- The answer opens no session. -/
def ApiAnswer.refuses (answer : ApiAnswer) : Prop := answer.cookies = .keep

/-- What does not depend on the accounts agrees. -/
structure SameOutside (s t : Site) : Prop where
  now : s.accounts.now = t.accounts.now
  buckets : s.buckets = t.buckets

section Probe

variable {env : ApiEnv} {s t : Site}

/-- Two sites answer alike and go on alike. -/
def Alike (x y : Site × ApiAnswer) : Prop :=
  (x.2.refuses → y.2.refuses → x.2 = y.2) ∧ SameOutside x.1 y.1

/-- Where a route refuses, it has one answer, and it leaves what is outside the accounts. -/
def Discreet (route : Site → Site × ApiAnswer) (answer : ApiAnswer) : Prop :=
  ∀ u, SameOutside (route u).1 u ∧ ((route u).2.refuses → (route u).2 = answer)

theorem Discreet.alike {route : Site → Site × ApiAnswer} {answer : ApiAnswer}
    (hRoute : Discreet route answer) (h : SameOutside s t) : Alike (route s) (route t) := by
  obtain ⟨hS, hOnlyS⟩ := hRoute s
  obtain ⟨hT, hOnlyT⟩ := hRoute t
  exact ⟨fun hRefuses hRefuses' => (hOnlyS hRefuses).trans (hOnlyT hRefuses').symm,
    hS.now.trans (h.now.trans hT.now.symm), hS.buckets.trans (h.buckets.trans hT.buckets.symm)⟩

theorem alike_limited {checks : List RateLimitCheck} {route : Site → Site × ApiAnswer}
    {answer : ApiAnswer} (hRoute : Discreet route answer) (h : SameOutside s t) :
    Alike (limited env s checks route) (limited env t checks route) := by
  unfold limited enforceRateLimits
  rw [h.now, h.buckets]
  cases DatabaseRateLimiter.consume env.subjectHash t.accounts.now checks t.buckets with
  | mk buckets result =>
      cases result with
      | accepted => exact hRoute.alike ⟨h.now, rfl⟩
      | exceeded retryAfter => exact ⟨fun _ _ => rfl, h.now, rfl⟩
      | invalid message => exact ⟨fun _ _ => rfl, h.now, rfl⟩

theorem alike_admitted {head : RequestHead} {checks : List RateLimitCheck}
    {route : Site → Site × ApiAnswer} {answer : ApiAnswer} (hRoute : Discreet route answer)
    (h : SameOutside s t) :
    Alike (admitted env head s checks route) (admitted env head t checks route) := by
  unfold admitted
  split
  · exact ⟨fun _ _ => rfl, h⟩
  · exact alike_limited hRoute h

theorem login_now (email : Text) (password rehashed : String) (createdAt : Instant) :
    (s.accounts.login env.accounts email password rehashed createdAt).1.now = s.accounts.now := by
  rcases login_cases env.accounts s.accounts email password rehashed createdAt with
    ⟨-, hNow, -⟩ | ⟨_, -, hNow, -⟩
  · exact hNow
  · exact hNow

theorem alike_createSession (h : SameOutside s t) (head : RequestHead) (email : Text)
    (password rehashed : String) (createdAt : Instant) :
    Alike (createSession env head s email password rehashed createdAt)
      (createSession env head t email password rehashed createdAt) := by
  unfold createSession
  refine @alike_admitted env s t head _ _ (.error .invalidCredentials) (fun u => ?_) h
  have hNow := @login_now env u email password rehashed createdAt
  cases hLogin : u.accounts.login env.accounts email password rehashed createdAt with
  | mk accounts outcome =>
      rw [hLogin] at hNow
      cases outcome with
      | issued token session => exact ⟨⟨hNow, rfl⟩, fun hRefuses => by cases hRefuses⟩
      | _ => exact ⟨⟨hNow, rfl⟩, fun _ => rfl⟩

theorem register_outside (email displayName : Text) (passwordHash : String) (createdAt : Instant) :
    SameOutside ((register env s email displayName passwordHash createdAt).getD s) s := by
  cases hNew : register env s email displayName passwordHash createdAt with
  | none => exact ⟨rfl, rfl⟩
  | some u =>
      refine ⟨(register_eq_some hNew).now, ?_⟩
      unfold register at hNew
      dsimp only at hNew
      split at hNew
      · cases hNew
      · obtain ⟨users, -, rfl⟩ := Option.map_eq_some_iff.mp hNew
        rfl

theorem alike_registerAccount (h : SameOutside s t) (head : RequestHead) (email displayName : Text)
    (passwordHash : String) (createdAt : Instant) :
    Alike (registerAccount env head s email displayName passwordHash createdAt)
      (registerAccount env head t email displayName passwordHash createdAt) := by
  unfold registerAccount
  by_cases hAllowed : env.allowRegistration = true
  · simp only [hAllowed, if_true]
    exact alike_admitted (fun u => ⟨register_outside email displayName passwordHash createdAt,
      fun _ => rfl⟩) h
  · simp only [hAllowed]
    exact alike_admitted (fun u => ⟨⟨rfl, rfl⟩, fun _ => rfl⟩) h

/-- One action on both sites. -/
theorem alike_step {action : SiteAction} (hTries : Tries action) (h : SameOutside s t) :
    SameOutside ((s.step env action).getD s) ((t.step env action).getD t) ∧
      ((∀ answer ∈ s.answer env action, answer.refuses) →
        (∀ answer ∈ t.answer env action, answer.refuses) →
          s.answer env action = t.answer env action) := by
  cases hTries with
  | waits elapsed => exact ⟨⟨congrArg (· + elapsed) h.now, h.buckets⟩, fun _ _ => rfl⟩
  | signsIn email password rehashed createdAt head =>
      obtain ⟨hAnswer, hNext⟩ := @alike_createSession env s t h head email password rehashed createdAt
      exact ⟨hNext, fun hS hT => congrArg some (hAnswer (hS _ rfl) (hT _ rfl))⟩
  | registers email displayName passwordHash createdAt head =>
      obtain ⟨hAnswer, hNext⟩ :=
        @alike_registerAccount env s t h head email displayName passwordHash createdAt
      exact ⟨hNext, fun hS hT => congrArg some (hAnswer (hS _ rfl) (hT _ rfl))⟩

/-- Whoever has no session learns nothing of the accounts but that a sign-in succeeds. -/
theorem answers_agree (env : ApiEnv) {s t : Site} {actions : List SiteAction}
    (hSame : SameOutside s t) (hTries : ∀ action ∈ actions, Tries action)
    (hS : ∀ answer ∈ answers env s actions, answer.refuses)
    (hT : ∀ answer ∈ answers env t actions, answer.refuses) :
    answers env s actions = answers env t actions := by
  induction actions generalizing s t with
  | nil => rfl
  | cons action actions ih =>
      obtain ⟨hTry, hRest⟩ := List.forall_mem_cons.mp hTries
      obtain ⟨hNext, hAnswer⟩ := @alike_step env s t action hTry hSame
      rw [answers, List.forall_mem_append] at hS hT
      simp only [Option.mem_toList] at hS hT
      rw [answers, answers, hAnswer hS.1 hT.1, ih hNext hRest hS.2 hT.2]

/-- A guess at Ada's password, and a registration with her email. -/
def triesAda : List SiteAction := [logsIn "ada" "guess", registers "ada" "mine"]

theorem triesAda_tries : ∀ action ∈ triesAda, Tries action := by
  intro action hAction
  rcases List.mem_pair.mp hAction with rfl | rfl
  · exact .signsIn _ _ _ _ _
  · exact .registers _ _ _ _ _

/-- A site that knows Ada answers them like one that does not. -/
theorem answers_agree_guess : answers demoApi (siteAfter [registers "ada" "secret"]) triesAda =
    answers demoApi (siteAfter [registers "eve" "secret"]) triesAda := by
  have hRefuses (email : String) (h : ((answers demoApi (siteAfter [registers email "secret"])
      triesAda).all fun answer => answer.cookies == .keep) = true) :
      ∀ answer ∈ answers demoApi (siteAfter [registers email "secret"]) triesAda, answer.refuses :=
    fun answer hAnswer => beq_iff_eq.mp (List.all_eq_true.mp h answer hAnswer)
  exact answers_agree demoApi ⟨rfl, rfl⟩ triesAda_tries (hRefuses "ada" (by decide +kernel))
    (hRefuses "eve" (by decide +kernel))

end Probe

end SavedOrganizer
