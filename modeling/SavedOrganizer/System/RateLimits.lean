import SavedOrganizer.Library.Transition
import SavedOrganizer.Abuse
import Mathlib.Order.Bounds.Basic

/-!
# Runs of the rate limiter

Calls of any number of processes, each in its own transaction, at times that do not go back.
The calls are recorded with their answers; no step reads the record.

A window of a rule is an interval of whole windows since 1970. As long as rounding to a double
does not move a call into another window (`Exact`), the bucket of an unfinished window has
counted every accepted call of that window, which is what bounds their number.
-/

namespace SavedOrganizer

open Transition DatabaseRateLimiter

/-- A call that has been answered. -/
structure AnsweredCall where
  now : Instant
  checks : List RateLimitCheck
  answer : DatabaseRateLimiter.Answer

structure LimiterState where
  now : Instant
  buckets : Buckets
  answered : List AnsweredCall

inductive LimiterCall
  | consume (now : Instant) (checks : List RateLimitCheck)
  | prune (now : Instant)

namespace LimiterCall

def now : LimiterCall → Instant
  | consume now _ => now
  | prune now => now

def checks : LimiterCall → List RateLimitCheck
  | consume _ checks => checks
  | prune _ => []

end LimiterCall

namespace LimiterState

def step (subjectHash : String → String → String) (s : LimiterState) (call : LimiterCall) :
    Option LimiterState :=
  if call.now < s.now then none
  else match call with
    | .consume now checks =>
        let (buckets, answer) := consume subjectHash now checks s.buckets
        some ⟨now, buckets, s.answered ++ [⟨now, checks, answer⟩]⟩
    | .prune now => some ⟨now, (prune now s.buckets).1, s.answered⟩

/-- Nothing has been counted. -/
def Initial (s : LimiterState) : Prop := s.buckets = Table.empty ∧ s.answered = []

end LimiterState

/-! ## Windows -/

namespace RateLimitRule

/-- The number of the window an instant lies in. -/
def windowAt (rule : RateLimitRule) (now : Instant) : Nat := now / seconds rule.window

/-- The key of a subject's bucket for one window. -/
def bucketOf (subjectHash : String → String → String) (rule : RateLimitRule) (subject : String)
    (window : Nat) : BucketKey :=
  (rule.scope, subjectHash rule.scope subject, window * seconds rule.window)

end RateLimitRule

/-- The bucket of a check in the window an instant lies in. -/
def RateLimitCheck.bucket (subjectHash : String → String → String) (now : Instant)
    (check : RateLimitCheck) : BucketKey :=
  check.rule.bucketOf subjectHash check.subject (check.rule.windowAt now)

/-- The call has been accepted, in this window, with a check of this scope and subject. -/
def AnsweredCall.counts (rule : RateLimitRule) (subject : String) (window : Nat)
    (call : AnsweredCall) : Bool :=
  call.answer = .accepted && rule.windowAt call.now == window &&
    call.checks.any (fun c => c.rule.scope == rule.scope && c.subject == subject)

def LimiterState.accepted (s : LimiterState) (rule : RateLimitRule) (subject : String)
    (window : Nat) : Nat :=
  s.answered.countP (AnsweredCall.counts rule subject window)

/-- One fixed rule per scope. -/
def OneRulePerScope (rules : String → RateLimitRule) (calls : List LimiterCall) : Prop :=
  ∀ call ∈ calls, ∀ c ∈ call.checks, c.rule = rules c.rule.scope

/-- No other check has this one's hash. -/
def Unshared (subjectHash : String → String → String) (checks : List RateLimitCheck)
    (check : RateLimitCheck) : Prop :=
  ∀ c ∈ checks, c.rule.scope = check.rule.scope →
    subjectHash c.rule.scope c.subject = subjectHash check.rule.scope check.subject →
    c.subject = check.subject

/-- What the limits promise of a run from `start` to `s`. -/
structure RateLimitsHold (subjectHash : String → String → String) (rules : String → RateLimitRule)
    (start : LimiterState) (calls : List LimiterCall) (s : LimiterState) : Prop where
  accepted_le : ∀ rule, rules rule.scope = rule → ∀ subject window,
    s.accepted rule subject window ≤ rule.limit
  hitCount_le : ∀ b ∈ s.buckets, b.hitCount ≤ (rules b.scope).limit + 1
  unfinished_kept : ∀ u call v, StepOf (LimiterState.step subjectHash) start calls u call v →
    ∀ b ∈ u.buckets, call.now < b.windowStartedAt + seconds (rules b.scope).window →
    (v.buckets.find? (Keyed.key b)).isSome
  rejected : ∀ u now checks v retryAfter,
    StepOf (LimiterState.step subjectHash) start calls u (.consume now checks) v →
    (consume subjectHash now checks u.buckets).2 = .exceeded retryAfter →
    ∃ front check back, uniqueChecks checks = .ok (front ++ check :: back) ∧
      (∀ earlier ∈ front, Unshared subjectHash (front ++ [check]) earlier →
        hits v.buckets (earlier.bucket subjectHash now) ≤ earlier.rule.limit) ∧
      check.rule.limit < hits v.buckets (check.bucket subjectHash now) ∧
      IsLeast {r | 0 < r ∧
        (check.rule.windowAt now + 1) * seconds check.rule.window ≤ now + seconds r} retryAfter ∧
      ∀ later ∈ back, Unshared subjectHash (front ++ [check]) later →
        v.buckets.find? (later.bucket subjectHash now) =
          u.buckets.find? (later.bucket subjectHash now)

/-! ## Rounding that stays in the window -/

/-- Rounding to a double moves neither the instant to another window of the rule nor the
remaining time to another number of seconds. -/
structure Exact (rule : RateLimitRule) (now : Instant) : Prop where
  window : (timestamp now).trunc / rule.window = rule.windowAt now
  remaining : (totalSeconds (windowEnd now rule - now)).ceil =
    (windowEnd now rule - now + 999999) / 1000000

section Exact

variable {rule : RateLimitRule} {now : Instant}

theorem seconds_mul (m n : Nat) : seconds (m * n) = m * seconds n := Nat.mul_assoc _ _ _

theorem RateLimitRule.window_seconds_pos (rule : RateLimitRule) : 0 < seconds rule.window :=
  seconds_pos rule.window_positive

theorem RateLimitRule.lt_windowAt_succ (rule : RateLimitRule) (now : Instant) :
    now < (rule.windowAt now + 1) * seconds rule.window := by
  have hLt := Nat.lt_div_mul_add rule.window_seconds_pos (a := now)
  rw [Nat.add_mul, Nat.one_mul]
  exact hLt

theorem Exact.windowStart_eq (h : Exact rule now) :
    windowStart now rule = rule.windowAt now * seconds rule.window := by
  rw [windowStart, h.window, seconds_mul]

theorem Exact.windowEnd_eq (h : Exact rule now) :
    windowEnd now rule = (rule.windowAt now + 1) * seconds rule.window := by
  rw [windowEnd, h.windowStart_eq, Nat.add_mul, Nat.one_mul]

/-- Before the year 2514, and for windows shorter than that. -/
theorem exact_of_lt (hNow : now < seconds (2 ^ 34)) (hWindow : rule.window < 2 ^ 34) :
    Exact rule now := by
  have hTrunc : (timestamp now).trunc = now / 1000000 := by
    refine Rounding.trunc_divide (by decide) ?_
    have hScale : 53 - 34 ≤ Rounding.scale now 1000000 :=
      Rounding.scale_ge (by decide) (by decide) hNow
    calc 1000000 < 2 * 2 ^ 19 := by decide
      _ ≤ 2 * 2 ^ Rounding.scale now 1000000 :=
          Nat.mul_le_mul_left 2 (Nat.pow_le_pow_right (by decide) hScale)
  have hStart : (timestamp now).trunc / rule.window = rule.windowAt now := by
    rw [hTrunc, Nat.div_div_eq_div_mul, Nat.mul_comm]
    rfl
  refine ⟨hStart, ?_⟩
  refine Rounding.ceil_divide (by decide) ?_
  have hSpan : windowEnd now rule - now < 2 ^ 34 * 1000000 := by
    have hLow : windowStart now rule ≤ now := by
      rw [windowStart, hStart, seconds_mul]
      exact Nat.div_mul_le_self _ _
    have hWide : seconds rule.window < 2 ^ 34 * 1000000 :=
      Nat.mul_lt_mul_of_pos_right hWindow (by decide)
    refine Nat.lt_of_le_of_lt (Nat.sub_le_of_le_add ?_) hWide
    rw [windowEnd, Nat.add_comm]
    exact Nat.add_le_add_left hLow _
  have hScale : 53 - 34 ≤ Rounding.scale (windowEnd now rule - now) 1000000 :=
    Rounding.scale_ge (by decide) (by decide) hSpan
  calc 1000000 < 2 * 2 ^ 19 := by decide
    _ ≤ 2 * 2 ^ Rounding.scale (windowEnd now rule - now) 1000000 :=
        Nat.mul_le_mul_left 2 (Nat.pow_le_pow_right (by decide) hScale)

theorem Exact.bucketKey_eq {subjectHash : String → String → String} {check : RateLimitCheck}
    (h : Exact check.rule now) :
    bucketKey subjectHash now check = check.bucket subjectHash now := by
  unfold bucketKey RateLimitCheck.bucket RateLimitRule.bucketOf
  rw [h.windowStart_eq]

/-- The answer to a blocked check: the whole seconds until its window ends. -/
theorem Exact.isLeast (h : Exact rule now) :
    IsLeast {r | 0 < r ∧ (rule.windowAt now + 1) * seconds rule.window ≤ now + seconds r}
      (totalSeconds (windowEnd now rule - now)).ceil := by
  have hLt := rule.lt_windowAt_succ now
  rw [h.remaining, h.windowEnd_eq]
  generalize (rule.windowAt now + 1) * seconds rule.window = stop at hLt
  unfold seconds
  constructor
  · constructor
    · exact Nat.div_pos (Nat.add_le_add_right (Nat.sub_pos_of_lt hLt) 999999) (by decide)
    · have hSpan : stop = now + (stop - now) := (Nat.add_sub_cancel' (Nat.le_of_lt hLt)).symm
      rw [hSpan]
      generalize stop - now = span
      refine Nat.add_le_add_left ?_ now
      rw [Nat.add_sub_cancel_left]
      omega
  · rintro r ⟨-, hr⟩
    have hSpan : stop - now ≤ r * 1000000 := Nat.sub_le_of_le_add (by rwa [Nat.add_comm])
    generalize stop - now = span at hSpan ⊢
    omega

end Exact

/-! ## The buckets -/

/-- The rule of a bucket's scope fixes its expiry and bounds its count. -/
def BucketsOk (rules : String → RateLimitRule) (buckets : Buckets) : Prop :=
  ∀ b ∈ buckets, b.expiresAt = b.windowStartedAt + seconds (rules b.scope).window ∧
    b.hitCount ≤ (rules b.scope).limit + 1

section Buckets

variable {subjectHash : String → String → String} {rules : String → RateLimitRule}
  {now : Instant} {buckets buckets' : Buckets} {key : BucketKey}

theorem BucketsOk.hits_le (h : BucketsOk rules buckets) (key : BucketKey) :
    hits buckets key ≤ (rules key.1).limit + 1 := by
  unfold hits
  cases hRow : buckets.find? key with
  | none => exact Nat.zero_le _
  | some b =>
      rw [← (Table.key_of_find? hRow : (b.scope, b.subjectHash, b.windowStartedAt) = key)]
      exact (h b (Table.mem_of_find? hRow)).2

theorem BucketsOk.prune (h : BucketsOk rules buckets) : BucketsOk rules (prune now buckets).1 :=
  fun b hb => h b (mem_prune.mp hb).1

theorem BucketsOk.increment {check : RateLimitCheck} (h : BucketsOk rules buckets)
    (hRule : check.rule = rules check.rule.scope) :
    BucketsOk rules (increment subjectHash now check buckets).1 := by
  intro b hb
  rcases mem_increment hb with ⟨hScope, hStart, hEnd, hCount⟩ | hOld
  · rw [hScope, ← hRule, hStart, hEnd, hCount, increment_count]
    refine ⟨rfl, capped_le ?_⟩
    have hLe := h.hits_le (bucketKey subjectHash now check)
    rwa [show (bucketKey subjectHash now check).1 = check.rule.scope from rfl, ← hRule] at hLe
  · exact h b hOld

theorem BucketsOk.incrementAll {checks : List RateLimitCheck} (h : BucketsOk rules buckets)
    (hRules : ∀ c ∈ checks, c.rule = rules c.rule.scope) :
    BucketsOk rules (incrementAll subjectHash now checks buckets) := by
  induction checks generalizing buckets with
  | nil => exact h
  | cons check checks ih =>
      exact ih (h.increment (hRules check List.mem_cons_self))
        (fun c hc => hRules c (List.mem_cons_of_mem _ hc))

/-- The prune leaves the bucket of an unfinished window. -/
theorem BucketsOk.find?_prune (h : BucketsOk rules buckets)
    (hOpen : now < key.2.2 + seconds (rules key.1).window) :
    (DatabaseRateLimiter.prune now buckets).1.find? key = buckets.find? key := by
  rw [DatabaseRateLimiter.find?_prune]
  cases hRow : buckets.find? key with
  | none => rfl
  | some b =>
      obtain ⟨hMem, rfl⟩ := Table.find?_eq_some.mp hRow
      have hLater : ¬ b.expiresAt ≤ now := by
        rw [(h b hMem).1]
        exact Nat.not_le.mpr hOpen
      exact Option.filter_some_pos (by simpa using hLater)

theorem BucketsOk.hits_prune (h : BucketsOk rules buckets)
    (hOpen : now < key.2.2 + seconds (rules key.1).window) :
    hits (DatabaseRateLimiter.prune now buckets).1 key = hits buckets key := by
  unfold hits
  rw [h.find?_prune hOpen]

variable {checks : List RateLimitCheck} {answer : DatabaseRateLimiter.Answer}

theorem BucketsOk.consumed (h : BucketsOk rules buckets)
    (hRules : ∀ c ∈ checks, c.rule = rules c.rule.scope)
    (hCall : Consumed subjectHash now checks buckets buckets' answer) :
    BucketsOk rules buckets' := by
  cases hCall with
  | invalid message => exact h
  | nothing hEmpty => exact h
  | accepted unique hUnique hWithin =>
      exact h.prune.incrementAll fun c hc => hRules c ((mem_uniqueChecks hUnique).mp hc)
  | exceeded front check back hUnique hWithin hBlocked =>
      refine h.prune.incrementAll fun c hc => hRules c ((mem_uniqueChecks hUnique).mp ?_)
      rcases List.mem_append.mp hc with hc | hc
      · exact List.mem_append_left _ hc
      · obtain rfl := List.mem_singleton.mp hc
        exact List.mem_append_right _ List.mem_cons_self

theorem BucketsOk.hits_consumed (h : BucketsOk rules buckets)
    (hCall : Consumed subjectHash now checks buckets buckets' answer)
    (hOpen : now < key.2.2 + seconds (rules key.1).window) :
    hits buckets key ≤ hits buckets' key := by
  cases hCall with
  | invalid message => exact Nat.le_refl _
  | nothing hEmpty => exact Nat.le_refl _
  | accepted unique hUnique hWithin =>
      rw [← h.hits_prune hOpen]
      exact hits_le_incrementAll _ _ _ _ _
  | exceeded front check back hUnique hWithin hBlocked =>
      rw [← h.hits_prune hOpen]
      exact hits_le_incrementAll _ _ _ _ _

theorem BucketsOk.kept_consumed (h : BucketsOk rules buckets)
    (hCall : Consumed subjectHash now checks buckets buckets' answer)
    (hOpen : now < key.2.2 + seconds (rules key.1).window) (hRow : (buckets.find? key).isSome) :
    (buckets'.find? key).isSome := by
  cases hCall with
  | invalid message => exact hRow
  | nothing hEmpty => exact hRow
  | accepted unique hUnique hWithin =>
      exact isSome_incrementAll (by rwa [h.find?_prune hOpen])
  | exceeded front check back hUnique hWithin hBlocked =>
      exact isSome_incrementAll (by rwa [h.find?_prune hOpen])

end Buckets

/-! ## The accepted calls of a window -/

section Accepted

variable {subjectHash : String → String → String} {rules : String → RateLimitRule}

theorem counts_eq_true {rule : RateLimitRule} {subject : String} {window : Nat}
    {call : AnsweredCall} :
    call.counts rule subject window = true ↔ call.answer = .accepted ∧
      rule.windowAt call.now = window ∧
      ∃ c ∈ call.checks, c.rule.scope = rule.scope ∧ c.subject = subject := by
  unfold AnsweredCall.counts
  simp [and_assoc]

theorem accepted_append (s : LimiterState) (call : AnsweredCall) (now : Instant)
    (buckets : Buckets) (rule : RateLimitRule) (subject : String) (window : Nat) :
    LimiterState.accepted ⟨now, buckets, s.answered ++ [call]⟩ rule subject window =
      s.accepted rule subject window + if call.counts rule subject window then 1 else 0 := by
  unfold LimiterState.accepted
  rw [List.countP_append, List.countP_singleton]

/-- While a window lasts, its bucket has counted every accepted call. -/
structure HitsCounted (subjectHash : String → String → String) (rules : String → RateLimitRule)
    (s : LimiterState) : Prop where
  buckets : BucketsOk rules s.buckets
  accepted_le : ∀ rule, rules rule.scope = rule → ∀ subject window,
    s.accepted rule subject window ≤ rule.limit
  accepted_le_hits : ∀ rule, rules rule.scope = rule → ∀ subject window,
    s.now < (window + 1) * seconds rule.window →
    s.accepted rule subject window ≤
      hits s.buckets (rule.bucketOf subjectHash subject window)

theorem HitsCounted.initial {s : LimiterState} (h : s.Initial) : HitsCounted subjectHash rules s := by
  obtain ⟨hBuckets, hAnswered⟩ := h
  have hNone : ∀ rule subject window, s.accepted rule subject window = 0 := by
    intro rule subject window
    unfold LimiterState.accepted
    rw [hAnswered, List.countP_nil]
  constructor
  · rw [hBuckets]
    intro b hb
    cases hb
  · intro rule _ subject window
    rw [hNone]
    exact Nat.zero_le _
  · intro rule _ subject window _
    rw [hNone]
    exact Nat.zero_le _

/-- An accepted call of the window is a hit of the bucket. -/
theorem HitsCounted.hit {s : LimiterState} {now : Instant} {unique : List RateLimitCheck}
    {rule : RateLimitRule} {subject : String} {window : Nat}
    (h : HitsCounted subjectHash rules s) (hRule : rules rule.scope = rule)
    (hAfter : s.now ≤ now) (hWindow : rule.windowAt now = window)
    (hWithin : Within subjectHash now unique (prune now s.buckets).1)
    (hExact : Exact rule now)
    (hCheck : (⟨rule, subject⟩ : RateLimitCheck) ∈ unique) :
    s.accepted rule subject window + 1 ≤ rule.limit ∧
      s.accepted rule subject window + 1 ≤
        hits (incrementAll subjectHash now unique (prune now s.buckets).1)
          (rule.bucketOf subjectHash subject window) := by
  obtain rfl := hWindow
  have hOpen := rule.lt_windowAt_succ now
  have hBucket : bucketKey subjectHash now ⟨rule, subject⟩ =
      rule.bucketOf subjectHash subject (rule.windowAt now) := hExact.bucketKey_eq
  obtain ⟨hLimit, hHits⟩ := hit_of_within hWithin hCheck
  rw [hBucket, h.buckets.hits_prune] at hLimit
  · rw [hBucket, h.buckets.hits_prune] at hHits
    · have hBefore := h.accepted_le_hits rule hRule subject (rule.windowAt now)
        (Nat.lt_of_le_of_lt hAfter hOpen)
      exact ⟨Nat.le_trans (Nat.succ_le_succ hBefore) hLimit,
        Nat.le_trans (Nat.succ_le_succ hBefore) hHits⟩
    · unfold RateLimitRule.bucketOf
      rwa [hRule, ← Nat.succ_mul]
  · unfold RateLimitRule.bucketOf
    rwa [hRule, ← Nat.succ_mul]

theorem HitsCounted.consume {s : LimiterState} {now : Instant} {checks : List RateLimitCheck}
    (h : HitsCounted subjectHash rules s) (hAfter : s.now ≤ now)
    (hRules : ∀ c ∈ checks, c.rule = rules c.rule.scope)
    (hExact : ∀ c ∈ checks, Exact c.rule now) {buckets : Buckets} {answer : DatabaseRateLimiter.Answer}
    (hCall : Consumed subjectHash now checks s.buckets buckets answer) :
    HitsCounted subjectHash rules ⟨now, buckets, s.answered ++ [⟨now, checks, answer⟩]⟩ := by
  have hOpen : ∀ rule subject window, rules rule.scope = rule →
      now < (window + 1) * seconds rule.window →
      now < (rule.bucketOf subjectHash subject window).2.2 +
        seconds (rules (rule.bucketOf subjectHash subject window).1).window := by
    intro rule subject window hRule hOpen
    unfold RateLimitRule.bucketOf
    rwa [hRule, ← Nat.succ_mul]
  -- a call that counts is accepted, and its check is one of the loop
  have hCounted : ∀ rule subject window, rules rule.scope = rule →
      AnsweredCall.counts rule subject window ⟨now, checks, answer⟩ = true →
      s.accepted rule subject window + 1 ≤ rule.limit ∧
        s.accepted rule subject window + 1 ≤
          hits buckets (rule.bucketOf subjectHash subject window) := by
    intro rule subject window hRule hCounts
    obtain ⟨hAnswer, hWindow, c, hc, hScope, rfl⟩ := counts_eq_true.mp hCounts
    have hSame : c.rule = rule := by rw [hRules c hc, hScope, hRule]
    cases hCall with
    | invalid message => cases hAnswer
    | nothing hEmpty => exact absurd (hEmpty ▸ hc) List.not_mem_nil
    | accepted unique hUnique hWithin =>
        refine h.hit hRule hAfter hWindow hWithin (hSame ▸ hExact c hc) ?_
        exact (mem_uniqueChecks hUnique).mpr (hSame ▸ hc)
    | exceeded front check back hUnique hWithin hBlocked => cases hAnswer
  refine ⟨h.buckets.consumed hRules hCall, ?_, ?_⟩
  · intro rule hRule subject window
    rw [accepted_append]
    split
    · rename_i hCounts
      exact (hCounted rule subject window hRule hCounts).1
    · exact h.accepted_le rule hRule subject window
  · intro rule hRule subject window hNow
    rw [accepted_append]
    split
    · rename_i hCounts
      exact (hCounted rule subject window hRule hCounts).2
    · exact Nat.le_trans
        (h.accepted_le_hits rule hRule subject window (Nat.lt_of_le_of_lt hAfter hNow))
        (h.buckets.hits_consumed hCall (hOpen rule subject window hRule hNow))

theorem HitsCounted.prune {s : LimiterState} {now : Instant} (h : HitsCounted subjectHash rules s)
    (hAfter : s.now ≤ now) :
    HitsCounted subjectHash rules ⟨now, (prune now s.buckets).1, s.answered⟩ := by
  refine ⟨h.buckets.prune, h.accepted_le, ?_⟩
  intro rule hRule subject window hNow
  dsimp only at hNow ⊢
  rw [h.buckets.hits_prune]
  · exact h.accepted_le_hits rule hRule subject window (Nat.lt_of_le_of_lt hAfter hNow)
  · unfold RateLimitRule.bucketOf
    rwa [hRule, ← Nat.succ_mul]

end Accepted

/-! ## A rejected call -/

section Rejected

variable {subjectHash : String → String → String} {rules : String → RateLimitRule}
  {now : Instant}

/-- Checks that differ count in different buckets, unless their hashes meet. -/
theorem bucketKey_ne {checks : List RateLimitCheck} {c d : RateLimitCheck} (hc : c ∈ checks)
    (hUnshared : Unshared subjectHash checks d)
    (hDiffer : c.rule.scope ≠ d.rule.scope ∨ c.subject ≠ d.subject) :
    bucketKey subjectHash now c ≠ bucketKey subjectHash now d := by
  intro hKey
  have hScope : c.rule.scope = d.rule.scope := congrArg Prod.fst hKey
  have hHash : subjectHash c.rule.scope c.subject = subjectHash d.rule.scope d.subject :=
    congrArg (fun key : BucketKey => key.2.1) hKey
  rcases hDiffer with hDiffer | hDiffer
  · exact hDiffer hScope
  · exact hDiffer (hUnshared c hc hScope hHash)

/-- A check before the blocked one ends within its limit. -/
theorem hits_earlier {front : List RateLimitCheck} {check earlier : RateLimitCheck}
    {buckets : Buckets}
    (hDiffer : (front ++ [check]).Pairwise
      fun c d => c.rule.scope ≠ d.rule.scope ∨ c.subject ≠ d.subject)
    (hWithin : Within subjectHash now front buckets) (hMem : earlier ∈ front)
    (hUnshared : Unshared subjectHash (front ++ [check]) earlier) :
    hits (incrementAll subjectHash now (front ++ [check]) buckets)
      (bucketKey subjectHash now earlier) ≤ earlier.rule.limit := by
  obtain ⟨before, after, rfl⟩ := List.mem_iff_append.mp hMem
  rw [List.append_assoc, List.cons_append] at hDiffer hUnshared ⊢
  obtain ⟨-, hTail, -⟩ := List.pairwise_append.mp hDiffer
  have hOthers : ∀ c ∈ after ++ [check],
      bucketKey subjectHash now c ≠ bucketKey subjectHash now earlier := by
    intro c hc
    refine bucketKey_ne (List.mem_append_right _ (List.mem_cons_of_mem _ hc)) hUnshared ?_
    exact ((List.pairwise_cons.mp hTail).1 c hc).imp Ne.symm Ne.symm
  rw [incrementAll_append, incrementAll, hits_incrementAll hOthers, hits_increment, if_pos rfl]
  exact (within_append hWithin).1

theorem exceeded_effect {checks : List RateLimitCheck} {buckets buckets' : Buckets}
    {retryAfter : Nat} (h : BucketsOk rules buckets)
    (hRules : ∀ c ∈ checks, c.rule = rules c.rule.scope)
    (hExact : ∀ c ∈ checks, Exact c.rule now)
    (hCall : Consumed subjectHash now checks buckets buckets' (.exceeded retryAfter)) :
    ∃ front check back, uniqueChecks checks = .ok (front ++ check :: back) ∧
      (∀ earlier ∈ front, Unshared subjectHash (front ++ [check]) earlier →
        hits buckets' (earlier.bucket subjectHash now) ≤ earlier.rule.limit) ∧
      check.rule.limit < hits buckets' (check.bucket subjectHash now) ∧
      IsLeast {r | 0 < r ∧
        (check.rule.windowAt now + 1) * seconds check.rule.window ≤ now + seconds r} retryAfter ∧
      ∀ later ∈ back, Unshared subjectHash (front ++ [check]) later →
        buckets'.find? (later.bucket subjectHash now) =
          buckets.find? (later.bucket subjectHash now) := by
  cases hCall with
  | exceeded front check back hUnique hWithin hBlocked =>
      have hDiffer := nodup_uniqueChecks hUnique
      rw [List.append_cons] at hDiffer
      obtain ⟨hUpTo, -, hAcross⟩ := List.pairwise_append.mp hDiffer
      have hMem : ∀ c ∈ front ++ check :: back, c ∈ checks := fun c hc =>
        (mem_uniqueChecks hUnique).mp hc
      have hCheck := hMem check (List.mem_append_right _ List.mem_cons_self)
      refine ⟨front, check, back, hUnique, ?_, ?_, (hExact check hCheck).isLeast, ?_⟩
      · intro earlier hEarlier hUnshared
        have hTime := hExact earlier (hMem earlier (List.mem_append_left _ hEarlier))
        rw [← hTime.bucketKey_eq]
        exact hits_earlier hUpTo hWithin hEarlier hUnshared
      · rw [← (hExact check hCheck).bucketKey_eq, incrementAll_append, incrementAll, incrementAll,
          hits_increment, if_pos rfl]
        exact hBlocked
      · intro later hLater hUnshared
        have hIn := hMem later (List.mem_append_right _ (List.mem_cons_of_mem _ hLater))
        have hOpen : now < (later.bucket subjectHash now).2.2 +
            seconds (rules (later.bucket subjectHash now).1).window := by
          unfold RateLimitCheck.bucket RateLimitRule.bucketOf
          rw [← hRules later hIn, ← Nat.succ_mul]
          exact later.rule.lt_windowAt_succ now
        rw [← h.find?_prune hOpen]
        refine find?_incrementAll fun c hc => ?_
        rw [← (hExact later hIn).bucketKey_eq]
        exact bucketKey_ne hc hUnshared (hAcross c hc later hLater)

end Rejected

/-! ## Runs -/

section Runs

variable {subjectHash : String → String → String} {rules : String → RateLimitRule}
  {calls : List LimiterCall} {start s : LimiterState}

/-- What a step does: its call, or the prune. -/
theorem LimiterState.step_cases {call : LimiterCall} {t : LimiterState}
    (h : LimiterState.step subjectHash s call = some t) :
    s.now ≤ call.now ∧
      ((∃ checks, call = .consume call.now checks ∧
          t = ⟨call.now, (consume subjectHash call.now checks s.buckets).1,
            s.answered ++ [⟨call.now, checks,
              (consume subjectHash call.now checks s.buckets).2⟩]⟩) ∨
        call = .prune call.now ∧ t = ⟨call.now, (prune call.now s.buckets).1, s.answered⟩) := by
  unfold LimiterState.step at h
  split at h
  · cases h
  · rename_i hAfter
    refine ⟨Nat.not_lt.mp hAfter, ?_⟩
    cases call with
    | consume now checks => exact Or.inl ⟨checks, rfl, (Option.some.inj h).symm⟩
    | prune now => exact Or.inr ⟨rfl, (Option.some.inj h).symm⟩

theorem HitsCounted.step {call : LimiterCall} {t : LimiterState} (h : HitsCounted subjectHash rules s)
    (hRules : ∀ c ∈ call.checks, c.rule = rules c.rule.scope)
    (hExact : ∀ c ∈ call.checks, Exact c.rule call.now)
    (hStep : LimiterState.step subjectHash s call = some t) : HitsCounted subjectHash rules t := by
  obtain ⟨hAfter, ⟨checks, hCall, rfl⟩ | ⟨hCall, rfl⟩⟩ := LimiterState.step_cases hStep
  · have hChecks : call.checks = checks := by rw [hCall]; rfl
    rw [hChecks] at hRules hExact
    exact h.consume hAfter hRules hExact (consumed _ _ _ _)
  · exact h.prune hAfter

/-- A step leaves the row of an unfinished window. -/
theorem BucketsOk.kept_step {call : LimiterCall} {t : LimiterState}
    (h : BucketsOk rules s.buckets) (hStep : LimiterState.step subjectHash s call = some t)
    {key : BucketKey} (hOpen : call.now < key.2.2 + seconds (rules key.1).window)
    (hRow : (s.buckets.find? key).isSome) : (t.buckets.find? key).isSome := by
  obtain ⟨-, ⟨checks, -, rfl⟩ | ⟨-, rfl⟩⟩ := LimiterState.step_cases hStep
  · exact h.kept_consumed (DatabaseRateLimiter.consumed _ _ _ _) hOpen hRow
  · rwa [← h.find?_prune hOpen] at hRow

/-- The limits hold in every run whose calls rounding leaves in their windows. -/
theorem rate_limits_hold (hStart : start.Initial) (hRules : OneRulePerScope rules calls)
    (hExact : ∀ call ∈ calls, ∀ c ∈ call.checks, Exact c.rule call.now)
    (hRun : run (LimiterState.step subjectHash) start calls = some s) :
    RateLimitsHold subjectHash rules start calls s := by
  have hKeep : ∀ u call v, StepOf (LimiterState.step subjectHash) start calls u call v →
      HitsCounted subjectHash rules u → HitsCounted subjectHash rules v := fun u call v hStep hu =>
    hu.step (hRules call hStep.mem) (hExact call hStep.mem) hStep.step
  have hCounted : ∀ u, Visits (LimiterState.step subjectHash) start calls u →
      HitsCounted subjectHash rules u := fun u hVisit =>
    visits_induct (HitsCounted.initial hStart) hVisit hKeep
  have hEnd := hCounted s (visits_end hRun)
  refine ⟨hEnd.accepted_le, fun b hb => (hEnd.buckets b hb).2, ?_, ?_⟩
  · intro u call v hStep b hb hOpen
    refine (hCounted u hStep.before).buckets.kept_step hStep.step hOpen ?_
    rw [Table.find?_key hb]
    rfl
  · intro u now checks v retryAfter hStep hAnswer
    obtain ⟨-, ⟨checks', hCall, rfl⟩ | ⟨hCall, -⟩⟩ := LimiterState.step_cases hStep.step
    · obtain rfl := (LimiterCall.consume.inj hCall).2
      have hCall := consumed subjectHash now checks u.buckets
      rw [hAnswer] at hCall
      exact exceeded_effect (hCounted u hStep.before).buckets (hRules _ hStep.mem)
        (hExact _ hStep.mem) hCall
    · cases hCall

end Runs

/-- The calls of an empty limiter, by their seconds. -/
def emptyLimiter : LimiterState := ⟨0, Table.empty, []⟩

theorem emptyLimiter_initial : emptyLimiter.Initial := ⟨rfl, rfl⟩

def oncePer (window : Nat) (h : 0 < window) : RateLimitRule :=
  ⟨"test_fixed", 1, window, by decide, by decide, h⟩

/-- Two attempts in one minute and one in the next. -/
def minuteCalls : List LimiterCall :=
  [.consume 30000000 [⟨oncePer 60 (by decide), "person"⟩],
    .consume 59500000 [⟨oncePer 60 (by decide), "person"⟩],
    .consume 60000000 [⟨oncePer 60 (by decide), "person"⟩]]

theorem rate_limits_hold_minute :
    RateLimitsHold (fun _ subject => subject) (fun _ => oncePer 60 (by decide)) emptyLimiter
        minuteCalls ((run (LimiterState.step fun _ subject => subject) emptyLimiter
          minuteCalls).getD emptyLimiter) ∧
      ((run (LimiterState.step fun _ subject => subject) emptyLimiter minuteCalls).getD
        emptyLimiter).answered.map AnsweredCall.answer = [.accepted, .exceeded 1, .accepted] := by
  refine ⟨?_, by decide +kernel⟩
  refine rate_limits_hold emptyLimiter_initial ?_ ?_ (run_getD (by decide +kernel))
  · intro call hCall c hc
    simp only [minuteCalls, List.mem_cons, List.not_mem_nil, or_false] at hCall
    rcases hCall with rfl | rfl | rfl <;>
      (obtain rfl := List.mem_singleton.mp hc; rfl)
  · intro call hCall c hc
    simp only [minuteCalls, List.mem_cons, List.not_mem_nil, or_false] at hCall
    rcases hCall with rfl | rfl | rfl <;>
      (obtain rfl := List.mem_singleton.mp hc; exact exact_of_lt (by decide) (by decide))

/-- Two attempts in the second 2514-05-30 01:53:04, at its start and one microsecond before
its end. -/
def lateCalls : List LimiterCall :=
  [.consume 17179869184000000 [⟨oncePer 1 (by decide), "person"⟩],
    .consume 17179869184999999 [⟨oncePer 1 (by decide), "person"⟩]]

/-- The second reading of the clock rounds to the next second, so both are accepted. -/
theorem rate_limits_break :
    emptyLimiter.Initial ∧ OneRulePerScope (fun _ => oncePer 1 (by decide)) lateCalls ∧
      ∃ s, run (LimiterState.step fun _ subject => subject) emptyLimiter lateCalls = some s ∧
        ¬ RateLimitsHold (fun _ subject => subject) (fun _ => oncePer 1 (by decide)) emptyLimiter
          lateCalls s := by
  refine ⟨emptyLimiter_initial, ?_, _, run_getD (d := emptyLimiter) (by decide +kernel), ?_⟩
  · intro call hCall c hc
    simp only [lateCalls, List.mem_cons, List.not_mem_nil, or_false] at hCall
    rcases hCall with rfl | rfl <;>
      (obtain rfl := List.mem_singleton.mp hc; rfl)
  · intro hHold
    have hTwo : ((run (LimiterState.step fun _ subject => subject) emptyLimiter lateCalls).getD
        emptyLimiter).accepted (oncePer 1 (by decide)) "person" 17179869184 = 2 := by
      decide +kernel
    have hLe := hHold.accepted_le (oncePer 1 (by decide)) rfl "person" 17179869184
    rw [hTwo] at hLe
    exact absurd hLe (by decide)

end SavedOrganizer
