import SavedOrganizer.Library.Rounding
import SavedOrganizer.Models

/-!
# Abuse throttles

`DatabaseRateLimiter` counts attempts in fixed windows, one bucket for a scope, a subject
and the start of a window. A call first prunes the buckets that have expired, then increments
the bucket of one check after the other until a count exceeds its rule's limit.

`now.timestamp()` and `total_seconds()` are doubles, so the window of an instant and the
seconds that remain of it go through a rounded quotient. The keyed hash of a subject is a
parameter.
-/

namespace SavedOrganizer

/-- Maximum number of attempts allowed in one fixed window, of whole seconds. -/
structure RateLimitRule where
  scope : String
  limit : Nat
  window : Nat
  scope_length : 0 < scope.length ∧ scope.length ≤ 48
  limit_positive : 0 < limit
  window_positive : 0 < window
  deriving DecidableEq

structure RateLimitCheck where
  rule : RateLimitRule
  subject : String
  deriving DecidableEq

/-- One shared fixed-window counter with a non-identifying subject key. -/
structure AbuseRateLimitBucket where
  scope : String
  subjectHash : String
  windowStartedAt : Instant
  hitCount : Nat
  expiresAt : Instant
  deriving DecidableEq, Repr

abbrev BucketKey := String × String × Instant

instance : Keyed AbuseRateLimitBucket BucketKey :=
  ⟨fun b => (b.scope, b.subjectHash, b.windowStartedAt)⟩

abbrev Buckets := Table AbuseRateLimitBucket

namespace DatabaseRateLimiter

/-! ## Windows -/

/-- `now.timestamp()`. -/
def timestamp (now : Instant) : Rounding.Double := Rounding.divide now 1000000

/-- `timedelta.total_seconds()`. -/
def totalSeconds (span : Nat) : Rounding.Double := Rounding.divide span 1000000

def windowStart (now : Instant) (rule : RateLimitRule) : Instant :=
  seconds ((timestamp now).trunc / rule.window * rule.window)

def windowEnd (now : Instant) (rule : RateLimitRule) : Instant :=
  windowStart now rule + seconds rule.window

/-! ## Checks -/

/-- The entry of the dictionary under a check's scope and subject. -/
def identified (unique : List RateLimitCheck) (check : RateLimitCheck) : Option RateLimitCheck :=
  unique.find? (fun c => c.rule.scope = check.rule.scope ∧ c.subject = check.subject)

def uniqueChecksFrom (unique : List RateLimitCheck) :
    List RateLimitCheck → Except String (List RateLimitCheck)
  | [] => .ok unique
  | check :: checks =>
      if check.subject = "" then .error "Rate-limit subjects must not be empty."
      else match identified unique check with
        | none => uniqueChecksFrom (unique ++ [check]) checks
        | some existing =>
            if existing.rule ≠ check.rule then
              .error "One rate-limit scope and subject cannot use different rules."
            else uniqueChecksFrom unique checks

def uniqueChecks (checks : List RateLimitCheck) : Except String (List RateLimitCheck) :=
  uniqueChecksFrom [] checks

/-! ## Counters -/

section Counters

-- `_subject_hash`, by scope and subject
variable (subjectHash : String → String → String)

/-- The bucket a check counts in. -/
def bucketKey (now : Instant) (check : RateLimitCheck) : BucketKey :=
  (check.rule.scope, subjectHash check.rule.scope check.subject, windowStart now check.rule)

/-- The row `_increment` inserts. -/
def firstHit (now : Instant) (check : RateLimitCheck) : AbuseRateLimitBucket where
  scope := check.rule.scope
  subjectHash := subjectHash check.rule.scope check.subject
  windowStartedAt := windowStart now check.rule
  hitCount := 1
  expiresAt := windowEnd now check.rule

/-- What it sets when the bucket exists: the count stops at one above the limit. -/
def nextHit (now : Instant) (check : RateLimitCheck) (b : AbuseRateLimitBucket) :
    AbuseRateLimitBucket :=
  { b with
    hitCount := if b.hitCount ≤ check.rule.limit then b.hitCount + 1 else b.hitCount
    expiresAt := windowEnd now check.rule }

def increment (now : Instant) (check : RateLimitCheck) (buckets : Buckets) : Buckets × Nat :=
  (buckets.upsert (firstHit subjectHash now check) (nextHit now check),
    ((buckets.find? (bucketKey subjectHash now check)).elim (firstHit subjectHash now check)
      (nextHit now check)).hitCount)

/-- The indexed prune, and the number of rows it removes. -/
def prune (now : Instant) (buckets : Buckets) : Buckets × Nat :=
  (buckets.delete (fun b => b.expiresAt ≤ now), buckets.count (fun b => b.expiresAt ≤ now))

/-- The loop of `consume`, with the value it leaves in `retry_after`. -/
def consumeChecks (now : Instant) : List RateLimitCheck → Buckets → Buckets × Nat
  | [], buckets => (buckets, 0)
  | check :: checks, buckets =>
      let (buckets, count) := increment subjectHash now check buckets
      if check.rule.limit < count then
        (buckets, (totalSeconds (windowEnd now check.rule - now)).ceil)
      else consumeChecks now checks buckets

end Counters

inductive Answer
  | accepted
  /-- `RateLimitExceeded`. -/
  | exceeded (retryAfter : Nat)
  /-- `ValueError`. -/
  | invalid (message : String)
  deriving DecidableEq, Repr

/-- One call, in its transaction. -/
def consume (subjectHash : String → String → String) (now : Instant)
    (checks : List RateLimitCheck) (buckets : Buckets) : Buckets × Answer :=
  match uniqueChecks checks with
  | .error message => (buckets, .invalid message)
  | .ok [] => (buckets, .accepted)
  | .ok unique =>
      let (buckets, retryAfter) := consumeChecks subjectHash now unique (prune now buckets).1
      (buckets, if retryAfter = 0 then .accepted else .exceeded (max 1 retryAfter))

/-! ## The deduplicated checks -/

theorem mem_uniqueChecksFrom {unique checks result : List RateLimitCheck}
    (h : uniqueChecksFrom unique checks = .ok result) (c : RateLimitCheck) :
    c ∈ result ↔ c ∈ unique ∨ c ∈ checks := by
  induction checks generalizing unique with
  | nil =>
      obtain rfl := Except.ok.inj h
      simp
  | cons check checks ih =>
      rw [uniqueChecksFrom] at h
      split at h
      · cases h
      split at h
      · rw [ih h, List.mem_append, List.mem_singleton, List.mem_cons, or_assoc]
      · rename_i existing hFound
        split at h
        · cases h
        rename_i hRule
        -- the same scope, subject and rule: the check is in the dictionary already
        have hSame : existing = check := by
          have hSubject := List.find?_some hFound
          have hEq := Decidable.not_not.mp hRule
          cases existing
          cases check
          simp_all
        have hMem : check ∈ unique := hSame ▸ List.mem_of_find?_eq_some hFound
        rw [ih h, List.mem_cons]
        constructor
        · rintro (hc | hc)
          · exact Or.inl hc
          · exact Or.inr (Or.inr hc)
        · rintro (hc | rfl | hc)
          · exact Or.inl hc
          · exact Or.inl hMem
          · exact Or.inr hc

theorem mem_uniqueChecks {checks unique : List RateLimitCheck}
    (h : uniqueChecks checks = .ok unique) {c : RateLimitCheck} : c ∈ unique ↔ c ∈ checks := by
  have hMem := mem_uniqueChecksFrom h c
  simpa using hMem

theorem nodup_uniqueChecksFrom {unique checks result : List RateLimitCheck}
    (h : uniqueChecksFrom unique checks = .ok result)
    (hUnique : unique.Pairwise fun c d => c.rule.scope ≠ d.rule.scope ∨ c.subject ≠ d.subject) :
    result.Pairwise fun c d => c.rule.scope ≠ d.rule.scope ∨ c.subject ≠ d.subject := by
  induction checks generalizing unique with
  | nil =>
      obtain rfl := Except.ok.inj h
      exact hUnique
  | cons check checks ih =>
      rw [uniqueChecksFrom] at h
      split at h
      · cases h
      split at h
      · rename_i hFound
        refine ih h (List.pairwise_append.mpr ⟨hUnique, List.pairwise_singleton _ _, ?_⟩)
        intro c hc d hd
        obtain rfl := List.mem_singleton.mp hd
        have hDiffer := List.find?_eq_none.mp hFound c hc
        simpa only [decide_eq_true_eq, not_and_or] using hDiffer
      · split at h
        · cases h
        · exact ih h hUnique

/-- No two checks of the loop share a scope and a subject. -/
theorem nodup_uniqueChecks {checks unique : List RateLimitCheck}
    (h : uniqueChecks checks = .ok unique) :
    unique.Pairwise fun c d => c.rule.scope ≠ d.rule.scope ∨ c.subject ≠ d.subject :=
  nodup_uniqueChecksFrom h List.Pairwise.nil

/-! ## One increment -/

/-- The count of a bucket, zero when there is none. -/
def hits (buckets : Buckets) (key : BucketKey) : Nat :=
  (buckets.find? key).elim 0 AbuseRateLimitBucket.hitCount

/-- The capped increment. -/
def capped (limit count : Nat) : Nat := if count ≤ limit then count + 1 else count

theorem le_capped (limit count : Nat) : count ≤ capped limit count := by
  unfold capped
  split <;> omega

theorem capped_le {limit count : Nat} (h : count ≤ limit + 1) :
    capped limit count ≤ limit + 1 := by
  unfold capped
  split <;> omega

/-- A count within the limit is a fresh hit. -/
theorem capped_within {limit count : Nat} (h : capped limit count ≤ limit) :
    capped limit count = count + 1 := by
  unfold capped at h ⊢
  split at h <;> split <;> omega

section Increment

variable {subjectHash : String → String → String} {now : Instant} {check : RateLimitCheck}
  {buckets : Buckets}

@[simp] theorem key_firstHit :
    Keyed.key (firstHit subjectHash now check) = bucketKey subjectHash now check := rfl

theorem find?_increment (key : BucketKey) :
    (increment subjectHash now check buckets).1.find? key =
      if bucketKey subjectHash now check = key then
        some ((buckets.find? (bucketKey subjectHash now check)).elim
          (firstHit subjectHash now check) (nextHit now check))
      else buckets.find? key := by
  unfold increment
  rw [Table.find?_upsert, key_firstHit]

theorem increment_count : (increment subjectHash now check buckets).2 =
    capped check.rule.limit (hits buckets (bucketKey subjectHash now check)) := by
  unfold increment hits capped
  cases buckets.find? (bucketKey subjectHash now check) with
  | none => simp [firstHit]
  | some b => rfl

theorem hits_increment (key : BucketKey) :
    hits (increment subjectHash now check buckets).1 key =
      if bucketKey subjectHash now check = key then (increment subjectHash now check buckets).2
      else hits buckets key := by
  unfold hits
  rw [find?_increment]
  split
  · rfl
  · rfl

theorem hits_le_increment (key : BucketKey) :
    hits buckets key ≤ hits (increment subjectHash now check buckets).1 key := by
  rw [hits_increment]
  split
  · rename_i h
    rw [increment_count, h]
    exact le_capped _ _
  · exact Nat.le_refl _

/-- A row after an increment is the check's bucket or an old row. -/
theorem mem_increment {b : AbuseRateLimitBucket}
    (h : b ∈ (increment subjectHash now check buckets).1) :
    (b.scope = check.rule.scope ∧ b.windowStartedAt = windowStart now check.rule ∧
      b.expiresAt = windowEnd now check.rule ∧
      b.hitCount = (increment subjectHash now check buckets).2) ∨ b ∈ buckets := by
  have hFind := Table.find?_key h
  rw [find?_increment] at hFind
  split at hFind
  · rename_i hKey
    have hRow := Option.some.inj hFind
    have hScope : check.rule.scope = b.scope := congrArg Prod.fst hKey
    have hStart : windowStart now check.rule = b.windowStartedAt :=
      congrArg (fun key : BucketKey => key.2.2) hKey
    refine Or.inl ⟨hScope.symm, hStart.symm, ?_, ?_⟩
    · rw [← hRow]
      cases buckets.find? (bucketKey subjectHash now check) <;> rfl
    · rw [← hRow]
      rfl
  · exact Or.inr (Table.mem_of_find? hFind)

end Increment

/-! ## The loop over the checks -/

/-- The increments of the loop, without its exit. -/
def incrementAll (subjectHash : String → String → String) (now : Instant) :
    List RateLimitCheck → Buckets → Buckets
  | [], buckets => buckets
  | check :: checks, buckets =>
      incrementAll subjectHash now checks (increment subjectHash now check buckets).1

section Loop

variable {subjectHash : String → String → String} {now : Instant}

/-- Every count up to here is within its limit. -/
def Within (subjectHash : String → String → String) (now : Instant) :
    List RateLimitCheck → Buckets → Prop
  | [], _ => True
  | check :: checks, buckets =>
      (increment subjectHash now check buckets).2 ≤ check.rule.limit ∧
        Within subjectHash now checks (increment subjectHash now check buckets).1

/-- The loop goes through, or stops at the first check whose count exceeds its limit. -/
theorem consumeChecks_cases (checks : List RateLimitCheck) (buckets : Buckets) :
    (Within subjectHash now checks buckets ∧
      consumeChecks subjectHash now checks buckets =
        (incrementAll subjectHash now checks buckets, 0)) ∨
    ∃ front check back, checks = front ++ check :: back ∧
      Within subjectHash now front buckets ∧
      check.rule.limit <
        (increment subjectHash now check (incrementAll subjectHash now front buckets)).2 ∧
      consumeChecks subjectHash now checks buckets =
        (incrementAll subjectHash now (front ++ [check]) buckets,
          (totalSeconds (windowEnd now check.rule - now)).ceil) := by
  induction checks generalizing buckets with
  | nil => exact Or.inl ⟨trivial, rfl⟩
  | cons check checks ih =>
      by_cases hOver : check.rule.limit < (increment subjectHash now check buckets).2
      · refine Or.inr ⟨[], check, checks, rfl, trivial, hOver, ?_⟩
        rw [consumeChecks]
        dsimp only
        rw [if_pos hOver]
        rfl
      · have hNext : consumeChecks subjectHash now (check :: checks) buckets =
            consumeChecks subjectHash now checks (increment subjectHash now check buckets).1 := by
          rw [consumeChecks]
          dsimp only
          rw [if_neg hOver]
        rw [hNext]
        rcases ih (increment subjectHash now check buckets).1 with
          ⟨hWithin, hEq⟩ | ⟨front, blocked, back, rfl, hWithin, hBlocked, hEq⟩
        · exact Or.inl ⟨⟨Nat.not_lt.mp hOver, hWithin⟩, hEq⟩
        · exact Or.inr
            ⟨check :: front, blocked, back, rfl, ⟨Nat.not_lt.mp hOver, hWithin⟩, hBlocked, hEq⟩

theorem incrementAll_append (front back : List RateLimitCheck) (buckets : Buckets) :
    incrementAll subjectHash now (front ++ back) buckets =
      incrementAll subjectHash now back (incrementAll subjectHash now front buckets) := by
  induction front generalizing buckets with
  | nil => rfl
  | cons check front ih => exact ih (increment subjectHash now check buckets).1

theorem hits_le_incrementAll (subjectHash : String → String → String) (now : Instant)
    (checks : List RateLimitCheck) (buckets : Buckets) (key : BucketKey) :
    hits buckets key ≤ hits (incrementAll subjectHash now checks buckets) key := by
  induction checks generalizing buckets with
  | nil => exact Nat.le_refl _
  | cons check checks ih => exact Nat.le_trans (hits_le_increment key) (ih _)

/-- Every check of a loop that goes through is a hit within its limit. -/
theorem hit_of_within {checks : List RateLimitCheck} {buckets : Buckets} {check : RateLimitCheck}
    (h : Within subjectHash now checks buckets) (hMem : check ∈ checks) :
    hits buckets (bucketKey subjectHash now check) + 1 ≤ check.rule.limit ∧
      hits buckets (bucketKey subjectHash now check) + 1 ≤
        hits (incrementAll subjectHash now checks buckets) (bucketKey subjectHash now check) := by
  induction checks generalizing buckets with
  | nil => cases hMem
  | cons first checks ih =>
      obtain ⟨hFirst, hRest⟩ := h
      rcases List.mem_cons.mp hMem with rfl | hMem
      · rw [increment_count] at hFirst
        have hCount := capped_within hFirst
        have hLater := hits_le_incrementAll subjectHash now checks
          (increment subjectHash now check buckets).1 (bucketKey subjectHash now check)
        rw [hits_increment, if_pos rfl, increment_count, hCount] at hLater
        rw [hCount] at hFirst
        exact ⟨hFirst, hLater⟩
      · obtain ⟨hLimit, hHits⟩ := ih hRest hMem
        have hMono : hits buckets (bucketKey subjectHash now check) ≤
            hits (increment subjectHash now first buckets).1 (bucketKey subjectHash now check) :=
          hits_le_increment _
        exact ⟨by omega, Nat.le_trans (by omega) hHits⟩

theorem within_append {front back : List RateLimitCheck} {buckets : Buckets}
    (h : Within subjectHash now (front ++ back) buckets) :
    Within subjectHash now back (incrementAll subjectHash now front buckets) := by
  induction front generalizing buckets with
  | nil => exact h
  | cons check front ih => exact ih h.2

/-- A bucket none of the checks counts in keeps its row. -/
theorem find?_incrementAll {checks : List RateLimitCheck} {buckets : Buckets} {key : BucketKey}
    (h : ∀ c ∈ checks, bucketKey subjectHash now c ≠ key) :
    (incrementAll subjectHash now checks buckets).find? key = buckets.find? key := by
  induction checks generalizing buckets with
  | nil => rfl
  | cons check checks ih =>
      rw [incrementAll, ih (fun c hc => h c (List.mem_cons_of_mem _ hc)), find?_increment,
        if_neg (h check List.mem_cons_self)]

theorem hits_incrementAll {checks : List RateLimitCheck} {buckets : Buckets} {key : BucketKey}
    (h : ∀ c ∈ checks, bucketKey subjectHash now c ≠ key) :
    hits (incrementAll subjectHash now checks buckets) key = hits buckets key := by
  unfold hits
  rw [find?_incrementAll h]

/-- The loop loses no row. -/
theorem isSome_incrementAll {checks : List RateLimitCheck} {buckets : Buckets} {key : BucketKey}
    (h : (buckets.find? key).isSome) :
    ((incrementAll subjectHash now checks buckets).find? key).isSome := by
  induction checks generalizing buckets with
  | nil => exact h
  | cons check checks ih =>
      refine ih ?_
      rw [find?_increment]
      split
      · rfl
      · exact h

end Loop

/-! ## One call -/

/-- A window ends after the instants that are counted in it. -/
theorem now_lt_windowEnd (now : Instant) (rule : RateLimitRule) : now < windowEnd now rule := by
  have hFloor : now / 1000000 ≤ (timestamp now).trunc := Rounding.le_trunc_divide (by decide)
  have hWindow : (timestamp now).trunc <
      (timestamp now).trunc / rule.window * rule.window + rule.window :=
    Nat.lt_div_mul_add rule.window_positive
  unfold windowEnd windowStart seconds
  generalize (timestamp now).trunc / rule.window * rule.window = start at hWindow ⊢
  have hLt : now / 1000000 < start + rule.window := Nat.lt_of_le_of_lt hFloor hWindow
  have hNow : now < (start + rule.window) * 1000000 :=
    (Nat.div_lt_iff_lt_mul (by decide)).mp hLt
  rwa [Nat.add_mul] at hNow

/-- What a call does to the buckets, and its answer. -/
inductive Consumed (subjectHash : String → String → String) (now : Instant)
    (checks : List RateLimitCheck) (buckets : Buckets) : Buckets → Answer → Prop
  | invalid (message : String) :
      Consumed subjectHash now checks buckets buckets (.invalid message)
  | nothing (empty : checks = []) :
      Consumed subjectHash now checks buckets buckets .accepted
  | accepted (unique : List RateLimitCheck) (dedup : uniqueChecks checks = .ok unique)
      (within : Within subjectHash now unique (prune now buckets).1) :
      Consumed subjectHash now checks buckets
        (incrementAll subjectHash now unique (prune now buckets).1) .accepted
  | exceeded (front : List RateLimitCheck) (check : RateLimitCheck) (back : List RateLimitCheck)
      (dedup : uniqueChecks checks = .ok (front ++ check :: back))
      (within : Within subjectHash now front (prune now buckets).1)
      (blocked : check.rule.limit < (increment subjectHash now check
        (incrementAll subjectHash now front (prune now buckets).1)).2) :
      Consumed subjectHash now checks buckets
        (incrementAll subjectHash now (front ++ [check]) (prune now buckets).1)
        (.exceeded (totalSeconds (windowEnd now check.rule - now)).ceil)

theorem consumed (subjectHash : String → String → String) (now : Instant)
    (checks : List RateLimitCheck) (buckets : Buckets) :
    Consumed subjectHash now checks buckets (consume subjectHash now checks buckets).1
      (consume subjectHash now checks buckets).2 := by
  unfold consume
  split
  · exact .invalid _
  · rename_i hUnique
    refine .nothing (List.eq_nil_iff_forall_not_mem.mpr fun c hc => ?_)
    exact List.not_mem_nil ((mem_uniqueChecks hUnique).mpr hc)
  · rename_i unique _ hUnique
    rcases @consumeChecks_cases subjectHash now unique (prune now buckets).1 with
      ⟨hWithin, hEq⟩ | ⟨front, check, back, rfl, hWithin, hBlocked, hEq⟩
    · rw [hEq]
      exact .accepted unique hUnique hWithin
    · have hPositive : 0 < (totalSeconds (windowEnd now check.rule - now)).ceil :=
        Rounding.ceil_pos (Nat.sub_pos_of_lt (now_lt_windowEnd now check.rule)) (by decide)
      rw [hEq]
      dsimp only
      rw [if_neg (Nat.ne_of_gt hPositive), Nat.max_eq_right hPositive]
      exact .exceeded front check back hUnique hWithin hBlocked

theorem find?_prune (now : Instant) (buckets : Buckets) (key : BucketKey) :
    (prune now buckets).1.find? key =
      (buckets.find? key).filter (fun b => !decide (b.expiresAt ≤ now)) :=
  Table.find?_delete _ _ _

theorem mem_prune {now : Instant} {buckets : Buckets} {b : AbuseRateLimitBucket} :
    b ∈ (prune now buckets).1 ↔ b ∈ buckets ∧ now < b.expiresAt := by
  unfold prune
  rw [Table.mem_delete, decide_eq_false_iff_not, Nat.not_le]

end DatabaseRateLimiter

end SavedOrganizer
