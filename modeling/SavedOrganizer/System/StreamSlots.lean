import SavedOrganizer.Library.Transition
import SavedOrganizer.Service.Streams

/-!
# Runs of the stream slots

Requests of any number of API processes claim, renew and release slots in any order; they
share the clock and the table. Every claim draws a fresh owner. Lease holders may renew and
release whenever they like, also after they have lost their slot.

Slots are numbered below `scan_max_streams_per_user` and the table is keyed by user and slot,
so the number of rows is bounded (`count_le`). An owner that has lost its slot never comes
back (`Gone`), because a claim in progress has no row and an owner is drawn once.
-/

namespace SavedOrganizer

open Transition

abbrev RequestId := Nat

/-- Where a request stands with its call of `claim_scan_stream`. -/
inductive StreamRequest
  | idle
  /-- In the loop, before the attempt at the claim's slot. -/
  | claiming (claim : StreamClaim)
  | claimed (lease : ScanStreamLease)
  /-- The call has returned `None`. -/
  | refused (claim : StreamClaim)
  deriving DecidableEq, Repr

structure StreamWorld where
  now : Instant
  slots : Table ScanStreamSlot
  /-- The accounts of the users. -/
  registered : UserId → Bool
  nextOwner : LeaseOwner
  requests : RequestId → StreamRequest

inductive StreamAction
  | tick (elapsed : Nat)
  | begin (request : RequestId) (userId : UserId)
  | attempt (request : RequestId)
  | renew (request : RequestId)
  | release (request : RequestId)

/-- The loop goes on at the claim's slot, or is over. -/
def StreamClaim.loop (maxStreams : Nat) (claim : StreamClaim) : StreamRequest :=
  if claim.slot < maxStreams then .claiming claim else .refused claim

namespace StreamWorld

variable (maxStreams : Nat)

def set (w : StreamWorld) (request : RequestId) (value : StreamRequest) : StreamWorld :=
  { w with requests := Function.update w.requests request value }

/-- The route has authenticated the user of a request that begins. -/
def step (w : StreamWorld) : StreamAction → Option StreamWorld
  | .tick elapsed => some { w with now := w.now + elapsed }
  | .begin request userId =>
      if w.requests request = .idle && w.registered userId then
        let claim : StreamClaim := ⟨userId, w.now, w.nextOwner, 0⟩
        some ({ w with nextOwner := w.nextOwner + 1 }.set request (claim.loop maxStreams))
      else none
  | .attempt request =>
      match w.requests request with
      | .claiming claim =>
          match claim.attempt (w.registered claim.userId) w.slots with
          | some slots => some ({ w with slots := slots }.set request (.claimed claim.lease))
          | none => some (w.set request
              (StreamClaim.loop maxStreams { claim with slot := claim.slot + 1 }))
      | _ => none
  | .renew request =>
      match w.requests request with
      | .claimed lease => some { w with slots := (lease.renew w.now w.slots).1 }
      | _ => none
  | .release request =>
      match w.requests request with
      | .claimed lease => some { w with slots := lease.release w.slots }
      | _ => none

/-- No slot is taken and no request has begun. -/
structure Initial (w : StreamWorld) : Prop where
  noSlots : w.slots = .empty
  idle : ∀ request, w.requests request = .idle

/-- The user's unexpired leases. -/
def streams (w : StreamWorld) (userId : UserId) : Nat :=
  w.slots.count fun row => row.userId == userId && w.now < row.leaseExpiresAt

end StreamWorld

/-! ## One step -/

section Step

variable {maxStreams : Nat} {w w' : StreamWorld}

/-- The rows are old ones, some with a new expiry. -/
def Kept (slots' slots : Table ScanStreamSlot) : Prop :=
  ∀ row ∈ slots', ∃ old ∈ slots, (Keyed.key row : UserId × Nat) = Keyed.key old ∧
    row.owner = old.owner

theorem kept_refl (slots : Table ScanStreamSlot) : Kept slots slots :=
  fun row hRow => ⟨row, hRow, rfl, rfl⟩

/-- What a step can do. -/
inductive StreamStep (maxStreams : Nat) (w : StreamWorld) : StreamAction → StreamWorld → Prop
  | tick (elapsed : Nat) :
      StreamStep maxStreams w (.tick elapsed) { w with now := w.now + elapsed }
  | begin {request : RequestId} {userId : UserId} (hUser : w.registered userId = true) :
      StreamStep maxStreams w (.begin request userId) ({ w with nextOwner := w.nextOwner + 1 }.set
        request (StreamClaim.loop maxStreams ⟨userId, w.now, w.nextOwner, 0⟩))
  | taken {request : RequestId} {claim : StreamClaim} {slots : Table ScanStreamSlot}
      (hClaim : w.requests request = .claiming claim)
      (hTaken : claim.attempt (w.registered claim.userId) w.slots = some slots) :
      StreamStep maxStreams w (.attempt request)
        ({ w with slots := slots }.set request (.claimed claim.lease))
  | occupied {request : RequestId} {claim : StreamClaim}
      (hClaim : w.requests request = .claiming claim)
      (hNone : claim.attempt (w.registered claim.userId) w.slots = none) :
      StreamStep maxStreams w (.attempt request) (w.set request
        (StreamClaim.loop maxStreams { claim with slot := claim.slot + 1 }))
  | held {action : StreamAction} {slots : Table ScanStreamSlot} (hKept : Kept slots w.slots) :
      StreamStep maxStreams w action { w with slots := slots }

theorem streamStep_of_step {action : StreamAction} (h : w.step maxStreams action = some w') :
    StreamStep maxStreams w action w' := by
  cases action with
  | tick elapsed => exact Option.some.inj h ▸ .tick elapsed
  | begin request userId =>
      simp only [StreamWorld.step, Option.ite_none_right_eq_some, Bool.and_eq_true,
        Option.some.injEq] at h
      obtain ⟨⟨-, hUser⟩, rfl⟩ := h
      exact .begin hUser
  | attempt request =>
      simp only [StreamWorld.step] at h
      split at h
      · rename_i claim hClaim
        split at h
        · rename_i slots hTaken
          exact Option.some.inj h ▸ .taken hClaim hTaken
        · rename_i hNone
          exact Option.some.inj h ▸ .occupied hClaim hNone
      · cases h
  | renew request =>
      simp only [StreamWorld.step] at h
      split at h
      · exact Option.some.inj h ▸ .held fun row hRow => ScanStreamLease.mem_renew hRow
      · cases h
  | release request =>
      simp only [StreamWorld.step] at h
      split at h
      · exact Option.some.inj h ▸ .held fun row hRow =>
          ⟨row, (Table.mem_delete.mp hRow).1, rfl, rfl⟩
      · cases h

theorem StreamWorld.set_self (request : RequestId) (value : StreamRequest) :
    (w.set request value).requests request = value := Function.update_self _ _ _

theorem StreamWorld.set_other {request other : RequestId} (h : other ≠ request)
    (value : StreamRequest) : (w.set request value).requests other = w.requests other :=
  Function.update_of_ne h _ _

theorem loop_eq_claiming {claim claim' : StreamClaim}
    (h : claim.loop maxStreams = .claiming claim') : claim' = claim ∧ claim.slot < maxStreams := by
  unfold StreamClaim.loop at h
  split at h
  · exact ⟨(StreamRequest.claiming.inj h).symm, ‹_›⟩
  · cases h

theorem loop_eq_refused {claim claim' : StreamClaim}
    (h : claim.loop maxStreams = .refused claim') : claim' = claim ∧ maxStreams ≤ claim.slot := by
  unfold StreamClaim.loop at h
  split at h
  · cases h
  · exact ⟨(StreamRequest.refused.inj h).symm, Nat.le_of_not_lt ‹_›⟩

/-- A claim in progress after a step was so before, at an earlier slot or the same, or it has
just drawn its owner. -/
theorem claiming_step {action : StreamAction} (h : StreamStep maxStreams w action w') {request : RequestId}
    {claim' : StreamClaim} (hClaim' : w'.requests request = .claiming claim') :
    (∃ claim, w.requests request = .claiming claim ∧ claim'.owner = claim.owner ∧
      claim'.userId = claim.userId ∧ (claim' = claim ∨ claim'.slot < maxStreams)) ∨
    (claim'.owner = w.nextOwner ∧ w'.nextOwner = w.nextOwner + 1 ∧
      w.registered claim'.userId = true ∧ claim'.slot < maxStreams ∧
      ∀ other, other ≠ request → w'.requests other = w.requests other) := by
  have hSame {claim : StreamClaim} (hClaim : w.requests request = .claiming claim)
      (hEq : claim' = claim) : ∃ claim, w.requests request = .claiming claim ∧
        claim'.owner = claim.owner ∧ claim'.userId = claim.userId ∧
        (claim' = claim ∨ claim'.slot < maxStreams) :=
    ⟨claim, hClaim, congrArg _ hEq, congrArg _ hEq, Or.inl hEq⟩
  cases h with
  | tick => exact Or.inl (hSame hClaim' rfl)
  | @begin target userId hUser =>
      by_cases hTarget : request = target
      · subst hTarget
        rw [StreamWorld.set_self] at hClaim'
        obtain ⟨rfl, hLt⟩ := loop_eq_claiming hClaim'
        exact Or.inr ⟨rfl, rfl, hUser, hLt, fun other hOther => StreamWorld.set_other hOther _⟩
      · rw [StreamWorld.set_other hTarget] at hClaim'
        exact Or.inl (hSame hClaim' rfl)
  | @taken target claim slots hClaim _ =>
      by_cases hTarget : request = target
      · subst hTarget
        rw [StreamWorld.set_self] at hClaim'
        cases hClaim'
      · rw [StreamWorld.set_other hTarget] at hClaim'
        exact Or.inl (hSame hClaim' rfl)
  | @occupied target claim hClaim _ =>
      by_cases hTarget : request = target
      · subst hTarget
        rw [StreamWorld.set_self] at hClaim'
        obtain ⟨rfl, hLt⟩ := loop_eq_claiming hClaim'
        exact Or.inl ⟨claim, hClaim, rfl, rfl, Or.inr hLt⟩
      · rw [StreamWorld.set_other hTarget] at hClaim'
        exact Or.inl (hSame hClaim' rfl)
  | held => exact Or.inl (hSame hClaim' rfl)

/-- A row after a step was there before, or a claim has just put its owner into its slot. -/
theorem slots_step {action : StreamAction} (h : StreamStep maxStreams w action w')
    {row : ScanStreamSlot}
    (hRow : row ∈ w'.slots) :
    (∃ old ∈ w.slots, (Keyed.key row : UserId × Nat) = Keyed.key old ∧ row.owner = old.owner) ∨
    ∃ request claim, w.requests request = .claiming claim ∧ row = claim.row ∧
      w'.requests request = .claimed claim.lease := by
  cases h with
  | tick => exact Or.inl (kept_refl _ row hRow)
  | begin => exact Or.inl (kept_refl _ row hRow)
  | @taken request claim slots hClaim hTaken =>
      rcases (StreamClaim.mem_attempt hTaken).mp hRow with rfl | ⟨hOld, -⟩
      · exact Or.inr ⟨request, claim, hClaim, rfl, StreamWorld.set_self _ _⟩
      · exact Or.inl (kept_refl _ row hOld)
  | occupied => exact Or.inl (kept_refl _ row hRow)
  | held hKept => exact Or.inl (hKept row hRow)

theorem nextOwner_step {action : StreamAction} (h : StreamStep maxStreams w action w') :
    w.nextOwner ≤ w'.nextOwner := by
  cases h <;> first | exact Nat.le_refl _ | exact Nat.le_succ _

theorem registered_step {action : StreamAction} (h : StreamStep maxStreams w action w') :
    w'.registered = w.registered := by
  cases h <;> rfl

end Step

/-! ## Owners -/

section Owners

variable {maxStreams : Nat} {w w' : StreamWorld} {action : StreamAction}

/-- The owner is drawn and claims nothing, and its rows have keys in `P`. -/
structure Confined (owner : LeaseOwner) (P : UserId × Nat → Prop) (w : StreamWorld) : Prop where
  drawn : owner < w.nextOwner
  idle : ∀ request claim, w.requests request = .claiming claim → claim.owner ≠ owner
  rows : ∀ row ∈ w.slots, row.owner = owner → P (Keyed.key row)

theorem confined_step {owner : LeaseOwner} {P : UserId × Nat → Prop}
    (h : StreamStep maxStreams w action w') (hConfined : Confined owner P w) :
    Confined owner P w' where
  drawn := Nat.lt_of_lt_of_le hConfined.drawn (nextOwner_step h)
  idle := by
    intro request claim' hClaim'
    rcases claiming_step h hClaim' with ⟨claim, hClaim, hOwner, -⟩ | ⟨hOwner, -⟩
    · rw [hOwner]
      exact hConfined.idle request claim hClaim
    · rw [hOwner]
      exact Nat.ne_of_gt hConfined.drawn
  rows := by
    intro row hRow hOwner
    rcases slots_step h hRow with ⟨old, hOld, hKey, hSame⟩ | ⟨request, claim, hClaim, rfl, -⟩
    · rw [hKey]
      exact hConfined.rows old hOld (hSame ▸ hOwner)
    · exact absurd hOwner (hConfined.idle request claim hClaim)

structure StreamInv (maxStreams : Nat) (w : StreamWorld) : Prop where
  slot_lt : ∀ row ∈ w.slots, row.slot < maxStreams
  drawn : ∀ row ∈ w.slots, row.owner < w.nextOwner
  /-- An owner has one slot. -/
  once : ∀ row ∈ w.slots, ∀ row' ∈ w.slots, row.owner = row'.owner → row = row'
  claims : ∀ request claim, w.requests request = .claiming claim →
    claim.slot < maxStreams ∧ claim.owner < w.nextOwner ∧ w.registered claim.userId = true ∧
      ∀ row ∈ w.slots, row.owner ≠ claim.owner
  apart : ∀ request claim request' claim', w.requests request = .claiming claim →
    w.requests request' = .claiming claim' → claim.owner = claim'.owner → request = request'

theorem StreamWorld.Initial.inv (h : w.Initial) : StreamInv maxStreams w := by
  have hNone (row : ScanStreamSlot) : row ∉ w.slots := by
    rw [h.noSlots]
    exact List.not_mem_nil
  have hIdle {request : RequestId} {claim : StreamClaim} :
      w.requests request ≠ .claiming claim := by
    rw [h.idle]
    exact StreamRequest.noConfusion
  exact ⟨fun row hRow => absurd hRow (hNone row), fun row hRow => absurd hRow (hNone row),
    fun row hRow => absurd hRow (hNone row), fun _ _ hClaim => absurd hClaim hIdle,
    fun _ _ _ _ hClaim => absurd hClaim hIdle⟩

/-- Two rows with one owner after a step. -/
theorem once_step (h : StreamStep maxStreams w action w') (hInv : StreamInv maxStreams w) :
    ∀ row ∈ w'.slots, ∀ row' ∈ w'.slots, row.owner = row'.owner → row = row' := by
  intro row hRow row' hRow' hOwner
  refine Table.eq_of_key hRow hRow' ?_
  rcases slots_step h hRow with ⟨old, hOld, hKey, hSame⟩ | ⟨request, claim, hClaim, rfl, -⟩
  · rcases slots_step h hRow' with ⟨old', hOld', hKey', hSame'⟩ | ⟨request, claim, hClaim, rfl, -⟩
    · rw [hKey, hKey', hInv.once old hOld old' hOld' (by rw [← hSame, ← hSame', hOwner])]
    · exact absurd (hSame ▸ hOwner) ((hInv.claims request claim hClaim).2.2.2 old hOld)
  · rcases slots_step h hRow' with ⟨old', hOld', hKey', hSame'⟩ | ⟨request', claim', hClaim', rfl, -⟩
    · exact absurd (hSame' ▸ hOwner.symm) ((hInv.claims request claim hClaim).2.2.2 old' hOld')
    · obtain rfl := hInv.apart request claim request' claim' hClaim hClaim' hOwner
      obtain rfl := StreamRequest.claiming.inj (hClaim.symm.trans hClaim')
      rfl

theorem streamInv_step (h : StreamStep maxStreams w action w') (hInv : StreamInv maxStreams w) :
    StreamInv maxStreams w' where
  slot_lt := by
    intro row hRow
    rcases slots_step h hRow with ⟨old, hOld, hKey, -⟩ | ⟨request, claim, hClaim, rfl, -⟩
    · rw [show row.slot = old.slot from congrArg Prod.snd hKey]
      exact hInv.slot_lt old hOld
    · exact (hInv.claims request claim hClaim).1
  drawn := by
    intro row hRow
    refine Nat.lt_of_lt_of_le ?_ (nextOwner_step h)
    rcases slots_step h hRow with ⟨old, hOld, -, hSame⟩ | ⟨request, claim, hClaim, rfl, -⟩
    · rw [hSame]
      exact hInv.drawn old hOld
    · exact (hInv.claims request claim hClaim).2.1
  once := once_step h hInv
  claims := by
    intro request claim' hClaim'
    rw [registered_step h]
    rcases claiming_step h hClaim' with ⟨claim, hClaim, hOwner, hUser, hSlot⟩ |
      ⟨hOwner, hNext, hUser, hSlot, hOthers⟩
    · obtain ⟨hLt, hDrawn, hRegistered, hNoRow⟩ := hInv.claims request claim hClaim
      refine ⟨?_, ?_, hUser ▸ hRegistered, ?_⟩
      · rcases hSlot with rfl | hSlot
        · exact hLt
        · exact hSlot
      · rw [hOwner]
        exact Nat.lt_of_lt_of_le hDrawn (nextOwner_step h)
      · intro row hRow
        rw [hOwner]
        rcases slots_step h hRow with ⟨old, hOld, -, hSame⟩ | ⟨other, claim₁, hOther, rfl, hTaken⟩
        · rw [hSame]
          exact hNoRow old hOld
        · -- the claim that takes a slot is over
          intro hEq
          obtain rfl := hInv.apart other claim₁ request claim hOther hClaim hEq
          rw [hTaken] at hClaim'
          cases hClaim'
    · refine ⟨hSlot, by rw [hOwner, hNext]; exact Nat.lt_succ_self _, hUser, ?_⟩
      intro row hRow
      rw [hOwner]
      rcases slots_step h hRow with ⟨old, hOld, -, hSame⟩ | ⟨other, claim₁, hOther, rfl, -⟩
      · rw [hSame]
        exact Nat.ne_of_lt (hInv.drawn old hOld)
      · exact Nat.ne_of_lt (hInv.claims other claim₁ hOther).2.1
  apart := by
    intro request claim₁ request' claim₂ h₁ h₂ hOwner
    rcases claiming_step h h₁ with ⟨old₁, hOld₁, hSame₁, -⟩ | ⟨hNew₁, -, -, -, hOthers₁⟩
    · rcases claiming_step h h₂ with ⟨old₂, hOld₂, hSame₂, -⟩ | ⟨hNew₂, -, -, -, -⟩
      · exact hInv.apart request old₁ request' old₂ hOld₁ hOld₂ (by rw [← hSame₁, ← hSame₂, hOwner])
      · have hLt := (hInv.claims request old₁ hOld₁).2.1
        rw [← hSame₁, hOwner, hNew₂] at hLt
        exact absurd hLt (Nat.lt_irrefl _)
    · by_contra hNe
      rw [hOthers₁ request' (Ne.symm hNe)] at h₂
      have hLt := (hInv.claims request' claim₂ h₂).2.1
      rw [← hOwner, hNew₁] at hLt
      exact absurd hLt (Nat.lt_irrefl _)

theorem streamInv_of_run {w₀ : StreamWorld} {actions : List StreamAction} (h : w₀.Initial)
    (hRun : run (StreamWorld.step maxStreams) w₀ actions = some w) : StreamInv maxStreams w :=
  invariant (fun _ _ _ hStep => streamInv_step (streamStep_of_step hStep)) h.inv hRun

/-- A table that is keyed by user and slot holds one row for each slot at most. -/
theorem streams_le (hInv : StreamInv maxStreams w) (userId : UserId) :
    w.streams userId ≤ maxStreams := by
  have hKeys : ∀ row ∈ w.slots, (row.userId == userId && decide (w.now < row.leaseExpiresAt)) = true →
      (Keyed.key row : UserId × Nat) ∈ (List.range maxStreams).map (userId, ·) := by
    intro row hRow hOpen
    rw [Bool.and_eq_true, beq_iff_eq] at hOpen
    exact List.mem_map.mpr ⟨row.slot, List.mem_range.mpr (hInv.slot_lt row hRow),
      by rw [← hOpen.1]; rfl⟩
  have hCount := Table.count_le_of_keys hKeys
  rwa [List.length_map, List.length_range] at hCount

/-- An owner whose slot another one has taken has no row from then on. -/
theorem lost_of_takenOver {x y z : StreamWorld} {middle back : List StreamAction}
    (hInv : StreamInv maxStreams x)
    (hMiddle : run (StreamWorld.step maxStreams) x middle = some y)
    (hBack : run (StreamWorld.step maxStreams) y back = some z) {row row' : ScanStreamSlot}
    (hRow : row ∈ x.slots) (hRow' : row' ∈ y.slots)
    (hKey : (Keyed.key row' : UserId × Nat) = Keyed.key row) (hOwner : row'.owner ≠ row.owner) :
    ∀ r ∈ z.slots, r.owner ≠ row.owner := by
  have hOwns : Confined row.owner (· = Keyed.key row) x := by
    refine ⟨hInv.drawn row hRow, fun request claim hClaim hEq => ?_, fun r hr hEq => ?_⟩
    · exact (hInv.claims request claim hClaim).2.2.2 row hRow hEq.symm
    · rw [hInv.once r hr row hRow hEq]
  have hStep {P : UserId × Nat → Prop} : ∀ u a v, StreamWorld.step maxStreams u a = some v →
      Confined row.owner P u → Confined row.owner P v :=
    fun _ _ _ h => confined_step (streamStep_of_step h)
  have hStill := invariant hStep hOwns hMiddle
  have hGone : Confined row.owner (fun _ => False) y := by
    refine ⟨hStill.drawn, hStill.idle, fun r hr hEq => ?_⟩
    obtain rfl := Table.eq_of_key hr hRow' ((hStill.rows r hr hEq).trans hKey.symm)
    exact hOwner hEq
  exact fun r hr hEq => (invariant hStep hGone hBack).rows r hr hEq

end Owners

/-! ## Attempts -/

section Attempts

variable {maxStreams : Nat} {w₀ w : StreamWorld} {actions : List StreamAction}

/-- In the run the request has tried the claim's slot and met an unexpired row there. -/
def Occupied (maxStreams : Nat) (w₀ : StreamWorld) (actions : List StreamAction)
    (request : RequestId) (claim : StreamClaim) : Prop :=
  ∃ u v, StepOf (StreamWorld.step maxStreams) w₀ actions u (.attempt request) v ∧
    u.requests request = .claiming claim ∧ ∃ row ∈ u.slots, row.userId = claim.userId ∧
      row.slot = claim.slot ∧ claim.now < row.leaseExpiresAt

/-- The slots that a claim has behind it were occupied. -/
def Tried (maxStreams : Nat) (w₀ : StreamWorld) (actions : List StreamAction) (w : StreamWorld) :
    Prop :=
  ∀ request claim, w.requests request = .claiming claim ∨ w.requests request = .refused claim →
    (w.requests request = .refused claim → maxStreams ≤ claim.slot) ∧
      ∀ slot < claim.slot, Occupied maxStreams w₀ actions request { claim with slot := slot }

theorem loop_cases {claim claim' : StreamClaim}
    (h : claim.loop maxStreams = .claiming claim' ∨ claim.loop maxStreams = .refused claim') :
    claim' = claim ∧ (claim.loop maxStreams = .refused claim' → maxStreams ≤ claim.slot) := by
  rcases h with h | h
  · exact ⟨(loop_eq_claiming h).1, fun hRefused => (loop_eq_refused hRefused).2⟩
  · exact ⟨(loop_eq_refused h).1, fun hRefused => (loop_eq_refused hRefused).2⟩

theorem tried_step {u v : StreamWorld} {action : StreamAction}
    (hStep : StepOf (StreamWorld.step maxStreams) w₀ actions u action v)
    (hInv : StreamInv maxStreams u) (hTried : Tried maxStreams w₀ actions u) :
    Tried maxStreams w₀ actions v := by
  intro request claim' hClaim'
  cases streamStep_of_step hStep.step with
  | tick => exact hTried request claim' hClaim'
  | @begin target userId hUser =>
      by_cases hTarget : request = target
      · subst hTarget
        rw [StreamWorld.set_self] at hClaim' ⊢
        obtain ⟨rfl, hRefused⟩ := loop_cases hClaim'
        exact ⟨hRefused, fun slot hSlot => absurd hSlot (Nat.not_lt_zero slot)⟩
      · rw [StreamWorld.set_other hTarget] at hClaim' ⊢
        exact hTried request claim' hClaim'
  | @taken target claim slots hClaim _ =>
      by_cases hTarget : request = target
      · subst hTarget
        rw [StreamWorld.set_self] at hClaim'
        rcases hClaim' with hClaim' | hClaim' <;> cases hClaim'
      · rw [StreamWorld.set_other hTarget] at hClaim' ⊢
        exact hTried request claim' hClaim'
  | @occupied target claim hClaim hNone =>
      by_cases hTarget : request = target
      · subst hTarget
        rw [StreamWorld.set_self] at hClaim' ⊢
        obtain ⟨rfl, hRefused⟩ := loop_cases hClaim'
        refine ⟨hRefused, fun slot hSlot => ?_⟩
        rcases Nat.lt_succ_iff_lt_or_eq.mp hSlot with hSlot | rfl
        · exact (hTried request claim (Or.inl hClaim)).2 slot hSlot
        · -- the attempt of this step
          rw [(hInv.claims request claim hClaim).2.2.1] at hNone
          exact ⟨u, _, hStep, hClaim, StreamClaim.occupied_of_attempt hNone⟩
      · rw [StreamWorld.set_other hTarget] at hClaim' ⊢
        exact hTried request claim' hClaim'
  | held => exact hTried request claim' hClaim'

theorem tried_of_run (h : w₀.Initial)
    (hRun : run (StreamWorld.step maxStreams) w₀ actions = some w) :
    Tried maxStreams w₀ actions w := by
  have hBoth : StreamInv maxStreams w ∧ Tried maxStreams w₀ actions w := by
    refine run_induct (I := fun u => StreamInv maxStreams u ∧ Tried maxStreams w₀ actions u)
      ⟨h.inv, ?_⟩ hRun ?_
    · intro request claim hClaim
      rw [h.idle] at hClaim
      rcases hClaim with hClaim | hClaim <;> cases hClaim
    · rintro u a v hStep ⟨hInv, hTried⟩
      exact ⟨streamInv_step (streamStep_of_step hStep.step) hInv, tried_step hStep hInv hTried⟩
  exact hBoth.2

end Attempts

/-! ## The three guarantees -/

/-- A user never has more streams than slots; an owner whose slot another one has taken neither
renews nor releases anything from then on; and a claim is refused only after it has met an
unexpired row in every slot. -/
theorem stream_slots (maxStreams : Nat) {w₀ x y w : StreamWorld}
    {front middle back : List StreamAction} (hInitial : w₀.Initial)
    (hFront : run (StreamWorld.step maxStreams) w₀ front = some x)
    (hMiddle : run (StreamWorld.step maxStreams) x middle = some y)
    (hBack : run (StreamWorld.step maxStreams) y back = some w) :
    (∀ userId, w.streams userId ≤ maxStreams) ∧
    (∀ row ∈ x.slots, ∀ row' ∈ y.slots, row'.userId = row.userId → row'.slot = row.slot →
      row'.owner ≠ row.owner → ∀ lease : ScanStreamLease, lease.owner = row.owner →
        lease.renew w.now w.slots = (w.slots, false) ∧ lease.release w.slots = w.slots) ∧
    (∀ request claim, w.requests request = .refused claim → ∀ slot < maxStreams,
      Occupied maxStreams w₀ (front ++ (middle ++ back)) request { claim with slot := slot }) := by
  have hRun : run (StreamWorld.step maxStreams) w₀ (front ++ (middle ++ back)) = some w :=
    run_append.mpr ⟨x, hFront, run_append.mpr ⟨y, hMiddle, hBack⟩⟩
  refine ⟨streams_le (streamInv_of_run hInitial hRun), ?_, ?_⟩
  · intro row hRow row' hRow' hUser hSlot hOwner lease hLease
    refine ScanStreamLease.lost (fun r hr => ?_) w.now
    rw [hLease]
    exact lost_of_takenOver (streamInv_of_run hInitial hFront) hMiddle hBack hRow hRow'
      (Prod.ext hUser hSlot) hOwner r hr
  · intro request claim hRefused slot hSlot
    obtain ⟨hAll, hOccupied⟩ := tried_of_run hInitial hRun request claim (Or.inr hRefused)
    exact hOccupied slot (Nat.lt_of_lt_of_le hSlot (hAll hRefused))

/-- No stream is open. -/
def noStreams : StreamWorld := ⟨0, .empty, fun _ => true, 0, fun _ => .idle⟩

/-- The state after these actions, with one slot for each user. -/
def streamsAfter (actions : List StreamAction) : StreamWorld :=
  (run (StreamWorld.step 1) noStreams actions).getD noStreams

/-- User 1 opens a stream. -/
def openStream : List StreamAction := [.begin 0 1, .attempt 0]

/-- After its lease another request takes the slot over, and a third one is refused. -/
def takeOver : List StreamAction := [.tick (seconds 46), .begin 1 1, .attempt 1]

def refusedStream : List StreamAction := [.begin 2 1, .attempt 2]

/-- After a run of these actions another request is refused. -/
def afterTakeOver : StreamWorld := streamsAfter ((openStream ++ takeOver) ++ refusedStream)

theorem stream_slots_takeover :
    afterTakeOver.streams 1 ≤ 1 ∧
    (⟨1, 0, 0⟩ : ScanStreamLease).release afterTakeOver.slots = afterTakeOver.slots ∧
    Occupied 1 noStreams (openStream ++ (takeOver ++ refusedStream)) 2
      ⟨1, seconds 46, 2, 0⟩ := by
  have hFront : run (StreamWorld.step 1) noStreams openStream = some (streamsAfter openStream) :=
    run_getD (by decide +kernel)
  have hMiddle : run (StreamWorld.step 1) (streamsAfter openStream) takeOver =
      some (streamsAfter (openStream ++ takeOver)) := run_getD_append (by decide +kernel)
  have hBack : run (StreamWorld.step 1) (streamsAfter (openStream ++ takeOver)) refusedStream =
      some afterTakeOver := run_getD_append (by decide +kernel)
  obtain ⟨hBound, hLost, hRefused⟩ := stream_slots 1 ⟨rfl, fun _ => rfl⟩ hFront hMiddle hBack
  refine ⟨hBound 1, ?_, ?_⟩
  · exact (hLost ⟨1, 0, 0, seconds 45⟩ (Table.mem_def.mpr (by decide +kernel))
      ⟨1, 0, 1, seconds 91⟩ (Table.mem_def.mpr (by decide +kernel)) rfl rfl (by decide)
      ⟨1, 0, 0⟩ rfl).2
  · exact hRefused 2 ⟨1, seconds 46, 2, 1⟩ (by decide +kernel) 0 (by decide)

end SavedOrganizer
