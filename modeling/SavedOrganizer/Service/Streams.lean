import SavedOrganizer.Models

/-!
# Scan status streams

Every open status stream of a user holds one of the user's numbered slots, as a row of
`scan_stream_slots` with a lease. `claim_scan_stream` walks over the slots with one captured
time and one fresh owner; a slot is taken over when its lease has expired, and inserted when
it has no row. Each attempt is a transaction of its own.
-/

namespace SavedOrganizer

def STREAM_LEASE_SECONDS : Nat := 45

/-- `ScanStreamSlot`: durable per-user concurrency slot for scan status streams. -/
structure ScanStreamSlot where
  userId : UserId
  slot : Nat
  owner : LeaseOwner
  leaseExpiresAt : Instant
  deriving DecidableEq, Repr

/-- The primary key. -/
instance : Keyed ScanStreamSlot (UserId × Nat) := ⟨fun row => (row.userId, row.slot)⟩

structure ScanStreamLease where
  userId : UserId
  slot : Nat
  owner : LeaseOwner
  deriving DecidableEq, Repr

/-- The variables of `claim_scan_stream` in its loop. -/
structure StreamClaim where
  userId : UserId
  now : Instant
  owner : LeaseOwner
  slot : Nat
  deriving DecidableEq, Repr

namespace StreamClaim

variable (claim : StreamClaim)

def expiresAt : Instant := claim.now + seconds STREAM_LEASE_SECONDS

/-- The row is in the slot, and its lease has expired. -/
def reclaims (row : ScanStreamSlot) : Bool :=
  row.userId == claim.userId && row.slot == claim.slot && row.leaseExpiresAt ≤ claim.now

def take (row : ScanStreamSlot) : ScanStreamSlot :=
  { row with owner := claim.owner, leaseExpiresAt := claim.expiresAt }

def row : ScanStreamSlot := ⟨claim.userId, claim.slot, claim.owner, claim.expiresAt⟩

def lease : ScanStreamLease := ⟨claim.userId, claim.slot, claim.owner⟩

/-- One round of the loop: the table after the transaction, or `none` on an `IntegrityError`,
which the primary key raises and the reference to the user's account. -/
def attempt (registered : Bool) (slots : Table ScanStreamSlot) : Option (Table ScanStreamSlot) :=
  if slots.count claim.reclaims = 1 then some (slots.update claim.reclaims claim.take)
  else if registered then slots.insert? claim.row
  else none

end StreamClaim

namespace ScanStreamLease

variable (lease : ScanStreamLease)

def names (row : ScanStreamSlot) : Bool :=
  row.userId == lease.userId && row.slot == lease.slot && row.owner == lease.owner

def renews (now : Instant) (row : ScanStreamSlot) : Bool :=
  lease.names row && now < row.leaseExpiresAt

/-- `renew_scan_stream`: the table, and whether the lease was renewed. -/
def renew (now : Instant) (slots : Table ScanStreamSlot) : Table ScanStreamSlot × Bool :=
  (slots.update (lease.renews now) fun row =>
    { row with leaseExpiresAt := now + seconds STREAM_LEASE_SECONDS },
    slots.count (lease.renews now) == 1)

/-- `release_scan_stream`. -/
def release (slots : Table ScanStreamSlot) : Table ScanStreamSlot := slots.delete lease.names

end ScanStreamLease

/-! ## What the statements do -/

section Spec

variable {claim : StreamClaim} {lease : ScanStreamLease} {slots slots' : Table ScanStreamSlot}
  {registered : Bool} {now : Instant}

theorem StreamClaim.reclaims_iff {row : ScanStreamSlot} : claim.reclaims row = true ↔
    (Keyed.key row : UserId × Nat) = (claim.userId, claim.slot) ∧ row.leaseExpiresAt ≤ claim.now := by
  simp only [StreamClaim.reclaims, Keyed.key, Bool.and_eq_true, beq_iff_eq, decide_eq_true_eq,
    Prod.mk.injEq]

theorem ScanStreamLease.names_iff {row : ScanStreamSlot} : lease.names row = true ↔
    (Keyed.key row : UserId × Nat) = (lease.userId, lease.slot) ∧ row.owner = lease.owner := by
  simp only [ScanStreamLease.names, Keyed.key, Bool.and_eq_true, beq_iff_eq, Prod.mk.injEq]

/-- A failed attempt has met a row of its slot that had not expired. -/
theorem StreamClaim.occupied_of_attempt (h : claim.attempt true slots = none) :
    ∃ row ∈ slots, row.userId = claim.userId ∧ row.slot = claim.slot ∧
      claim.now < row.leaseExpiresAt := by
  unfold attempt at h
  split at h
  · cases h
  · rename_i hCount
    rw [if_pos rfl, Table.insert?, dite_eq_right_iff] at h
    have hSome : slots.find? (Keyed.key claim.row : UserId × Nat) ≠ none := fun hNone => by
      cases h hNone
    obtain ⟨row, hRow⟩ := Option.ne_none_iff_exists'.mp hSome
    have hKey : (Keyed.key row : UserId × Nat) = (claim.userId, claim.slot) :=
      Table.key_of_find? hRow
    refine ⟨row, Table.mem_of_find? hRow, congrArg Prod.fst hKey, congrArg Prod.snd hKey, ?_⟩
    by_contra hExpired
    refine hCount ?_
    rw [Table.count_of_key (k := (claim.userId, claim.slot))
      fun r _ hr => (reclaims_iff.mp hr).1, ← hKey, Table.find?_key (Table.mem_of_find? hRow),
      Option.any_some, if_pos (reclaims_iff.mpr ⟨hKey, Nat.le_of_not_lt hExpired⟩)]

/-- An attempt that succeeds leaves the rows of the other slots as they are and puts the
owner of the claim into its slot. -/
theorem StreamClaim.mem_attempt (h : claim.attempt registered slots = some slots')
    {row : ScanStreamSlot} : row ∈ slots' ↔ row = claim.row ∨
      (row ∈ slots ∧ (Keyed.key row : UserId × Nat) ≠ (claim.userId, claim.slot)) := by
  unfold attempt at h
  split at h
  · rename_i hCount
    cases h
    have hFound : ∃ old ∈ slots, claim.reclaims old = true := by
      by_contra hNone
      push Not at hNone
      rw [Table.count_eq_zero.mpr fun r hr => Bool.eq_false_iff.mpr (hNone r hr)] at hCount
      cases hCount
    obtain ⟨old, hOld, hReclaims⟩ := hFound
    have hOldKey := (reclaims_iff.mp hReclaims).1
    have hTake : claim.take old = claim.row := by
      obtain ⟨hUser, hSlot⟩ := Prod.mk.inj hOldKey
      unfold take StreamClaim.row
      rw [hUser, hSlot]
    rw [Table.mem_update]
    constructor
    · rintro ⟨s, hs, rfl⟩
      by_cases hKey : (Keyed.key s : UserId × Nat) = (claim.userId, claim.slot)
      · obtain rfl := Table.eq_of_key hs hOld (hKey.trans hOldKey.symm)
        rw [if_pos hReclaims]
        exact Or.inl hTake
      · have hNot : ¬ claim.reclaims s = true := fun hs => hKey (reclaims_iff.mp hs).1
        rw [if_neg hNot]
        exact Or.inr ⟨hs, hKey⟩
    · rintro (rfl | ⟨hs, hKey⟩)
      · exact ⟨old, hOld, by rw [if_pos hReclaims, hTake]⟩
      · exact ⟨row, hs, if_neg fun hs => hKey (reclaims_iff.mp hs).1⟩
  · split at h
    · obtain ⟨hNone, rfl⟩ := Table.insert?_eq_some.mp h
      rw [Table.mem_insert, or_comm]
      refine or_congr_right (and_iff_left_of_imp fun hRow => ?_).symm
      exact Table.find?_eq_none.mp hNone row hRow
    · cases h

theorem ScanStreamLease.mem_renew {row : ScanStreamSlot} (h : row ∈ (lease.renew now slots).1) :
    ∃ old ∈ slots, (Keyed.key row : UserId × Nat) = Keyed.key old ∧ row.owner = old.owner := by
  rw [renew, Table.mem_update] at h
  obtain ⟨old, hOld, rfl⟩ := h
  refine ⟨old, hOld, ?_⟩
  split <;> exact ⟨rfl, rfl⟩

/-- A lease whose owner has no row renews nothing and releases nothing. -/
theorem ScanStreamLease.lost (h : ∀ row ∈ slots, row.owner ≠ lease.owner) (now : Instant) :
    lease.renew now slots = (slots, false) ∧ lease.release slots = slots := by
  have hNames (row : ScanStreamSlot) (hRow : row ∈ slots) : lease.names row = false :=
    Bool.eq_false_iff.mpr fun hs => h row hRow (names_iff.mp hs).2
  have hRenews (row : ScanStreamSlot) (hRow : row ∈ slots) : lease.renews now row = false := by
    rw [renews, hNames row hRow, Bool.false_and]
  refine ⟨?_, Table.delete_eq_self hNames⟩
  rw [renew, Table.update_eq_self hRenews, Table.count_eq_zero.mpr hRenews]
  rfl

end Spec

end SavedOrganizer
