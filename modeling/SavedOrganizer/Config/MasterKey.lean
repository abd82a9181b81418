import Mathlib.Logic.Function.Basic
import SavedOrganizer.Library.Transition
import SavedOrganizer.Models

/-!
# The key file

Without a configured key every process of a deployment takes the master key from one file, and the
first of them makes it (`_load_master_key`, `_private_regular_file`). The API processes and the
workers start at the same time, and nothing orders what they do to the file: one step here is one
system call of one process.

`KeyWorld` is the file and where each process is. A process may die at any point.
-/

namespace SavedOrganizer

open Python Transition

def PRIVATE_FILE_MODE : Nat := 0o600

/-- The characters a key in a file has at least. -/
def MIN_SECRET_LENGTH : Nat := 43

/-- What stands at the path of the key. The content of a regular file is a text: the processes
write nothing else, and a file with bytes that are not UTF-8 in it fails every one of them. -/
inductive KeyFile
  | absent
  /-- A directory, a symbolic link or the like. -/
  | irregular
  | regular (mode : Nat) (content : Text)
  deriving DecidableEq, Repr

/-- What `secrets.token_urlsafe(48)` returns. -/
structure GeneratedKey where
  text : Text
  length_eq : text.length = 64
  urlsafe : ∀ c ∈ text, c.isAlphanum ∨ c = '-' ∨ c = '_'

/-- Where a process is in `_load_master_key`. -/
inductive KeyPhase
  | start
  /-- `lstat` has found a regular file, before or after the `FileExistsError` of `os.open`. -/
  | found (first : Bool)
  /-- Its mode has been set. -/
  | secured (first : Bool)
  /-- There was no file, and a key has been generated. -/
  | generated (key : GeneratedKey)
  /-- The `FileExistsError` of `os.open`. -/
  | overtaken
  /-- The file has been created. -/
  | created (key : GeneratedKey)
  | written (key : GeneratedKey)
  | loaded (key : Text)
  | failed (message : String)

structure KeyWorld where
  file : KeyFile
  phase : Nat → KeyPhase

inductive KeyAction
  /-- The next call of a process; the key is the one it would generate. -/
  | call (process : Nat) (fresh : GeneratedKey)
  | die (process : Nat)

/-- What follows a `FileNotFoundError` of `_private_regular_file`: only the first call of it is in
a `try`. -/
def missingKey (first : Bool) (fresh : GeneratedKey) : KeyPhase :=
  if first then .generated fresh else .failed "FileNotFoundError"

/-- `_private_regular_file` up to `lstat`. -/
def statKey (path : String) (first : Bool) (fresh : GeneratedKey) : KeyFile → KeyPhase
  | .absent => missingKey first fresh
  | .irregular => .failed ("Secret path is not a regular file: " ++ path)
  | .regular _ _ => .found first

/-- The file after a call, and where the process goes on; none when it has returned. -/
def KeyPhase.call (path : String) (umask : Nat) (file : KeyFile) (fresh : GeneratedKey) :
    KeyPhase → Option (KeyFile × KeyPhase)
  | start => some (file, statKey path true fresh file)
  | found first => match file with
    | .regular _ content => some (.regular PRIVATE_FILE_MODE content, .secured first)
    | .absent => some (file, missingKey first fresh)
    | .irregular => some (file, .failed "OSError")
  | secured first => match file with
    | .regular _ content =>
        if (strip content).length < MIN_SECRET_LENGTH then
          some (file, .failed ("Secret in " ++ path ++ " must contain at least 43 characters."))
        else some (file, .loaded (strip content))
    | .absent => some (file, missingKey first fresh)
    | .irregular => some (file, .failed "OSError")
  | generated key => match file with
    | .absent => some (.regular (PRIVATE_FILE_MODE &&& (0o777 ^^^ umask)) [], .created key)
    | _ => some (file, .overtaken)
  | overtaken => some (file, statKey path false fresh file)
  | created key => match file with
    | .regular mode content =>
        some (.regular mode (key.text ++ '\n' :: content.drop (key.text.length + 1)), .written key)
    | _ => some (file, .written key)
  | written key => match file with
    | .regular _ content => some (.regular PRIVATE_FILE_MODE content, .loaded key.text)
    | _ => some (file, .failed "FileNotFoundError")
  | loaded _ => none
  | failed _ => none

namespace KeyWorld

/-- The world after a process has gone on. -/
def goOn (w : KeyWorld) (process : Nat) (next : KeyFile × KeyPhase) : KeyWorld :=
  ⟨next.1, Function.update w.phase process next.2⟩

def step (path : String) (umask : Nat) (w : KeyWorld) : KeyAction → Option KeyWorld
  | .call process fresh =>
      ((w.phase process).call path umask w.file fresh).map (w.goOn process)
  | .die process =>
      match w.phase process with
      | .loaded _ => none
      | _ => some (w.goOn process (w.file, .failed ""))

/-- No process has begun. -/
def Initial (w : KeyWorld) : Prop := ∀ process, w.phase process = .start

end KeyWorld

/-! ## What a process knows about the file -/

/-- The file holds the key and nobody but the owner can read it. -/
def KeyFile.Holds (key : Text) (file : KeyFile) : Prop :=
  MIN_SECRET_LENGTH ≤ key.length ∧
    ∃ content, file = .regular PRIVATE_FILE_MODE content ∧ strip content = key

/-- What the file is while a process is in a phase. -/
def KeyPhase.Knows (file : KeyFile) : KeyPhase → Prop
  | secured _ => ∃ content, file = .regular PRIVATE_FILE_MODE content
  | created _ => ∃ mode, file = .regular mode []
  | written key => MIN_SECRET_LENGTH ≤ key.text.length ∧
      ∃ mode content, file = .regular mode content ∧ strip content = key.text
  | loaded key => file.Holds key
  | _ => True

/-- The process has created the file and not written it. -/
def KeyPhase.creating : KeyPhase → Prop
  | created _ => True
  | _ => False

structure KeyInvariant (w : KeyWorld) : Prop where
  knows : ∀ process, (w.phase process).Knows w.file
  oneCreator : ∀ p q, (w.phase p).creating → (w.phase q).creating → p = q

theorem GeneratedKey.not_space {key : GeneratedKey} {c : Char} (h : c ∈ key.text) :
    isSpace c = false := by
  have hVisible : 33 ≤ c.toNat ∧ c.toNat < 127 := by
    rcases key.urlsafe c h with hAlnum | rfl | rfl
    · delta Char.isAlphanum Char.isAlpha Char.isUpper Char.isLower Char.isDigit at hAlnum
      simp only [Bool.or_eq_true, Bool.and_eq_true, decide_eq_true_eq, UInt32.le_iff_toNat_le,
        ge_iff_le] at hAlnum
      change ((65 ≤ c.toNat ∧ c.toNat ≤ 90) ∨ (97 ≤ c.toNat ∧ c.toNat ≤ 122)) ∨
        (48 ≤ c.toNat ∧ c.toNat ≤ 57) at hAlnum
      omega
    · decide
    · decide
  simp only [isSpace, Bool.or_eq_false_iff, Bool.and_eq_false_iff, decide_eq_false_iff_not,
    beq_eq_false_iff_ne]
  omega

/-- The line that is written is read as the key. -/
theorem GeneratedKey.strip_line (key : GeneratedKey) : strip (key.text ++ ['\n']) = key.text := by
  have hReverse : key.text.reverse.dropWhile isSpace = key.text.reverse :=
    dropWhile_eq_self fun c hc => key.not_space (List.mem_reverse.mp hc)
  obtain ⟨c, rest, hText⟩ : ∃ c rest, key.text = c :: rest :=
    List.exists_cons_of_length_pos (by rw [key.length_eq]; decide)
  have hFirst : isSpace c = false := key.not_space (by rw [hText]; exact List.mem_cons_self)
  have hStart : (key.text ++ ['\n']).dropWhile isSpace = key.text ++ ['\n'] := by
    rw [hText, List.cons_append, List.dropWhile_cons_of_neg (by simp [hFirst])]
  have hBreak : isSpace '\n' = true := by decide
  rw [strip, hStart, List.reverse_append, List.reverse_singleton, List.singleton_append,
    List.dropWhile_cons_of_pos hBreak, hReverse, List.reverse_reverse]

section Steps

variable {path : String} {umask : Nat} {w w' : KeyWorld} {a : KeyAction} {file file' : KeyFile}
  {phase phase' other : KeyPhase} {fresh : GeneratedKey}

/-- An empty line holds no key. -/
theorem strip_nil_ne {key : Text} (hLength : MIN_SECRET_LENGTH ≤ key.length) : strip [] ≠ key := by
  rintro rfl
  cases hLength

/-- Nobody knows anything of a file that is not there. -/
theorem knows_of_absent (h : other.Knows .absent) (file : KeyFile) : other.Knows file := by
  cases other with
  | secured first => obtain ⟨_, hFile⟩ := h; cases hFile
  | created key => obtain ⟨_, hFile⟩ := h; cases hFile
  | written key => obtain ⟨_, _, _, hFile, _⟩ := h; cases hFile
  | loaded key => obtain ⟨_, _, hFile, _⟩ := h; cases hFile
  | start => exact trivial
  | found first => exact trivial
  | generated key => exact trivial
  | overtaken => exact trivial
  | failed message => exact trivial

/-- Setting the mode keeps what is known. -/
theorem knows_secured {mode : Nat} {content : Text} (h : other.Knows (.regular mode content)) :
    other.Knows (.regular PRIVATE_FILE_MODE content) := by
  cases other with
  | secured first => exact ⟨content, rfl⟩
  | created key =>
      obtain ⟨_, hFile⟩ := h
      cases hFile
      exact ⟨_, rfl⟩
  | written key =>
      obtain ⟨hLength, _, _, hFile, hKey⟩ := h
      cases hFile
      exact ⟨hLength, _, _, rfl, hKey⟩
  | loaded key =>
      obtain ⟨hLength, _, hFile, hKey⟩ := h
      cases hFile
      exact ⟨hLength, _, rfl, hKey⟩
  | start => exact trivial
  | found first => exact trivial
  | generated key => exact trivial
  | overtaken => exact trivial
  | failed message => exact trivial

/-- Only the creator can know that the file is empty, and nobody has taken a key from it. -/
theorem knows_written {mode : Nat} {line : Text} (h : other.Knows (.regular mode []))
    (hOther : ¬ other.creating) : other.Knows (.regular mode line) := by
  cases other with
  | secured first =>
      obtain ⟨_, hFile⟩ := h
      cases hFile
      exact ⟨line, rfl⟩
  | created key => exact absurd trivial hOther
  | written key =>
      obtain ⟨hLength, _, _, hFile, hKey⟩ := h
      cases hFile
      exact absurd hKey (strip_nil_ne hLength)
  | loaded key =>
      obtain ⟨hLength, _, hFile, hKey⟩ := h
      cases hFile
      exact absurd hKey (strip_nil_ne hLength)
  | start => exact trivial
  | found first => exact trivial
  | generated key => exact trivial
  | overtaken => exact trivial
  | failed message => exact trivial

theorem missingKey_knows (first : Bool) : (missingKey first fresh).Knows file := by
  cases first <;> exact trivial

theorem missingKey_creating (first : Bool) : ¬ (missingKey first fresh).creating := by
  cases first <;> exact not_false

theorem statKey_knows (first : Bool) : (statKey path first fresh file).Knows file := by
  cases file with
  | absent => exact missingKey_knows first
  | irregular => exact trivial
  | regular mode content => exact trivial

theorem statKey_creating (first : Bool) : ¬ (statKey path first fresh file).creating := by
  cases file with
  | absent => exact missingKey_creating first
  | irregular => exact not_false
  | regular mode content => exact not_false

/-- A call keeps what its process and the others know, and only one that has found nothing at the
path makes a creator. -/
theorem call_spec (h : phase.call path umask file fresh = some (file', phase'))
    (hKnows : phase.Knows file) :
    phase'.Knows file' ∧
      (∀ other : KeyPhase, other.Knows file → ¬ (phase.creating ∧ other.creating) →
        other.Knows file') ∧
      (phase'.creating → file = .absent) := by
  cases phase with
  | start =>
      cases h
      exact ⟨statKey_knows _, fun other hOther _ => hOther,
        fun hCreating => absurd hCreating (statKey_creating _)⟩
  | found first =>
      cases file with
      | regular mode content =>
          cases h
          exact ⟨⟨content, rfl⟩, fun other hOther _ => knows_secured hOther, False.elim⟩
      | absent =>
          cases h
          exact ⟨missingKey_knows first, fun other hOther _ => hOther,
            fun hCreating => absurd hCreating (missingKey_creating first)⟩
      | irregular => cases h; exact ⟨trivial, fun other hOther _ => hOther, False.elim⟩
  | secured first =>
      obtain ⟨content, rfl⟩ := hKnows
      simp only [KeyPhase.call] at h
      split at h
      · cases h
        exact ⟨trivial, fun other hOther _ => hOther, False.elim⟩
      · rename_i hLength
        cases h
        exact ⟨⟨Nat.le_of_not_lt hLength, content, rfl, rfl⟩, fun other hOther _ => hOther,
          False.elim⟩
  | generated key =>
      cases file with
      | absent =>
          cases h
          exact ⟨⟨_, rfl⟩, fun other hOther _ => knows_of_absent hOther _, fun _ => rfl⟩
      | regular mode content => cases h; exact ⟨trivial, fun other hOther _ => hOther, False.elim⟩
      | irregular => cases h; exact ⟨trivial, fun other hOther _ => hOther, False.elim⟩
  | overtaken =>
      cases h
      exact ⟨statKey_knows _, fun other hOther _ => hOther,
        fun hCreating => absurd hCreating (statKey_creating _)⟩
  | created key =>
      obtain ⟨mode, rfl⟩ := hKnows
      cases h
      refine ⟨⟨?_, mode, _, rfl, ?_⟩, fun other hOther hNot => ?_, False.elim⟩
      · rw [key.length_eq]
        decide
      · rw [List.drop_nil]
        exact key.strip_line
      · exact knows_written hOther fun hCreating => hNot ⟨trivial, hCreating⟩
  | written key =>
      obtain ⟨hLength, mode, content, rfl, hKey⟩ := hKnows
      cases h
      exact ⟨⟨hLength, content, rfl, hKey⟩, fun other hOther _ => knows_secured hOther, False.elim⟩
  | loaded key => cases h
  | failed message => cases h

theorem not_creating_of_absent (h : phase.Knows .absent) : ¬ phase.creating := by
  cases phase with
  | created key => obtain ⟨_, hFile⟩ := h; cases hFile
  | _ => exact not_false

theorem goOn_self (process : Nat) (next : KeyFile × KeyPhase) :
    (w.goOn process next).phase process = next.2 := Function.update_self _ _ _

theorem goOn_of_ne {p process : Nat} (next : KeyFile × KeyPhase) (h : p ≠ process) :
    (w.goOn process next).phase p = w.phase p := Function.update_of_ne h _ _

theorem keyInvariant_goOn {process : Nat} {next : KeyFile × KeyPhase} (h : KeyInvariant w)
    (hSelf : next.2.Knows next.1) (hOthers : ∀ p, p ≠ process → (w.phase p).Knows next.1)
    (hAlone : next.2.creating → ∀ p, ¬ (w.phase p).creating) :
    KeyInvariant (w.goOn process next) := by
  constructor
  · intro p
    by_cases hp : p = process
    · subst hp
      rw [goOn_self]
      exact hSelf
    · rw [goOn_of_ne next hp]
      exact hOthers p hp
  · intro p q hCreating hCreating'
    by_cases hp : p = process <;> by_cases hq : q = process
    · rw [hp, hq]
    · rw [hp, goOn_self] at hCreating
      rw [goOn_of_ne next hq] at hCreating'
      exact absurd hCreating' (hAlone hCreating q)
    · rw [hq, goOn_self] at hCreating'
      rw [goOn_of_ne next hp] at hCreating
      exact absurd hCreating (hAlone hCreating' p)
    · rw [goOn_of_ne next hp] at hCreating
      rw [goOn_of_ne next hq] at hCreating'
      exact h.oneCreator p q hCreating hCreating'

theorem keyInvariant_step (hStep : w.step path umask a = some w') (h : KeyInvariant w) :
    KeyInvariant w' := by
  cases a with
  | call process fresh =>
      obtain ⟨⟨file', phase'⟩, hCall, rfl⟩ := Option.map_eq_some_iff.mp hStep
      obtain ⟨hSelf, hOthers, hCreator⟩ := call_spec hCall (h.knows process)
      refine keyInvariant_goOn h hSelf ?_ ?_
      · intro p hp
        exact hOthers _ (h.knows p) fun hBoth => hp (h.oneCreator p process hBoth.2 hBoth.1)
      · intro hCreating p
        exact not_creating_of_absent (hCreator hCreating ▸ h.knows p)
  | die process =>
      have hDead : w' = w.goOn process (w.file, .failed "") := by
        simp only [KeyWorld.step] at hStep
        split at hStep
        · cases hStep
        · exact (Option.some.inj hStep).symm
      subst hDead
      exact keyInvariant_goOn h trivial (fun p _ => h.knows p) False.elim

/-- However the processes of a deployment start and die, those that get a key get the same one; it
is in the file, which nobody but the owner can read, and has at least 43 characters. -/
theorem master_key_agreed {as : List KeyAction} (hStart : w.Initial)
    (hRun : run (KeyWorld.step path umask) w as = some w') :
    (∀ p key, w'.phase p = .loaded key → w'.file.Holds key) ∧
      ∀ p q key key', w'.phase p = .loaded key → w'.phase q = .loaded key' → key = key' := by
  have hInitial : KeyInvariant w := by
    constructor
    · intro p
      rw [hStart p]
      exact trivial
    · intro p q hp
      rw [hStart p] at hp
      exact hp.elim
  have hEnd : KeyInvariant w' := Transition.invariant (fun _ _ _ h hu => keyInvariant_step h hu)
    hInitial hRun
  have hHolds (p : Nat) (key : Text) (hp : w'.phase p = .loaded key) : w'.file.Holds key := by
    have hKnows := hEnd.knows p
    rwa [hp] at hKnows
  refine ⟨hHolds, fun p q key key' hp hq => ?_⟩
  obtain ⟨-, content, hFile, rfl⟩ := hHolds p key hp
  obtain ⟨-, content', hFile', rfl⟩ := hHolds q key' hq
  rw [hFile] at hFile'
  cases hFile'
  rfl

end Steps

/-! ### Two processes that both find nothing -/

def keyOf (c : Char) (h : c.isAlphanum = true) : GeneratedKey where
  text := List.replicate 64 c
  length_eq := List.length_replicate
  urlsafe _ hc := Or.inl (List.eq_of_mem_replicate hc ▸ h)

def keyA : GeneratedKey := keyOf 'a' rfl

def keyB : GeneratedKey := keyOf 'b' rfl

def noKeyWorld : KeyWorld := ⟨.absent, fun _ => .start⟩

def bothStart : List KeyAction :=
  [.call 1 keyA, .call 2 keyB, .call 2 keyB, .call 1 keyA, .call 2 keyB, .call 1 keyA, .call 1 keyA,
    .call 1 keyA, .call 2 keyB]

def sharedKeyWorld : KeyWorld := (run (KeyWorld.step "master-key" 0) noKeyWorld bothStart).getD noKeyWorld

theorem master_key_agreed_both : sharedKeyWorld.phase 1 = .loaded keyB.text ∧
    sharedKeyWorld.phase 2 = .loaded keyB.text ∧ sharedKeyWorld.file.Holds keyB.text := by
  have hRun : run (KeyWorld.step "master-key" 0) noKeyWorld bothStart = some sharedKeyWorld := rfl
  have hSecond : sharedKeyWorld.phase 2 = .loaded keyB.text := rfl
  obtain ⟨hHolds, hAgreed⟩ := master_key_agreed (fun _ => rfl) hRun
  have hFirst : ∃ key, sharedKeyWorld.phase 1 = .loaded key := ⟨_, rfl⟩
  obtain ⟨key, hFirst⟩ := hFirst
  obtain rfl := hAgreed 1 2 _ _ hFirst hSecond
  exact ⟨hFirst, hSecond, hHolds 2 _ hSecond⟩

end SavedOrganizer
