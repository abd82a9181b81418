import Mathlib.Algebra.Group.Nat.Defs
import SavedOrganizer.Library.Base64
import SavedOrganizer.System.WellFormed

/-!
# Encrypted columns

`encrypt_secret` and `decrypt_secret`: a token is a version, a dot and the URL-safe encoding of a
random nonce and what AES-GCM makes of the text under it. The tenant and the purpose of the column
are authenticated with it. The block cipher is not part of the repository: `AesGcm` stands for it,
and `AesGcm.Lawful` is what its documentation says.

With that the tokens are a `Vault` whose ciphertexts open to what was encrypted, and what a run of
the system has written into a column opens nowhere else (`secrets_open_in_place`).
-/

namespace SavedOrganizer

open Transition

/-- `AESGCM(key)`: nonce, text and associated data. `decrypt` is `none` for `InvalidTag`. -/
structure AesGcm where
  encrypt : Bytes → Bytes → Bytes → Bytes
  decrypt : Bytes → Bytes → Bytes → Option Bytes

/-- The ciphertext ends in a tag, and is refused under other associated data. -/
structure AesGcm.Lawful (aes : AesGcm) : Prop where
  encrypt_ne : ∀ nonce text context, aes.encrypt nonce text context ≠ []
  decrypt_encrypt : ∀ nonce text context,
    aes.decrypt nonce (aes.encrypt nonce text context) context = some text
  invalidTag : ∀ nonce text context other, other ≠ context →
    aes.decrypt nonce (aes.encrypt nonce text context) other = none

def TOKEN_VERSION : Text := "v1".toList
def NONCE_SIZE : Nat := 12

/-! ## `urlsafe_b64encode` and `urlsafe_b64decode` -/

namespace Python

def base64Digits : List Char :=
  "ABCDEFGHIJKLMNOPQRSTUVWXYZabcdefghijklmnopqrstuvwxyz0123456789+/".toList

/-- `translate(bytes.maketrans(b'+/', b'-_'))`. -/
def toUrlsafe (c : Char) : Char := if c = '+' then '-' else if c = '/' then '_' else c

/-- `translate(bytes.maketrans(b'-_', b'+/'))`. -/
def fromUrlsafe (c : Char) : Char := if c = '-' then '+' else if c = '_' then '/' else c

/-- Both spellings of the last two digits are read. -/
def urlsafe : Base64.Alphabet where
  digit s := toUrlsafe (base64Digits.getD s.val 'A')
  value c := (base64Digits.idxOf? (fromUrlsafe c)).map Base64.sextet
  value_digit := by decide
  value_pad := by decide

theorem digit_ascii : ∀ s, (urlsafe.digit s).toNat < 128 := by decide +kernel

/-- `value.encode("utf-8")`. -/
def utf8 (value : String) : Bytes := value.toByteArray.data.toList

theorem utf8_injective : Function.Injective utf8 := by
  intro value value' h
  rw [← String.toByteArray_inj]
  exact ByteArray.ext (Array.toList_inj.mp h)

/-- What `bytes.decode("utf-8")` makes of an encoded text. -/
theorem fromUTF8?_utf8 (value : String) : String.fromUTF8? (utf8 value).toByteArray = some value := by
  have hBytes : (utf8 value).toByteArray = value.toByteArray :=
    ByteArray.ext (Array.toList_inj.mp (List.toList_data_toByteArray))
  rw [hBytes, String.fromUTF8?, dif_pos value.isValidUTF8]
  rfl

end Python

/-! ## Tokens -/

inductive SecretError
  /-- `SecretDecryptionError`. -/
  | decryption
  /-- The `UnicodeDecodeError` of the last line. -/
  | unicodeDecode
  deriving DecidableEq, Repr

section Tokens

variable (aes : AesGcm)

/-- `encrypt_secret`, with what `os.urandom` has returned. -/
def encryptSecret (nonce : Bytes) (value context : String) : Text :=
  TOKEN_VERSION ++ '.' ::
    Base64.encode Python.urlsafe (nonce ++ aes.encrypt nonce (Python.utf8 value) (Python.utf8 context))

/-- The body of the `try`. -/
def openToken (value : Text) (context : String) : Option Bytes :=
  match value.dropWhile (· != '.') with
  | [] => none
  | _ :: encoded =>
      if value.takeWhile (· != '.') ≠ TOKEN_VERSION then none
      else if ¬ encoded.all (·.toNat < 128) then none
      else match Base64.decode Python.urlsafe encoded with
        | none => none
        | some payload =>
            let nonce := payload.take NONCE_SIZE
            let ciphertext := payload.drop NONCE_SIZE
            if nonce.length ≠ NONCE_SIZE ∨ ciphertext = [] then none
            else aes.decrypt nonce ciphertext (Python.utf8 context)

/-- `decrypt_secret`. -/
def decryptSecret (value : Text) (context : String) : Except SecretError String :=
  match openToken aes value context with
  | none => .error .decryption
  | some plaintext =>
      match String.fromUTF8? plaintext.toByteArray with
      | none => .error .unicodeDecode
      | some text => .ok text

variable {aes}

theorem openToken_encryptSecret (hAes : aes.Lawful) {nonce : Bytes} (hNonce : nonce.length = NONCE_SIZE)
    (value context other : String) :
    openToken aes (encryptSecret aes nonce value context) other =
      aes.decrypt nonce (aes.encrypt nonce (Python.utf8 value) (Python.utf8 context))
        (Python.utf8 other) := by
  have hAscii : (Base64.encode Python.urlsafe
      (nonce ++ aes.encrypt nonce (Python.utf8 value) (Python.utf8 context))).all
        (·.toNat < 128) = true := by
    rw [List.all_eq_true]
    intro c hc
    rcases Base64.mem_encode hc with ⟨s, rfl⟩ | rfl
    · exact decide_eq_true (Python.digit_ascii s)
    · decide
  have hCut : (encryptSecret aes nonce value context).dropWhile (· != '.') = '.' ::
      Base64.encode Python.urlsafe
        (nonce ++ aes.encrypt nonce (Python.utf8 value) (Python.utf8 context)) := rfl
  have hVersion : (encryptSecret aes nonce value context).takeWhile (· != '.') = TOKEN_VERSION := rfl
  have hTake : ∀ rest : Bytes, (nonce ++ rest).take NONCE_SIZE = nonce := fun rest =>
    List.take_left' hNonce
  have hDrop : ∀ rest : Bytes, (nonce ++ rest).drop NONCE_SIZE = rest := fun rest =>
    List.drop_left' hNonce
  unfold openToken
  rw [hCut, hVersion]
  simp only [ne_eq, not_true_eq_false, if_false, hAscii, Base64.decode_encode, hTake, hDrop, hNonce,
    hAes.encrypt_ne, or_self]

/-- What was encrypted for a context is read under it. -/
theorem decryptSecret_encryptSecret (hAes : aes.Lawful) {nonce : Bytes}
    (hNonce : nonce.length = NONCE_SIZE) (value context : String) :
    decryptSecret aes (encryptSecret aes nonce value context) context = .ok value := by
  unfold decryptSecret
  rw [openToken_encryptSecret hAes hNonce, hAes.decrypt_encrypt]
  simp only [Python.fromUTF8?_utf8]

/-- Under another context it is refused. -/
theorem decryptSecret_other (hAes : aes.Lawful) {nonce : Bytes} (hNonce : nonce.length = NONCE_SIZE)
    {value context other : String} (hOther : other ≠ context) :
    decryptSecret aes (encryptSecret aes nonce value context) other = .error .decryption := by
  unfold decryptSecret
  rw [openToken_encryptSecret hAes hNonce, hAes.invalidTag _ _ _ _ (Python.utf8_injective.ne hOther)]

end Tokens

/-! ## The vault of the tokens -/

/-- The bytes of `os.urandom(NONCE_SIZE)`, numbered. -/
def randomNonce (n : Nat) : Bytes :=
  (List.range NONCE_SIZE).map fun i => UInt8.ofNat (n / 256 ^ i)

theorem length_randomNonce (n : Nat) : (randomNonce n).length = NONCE_SIZE := by
  rw [randomNonce, List.length_map, List.length_range]

/-- `encrypt_secret` and `decrypt_secret` as the services use them; `int` is left open. -/
def tokenVault (aes : AesGcm) (readInt : String → Option Int) : Vault where
  encrypt nonce plaintext context :=
    String.ofList (encryptSecret aes (randomNonce nonce) plaintext context)
  decrypt secret context := (decryptSecret aes secret.toList context).toOption
  readInt := readInt

theorem tokenVault_lawful {aes : AesGcm} {readInt : String → Option Int} (hAes : aes.Lawful)
    (hInt : ∀ n : Int, 0 < n → readInt (toString n) = some n) :
    (tokenVault aes readInt).Lawful where
  encrypt_ne nonce plaintext context hEmpty := by
    have hList := congrArg String.toList hEmpty
    simp only [tokenVault, String.toList_ofList] at hList
    cases hList
  decrypt_encrypt nonce plaintext context := by
    simp only [tokenVault, String.toList_ofList]
    rw [decryptSecret_encryptSecret hAes (length_randomNonce nonce)]
    rfl
  readInt_toString := hInt

/-- The user and the purpose can be read off a context. -/
theorem secretContext_injective {userId userId' : UserId} {purpose purpose' : String} :
    secretContext userId purpose = secretContext userId' purpose' ↔
      userId = userId' ∧ purpose = purpose' := by
  constructor
  · intro h
    have hList := congrArg String.toList h
    simp only [secretContext, String.toList_append, List.append_assoc, List.append_right_inj] at hList
    have hId (n : UserId) (rest : List Char) :
        ((toString n).toList ++ (":".toList ++ rest)).takeWhile (· != ':') = (toString n).toList := by
      rw [List.takeWhile_append_of_pos]
      · exact List.append_nil _
      · intro c hc
        have hDigit : c.isDigit = true :=
          Nat.isDigit_of_mem_toDigits (by decide) (by decide) (show c ∈ Nat.toDigits 10 n by
            rwa [← Nat.toList_repr])
        rw [bne_iff_ne]
        rintro rfl
        cases hDigit
    have hDigits : (toString userId).toList = (toString userId').toList := by
      rw [← hId userId purpose.toList, hList, hId]
    have hUser : userId = userId' := by
      have hValue := congrArg (Nat.ofDigitChars 10 · 0) hDigits
      simpa only [toString, Nat.toList_repr, Nat.ofDigitChars_ten_toDigits] using hValue
    refine ⟨hUser, ?_⟩
    rw [hDigits, List.append_right_inj, List.append_right_inj] at hList
    exact String.toList_injective hList
  · rintro ⟨rfl, rfl⟩
    rfl

/-! ## The columns of a running system -/

/-- The encrypted columns of a row and what they are for. -/
def TelegramConnection.secretColumns (c : TelegramConnection) : List (String × Option Secret) :=
  [("session", c.sessionEncrypted), ("api_id", c.apiIdEncrypted), ("api_hash", c.apiHashEncrypted),
    ("phone", c.phoneEncrypted), ("phone_code_hash", c.pendingPhoneCodeHashEncrypted)]

/-- A column of a well-formed row is empty or sealed for the row's user. -/
theorem WellFormed.sealed {vault : Vault} {c : TelegramConnection} {purpose : String}
    {secret : Secret} (h : WellFormed vault c) (hColumn : (purpose, some secret) ∈ c.secretColumns)
    (hValue : secret ≠ "") : Sealed vault c.userId purpose AnyText (some secret) := by
  have hAny {purpose : String} {plain : String → Prop} {value : Option Secret}
      (hSealed : Sealed vault c.userId purpose plain value) :
      Sealed vault c.userId purpose AnyText value := by
    obtain ⟨nonce, plaintext, -, hEqual⟩ := hSealed
    exact ⟨nonce, plaintext, trivial, hEqual⟩
  have hUsed (hSecrets : Secrets vault c) (hHash : c.pendingPhoneCodeHashEncrypted = none ∨
      Sealed vault c.userId "phone_code_hash" AnyText c.pendingPhoneCodeHashEncrypted) :
      Sealed vault c.userId purpose AnyText (some secret) := by
    simp only [TelegramConnection.secretColumns, List.mem_cons, Prod.mk.injEq, List.not_mem_nil,
      or_false] at hColumn
    rcases hColumn with ⟨rfl, hc⟩ | ⟨rfl, hc⟩ | ⟨rfl, hc⟩ | ⟨rfl, hc⟩ | ⟨rfl, hc⟩
    · rw [hc]
      exact hAny hSecrets.session
    · rw [hc]
      exact hAny hSecrets.apiId
    · rw [hc]
      exact hAny hSecrets.apiHash
    · rw [hc]
      exact hAny hSecrets.phone
    · rw [hc]
      exact hHash.resolve_left fun hNone => by rw [hNone] at hc; cases hc
  cases h with
  | pending _ hSecrets hHash => exact hUsed hSecrets (Or.inr hHash)
  | connected _ hSecrets _ hHash => exact hUsed hSecrets (Or.inl hHash)
  | neither _ hBlank =>
      have hTruthy : truthy (some secret) = true := by
        rw [truthy, Option.any_some, bne_iff_ne]
        exact hValue
      obtain ⟨-, hSession, hId, hHash, hPhone, hCode, -, -⟩ := hasMaterial_eq_false.mp hBlank
      simp only [TelegramConnection.secretColumns, List.mem_cons, Prod.mk.injEq, List.not_mem_nil,
        or_false] at hColumn
      rcases hColumn with ⟨-, hc⟩ | ⟨-, hc⟩ | ⟨-, hc⟩ | ⟨-, hc⟩ | ⟨-, hc⟩ <;> rw [hc] at hTruthy <;>
        simp_all

section Runs

variable {aes : AesGcm} {readInt : String → Option Int} {env : Env} {s t : Store}
  {as : List StoreAction}

/-- In every state a run reaches, a stored secret opens in its own row and column, and nowhere
else: moved to another tenant's row or to another column it is refused. -/
theorem secrets_open_in_place (hAes : aes.Lawful)
    (hInt : ∀ n : Int, 0 < n → readInt (toString n) = some n)
    (hVault : env.vault = tokenVault aes readInt) (hStart : Orderly env s)
    (hRun : run (Store.step env) s as = some t)
    (hAdmissible : ∀ u a v, StepOf (Store.step env) s as u a v → Admissible u a)
    {c : TelegramConnection} (hRow : c ∈ t.db.connections) {purpose : String} {secret : Secret}
    (hColumn : (purpose, some secret) ∈ c.secretColumns) (hValue : secret ≠ "") :
    (∃ text, decryptSecret aes secret.toList (secretContext c.userId purpose) = .ok text) ∧
      ∀ userId purpose', ¬ (userId = c.userId ∧ purpose' = purpose) →
        decryptSecret aes secret.toList (secretContext userId purpose') = .error .decryption := by
  have hLawful : env.vault.Lawful := hVault ▸ tokenVault_lawful hAes hInt
  have hEnd : Orderly env t := run_induct hStart hRun fun u a v hStep hu =>
    rows_step hLawful hu (hAdmissible u a v hStep) hStep.step
  obtain ⟨nonce, plaintext, -, hSecret⟩ := (hEnd.rows c hRow).sealed hColumn hValue
  have hToken : secret.toList =
      encryptSecret aes (randomNonce nonce) plaintext (secretContext c.userId purpose) := by
    rw [Option.some.inj hSecret, hVault]
    exact String.toList_ofList
  rw [hToken]
  refine ⟨⟨plaintext, decryptSecret_encryptSecret hAes (length_randomNonce nonce) _ _⟩, ?_⟩
  intro userId purpose' hOther
  exact decryptSecret_other hAes (length_randomNonce nonce) (secretContext_injective.not.mpr hOther)

end Runs

/-! ### A user who asks for a code -/

/-- A cipher that puts the associated data and a mark before the text. -/
def markingCipher : AesGcm where
  encrypt _ text context := context.flatMap ([1, ·]) ++ 0 :: text
  decrypt _ ciphertext context :=
    let mark := context.flatMap ([1, ·]) ++ [0]
    if mark.isPrefixOf ciphertext then some (ciphertext.drop mark.length) else none

/-- No mark is the start of another one. -/
theorem start_of_mark {context other text : Bytes}
    (h : (other.flatMap ([1, ·]) ++ [0]) <+: (context.flatMap ([1, ·]) ++ 0 :: text)) :
    other = context := by
  induction other generalizing context with
  | nil =>
      cases context with
      | nil => rfl
      | cons b context =>
          rw [List.flatMap_nil, List.flatMap_cons, List.nil_append, List.append_assoc] at h
          cases (List.cons_prefix_cons.mp h).1
  | cons b other ih =>
      cases context with
      | nil =>
          rw [List.flatMap_nil, List.flatMap_cons, List.nil_append, List.append_assoc] at h
          cases (List.cons_prefix_cons.mp h).1
      | cons b' context =>
          simp only [List.flatMap_cons, List.cons_append, List.nil_append] at h
          obtain ⟨-, hTail⟩ := List.cons_prefix_cons.mp h
          obtain ⟨rfl, hRest⟩ := List.cons_prefix_cons.mp hTail
          rw [ih hRest]

theorem markingCipher_lawful : markingCipher.Lawful where
  encrypt_ne nonce text context hEmpty := by
    have hLength := congrArg List.length hEmpty
    simp [markingCipher] at hLength
  decrypt_encrypt nonce text context := by
    have hPrefix : (context.flatMap ([1, ·]) ++ [0]) <+: (context.flatMap ([1, ·]) ++ 0 :: text) :=
      ⟨text, by simp⟩
    simp only [markingCipher, List.isPrefixOf_iff_prefix, hPrefix, if_true, Option.some.injEq]
    have hSplit : context.flatMap ([1, ·]) ++ 0 :: text =
        (context.flatMap ([1, ·]) ++ [0]) ++ text := by simp
    rw [hSplit, List.drop_left]
  invalidTag nonce text context other hOther := by
    simp only [markingCipher, List.isPrefixOf_iff_prefix]
    rw [if_neg fun hPrefix => hOther (start_of_mark hPrefix)]

def markingEnv : Env := { demoEnv with vault := tokenVault markingCipher sealingVault.readInt }

/-- User 1 asks for a code. -/
def askForCode : List StoreAction :=
  [.authStart (startRequest 0) (.codeRequested (some "hash") "first")]

def askedStore : Store := (run (Store.step markingEnv) emptyStore askForCode).getD emptyStore

theorem secrets_open_in_place_asked :
    ∃ c ∈ askedStore.db.connections, ∃ secret, c.phoneEncrypted = some secret ∧
      (∃ text, decryptSecret markingCipher secret.toList (secretContext 1 "phone") = .ok text) ∧
      decryptSecret markingCipher secret.toList (secretContext 2 "phone") = .error .decryption := by
  have hOrderly : Orderly markingEnv emptyStore := ⟨fun c hc => (by cases hc), rfl⟩
  have hRun : run (Store.step markingEnv) emptyStore askForCode = some askedStore := rfl
  have hAsked : (askedStore.db.connections.find? 1).any (truthy ·.phoneEncrypted) = true := by
    decide +kernel
  obtain ⟨c, hFound, hPhone⟩ := (Option.any_eq_true _ _).mp hAsked
  obtain ⟨secret, hSecret, hValue⟩ := (Option.any_eq_true _ _).mp hPhone
  have hRow : c ∈ askedStore.db.connections := Table.mem_of_find? hFound
  have hUser : c.userId = 1 := Table.key_of_find? hFound
  have hColumn : ("phone", some secret) ∈ c.secretColumns := by
    simp [TelegramConnection.secretColumns, hSecret]
  have hOpens := secrets_open_in_place markingCipher_lawful sealingVault_lawful.readInt_toString rfl
    hOrderly hRun (by
      intro u a v hStep
      obtain rfl := List.mem_singleton.mp hStep.mem
      exact ⟨⟨by decide, by decide⟩, fun _ _ hAuthorized => by cases hAuthorized⟩)
    hRow hColumn (bne_iff_ne.mp hValue)
  rw [hUser] at hOpens
  exact ⟨c, hRow, secret, hSecret, hOpens.1, hOpens.2 2 "phone" (by decide)⟩

end SavedOrganizer
