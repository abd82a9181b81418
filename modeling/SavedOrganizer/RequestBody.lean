import SavedOrganizer.Library.Transition
import SavedOrganizer.Models

/-!
# The limit on request bodies

`RequestBodyLimitMiddleware` stands between the server and the application. It checks the declared
length, reads the messages of the body until the last one, and only then calls the application,
which gets the whole body as one message and after it whatever the server sends.

An `Exchange` is what the server, the middleware and the application share about one request. The
middleware takes its steps by itself (`proceed`); once it has called the application, the
application receives when it likes (`appReceive`). `body_limit_enforced` says how every exchange
goes, for any limit, any headers and any messages up to the end of the body.
-/

namespace SavedOrganizer

namespace Python

/-! ## Numbers in headers -/

/-- `Py_ISSPACE`. -/
def isSpaceByte (b : UInt8) : Bool := (9 ≤ b && b ≤ 13) || b == 32

def isDigitByte (b : UInt8) : Bool := 48 ≤ b && b ≤ 57

def stripBytes (t : Bytes) : Bytes :=
  ((t.dropWhile isSpaceByte).reverse.dropWhile isSpaceByte).reverse

/-- `sys.get_int_max_str_digits()`. -/
def INT_MAX_STR_DIGITS : Nat := 4300

/-- The number of a literal without a sign. An underscore may stand between two digits. -/
def natOfBytes (t : Bytes) : Option Nat :=
  let groups := t.splitOn 95
  let digits := groups.flatten
  if groups.all (fun group => !group.isEmpty && group.all isDigitByte) &&
      digits.length ≤ INT_MAX_STR_DIGITS then
    some (digits.foldl (fun n b => 10 * n + (b.toNat - 48)) 0)
  else none

/-- `int(t)`, or none for a `ValueError`. -/
def intOfBytes (t : Bytes) : Option Int :=
  match stripBytes t with
  | 43 :: digits => (natOfBytes digits).map Int.ofNat
  | 45 :: digits => (natOfBytes digits).map fun n => -Int.ofNat n
  | digits => (natOfBytes digits).map Int.ofNat

end Python

open Python Transition

/-! ## Messages -/

/-- `MAX_REQUEST_BODY_BYTES`. -/
def MAX_REQUEST_BODY_BYTES : Nat := 1024 * 1024

/-- What the middleware reads of a scope. -/
structure Scope where
  type : String
  headers : Option (List (Bytes × Bytes))

/-- A message of the receive channel; `body` and `more_body` may be missing. -/
structure ReceiveMessage where
  type : String
  body : Option Bytes
  moreBody : Option Bool
  deriving DecidableEq, Repr

/-- A response of the middleware. -/
structure JSONResponse where
  status : Nat
  detail : String
  deriving DecidableEq, Repr

def invalidContentLength : JSONResponse := ⟨400, "invalid_content_length"⟩

def requestBodyTooLarge : JSONResponse := ⟨413, "request_body_too_large"⟩

/-- `b"content-length"`. -/
def CONTENT_LENGTH : Bytes := "content-length".toUTF8.toList

/-- `dict(scope.get("headers", ())).get(b"content-length")`: of several headers the last counts. -/
def Scope.contentLength (scope : Scope) : Option Bytes :=
  ((scope.headers.getD []).reverse.find? (·.1 == CONTENT_LENGTH)).map Prod.snd

namespace RequestBodyLimitMiddleware

/-- The response to a declared length, unless the body may be read. -/
def checkContentLength (maxBodyBytes : Nat) (scope : Scope) : Option JSONResponse :=
  match scope.contentLength with
  | none => none
  | some contentLength =>
      match intOfBytes contentLength with
      | none => some invalidContentLength
      | some declaredLength =>
          if declaredLength < 0 then some invalidContentLength
          else if (maxBodyBytes : Int) < declaredLength then some requestBodyTooLarge
          else none

/-- Where the middleware is in `__call__`. -/
inductive Phase
  | checking
  | reading (body : Bytes)
  /-- In `self.app`. `replay` is the body while `replay_body` has not delivered it. -/
  | serving (replay : Option Bytes)
  | returned
  deriving DecidableEq, Repr

/-- One request. `inbox` is what `receive` still yields, and `received` what the application has
got. -/
structure Exchange where
  phase : Phase
  inbox : List ReceiveMessage
  appCalls : Nat
  received : List ReceiveMessage
  responses : List JSONResponse
  deriving DecidableEq, Repr

inductive Action
  | proceed
  | appReceive

/-- The message with the whole body. -/
def wholeBody (body : Bytes) : ReceiveMessage := ⟨"http.request", some body, some false⟩

namespace Exchange

def start (inbox : List ReceiveMessage) : Exchange := ⟨.checking, inbox, 0, [], []⟩

/-- `await response(..)` and `return`. -/
def respond (x : Exchange) (response : JSONResponse) : Exchange :=
  { x with phase := .returned, responses := x.responses ++ [response] }

/-- `await self.app(..)`. -/
def callApp (x : Exchange) (replay : Option Bytes) : Exchange :=
  { x with phase := .serving replay, appCalls := x.appCalls + 1 }

end Exchange

section Steps

variable (maxBodyBytes : Nat) (scope : Scope)

/-- The loop body, for a message it has received. -/
def readMessage (body : Bytes) (message : ReceiveMessage) (x : Exchange) : Exchange :=
  if message.type == "http.disconnect" then { x with phase := .returned }
  else if message.type != "http.request" then x
  else
    let body := body ++ message.body.getD []
    if maxBodyBytes < body.length then x.respond requestBodyTooLarge
    else if message.moreBody.getD false then { x with phase := .reading body }
    else x.callApp (some body)

/-- A step of the middleware; `receive` waits while there is no message. -/
def proceed (x : Exchange) : Option Exchange :=
  match x.phase with
  | .checking =>
      if scope.type != "http" then some (x.callApp none)
      else match checkContentLength maxBodyBytes scope with
      | some response => some (x.respond response)
      | none => some { x with phase := .reading [] }
  | .reading body =>
      match x.inbox with
      | [] => none
      | message :: inbox => some (readMessage maxBodyBytes body message { x with inbox := inbox })
  | .serving _ => none
  | .returned => none

/-- The application receives: `replay_body`, or `receive` for a scope that is not of HTTP. -/
def appReceive (x : Exchange) : Option Exchange :=
  match x.phase, x.inbox with
  | .serving (some body), _ =>
      some { x with phase := .serving none, received := x.received ++ [wholeBody body] }
  | .serving none, message :: inbox =>
      some { x with inbox := inbox, received := x.received ++ [message] }
  | _, _ => none

def step (x : Exchange) : Action → Option Exchange
  | .proceed => proceed maxBodyBytes scope x
  | .appReceive => appReceive x

end Steps

/-! ## What an exchange is to do -/

/-- After this message there is nothing more to read. -/
def isLast (message : ReceiveMessage) : Bool :=
  message.type == "http.disconnect" ||
    (message.type == "http.request" && !message.moreBody.getD false)

/-- The messages go up to the final chunk or a disconnect. -/
def endsBody : List ReceiveMessage → Bool
  | [] => false
  | message :: messages => if isLast message then messages.isEmpty else endsBody messages

/-- The chunk of a message. -/
def chunk (message : ReceiveMessage) : Bytes :=
  if message.type == "http.request" then message.body.getD [] else []

/-- The body that the messages make up. -/
def content (messages : List ReceiveMessage) : Bytes := messages.flatMap chunk

/-- The declared length, if any, is the number of a length. -/
def ValidLength (scope : Scope) : Prop :=
  ∀ contentLength, scope.contentLength = some contentLength →
    ∃ n : Nat, intOfBytes contentLength = some (n : Int)

/-- It is at most the limit. -/
def DeclaredWithin (maxBodyBytes : Nat) (scope : Scope) : Prop :=
  ∀ contentLength, scope.contentLength = some contentLength →
    ∃ n : Nat, intOfBytes contentLength = some (n : Int) ∧ n ≤ maxBodyBytes

/-- The request is for the application. -/
structure Admitted (maxBodyBytes : Nat) (scope : Scope) (messages : List ReceiveMessage) : Prop where
  declared : DeclaredWithin maxBodyBytes scope
  connected : ∀ m ∈ messages, m.type ≠ "http.disconnect"
  within : (content messages).length ≤ maxBodyBytes

/-- The responses to a request that is not. -/
inductive Refusal (maxBodyBytes : Nat) (scope : Scope) (messages : List ReceiveMessage) :
    List JSONResponse → Prop
  | invalid (hInvalid : ¬ ValidLength scope) :
      Refusal maxBodyBytes scope messages [invalidContentLength]
  | tooLarge (hValid : ValidLength scope)
      (hLarge : ¬ DeclaredWithin maxBodyBytes scope ∨ maxBodyBytes < (content messages).length) :
      Refusal maxBodyBytes scope messages [requestBodyTooLarge]
  | disconnected (hDeclared : DeclaredWithin maxBodyBytes scope)
      (hWithin : (content messages).length ≤ maxBodyBytes)
      (hGone : ∃ m ∈ messages, m.type = "http.disconnect") :
      Refusal maxBodyBytes scope messages []

/-- What the application's next receives yield. -/
def Exchange.toReceive (x : Exchange) : List ReceiveMessage :=
  match x.phase with
  | .serving replay => (replay.map wholeBody).toList ++ x.inbox
  | _ => []

/-- The middleware has called the application or returned. -/
def Exchange.settled (x : Exchange) : Bool :=
  match x.phase with
  | .serving _ => true
  | .returned => true
  | _ => false

/-- The application is called once. It gets the whole body in one message and then what the
server sends later, one message each time it receives. -/
structure Served (messages later : List ReceiveMessage) (x : Exchange) : Prop where
  called : x.appCalls = 1
  silent : x.responses = []
  delivers : x.received ++ x.toReceive = wholeBody (content messages) :: later
  receives : ∀ message rest, x.toReceive = message :: rest →
    ∃ y, appReceive x = some y ∧ y.received = x.received ++ [message] ∧ y.toReceive = rest

/-- The application is not called, and the response tells why. -/
structure Refused (maxBodyBytes : Nat) (scope : Scope) (messages : List ReceiveMessage)
    (x : Exchange) : Prop where
  notCalled : x.appCalls = 0
  nothing : x.received = []
  responds : Refusal maxBodyBytes scope messages x.responses

/-! ## Chunks -/

theorem content_append (front back : List ReceiveMessage) :
    content (front ++ back) = content front ++ content back := List.flatMap_append

theorem content_concat (front : List ReceiveMessage) (message : ReceiveMessage) :
    content (front ++ [message]) = content front ++ chunk message := by
  simp [content]

theorem content_concat_of_ne {front : List ReceiveMessage} {message : ReceiveMessage}
    (h : message.type ≠ "http.request") : content (front ++ [message]) = content front := by
  simp [content_concat, chunk, h]

theorem length_content_le (front back : List ReceiveMessage) :
    (content front).length ≤ (content (front ++ back)).length := by
  simp [content_append]

/-! ## The declared length -/

section Declared

variable {maxBodyBytes : Nat} {scope : Scope}

theorem DeclaredWithin.valid (h : DeclaredWithin maxBodyBytes scope) : ValidLength scope := by
  intro contentLength hLength
  obtain ⟨n, hNumber, -⟩ := h contentLength hLength
  exact ⟨n, hNumber⟩

/-- The body is read exactly when the declared length is within the limit. -/
theorem checkContentLength_eq_none :
    checkContentLength maxBodyBytes scope = none ↔ DeclaredWithin maxBodyBytes scope := by
  unfold checkContentLength DeclaredWithin
  cases scope.contentLength with
  | none => simp
  | some contentLength =>
      cases hNumber : intOfBytes contentLength with
      | none => simp [hNumber]
      | some declaredLength =>
          constructor
          · intro h other hOther
            obtain rfl := Option.some.inj hOther
            by_cases hNegative : declaredLength < 0
            · simp [hNumber, hNegative] at h
            · by_cases hLarge : (maxBodyBytes : Int) < declaredLength
              · simp [hNumber, hNegative, hLarge] at h
              · refine ⟨declaredLength.toNat, ?_, by omega⟩
                rw [hNumber, Int.toNat_of_nonneg (by omega)]
          · intro h
            obtain ⟨n, hOther, hWithin⟩ := h contentLength rfl
            obtain rfl := Option.some.inj (hNumber.symm.trans hOther)
            have hNegative : ¬ (n : Int) < 0 := by omega
            have hLarge : ¬ (maxBodyBytes : Int) < n := by omega
            simp [hNumber, hNegative, hLarge]

/-- Otherwise the response says what is wrong with it. -/
theorem refusal_of_checkContentLength {messages : List ReceiveMessage} {response : JSONResponse}
    (h : checkContentLength maxBodyBytes scope = some response) :
    Refusal maxBodyBytes scope messages [response] := by
  have hNot : ¬ DeclaredWithin maxBodyBytes scope := by
    intro hDeclared
    rw [checkContentLength_eq_none.mpr hDeclared] at h
    cases h
  unfold checkContentLength at h
  cases hLength : scope.contentLength with
  | none => simp [hLength] at h
  | some contentLength =>
      cases hNumber : intOfBytes contentLength with
      | none =>
          simp only [hLength, hNumber] at h
          obtain rfl := Option.some.inj h
          refine .invalid fun hValid => ?_
          obtain ⟨n, hOther⟩ := hValid contentLength hLength
          rw [hNumber] at hOther
          cases hOther
      | some declaredLength =>
          by_cases hNegative : declaredLength < 0
          · simp only [hLength, hNumber, hNegative, if_true] at h
            obtain rfl := Option.some.inj h
            refine .invalid fun hValid => ?_
            obtain ⟨n, hOther⟩ := hValid contentLength hLength
            obtain rfl := Option.some.inj (hNumber.symm.trans hOther)
            omega
          · by_cases hLarge : (maxBodyBytes : Int) < declaredLength
            · simp only [hLength, hNumber, hNegative, hLarge, if_false, if_true] at h
              obtain rfl := Option.some.inj h
              refine .tooLarge (fun other hOther => ?_) (Or.inl hNot)
              obtain rfl := Option.some.inj (hLength.symm.trans hOther)
              refine ⟨declaredLength.toNat, ?_⟩
              rw [hNumber, Int.toNat_of_nonneg (by omega)]
            · simp [hLength, hNumber, hNegative, hLarge] at h

end Declared

theorem Refusal.not_admitted {maxBodyBytes : Nat} {scope : Scope} {messages : List ReceiveMessage}
    {responses : List JSONResponse} (h : Refusal maxBodyBytes scope messages responses) :
    ¬ Admitted maxBodyBytes scope messages := by
  intro hAdmitted
  cases h with
  | invalid hInvalid => exact hInvalid hAdmitted.declared.valid
  | tooLarge _ hLarge =>
      rcases hLarge with hDeclared | hTotal
      · exact hDeclared hAdmitted.declared
      · exact absurd hAdmitted.within (by omega)
  | disconnected _ _ hGone =>
      obtain ⟨m, hm, hType⟩ := hGone
      exact hAdmitted.connected m hm hType

/-! ## The exchanges that occur -/

/-- What holds of an exchange, by its phase. While the middleware reads, `front` has been read. -/
inductive Position (maxBodyBytes : Nat) (scope : Scope) (messages later : List ReceiveMessage) :
    Exchange → Prop
  | checking : Position maxBodyBytes scope messages later (.start (messages ++ later))
  | reading (front back : List ReceiveMessage) (hMessages : messages = front ++ back)
      (hBack : endsBody back = true) (hDeclared : DeclaredWithin maxBodyBytes scope)
      (hFront : ∀ m ∈ front, m.type ≠ "http.disconnect")
      (hWithin : (content front).length ≤ maxBodyBytes) :
      Position maxBodyBytes scope messages later
        ⟨.reading (content front), back ++ later, 0, [], []⟩
  | serving (replay : Option Bytes) (inbox received : List ReceiveMessage)
      (hAdmitted : Admitted maxBodyBytes scope messages)
      (hDelivers : received ++ ((replay.map wholeBody).toList ++ inbox) =
        wholeBody (content messages) :: later) :
      Position maxBodyBytes scope messages later ⟨.serving replay, inbox, 1, received, []⟩
  | returned (inbox : List ReceiveMessage) (responses : List JSONResponse)
      (hRefusal : Refusal maxBodyBytes scope messages responses) :
      Position maxBodyBytes scope messages later ⟨.returned, inbox, 0, [], responses⟩

section Positions

variable {maxBodyBytes : Nat} {scope : Scope} {messages later : List ReceiveMessage}
  {x y : Exchange}

/-- The message that is read next leaves the exchange at a position. -/
theorem readMessage_position {front back : List ReceiveMessage} {message : ReceiveMessage}
    (hMessages : messages = front ++ message :: back)
    (hBack : endsBody (message :: back) = true) (hDeclared : DeclaredWithin maxBodyBytes scope)
    (hFront : ∀ m ∈ front, m.type ≠ "http.disconnect")
    (hWithin : (content front).length ≤ maxBodyBytes) :
    Position maxBodyBytes scope messages later
      (readMessage maxBodyBytes (content front) message
        ⟨.reading (content front), back ++ later, 0, [], []⟩) := by
  have hSplit : messages = (front ++ [message]) ++ back := by simp [hMessages]
  have hFront' (hType : message.type ≠ "http.disconnect") :
      ∀ m ∈ front ++ [message], m.type ≠ "http.disconnect" := by
    intro m hm
    rcases List.mem_append.mp hm with hm | hm
    · exact hFront m hm
    · rwa [List.mem_singleton.mp hm]
  unfold readMessage
  by_cases hGone : message.type = "http.disconnect"
  · -- the disconnect is the last message, and adds nothing to the body
    have hLast : isLast message = true := by simp [isLast, hGone]
    obtain rfl : back = [] := by simpa [endsBody, hLast] using hBack
    have hContent : content messages = content front := by
      rw [hMessages]
      exact content_concat_of_ne (by simp [hGone])
    simp only [hGone, beq_self_eq_true, if_true]
    refine .returned _ [] (.disconnected hDeclared ?_ ⟨message, by simp [hMessages], hGone⟩)
    rw [hContent]
    exact hWithin
  by_cases hRequest : message.type = "http.request"
  · have hContent : content front ++ message.body.getD [] = content (front ++ [message]) := by
      simp [content_concat, chunk, hRequest]
    simp only [hRequest, bne_self_eq_false, hContent, Bool.false_eq_true, if_false]
    by_cases hLarge : maxBodyBytes < (content (front ++ [message])).length
    · have hTotal : maxBodyBytes < (content messages).length := by
        rw [hSplit]
        exact Nat.lt_of_lt_of_le hLarge (length_content_le _ _)
      simp only [hLarge, if_true]
      exact .returned _ _ (.tooLarge hDeclared.valid (Or.inr hTotal))
    · have hWithin' : (content (front ++ [message])).length ≤ maxBodyBytes := by omega
      simp only [hLarge, if_false]
      by_cases hMore : message.moreBody.getD false = true
      · have hOpen : isLast message = false := by simp [isLast, hGone, hMore]
        have hBack' : endsBody back = true := by simpa [endsBody, hOpen] using hBack
        simp only [hMore, if_true]
        exact .reading _ back hSplit hBack' hDeclared (hFront' hGone) hWithin'
      · have hLast : isLast message = true := by simp [isLast, hRequest, hMore]
        obtain rfl : back = [] := by simpa [endsBody, hLast] using hBack
        obtain rfl : messages = front ++ [message] := hMessages
        simp only [hMore]
        exact .serving _ later [] ⟨hDeclared, hFront' hGone, hWithin'⟩ rfl
  · -- a message of another type is skipped
    have hOpen : isLast message = false := by simp [isLast, hGone, hRequest]
    have hBack' : endsBody back = true := by simpa [endsBody, hOpen] using hBack
    have hContent : content (front ++ [message]) = content front := content_concat_of_ne hRequest
    have hNot : (message.type == "http.disconnect") = false := by simp [hGone]
    have hOther : (message.type != "http.request") = true := by simp [hRequest]
    simp only [hNot, hOther, Bool.false_eq_true, if_false, if_true, ← hContent]
    refine .reading _ back hSplit hBack' hDeclared (hFront' hGone) ?_
    rw [hContent]
    exact hWithin

/-- Every step leads from a position to a position. -/
theorem step_position {a : Action} (hHttp : scope.type = "http") (hEnds : endsBody messages = true)
    (h : Position maxBodyBytes scope messages later x) (hStep : step maxBodyBytes scope x a = some y) :
    Position maxBodyBytes scope messages later y := by
  cases a with
  | proceed =>
      cases h with
      | checking =>
          have hNot : (scope.type != "http") = false := by simp [hHttp]
          simp only [step, proceed, Exchange.start, hNot, Bool.false_eq_true, if_false] at hStep
          cases hCheck : checkContentLength maxBodyBytes scope with
          | some response =>
              rw [hCheck] at hStep
              obtain rfl := Option.some.inj hStep
              exact .returned _ _ (refusal_of_checkContentLength hCheck)
          | none =>
              rw [hCheck] at hStep
              obtain rfl := Option.some.inj hStep
              exact .reading [] messages rfl hEnds (checkContentLength_eq_none.mp hCheck)
                (fun m hm => by cases hm) (Nat.zero_le _)
      | reading front back hMessages hBack hDeclared hFront hWithin =>
          cases back with
          | nil => cases hBack
          | cons message back =>
              obtain rfl := Option.some.inj hStep
              exact readMessage_position hMessages hBack hDeclared hFront hWithin
      | serving replay inbox received hAdmitted hDelivers => cases hStep
      | returned inbox responses hRefusal => cases hStep
  | appReceive =>
      cases h with
      | checking => cases hStep
      | reading front back hMessages hBack hDeclared hFront hWithin => cases hStep
      | serving replay inbox received hAdmitted hDelivers =>
          cases replay with
          | some body =>
              obtain rfl := Option.some.inj hStep
              refine .serving none inbox _ hAdmitted ?_
              simpa using hDelivers
          | none =>
              cases inbox with
              | nil => cases hStep
              | cons message inbox =>
                  obtain rfl := Option.some.inj hStep
                  refine .serving none inbox _ hAdmitted ?_
                  simpa using hDelivers
      | returned inbox responses hRefusal => cases hStep

/-- The messages of the body that are still to be read, and the check before them. -/
def stepsLeft (later : List ReceiveMessage) (x : Exchange) : Nat :=
  match x.phase with
  | .checking => x.inbox.length - later.length + 1
  | .reading _ => x.inbox.length - later.length
  | _ => 0

theorem stepsLeft_le (h : Position maxBodyBytes scope messages later x) :
    stepsLeft later x ≤ messages.length + 1 := by
  cases h with
  | checking => simp [stepsLeft, Exchange.start]
  | reading front back hMessages _ _ _ _ =>
      simp only [stepsLeft, hMessages, List.length_append]
      omega
  | serving replay inbox received _ _ => exact Nat.zero_le _
  | returned inbox responses _ => exact Nat.zero_le _

/-- Reading a message leaves fewer to read. -/
theorem stepsLeft_readMessage (body : Bytes) (message : ReceiveMessage)
    (back : List ReceiveMessage) :
    stepsLeft later (readMessage maxBodyBytes body message
      ⟨.reading body, back ++ later, 0, [], []⟩) ≤ back.length := by
  have hReading : (back ++ later).length - later.length ≤ back.length := by
    rw [List.length_append]
    omega
  unfold readMessage
  split
  · exact Nat.zero_le _
  split
  · exact hReading
  dsimp only
  split
  · exact Nat.zero_le _
  split
  · exact hReading
  · exact Nat.zero_le _

theorem stepsLeft_proceed (hHttp : scope.type = "http")
    (h : Position maxBodyBytes scope messages later x) (hStep : proceed maxBodyBytes scope x = some y) :
    stepsLeft later y < stepsLeft later x := by
  cases h with
  | checking =>
      have hNot : (scope.type != "http") = false := by simp [hHttp]
      simp only [proceed, Exchange.start, hNot, Bool.false_eq_true, if_false] at hStep
      split at hStep
      · obtain rfl := Option.some.inj hStep
        exact Nat.succ_pos _
      · obtain rfl := Option.some.inj hStep
        exact Nat.lt_succ_self _
  | reading front back hMessages hBack hDeclared hFront hWithin =>
      cases back with
      | nil => cases hBack
      | cons message back =>
          obtain rfl := Option.some.inj hStep
          refine Nat.lt_of_le_of_lt (stepsLeft_readMessage (content front) message back) ?_
          show back.length < (message :: (back ++ later)).length - later.length
          rw [List.length_cons, List.length_append]
          omega
  | serving replay inbox received hAdmitted hDelivers => cases hStep
  | returned inbox responses hRefusal => cases hStep

/-- The middleware stops only when it is done: it never waits for a message after the body. -/
theorem settled_of_proceed_none (hHttp : scope.type = "http")
    (h : Position maxBodyBytes scope messages later x) (hStep : proceed maxBodyBytes scope x = none) :
    x.settled = true := by
  cases h with
  | checking =>
      have hNot : (scope.type != "http") = false := by simp [hHttp]
      simp only [proceed, Exchange.start, hNot, Bool.false_eq_true, if_false] at hStep
      split at hStep
      · cases hStep
      · cases hStep
  | reading front back hMessages hBack hDeclared hFront hWithin =>
      cases back with
      | nil => cases hBack
      | cons message back => cases hStep
  | serving replay inbox received hAdmitted hDelivers => rfl
  | returned inbox responses hRefusal => rfl

theorem appReceive_toReceive {message : ReceiveMessage} {rest : List ReceiveMessage}
    (h : x.toReceive = message :: rest) :
    ∃ y, appReceive x = some y ∧ y.received = x.received ++ [message] ∧ y.toReceive = rest := by
  obtain ⟨phase, inbox, appCalls, received, responses⟩ := x
  cases phase with
  | checking => cases h
  | reading body => cases h
  | serving replay =>
      cases replay with
      | some body =>
          obtain ⟨rfl, rfl⟩ := List.cons.inj h
          exact ⟨_, rfl, rfl, rfl⟩
      | none =>
          cases inbox with
          | nil => cases h
          | cons other inbox =>
              obtain ⟨rfl, rfl⟩ := List.cons.inj h
              exact ⟨_, rfl, rfl, rfl⟩
  | returned => cases h

/-- A settled exchange has gone one of the two ways. -/
theorem Position.settled (h : Position maxBodyBytes scope messages later x)
    (hSettled : x.settled = true) :
    (Admitted maxBodyBytes scope messages ∧ Served messages later x) ∨
      (¬ Admitted maxBodyBytes scope messages ∧ Refused maxBodyBytes scope messages x) := by
  cases h with
  | checking => cases hSettled
  | reading front back hMessages hBack hDeclared hFront hWithin => cases hSettled
  | serving replay inbox received hAdmitted hDelivers =>
      exact Or.inl ⟨hAdmitted, rfl, rfl, hDelivers, fun _ _ => appReceive_toReceive⟩
  | returned inbox responses hRefusal =>
      exact Or.inr ⟨hRefusal.not_admitted, rfl, rfl, hRefusal⟩

/-- Before that nothing has been seen of the request. -/
theorem Position.unsettled (h : Position maxBodyBytes scope messages later x)
    (hSettled : x.settled = false) : x.appCalls = 0 ∧ x.received = [] ∧ x.responses = [] := by
  cases h with
  | checking => exact ⟨rfl, rfl, rfl⟩
  | reading front back hMessages hBack hDeclared hFront hWithin => exact ⟨rfl, rfl, rfl⟩
  | serving replay inbox received hAdmitted hDelivers => cases hSettled
  | returned inbox responses hRefusal => cases hSettled

end Positions

/-! ## Every exchange -/

/-- Whatever the headers, the messages up to the end of the body, what the server sends later and
when the application receives: the application is called at most once, and exactly when the request
is admitted; it gets the whole body and then every later message in order. Otherwise the one
response there is tells why. From every state the middleware gets there by itself. -/
theorem body_limit_enforced (maxBodyBytes : Nat) (scope : Scope)
    (messages later : List ReceiveMessage) (actions : List Action) (x : Exchange)
    (hHttp : scope.type = "http") (hEnds : endsBody messages = true)
    (hRun : run (step maxBodyBytes scope) (.start (messages ++ later)) actions = some x) :
    x.appCalls ≤ 1 ∧
      (x.settled = false → x.appCalls = 0 ∧ x.received = [] ∧ x.responses = []) ∧
      (x.settled = true →
        (Admitted maxBodyBytes scope messages ∧ Served messages later x) ∨
          (¬ Admitted maxBodyBytes scope messages ∧ Refused maxBodyBytes scope messages x)) ∧
      (runFor (proceed maxBodyBytes scope) (messages.length + 1) x).settled = true := by
  have hPosition : Position maxBodyBytes scope messages later x :=
    invariant (fun u a v hStep hu => step_position hHttp hEnds hu hStep) .checking hRun
  have hCalls : x.appCalls ≤ 1 := by
    cases hPosition with
    | checking => exact Nat.zero_le _
    | reading front back hMessages hBack hDeclared hFront hWithin => exact Nat.zero_le _
    | serving replay inbox received hAdmitted hDelivers => exact Nat.le_refl _
    | returned inbox responses hRefusal => exact Nat.zero_le _
  have hKeep : ∀ u v, proceed maxBodyBytes scope u = some v →
      Position maxBodyBytes scope messages later u →
      Position maxBodyBytes scope messages later v :=
    fun u v hStep hu => step_position (a := .proceed) hHttp hEnds hu hStep
  refine ⟨hCalls, hPosition.unsettled, hPosition.settled, ?_⟩
  exact settled_of_proceed_none hHttp (runFor_inv hKeep _ hPosition)
    (runFor_halts hKeep (fun u v hStep hu => stepsLeft_proceed hHttp hu hStep) hPosition
      (stepsLeft_le hPosition))

/-! ### A body in two chunks -/

def twoChunks : List ReceiveMessage :=
  [⟨"http.request", some [123], some true⟩, ⟨"http.request", some [125], none⟩]

def disconnect : ReceiveMessage := ⟨"http.disconnect", none, none⟩

/-- `content-length: 2`. -/
def declaredScope : Scope := ⟨"http", some [(CONTENT_LENGTH, [50])]⟩

/-- After reading both, and two receives of the application. -/
def twoChunksActions : List Action := [.proceed, .proceed, .proceed, .appReceive, .appReceive]

def afterTwoChunks : Exchange :=
  (run (step MAX_REQUEST_BODY_BYTES declaredScope) (.start (twoChunks ++ [disconnect]))
    twoChunksActions).getD (.start [])

theorem body_limit_enforced_twoChunks :
    Served twoChunks [disconnect] afterTwoChunks ∧
      afterTwoChunks.received = [wholeBody [123, 125], disconnect] := by
  have hRun : run (step MAX_REQUEST_BODY_BYTES declaredScope) (.start (twoChunks ++ [disconnect]))
      twoChunksActions = some afterTwoChunks := run_getD (by decide +kernel)
  obtain ⟨-, -, hSettled, -⟩ := body_limit_enforced MAX_REQUEST_BODY_BYTES declaredScope twoChunks
    [disconnect] twoChunksActions afterTwoChunks rfl (by decide +kernel) hRun
  refine ⟨?_, by decide +kernel⟩
  rcases hSettled (by decide +kernel) with ⟨-, hServed⟩ | ⟨-, hRefused⟩
  · exact hServed
  · exact absurd hRefused.notCalled (by decide +kernel)

end RequestBodyLimitMiddleware

end SavedOrganizer
