import Tekir.AccountServices
import Tekir.Decoding
import Tekir.Retries
import Mathlib.Logic.Function.Basic

/-!
# Requests to the providers

The adapters of the verification service, the push service, the object storage and the
moderation models, each over a provider that may answer anything and a network that may lose
anything. Two of them repeat only what has certainly not been acted upon, the other two repeat
what can do no harm twice. There is one retry.
-/
namespace Tekir.Providers
open Environment Json Decoding Retries
open ModerationReply (ModerationDecision ModerationCategory runReply decodeString)
open Statements (Error)

structure Answer where
  status : ℕ
  body : List Char

/-- `maxAttempts` is two. -/
def repeats : ℕ := 1

/-- `errorKind`; only a failure to connect is a `dial`. -/
def errorKind : Outcome Answer → String
  | .answer _ => ""
  | .unreached timeout => if timeout then "timeout" else "dial"
  | .broken timeout => if timeout then "timeout" else "transport"

variable {φ σ : Type}

/-- `post` of the verification and of the push service: a request that broke off may have been
acted upon. -/
def post (cancelled unavailable : φ) (failed : String → φ) : Policy Answer (Except φ Answer) where
  judge done
    | .answer r =>
      if r.status < 500 then .stop (.ok r)
      else if done then .stop (.error cancelled) else .again (.error unavailable)
    | .unreached _ => if done then .stop (.error cancelled) else .again (.error unavailable)
    | .broken timeout =>
      .stop (.error (if done then cancelled else failed (errorKind (.broken timeout))))
  interrupted := .error cancelled

/-- `do` of the storage and of the models: to repeat a request does no harm. -/
def repeating (cancelled : φ) (failed : String → φ) : Policy Answer (Except φ Answer) where
  judge done
    | .answer r => if 500 ≤ r.status ∨ r.status = 429 then .again (.ok r) else .stop (.ok r)
    | .unreached timeout =>
      if done then .stop (.error cancelled)
      else .again (.error (failed (errorKind (.unreached timeout))))
    | .broken timeout =>
      if done then .stop (.error cancelled)
      else .again (.error (failed (errorKind (.broken timeout))))
  interrupted := .error cancelled

def Answer.succeeds (r : Answer) : Bool :=
  r.status / 100 == 2

section Twilio

/-- The context's error, or one of the service. -/
inductive OTPFailure
  | cancelled
  | of (e : Error)
  deriving DecidableEq

inductive VerifyRequest
  | start (phone : String)
  | check (phone code : String)

def twilioErrorCode (body : List Char) : ℤ :=
  ((unmarshal body).bind (decodeRecord false [⟨"code", decodeInt⟩] 0)).getD 0

def checkedStatus (body : List Char) : Option String :=
  (unmarshal body).bind (decodeRecord false [⟨"status", decodeString⟩] "")

/-- `TwilioVerifier.StartVerification` on an answer. -/
def startResult (r : Answer) : Except OTPFailure Unit :=
  let code := twilioErrorCode r.body
  if r.succeeds then .ok ()
  else if r.status = 401 ∨ r.status = 403 then .error (.of .providerUnavailable)
  else if r.status = 404 then .error (.of .providerUnavailable)
  else if r.status = 429 ∨ code = 60203 ∨ code = 60212 then .error (.of .otpResendTooSoon)
  else if code = 60200 then .error (.of .invalidPhone)
  else .error (.of .providerUnavailable)

/-- `TwilioVerifier.CheckVerification` on an answer. -/
def checkResult (r : Answer) : Except OTPFailure Unit :=
  let code := twilioErrorCode r.body
  if r.succeeds then
    match checkedStatus r.body with
    | none => .error (.of .providerUnavailable)
    | some "approved" => .ok ()
    | some "pending" => .error (.of .otpCodeMismatch)
    | some "canceled" => .error (.of .otpExpired)
    | some _ => .error (.of .providerUnavailable)
  else if r.status = 401 ∨ r.status = 403 then .error (.of .providerUnavailable)
  else if r.status = 404 then .error (.of .otpExpired)
  else if r.status = 429 ∨ code = 60202 then .error (.of .otpTooManyAttempts)
  else if code = 60200 then .error (.of .invalidPhone)
  else .error (.of .providerUnavailable)

def twilioPost : Policy Answer (Except OTPFailure Answer) :=
  post .cancelled (.of .providerUnavailable) fun _ => .of .providerUnavailable

variable (serve : VerifyRequest → ℕ → σ → Answer × σ) (c : ℕ → Circumstance)

def startVerification (phone : String) (s : σ) : Except OTPFailure Unit × σ :=
  let r := tries twilioPost (serve (.start phone)) c repeats 0 s
  (r.1.bind startResult, r.2)

def checkVerification (phone code : String) (s : σ) : Except OTPFailure Unit × σ :=
  let r := tries twilioPost (serve (.check phone code)) c repeats 0 s
  (r.1.bind checkResult, r.2)

/-- `ReviewAllowlistOTPProvider`: the normalised numbers and their code. -/
structure ReviewAllowlist where
  numbers : List String
  code : String

def newReviewAllowlist (rawNumbers : List String) (code : String) :
    Option ReviewAllowlist :=
  if code = "" then none
  else
    match rawNumbers.mapM fun raw => (normalizePhone raw).toOption with
    | none | some [] => none
    | some numbers => some { numbers, code }

def ReviewAllowlist.start (allowlist : Option ReviewAllowlist) (phone : String)
    (underlying : Except OTPFailure Unit × σ) (s : σ) : Except OTPFailure Unit × σ :=
  if allowlist.any fun a => a.numbers.contains phone then (.ok (), s) else underlying

def ReviewAllowlist.check (allowlist : Option ReviewAllowlist) (phone code : String)
    (underlying : Except OTPFailure Unit × σ) (s : σ) : Except OTPFailure Unit × σ :=
  match allowlist.filter fun a => a.numbers.contains phone with
  | none => underlying
  | some a => if code = a.code then (.ok (), s) else (.error (.of .otpCodeMismatch), s)

/-- The handlers answer either with an internal error. -/
def OTPFailure.toError : OTPFailure → Error
  | .cancelled => .providerUnavailable
  | .of e => e

/-- What a call of the service gets from the provider it is wired with. -/
def otpProvider (serve : VerifyRequest → ℕ → σ → Answer × σ) (c : ℕ → Circumstance)
    (allowlist : Option ReviewAllowlist) (phone code : String) (s : σ) : OTPProvider where
  startVerification :=
    (ReviewAllowlist.start allowlist phone (startVerification serve c phone s) s).1.mapError
      OTPFailure.toError
  checkVerification :=
    (ReviewAllowlist.check allowlist phone code
      (checkVerification serve c phone code s) s).1.mapError OTPFailure.toError

end Twilio

section FCM

inductive SendError
  | cancelled
  | emptyToken
  | requestFailed (kind : String)
  | unavailable
  | tokenInvalid
  | authentication (status : ℕ)
  | rateLimited (status : ℕ)
  | failed (status : ℕ)
  deriving DecidableEq

structure FCMDetail where
  type : String := ""
  errorCode : String := ""

structure FCMStatus where
  status : String := ""
  details : Slice FCMDetail := .empty

def decodeDetail : FCMDetail → Value → Option FCMDetail :=
  decodeRecord false [
    ⟨"@type", fun d v => (decodeString d.type v).map fun type => { d with type }⟩,
    ⟨"errorCode", fun d v => (decodeString d.errorCode v).map fun errorCode =>
      { d with errorCode }⟩]

def decodeStatus : FCMStatus → Value → Option FCMStatus :=
  decodeRecord false [
    ⟨"status", fun s v => (decodeString s.status v).map fun status => { s with status }⟩,
    ⟨"details", fun s v => (decodeSlice decodeDetail {} s.details v).map fun details =>
      { s with details }⟩]

/-- The status of the error, which is only logged, and the first code among its details. -/
def fcmError (body : List Char) : String × String :=
  match (unmarshal body).bind (decodeRecord false [⟨"error", decodeStatus⟩] {}) with
  | none => ("", "")
  | some s =>
    let detail := s.details.elements.find? fun d => d.errorCode ≠ ""
    (s.status, (detail.map FCMDetail.errorCode).getD "")

/-- `FCMNotificationSender.Send` on an answer. -/
def sendResult (r : Answer) : Except SendError Unit :=
  let code := (fcmError r.body).2
  if r.succeeds then .ok ()
  else if code = "UNREGISTERED" ∨ r.status = 404 then .error .tokenInvalid
  else if code = "SENDER_ID_MISMATCH" then .error .tokenInvalid
  else if code = "INVALID_ARGUMENT" ∨ r.status = 400 then .error .tokenInvalid
  else if r.status = 401 ∨ r.status = 403 then .error (.authentication r.status)
  else if r.status = 429 ∨ code = "QUOTA_EXCEEDED" then .error (.rateLimited r.status)
  else .error (.failed r.status)

/-- An access token that cannot be fetched is a request that broke off unhandled. -/
def fcmPost : Policy Answer (Except SendError Answer) :=
  post .cancelled .unavailable .requestFailed

def send (serve : PushMessage → ℕ → σ → Answer × σ) (c : ℕ → Circumstance) (msg : PushMessage)
    (s : σ) : Except SendError Unit × σ :=
  if msg.pushToken = "" then (.error .emptyToken, s)
  else
    let r := tries fcmPost (serve msg) c repeats 0 s
    (r.1.bind sendResult, r.2)

/-- What the dispatch makes of the result. -/
def sendOutcome : Except SendError Unit → SendOutcome
  | .ok () => .delivered
  | .error .tokenInvalid => .tokenInvalid
  | .error _ => .failed

end FCM

section S3

inductive StoreError
  | cancelled
  | invalidObjectKey
  | unreachable (kind : String)
  | http (status : ℕ)
  deriving DecidableEq

variable {δ : Type}

inductive StoreRequest (δ : Type)
  | put (key contentType : String) (data : δ)
  | delete (key : String)
  deriving DecidableEq

/-- The objects as the storage has them, each with its content type. -/
abbrev Objects (δ : Type) := String → Option (String × δ)

def StoreRequest.key : StoreRequest δ → String
  | .put key _ _ | .delete key => key

/-- What a request asks for. -/
def StoreRequest.apply (q : StoreRequest δ) (objects : Objects δ) : Objects δ :=
  match q with
  | .put key contentType data => Function.update objects key (some (contentType, data))
  | .delete key => Function.update objects key none

def isAlphanumeric (c : Char) : Bool :=
  ('a' ≤ c && c ≤ 'z') || ('A' ≤ c && c ≤ 'Z') || ('0' ≤ c && c ≤ '9')

/-- `objectKeyPattern`; such a key is its own base name. -/
def validateObjectKey (key : String) : Bool :=
  match key.toList with
  | [] => false
  | c :: cs => isAlphanumeric c && decide (cs.length ≤ 127) &&
      cs.all fun c => isAlphanumeric c || c == '.' || c == '_' || c == '-'

def s3Do : Policy Answer (Except StoreError Answer) :=
  repeating .cancelled .unreachable

def putResult (publicBaseURL key : String) (r : Answer) : Except StoreError String :=
  if r.succeeds then .ok (publicBaseURL ++ "/" ++ key) else .error (.http r.status)

def deleteResult (r : Answer) : Except StoreError Unit :=
  if r.succeeds ∨ r.status = 404 then .ok () else .error (.http r.status)

variable (serve : StoreRequest δ → ℕ → σ → Answer × σ) (c : ℕ → Circumstance)

def put (publicBaseURL key contentType : String) (data : δ) (s : σ) :
    Except StoreError String × σ :=
  if validateObjectKey key then
    let r := tries s3Do (serve (.put key contentType data)) c repeats 0 s
    (r.1.bind (putResult publicBaseURL key), r.2)
  else (.error .invalidObjectKey, s)

def delete (key : String) (s : σ) : Except StoreError Unit × σ :=
  if validateObjectKey key then
    let r := tries s3Do (serve (.delete key)) c repeats 0 s
    (r.1.bind deleteResult, r.2)
  else (.error .invalidObjectKey, s)

/-- One call of the store, with the url that a put returns. -/
def request (publicBaseURL : String) (q : StoreRequest δ) (s : σ) :
    Except StoreError (Option String) × σ :=
  match q with
  | .put key contentType data =>
    let r := put serve c publicBaseURL key contentType data s
    (r.1.map some, r.2)
  | .delete key =>
    let r := delete serve c key s
    (r.1.map fun _ => none, r.2)

end S3

section Cloudflare

/-- The context's error, or `ErrModerationUnavailable`. -/
inductive ModerationFailure
  | cancelled
  | unavailable
  deriving DecidableEq

structure RunResponse where
  success : Bool := false
  errors : Slice (ℤ × String) := .empty
  /-- The raw text of the member, as the value it stands for. -/
  result : Option Value := none

structure RunResult where
  response : String := ""
  description : String := ""
  answer : String := ""
  caption : String := ""
  text : String := ""
  choices : Slice String := .empty

def decodeRunError : ℤ × String → Value → Option (ℤ × String) :=
  decodeRecord false [
    ⟨"code", fun e v => (decodeInt e.1 v).map fun code => (code, e.2)⟩,
    ⟨"message", fun e v => (decodeString e.2 v).map fun message => (e.1, message)⟩]

def decodeRunResponse : Value → Option RunResponse :=
  decodeRecord false [
    ⟨"success", fun r v => (decodeBool r.success v).map fun success => { r with success }⟩,
    ⟨"errors", fun r v => (decodeSlice decodeRunError (0, "") r.errors v).map fun errors =>
      { r with errors }⟩,
    ⟨"result", fun r v => some { r with result := some v }⟩] {}

/-- The content of a choice's message. -/
def decodeChoice : String → Value → Option String :=
  decodeRecord false [⟨"message", decodeRecord false [⟨"content", decodeString⟩]⟩]

def decodeRunResult : Value → Option RunResult :=
  decodeRecord false [
    ⟨"response", fun r v => (decodeString r.response v).map fun response => { r with response }⟩,
    ⟨"description", fun r v => (decodeString r.description v).map fun description =>
      { r with description }⟩,
    ⟨"answer", fun r v => (decodeString r.answer v).map fun answer => { r with answer }⟩,
    ⟨"caption", fun r v => (decodeString r.caption v).map fun caption => { r with caption }⟩,
    ⟨"text", fun r v => (decodeString r.text v).map fun text => { r with text }⟩,
    ⟨"choices", fun r v => (decodeSlice decodeChoice "" r.choices v).map fun choices =>
      { r with choices }⟩] {}

/-- The first reply that is not empty, or the content of the first choice. -/
def RunResult.reply (r : RunResult) : String :=
  (([r.response, r.description, r.answer, r.caption, r.text].find? fun s => s ≠ "").or
    r.choices.elements.head?).getD ""

/-- The reply of the model out of the envelope. -/
def replyOf (body : List Char) : Option String := do
  let envelope ← (unmarshal body).bind decodeRunResponse
  if envelope.success then
    let result ← envelope.result.bind decodeRunResult
    return result.reply
  else none

def cloudflareDo : Policy Answer (Except ModerationFailure Answer) :=
  repeating .cancelled fun _ => .unavailable

/-- `CloudflareModerator.run` on an answer. -/
def runResult (r : Answer) : Except ModerationFailure ModerationDecision :=
  if r.succeeds then
    match replyOf r.body with
    | none => .error .unavailable
    | some text => (runReply text).mapError fun _ => .unavailable
  else .error .unavailable

inductive Moderated (δ : Type)
  | text (text : String)
  | image (contentType : String) (data : δ)

variable {δ : Type} (serve : String → Moderated δ → ℕ → σ → Answer × σ) (c : ℕ → Circumstance)

/-- A call of a model. -/
def run (model : String) (input : Moderated δ) (s : σ) :
    Except ModerationFailure ModerationDecision × σ :=
  let r := tries cloudflareDo (serve model input) c repeats 0 s
  (r.1.bind runResult, r.2)

def moderateText (textModel text : String) (s : σ) :
    Except ModerationFailure ModerationDecision × σ :=
  run serve c textModel (.text text) s

/-- Without a vision model every image is allowed. -/
def moderateImage (visionModel contentType : String) (data : δ) (s : σ) :
    Except ModerationFailure ModerationDecision × σ :=
  if visionModel = "" then (.ok ⟨true, []⟩, s)
  else run serve c visionModel (.image contentType data) s

end Cloudflare

end Tekir.Providers
