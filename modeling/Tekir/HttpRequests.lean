import Tekir.Cursors
import Tekir.Decoding
import Tekir.ServedSessions

/-!
# HTTP requests

What a handler finds in a request: header values, the query, a parsed multipart form, a JSON
body, and the account and the device that the credentials stand for. Middleware that requires a
credential answers for the handler; optional middleware passes on none.
-/
namespace Tekir.HttpRequests
open Table Schema Statements Environment Cursors Decoding
open ServedSessions (Jwt validateAccessToken)

inductive Method
  | get | post | put | patch | delete | other
  deriving DecidableEq

/-- What `ParseMultipartForm` has read. A file is its bytes. -/
structure Form where
  fields : List (String × String) := []
  files : List (String × List UInt8) := []

inductive FormError
  /-- `http.MaxBytesError`. -/
  | tooLarge
  | malformed

structure HttpRequest where
  method : Method
  /-- The segments of the path. -/
  path : List String
  query : List (String × String) := []
  /-- The values of the header `Authorization`. -/
  authorization : List String := []
  /-- The values of the header `X-Device-Token`. -/
  deviceToken : List String := []
  /-- The values of the header `Idempotency-Key`. -/
  idempotencyKeys : List String := []
  body : List Char := []
  form : Except FormError Form := .error .malformed

/-- `url.Values.Get`: the first value, or no text. -/
def valueOf (key : String) (values : List (String × String)) : String :=
  ((values.find? fun v => v.1 = key).map Prod.snd).getD ""

/-- `r.FormValue`. The values of the query come before those of a multipart form. -/
def formValue (r : HttpRequest) (form : Form) (key : String) : String :=
  valueOf key (r.query ++ form.fields)

/-- `r.FormFile`. -/
def formFile (form : Form) (key : String) : Option (List UInt8) :=
  (form.files.find? fun f => f.1 = key).map Prod.snd

/-- An empty text stands for none. -/
def nonEmpty (s : String) : Option String :=
  if s = "" then none else some s

def idempotencyKey (r : HttpRequest) : Option String :=
  nonEmpty (trimSpace (r.idempotencyKeys.headD ""))

/-- `strconv.ParseBool`. -/
def parseBool : String → Option Bool
  | "1" | "t" | "T" | "true" | "TRUE" | "True" => some true
  | "0" | "f" | "F" | "false" | "FALSE" | "False" => some false
  | _ => none

section Responses

/-- What a handler answers. The text of an error is the value of its member `error`. -/
structure Response (β : Type) where
  status : ℕ
  body : Except String β
  /-- `Cache-Control: no-store`. -/
  noStore : Bool := false

variable {β : Type}

def failure (status : ℕ) (message : String) : Response β :=
  { status, body := .error message }

def badRequest (message : String) : Response β :=
  failure 400 message

def unauthorized (message : String) : Response β :=
  failure 401 message

def internalError : Response β :=
  failure 500 "internal error"

end Responses

section Credentials

/-- What a credential in a header comes to. -/
inductive Credential (α : Type)
  | missing
  | invalid
  | valid (a : α)
  deriving DecidableEq

def Credential.toOption {α : Type} : Credential α → Option α
  | .valid a => some a
  | _ => none

/-- A text behind blanks, unless nothing is left of it. -/
def token (value : String) : Option String :=
  nonEmpty (trimSpace value)

/-- Exactly one value is a token. -/
def onlyToken (values : List String) : Option String :=
  match values with
  | [value] => token value
  | _ => none

/-- Exactly one value, which starts with `Bearer` and a blank. -/
def bearerToken (values : List String) : Option String :=
  match values with
  | [value] =>
    if "Bearer ".toList <+: value.toList then token (String.ofList (value.toList.drop 7)) else none
  | _ => none

def credential {α : Type} (token : Option String) (resolve : String → Option α) :
    Credential α :=
  match token with
  | none => .missing
  | some t =>
    match resolve t with
    | none => .invalid
    | some a => .valid a

structure DeviceIdentity where
  deviceId : UUID
  userId : Option UUID
  deriving DecidableEq

/-- `DevicesService.ResolveToken`. -/
def resolveToken (cfg : Config) (w : World) (rawToken : String) : Option DeviceIdentity :=
  (w.db.tables.devices.find? fun d => d.tokenHash == hashDeviceToken cfg rawToken).bind fun d =>
    if d.revokedAt.isSome then none else some { deviceId := d.id, userId := d.userId }

/-- The account of the access token. -/
def bearer (jwt : Jwt) (now : Instant) (r : HttpRequest) : Credential UUID :=
  credential (bearerToken r.authorization) (validateAccessToken jwt now)

def device (cfg : Config) (w : World) (r : HttpRequest) : Credential DeviceIdentity :=
  credential (onlyToken r.deviceToken) (resolveToken cfg w)

/-- Middleware that answers for its handler unless the credential is valid. -/
def require {α β : Type} (name : String) (c : Credential α) (w : World)
    (next : α → Response β × World) : Response β × World :=
  match c with
  | .missing => (unauthorized ("missing " ++ name ++ " token"), w)
  | .invalid => (unauthorized ("invalid " ++ name ++ " token"), w)
  | .valid a => next a

/-- What holds of every refusal holds of the answer if it does under a valid credential. -/
theorem require_of {α β : Type} {name : String} {c : Credential α} {w : World}
    {next : α → Response β × World} {Q : Response β × World → Prop}
    (hstay : ∀ answer, Q (answer, w)) (hnext : ∀ a, c = .valid a → Q (next a)) :
    Q (require name c w next) := by
  unfold require
  split
  · exact hstay _
  · exact hstay _
  · next a => exact hnext a rfl

end Credentials

section Bodies

variable {ρ α β : Type} {r : HttpRequest} {w : World} {Q : Response β × World → Prop}

/-- A handler that reads the body first. -/
def withBody (strict : Bool) (fields : List (Decoding.Field ρ)) (zero : ρ) (r : HttpRequest)
    (w : World) (next : ρ → Response β × World) : Response β × World :=
  match (decodeFirst r.body).bind (decodeRecord strict fields zero) with
  | none => (badRequest "invalid request body", w)
  | some req => next req

theorem withBody_of {strict : Bool} {fields : List (Decoding.Field ρ)} {zero : ρ}
    {next : ρ → Response β × World} (hstay : ∀ answer, Q (answer, w))
    (hnext : ∀ req, (decodeFirst r.body).bind (decodeRecord strict fields zero) = some req →
      Q (next req)) : Q (withBody strict fields zero r w next) := by
  unfold withBody
  split
  · exact hstay _
  · next hdecode => exact hnext _ hdecode

/-- `strconv.Atoi` on the query's `limit`, which may be absent. -/
def withLimit (message : String) (r : HttpRequest) (w : World)
    (next : ℤ → Response β × World) : Response β × World :=
  let raw := valueOf "limit" r.query
  if raw = "" then next 0
  else
    match parseInt raw.toList with
    | none => (badRequest message, w)
    | some limit => next limit

theorem withLimit_of {message : String} {next : ℤ → Response β × World}
    (hstay : ∀ answer, Q (answer, w)) (hnext : ∀ limit, Q (next limit)) :
    Q (withLimit message r w next) := by
  unfold withLimit
  dsimp only
  split
  · exact hnext 0
  · split
    · exact hstay _
    · exact hnext _

def writeMultipartParseError : FormError → Response β
  | .tooLarge => failure 413 "request too large"
  | .malformed => badRequest "invalid multipart form"

def withForm (r : HttpRequest) (w : World) (next : Form → Response β × World) :
    Response β × World :=
  match r.form with
  | .error e => (writeMultipartParseError e, w)
  | .ok form => next form

theorem withForm_of {next : Form → Response β × World} (hstay : ∀ answer, Q (answer, w))
    (hnext : ∀ form, Q (next form)) : Q (withForm r w next) := by
  unfold withForm
  split
  · exact hstay _
  · exact hnext _

/-- The answer to what a service has returned. -/
def respond (onError : Error → Response β) (onOk : α → Response β) (x : Except Error α × World) :
    Response β × World :=
  (match x.1 with
    | .ok a => onOk a
    | .error e => onError e, x.2)

end Bodies

end Tekir.HttpRequests
