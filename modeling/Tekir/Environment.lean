import Tekir.Store

/-!
# What a service call depends on

`Config` is fixed at wiring time, `Env` is what one call draws from outside (clocks,
generated values, the answers of the moderator, the object store, the push and
verification providers), and `World` is what a call changes: the committed database,
the stored objects and the pushes that left the process. Client text is normalised
here as the services do it.
-/
namespace Tekir.Environment
open Table Schema Statements

structure Config where
  otpTTL : ℤ
  otpMaxAttempts : ℤ
  resendCooldown : ℤ
  refreshTokenTTL : ℤ
  batchSize : ℕ := 50
  sha256 : String → String
  /-- `st_dwithin(area, point, 50)`. -/
  dwithin : Point → Point → Bool

/-- One needs-help notification addressed to one installation. -/
structure PushMessage where
  deviceId : UUID
  pushToken : String
  catId : UUID
  updateId : UUID
  deriving DecidableEq

inductive SendOutcome | delivered | tokenInvalid | failed
  deriving DecidableEq, Repr

/-- An external verification provider's answers. -/
structure OTPProvider where
  startVerification : Except Error Unit
  checkVerification : Except Error Unit

structure Env where
  clock : Instant
  /-- `now()` of the call's transaction. -/
  now : Instant
  /-- The identifiers the call generates, in order. -/
  uuid : ℕ → UUID
  otpCode : String := ""
  token : String := ""
  objectKey : String := ""
  /-- What the media pipeline makes of the bytes. -/
  process : Except Error ContentType := .ok .imageJpeg
  moderateText : String → Except Error Bool := fun _ => .ok true
  moderateImage : Except Error Bool := .ok true
  put : Except Error String := .ok ""
  /-- Whether the object store carries out a delete. -/
  deletes : String → Bool := fun _ => true
  send : PushMessage → SendOutcome := fun _ => .delivered
  smsSend : Except Error Unit := .ok ()
  external : Option OTPProvider := none

structure World where
  db : Database
  objects : List String := []
  sent : List PushMessage := []

/-- A transaction's result is committed, an error leaves the world as it was. -/
def World.commit {α : Type} (w : World) : Except Error (α × Database) → Except Error α × World
  | .ok (a, db) => (.ok a, { w with db })
  | .error e => (.error e, w)

/-- A single statement without a result. -/
def World.run (w : World) : Except Error Database → Except Error Unit × World
  | .ok db => (.ok (), { w with db })
  | .error e => (.error e, w)

/-- `ObjectStore.Delete`; a delete that fails is logged. -/
def World.deleteObject (env : Env) (w : World) (key : String) : World :=
  if env.deletes key then { w with objects := w.objects.filter fun k => k != key } else w

theorem commit_db {α : Type} (w : World) (x : Except Error (α × Database)) :
    (w.commit x).2.db = w.db ∨ ∃ a, x = .ok (a, (w.commit x).2.db) := by
  rcases x with e | ⟨a, db⟩
  · exact .inl rfl
  · exact .inr ⟨a, rfl⟩

theorem run_db (w : World) (x : Except Error Database) :
    (w.run x).2.db = w.db ∨ x = .ok (w.run x).2.db := by
  rcases x with e | db
  · exact .inl rfl
  · exact .inr rfl

@[simp] theorem deleteObject_db (env : Env) (w : World) (key : String) :
    (w.deleteObject env key).db = w.db := by
  unfold World.deleteObject
  split <;> rfl

/-- `unicode.IsSpace`. -/
def isSpace (c : Char) : Bool :=
  let n := c.toNat
  (9 ≤ n && n ≤ 13) || n == 32 || n == 0x85 || n == 0xA0 || n == 0x1680 ||
    (0x2000 ≤ n && n ≤ 0x200a) || n == 0x2028 || n == 0x2029 || n == 0x202f || n == 0x205f ||
    n == 0x3000

/-- `strings.TrimSpace`. -/
def trimSpace (s : String) : String :=
  String.ofList ((s.toList.dropWhile isSpace).reverse.dropWhile isSpace).reverse

def onlyDigits (raw : String) : List Char :=
  raw.toList.filter fun c => '0' ≤ c && c ≤ '9'

def turkishMobileDigits : ℕ := 10

def normalizePhone (raw : String) : Except Error String :=
  let digits := onlyDigits raw
  let normalized (subscriber : List Char) := Except.ok (String.ofList ("+90".toList ++ subscriber))
  if digits.length = turkishMobileDigits ∧ "5".toList <+: digits then normalized digits
  else if digits.length = turkishMobileDigits + 1 ∧ "05".toList <+: digits then
    normalized (digits.drop 1)
  else if digits.length = turkishMobileDigits + 2 ∧ "905".toList <+: digits then
    normalized (digits.drop 2)
  else .error .invalidPhone

/-- The code is hashed together with its phone number. -/
def hashOTPCode (cfg : Config) (phone code : String) : String :=
  cfg.sha256 (phone ++ ":" ++ code)

def hashRefreshToken (cfg : Config) (rawToken : String) : String :=
  cfg.sha256 rawToken

def hashDeviceToken (cfg : Config) (rawToken : String) : String :=
  cfg.sha256 rawToken

def approvedStatus : String → Option Status
  | "seen" => some .seen
  | "fed" => some .fed
  | "water_provided" => some .waterProvided
  | _ => none

def needsHelpCategory : String → Option Category
  | "injured_or_sick" => some .injuredOrSick
  | "food_needed" => some .foodNeeded
  | "water_needed" => some .waterNeeded
  | "unsafe_location" => some .unsafeLocation
  | "trapped" => some .trapped
  | _ => none

def reportTargetType : String → Option TargetType
  | "cat" => some .cat
  | "update" => some .update
  | "media" => some .media
  | _ => none

def reportReason : String → Option Reason
  | "inappropriate" => some .inappropriate
  | "not_a_cat" => some .notACat
  | "wrong_info" => some .wrongInfo
  | "spam" => some .spam
  | "privacy" => some .privacy
  | "other" => some .other
  | _ => none

def allowedPlatform : String → Option Platform
  | "ios" => some .ios
  | "android" => some .android
  | "web" => some .web
  | _ => none

end Tekir.Environment
