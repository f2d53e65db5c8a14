import Tekir.Environment

/-!
# Account services

`AuthService`, `SessionService`, `DevicesService`, `BlocksService` and
`AccountsService`, wired with a transaction runner. A call reads first and then
commits at most one transaction, apart from the places where the source writes
outside one.
-/
namespace Tekir.AccountServices
open Table Schema Statements AccountQueries CatQueries UpdateQueries Store Environment

structure Session where
  refreshToken : String
  userId : UUID
  isNewAccount : Bool := false
  deriving DecidableEq

/-- `SessionService.issue`. The access token is stateless and leaves no trace. -/
def issue (cfg : Config) (env : Env) (userId : UUID) (db : Database) :
    Except Error (Session × Database) := do
  let db ← createRefreshToken (env.uuid 1) userId (hashRefreshToken cfg env.token)
    (env.clock + cfg.refreshTokenTTL) db
  return ({ refreshToken := env.token, userId }, db)

/-- A unique violation aborts the transaction, so the lookup that follows fails as well. -/
def resolveOrCreateUser (env : Env) (phone : String) (now : Instant) (db : Database) :
    Except Error ((User × Bool) × Database) :=
  match getUserByPhone phone db with
  | .ok existing => .ok ((existing, false), db)
  | .error .noRows =>
    match createUser (env.uuid 0) phone now db with
    | .ok (created, db) => .ok ((created, true), db)
    | .error e => .error (if isUniqueViolation e then .transactionAborted else e)
  | .error e => .error e

/-- A device linked to another account is refused, one already linked to this one stays. -/
def relink (device : Device) (deviceId userId : UUID) (db : Database) : Except Error Database :=
  match device.userId with
  | some owner => if owner = userId then .ok db else .error .deviceLinkedToOtherAccount
  | none => linkDeviceToUser userId deviceId db

def linkDevice (deviceId userId : UUID) (db : Database) : Except Error Database := do
  let device ← getDeviceByID deviceId db
  let db ← relink device deviceId userId db
  let db ← deleteRedundantDeviceFollows deviceId userId db
  let db ← backfillFollowsUserID userId deviceId db
  backfillUpdatesAuthorUserID userId deviceId db

def sessionForVerifiedPhone (cfg : Config) (env : Env) (phone : String) (deviceId : UUID)
    (now : Instant) (db : Database) : Except Error (Session × Database) := do
  let ((user, isNew), db) ← resolveOrCreateUser env phone now db
  let db ← linkDevice deviceId user.id db
  let (session, db) ← issue cfg env user.id db
  return ({ session with isNewAccount := isNew }, db)

def requestOTP (cfg : Config) (env : Env) (rawPhone : String) (w : World) :
    Except Error Unit × World :=
  match normalizePhone rawPhone, env.external with
  | .error e, _ => (.error e, w)
  | .ok _, some provider => (provider.startVerification, w)
  | .ok phone, none =>
    let tooSoon := (latestOtpCode phone w.db.tables.otpCodes).any fun latest =>
      decide (env.clock - latest.createdAt < cfg.resendCooldown)
    if tooSoon then (.error .otpResendTooSoon, w)
    else
      match createOtpCode (env.uuid 0) phone (hashOTPCode cfg phone env.otpCode)
          cfg.otpMaxAttempts (env.clock + cfg.otpTTL) env.now w.db with
      | .error e => (.error e, w)
      | .ok db => (env.smsSend, { w with db })

/-- The pre-checks of `VerifyOTP` on the code row it read. -/
def otpPrecheck (row : OtpCode) (now : Instant) : Except Error Unit :=
  if row.consumedAt.isSome then .error .otpAlreadyConsumed
  else if row.expiresAt ≤ now then .error .otpExpired
  else if row.maxAttempts ≤ row.attempts then .error .otpTooManyAttempts
  else .ok ()

/-- The row a presented code is compared with. -/
def readOTP (phone : String) (now : Instant) (db : Database) : Except Error OtpCode :=
  match getLatestOtpCode phone db with
  | .error .noRows => .error .otpNotRequested
  | .error e => .error e
  | .ok row => do
    otpPrecheck row now
    return row

def consumeAndOpen (cfg : Config) (env : Env) (phone : String) (row : OtpCode) (hash : String)
    (deviceId : UUID) (db : Database) : Except Error (Session × Database) := do
  let (_, db) ← consumeOtpCodeIfValid env.clock row.id hash env.clock phone db
  sessionForVerifiedPhone cfg env phone deviceId env.clock db

/-- `pgx.ErrNoRows` out of the verification transaction. -/
def asAlreadyConsumed {α : Type} : Except Error α → Except Error α
  | .error .noRows => .error .otpAlreadyConsumed
  | x => x

def verifyOTP (cfg : Config) (env : Env) (rawPhone code : String) (deviceId : UUID) (w : World) :
    Except Error Session × World :=
  match normalizePhone rawPhone, env.external with
  | .error e, _ => (.error e, w)
  | .ok phone, some provider =>
    match provider.checkVerification with
    | .error e => (.error e, w)
    | .ok () => w.commit (sessionForVerifiedPhone cfg env phone deviceId env.clock w.db)
  | .ok phone, none =>
    match readOTP phone env.clock w.db with
    | .error e => (.error e, w)
    | .ok row =>
      if hashOTPCode cfg phone code = row.codeHash then
        w.commit (asAlreadyConsumed
          (consumeAndOpen cfg env phone row (hashOTPCode cfg phone code) deviceId w.db))
      else
        match incrementOtpAttempts row.id w.db with
        | .error e => (.error e, w)
        | .ok db => (.error .otpCodeMismatch, { w with db })

def maxDisplayNameLength : ℕ := 60

def setDisplayName (userId : UUID) (displayName : String) (w : World) :
    Except Error Unit × World :=
  let name := trimSpace displayName
  if name = "" ∨ maxDisplayNameLength < name.utf8ByteSize then (.error .invalidDisplayName, w)
  else w.run (updateUserDisplayName userId name w.db)

def unlinkDevice (deviceId userId : UUID) (w : World) : Except Error Unit × World :=
  w.run (unlinkDeviceFromUser deviceId userId w.db)

def refresh (cfg : Config) (env : Env) (rawRefreshToken : String) (w : World) :
    Except Error Session × World :=
  match getRefreshTokenByHash (hashRefreshToken cfg rawRefreshToken) w.db with
  | .error .noRows => (.error .sessionInvalid, w)
  | .error e => (.error e, w)
  | .ok row =>
    if row.revokedAt.isSome then (.error .sessionRevoked, w)
    else if row.expiresAt ≤ env.clock then (.error .sessionExpired, w)
    else
      let rotated := do
        let (userId, db) ← revokeRefreshTokenIfActive env.clock row.id env.clock w.db
        issue cfg env userId db
      w.commit (match rotated with
        | .error .noRows => .error .sessionRevoked
        | x => x)

def revoke (cfg : Config) (env : Env) (rawRefreshToken : String) (w : World) :
    Except Error Unit × World :=
  match getRefreshTokenByHash (hashRefreshToken cfg rawRefreshToken) w.db with
  | .error .noRows => (.ok (), w)
  | .error e => (.error e, w)
  | .ok row =>
    if row.revokedAt.isSome then (.ok (), w)
    else w.run (revokeRefreshToken env.clock row.id w.db)

/-- The handler: unlinking is best-effort and only for a presented device. -/
def logout (cfg : Config) (env : Env) (userId : UUID) (rawRefreshToken : String)
    (deviceId : Option UUID) (w : World) : Except Error Unit × World :=
  match revoke cfg env rawRefreshToken w with
  | (.error e, w) => (.error e, w)
  | (.ok (), w) =>
    match deviceId with
    | none => (.ok (), w)
    | some d => (.ok (), (unlinkDevice d userId w).2)

/-- Returns the identifier and the raw token, which is stored only as a hash. -/
def register (cfg : Config) (env : Env) (platform : String) (pushToken : Option String)
    (w : World) : Except Error (UUID × String) × World :=
  match allowedPlatform platform with
  | none => (.error .invalidPlatform, w)
  | some p =>
    match createDevice (env.uuid 0) (hashDeviceToken cfg env.token) pushToken p w.db with
    | .error e => (.error e, w)
    | .ok db => (.ok (env.uuid 0, env.token), { w with db })

def maxPushTokenLength : ℕ := 4096

def setPushToken (deviceId : UUID) (pushToken : String) (w : World) : Except Error Unit × World :=
  let token := trimSpace pushToken
  if token = "" ∨ maxPushTokenLength < token.utf8ByteSize then (.error .invalidPushToken, w)
  else w.run (setDevicePushToken token deviceId w.db)

/-- `none` is a blocked id that is not a uuid. -/
def block (blocker : UUID) (blockedUserId : Option UUID) (w : World) : Except Error Unit × World :=
  match blockedUserId with
  | none => (.error .invalidBlockedUserID, w)
  | some blocked =>
    if blocker = blocked then (.error .cannotBlockSelf, w)
    else
      match getUserByID blocked w.db with
      | .error .noRows => (.error .blockedUserNotFound, w)
      | .error e => (.error e, w)
      | .ok _ => w.run (createBlock blocker blocked w.db)

def unblock (blocker : UUID) (blockedUserId : Option UUID) (w : World) :
    Except Error Unit × World :=
  match blockedUserId with
  | none => (.error .invalidBlockedUserID, w)
  | some blocked =>
    if blocker = blocked then (.error .cannotBlockSelf, w)
    else w.run (deleteBlock blocker blocked w.db)

/-- `AccountsService.Delete`. The objects go after the commit, each delete best-effort. -/
def delete (env : Env) (userId : UUID) (w : World) : Except Error Unit × World :=
  match getUserByID userId w.db with
  | .error .noRows => (.ok (), w)
  | .error e => (.error e, w)
  | .ok user =>
    match deleteAccount env.now userId user.phone w.db with
    | .error e => (.error e, w)
    | .ok (objectKeys, db) =>
      (.ok (), objectKeys.foldl (World.deleteObject env) { w with db })

end Tekir.AccountServices
