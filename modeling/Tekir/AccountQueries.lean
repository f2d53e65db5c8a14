import Tekir.Statements

/-!
# Account queries

The statements of `users.sql`, `devices.sql`, `refresh_tokens.sql`, `otp_codes.sql`
and `user_blocks.sql`. A query reads a database; a statement that writes yields the
next one or the error it fails with. Values PostgreSQL fills in itself (`now()`,
generated identifiers) are arguments.
-/
namespace Tekir.AccountQueries
open Table Schema Statements

def createUser (id : UUID) (phone : String) (phoneVerifiedAt : Instant) (db : Database) :
    Except Error (User × Database) := do
  let row : User := { id, phone, phoneVerifiedAt }
  let db ← db.write fun t => { t with users := t.users ++ [row] }
  return (row, db)

def getUserByPhone (phone : String) (db : Database) : Except Error User :=
  one (db.tables.users.filter fun u => u.phone == phone)

def getUserByID (id : UUID) (db : Database) : Except Error User :=
  one (db.tables.users.filter fun u => u.id == id)

def updateUserDisplayName (id : UUID) (displayName : String) (db : Database) :
    Except Error Database :=
  db.write fun t =>
    { t with
      users := updateWhere (fun u => u.id == id)
        (fun u => { u with displayName := some displayName }) t.users }

def createDevice (id : UUID) (tokenHash : String) (pushToken : Option String)
    (platform : Platform) (db : Database) : Except Error Database :=
  db.write fun t => { t with devices := t.devices ++ [{ id, tokenHash, pushToken, platform }] }

def getDeviceByID (id : UUID) (db : Database) : Except Error Device :=
  one (db.tables.devices.filter fun d => d.id == id)

def linkDeviceToUser (userId id : UUID) (db : Database) : Except Error Database :=
  db.write fun t =>
    { t with
      devices := updateWhere (fun d => d.id == id)
        (fun d => { d with userId := some userId }) t.devices }

/-- The common table expression takes the token off every other row. -/
def setDevicePushToken (pushToken : String) (deviceId : UUID) (db : Database) :
    Except Error Database :=
  db.write fun t =>
    { t with
      devices := t.devices.map fun d =>
        if d.id = deviceId then { d with pushToken := some pushToken }
        else if d.pushToken = some pushToken then { d with pushToken := none }
        else d }

def clearPushToken (deviceId : UUID) (pushToken : Option String) (t : Tables) : Tables :=
  { t with
    devices := updateWhere
      (fun d => d.id == deviceId && pushToken.isSome && d.pushToken == pushToken)
      (fun d => { d with pushToken := none }) t.devices }

def clearDevicePushToken (deviceId : UUID) (pushToken : Option String) (db : Database) :
    Except Error Database :=
  db.write (clearPushToken deviceId pushToken)

def unlinkDeviceFromUser (id userId : UUID) (db : Database) : Except Error Database :=
  db.write fun t =>
    { t with
      devices := updateWhere (fun d => d.id == id && d.userId == some userId)
        (fun d => { d with userId := none }) t.devices }

def createRefreshToken (id userId : UUID) (tokenHash : String) (expiresAt : Instant)
    (db : Database) : Except Error Database :=
  db.write fun t =>
    { t with
      refreshTokens := t.refreshTokens ++ [{ id, userId, tokenHash, expiresAt }] }

def getRefreshTokenByHash (tokenHash : String) (db : Database) : Except Error RefreshToken :=
  one (db.tables.refreshTokens.filter fun r => r.tokenHash == tokenHash)

def revokeRefreshToken (revokedAt : Instant) (id : UUID) (db : Database) :
    Except Error Database :=
  db.write fun t =>
    { t with
      refreshTokens := updateWhere (fun r => r.id == id)
        (fun r => { r with revokedAt := some revokedAt }) t.refreshTokens }

/-- Returns the account of the row it revoked. -/
def revokeRefreshTokenIfActive (revokedAt : Instant) (id : UUID) (now : Instant) (db : Database) :
    Except Error (UUID × Database) := do
  let active : RefreshToken → Bool := fun r =>
    r.id == id && r.revokedAt.isNone && decide (now < r.expiresAt)
  let row ← one (db.tables.refreshTokens.filter active)
  let db ← db.write fun t =>
    { t with
      refreshTokens := updateWhere active
        (fun r => { r with revokedAt := some revokedAt }) t.refreshTokens }
  return (row.userId, db)

def createOtpCode (id : UUID) (phone codeHash : String) (maxAttempts : ℤ)
    (expiresAt now : Instant) (db : Database) : Except Error Database :=
  db.write fun t =>
    { t with
      otpCodes := t.otpCodes ++
        [{ id, phone, codeHash, maxAttempts, expiresAt, createdAt := now }] }

/-- `order by created_at desc limit 1`. -/
def latestOtpCode (phone : String) (codes : List OtpCode) : Option OtpCode :=
  (orderBy (fun a b => decide (b.createdAt ≤ a.createdAt))
    (codes.filter fun o => o.phone == phone)).head?

def getLatestOtpCode (phone : String) (db : Database) : Except Error OtpCode :=
  one (latestOtpCode phone db.tables.otpCodes).toList

def incrementOtpAttempts (id : UUID) (db : Database) : Except Error Database :=
  db.write fun t =>
    { t with
      otpCodes := updateWhere (fun o => o.id == id)
        (fun o => { o with attempts := o.attempts + 1 }) t.otpCodes }

def consumeOtpCodeIfValid (consumedAt : Instant) (id : UUID) (codeHash : String) (now : Instant)
    (phone : String) (db : Database) : Except Error (UUID × Database) := do
  let valid : OtpCode → Bool := fun o =>
    o.id == id && o.codeHash == codeHash && o.consumedAt.isNone && decide (now < o.expiresAt) &&
      decide (o.attempts < o.maxAttempts) &&
      (latestOtpCode phone db.tables.otpCodes).any fun latest => latest.id == o.id
  let row ← one (db.tables.otpCodes.filter valid)
  let db ← db.write fun t =>
    { t with
      otpCodes := updateWhere valid
        (fun o => { o with consumedAt := some consumedAt }) t.otpCodes }
  return (row.id, db)

/-- `on conflict (blocker_user_id, blocked_user_id) do nothing`. -/
def createBlock (blockerUserId blockedUserId : UUID) (db : Database) : Except Error Database :=
  if db.tables.userBlocks.any fun b =>
      b.blockerUserId == blockerUserId && b.blockedUserId == blockedUserId then .ok db
  else db.write fun t =>
    { t with
      userBlocks := t.userBlocks ++ [{ blockerUserId, blockedUserId }] }

def deleteBlock (blockerUserId blockedUserId : UUID) (db : Database) : Except Error Database :=
  db.write fun t =>
    { t with
      userBlocks := deleteWhere
        (fun b => b.blockerUserId == blockerUserId && b.blockedUserId == blockedUserId)
        t.userBlocks }

/-- Whether the viewer blocks the account; a null viewer or account matches no row. -/
def blocks (viewer owner : Option UUID) (db : Database) : Bool :=
  db.tables.userBlocks.any fun b => viewer == some b.blockerUserId && owner == some b.blockedUserId

end Tekir.AccountQueries
