import Tekir.CatQueries

/-!
# Update, follow and report queries

The statements of `updates.sql`, `follows.sql` and `reports.sql`. Comparisons with a
null column are false, as in a `where` clause.
-/
namespace Tekir.UpdateQueries
open Table Schema Statements AccountQueries CatQueries

structure CreateUpdateParams where
  id : UUID
  catId : UUID
  kind : UpdateKind := .ordinary
  comment : Option String
  createdAt : Instant
  needsHelp : Bool
  needsHelpCategory : Option Category
  needsHelpExpiresAt : Option Instant
  authorDeviceId : Option UUID
  authorUserId : Option UUID
  idempotencyKey : Option String
  mediaId : Option UUID

/-- The assignments of `on conflict (id) do update`. -/
def CreateUpdateParams.assign (arg : CreateUpdateParams) (u : Update) : Update :=
  { u with
    kind := arg.kind, comment := arg.comment, createdAt := arg.createdAt
    needsHelp := arg.needsHelp, needsHelpCategory := arg.needsHelpCategory
    needsHelpExpiresAt := arg.needsHelpExpiresAt, authorDeviceId := arg.authorDeviceId
    authorUserId := arg.authorUserId, idempotencyKey := arg.idempotencyKey
    mediaId := arg.mediaId }

/-- The row as it is inserted. -/
def CreateUpdateParams.insert (arg : CreateUpdateParams) (seq : ℕ) : Update :=
  arg.assign { id := arg.id, catId := arg.catId, createdAt := arg.createdAt, seq }

/-- On a conflict the cat and the sequence number of the existing row stay. -/
def createUpdate (arg : CreateUpdateParams) (db : Database) : Except Error (UUID × Database) := do
  let db ← db.write fun t =>
    if t.updates.any fun u => u.id == arg.id then
      { t with
        updates := updateWhere (fun u => u.id == arg.id) arg.assign t.updates
        updatesSeq := t.updatesSeq + 1 }
    else
      { t with
        updates := t.updates ++ [arg.insert t.updatesSeq]
        updatesSeq := t.updatesSeq + 1 }
  return (arg.id, db)

def getUpdateByIdempotencyKey (authorUserId : UUID) (idempotencyKey : String) (db : Database) :
    Except Error Update :=
  one (db.tables.updates.filter fun u =>
    u.authorUserId == some authorUserId && u.idempotencyKey == some idempotencyKey &&
      u.kind == .ordinary)

def backfillUpdatesAuthorUserID (authorUserId authorDeviceId : UUID) (db : Database) :
    Except Error Database :=
  db.write fun t =>
    { t with
      updates := updateWhere (fun u => u.authorDeviceId == some authorDeviceId && u.authorUserId.isNone)
        (fun u => { u with authorUserId := some authorUserId }) t.updates }

/-- `on conflict (update_id, status) do nothing`. -/
def createUpdateStatus (updateId : UUID) (status : Status) (db : Database) :
    Except Error Database :=
  if db.tables.updateStatuses.any fun s => s.updateId == updateId && s.status == status then .ok db
  else db.write fun t => { t with updateStatuses := t.updateStatuses ++ [{ updateId, status }] }

/-- The text of a status, which `order by status` compares. -/
def statusText : Status → String
  | .seen => "seen"
  | .fed => "fed"
  | .waterProvided => "water_provided"

def orderStatuses (statuses : List Status) : List Status :=
  orderBy (fun a b => decide (statusText a ≤ statusText b)) statuses

def listUpdateStatuses (updateId : UUID) (db : Database) : List Status :=
  orderStatuses
    ((db.tables.updateStatuses.filter fun s => s.updateId == updateId).map UpdateStatus.status)

def replaceUpdateStatuses (updateId : UUID) (db : Database) : Except Error Database :=
  db.write fun t =>
    { t with updateStatuses := deleteWhere (fun s => s.updateId == updateId) t.updateStatuses }

structure CorrectOrdinaryUpdateParams where
  setComment : Bool
  comment : Option String
  updatedAt : Instant
  clearNeedsHelp : Bool
  id : UUID
  catId : UUID
  authorUserId : UUID
  windowStart : Instant
  replaceStatuses : Bool
  hasStatuses : Bool

/-- The `where` clause, with the sub-query over `update_statuses` answered by `carriesStatus`. -/
def CorrectOrdinaryUpdateParams.matches (arg : CorrectOrdinaryUpdateParams) (carriesStatus : Bool)
    (u : Update) : Bool :=
  u.id == arg.id && u.catId == arg.catId && u.authorUserId == some arg.authorUserId &&
    u.kind == .ordinary && u.deletedAt.isNone && decide (arg.windowStart < u.createdAt) &&
    ((if arg.replaceStatuses then arg.hasStatuses else carriesStatus) ||
      (u.needsHelp && !arg.clearNeedsHelp))

/-- The assignments of the `set` clause. -/
def CorrectOrdinaryUpdateParams.assign (arg : CorrectOrdinaryUpdateParams) (u : Update) : Update :=
  { u with
    comment := if arg.setComment then arg.comment else u.comment
    updatedAt := some arg.updatedAt
    needsHelp := u.needsHelp && !arg.clearNeedsHelp
    needsHelpExpiresAt := if arg.clearNeedsHelp then none else u.needsHelpExpiresAt
    needsHelpCategory := if arg.clearNeedsHelp then none else u.needsHelpCategory }

def carriesStatus (updateId : UUID) (statuses : List UpdateStatus) : Bool :=
  statuses.any fun s => s.updateId == updateId

/-- The statement on the newest version of the row, with the answer of the sub-query given. -/
def recheckCorrection (arg : CorrectOrdinaryUpdateParams) (carriesStatus : Bool) (db : Database) :
    Except Error (Update × Database) := do
  let admitted := arg.matches carriesStatus
  let row ← one (db.tables.updates.filter admitted)
  let db ← db.write fun t => { t with updates := updateWhere admitted arg.assign t.updates }
  return (arg.assign row, db)

def correctOrdinaryUpdate (arg : CorrectOrdinaryUpdateParams) (db : Database) :
    Except Error (Update × Database) :=
  recheckCorrection arg (carriesStatus arg.id db.tables.updateStatuses) db

structure DeleteOwnUpdateParams where
  deletedAt : Instant
  id : UUID
  catId : UUID
  authorUserId : UUID
  windowStart : Instant

/-- The update's media is the current cover of its cat. -/
def holdsCover (u : Update) (db : Database) : Bool :=
  db.tables.cats.any fun c =>
    c.id == u.catId && u.mediaId.isSome && c.primaryPhotoId == u.mediaId

def deleteOwnUpdate (arg : DeleteOwnUpdateParams) (db : Database) :
    Except Error (Update × Database) := do
  let admitted : Update → Bool := fun u =>
    u.id == arg.id && u.catId == arg.catId && u.authorUserId == some arg.authorUserId &&
      u.kind == .ordinary && u.deletedAt.isNone && decide (arg.windowStart < u.createdAt) &&
      !holdsCover u db
  let row ← one (db.tables.updates.filter admitted)
  let db ← db.write fun t =>
    { t with
      updates := updateWhere admitted (fun u => { u with deletedAt := some arg.deletedAt })
        t.updates }
  return ({ row with deletedAt := some arg.deletedAt }, db)

def getUpdateForCorrectionCheck (id catId : UUID) (db : Database) : Except Error (Update × Bool) := do
  let u ← one (db.tables.updates.filter fun u => u.id == id && u.catId == catId)
  return (u, holdsCover u db)

def updateExists (id : UUID) (db : Database) : Bool :=
  db.tables.updates.any fun u => u.id == id && u.deletedAt.isNone

def insertFollow (row : Follow) (t : Tables) : Tables :=
  { t with follows := t.follows ++ [row] }

/-- The conflict target is `follows_user_cat_uq` alone. -/
def createFollow (userId : UUID) (deviceId : Option UUID) (catId : UUID) (db : Database) :
    Except Error Database :=
  if db.tables.follows.any fun f => f.userId == some userId && f.catId == catId then .ok db
  else db.write (insertFollow { userId := some userId, deviceId, catId })

def deleteFollow (userId catId : UUID) (db : Database) : Except Error Database :=
  db.write fun t =>
    { t with
      follows := deleteWhere (fun f => f.userId == some userId && f.catId == catId) t.follows }

def deleteRedundantDeviceFollows (deviceId userId : UUID) (db : Database) : Except Error Database :=
  db.write fun t =>
    { t with
      follows := deleteWhere (fun f =>
        f.deviceId == some deviceId && f.userId.isNone &&
          t.follows.any fun owned => owned.catId == f.catId && owned.userId == some userId)
        t.follows }

def backfillFollowsUserID (userId deviceId : UUID) (db : Database) : Except Error Database :=
  db.write fun t =>
    { t with
      follows := updateWhere (fun f => f.deviceId == some deviceId && f.userId.isNone)
        (fun f => { f with userId := some userId }) t.follows }

/-- On a conflict in `reports_reporter_target_open_uq` nothing is inserted and no row returned. -/
def createReport (row : Report) (db : Database) : Except Error (Report × Database) := do
  if db.tables.reports.any fun r =>
      r.reporterUserId == row.reporterUserId && r.targetType == row.targetType &&
        r.targetId == row.targetId && r.status == .«open» && row.status == .«open» then
    .error .noRows
  else
    let db ← db.write fun t => { t with reports := t.reports ++ [row] }
    return (row, db)

def getOpenReportByReporterAndTarget (reporterUserId : UUID) (targetType : TargetType)
    (targetId : UUID) (db : Database) : Except Error Report :=
  one (db.tables.reports.filter fun r =>
    r.reporterUserId == reporterUserId && r.targetType == targetType &&
      r.targetId == targetId && r.status == .«open»)

end Tekir.UpdateQueries
