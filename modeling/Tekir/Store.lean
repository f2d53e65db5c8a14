import Tekir.DeletionQueries

/-!
# Store transactions

The multi-statement writes of `repository.Store`. Each body runs its statements in
order; the first error is the result of the whole transaction and leaves the
database as it was.
-/
namespace Tekir.Store
open Table Schema Statements AccountQueries CatQueries UpdateQueries NotificationQueries
  DeletionQueries

/-- `err != nil && !errors.Is(err, pgx.ErrNoRows)`. -/
def unlessNoRows {α : Type} (db : Database) : Except Error (α × Database) → Except Error Database
  | .ok (_, db') => .ok db'
  | .error .noRows => .ok db
  | .error e => .error e

structure CreateCatWithMediaRow where
  cat : Cat
  media : Medium

/-- The media row, the cat that shows it and the archive entry linking the two. -/
def createCatWithMedia (catMediaId : UUID) (now : Instant) (media : Medium) (cat : CreateCatParams)
    (db : Database) : Except Error (CreateCatWithMediaRow × Database) := do
  let (media, db) ← createMedia media db
  let (cat, db) ← createCat { cat with primaryPhotoId := some media.id } now db
  let (_, db) ← createCatMedia catMediaId cat.id media.id cat.createdAt db
  return (⟨cat, media⟩, db)

structure CreateOrdinaryUpdateParams where
  id : UUID
  catId : UUID
  authorDeviceId : Option UUID
  authorUserId : UUID
  comment : Option String
  createdAt : Instant
  statuses : List Status
  idempotencyKey : Option String := none
  needsHelp : Bool := false
  needsHelpCategory : Option Category := none
  needsHelpExpiresAt : Option Instant := none
  mediaId : Option UUID := none

def CreateOrdinaryUpdateParams.row (arg : CreateOrdinaryUpdateParams) : CreateUpdateParams :=
  { id := arg.id, catId := arg.catId, kind := .ordinary, comment := arg.comment
    createdAt := arg.createdAt, needsHelp := arg.needsHelp
    needsHelpCategory := arg.needsHelpCategory, needsHelpExpiresAt := arg.needsHelpExpiresAt
    authorDeviceId := arg.authorDeviceId, authorUserId := some arg.authorUserId
    idempotencyKey := arg.idempotencyKey, mediaId := arg.mediaId }

/-- An attached medium joins the cat's gallery; it may already be there. -/
def linkGallery (catMediaId : UUID) (arg : CreateOrdinaryUpdateParams) (db : Database) :
    Except Error Database :=
  match arg.mediaId with
  | none => .ok db
  | some mediaId => unlessNoRows db (createCatMedia catMediaId arg.catId mediaId arg.createdAt db)

def createOrdinaryUpdate (catMediaId outboxId : UUID) (now : Instant)
    (arg : CreateOrdinaryUpdateParams) (db : Database) : Except Error (UUID × Database) := do
  let (id, db) ← createUpdate arg.row db
  let db ← arg.statuses.foldlM (fun db status => createUpdateStatus id status db) db
  let db ← updateCatLastUpdateAt arg.createdAt arg.catId db
  let db ← linkGallery catMediaId arg db
  let db ← createNotificationOutbox outboxId id now db
  return (id, db)

structure CorrectOwnUpdateParams where
  id : UUID
  catId : UUID
  authorUserId : UUID
  setComment : Bool
  comment : Option String
  updatedAt : Instant
  windowStart : Instant
  replaceStatuses : Bool
  statuses : List Status
  clearNeedsHelp : Bool

def CorrectOwnUpdateParams.row (arg : CorrectOwnUpdateParams) : CorrectOrdinaryUpdateParams :=
  { setComment := arg.setComment, comment := arg.comment, updatedAt := arg.updatedAt
    clearNeedsHelp := arg.clearNeedsHelp, id := arg.id, catId := arg.catId
    authorUserId := arg.authorUserId, windowStart := arg.windowStart
    replaceStatuses := arg.replaceStatuses, hasStatuses := !arg.statuses.isEmpty }

def replaceStatuses (id : UUID) (statuses : List Status) (db : Database) :
    Except Error Database := do
  let db ← replaceUpdateStatuses id db
  statuses.foldlM (fun db status => createUpdateStatus id status db) db

/-- The corrected row and the statuses it carries afterwards. -/
def correctOwnUpdate (arg : CorrectOwnUpdateParams) (db : Database) :
    Except Error ((Update × List Status) × Database) := do
  let (row, db) ← correctOrdinaryUpdate arg.row db
  if arg.replaceStatuses then
    let db ← replaceStatuses arg.id arg.statuses db
    return ((row, arg.statuses), db)
  else
    return ((row, listUpdateStatuses arg.id db), db)

/-- Children before parents, and anything referencing media before the media rows. -/
def deletionSteps (now : Instant) (userId : UUID) (phone : String) : List (Tables → Tables) :=
  [deleteAccountNotifications userId,
   deleteAccountOutbox userId,
   deleteAccountUpdateStatuses userId,
   deleteAccountUpdates userId,
   deleteAccountFollows userId,
   deleteAccountReports userId,
   deleteAccountBlocks userId,
   clearCoversReferencingAccountMedia userId,
   deleteAccountCatMedia userId,
   deleteAccountCats userId,
   deleteAccountMedia userId,
   detachAccountDevices now userId,
   deleteAccountRefreshTokens userId,
   deleteAccountOtpCodes phone,
   deleteUser userId]

/-- Returns the object keys of the media, collected before the rows go away. -/
def deleteAccount (now : Instant) (userId : UUID) (phone : String) (db : Database) :
    Except Error (List String × Database) := do
  let objectKeys := listAccountObjectKeys userId db
  let db ← (deletionSteps now userId phone).foldlM (fun db step => db.write step) db
  return (objectKeys, db)

end Tekir.Store
