import Tekir.NotificationQueries

/-!
# Account deletion queries

The statements of `account_deletion.sql`. Each is one assignment of tables, so that
the transaction that runs them in order can be followed table by table.
-/
namespace Tekir.DeletionQueries
open Table Schema Statements

/-- `c.created_by_user_id = user_id`. -/
def ownCat (userId : UUID) (c : Cat) : Bool :=
  c.createdByUserId == some userId

/-- `cat_id in (select c.id from cats c where c.created_by_user_id = user_id)`. -/
def onOwnCat (userId : UUID) (cats : List Cat) (catId : UUID) : Bool :=
  cats.any fun c => c.id == catId && ownCat userId c

/-- `update_id in (select u.id from updates u where u.author_user_id = user_id)`. -/
def ofOwnUpdate (userId : UUID) (updates : List Update) (updateId : UUID) : Bool :=
  updates.any fun u => u.id == updateId && u.authorUserId == some userId

/-- Authored by the account, or written on a cat it owns. -/
def accountUpdate (userId : UUID) (cats : List Cat) (u : Update) : Bool :=
  u.authorUserId == some userId || onOwnCat userId cats u.catId

/-- `media_id in (select m.id from media m where m.uploaded_by_user_id = user_id)`. -/
def ofOwnMedia (userId : UUID) (media : List Medium) (mediaId : UUID) : Bool :=
  media.any fun m => m.id == mediaId && m.uploadedByUserId == userId

def listAccountObjectKeys (userId : UUID) (db : Database) : List String :=
  (db.tables.media.filter fun m =>
    m.uploadedByUserId == userId ||
      db.tables.catMedia.any fun cm => cm.mediaId == m.id && onOwnCat userId db.tables.cats cm.catId).map
    Medium.objectKey

def deleteAccountNotifications (userId : UUID) (t : Tables) : Tables :=
  { t with
    notifications := deleteWhere (fun n =>
      (t.devices.any fun d => d.id == n.deviceId && d.userId == some userId) ||
        onOwnCat userId t.cats n.catId || ofOwnUpdate userId t.updates n.updateId) t.notifications }

def deleteAccountOutbox (userId : UUID) (t : Tables) : Tables :=
  { t with
    notificationOutbox := deleteWhere (fun o =>
      onOwnCat userId t.cats o.catId || ofOwnUpdate userId t.updates o.updateId) t.notificationOutbox }

def deleteAccountUpdateStatuses (userId : UUID) (t : Tables) : Tables :=
  { t with
    updateStatuses := deleteWhere (fun s =>
      t.updates.any fun u => u.id == s.updateId && accountUpdate userId t.cats u) t.updateStatuses }

def deleteAccountUpdates (userId : UUID) (t : Tables) : Tables :=
  { t with updates := deleteWhere (accountUpdate userId t.cats) t.updates }

def deleteAccountFollows (userId : UUID) (t : Tables) : Tables :=
  { t with
    follows := deleteWhere (fun f => f.userId == some userId || onOwnCat userId t.cats f.catId)
      t.follows }

def deleteAccountReports (userId : UUID) (t : Tables) : Tables :=
  { t with
    reports := deleteWhere (fun r =>
      r.reporterUserId == userId ||
        (r.targetType == .cat && onOwnCat userId t.cats r.targetId) ||
        (r.targetType == .update &&
          t.updates.any fun u => u.id == r.targetId && accountUpdate userId t.cats u) ||
        (r.targetType == .media && ofOwnMedia userId t.media r.targetId)) t.reports }

def deleteAccountBlocks (userId : UUID) (t : Tables) : Tables :=
  { t with
    userBlocks := deleteWhere (fun b => b.blockerUserId == userId || b.blockedUserId == userId)
      t.userBlocks }

def clearCoversReferencingAccountMedia (userId : UUID) (t : Tables) : Tables :=
  { t with
    cats := updateWhere (fun c => c.primaryPhotoId.any (ofOwnMedia userId t.media))
      (fun c => { c with primaryPhotoId := none }) t.cats }

def deleteAccountCatMedia (userId : UUID) (t : Tables) : Tables :=
  { t with
    catMedia := deleteWhere (fun cm => onOwnCat userId t.cats cm.catId || ofOwnMedia userId t.media cm.mediaId)
      t.catMedia }

def deleteAccountCats (userId : UUID) (t : Tables) : Tables :=
  { t with cats := deleteWhere (ownCat userId) t.cats }

def deleteAccountMedia (userId : UUID) (t : Tables) : Tables :=
  { t with media := deleteWhere (fun m => m.uploadedByUserId == userId) t.media }

def detachAccountDevices (now : Instant) (userId : UUID) (t : Tables) : Tables :=
  { t with
    devices := updateWhere (fun d => d.userId == some userId)
      (fun d => { d with userId := none, revokedAt := some now }) t.devices }

def deleteAccountRefreshTokens (userId : UUID) (t : Tables) : Tables :=
  { t with refreshTokens := deleteWhere (fun r => r.userId == userId) t.refreshTokens }

def deleteAccountOtpCodes (phone : String) (t : Tables) : Tables :=
  { t with otpCodes := deleteWhere (fun o => o.phone == phone) t.otpCodes }

def deleteUser (userId : UUID) (t : Tables) : Tables :=
  { t with users := deleteWhere (fun u => u.id == userId) t.users }

end Tekir.DeletionQueries
