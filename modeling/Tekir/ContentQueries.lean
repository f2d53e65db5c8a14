import Tekir.ContentWrites
import Tekir.ReadServices

/-!
# Queries of the content services

Every query of the cat, media, follow, report, block, notification and account deletion
services, with what it returns and writes under READ COMMITTED. The rows an update or a
delete works on are those its snapshot matched, in their newest version and if that still
matches; sub-queries see the snapshot. A conflict target is checked on the newest rows.
-/
namespace Tekir.ContentQueries
open Table Schema Statements AccountQueries CatQueries UpdateQueries NotificationQueries
  DeletionQueries Environment ReadQueries ReadServices ContentWrites

/-- The statements of the account deletion that write. -/
inductive DeletionStep
  | notifications | outbox | updateStatuses | updates | follows | reports | blocks | covers
  | catMedia | cats | media | devices | refreshTokens | otpCodes | user
  deriving DecidableEq

inductive Query
  | getUserByID (id : UUID)
  | getCatByID (id : UUID) (viewer : Option UUID)
  | catExists (id : UUID) (viewer : Option UUID)
  | countCatMedia (catId : UUID)
  | listCatMedia (catId : UUID)
  | listCatsInBounds (bounds : Bounds) (viewer : Option UUID)
  | listNearbyCatsForDuplicateCheck (point : Point) (viewer : Option UUID)
  | discover (filter : DiscoverFilter) (point : Point) (now : Instant)
      (after : Option (ℚ≥0 × UUID)) (rowLimit : ℕ) (viewer : Option UUID)
  | listFollowedCats (userId : UUID)
  | listCatUpdates (catId : UUID) (before : Option (Instant × ℕ)) (rowLimit : ℕ)
  | getCatByIdempotencyKey (owner : UUID) (key : String)
  | createCat (arg : CreateCatParams) (now : Instant)
  | setCatCoverPhoto (mediaId catId : UUID)
  | updateCatName (name : String) (catId : UUID)
  | softDeleteCat (catId owner : UUID)
  | getCatOwnershipForDelete (catId : UUID)
  | updateCatLastUpdateAt (at' : Instant) (catId : UUID)
  | getMediaByID (id : UUID)
  | getMediaByIdempotencyKey (uploader : UUID) (key : String)
  | createMedia (row : Medium)
  | getCatMediaByCatAndMedia (catId mediaId : UUID)
  | createCatMedia (id catId mediaId : UUID) (createdAt : Instant)
  | getUpdateByIdempotencyKey (author : UUID) (key : String)
  | createUpdate (arg : CreateUpdateParams)
  | createUpdateStatus (updateId : UUID) (status : Status)
  | listUpdateStatuses (updateId : UUID)
  | replaceUpdateStatuses (updateId : UUID)
  | correctOrdinaryUpdate (arg : CorrectOrdinaryUpdateParams)
  | deleteOwnUpdate (arg : DeleteOwnUpdateParams)
  | getUpdateForCorrectionCheck (id catId : UUID)
  | updateExists (id : UUID)
  | createNotificationOutbox (id updateId : UUID) (now : Instant)
  | createFollow (userId : UUID) (deviceId : Option UUID) (catId : UUID)
  | deleteFollow (userId catId : UUID)
  | createReport (row : Report)
  | getOpenReportByReporterAndTarget (reporter : UUID) (targetType : TargetType) (targetId : UUID)
  | createBlock (blocker blocked : UUID)
  | deleteBlock (blocker blocked : UUID)
  /-- `skipped` are the rows that other transactions hold. -/
  | claimNotificationOutboxBatch (skipped : List UUID) (rowLimit : ℕ)
  | listNeedsHelpRecipientDevices (catId : UUID) (author : Option UUID)
  | createNotification (id deviceId catId updateId : UUID) (now : Instant)
  | clearDevicePushToken (deviceId : UUID) (token : Option String)
  | markNotificationOutboxProcessed (at' : Instant) (id : UUID)
  | markNotificationRead (at' : Instant) (id userId : UUID)
  | listAccountObjectKeys (userId : UUID)
  | deleteAccount (step : DeletionStep) (userId : UUID) (phone : String) (now : Instant)
  /-- `ObjectStore.Put` and `ObjectStore.Delete`. -/
  | putObject (key : String)
  | deleteObject (key : String)
  /-- `NotificationSender.Send`, in the middle of a transaction. -/
  | send (msg : PushMessage)

@[reducible] def Query.Row : Query → Type
  | .getUserByID _ => User
  | .getCatByID _ _ => CatRow
  | .catExists _ _ | .updateExists _ => Bool
  | .countCatMedia _ => ℕ
  | .listCatMedia _ => List CatMediaRow
  | .listCatsInBounds _ _ | .listFollowedCats _ => List MarkerRow
  -- each candidate with its photo
  | .listNearbyCatsForDuplicateCheck _ _ => List (Cat × String)
  | .discover _ _ _ _ _ _ => List DistanceRow
  | .listCatUpdates _ _ _ => List UpdateRow
  | .getCatByIdempotencyKey _ _ | .createCat _ _ | .getCatOwnershipForDelete _ => Cat
  | .softDeleteCat _ _ | .createUpdate _ => UUID
  | .getMediaByID _ | .getMediaByIdempotencyKey _ _ | .createMedia _ => Medium
  | .getCatMediaByCatAndMedia _ _ | .createCatMedia _ _ _ _ => CatMedium
  -- the update with its statuses and its medium
  | .getUpdateByIdempotencyKey _ _ => Update × List Status × Option Medium
  | .listUpdateStatuses _ => List Status
  | .correctOrdinaryUpdate _ | .deleteOwnUpdate _ => Update
  | .getUpdateForCorrectionCheck _ _ => Update × Bool
  | .createReport _ | .getOpenReportByReporterAndTarget _ _ _ => Report
  | .claimNotificationOutboxBatch _ _ => List ClaimedRow
  | .listNeedsHelpRecipientDevices _ _ => List Recipient
  | .createNotification _ _ _ _ _ => Notification
  | .listAccountObjectKeys _ => List String
  | .setCatCoverPhoto _ _ | .updateCatName _ _ | .updateCatLastUpdateAt _ _
  | .createUpdateStatus _ _ | .replaceUpdateStatuses _ | .createNotificationOutbox _ _ _
  | .createFollow _ _ _ | .deleteFollow _ _ | .createBlock _ _ | .deleteBlock _ _
  | .clearDevicePushToken _ _ | .markNotificationOutboxProcessed _ _
  | .markNotificationRead _ _ _ | .deleteAccount _ _ _ _ | .putObject _ | .deleteObject _ | .send _ =>
    Unit

/-- A statement that reads. -/
def reads {α : Type} (x : Except Error α) : Except Error (α × List Write) :=
  x.map fun a => (a, [])

/-- A statement that writes: its result must satisfy every constraint. -/
def writes {α : Type} (a : α) (w : Write) (newest : World) : Except Error (α × List Write) := do
  let _ ← newest.db.write w.apply
  return (a, [w])

/-- The rows a snapshot matched that still match, in their newest version. -/
def stillMatching {ρ κ : Type} [BEq κ] (key : ρ → κ) (p : ρ → Bool) (before now : List ρ) : List ρ :=
  now.filter fun r => p r && before.any fun r' => key r' == key r && p r'

/-- An update by primary key; a row that is not there is left alone. -/
def writesRow {ρ : Type} (rows : Tables → List ρ) (p : ρ → Bool) (w : Write)
    (snapshot newest : World) : Except Error (Unit × List Write) :=
  if (rows snapshot.db.tables).any p && (rows newest.db.tables).any p then writes () w newest
  else reads (.ok ())

/-- The rows one statement of the account deletion works on. -/
def DeletionStep.rows (step : DeletionStep) (userId : UUID) (phone : String) (s t : Tables) : Purge :=
  match step with
  | .notifications => {
      notifications := (stillMatching (·.id) (fun n : Notification =>
        (s.devices.any fun d => d.id == n.deviceId && d.userId == some userId) ||
          onOwnCat userId s.cats n.catId || ofOwnUpdate userId s.updates n.updateId)
        s.notifications t.notifications).map Notification.id }
  | .outbox => {
      outbox := (stillMatching (·.id) (fun o : NotificationOutbox =>
        onOwnCat userId s.cats o.catId || ofOwnUpdate userId s.updates o.updateId)
        s.notificationOutbox t.notificationOutbox).map NotificationOutbox.id }
  | .updateStatuses => {
      updateStatuses := stillMatching id (fun r : UpdateStatus =>
        s.updates.any fun u => u.id == r.updateId && accountUpdate userId s.cats u)
        s.updateStatuses t.updateStatuses }
  | .updates => {
      updates := (stillMatching (·.id) (accountUpdate userId s.cats)
        s.updates t.updates).map Update.id }
  | .follows => {
      follows := stillMatching id (fun f : Follow =>
        f.userId == some userId || onOwnCat userId s.cats f.catId) s.follows t.follows }
  | .reports => {
      reports := (stillMatching (·.id) (fun r : Report =>
        r.reporterUserId == userId ||
          (r.targetType == .cat && onOwnCat userId s.cats r.targetId) ||
          (r.targetType == .update &&
            s.updates.any fun u => u.id == r.targetId && accountUpdate userId s.cats u) ||
          (r.targetType == .media && ofOwnMedia userId s.media r.targetId))
        s.reports t.reports).map Report.id }
  | .blocks => {
      userBlocks := stillMatching id (fun b : UserBlock =>
        b.blockerUserId == userId || b.blockedUserId == userId) s.userBlocks t.userBlocks }
  | .covers => {
      covers := (stillMatching (·.id) (fun c : Cat => c.primaryPhotoId.any (ofOwnMedia userId s.media))
        s.cats t.cats).map Cat.id }
  | .catMedia => {
      catMedia := (stillMatching (·.id) (fun m : CatMedium =>
        onOwnCat userId s.cats m.catId || ofOwnMedia userId s.media m.mediaId)
        s.catMedia t.catMedia).map CatMedium.id }
  | .cats => { cats := (stillMatching (·.id) (ownCat userId) s.cats t.cats).map Cat.id }
  | .media => {
      media := (stillMatching (·.id) (fun m : Medium => m.uploadedByUserId == userId)
        s.media t.media).map Medium.id }
  | .devices => {
      devices := (stillMatching (·.id) (fun d : Device => d.userId == some userId)
        s.devices t.devices).map Device.id }
  | .refreshTokens => {
      refreshTokens := (stillMatching (·.id) (fun r : RefreshToken => r.userId == userId)
        s.refreshTokens t.refreshTokens).map RefreshToken.id }
  | .otpCodes => {
      otpCodes := (stillMatching (·.id) (fun o : OtpCode => o.phone == phone)
        s.otpCodes t.otpCodes).map OtpCode.id }
  | .user => { users := [userId] }

/-- `do nothing` on a conflict in `(user, idempotency_key)`. -/
def createMedia (row : Medium) (newest : World) : Except Error (Medium × List Write) :=
  if row.idempotencyKey.isSome && newest.db.tables.media.any fun m =>
      m.uploadedByUserId == row.uploadedByUserId && m.idempotencyKey == row.idempotencyKey then
    .error .noRows
  else writes row (.medium row) newest

def CreateCatParams.row (arg : CreateCatParams) (now : Instant) : Cat :=
  { id := arg.id, name := arg.name, area := arg.area, primaryPhotoId := arg.primaryPhotoId
    status := .active, createdByUserId := some arg.createdByUserId
    createdByDeviceId := arg.createdByDeviceId, idempotencyKey := arg.idempotencyKey
    createdAt := now }

def createCat (arg : CreateCatParams) (now : Instant) (newest : World) :
    Except Error (Cat × List Write) :=
  if arg.idempotencyKey.isSome && newest.db.tables.cats.any fun c =>
      c.createdByUserId == some arg.createdByUserId && c.idempotencyKey == arg.idempotencyKey then
    .error .noRows
  else writes (CreateCatParams.row arg now) (.cat (CreateCatParams.row arg now)) newest

def createCatMedia (id catId mediaId : UUID) (createdAt : Instant) (newest : World) :
    Except Error (CatMedium × List Write) :=
  if newest.db.tables.catMedia.any fun m => m.catId == catId && m.mediaId == mediaId then
    .error .noRows
  else writes { id, catId, mediaId, createdAt } (.catMedium { id, catId, mediaId, createdAt }) newest

def createUpdate (arg : CreateUpdateParams) (newest : World) : Except Error (UUID × List Write) :=
  if newest.db.tables.updates.any fun u => u.id == arg.id then
    writes arg.id (.reassigned arg) newest
  else writes arg.id (.update arg) newest

/-- The new outbox rows: at most one, if the update is there. -/
def outboxRows (id updateId : UUID) (now : Instant) (t : Tables) : List NotificationOutbox :=
  (t.updates.filter fun u => u.id == updateId).map fun u =>
    { id, updateId := u.id, catId := u.catId, needsHelpEligible := needsHelpEligible t.updates u
      createdAt := now }

/-- The sub-query over `cats` sees the snapshot. -/
def deletable (arg : DeleteOwnUpdateParams) (snapshot : World) (u : Update) : Bool :=
  u.id == arg.id && u.catId == arg.catId && u.authorUserId == some arg.authorUserId &&
    u.kind == .ordinary && u.deletedAt.isNone && decide (arg.windowStart < u.createdAt) &&
    !holdsCover u snapshot.db

def deleteOwnUpdate (arg : DeleteOwnUpdateParams) (snapshot newest : World) :
    Except Error (Update × List Write) := do
  let _ ← one (snapshot.db.tables.updates.filter (deletable arg snapshot))
  let row ← one (newest.db.tables.updates.filter (deletable arg snapshot))
  writes { row with deletedAt := some arg.deletedAt } (.hidden arg.id arg.deletedAt) newest

def correctOrdinaryUpdate (arg : CorrectOrdinaryUpdateParams) (snapshot newest : World) :
    Except Error (Update × List Write) := do
  let admitted := arg.matches (carriesStatus arg.id snapshot.db.tables.updateStatuses)
  let _ ← one (snapshot.db.tables.updates.filter admitted)
  let row ← one (newest.db.tables.updates.filter admitted)
  writes (arg.assign row) (.corrected arg) newest

def softDeletable (catId owner : UUID) (c : Cat) : Bool :=
  c.id == catId && c.createdByUserId == some owner && c.status != .deleted

def softDeleteCat (catId owner : UUID) (snapshot newest : World) :
    Except Error (UUID × List Write) := do
  let _ ← one (snapshot.db.tables.cats.filter (softDeletable catId owner))
  let row ← one (newest.db.tables.cats.filter (softDeletable catId owner))
  writes row.id (.retired catId) newest

def createReport (row : Report) (newest : World) : Except Error (Report × List Write) :=
  if newest.db.tables.reports.any fun r =>
      r.reporterUserId == row.reporterUserId && r.targetType == row.targetType &&
        r.targetId == row.targetId && r.status == .«open» && row.status == .«open» then
    .error .noRows
  else writes row (.report row) newest

/-- Locked rows are skipped; a row that has been processed meanwhile drops out. -/
def claimBatch (skipped : List UUID) (rowLimit : ℕ) (snapshot newest : World) : List ClaimedRow :=
  (claimUnlocked (fun id => skipped.contains id) rowLimit snapshot.db).filter fun r =>
    newest.db.tables.notificationOutbox.any fun o => o.id == r.id && o.processedAt.isNone

def createNotification (row : Notification) (newest : World) :
    Except Error (Notification × List Write) :=
  if newest.db.tables.notifications.any fun n =>
      n.deviceId == row.deviceId && n.updateId == row.updateId then
    .error .noRows
  else writes row (.notification row) newest

def readableBy (id userId : UUID) (t : Tables) (n : Notification) : Bool :=
  n.id == id && t.devices.any fun d => d.id == n.deviceId && d.userId == some userId

/-- The keyed update, its statuses and its medium. -/
def keyedUpdate (author : UUID) (key : String) (db : Database) :
    Except Error (Update × List Status × Option Medium) := do
  let u ← UpdateQueries.getUpdateByIdempotencyKey author key db
  return (u, UpdateQueries.listUpdateStatuses u.id db,
    db.tables.media.find? fun m => u.mediaId == some m.id)

section Run

variable (dwithin : Point → Point → Bool) (read : Reading)

/-- What a query returns and writes. -/
def Query.run : (q : Query) → World → World → Except Error (q.Row × List Write)
  | .getUserByID id, s, _ => reads (AccountQueries.getUserByID id s.db)
  | .getCatByID id viewer, s, _ => reads (CatQueries.getCatByID id viewer s.db)
  | .catExists id viewer, s, _ => reads (.ok (CatQueries.catExists id viewer s.db))
  | .countCatMedia catId, s, _ => reads (.ok (CatQueries.countCatMedia catId s.db))
  | .listCatMedia catId, s, _ => reads (.ok (CatQueries.listCatMedia catId s.db))
  | .listCatsInBounds bounds viewer, s, _ =>
    reads (.ok (ReadQueries.listCatsInBounds read.toGeometry bounds viewer s.db))
  | .listNearbyCatsForDuplicateCheck point viewer, s, _ =>
    reads (.ok ((nearbyDuplicates read.toGeometry (fun p => dwithin p point) point viewer s.db).map
      fun c => (c, photoUrl c s.db)))
  | .discover filter point now after rowLimit viewer, s, _ =>
    reads (.ok (discoverRows read filter point now after rowLimit viewer s.db))
  | .listFollowedCats userId, s, _ => reads (.ok (ReadQueries.listFollowedCats userId s.db))
  | .listCatUpdates catId before rowLimit, s, _ =>
    reads (.ok (ReadQueries.listCatUpdates catId before rowLimit s.db))
  | .getCatByIdempotencyKey owner key, s, _ =>
    reads (CatQueries.getCatByIdempotencyKey owner key s.db)
  | .createCat arg now, _, w => ContentQueries.createCat arg now w
  | .setCatCoverPhoto mediaId catId, s, w =>
    writesRow Tables.cats (fun c => c.id == catId) (.cover catId mediaId) s w
  | .updateCatName name catId, s, w =>
    writesRow Tables.cats (fun c => c.id == catId) (.named catId name) s w
  | .softDeleteCat catId owner, s, w => ContentQueries.softDeleteCat catId owner s w
  | .getCatOwnershipForDelete catId, s, _ => reads (CatQueries.getCatOwnershipForDelete catId s.db)
  | .updateCatLastUpdateAt at' catId, s, w =>
    writesRow Tables.cats (fun c => c.id == catId) (.touched catId at') s w
  | .getMediaByID id, s, _ => reads (CatQueries.getMediaByID id s.db)
  | .getMediaByIdempotencyKey uploader key, s, _ =>
    reads (CatQueries.getMediaByIdempotencyKey uploader key s.db)
  | .createMedia row, _, w => ContentQueries.createMedia row w
  | .getCatMediaByCatAndMedia catId mediaId, s, _ =>
    reads (CatQueries.getCatMediaByCatAndMedia catId mediaId s.db)
  | .createCatMedia id catId mediaId createdAt, _, w => ContentQueries.createCatMedia id catId mediaId createdAt w
  | .getUpdateByIdempotencyKey author key, s, _ => reads (keyedUpdate author key s.db)
  | .createUpdate arg, _, w => ContentQueries.createUpdate arg w
  | .createUpdateStatus updateId status, _, w =>
    if w.db.tables.updateStatuses.any fun r => r.updateId == updateId && r.status == status then
      reads (.ok ())
    else writes () (.updateStatus { updateId, status }) w
  | .listUpdateStatuses updateId, s, _ =>
    reads (.ok (UpdateQueries.listUpdateStatuses updateId s.db))
  | .replaceUpdateStatuses updateId, s, w =>
    writes () (.clearedStatuses (stillMatching id (fun r : UpdateStatus => r.updateId == updateId)
      s.db.tables.updateStatuses w.db.tables.updateStatuses)) w
  | .correctOrdinaryUpdate arg, s, w => ContentQueries.correctOrdinaryUpdate arg s w
  | .deleteOwnUpdate arg, s, w => ContentQueries.deleteOwnUpdate arg s w
  | .getUpdateForCorrectionCheck id catId, s, _ =>
    reads (UpdateQueries.getUpdateForCorrectionCheck id catId s.db)
  | .updateExists id, s, _ => reads (.ok (UpdateQueries.updateExists id s.db))
  | .createNotificationOutbox id updateId now, s, w =>
    writes () (.outbox (outboxRows id updateId now s.db.tables)) w
  | .createFollow userId deviceId catId, _, w =>
    if w.db.tables.follows.any fun f => f.userId == some userId && f.catId == catId then
      reads (.ok ())
    else writes () (.follow { userId := some userId, deviceId, catId }) w
  | .deleteFollow userId catId, _, w => writes () (.unfollowed userId catId) w
  | .createReport row, _, w => ContentQueries.createReport row w
  | .getOpenReportByReporterAndTarget reporter targetType targetId, s, _ =>
    reads (UpdateQueries.getOpenReportByReporterAndTarget reporter targetType targetId s.db)
  | .createBlock blocker blocked, _, w =>
    if w.db.tables.userBlocks.any fun b =>
        b.blockerUserId == blocker && b.blockedUserId == blocked then reads (.ok ())
    else writes () (.block ⟨blocker, blocked⟩) w
  | .deleteBlock blocker blocked, _, w => writes () (.unblocked ⟨blocker, blocked⟩) w
  | .claimNotificationOutboxBatch skipped rowLimit, s, w =>
    .ok (claimBatch skipped rowLimit s w,
      [.claimed ((claimBatch skipped rowLimit s w).map ClaimedRow.id)])
  | .listNeedsHelpRecipientDevices catId author, s, _ =>
    reads (.ok (NotificationQueries.listNeedsHelpRecipientDevices catId author s.db))
  | .createNotification id deviceId catId updateId now, _, w =>
    ContentQueries.createNotification { id, deviceId, catId, updateId, createdAt := now } w
  | .clearDevicePushToken deviceId token, _, w => writes () (.clearedToken deviceId token) w
  | .markNotificationOutboxProcessed at' id, s, w =>
    writesRow Tables.notificationOutbox (fun o => o.id == id) (.processed id at') s w
  | .markNotificationRead at' id userId, s, w =>
    writes () (.read ((stillMatching (·.id) (readableBy id userId s.db.tables)
      s.db.tables.notifications w.db.tables.notifications).map Notification.id) at') w
  | .listAccountObjectKeys userId, s, _ =>
    reads (.ok (DeletionQueries.listAccountObjectKeys userId s.db))
  | .deleteAccount step userId phone now, s, w =>
    writes () (.purged (step.rows userId phone s.db.tables w.db.tables) now) w
  | .putObject key, _, w => writes () (.put key) w
  | .deleteObject key, _, w => writes () (.erased key) w
  | .send _, _, _ => reads (.ok ())

end Run

@[simp] theorem reads_eq_ok {α : Type} {x : Except Error α} {a : α} {ws : List Write} :
    reads x = .ok (a, ws) ↔ x = .ok a ∧ ws = [] := by
  cases x with
  | error e => simp [reads, Except.map]
  | ok b => simp [reads, Except.map, eq_comm]

@[simp] theorem writes_eq_ok {α : Type} {a a' : α} {w : Write} {newest : World} {ws : List Write} :
    writes a w newest = .ok (a', ws) ↔
      a' = a ∧ ws = [w] ∧ ∃ db, newest.db.write w.apply = .ok db := by
  simp only [writes, bind_eq_ok, pure, Except.pure, Except.ok.injEq, Prod.mk.injEq]
  constructor
  · rintro ⟨db, hdb, rfl, rfl⟩
    exact ⟨rfl, rfl, db, hdb⟩
  · rintro ⟨rfl, rfl, db, hdb⟩
    exact ⟨db, hdb, rfl, rfl⟩

section Created

variable {newest : World} {ws : List Write}

theorem createMedia_eq_ok {row a : Medium} (h : ContentQueries.createMedia row newest = .ok (a, ws)) :
    a = row ∧ ws = [.medium row] := by
  unfold ContentQueries.createMedia at h
  split at h
  · cases h
  · exact ⟨(writes_eq_ok.mp h).1, (writes_eq_ok.mp h).2.1⟩

theorem createCat_eq_ok {arg : CreateCatParams} {now : Instant} {a : Cat}
    (h : ContentQueries.createCat arg now newest = .ok (a, ws)) :
    a = CreateCatParams.row arg now ∧ ws = [.cat (CreateCatParams.row arg now)] := by
  unfold ContentQueries.createCat at h
  split at h
  · cases h
  · exact ⟨(writes_eq_ok.mp h).1, (writes_eq_ok.mp h).2.1⟩

theorem createCatMedia_eq_ok {id catId mediaId : UUID} {createdAt : Instant} {a : CatMedium}
    (h : ContentQueries.createCatMedia id catId mediaId createdAt newest = .ok (a, ws)) :
    a = { id, catId, mediaId, createdAt } ∧ ws = [.catMedium { id, catId, mediaId, createdAt }] := by
  unfold ContentQueries.createCatMedia at h
  split at h
  · cases h
  · exact ⟨(writes_eq_ok.mp h).1, (writes_eq_ok.mp h).2.1⟩

/-- The row is new, or it is assigned anew. -/
theorem createUpdate_eq_ok {arg : CreateUpdateParams} {a : UUID}
    (h : ContentQueries.createUpdate arg newest = .ok (a, ws)) :
    a = arg.id ∧ ((ws = [.update arg] ∧ arg.id ∉ newest.db.tables.updates.map Update.id) ∨
      (ws = [.reassigned arg] ∧ arg.id ∈ newest.db.tables.updates.map Update.id)) := by
  unfold ContentQueries.createUpdate at h
  split at h
  · rename_i hany
    refine ⟨(writes_eq_ok.mp h).1, .inr ⟨(writes_eq_ok.mp h).2.1, ?_⟩⟩
    obtain ⟨u, hu, hid⟩ := List.any_eq_true.mp hany
    exact List.mem_map.mpr ⟨u, hu, beq_iff_eq.mp hid⟩
  · rename_i hany
    refine ⟨(writes_eq_ok.mp h).1, .inl ⟨(writes_eq_ok.mp h).2.1, fun hmem => hany ?_⟩⟩
    obtain ⟨u, hu, hid⟩ := List.mem_map.mp hmem
    exact List.any_eq_true.mpr ⟨u, hu, beq_iff_eq.mpr hid⟩

end Created

/-- The statement writes nothing. -/
def Query.Reads : Query → Bool
  | .createCat _ _ | .setCatCoverPhoto _ _ | .updateCatName _ _ | .softDeleteCat _ _
  | .updateCatLastUpdateAt _ _ | .createMedia _ | .createCatMedia _ _ _ _ | .createUpdate _
  | .createUpdateStatus _ _ | .replaceUpdateStatuses _ | .correctOrdinaryUpdate _
  | .deleteOwnUpdate _ | .createNotificationOutbox _ _ _ | .createFollow _ _ _
  | .deleteFollow _ _ | .createReport _ | .createBlock _ _ | .deleteBlock _ _
  | .claimNotificationOutboxBatch _ _ | .createNotification _ _ _ _ _
  | .clearDevicePushToken _ _ | .markNotificationOutboxProcessed _ _
  | .markNotificationRead _ _ _ | .deleteAccount _ _ _ _ | .putObject _ | .deleteObject _ => false
  | _ => true

/-- The writes a query can lead to. -/
def Query.Emits : Query → Write → Prop
  | .createCat arg now, w => w = .cat (CreateCatParams.row arg now)
  | .setCatCoverPhoto mediaId catId, w => w = .cover catId mediaId
  | .updateCatName name catId, w => w = .named catId name
  | .softDeleteCat catId _, w => w = .retired catId
  | .updateCatLastUpdateAt at' catId, w => w = .touched catId at'
  | .createMedia row, w => w = .medium row
  | .createCatMedia id catId mediaId createdAt, w => w = .catMedium { id, catId, mediaId, createdAt }
  | .createUpdate arg, w => w = .update arg ∨ w = .reassigned arg
  | .createUpdateStatus updateId status, w => w = .updateStatus { updateId, status }
  | .replaceUpdateStatuses updateId, w =>
    ∃ rows, w = .clearedStatuses rows ∧ ∀ r ∈ rows, r.updateId = updateId
  | .correctOrdinaryUpdate arg, w => w = .corrected arg
  | .deleteOwnUpdate arg, w => w = .hidden arg.id arg.deletedAt
  | .createNotificationOutbox id updateId now, w => ∃ t, w = .outbox (outboxRows id updateId now t)
  | .createFollow userId deviceId catId, w => w = .follow { userId := some userId, deviceId, catId }
  | .deleteFollow userId catId, w => w = .unfollowed userId catId
  | .createReport row, w => w = .report row
  | .createBlock blocker blocked, w => w = .block ⟨blocker, blocked⟩
  | .deleteBlock blocker blocked, w => w = .unblocked ⟨blocker, blocked⟩
  | .claimNotificationOutboxBatch _ _, w => ∃ ids, w = .claimed ids
  | .createNotification id deviceId catId updateId now, w =>
    w = .notification { id, deviceId, catId, updateId, createdAt := now }
  | .clearDevicePushToken deviceId token, w => w = .clearedToken deviceId token
  | .markNotificationOutboxProcessed at' id, w => w = .processed id at'
  | .markNotificationRead at' _ _, w => ∃ ids, w = .read ids at'
  | .deleteAccount step userId phone now, w =>
    ∃ s t : Tables, w = .purged (step.rows userId phone s t) now
  | .putObject key, w => w = .put key
  | .deleteObject key, w => w = .erased key
  | _, _ => False

theorem mem_stillMatching {ρ κ : Type} [BEq κ] [LawfulBEq κ] {key : ρ → κ} {p : ρ → Bool}
    {before now : List ρ} {r : ρ} :
    r ∈ stillMatching key p before now ↔
      r ∈ now ∧ p r = true ∧ ∃ r' ∈ before, key r' = key r ∧ p r' = true := by
  simp [stillMatching]

theorem emits_of_run {dwithin : Point → Point → Bool} {read : Reading} {q : Query} {s v : World}
    {a : q.Row} {ws : List Write} (h : q.run dwithin read s v = .ok (a, ws)) {w : Write}
    (hw : w ∈ ws) : q.Emits w := by
  have hreads : ∀ {α : Type} {x : Except Error α} {a : α}, reads x = .ok (a, ws) → False := by
    intro α x a hx
    simp [(reads_eq_ok.mp hx).2] at hw
  have hwrites : ∀ {α : Type} {a' a : α} {w' : Write}, writes a' w' v = .ok (a, ws) → w = w' := by
    intro α a' a w' hx
    have hws := (writes_eq_ok.mp hx).2.1
    simpa [hws] using hw
  cases q with
  | getUserByID | getCatByID | catExists | countCatMedia | listCatMedia | listCatsInBounds
  | listNearbyCatsForDuplicateCheck | discover | listFollowedCats | listCatUpdates
  | getCatByIdempotencyKey | getCatOwnershipForDelete | getMediaByID | getMediaByIdempotencyKey
  | getCatMediaByCatAndMedia | getUpdateByIdempotencyKey | listUpdateStatuses
  | getUpdateForCorrectionCheck | updateExists | getOpenReportByReporterAndTarget
  | listNeedsHelpRecipientDevices | listAccountObjectKeys | send =>
    exact (hreads h).elim
  | deleteFollow | deleteBlock | clearDevicePushToken | putObject | deleteObject => exact hwrites h
  | createCat =>
    simp only [Query.run, ContentQueries.createCat] at h
    split at h
    · cases h
    · exact hwrites h
  | createMedia =>
    simp only [Query.run, ContentQueries.createMedia] at h
    split at h
    · cases h
    · exact hwrites h
  | createCatMedia =>
    simp only [Query.run, ContentQueries.createCatMedia] at h
    split at h
    · cases h
    · exact hwrites h
  | createReport =>
    simp only [Query.run, ContentQueries.createReport] at h
    split at h
    · cases h
    · exact hwrites h
  | createNotification =>
    simp only [Query.run, ContentQueries.createNotification] at h
    split at h
    · cases h
    · exact hwrites h
  | createUpdate =>
    simp only [Query.run, ContentQueries.createUpdate] at h
    split at h
    · exact .inr (hwrites h)
    · exact .inl (hwrites h)
  | createUpdateStatus =>
    simp only [Query.run] at h
    split at h
    · exact (hreads h).elim
    · exact hwrites h
  | createFollow =>
    simp only [Query.run] at h
    split at h
    · exact (hreads h).elim
    · exact hwrites h
  | createBlock =>
    simp only [Query.run] at h
    split at h
    · exact (hreads h).elim
    · exact hwrites h
  | setCatCoverPhoto | updateCatName | updateCatLastUpdateAt | markNotificationOutboxProcessed =>
    simp only [Query.run, writesRow] at h
    split at h
    · exact hwrites h
    · exact (hreads h).elim
  | softDeleteCat =>
    simp only [Query.run, ContentQueries.softDeleteCat, bind_eq_ok] at h
    obtain ⟨-, -, row, -, h⟩ := h
    exact hwrites h
  | correctOrdinaryUpdate =>
    simp only [Query.run, ContentQueries.correctOrdinaryUpdate, bind_eq_ok] at h
    obtain ⟨-, -, row, -, h⟩ := h
    exact hwrites h
  | deleteOwnUpdate =>
    simp only [Query.run, ContentQueries.deleteOwnUpdate, bind_eq_ok] at h
    obtain ⟨-, -, row, -, h⟩ := h
    exact hwrites h
  | replaceUpdateStatuses =>
    refine ⟨_, hwrites h, fun r hr => ?_⟩
    simpa using (mem_stillMatching.mp hr).2.1
  | createNotificationOutbox => exact ⟨_, hwrites h⟩
  | markNotificationRead => exact ⟨_, hwrites h⟩
  | deleteAccount => exact ⟨_, _, hwrites h⟩
  | claimNotificationOutboxBatch =>
    cases h
    exact ⟨_, List.mem_singleton.mp hw⟩

/-- What a statement writes satisfies every constraint on the rows it has worked on. -/
theorem valid_of_run {dwithin : Point → Point → Bool} {read : Reading} {q : Query} {s v : World}
    {a : q.Row} {ws : List Write} (h : q.run dwithin read s v = .ok (a, ws)) :
    Valid (applyAll ws v.db.tables) := by
  have hreads : ∀ {α : Type} {x : Except Error α} {a : α}, reads x = .ok (a, ws) →
      Valid (applyAll ws v.db.tables) := by
    intro α x a hx
    rw [(reads_eq_ok.mp hx).2]
    exact v.db.valid
  have hwrites : ∀ {α : Type} {a' a : α} {w : Write}, writes a' w v = .ok (a, ws) →
      Valid (applyAll ws v.db.tables) := by
    intro α a' a w hx
    obtain ⟨-, rfl, db, hdb⟩ := writes_eq_ok.mp hx
    rw [applyAll_cons, applyAll_nil, ← write_eq_ok.mp hdb]
    exact db.valid
  have hwritesRow : ∀ {ρ : Type} {rows : Tables → List ρ} {p : ρ → Bool} {w : Write} {a : Unit},
      writesRow rows p w s v = .ok (a, ws) → Valid (applyAll ws v.db.tables) := by
    intro ρ rows p w a hx
    unfold writesRow at hx
    split at hx
    · exact hwrites hx
    · exact hreads hx
  have hunless : ∀ {α : Type} {c : Bool} {e : Error} {a' a : α} {w : Write},
      (if c then .error e else writes a' w v) = .ok (a, ws) → Valid (applyAll ws v.db.tables) := by
    intro α c e a' a w hx
    split at hx
    · cases hx
    · exact hwrites hx
  have hunlessThere : ∀ {c : Bool} {w : Write} {a : Unit},
      (if c then reads (.ok ()) else writes () w v) = .ok (a, ws) →
      Valid (applyAll ws v.db.tables) := by
    intro c w a hx
    split at hx
    · exact hreads hx
    · exact hwrites hx
  cases q with
  | getUserByID | getCatByID | catExists | countCatMedia | listCatMedia | listCatsInBounds
  | listNearbyCatsForDuplicateCheck | discover | listFollowedCats | listCatUpdates
  | getCatByIdempotencyKey | getCatOwnershipForDelete | getMediaByID | getMediaByIdempotencyKey
  | getCatMediaByCatAndMedia | getUpdateByIdempotencyKey | listUpdateStatuses
  | getUpdateForCorrectionCheck | updateExists | getOpenReportByReporterAndTarget
  | listNeedsHelpRecipientDevices | listAccountObjectKeys | send =>
    exact hreads h
  | deleteFollow | deleteBlock | clearDevicePushToken | putObject | deleteObject
  | replaceUpdateStatuses | createNotificationOutbox | markNotificationRead | deleteAccount =>
    exact hwrites h
  | createCat | createMedia | createCatMedia | createReport | createNotification => exact hunless h
  | createUpdateStatus | createFollow | createBlock => exact hunlessThere h
  | createUpdate =>
    simp only [Query.run, ContentQueries.createUpdate] at h
    split at h <;> exact hwrites h
  | setCatCoverPhoto | updateCatName | updateCatLastUpdateAt | markNotificationOutboxProcessed =>
    exact hwritesRow h
  | softDeleteCat =>
    simp only [Query.run, ContentQueries.softDeleteCat, bind_eq_ok] at h
    obtain ⟨-, -, row, -, h⟩ := h
    exact hwrites h
  | correctOrdinaryUpdate =>
    simp only [Query.run, ContentQueries.correctOrdinaryUpdate, bind_eq_ok] at h
    obtain ⟨-, -, row, -, h⟩ := h
    exact hwrites h
  | deleteOwnUpdate =>
    simp only [Query.run, ContentQueries.deleteOwnUpdate, bind_eq_ok] at h
    obtain ⟨-, -, row, -, h⟩ := h
    exact hwrites h
  | claimNotificationOutboxBatch =>
    cases h
    exact v.db.valid

theorem reads_of_run {dwithin : Point → Point → Bool} {read : Reading} {q : Query} {s v : World}
    {a : q.Row} {ws : List Write} (hq : q.Reads = true) (h : q.run dwithin read s v = .ok (a, ws)) :
    ws = [] := by
  refine List.eq_nil_iff_forall_not_mem.mpr fun w hw => ?_
  have hemits := emits_of_run h hw
  cases q <;> first | exact hemits | cases hq

section Errors

theorem one_eq_error {α : Type} {rows : List α} {e : Error} (h : one rows = .error e) : e = .noRows := by
  cases rows with
  | nil => exact (Except.error.inj h).symm
  | cons r rows => cases h

/-- An error of the database itself. -/
def OfStatement (e : Error) : Prop :=
  e = .noRows ∨ ∃ c, e = .violates c

theorem ofStatement_bind {α β : Type} {x : Except Error α} {f : α → Except Error β} {e : Error}
    (h : x.bind f = .error e) (hx : x = .error e → OfStatement e)
    (hf : ∀ a, f a = .error e → OfStatement e) : OfStatement e := by
  cases x with
  | error e' =>
    cases h
    exact hx rfl
  | ok a => exact hf a h

theorem ofStatement_one {α : Type} {rows : List α} {e : Error} (h : one rows = .error e) :
    OfStatement e :=
  .inl (one_eq_error h)

theorem ofStatement_ok {α : Type} {a : α} {e : Error} (h : (pure a : Except Error α) = .error e) :
    OfStatement e :=
  nomatch h

theorem ofStatement_reads {α : Type} {x : Except Error α} {e : Error} (h : reads x = .error e)
    (hx : x = .error e → OfStatement e) : OfStatement e := by
  cases x with
  | error e' =>
    cases h
    exact hx rfl
  | ok a => cases h

theorem ofStatement_writes {α : Type} {a : α} {w : Write} {newest : World} {e : Error}
    (h : writes a w newest = .error e) : OfStatement e := by
  refine ofStatement_bind h (fun hx => ?_) nofun
  obtain ⟨c, he, -⟩ := write_eq_error hx
  exact .inr ⟨c, he⟩

theorem ofStatement_of_run {dwithin : Point → Point → Bool} {read : Reading} {q : Query} {s v : World}
    {e : Error} (h : q.run dwithin read s v = .error e) : OfStatement e := by
  have hunless : ∀ {α : Type} {c : Bool} {a : α} {w : Write},
      (if c then .error .noRows else writes a w v) = .error e → OfStatement e := by
    intro α c a w hx
    split at hx
    · exact .inl (Except.error.inj hx).symm
    · exact ofStatement_writes hx
  have hunlessThere : ∀ {c : Bool} {w : Write},
      (if c then reads (.ok ()) else writes () w v) = .error e → OfStatement e := by
    intro c w hx
    split at hx
    · exact ofStatement_reads hx nofun
    · exact ofStatement_writes hx
  have hwritesRow : ∀ {ρ : Type} {rows : Tables → List ρ} {p : ρ → Bool} {w : Write},
      writesRow rows p w s v = .error e → OfStatement e := by
    intro ρ rows p w hx
    unfold writesRow at hx
    split at hx
    · exact ofStatement_writes hx
    · exact ofStatement_reads hx nofun
  cases q with
  | catExists | countCatMedia | listCatMedia | listCatsInBounds
  | listNearbyCatsForDuplicateCheck | discover | listFollowedCats | listCatUpdates
  | listUpdateStatuses | updateExists | listNeedsHelpRecipientDevices | listAccountObjectKeys | send =>
    exact ofStatement_reads h nofun
  | getUserByID | getCatByIdempotencyKey | getCatOwnershipForDelete | getMediaByID
  | getMediaByIdempotencyKey | getCatMediaByCatAndMedia | getOpenReportByReporterAndTarget =>
    exact ofStatement_reads h ofStatement_one
  | getCatByID | getUpdateByIdempotencyKey | getUpdateForCorrectionCheck =>
    exact ofStatement_reads h fun hx => ofStatement_bind hx ofStatement_one fun _ => ofStatement_ok
  | deleteFollow | deleteBlock | clearDevicePushToken | putObject | deleteObject
  | replaceUpdateStatuses | createNotificationOutbox | markNotificationRead | deleteAccount =>
    exact ofStatement_writes h
  | createCat | createMedia | createCatMedia | createReport | createNotification => exact hunless h
  | createUpdateStatus | createFollow | createBlock => exact hunlessThere h
  | createUpdate =>
    simp only [Query.run, ContentQueries.createUpdate] at h
    split at h <;> exact ofStatement_writes h
  | setCatCoverPhoto | updateCatName | updateCatLastUpdateAt | markNotificationOutboxProcessed =>
    exact hwritesRow h
  | softDeleteCat | correctOrdinaryUpdate | deleteOwnUpdate =>
    refine ofStatement_bind h ofStatement_one fun _ h => ?_
    exact ofStatement_bind h ofStatement_one fun _ h => ofStatement_writes h
  | claimNotificationOutboxBatch => cases h

end Errors

end Tekir.ContentQueries
