import Tekir.Backend
import Tekir.ContentQueries
import Tekir.Dialects

/-!
# Content calls, statement by statement

The cat, media, follow, report, block, notification and account deletion services as
programs over the queries they run. Every read and every write outside a transaction is a
transaction of its own; the calls of the object store and of the sender stand where the
services make them.
-/
namespace Tekir.ContentCalls
open Table Schema Statements AccountQueries CatQueries UpdateQueries NotificationQueries
  Environment ReadQueries CatServices SocialServices ReadServices ContentWrites ContentQueries
  Programs Interleaving Dialects

/-- `dwithin` and the geometry are those of the wiring. -/
def dialect (cfg : Config) (read : Reading) : Dialect World Write Query Query.Row Error where
  run := Query.run cfg.dwithin read
  view := view
  clash := clash
  aborts e := e != .noRows
  lost := .transactionAborted
  view_nil := view_nil
  clash_symm := clash_symm
  lost_aborts := rfl

/-- A program of content queries that ends with a value or an error. -/
abbrev Script (α : Type) := Prog Query Query.Row Error (Except Error α)

/-- A statement inside a transaction. -/
def ask (q : Query) : Script q.Row :=
  Prog.query q

/-- A read outside a transaction. -/
def readOnce (q : Query) : Script q.Row :=
  Prog.read q

/-- A write outside a transaction. -/
def writeOnce (q : Query) : Script q.Row :=
  Prog.auto .transactionAborted q

def transaction {α : Type} (body : Script α) : Script α :=
  Prog.transaction .transactionAborted body

/-- A row that is not there is an error of the service. -/
def orElse {α : Type} (missing : Error) (p : Script α) : Script α :=
  p.bind fun
    | .error .noRows => .ret (.error missing)
    | r => .ret r

/-- Check something that needs no statement. -/
def check {α : Type} (x : Except Error α) : Script α :=
  .ret x

def deleteObject (env : Env) (key : String) : Script Unit :=
  if env.deletes key then (writeOnce (.deleteObject key)).bind fun _ => .ret (.ok ())
  else .ret (.ok ())

section Reads

def toCatDetail (clock : Instant) (caller : Option UUID) (row : CatRow) (mediaCount : ℕ) :
    CatDetail :=
  { id := row.id, name := row.name.getD "", area := row.area, areaLabel := row.areaLabel
    primaryPhoto := if row.photoUrl = "" then none else some row.photoUrl
    createdAt := row.createdAt, lastUpdateAt := row.lastUpdateAt
    lastSeenAt := row.lastSeenAt, lastFedAt := row.lastFedAt, lastWaterAt := row.lastWaterAt
    activeAlert := deriveActiveAlert clock row.needsHelp, mediaCount
    isOwner := caller.isSome && row.createdByUserId == caller
    ownerUserId := row.createdByUserId }

def getCatDetail (clock : Instant) (id : UUID) (caller : Option UUID) : Script CatDetail :=
  (orElse .catNotFound (readOnce (.getCatByID id caller))).andThen fun row =>
  (readOnce (.countCatMedia id)).andThen fun mediaCount =>
  .ret (.ok (toCatDetail clock caller row mediaCount))

/-- `CatExists`, with the error of the services that ask for it. -/
def requireCat (id : UUID) (viewer : Option UUID) : Script Unit :=
  (readOnce (.catExists id viewer)).andThen fun there =>
  .ret (if there then .ok () else .error .catNotFound)

def listCatMedia (id : UUID) (caller : Option UUID) : Script (List CatMediaItem) :=
  (requireCat id caller).andThen fun _ =>
  (readOnce (.listCatMedia id)).andThen fun rows =>
  .ret (.ok (rows.map toCatMediaItem))

def listNearby (clock : Instant) (bounds : Bounds) (caller : Option UUID) :
    Script (List CatMarker) :=
  (check (Bounds.validate bounds)).andThen fun _ =>
  (readOnce (.listCatsInBounds bounds caller)).andThen fun rows =>
  .ret (.ok (rows.map (toCatMarker clock)))

def listNearbyDuplicates (point : Point) (caller : Option UUID) :
    Script (List DuplicateCandidate) :=
  if withinIstanbul point then
    (readOnce (.listNearbyCatsForDuplicateCheck point caller)).andThen fun rows =>
    .ret (.ok (rows.map fun r => { id := r.1.id, name := r.1.name.getD "", primaryPhoto := r.2 }))
  else .ret (.error .invalidArea)

def listDiscover (read : Reading) (clock : Instant) (filter : String) (point : Point)
    (cursor : Option String) (limit : ℤ) (caller : Option UUID) : Script DiscoverPage :=
  match discoverFilter filter with
  | none => .ret (.error .invalidDiscoverFilter)
  | some filter =>
    if withinIstanbul point then
      (check (pageLimit defaultDiscoverLimit maxDiscoverLimit limit)).andThen fun limit =>
      (check (decodeCursor read.discoverCursor cursor)).andThen fun after =>
      (readOnce (.discover filter point clock after (limit + 1) caller)).andThen fun rows =>
      .ret (.ok (discoverPage read clock limit rows))
    else .ret (.error .invalidArea)

def listFollows (clock : Instant) (userId : UUID) : Script (List CatMarker) :=
  (readOnce (.listFollowedCats userId)).andThen fun rows =>
  .ret (.ok (rows.map (toCatMarker clock)))

def listCatUpdates (read : Reading) (clock : Instant) (catId : UUID) (cursor : Option String)
    (limit : ℤ) (caller : Option UUID) : Script UpdatesPage :=
  (check (pageLimit defaultUpdatesLimit maxUpdatesLimit limit)).andThen fun limit =>
  (check (decodeCursor read.updatesCursor cursor)).andThen fun before =>
  (requireCat catId caller).andThen fun _ =>
  (readOnce (.listCatUpdates catId before (limit + 1))).andThen fun rows =>
  .ret (.ok (updatesPage read clock caller limit rows))

end Reads

section Owners

/-- The cat's row for its owner. -/
def ownedCat (id caller : UUID) : Script CatRow :=
  (orElse .catNotFound (readOnce (.getCatByID id none))).andThen fun row =>
  .ret (if row.createdByUserId = some caller then .ok row else .error .notCatOwner)

def setCoverPhoto (env : Env) (id caller : UUID) (mediaId : Option UUID) : Script CatDetail :=
  (ownedCat id caller).andThen fun _ =>
  match mediaId with
  | none => .ret (.error .invalidMediaID)
  | some m =>
    (orElse .mediaNotInGallery (readOnce (.getCatMediaByCatAndMedia id m))).andThen fun _ =>
    (writeOnce (.setCatCoverPhoto m id)).andThen fun _ =>
    getCatDetail env.clock id (some caller)

def checkName (env : Env) (name : String) : Except Error String :=
  if trimSpace name = "" then .error .invalidCatName
  else do
    moderateText env (trimSpace name)
    return trimSpace name

def renameCat (env : Env) (id caller : UUID) (name : String) : Script CatDetail :=
  (ownedCat id caller).andThen fun _ =>
  (check (checkName env name)).andThen fun trimmed =>
  (writeOnce (.updateCatName trimmed id)).andThen fun _ =>
  getCatDetail env.clock id (some caller)

def resolveDeleteCatFailure (id caller : UUID) : Script Unit :=
  (orElse .catNotFound (readOnce (.getCatOwnershipForDelete id))).andThen fun row =>
  .ret (if row.createdByUserId ≠ some caller then .error .notCatOwner
    else if row.status = .deleted then .ok ()
    else .error .catNotFound)

def deleteCat (id caller : UUID) : Script Unit :=
  (writeOnce (.softDeleteCat id caller)).bind fun
    | .ok _ => .ret (.ok ())
    | .error .noRows => resolveDeleteCatFailure id caller
    | .error e => .ret (.error e)

end Owners

section Updates

def authorDisplayNameFor (authorUserId : UUID) : Script (Option String) :=
  (readOnce (.getUserByID authorUserId)).andThen fun user => .ret (.ok user.displayName)

/-- The attached medium must have been uploaded by the author. -/
def resolveOwnMedia (mediaId : Option (Option UUID)) (authorUserId : UUID) :
    Script (Option Medium) :=
  match mediaId with
  | none => .ret (.ok none)
  | some none => .ret (.error .mediaNotFound)
  | some (some id) =>
    (orElse .mediaNotFound (readOnce (.getMediaByID id))).andThen fun media =>
    .ret (if media.uploadedByUserId = authorUserId then .ok (some media)
      else .error .mediaNotFound)

def keyedResult (env : Env) (row : Update) (statuses : List Status) (media : Option Medium)
    (authorDisplayName : Option String) : CatUpdate :=
  let result : CatUpdate :=
    { id := row.id, kind := wireUpdateKind row.needsHelp, statuses, comment := row.comment
      createdAt := row.createdAt, needsHelp := row.needsHelp, authorIsMe := true
      correctionExpiresAt := some (row.createdAt + updateCorrectionWindow), authorDisplayName }
  let expiresAt := row.needsHelpExpiresAt.getD 0
  (if row.needsHelp then result.withHelp expiresAt (decide (env.clock < expiresAt))
    else result).withMedia media

def fetchIdempotentOrdinaryUpdate (env : Env) (authorUserId : UUID) (key : String) :
    Script CatUpdate :=
  (readOnce (.getUpdateByIdempotencyKey authorUserId key)).andThen fun found =>
  (authorDisplayNameFor authorUserId).andThen fun authorDisplayName =>
  .ret (.ok (keyedResult env found.1 found.2.1 found.2.2 authorDisplayName))

/-- The update an idempotency key already names for this author. -/
def earlierUpdate (env : Env) (req : OrdinaryUpdateRequest) : Script CatUpdate :=
  match req.idempotencyKey with
  | none => .ret (.error .noRows)
  | some key => fetchIdempotentOrdinaryUpdate env req.userId key

def checkOrdinaryUpdate (env : Env) (req : OrdinaryUpdateRequest) : Except Error (List Status) := do
  let statuses ← validateStatusSet req.statuses req.needsHelp
  validateHelpNote req.needsHelp req.comment
  moderateOptionalText env req.comment
  return orderStatuses statuses

def ordinaryUpdateParams (env : Env) (req : OrdinaryUpdateRequest) (catId : UUID)
    (statuses : List Status) (media : Option Medium) : Store.CreateOrdinaryUpdateParams :=
  { id := env.uuid 0, catId, authorDeviceId := req.deviceId, authorUserId := req.userId
    comment := req.comment, createdAt := env.clock, statuses
    idempotencyKey := req.idempotencyKey, needsHelp := req.needsHelp
    needsHelpExpiresAt := if req.needsHelp then some (needsHelpExpiresAt env.clock) else none
    mediaId := media.map Medium.id }

/-- The checks of `CreateOrdinaryUpdate`, up to the write. -/
def prepareOrdinaryUpdate (env : Env) (req : OrdinaryUpdateRequest) (catId : UUID) :
    Script (Store.CreateOrdinaryUpdateParams × Option Medium) :=
  (check (checkOrdinaryUpdate env req)).andThen fun statuses =>
  (requireCat catId (some req.userId)).andThen fun _ =>
  (resolveOwnMedia req.mediaId req.userId).andThen fun media =>
  .ret (.ok (ordinaryUpdateParams env req catId statuses media, media))

def createStatuses (updateId : UUID) : List Status → Script Unit
  | [] => .ret (.ok ())
  | status :: left =>
    (ask (.createUpdateStatus updateId status)).andThen fun _ => createStatuses updateId left

/-- An attached medium joins the cat's gallery; it may already be there. -/
def linkGallery (catMediaId : UUID) (arg : Store.CreateOrdinaryUpdateParams) : Script Unit :=
  match arg.mediaId with
  | none => .ret (.ok ())
  | some mediaId =>
    (ask (.createCatMedia catMediaId arg.catId mediaId arg.createdAt)).bind fun
      | .ok _ => .ret (.ok ())
      | .error .noRows => .ret (.ok ())
      | .error e => .ret (.error e)

/-- `Store.CreateOrdinaryUpdate`. -/
def storeOrdinaryUpdate (env : Env) (arg : Store.CreateOrdinaryUpdateParams) : Script UUID :=
  transaction <|
    (ask (.createUpdate arg.row)).andThen fun id =>
    (createStatuses id arg.statuses).andThen fun _ =>
    (ask (.updateCatLastUpdateAt arg.createdAt arg.catId)).andThen fun _ =>
    (linkGallery (env.uuid 1) arg).andThen fun _ =>
    (ask (.createNotificationOutbox (env.uuid 2) id env.now)).andThen fun _ =>
    .ret (.ok id)

def createdResult (env : Env) (req : OrdinaryUpdateRequest) (statuses : List Status)
    (media : Option Medium) (id : UUID) (authorDisplayName : Option String) : CatUpdate :=
  let result : CatUpdate :=
    { id, kind := wireUpdateKind req.needsHelp, statuses, comment := req.comment
      createdAt := env.clock, needsHelp := req.needsHelp, authorIsMe := true
      correctionExpiresAt := some (env.clock + updateCorrectionWindow), authorDisplayName }
  (if req.needsHelp then result.withHelp (needsHelpExpiresAt env.clock) true
    else result).withMedia media

/-- A lost race on the idempotency key is answered with the row that won. -/
def recoverOrdinaryUpdate (env : Env) (req : OrdinaryUpdateRequest) (e : Error) :
    Script CatUpdate :=
  if isUniqueViolation e then
    (earlierUpdate env req).bind fun
      | .ok existing => .ret (.ok existing)
      | .error _ => .ret (.error e)
  else .ret (.error e)

def storeAndAnswer (env : Env) (req : OrdinaryUpdateRequest)
    (params : Store.CreateOrdinaryUpdateParams) (media : Option Medium) : Script CatUpdate :=
  (storeOrdinaryUpdate env params).bind fun
    | .error e => recoverOrdinaryUpdate env req e
    | .ok id =>
      (authorDisplayNameFor req.userId).andThen fun authorDisplayName =>
      .ret (.ok (createdResult env req params.statuses media id authorDisplayName))

def createOrdinaryUpdate (env : Env) (req : OrdinaryUpdateRequest) : Script CatUpdate :=
  match req.catId with
  | none => .ret (.error .invalidCatID)
  | some catId =>
    (earlierUpdate env req).bind fun
      | .ok existing => .ret (.ok existing)
      | .error .noRows =>
        (prepareOrdinaryUpdate env req catId).andThen fun prepared =>
        storeAndAnswer env req prepared.1 prepared.2
      | .error e => .ret (.error e)

def checkNeedsHelpUpdate (env : Env) (catId : Option UUID) (category : String)
    (comment : Option String) : Except Error (UUID × Category) := do
  match catId, needsHelpCategory category with
  | none, _ => .error .invalidCatID
  | some _, none => .error .invalidNeedsHelpCategory
  | some catId, some c =>
    validateNeedsHelpNote comment
    moderateOptionalText env comment
    return (catId, c)

def needsHelpParams (env : Env) (catId userId : UUID) (deviceId : Option UUID) (c : Category)
    (comment : Option String) : Store.CreateOrdinaryUpdateParams :=
  { id := env.uuid 0, catId, authorDeviceId := deviceId, authorUserId := userId, comment
    createdAt := env.clock, statuses := [], needsHelp := true, needsHelpCategory := some c
    needsHelpExpiresAt := some (needsHelpExpiresAt env.clock) }

def needsHelpAnswer (env : Env) (comment : Option String) (c : Category) (id : UUID)
    (authorDisplayName : Option String) : CatUpdate :=
  { id, kind := "needs_help", statuses := [], comment, createdAt := env.clock
    needsHelp := true, needsHelpCategory := some (categoryText c)
    needsHelpCategoryLabel := some (categoryLabel c)
    needsHelpExpiresAt := some (needsHelpExpiresAt env.clock)
    needsHelpActive := some true, authorDisplayName }

def createNeedsHelpUpdate (env : Env) (catId : Option UUID) (userId : UUID)
    (deviceId : Option UUID) (category : String) (comment : Option String) : Script CatUpdate :=
  (check (checkNeedsHelpUpdate env catId category comment)).andThen fun found =>
  (requireCat found.1 (some userId)).andThen fun _ =>
  (storeOrdinaryUpdate env (needsHelpParams env found.1 userId deviceId found.2 comment)).andThen
    fun id =>
  (authorDisplayNameFor userId).andThen fun authorDisplayName =>
  .ret (.ok (needsHelpAnswer env comment found.2 id authorDisplayName))

/-- `.ok ()` reports a row that is already deleted. -/
def correctionFailure (authorUserId : UUID) (windowStart : Instant) (correction : Bool)
    (found : Update × Bool) : Except Error Unit :=
  if found.1.kind ≠ .ordinary then .error .updateNotFound
  else if found.1.authorUserId ≠ some authorUserId then .error .notUpdateAuthor
  else if found.1.deletedAt.isSome then .ok ()
  else if found.1.createdAt ≤ windowStart then .error .correctionWindowExpired
  else if !correction && found.2 then .error .updateHoldsCover
  else if correction then .error .invalidStatuses
  else .error .updateNotFound

def resolveCorrectionFailure (catId updateId authorUserId : UUID) (windowStart : Instant)
    (correction : Bool) : Script Unit :=
  (orElse .updateNotFound (readOnce (.getUpdateForCorrectionCheck updateId catId))).andThen
    fun found => .ret (correctionFailure authorUserId windowStart correction found)

/-- `Store.CorrectOwnUpdate`. -/
def storeCorrection (arg : Store.CorrectOwnUpdateParams) : Script (Update × List Status) :=
  transaction <|
    (ask (.correctOrdinaryUpdate arg.row)).andThen fun row =>
    if arg.replaceStatuses then
      (ask (.replaceUpdateStatuses arg.id)).andThen fun _ =>
      (createStatuses arg.id arg.statuses).andThen fun _ =>
      .ret (.ok (row, arg.statuses))
    else
      (ask (.listUpdateStatuses arg.id)).andThen fun statuses => .ret (.ok (row, statuses))

def correctOwnUpdate (env : Env) (catId updateId : Option UUID) (userId : UUID)
    (correction : UpdateCorrection) : Script CatUpdate :=
  (check (prepareCorrection env catId updateId userId correction)).andThen fun params =>
  (storeCorrection params).bind fun
    | .ok (row, statuses) => .ret (.ok (correctionResult env row statuses))
    | .error .noRows =>
      (resolveCorrectionFailure params.catId params.id userId params.windowStart true).andThen
        fun _ => .ret (.error .updateNotFound)
    | .error e => .ret (.error e)

def deleteParams (env : Env) (catId updateId userId : UUID) : DeleteOwnUpdateParams :=
  { deletedAt := env.clock, id := updateId, catId, authorUserId := userId
    windowStart := env.clock - updateCorrectionWindow }

def deleteOwnUpdate (env : Env) (catId updateId : Option UUID) (userId : UUID) : Script Unit :=
  match catId, updateId with
  | none, _ => .ret (.error .invalidCatID)
  | some _, none => .ret (.error .updateNotFound)
  | some catId, some updateId =>
    (writeOnce (.deleteOwnUpdate (deleteParams env catId updateId userId))).bind fun
      | .ok _ => .ret (.ok ())
      | .error .noRows =>
        resolveCorrectionFailure catId updateId userId (env.clock - updateCorrectionWindow) false
      | .error e => .ret (.error e)

end Updates

section Media

/-- The cat an idempotency key already names for this owner. -/
def earlierCat (env : Env) (req : CreateRequest) : Script CatDetail :=
  match req.idempotencyKey with
  | none => .ret (.error .noRows)
  | some key =>
    (readOnce (.getCatByIdempotencyKey req.userId key)).andThen fun existing =>
    getCatDetail env.clock existing.id (some req.userId)

def checkDuplicates (req : CreateRequest) : Script Unit :=
  if req.confirmedNew then .ret (.ok ())
  else
    (readOnce (.listNearbyCatsForDuplicateCheck req.area (some req.userId))).andThen fun rows =>
    .ret (if rows.isEmpty then .ok () else .error (.duplicateCandidates (rows.map (·.1.id))))

def processAndModerate (env : Env) (req : CreateRequest) : Except Error ContentType := do
  let contentType ← env.process
  moderateCreate env req.name
  return contentType

def prepareCreate (env : Env) (req : CreateRequest) : Script ContentType :=
  if !withinIstanbul req.area then .ret (.error .invalidArea)
  else if !req.photo then .ret (.error .missingPhoto)
  else
    (checkDuplicates req).andThen fun _ => check (processAndModerate env req)

/-- The object is stored before its row. -/
def putObject (env : Env) : Script String :=
  (check env.put).andThen fun url =>
  (writeOnce (.putObject env.objectKey)).andThen fun _ => .ret (.ok url)

def coverMedium (env : Env) (req : CreateRequest) (contentType : ContentType) (url : String) :
    Medium :=
  { id := env.uuid 0, objectKey := env.objectKey, url, contentType
    uploadedByUserId := req.userId, uploadedByDeviceId := req.deviceId }

def newCat (env : Env) (req : CreateRequest) : CreateCatParams :=
  { id := env.uuid 1, name := req.name, area := req.area, createdByUserId := req.userId
    createdByDeviceId := req.deviceId, idempotencyKey := req.idempotencyKey }

/-- `Store.CreateCatWithMedia`. -/
def storeCat (env : Env) (media : Medium) (cat : CreateCatParams) : Script Cat :=
  transaction <|
    (ask (.createMedia media)).andThen fun media =>
    (ask (.createCat { cat with primaryPhotoId := some media.id } env.now)).andThen fun row =>
    (ask (.createCatMedia (env.uuid 2) row.id media.id row.createdAt)).andThen fun _ =>
    .ret (.ok row)

/-- The object is deleted again, whatever the failure. -/
def recoverFromCreateCatFailure (env : Env) (req : CreateRequest) (e : Error) : Script CatDetail :=
  (if e = .noRows ∧ req.idempotencyKey.isSome then earlierCat env req else .ret (.error e)).bind
    fun result => (deleteObject env env.objectKey).bind fun _ => .ret result

def create (env : Env) (req : CreateRequest) : Script CatDetail :=
  (earlierCat env req).bind fun
    | .ok existing => .ret (.ok existing)
    | .error .noRows =>
      (prepareCreate env req).andThen fun contentType =>
      (putObject env).andThen fun url =>
      (storeCat env (coverMedium env req contentType url) (newCat env req)).bind fun
        | .error e => recoverFromCreateCatFailure env req e
        | .ok row =>
          .ret (.ok { id := row.id, name := row.name.getD "", area := row.area
                      areaLabel := row.areaLabel, primaryPhoto := some url
                      createdAt := row.createdAt, lastUpdateAt := row.lastUpdateAt })
    | .error e => .ret (.error e)

/-- The medium an idempotency key already names for this uploader. -/
def earlierMedia (userId : UUID) (idempotencyKey : Option String) : Script Media :=
  match idempotencyKey with
  | none => .ret (.error .noRows)
  | some key =>
    (readOnce (.getMediaByIdempotencyKey userId key)).andThen fun existing =>
    .ret (.ok (toMedia existing))

def uploadedMedium (env : Env) (userId : UUID) (deviceId : Option UUID)
    (idempotencyKey : Option String) (muted : Bool) (contentType : ContentType) (url : String) :
    Medium :=
  { id := env.uuid 0, objectKey := env.objectKey, url, contentType
    uploadedByUserId := userId, uploadedByDeviceId := deviceId, idempotencyKey, muted }

def recoverFromCreateFailure (env : Env) (userId : UUID) (idempotencyKey : Option String)
    (e : Error) : Script Media :=
  (if e = .noRows ∧ idempotencyKey.isSome then earlierMedia userId idempotencyKey
    else .ret (.error e)).bind
    fun result => (deleteObject env env.objectKey).bind fun _ => .ret result

def upload (env : Env) (userId : UUID) (deviceId : Option UUID) (idempotencyKey : Option String)
    (muted : Bool) : Script Media :=
  (earlierMedia userId idempotencyKey).bind fun
    | .ok existing => .ret (.ok existing)
    | .error .noRows =>
      (check (prepareUpload env)).andThen fun contentType =>
      (putObject env).andThen fun url =>
      (writeOnce (.createMedia
        (uploadedMedium env userId deviceId idempotencyKey muted contentType url))).bind fun
        | .error e => recoverFromCreateFailure env userId idempotencyKey e
        | .ok row => .ret (.ok (toMedia row))
    | .error e => .ret (.error e)

end Media

section Social

def follow (catId : Option UUID) (userId : UUID) (deviceId : Option UUID) : Script Unit :=
  match catId with
  | none => .ret (.error .invalidCatID)
  | some cat =>
    (requireCat cat (some userId)).andThen fun _ => writeOnce (.createFollow userId deviceId cat)

def unfollow (catId : Option UUID) (userId : UUID) : Script Unit :=
  match catId with
  | none => .ret (.error .invalidCatID)
  | some cat => (requireCat cat (some userId)).andThen fun _ => writeOnce (.deleteFollow userId cat)

def targetExists (targetType : TargetType) (targetId reporterUserId : UUID) : Script Bool :=
  match targetType with
  | .cat => readOnce (.catExists targetId (some reporterUserId))
  | .update => readOnce (.updateExists targetId)
  | .media =>
    (readOnce (.getMediaByID targetId)).bind fun
      | .ok _ => .ret (.ok true)
      | .error .noRows => .ret (.ok false)
      | .error e => .ret (.error e)

def checkReport (env : Env) (reporterUserId : UUID) (targetType : String)
    (targetId : Option UUID) (reason : String) (note : Option String) : Except Error Report :=
  match reportTargetType targetType, targetId, reportReason reason with
  | none, _, _ => .error .invalidReportTargetType
  | some _, none, _ => .error .invalidReportTargetID
  | some _, some _, none => .error .invalidReportReason
  | some type, some target, some reason =>
    let trimmedNote := note.elim "" trimSpace
    if reason = .other ∧ trimmedNote = "" then .error .reportNoteRequired
    else .ok {
      id := env.uuid 0, reporterUserId, targetType := type, targetId := target, reason
      note := if trimmedNote = "" then none else some trimmedNote, createdAt := env.now }

/-- A duplicate of an open report answers with that report. -/
def createReport (env : Env) (reporterUserId : UUID) (targetType : String)
    (targetId : Option UUID) (reason : String) (note : Option String) : Script Report :=
  (check (checkReport env reporterUserId targetType targetId reason note)).andThen fun row =>
  (targetExists row.targetType row.targetId reporterUserId).andThen fun there =>
  if there then
    (writeOnce (.createReport row)).bind fun
      | .ok row => .ret (.ok row)
      | .error .noRows =>
        readOnce (.getOpenReportByReporterAndTarget row.reporterUserId row.targetType row.targetId)
      | .error e => .ret (.error e)
  else .ret (.error .reportTargetNotFound)

def block (blocker : UUID) (blockedUserId : Option UUID) : Script Unit :=
  match blockedUserId with
  | none => .ret (.error .invalidBlockedUserID)
  | some blocked =>
    if blocker = blocked then .ret (.error .cannotBlockSelf)
    else
      (orElse .blockedUserNotFound (readOnce (.getUserByID blocked))).andThen fun _ =>
      writeOnce (.createBlock blocker blocked)

def unblock (blocker : UUID) (blockedUserId : Option UUID) : Script Unit :=
  match blockedUserId with
  | none => .ret (.error .invalidBlockedUserID)
  | some blocked =>
    if blocker = blocked then .ret (.error .cannotBlockSelf)
    else writeOnce (.deleteBlock blocker blocked)

end Social

section Dispatch

def pushMessage (row : ClaimedRow) (deviceId : UUID) (token : String) : PushMessage :=
  { deviceId, pushToken := token, catId := row.catId, updateId := row.updateId }

/-- A token that is refused for good is retired. -/
def push (env : Env) (msg : PushMessage) : Script Unit :=
  (ask (.send msg)).andThen fun _ =>
  match env.send msg with
  | .tokenInvalid => ask (.clearDevicePushToken msg.deviceId (some msg.pushToken))
  | .delivered | .failed => .ret (.ok ())

/-- One recipient: the inbox row first, then the push if there is a token. -/
def deliver (env : Env) (row : ClaimedRow) (rec : Recipient) (drawn : ℕ) : Script Unit :=
  (ask (.createNotification (env.uuid drawn) rec.deviceId row.catId row.updateId env.now)).bind fun
    | .error .noRows => .ret (.ok ())
    | .error e => .ret (.error e)
    | .ok _ =>
      match rec.pushToken with
      | none => .ret (.ok ())
      | some token =>
        if token = "" then .ret (.ok ()) else push env (pushMessage row rec.deviceId token)

/-- `drawn` counts the identifiers generated so far. -/
def deliverAll (env : Env) (row : ClaimedRow) : List Recipient → ℕ → Script ℕ
  | [], drawn => .ret (.ok drawn)
  | rec :: left, drawn =>
    (deliver env row rec drawn).andThen fun _ => deliverAll env row left (drawn + 1)

def dispatchNeedsHelp (env : Env) (row : ClaimedRow) (drawn : ℕ) : Script ℕ :=
  (ask (.listNeedsHelpRecipientDevices row.catId row.authorUserId)).andThen fun recipients =>
  deliverAll env row recipients drawn

def dispatchRow (env : Env) (row : ClaimedRow) (drawn : ℕ) : Script ℕ :=
  (if row.needsHelp && row.needsHelpEligible then dispatchNeedsHelp env row drawn
    else .ret (.ok drawn)).andThen fun drawn =>
  (ask (.markNotificationOutboxProcessed env.clock row.id)).andThen fun _ => .ret (.ok drawn)

def dispatchRows (env : Env) : List ClaimedRow → ℕ → Script Unit
  | [], _ => .ret (.ok ())
  | row :: left, drawn =>
    (dispatchRow env row drawn).andThen fun drawn => dispatchRows env left drawn

/-- `skipped` are the rows whose locks other transactions hold. -/
def dispatchPending (cfg : Config) (env : Env) (skipped : List UUID) : Script ℕ :=
  transaction <|
    (ask (.claimNotificationOutboxBatch skipped cfg.batchSize)).andThen fun rows =>
    (dispatchRows env rows 0).andThen fun _ => .ret (.ok rows.length)

def markRead (env : Env) (userId : UUID) (id : Option UUID) : Script Unit :=
  match id with
  | none => .ret (.error .invalidNotificationID)
  | some n => writeOnce (.markNotificationRead env.clock n userId)

end Dispatch

section Deletion

/-- Children before parents, and anything referencing media before the media rows. -/
def deletionSteps : List DeletionStep :=
  [.notifications, .outbox, .updateStatuses, .updates, .follows, .reports, .blocks, .covers,
   .catMedia, .cats, .media, .devices, .refreshTokens, .otpCodes, .user]

def runSteps (userId : UUID) (phone : String) (now : Instant) : List DeletionStep → Script Unit
  | [] => .ret (.ok ())
  | step :: left =>
    (ask (.deleteAccount step userId phone now)).andThen fun _ => runSteps userId phone now left

/-- `Store.DeleteAccount`. -/
def storeDeletion (now : Instant) (userId : UUID) (phone : String) : Script (List String) :=
  transaction <|
    (ask (.listAccountObjectKeys userId)).andThen fun objectKeys =>
    (runSteps userId phone now deletionSteps).andThen fun _ => .ret (.ok objectKeys)

def deleteObjects (env : Env) : List String → Script Unit
  | [] => .ret (.ok ())
  | key :: left => (deleteObject env key).andThen fun _ => deleteObjects env left

/-- `AccountsService.Delete`. -/
def deleteAccount (env : Env) (userId : UUID) : Script Unit :=
  (readOnce (.getUserByID userId)).bind fun
    | .error .noRows => .ret (.ok ())
    | .error e => .ret (.error e)
    | .ok user =>
      (storeDeletion env.now userId user.phone).andThen fun objectKeys =>
      deleteObjects env objectKeys

end Deletion

inductive Op
  | createCat (env : Env) (req : CreateRequest)
  | upload (env : Env) (userId : UUID) (deviceId : Option UUID) (idempotencyKey : Option String)
      (muted : Bool)
  | createOrdinaryUpdate (env : Env) (req : OrdinaryUpdateRequest)
  | createNeedsHelpUpdate (env : Env) (catId : Option UUID) (userId : UUID)
      (deviceId : Option UUID) (category : String) (comment : Option String)
  | correctOwnUpdate (env : Env) (catId updateId : Option UUID) (userId : UUID)
      (correction : UpdateCorrection)
  | deleteOwnUpdate (env : Env) (catId updateId : Option UUID) (userId : UUID)
  | setCoverPhoto (env : Env) (catId caller : UUID) (mediaId : Option UUID)
  | renameCat (env : Env) (catId caller : UUID) (name : String)
  | deleteCat (catId caller : UUID)
  | follow (catId : Option UUID) (userId : UUID) (deviceId : Option UUID)
  | unfollow (catId : Option UUID) (userId : UUID)
  | report (env : Env) (reporter : UUID) (targetType : String) (targetId : Option UUID)
      (reason : String) (note : Option String)
  | block (blocker : UUID) (blocked : Option UUID)
  | unblock (blocker : UUID) (blocked : Option UUID)
  | dispatchPending (env : Env) (skipped : List UUID)
  | markRead (env : Env) (userId : UUID) (id : Option UUID)
  | deleteAccount (env : Env) (userId : UUID)
  | listNearby (clock : Instant) (bounds : Bounds) (caller : Option UUID)
  | listNearbyDuplicates (point : Point) (caller : Option UUID)
  | listDiscover (clock : Instant) (filter : String) (point : Point) (cursor : Option String)
      (limit : ℤ) (caller : Option UUID)
  | getCatDetail (clock : Instant) (catId : UUID) (caller : Option UUID)
  | listCatUpdates (clock : Instant) (catId : UUID) (cursor : Option String) (limit : ℤ)
      (caller : Option UUID)
  | listCatMedia (catId : UUID) (caller : Option UUID)
  | listFollows (clock : Instant) (userId : UUID)

inductive Answer
  | done
  | cat (detail : CatDetail)
  | media (uploaded : Media)
  | update (update : CatUpdate)
  | report (row : Report)
  | dispatched (processed : ℕ)
  | markers (markers : List CatMarker)
  | candidates (candidates : List DuplicateCandidate)
  | discovered (page : DiscoverPage)
  | updates (page : UpdatesPage)
  | gallery (items : List CatMediaItem)

def reply {α : Type} (f : α → Answer) (p : Script α) : Script Answer :=
  p.andThen fun a => .ret (.ok (f a))

def program (cfg : Config) (read : Reading) : Op → Script Answer
  | .createCat env req => reply .cat (create env req)
  | .upload env userId deviceId key muted => reply .media (upload env userId deviceId key muted)
  | .createOrdinaryUpdate env req => reply .update (createOrdinaryUpdate env req)
  | .createNeedsHelpUpdate env catId userId deviceId category comment =>
    reply .update (createNeedsHelpUpdate env catId userId deviceId category comment)
  | .correctOwnUpdate env catId updateId userId correction =>
    reply .update (correctOwnUpdate env catId updateId userId correction)
  | .deleteOwnUpdate env catId updateId userId =>
    reply (fun _ => .done) (deleteOwnUpdate env catId updateId userId)
  | .setCoverPhoto env catId caller mediaId =>
    reply .cat (setCoverPhoto env catId caller mediaId)
  | .renameCat env catId caller name => reply .cat (renameCat env catId caller name)
  | .deleteCat catId caller => reply (fun _ => .done) (deleteCat catId caller)
  | .follow catId userId deviceId => reply (fun _ => .done) (follow catId userId deviceId)
  | .unfollow catId userId => reply (fun _ => .done) (unfollow catId userId)
  | .report env reporter targetType targetId reason note =>
    reply .report (createReport env reporter targetType targetId reason note)
  | .block blocker blocked => reply (fun _ => .done) (block blocker blocked)
  | .unblock blocker blocked => reply (fun _ => .done) (unblock blocker blocked)
  | .dispatchPending env skipped => reply .dispatched (dispatchPending cfg env skipped)
  | .markRead env userId id => reply (fun _ => .done) (markRead env userId id)
  | .deleteAccount env userId => reply (fun _ => .done) (deleteAccount env userId)
  | .listNearby clock bounds caller => reply .markers (listNearby clock bounds caller)
  | .listNearbyDuplicates point caller => reply .candidates (listNearbyDuplicates point caller)
  | .listDiscover clock filter point cursor limit caller =>
    reply .discovered (listDiscover read clock filter point cursor limit caller)
  | .getCatDetail clock catId caller => reply .cat (getCatDetail clock catId caller)
  | .listCatUpdates clock catId cursor limit caller =>
    reply .updates (listCatUpdates read clock catId cursor limit caller)
  | .listCatMedia catId caller => reply .gallery (listCatMedia catId caller)
  | .listFollows clock userId => reply .markers (listFollows clock userId)

end Tekir.ContentCalls
