import Tekir.AccountServices

/-!
# Cat services

`CatsService` and `MediaService`. Each write validates and reads first, in the
source's order, then runs one store transaction and builds its answer. `none` for a
client-supplied identifier is a text that is not a uuid.
-/
namespace Tekir.CatServices
open Table Schema Statements AccountQueries CatQueries UpdateQueries Environment

/-- Ten minutes. -/
def updateCorrectionWindow : ℤ := 600000000

/-- Seventy-two hours. -/
def needsHelpExpiry : ℤ := 259200000000

def needsHelpExpiresAt (createdAt : Instant) : Instant :=
  createdAt + needsHelpExpiry

def needsHelpNoteMaxChars : ℕ := 500

def categoryText : Category → String
  | .injuredOrSick => "injured_or_sick"
  | .foodNeeded => "food_needed"
  | .waterNeeded => "water_needed"
  | .unsafeLocation => "unsafe_location"
  | .trapped => "trapped"

def categoryLabel : Category → String
  | .injuredOrSick => "yaralı / hasta"
  | .foodNeeded => "mamaya ihtiyacı var"
  | .waterNeeded => "suya ihtiyacı var"
  | .unsafeLocation => "güvenli olmayan konum"
  | .trapped => "mahsur kalmış"

/-- A stored category and its label, or the fixed compatibility pair. -/
def alertCategory (category : Option Category) : String × String :=
  category.elim ("unspecified", "Yardıma ihtiyacı var") fun c => (categoryText c, categoryLabel c)

def wireUpdateKind (needsHelp : Bool) : String :=
  if needsHelp then "needs_help" else "ordinary"

def withinIstanbul (p : Point) : Bool :=
  decide (40.80 ≤ p.lat) && decide (p.lat ≤ 41.40) && decide (28.35 ≤ p.lng) &&
    decide (p.lng ≤ 29.55)

structure ActiveAlert where
  category : String
  categoryLabel : String
  comment : Option String
  createdAt : Instant
  expiresAt : Instant
  deriving DecidableEq

def deriveActiveAlert (clock : Instant) (latest : Option Update) : Option ActiveAlert := do
  let u ← latest
  let expiresAt ← u.needsHelpExpiresAt
  if clock < expiresAt then
    let (category, label) := alertCategory u.needsHelpCategory
    some { category, categoryLabel := label, comment := u.comment
           createdAt := u.createdAt, expiresAt }
  else none

structure CatDetail where
  id : UUID
  name : String
  area : Point
  areaLabel : Option String
  primaryPhoto : Option String
  createdAt : Instant
  lastUpdateAt : Option Instant
  lastSeenAt : Option Instant := none
  lastFedAt : Option Instant := none
  lastWaterAt : Option Instant := none
  activeAlert : Option ActiveAlert := none
  mediaCount : ℕ := 0
  isOwner : Bool := false
  ownerUserId : Option UUID := none
  deriving DecidableEq

def getCatDetail (clock : Instant) (id : UUID) (caller : Option UUID) (db : Database) :
    Except Error CatDetail :=
  match getCatByID id caller db with
  | .error .noRows => .error .catNotFound
  | .error e => .error e
  | .ok row =>
    .ok {
      id := row.id, name := row.name.getD "", area := row.area, areaLabel := row.areaLabel
      primaryPhoto := if row.photoUrl = "" then none else some row.photoUrl
      createdAt := row.createdAt, lastUpdateAt := row.lastUpdateAt
      lastSeenAt := row.lastSeenAt, lastFedAt := row.lastFedAt, lastWaterAt := row.lastWaterAt
      activeAlert := deriveActiveAlert clock row.needsHelp
      mediaCount := countCatMedia id db
      isOwner := caller.isSome && row.createdByUserId == caller
      ownerUserId := row.createdByUserId }

structure CatMediaItem where
  id : UUID
  url : String
  contentType : ContentType
  muted : Bool
  isCover : Bool
  createdAt : Instant
  uploaderDisplayName : Option String
  uploaderUserId : UUID
  deriving DecidableEq

/-- The item's identifier is the one of the archive row. -/
def toCatMediaItem (r : CatMediaRow) : CatMediaItem :=
  { id := r.id, url := r.url, contentType := r.contentType, muted := r.muted
    isCover := r.isCover, createdAt := r.createdAt
    uploaderDisplayName := r.uploaderDisplayName, uploaderUserId := r.uploaderUserId }

def listCatMedia (id : UUID) (caller : Option UUID) (db : Database) :
    Except Error (List CatMediaItem) :=
  if catExists id caller db then .ok ((CatQueries.listCatMedia id db).map toCatMediaItem)
  else .error .catNotFound

/-- The cat's row for its owner. -/
def ownedCat (id caller : UUID) (db : Database) : Except Error CatRow :=
  match getCatByID id none db with
  | .error .noRows => .error .catNotFound
  | .error e => .error e
  | .ok row => if row.createdByUserId = some caller then .ok row else .error .notCatOwner

def setCoverPhoto (env : Env) (id caller : UUID) (mediaId : Option UUID) (w : World) :
    Except Error CatDetail × World :=
  match ownedCat id caller w.db, mediaId with
  | .error e, _ => (.error e, w)
  | .ok _, none => (.error .invalidMediaID, w)
  | .ok _, some m =>
    match getCatMediaByCatAndMedia id m w.db with
    | .error .noRows => (.error .mediaNotInGallery, w)
    | .error e => (.error e, w)
    | .ok _ =>
      match setCatCoverPhoto m id w.db with
      | .error e => (.error e, w)
      | .ok db => (getCatDetail env.clock id (some caller) db, { w with db })

/-- The moderator's verdict on a text. -/
def moderateText (env : Env) (text : String) : Except Error Unit := do
  if ← env.moderateText text then return () else .error .contentRejected

def moderateOptionalText (env : Env) (comment : Option String) : Except Error Unit :=
  match comment with
  | none => .ok ()
  | some c => if trimSpace c = "" then .ok () else moderateText env (trimSpace c)

def moderateImage (env : Env) : Except Error Unit := do
  if ← env.moderateImage then return () else .error .contentRejected

def prepareRename (env : Env) (id caller : UUID) (name : String) (db : Database) :
    Except Error String := do
  let _ ← ownedCat id caller db
  if trimSpace name = "" then .error .invalidCatName
  else
    moderateText env (trimSpace name)
    return trimSpace name

def renameCat (env : Env) (id caller : UUID) (name : String) (w : World) :
    Except Error CatDetail × World :=
  match prepareRename env id caller name w.db with
  | .error e => (.error e, w)
  | .ok trimmed =>
    match updateCatName trimmed id w.db with
    | .error e => (.error e, w)
    | .ok db => (getCatDetail env.clock id (some caller) db, { w with db })

def resolveDeleteCatFailure (id caller : UUID) (db : Database) : Except Error Unit :=
  match getCatOwnershipForDelete id db with
  | .error .noRows => .error .catNotFound
  | .error e => .error e
  | .ok row =>
    if row.createdByUserId ≠ some caller then .error .notCatOwner
    else if row.status = .deleted then .ok ()
    else .error .catNotFound

def deleteCat (id caller : UUID) (w : World) : Except Error Unit × World :=
  match softDeleteCat id caller w.db with
  | .ok (_, db) => (.ok (), { w with db })
  | .error .noRows => (resolveDeleteCatFailure id caller w.db, w)
  | .error e => (.error e, w)

structure CatUpdate where
  id : UUID
  kind : String
  statuses : List Status
  comment : Option String
  createdAt : Instant
  updatedAt : Option Instant := none
  authorUserId : Option UUID := none
  authorDisplayName : Option String := none
  photoUrl : Option String := none
  mediaContentType : Option ContentType := none
  mediaMuted : Option Bool := none
  needsHelp : Bool := false
  needsHelpCategory : Option String := none
  needsHelpCategoryLabel : Option String := none
  needsHelpExpiresAt : Option Instant := none
  needsHelpActive : Option Bool := none
  authorIsMe : Bool := false
  correctionExpiresAt : Option Instant := none
  deriving DecidableEq

def CatUpdate.withMedia (r : CatUpdate) (media : Option Medium) : CatUpdate :=
  { r with
    photoUrl := media.map Medium.url, mediaContentType := media.map Medium.contentType
    mediaMuted := media.map Medium.muted }

/-- The help fields as the write paths answer them: the compatibility pair, whatever is stored. -/
def CatUpdate.withHelp (r : CatUpdate) (expiresAt : Instant) (active : Bool) : CatUpdate :=
  { r with
    needsHelpCategory := some (alertCategory none).1
    needsHelpCategoryLabel := some (alertCategory none).2
    needsHelpExpiresAt := some expiresAt, needsHelpActive := some active }

def authorDisplayNameFor (authorUserId : UUID) (db : Database) : Except Error (Option String) := do
  let user ← getUserByID authorUserId db
  return user.displayName

def validateStatusSet (statuses : List String) (allowEmpty : Bool) : Except Error (List Status) :=
  match statuses.mapM approvedStatus with
  | none => .error .invalidStatuses
  | some parsed =>
    if parsed = [] ∧ allowEmpty = false then .error .invalidStatuses
    else if parsed.Nodup then .ok parsed else .error .invalidStatuses

def validateNeedsHelpNote (comment : Option String) : Except Error Unit :=
  if comment.any fun c => decide (needsHelpNoteMaxChars < c.length) then .error .noteTooLong
  else .ok ()

/-- The comment of a help mark doubles as its note. -/
def validateHelpNote (needsHelp : Bool) (comment : Option String) : Except Error Unit :=
  if needsHelp then validateNeedsHelpNote comment else .ok ()

/-- The attached medium must have been uploaded by the author. -/
def resolveOwnMedia (mediaId : Option (Option UUID)) (authorUserId : UUID) (db : Database) :
    Except Error (Option Medium) :=
  match mediaId with
  | none => .ok none
  | some none => .error .mediaNotFound
  | some (some id) =>
    match getMediaByID id db with
    | .error .noRows => .error .mediaNotFound
    | .error e => .error e
    | .ok media =>
      if media.uploadedByUserId = authorUserId then .ok (some media) else .error .mediaNotFound

def fetchIdempotentOrdinaryUpdate (env : Env) (authorUserId : UUID) (key : String)
    (db : Database) : Except Error CatUpdate := do
  let row ← getUpdateByIdempotencyKey authorUserId key db
  let authorDisplayName ← authorDisplayNameFor authorUserId db
  let media := db.tables.media.find? fun m => row.mediaId == some m.id
  let result : CatUpdate :=
    { id := row.id, kind := wireUpdateKind row.needsHelp
      statuses := listUpdateStatuses row.id db, comment := row.comment
      createdAt := row.createdAt, needsHelp := row.needsHelp, authorIsMe := true
      correctionExpiresAt := some (row.createdAt + updateCorrectionWindow), authorDisplayName }
  let expiresAt := row.needsHelpExpiresAt.getD 0
  return (if row.needsHelp then result.withHelp expiresAt (decide (env.clock < expiresAt))
    else result).withMedia media

structure OrdinaryUpdateRequest where
  catId : Option UUID
  userId : UUID
  deviceId : Option UUID := none
  idempotencyKey : Option String := none
  statuses : List String
  needsHelp : Bool := false
  comment : Option String := none
  /-- The outer `none` is an absent field. -/
  mediaId : Option (Option UUID) := none

/-- The update an idempotency key already names for this author. -/
def earlierUpdate (env : Env) (req : OrdinaryUpdateRequest) (db : Database) :
    Except Error CatUpdate :=
  match req.idempotencyKey with
  | none => .error .noRows
  | some key => fetchIdempotentOrdinaryUpdate env req.userId key db

/-- The checks of `CreateOrdinaryUpdate`, up to the write. -/
def prepareOrdinaryUpdate (env : Env) (req : OrdinaryUpdateRequest) (catId : UUID)
    (db : Database) : Except Error (Store.CreateOrdinaryUpdateParams × Option Medium) := do
  let statuses ← validateStatusSet req.statuses req.needsHelp
  validateHelpNote req.needsHelp req.comment
  moderateOptionalText env req.comment
  if catExists catId (some req.userId) db then
    let media ← resolveOwnMedia req.mediaId req.userId db
    return ({
      id := env.uuid 0, catId, authorDeviceId := req.deviceId, authorUserId := req.userId
      comment := req.comment, createdAt := env.clock, statuses := orderStatuses statuses
      idempotencyKey := req.idempotencyKey, needsHelp := req.needsHelp
      needsHelpExpiresAt := if req.needsHelp then some (needsHelpExpiresAt env.clock) else none
      mediaId := media.map Medium.id }, media)
  else .error .catNotFound

def ordinaryUpdateResult (env : Env) (req : OrdinaryUpdateRequest) (statuses : List Status)
    (media : Option Medium) (id : UUID) (db : Database) : Except Error CatUpdate := do
  let authorDisplayName ← authorDisplayNameFor req.userId db
  let result : CatUpdate :=
    { id, kind := wireUpdateKind req.needsHelp, statuses, comment := req.comment
      createdAt := env.clock, needsHelp := req.needsHelp, authorIsMe := true
      correctionExpiresAt := some (env.clock + updateCorrectionWindow), authorDisplayName }
  return (if req.needsHelp then result.withHelp (needsHelpExpiresAt env.clock) true
    else result).withMedia media

/-- A lost race on the idempotency key is answered with the row that won. -/
def recoverOrdinaryUpdate (env : Env) (req : OrdinaryUpdateRequest) (e : Error) (db : Database) :
    Except Error CatUpdate :=
  if isUniqueViolation e then
    match earlierUpdate env req db with
    | .ok existing => .ok existing
    | .error _ => .error e
  else .error e

def createOrdinaryUpdate (env : Env) (req : OrdinaryUpdateRequest) (w : World) :
    Except Error CatUpdate × World :=
  match req.catId with
  | none => (.error .invalidCatID, w)
  | some catId =>
    match earlierUpdate env req w.db with
    | .ok existing => (.ok existing, w)
    | .error .noRows =>
      match prepareOrdinaryUpdate env req catId w.db with
      | .error e => (.error e, w)
      | .ok (params, media) =>
        match Store.createOrdinaryUpdate (env.uuid 1) (env.uuid 2) env.now params w.db with
        | .error e => (recoverOrdinaryUpdate env req e w.db, w)
        | .ok (id, db) =>
          (ordinaryUpdateResult env req params.statuses media id db, { w with db })
    | .error e => (.error e, w)

/-- The checks of the compatibility endpoint, up to the write. -/
def prepareNeedsHelpUpdate (env : Env) (catId : Option UUID) (userId : UUID)
    (deviceId : Option UUID) (category : String) (comment : Option String) (db : Database) :
    Except Error (Store.CreateOrdinaryUpdateParams × Category) := do
  match catId, needsHelpCategory category with
  | none, _ => .error .invalidCatID
  | some _, none => .error .invalidNeedsHelpCategory
  | some catId, some c =>
    validateNeedsHelpNote comment
    moderateOptionalText env comment
    if catExists catId (some userId) db then
      return ({
        id := env.uuid 0, catId, authorDeviceId := deviceId, authorUserId := userId, comment
        createdAt := env.clock, statuses := [], needsHelp := true
        needsHelpCategory := some c
        needsHelpExpiresAt := some (needsHelpExpiresAt env.clock) }, c)
    else .error .catNotFound

def needsHelpResult (env : Env) (userId : UUID) (comment : Option String) (c : Category)
    (id : UUID) (db : Database) : Except Error CatUpdate := do
  let authorDisplayName ← authorDisplayNameFor userId db
  return { id, kind := "needs_help", statuses := [], comment, createdAt := env.clock
           needsHelp := true, needsHelpCategory := some (categoryText c)
           needsHelpCategoryLabel := some (categoryLabel c)
           needsHelpExpiresAt := some (needsHelpExpiresAt env.clock)
           needsHelpActive := some true, authorDisplayName }

def createNeedsHelpUpdate (env : Env) (catId : Option UUID) (userId : UUID)
    (deviceId : Option UUID) (category : String) (comment : Option String) (w : World) :
    Except Error CatUpdate × World :=
  match prepareNeedsHelpUpdate env catId userId deviceId category comment w.db with
  | .error e => (.error e, w)
  | .ok (params, c) =>
    match Store.createOrdinaryUpdate (env.uuid 1) (env.uuid 2) env.now params w.db with
    | .error e => (.error e, w)
    | .ok (id, db) => (needsHelpResult env userId comment c id db, { w with db })

/-- `.ok ()` reports a row that is already deleted. -/
def resolveCorrectionFailure (catId updateId authorUserId : UUID) (windowStart : Instant)
    (correction : Bool) (db : Database) : Except Error Unit :=
  match getUpdateForCorrectionCheck updateId catId db with
  | .error .noRows => .error .updateNotFound
  | .error e => .error e
  | .ok (check, holdsCover) =>
    if check.kind ≠ .ordinary then .error .updateNotFound
    else if check.authorUserId ≠ some authorUserId then .error .notUpdateAuthor
    else if check.deletedAt.isSome then .ok ()
    else if check.createdAt ≤ windowStart then .error .correctionWindowExpired
    else if !correction && holdsCover then .error .updateHoldsCover
    else if correction then .error .invalidStatuses
    else .error .updateNotFound

/-- Absent statuses are preserved, a comment is written only when it was sent. -/
structure UpdateCorrection where
  statuses : Option (List String) := none
  clearNeedsHelp : Bool := false
  setComment : Bool := false
  comment : Option String := none

/-- Only a status set that was sent is validated. -/
def UpdateCorrection.parsed (correction : UpdateCorrection) : Except Error (List Status) :=
  match correction.statuses with
  | none => .ok []
  | some texts => validateStatusSet texts (!correction.clearNeedsHelp)

def UpdateCorrection.moderate (env : Env) (correction : UpdateCorrection) : Except Error Unit :=
  if correction.setComment then moderateOptionalText env correction.comment else .ok ()

def prepareCorrection (env : Env) (catId updateId : Option UUID) (userId : UUID)
    (correction : UpdateCorrection) : Except Error Store.CorrectOwnUpdateParams := do
  match catId, updateId with
  | none, _ => .error .invalidCatID
  | some _, none => .error .updateNotFound
  | some catId, some updateId =>
    let statuses ← correction.parsed
    correction.moderate env
    return {
      id := updateId, catId, authorUserId := userId, setComment := correction.setComment
      comment := correction.comment, updatedAt := env.clock
      windowStart := env.clock - updateCorrectionWindow
      replaceStatuses := correction.statuses.isSome, statuses := orderStatuses statuses
      clearNeedsHelp := correction.clearNeedsHelp }

def correctionResult (env : Env) (row : Update) (statuses : List Status) : CatUpdate :=
  let result : CatUpdate :=
    { id := row.id, kind := wireUpdateKind row.needsHelp, statuses, comment := row.comment
      createdAt := row.createdAt, updatedAt := row.updatedAt, needsHelp := row.needsHelp
      authorIsMe := true, correctionExpiresAt := some (row.createdAt + updateCorrectionWindow) }
  let expiresAt := row.needsHelpExpiresAt.getD 0
  if row.needsHelp then result.withHelp expiresAt (decide (env.clock < expiresAt)) else result

def correctOwnUpdate (env : Env) (catId updateId : Option UUID) (userId : UUID)
    (correction : UpdateCorrection) (w : World) : Except Error CatUpdate × World :=
  match prepareCorrection env catId updateId userId correction with
  | .error e => (.error e, w)
  | .ok params =>
    match Store.correctOwnUpdate params w.db with
    | .ok ((row, statuses), db) => (.ok (correctionResult env row statuses), { w with db })
    | .error .noRows =>
      match resolveCorrectionFailure params.catId params.id userId params.windowStart true w.db with
      | .error e => (.error e, w)
      | .ok () => (.error .updateNotFound, w)
    | .error e => (.error e, w)

def deleteOwnUpdate (env : Env) (catId updateId : Option UUID) (userId : UUID) (w : World) :
    Except Error Unit × World :=
  match catId, updateId with
  | none, _ => (.error .invalidCatID, w)
  | some _, none => (.error .updateNotFound, w)
  | some catId, some updateId =>
    let windowStart := env.clock - updateCorrectionWindow
    match UpdateQueries.deleteOwnUpdate
        { deletedAt := env.clock, id := updateId, catId, authorUserId := userId, windowStart }
        w.db with
    | .ok (_, db) => (.ok (), { w with db })
    | .error .noRows =>
      (resolveCorrectionFailure catId updateId userId windowStart false w.db, w)
    | .error e => (.error e, w)

structure CreateRequest where
  userId : UUID
  deviceId : Option UUID := none
  idempotencyKey : Option String := none
  area : Point
  name : Option String := none
  confirmedNew : Bool := true
  /-- Whether any photo bytes were sent. -/
  photo : Bool := true

def duplicateCandidates (cfg : Config) (req : CreateRequest) (db : Database) : List UUID :=
  (listNearbyCatsForDuplicateCheck (fun p => cfg.dwithin p req.area) (some req.userId) db).map
    Cat.id

/-- The image's verdict comes first when both are refused. -/
def moderateCreate (env : Env) (name : Option String) : Except Error Unit := do
  moderateImage env
  moderateOptionalText env name

def prepareCreate (cfg : Config) (env : Env) (req : CreateRequest) (db : Database) :
    Except Error ContentType := do
  if !withinIstanbul req.area then .error .invalidArea
  else if !req.photo then .error .missingPhoto
  else if !req.confirmedNew && !(duplicateCandidates cfg req db).isEmpty then
    .error (.duplicateCandidates (duplicateCandidates cfg req db))
  else
    let contentType ← env.process
    moderateCreate env req.name
    return contentType

/-- The cat an idempotency key already names for this owner. -/
def earlierCat (env : Env) (req : CreateRequest) (db : Database) : Except Error CatDetail :=
  match req.idempotencyKey with
  | none => .error .noRows
  | some key => do
    let existing ← getCatByIdempotencyKey req.userId key db
    getCatDetail env.clock existing.id (some req.userId) db

/-- The object is deleted again, whatever the failure. -/
def recoverFromCreateCatFailure (env : Env) (req : CreateRequest) (e : Error) (w : World) :
    Except Error CatDetail × World :=
  let result :=
    if e = .noRows ∧ req.idempotencyKey.isSome then earlierCat env req w.db else .error e
  (result, w.deleteObject env env.objectKey)

def create (cfg : Config) (env : Env) (req : CreateRequest) (w : World) :
    Except Error CatDetail × World :=
  match earlierCat env req w.db with
  | .ok existing => (.ok existing, w)
  | .error .noRows =>
    match prepareCreate cfg env req w.db, env.put with
    | .error e, _ => (.error e, w)
    | .ok _, .error e => (.error e, w)
    | .ok contentType, .ok url =>
      let w := { w with objects := w.objects ++ [env.objectKey] }
      let media : Medium :=
        { id := env.uuid 0, objectKey := env.objectKey, url, contentType
          uploadedByUserId := req.userId, uploadedByDeviceId := req.deviceId }
      let cat : CreateCatParams :=
        { id := env.uuid 1, name := req.name, area := req.area, createdByUserId := req.userId
          createdByDeviceId := req.deviceId, idempotencyKey := req.idempotencyKey }
      match Store.createCatWithMedia (env.uuid 2) env.now media cat w.db with
      | .error e => recoverFromCreateCatFailure env req e w
      | .ok (row, db) =>
        (.ok { id := row.cat.id, name := row.cat.name.getD "", area := row.cat.area
               areaLabel := row.cat.areaLabel, primaryPhoto := some url
               createdAt := row.cat.createdAt, lastUpdateAt := row.cat.lastUpdateAt },
          { w with db })
  | .error e => (.error e, w)

structure Media where
  id : UUID
  url : String
  muted : Bool
  deriving DecidableEq

def toMedia (row : Medium) : Media :=
  { id := row.id, url := row.url, muted := row.muted }

/-- The medium an idempotency key already names for this uploader. -/
def earlierMedia (userId : UUID) (idempotencyKey : Option String) (db : Database) :
    Except Error Media :=
  match idempotencyKey with
  | none => .error .noRows
  | some key => do
    let existing ← getMediaByIdempotencyKey userId key db
    return toMedia existing

def prepareUpload (env : Env) : Except Error ContentType := do
  let contentType ← env.process
  moderateImage env
  return contentType

def recoverFromCreateFailure (env : Env) (userId : UUID) (idempotencyKey : Option String)
    (e : Error) (w : World) : Except Error Media × World :=
  let result :=
    if e = .noRows ∧ idempotencyKey.isSome then earlierMedia userId idempotencyKey w.db
    else .error e
  (result, w.deleteObject env env.objectKey)

def upload (env : Env) (userId : UUID) (deviceId : Option UUID) (idempotencyKey : Option String)
    (muted : Bool) (w : World) : Except Error Media × World :=
  match earlierMedia userId idempotencyKey w.db with
  | .ok existing => (.ok existing, w)
  | .error .noRows =>
    match prepareUpload env, env.put with
    | .error e, _ => (.error e, w)
    | .ok _, .error e => (.error e, w)
    | .ok contentType, .ok url =>
      let w := { w with objects := w.objects ++ [env.objectKey] }
      match createMedia
          { id := env.uuid 0, objectKey := env.objectKey, url, contentType
            uploadedByUserId := userId, uploadedByDeviceId := deviceId, idempotencyKey, muted }
          w.db with
      | .error e => recoverFromCreateFailure env userId idempotencyKey e w
      | .ok (row, db) => (.ok (toMedia row), { w with db })
  | .error e => (.error e, w)

end Tekir.CatServices
