import Tekir.AccountReads
import Tekir.Backend
import Tekir.HistoryPages
import Tekir.HttpRequests
import Tekir.Providers

/-!
# Handlers

The handlers of the API, which read a request, call a service as the account and the device of
the request's credentials, and answer with a status and a body. No handler takes an account from
a body, a path or a query.
-/
namespace Tekir.Handlers
open Table Schema Statements Environment Cursors Decoding HttpRequests
open AccountReads (BlockedAccount Profile)
open AccountServices (Session)
open Badges (BadgeStatus)
open CatServices (CatDetail CatMediaItem CatUpdate Media)
open HistoryPages (NotificationsPage)
open ModerationReply (decodeString)
open ReadQueries (Bounds Geometry)
open ReadServices (CatMarker DiscoverPage DuplicateCandidate UpdatesPage)
open ServedSessions (Jwt signAccessToken)

/-- What the handlers are wired with. -/
structure Wiring where
  cfg : Config
  texts : Texts
  geo : Geometry
  jwt : Jwt
  accessTokenTTL : ℤ
  /-- `mime.TypeByExtension`. -/
  typeByExtension : String → String

inductive ReadError | notExist | failed

/-- A request, and what serving it draws from outside. -/
structure Incoming where
  request : HttpRequest
  env : Env
  /-- Whether the database answers a ping. -/
  ping : Bool := true
  /-- `os.ReadFile` in the directory of the local object store. -/
  readFile : String → Except ReadError (List UInt8) := fun _ => .error .notExist

/-- The body of an answer that is not an error. -/
inductive Body
  | none
  /-- A page of plain text. -/
  | page (text : String)
  | status (status : String)
  | registration (deviceId : UUID) (deviceToken : String)
  | session (accessToken refreshToken : String) (userId : UUID) (isNewAccount : Bool)
  | tokens (accessToken refreshToken : String)
  | me (deviceId : UUID) (userId : Option UUID) (phoneVerified : Bool)
  | markers (cats : List CatMarker)
  | candidates (candidates : List DuplicateCandidate)
  /-- The member `candidates` of a conflict. -/
  | conflict (candidates : List DuplicateCandidate)
  | discover (page : DiscoverPage)
  | created (cat : CatDetail)
  | detail (cat : CatDetail)
  | media (items : List CatMediaItem)
  | updates (page : UpdatesPage)
  | update (update : CatUpdate)
  | uploaded (media : Media)
  | object (contentType : String) (data : List UInt8)
  | notifications (page : NotificationsPage)
  | profile (profile : Profile)
  | badges (items : List BadgeStatus)
  | report (report : Report)
  | blocks (accounts : List BlockedAccount)

abbrev Answer := Response Body

def ok (body : Body) : Answer :=
  { status := 200, body := .ok body }

def created (body : Body) : Answer :=
  { status := 201, body := .ok body }

def noContent : Answer :=
  { status := 204, body := .ok .none }

/-- The answer to an error that a handler does not tell from others. -/
def onInternal (_ : Error) : Answer :=
  internalError

section Health

def live : Answer :=
  ok (.status "ok")

def ready (ping : Bool) : Answer :=
  if ping then ok (.status "ok") else { status := 503, body := .ok (.status "unavailable") }

end Health

variable (h : Wiring) (i : Incoming) (w : World)

def Wiring.parseUUID (s : String) : Option UUID :=
  h.texts.parseUUID s.toList

/-- A value that is not finite is refused wherever one beyond every range is. -/
def finite : Float64 → ℚ
  | .finite x => x
  | .infinite | .nan => 1000

def Wiring.parseFloat (s : String) : Option ℚ :=
  (h.texts.parseFloat s.toList).map finite

section Devices

structure RegisterRequest where
  platform : String := ""
  pushToken : Option String := none

def registerFields : List (Decoding.Field RegisterRequest) :=
  [⟨"platform", fun r v => (decodeString r.platform v).map fun platform => { r with platform }⟩,
    ⟨"push_token", fun r v => (decodePointer decodeString "" r.pushToken v).map fun pushToken =>
      { r with pushToken }⟩]

def writeRegisterError : Error → Answer
  | .invalidPlatform => badRequest "unsupported platform"
  | _ => internalError

/-- The device token is answered once and never again. -/
def register : Answer × World :=
  withBody false registerFields {} i.request w fun req =>
    if req.platform = "" then (badRequest "platform is required", w)
    else
      respond writeRegisterError
        (fun reg => { created (.registration reg.1 reg.2) with noStore := true })
        (AccountServices.register h.cfg i.env req.platform req.pushToken w)

structure UpdatePushTokenRequest where
  pushToken : String := ""

def updatePushTokenFields : List (Decoding.Field UpdatePushTokenRequest) :=
  [⟨"push_token", fun r v => (decodeString r.pushToken v).map fun pushToken =>
    { r with pushToken }⟩]

def writeUpdatePushTokenError : Error → Answer
  | .invalidPushToken => badRequest "invalid push token"
  | _ => internalError

def updatePushToken (device : DeviceIdentity) : Answer × World :=
  withBody false updatePushTokenFields {} i.request w fun req =>
    respond writeUpdatePushTokenError (fun _ => noContent)
      (AccountServices.setPushToken device.deviceId req.pushToken w)

end Devices

section Auth

structure OtpRequestBody where
  phone : String := ""

def otpRequestFields : List (Decoding.Field OtpRequestBody) :=
  [⟨"phone", fun r v => (decodeString r.phone v).map fun phone => { r with phone }⟩]

def writeRequestOTPError : Error → Answer
  | .invalidPhone => badRequest "invalid phone number"
  | .otpResendTooSoon => failure 429 "try again in a moment"
  | _ => internalError

def requestOTP : Answer × World :=
  withBody false otpRequestFields {} i.request w fun req =>
    respond writeRequestOTPError (fun _ => { status := 202, body := .ok .none, noStore := true })
      (AccountServices.requestOTP h.cfg i.env req.phone w)

structure OtpVerifyBody where
  phone : String := ""
  code : String := ""

def otpVerifyFields : List (Decoding.Field OtpVerifyBody) :=
  [⟨"phone", fun r v => (decodeString r.phone v).map fun phone => { r with phone }⟩,
    ⟨"code", fun r v => (decodeString r.code v).map fun code => { r with code }⟩]

def writeVerifyOTPError : Error → Answer
  | .invalidPhone => badRequest "invalid phone number"
  | .otpNotRequested | .otpCodeMismatch => unauthorized "invalid code"
  | .otpExpired | .otpAlreadyConsumed => failure 410 "code expired"
  | .otpTooManyAttempts => failure 429 "too many attempts"
  | .deviceLinkedToOtherAccount => failure 409 "device already linked to a different account"
  | _ => internalError

/-- The access token that goes with a session. -/
def accessToken (session : Session) : String :=
  (signAccessToken h.jwt h.accessTokenTTL i.env session.userId).text

def verifyOTP (device : DeviceIdentity) : Answer × World :=
  withBody false otpVerifyFields {} i.request w fun req =>
    respond writeVerifyOTPError
      (fun session =>
        { ok (.session (accessToken h i session) session.refreshToken session.userId
            session.isNewAccount) with noStore := true })
      (AccountServices.verifyOTP h.cfg i.env req.phone req.code device.deviceId w)

structure RefreshBody where
  refreshToken : String := ""

def refreshFields : List (Decoding.Field RefreshBody) :=
  [⟨"refresh_token", fun r v => (decodeString r.refreshToken v).map fun refreshToken =>
    { r with refreshToken }⟩]

def writeRefreshError : Error → Answer
  | .sessionExpired | .sessionRevoked | .sessionInvalid => unauthorized "invalid session"
  | _ => internalError

/-- `refresh` and `logout` read the same body. -/
def withRefreshToken (next : String → Answer × World) : Answer × World :=
  withBody false refreshFields {} i.request w fun req =>
    if req.refreshToken = "" then (badRequest "refresh_token is required", w)
    else next req.refreshToken

/-- The refresh token in a body. -/
def refreshTokenOf (r : HttpRequest) : Option String :=
  ((decodeFirst r.body).bind (decodeRecord false refreshFields {})).map RefreshBody.refreshToken

theorem withRefreshToken_of {i : Incoming} {w : World} {Q : Answer × World → Prop}
    {next : String → Answer × World} (hstay : ∀ answer, Q (answer, w))
    (hnext : ∀ token, refreshTokenOf i.request = some token → Q (next token)) :
    Q (withRefreshToken i w next) := by
  refine withBody_of hstay fun req hdecode => ?_
  split
  · exact hstay _
  · refine hnext _ ?_
    rw [refreshTokenOf, hdecode]
    rfl

def refresh : Answer × World :=
  withRefreshToken i w fun refreshToken =>
    respond writeRefreshError
      (fun session =>
        { ok (.tokens (accessToken h i session) session.refreshToken) with noStore := true })
      (AccountServices.refresh h.cfg i.env refreshToken w)

def logout (user : UUID) (device : Option DeviceIdentity) : Answer × World :=
  withRefreshToken i w fun refreshToken =>
    respond onInternal (fun _ => noContent)
      (AccountServices.logout h.cfg i.env user refreshToken
        (device.map DeviceIdentity.deviceId) w)

/-- The account of the bearer, else the one that the device is linked to. -/
def me (device : DeviceIdentity) (user : Option UUID) : Answer :=
  let userId := user.or device.userId
  { ok (.me device.deviceId userId userId.isSome) with noStore := true }

structure DisplayNameBody where
  displayName : String := ""

def displayNameFields : List (Decoding.Field DisplayNameBody) :=
  [⟨"display_name", fun r v => (decodeString r.displayName v).map fun displayName =>
    { r with displayName }⟩]

def writeDisplayNameError : Error → Answer
  | .invalidDisplayName => badRequest "invalid display name"
  | _ => internalError

def updateDisplayName (user : UUID) : Answer × World :=
  withBody false displayNameFields {} i.request w fun req =>
    respond writeDisplayNameError (fun _ => noContent)
      (AccountServices.setDisplayName user req.displayName w)

/-- `DELETE /v1/me`: an account deletes itself and no other. -/
def deleteAccount (user : UUID) : Answer × World :=
  respond onInternal (fun _ => noContent) (AccountServices.delete i.env user w)

end Auth

section Social

structure CreateBlockRequest where
  blockedUserId : String := ""

def createBlockFields : List (Decoding.Field CreateBlockRequest) :=
  [⟨"blocked_user_id", fun r v => (decodeString r.blockedUserId v).map fun blockedUserId =>
    { r with blockedUserId }⟩]

def writeBlocksServiceError : Error → Answer
  | .invalidBlockedUserID => badRequest "invalid blocked user id"
  | .cannotBlockSelf => badRequest "cannot block yourself"
  | .blockedUserNotFound => failure 404 "blocked user not found"
  | _ => internalError

def createBlock (user : UUID) : Answer × World :=
  withBody true createBlockFields {} i.request w fun req =>
    respond writeBlocksServiceError (fun _ => noContent)
      (AccountServices.block user (h.parseUUID req.blockedUserId) w)

def deleteBlock (user : UUID) (blocked : String) : Answer × World :=
  respond writeBlocksServiceError (fun _ => noContent)
    (AccountServices.unblock user (h.parseUUID blocked) w)

def listBlocks (user : UUID) : Answer :=
  ok (.blocks (AccountReads.listBlocked user w.db))

def writeFollowsServiceError : Error → Answer
  | .invalidCatID => badRequest "invalid cat id"
  | .catNotFound => failure 404 "cat not found"
  | _ => internalError

def follow (user : UUID) (device : Option DeviceIdentity) (catId : String) : Answer × World :=
  respond writeFollowsServiceError (fun _ => noContent)
    (SocialServices.follow (h.parseUUID catId) user (device.map DeviceIdentity.deviceId) w)

def unfollow (user : UUID) (catId : String) : Answer × World :=
  respond writeFollowsServiceError (fun _ => noContent)
    (SocialServices.unfollow (h.parseUUID catId) user w)

def listFollows (user : UUID) : Answer :=
  ok (.markers (ReadServices.listFollows i.env.clock user w.db))

structure CreateReportRequest where
  targetType : String := ""
  targetId : String := ""
  reason : String := ""
  note : Option String := none

def createReportFields : List (Decoding.Field CreateReportRequest) :=
  [⟨"target_type", fun r v => (decodeString r.targetType v).map fun targetType =>
      { r with targetType }⟩,
    ⟨"target_id", fun r v => (decodeString r.targetId v).map fun targetId => { r with targetId }⟩,
    ⟨"reason", fun r v => (decodeString r.reason v).map fun reason => { r with reason }⟩,
    ⟨"note", fun r v => (decodePointer decodeString "" r.note v).map fun note => { r with note }⟩]

def writeReportsServiceError : Error → Answer
  | .invalidReportTargetType => badRequest "invalid target type"
  | .invalidReportTargetID => badRequest "invalid target id"
  | .reportTargetNotFound => failure 404 "report target not found"
  | .invalidReportReason => badRequest "invalid report reason"
  | .reportNoteRequired => badRequest "report note required"
  | _ => internalError

def createReport (user : UUID) : Answer × World :=
  withBody true createReportFields {} i.request w fun req =>
    respond writeReportsServiceError (fun report => created (.report report))
      (SocialServices.createReport i.env user req.targetType (h.parseUUID req.targetId) req.reason
        req.note w)

def writeNotificationsServiceError : Error → Answer
  | .invalidCursor => badRequest "invalid cursor"
  | .invalidLimit => badRequest "invalid limit"
  | .invalidNotificationID => badRequest "invalid notification id"
  | _ => internalError

def listNotifications (user : UUID) : Answer × World :=
  withLimit "invalid limit" i.request w fun limit =>
    respond writeNotificationsServiceError (fun page => ok (.notifications page))
      (HistoryPages.listMyNotifications h.texts user
        (nonEmpty (valueOf "cursor" i.request.query)) limit w.db, w)

def markRead (user : UUID) (id : String) : Answer × World :=
  respond writeNotificationsServiceError (fun _ => noContent)
    (SocialServices.markRead i.env user (h.parseUUID id) w)

def profile (user : UUID) : Answer × World :=
  respond onInternal (fun profile => { ok (.profile profile) with noStore := true })
    (AccountReads.getProfile user w.db, w)

def badges (user : UUID) : Answer :=
  { ok (.badges (Badges.getBadges user w.db)) with noStore := true }

end Social

section Media

def writeMediaServiceError : Error → Answer
  | .mediaTooLarge => failure 413 "file too large"
  | .mediaDimensionsTooLarge => failure 413 "file dimensions too large"
  | .unsupportedMediaType => failure 415 "unsupported file type"
  | .mediaDurationTooLong => badRequest "video too long"
  | .malformedMedia => badRequest "malformed file"
  | .contentRejected => failure 422 "content rejected"
  | _ => internalError

/-- Muted unless the form says otherwise in so many words. -/
def muted (form : Form) : Bool :=
  match nonEmpty (trimSpace (formValue i.request form "muted")) with
  | none => true
  | some v => (parseBool v).getD true

def upload (user : UUID) (device : Option DeviceIdentity) : Answer × World :=
  withForm i.request w fun form =>
    match formFile form "file" with
    | none => (badRequest "file is required", w)
    | some _ =>
      respond writeMediaServiceError (fun media => created (.uploaded media))
        (CatServices.upload i.env user (device.map DeviceIdentity.deviceId)
          (idempotencyKey i.request) (muted i form) w)

/-- `filepath.Ext` of a key, which has no separators. -/
def extension (key : String) : String :=
  match key.toList.reverse.span (· ≠ '.') with
  | (_, []) => ""
  | (suffix, _ :: _) => String.ofList ('.' :: suffix.reverse)

/-- `FakeObjectStore.Get`. -/
def getObject (key : String) : Except ReadError (List UInt8) :=
  if Providers.validateObjectKey key then i.readFile key else .error .notExist

def serveObject (key : String) : Answer :=
  match getObject i key with
  | .error .notExist => failure 404 "object not found"
  | .error .failed => internalError
  | .ok data =>
    let contentType := h.typeByExtension (extension key)
    ok (.object (if contentType = "" then "application/octet-stream" else contentType) data)

end Media

section Cats

def writeCatsServiceError : Error → Answer
  | .invalidCatID => badRequest "invalid cat id"
  | .catNotFound => failure 404 "cat not found"
  | .invalidCursor => badRequest "invalid cursor"
  | .invalidLimit => badRequest "invalid limit"
  | .invalidStatuses => badRequest "invalid statuses"
  | .invalidNeedsHelpCategory => badRequest "invalid needs-help category"
  | .noteTooLong => badRequest "needs-help note too long"
  | .invalidArea => badRequest "invalid area"
  | .invalidDiscoverFilter => badRequest "invalid discover filter"
  | .missingPhoto => badRequest "photo is required"
  | .mediaTooLarge => failure 413 "photo too large"
  | .mediaDimensionsTooLarge => failure 413 "photo dimensions too large"
  | .unsupportedMediaType => failure 415 "unsupported photo type"
  | .malformedMedia => badRequest "malformed photo"
  | .updateNotFound => failure 404 "update not found"
  | .notUpdateAuthor => failure 403 "not the update author"
  | .correctionWindowExpired => failure 410 "correction window expired"
  | .updateHoldsCover => failure 409 "update holds cat's current cover"
  | .mediaNotFound => failure 404 "media not found"
  | .notCatOwner => failure 403 "not the cat owner"
  | .invalidMediaID => badRequest "invalid media id"
  | .mediaNotInGallery => badRequest "media not in cat gallery"
  | .invalidCatName => badRequest "invalid cat name"
  | .contentRejected => failure 422 "content rejected"
  | _ => internalError

/-- `strings.Split` at commas. -/
def splitCommas (s : List Char) : List (List Char) :=
  s.splitOn ','

def parseBounds (raw : String) : Except String Bounds :=
  if raw = "" then .error "bbox is required"
  else
    match splitCommas raw.toList with
    | [minLng, minLat, maxLng, maxLat] =>
      let value (part : List Char) := h.parseFloat (trimSpace (String.ofList part))
      match value minLng, value minLat, value maxLng, value maxLat with
      | some minLng, some minLat, some maxLng, some maxLat =>
        .ok { minLng, minLat, maxLng, maxLat }
      | _, _, _, _ => .error "bbox values must be numbers"
    | _ =>
      .error "bbox must have 4 comma-separated values: min_lng,min_lat,max_lng,max_lat"

def parseLatLng (rawLat rawLng : String) : Except String Point :=
  match h.parseFloat rawLat, h.parseFloat rawLng with
  | none, _ => .error "lat is required and must be a number"
  | some _, none => .error "lng is required and must be a number"
  | some lat, some lng => .ok { lat, lng }

/-- A handler that reads a parameter first; the error is the text of the answer. -/
def withParsed {α : Type} (x : Except String α) (next : α → Answer × World) : Answer × World :=
  match x with
  | .error message => (badRequest message, w)
  | .ok a => next a

/-- The path's `cat_id`, which a service refuses unless it is a uuid. -/
def withCatID (catId : String) (next : UUID → Answer × World) : Answer × World :=
  match h.parseUUID catId with
  | none => (writeCatsServiceError .invalidCatID, w)
  | some id => next id

theorem withParsed_of {w : World} {Q : Answer × World → Prop} {α : Type} {x : Except String α}
    {next : α → Answer × World} (hstay : ∀ answer, Q (answer, w)) (hnext : ∀ a, Q (next a)) :
    Q (withParsed w x next) := by
  unfold withParsed
  split
  · exact hstay _
  · exact hnext _

theorem withCatID_of {h : Wiring} {w : World} {Q : Answer × World → Prop} {catId : String}
    {next : UUID → Answer × World} (hstay : ∀ answer, Q (answer, w)) (hnext : ∀ id, Q (next id)) :
    Q (withCatID h w catId next) := by
  unfold withCatID
  split
  · exact hstay _
  · exact hnext _

def writeNearbyError : Error → Answer
  | .invalidBounds => badRequest "invalid bounds"
  | _ => internalError

def nearby (caller : Option UUID) : Answer × World :=
  withParsed w (parseBounds h (valueOf "bbox" i.request.query)) fun bounds =>
    respond writeNearbyError (fun markers => ok (.markers markers))
      (ReadServices.listNearby (reading h.texts h.geo) i.env.clock bounds caller w.db, w)

def queryLatLng : Except String Point :=
  parseLatLng h (valueOf "lat" i.request.query) (valueOf "lng" i.request.query)

def nearbyDuplicates (caller : Option UUID) : Answer × World :=
  withParsed w (queryLatLng h i) fun point =>
    respond writeCatsServiceError (fun candidates => ok (.candidates candidates))
      (ReadServices.listNearbyDuplicates (reading h.texts h.geo) h.cfg.dwithin point caller w.db, w)

def discover (caller : Option UUID) : Answer × World :=
  withParsed w (queryLatLng h i) fun point =>
    withLimit "limit must be an integer" i.request w fun limit =>
      respond writeCatsServiceError (fun page => ok (.discover page))
        (ReadServices.listDiscover (reading h.texts h.geo) i.env.clock
          (valueOf "filter" i.request.query) point
          (nonEmpty (valueOf "cursor" i.request.query)) limit caller w.db, w)

def detail (caller : Option UUID) (catId : String) : Answer × World :=
  withCatID h w catId fun id =>
    respond writeCatsServiceError (fun cat => ok (.detail cat))
      (CatServices.getCatDetail i.env.clock id caller w.db, w)

def media (caller : Option UUID) (catId : String) : Answer × World :=
  withCatID h w catId fun id =>
    respond writeCatsServiceError (fun items => ok (.media items))
      (CatServices.listCatMedia id caller w.db, w)

/-- The limit is read before the path. -/
def updateHistory (caller : Option UUID) (catId : String) : Answer × World :=
  withLimit "limit must be an integer" i.request w fun limit =>
    withCatID h w catId fun id =>
      respond writeCatsServiceError (fun page => ok (.updates page))
        (ReadServices.listCatUpdates (reading h.texts h.geo) i.env.clock id
          (nonEmpty (valueOf "cursor" i.request.query)) limit caller w.db, w)

def toDuplicateCandidates (ids : List UUID) (db : Database) : List DuplicateCandidate :=
  ids.flatMap fun id => (db.tables.cats.filter fun c => c.id == id).map fun c =>
    { id, name := c.name.getD "", primaryPhoto := CatQueries.photoUrl c db }

def writeCreateError (db : Database) : Error → Answer
  | .duplicateCandidates ids =>
    { status := 409, body := .ok (.conflict (toDuplicateCandidates ids db)) }
  | e => writeCatsServiceError e

/-- The body of `POST /v1/cats` has fewer fields than that of a detail. -/
def createCatResponse (cat : CatDetail) : CatDetail :=
  { cat with
    lastSeenAt := none, lastFedAt := none, lastWaterAt := none, mediaCount := 0
    isOwner := false, ownerUserId := none }

def createCat (user : UUID) (device : Option DeviceIdentity) : Answer × World :=
  withForm i.request w fun form =>
    let value := formValue i.request form
    withParsed w (parseLatLng h (value "lat") (value "lng")) fun area =>
      match formFile form "photo" with
      | none => (writeCatsServiceError .missingPhoto, w)
      | some photo =>
        respond (writeCreateError w.db) (fun cat => created (.created (createCatResponse cat)))
          (CatServices.create h.cfg i.env
            { userId := user, deviceId := device.map DeviceIdentity.deviceId
              idempotencyKey := idempotencyKey i.request, area
              name := nonEmpty (trimSpace (value "name"))
              confirmedNew := value "confirmed_new" == "true", photo := !photo.isEmpty } w)

structure SetCoverRequest where
  mediaId : String := ""

def setCoverFields : List (Decoding.Field SetCoverRequest) :=
  [⟨"media_id", fun r v => (decodeString r.mediaId v).map fun mediaId => { r with mediaId }⟩]

def setCover (user : UUID) (catId : String) : Answer × World :=
  withBody true setCoverFields {} i.request w fun req =>
    withCatID h w catId fun id =>
      respond writeCatsServiceError (fun cat => ok (.detail cat))
        (CatServices.setCoverPhoto i.env id user (h.parseUUID req.mediaId) w)

structure RenameCatRequest where
  name : String := ""

def renameCatFields : List (Decoding.Field RenameCatRequest) :=
  [⟨"name", fun r v => (decodeString r.name v).map fun name => { r with name }⟩]

def rename (user : UUID) (catId : String) : Answer × World :=
  withBody true renameCatFields {} i.request w fun req =>
    withCatID h w catId fun id =>
      respond writeCatsServiceError (fun cat => ok (.detail cat))
        (CatServices.renameCat i.env id user req.name w)

def deleteCat (user : UUID) (catId : String) : Answer × World :=
  withCatID h w catId fun id =>
    respond writeCatsServiceError (fun _ => noContent) (CatServices.deleteCat id user w)

structure CreateUpdateRequest where
  statuses : Slice String := .empty
  needsHelp : Bool := false
  comment : Option String := none
  mediaId : Option String := none

def createUpdateFields : List (Decoding.Field CreateUpdateRequest) :=
  [⟨"statuses", fun r v => (decodeSlice decodeString "" r.statuses v).map fun statuses =>
      { r with statuses }⟩,
    ⟨"needs_help", fun r v => (decodeBool r.needsHelp v).map fun needsHelp =>
      { r with needsHelp }⟩,
    ⟨"comment", fun r v => (decodePointer decodeString "" r.comment v).map fun comment =>
      { r with comment }⟩,
    ⟨"media_id", fun r v => (decodePointer decodeString "" r.mediaId v).map fun mediaId =>
      { r with mediaId }⟩]

def createUpdate (user : UUID) (device : Option DeviceIdentity) (catId : String) :
    Answer × World :=
  withBody true createUpdateFields {} i.request w fun req =>
    respond writeCatsServiceError (fun update => created (.update update))
      (CatServices.createOrdinaryUpdate i.env
        { catId := h.parseUUID catId, userId := user
          deviceId := device.map DeviceIdentity.deviceId
          idempotencyKey := idempotencyKey i.request, statuses := req.statuses.elements
          needsHelp := req.needsHelp, comment := req.comment
          mediaId := req.mediaId.map h.parseUUID } w)

structure CreateNeedsHelpRequest where
  category : String := ""
  comment : Option String := none

def createNeedsHelpFields : List (Decoding.Field CreateNeedsHelpRequest) :=
  [⟨"category", fun r v => (decodeString r.category v).map fun category => { r with category }⟩,
    ⟨"comment", fun r v => (decodePointer decodeString "" r.comment v).map fun comment =>
      { r with comment }⟩]

def createNeedsHelp (user : UUID) (device : Option DeviceIdentity) (catId : String) :
    Answer × World :=
  withBody true createNeedsHelpFields {} i.request w fun req =>
    respond writeCatsServiceError (fun update => created (.update update))
      (CatServices.createNeedsHelpUpdate i.env (h.parseUUID catId) user
        (device.map DeviceIdentity.deviceId) req.category req.comment w)

/-- A text that may be absent, or sent as `null`. -/
structure OptionalString where
  isSet : Bool := false
  value : Option String := none

structure CorrectUpdateRequest where
  statuses : Option (Slice String) := none
  needsHelp : Option Bool := none
  comment : OptionalString := {}

def correctUpdateFields : List (Decoding.Field CorrectUpdateRequest) :=
  [⟨"statuses", fun r v =>
      (decodePointer (decodeSlice decodeString "") .empty r.statuses v).map fun statuses =>
        { r with statuses }⟩,
    ⟨"needs_help", fun r v => (decodePointer decodeBool false r.needsHelp v).map fun needsHelp =>
      { r with needsHelp }⟩,
    ⟨"comment", fun r v => (decodePointer decodeString "" r.comment.value v).map fun value =>
      { r with comment := ⟨true, value⟩ }⟩]

def CorrectUpdateRequest.correction (req : CorrectUpdateRequest) :
    CatServices.UpdateCorrection where
  statuses := req.statuses.map Slice.elements
  clearNeedsHelp := req.needsHelp == some false
  setComment := req.comment.isSet
  comment := req.comment.value

/-- A help mark is never added by a correction. -/
def correctUpdate (user : UUID) (catId updateId : String) : Answer × World :=
  withBody true correctUpdateFields {} i.request w fun req =>
    if req.needsHelp = some true then (badRequest "needs_help can only be cleared", w)
    else
      respond writeCatsServiceError (fun update => ok (.update update))
        (CatServices.correctOwnUpdate i.env (h.parseUUID catId) (h.parseUUID updateId) user
          req.correction w)

def deleteUpdate (user : UUID) (catId updateId : String) : Answer × World :=
  respond writeCatsServiceError (fun _ => noContent)
    (CatServices.deleteOwnUpdate i.env (h.parseUUID catId) (h.parseUUID updateId) user w)

end Cats

end Tekir.Handlers
