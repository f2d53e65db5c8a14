import Tekir.Table
import Mathlib.Data.Rat.Defs

/-!
# The relational schema

One structure per table of `backend/db/migrations`, with the columns the services
read or write, and every declared unique index, foreign key and check under the
name PostgreSQL reports for it. Columns the services neither read nor write
(`byte_size`, most `created_at` stamps) and the dormant trait tables are left out.
Identifiers are natural numbers and instants are microseconds.
-/
namespace Tekir.Schema
open Table

abbrev UUID := ℕ
abbrev Instant := ℤ

inductive Platform | ios | android | web
  deriving DecidableEq, Repr

inductive CatStatus | active | inactive | deleted
  deriving DecidableEq, Repr

inductive UpdateKind | ordinary | needsHelp
  deriving DecidableEq, Repr

inductive Status | seen | fed | waterProvided
  deriving DecidableEq, Repr

inductive Category | injuredOrSick | foodNeeded | waterNeeded | unsafeLocation | trapped
  deriving DecidableEq, Repr

inductive ContentType | imageJpeg | imagePng | videoMp4 | videoQuicktime
  deriving DecidableEq, Repr

inductive TargetType | cat | update | media
  deriving DecidableEq, Repr

inductive Reason | inappropriate | notACat | wrongInfo | spam | privacy | other
  deriving DecidableEq, Repr

inductive ReportStatus | «open» | resolved
  deriving DecidableEq, Repr

structure Point where
  lat : ℚ
  lng : ℚ
  deriving DecidableEq, Repr

structure User where
  id : UUID
  phone : String
  phoneVerifiedAt : Instant
  displayName : Option String := none
  deriving DecidableEq, Repr

structure Device where
  id : UUID
  tokenHash : String
  pushToken : Option String := none
  platform : Platform
  revokedAt : Option Instant := none
  userId : Option UUID := none
  deriving DecidableEq, Repr

structure RefreshToken where
  id : UUID
  userId : UUID
  tokenHash : String
  expiresAt : Instant
  revokedAt : Option Instant := none
  deriving DecidableEq, Repr

structure OtpCode where
  id : UUID
  phone : String
  codeHash : String
  attempts : ℤ := 0
  maxAttempts : ℤ
  expiresAt : Instant
  consumedAt : Option Instant := none
  createdAt : Instant
  deriving DecidableEq, Repr

structure Cat where
  id : UUID
  name : Option String
  area : Point
  areaLabel : Option String := none
  photoUrl : Option String := none
  status : CatStatus := .active
  lastUpdateAt : Option Instant := none
  createdAt : Instant
  createdByUserId : Option UUID := none
  createdByDeviceId : Option UUID := none
  primaryPhotoId : Option UUID := none
  idempotencyKey : Option String := none
  deriving DecidableEq, Repr

structure Medium where
  id : UUID
  objectKey : String
  url : String
  contentType : ContentType
  uploadedByUserId : UUID
  uploadedByDeviceId : Option UUID := none
  idempotencyKey : Option String := none
  muted : Bool := true
  deriving DecidableEq, Repr

structure CatMedium where
  id : UUID
  catId : UUID
  mediaId : UUID
  createdAt : Instant
  deriving DecidableEq, Repr

structure Update where
  id : UUID
  catId : UUID
  comment : Option String := none
  createdAt : Instant
  seq : ℕ
  kind : UpdateKind := .ordinary
  needsHelp : Bool := false
  needsHelpCategory : Option Category := none
  needsHelpExpiresAt : Option Instant := none
  authorDeviceId : Option UUID := none
  authorUserId : Option UUID := none
  updatedAt : Option Instant := none
  deletedAt : Option Instant := none
  idempotencyKey : Option String := none
  mediaId : Option UUID := none
  deriving DecidableEq, Repr

structure UpdateStatus where
  updateId : UUID
  status : Status
  deriving DecidableEq, Repr

structure Follow where
  deviceId : Option UUID := none
  userId : Option UUID := none
  catId : UUID
  deriving DecidableEq, Repr

structure NotificationOutbox where
  id : UUID
  updateId : UUID
  catId : UUID
  needsHelpEligible : Bool := false
  processedAt : Option Instant := none
  createdAt : Instant
  deriving DecidableEq, Repr

structure Notification where
  id : UUID
  deviceId : UUID
  catId : UUID
  updateId : UUID
  readAt : Option Instant := none
  createdAt : Instant
  deriving DecidableEq, Repr

structure Report where
  id : UUID
  reporterUserId : UUID
  targetType : TargetType
  targetId : UUID
  reason : Reason
  note : Option String := none
  status : ReportStatus := .«open»
  createdAt : Instant
  deriving DecidableEq, Repr

structure UserBlock where
  blockerUserId : UUID
  blockedUserId : UUID
  deriving DecidableEq, Repr

/-- The tables, and the next value of the `updates.seq` sequence. -/
structure Tables where
  users : List User := []
  devices : List Device := []
  refreshTokens : List RefreshToken := []
  otpCodes : List OtpCode := []
  cats : List Cat := []
  media : List Medium := []
  catMedia : List CatMedium := []
  updates : List Update := []
  updateStatuses : List UpdateStatus := []
  follows : List Follow := []
  notificationOutbox : List NotificationOutbox := []
  notifications : List Notification := []
  reports : List Report := []
  userBlocks : List UserBlock := []
  updatesSeq : ℕ := 1
  deriving DecidableEq, Repr

inductive Constraint
  | usersPkey | usersPhoneKey
  | devicesPkey | devicesTokenHashKey | devicesUserIdFkey
  | refreshTokensPkey | refreshTokensTokenHashKey | refreshTokensUserIdFkey
  | otpCodesPkey
  | catsPkey | catsUserIdempotencyUq
  | catsCreatedByUserIdFkey | catsCreatedByDeviceIdFkey | catsPrimaryPhotoIdFkey
  | mediaPkey | mediaUserIdempotencyUq | mediaUploadedByUserIdFkey | mediaUploadedByDeviceIdFkey
  | catMediaPkey | catMediaCatIdMediaIdKey | catMediaCatIdFkey | catMediaMediaIdFkey
  | updatesPkey | updatesUserIdempotencyUq | updatesNeedsHelpFieldsCk
  | updatesCatIdFkey | updatesAuthorDeviceIdFkey | updatesAuthorUserIdFkey | updatesMediaIdFkey
  | updateStatusesPkey | updateStatusesUpdateIdFkey
  | followsDeviceCatUq | followsUserCatUq | followsOwnerCk
  | followsDeviceIdFkey | followsUserIdFkey | followsCatIdFkey
  | notificationOutboxPkey | notificationOutboxUpdateIdKey
  | notificationOutboxUpdateIdFkey | notificationOutboxCatIdFkey
  | notificationsPkey | notificationsDeviceUpdateUq
  | notificationsDeviceIdFkey | notificationsCatIdFkey | notificationsUpdateIdFkey
  | reportsPkey | reportsReporterTargetOpenUq | reportsOtherRequiresNoteCk
  | reportsReporterUserIdFkey
  | userBlocksPkey | userBlocksNoSelfBlockCk
  | userBlocksBlockerUserIdFkey | userBlocksBlockedUserIdFkey
  deriving DecidableEq, Repr

/-- The key of a partial unique index: only rows with both columns set are indexed. -/
def both {κ μ : Type} (a : Option κ) (b : Option μ) : Option (κ × μ) :=
  a.bind fun x => b.map fun y => (x, y)

/-- `length(btrim(note)) > 0`: some character is not a space. -/
def notBlank (note : String) : Bool :=
  note.toList.any (· != ' ')

/-- What each declared constraint demands of the tables. -/
def Constraint.Holds (t : Tables) : Constraint → Prop
  | usersPkey => UniqueOn (some ·.id) t.users
  | usersPhoneKey => UniqueOn (some ·.phone) t.users
  | devicesPkey => UniqueOn (some ·.id) t.devices
  | devicesTokenHashKey => UniqueOn (some ·.tokenHash) t.devices
  | devicesUserIdFkey => References Device.userId t.devices User.id t.users
  | refreshTokensPkey => UniqueOn (some ·.id) t.refreshTokens
  | refreshTokensTokenHashKey => UniqueOn (some ·.tokenHash) t.refreshTokens
  | refreshTokensUserIdFkey => References (some ·.userId) t.refreshTokens User.id t.users
  | otpCodesPkey => UniqueOn (some ·.id) t.otpCodes
  | catsPkey => UniqueOn (some ·.id) t.cats
  | catsUserIdempotencyUq =>
      UniqueOn (fun c : Cat => both c.createdByUserId c.idempotencyKey) t.cats
  | catsCreatedByUserIdFkey => References Cat.createdByUserId t.cats User.id t.users
  | catsCreatedByDeviceIdFkey => References Cat.createdByDeviceId t.cats Device.id t.devices
  | catsPrimaryPhotoIdFkey => References Cat.primaryPhotoId t.cats Medium.id t.media
  | mediaPkey => UniqueOn (some ·.id) t.media
  | mediaUserIdempotencyUq =>
      UniqueOn (fun m : Medium => both (some m.uploadedByUserId) m.idempotencyKey) t.media
  | mediaUploadedByUserIdFkey => References (some ·.uploadedByUserId) t.media User.id t.users
  | mediaUploadedByDeviceIdFkey => References Medium.uploadedByDeviceId t.media Device.id t.devices
  | catMediaPkey => UniqueOn (some ·.id) t.catMedia
  | catMediaCatIdMediaIdKey => UniqueOn (fun m => some (m.catId, m.mediaId)) t.catMedia
  | catMediaCatIdFkey => References (some ·.catId) t.catMedia Cat.id t.cats
  | catMediaMediaIdFkey => References (some ·.mediaId) t.catMedia Medium.id t.media
  | updatesPkey => UniqueOn (some ·.id) t.updates
  | updatesUserIdempotencyUq =>
      UniqueOn (fun u : Update =>
        if u.kind = .ordinary then both u.authorUserId u.idempotencyKey else none) t.updates
  | updatesNeedsHelpFieldsCk => ∀ u ∈ t.updates,
      (u.needsHelp = false ∧ u.needsHelpCategory = none ∧ u.needsHelpExpiresAt = none) ∨
      (u.needsHelp = true ∧ u.needsHelpExpiresAt ≠ none)
  | updatesCatIdFkey => References (some ·.catId) t.updates Cat.id t.cats
  | updatesAuthorDeviceIdFkey => References Update.authorDeviceId t.updates Device.id t.devices
  | updatesAuthorUserIdFkey => References Update.authorUserId t.updates User.id t.users
  | updatesMediaIdFkey => References Update.mediaId t.updates Medium.id t.media
  | updateStatusesPkey => UniqueOn (fun s => some (s.updateId, s.status)) t.updateStatuses
  | updateStatusesUpdateIdFkey => References (some ·.updateId) t.updateStatuses Update.id t.updates
  | followsDeviceCatUq => UniqueOn (fun f : Follow => both f.deviceId (some f.catId)) t.follows
  | followsUserCatUq => UniqueOn (fun f : Follow => both f.userId (some f.catId)) t.follows
  | followsOwnerCk => ∀ f ∈ t.follows, f.deviceId ≠ none ∨ f.userId ≠ none
  | followsDeviceIdFkey => References Follow.deviceId t.follows Device.id t.devices
  | followsUserIdFkey => References Follow.userId t.follows User.id t.users
  | followsCatIdFkey => References (some ·.catId) t.follows Cat.id t.cats
  | notificationOutboxPkey => UniqueOn (some ·.id) t.notificationOutbox
  | notificationOutboxUpdateIdKey => UniqueOn (some ·.updateId) t.notificationOutbox
  | notificationOutboxUpdateIdFkey =>
      References (some ·.updateId) t.notificationOutbox Update.id t.updates
  | notificationOutboxCatIdFkey => References (some ·.catId) t.notificationOutbox Cat.id t.cats
  | notificationsPkey => UniqueOn (some ·.id) t.notifications
  | notificationsDeviceUpdateUq => UniqueOn (fun n => some (n.deviceId, n.updateId)) t.notifications
  | notificationsDeviceIdFkey => References (some ·.deviceId) t.notifications Device.id t.devices
  | notificationsCatIdFkey => References (some ·.catId) t.notifications Cat.id t.cats
  | notificationsUpdateIdFkey => References (some ·.updateId) t.notifications Update.id t.updates
  | reportsPkey => UniqueOn (some ·.id) t.reports
  | reportsReporterTargetOpenUq =>
      UniqueOn (fun r : Report =>
        if r.status = .«open» then some (r.reporterUserId, r.targetType, r.targetId)
        else none) t.reports
  | reportsOtherRequiresNoteCk => ∀ r ∈ t.reports,
      r.reason ≠ .other ∨ ∃ note ∈ r.note, notBlank note = true
  | reportsReporterUserIdFkey => References (some ·.reporterUserId) t.reports User.id t.users
  | userBlocksPkey => UniqueOn (fun b => some (b.blockerUserId, b.blockedUserId)) t.userBlocks
  | userBlocksNoSelfBlockCk => ∀ b ∈ t.userBlocks, b.blockerUserId ≠ b.blockedUserId
  | userBlocksBlockerUserIdFkey => References (some ·.blockerUserId) t.userBlocks User.id t.users
  | userBlocksBlockedUserIdFkey => References (some ·.blockedUserId) t.userBlocks User.id t.users

instance (t : Tables) (c : Constraint) : Decidable (c.Holds t) := by
  cases c <;> simp only [Constraint.Holds] <;> infer_instance

/-- Sqlstate 23505. -/
def Constraint.isUnique : Constraint → Bool
  | .usersPkey | .usersPhoneKey | .devicesPkey | .devicesTokenHashKey | .refreshTokensPkey
  | .refreshTokensTokenHashKey | .otpCodesPkey | .catsPkey | .catsUserIdempotencyUq
  | .mediaPkey | .mediaUserIdempotencyUq | .catMediaPkey | .catMediaCatIdMediaIdKey
  | .updatesPkey | .updatesUserIdempotencyUq | .updateStatusesPkey | .followsDeviceCatUq
  | .followsUserCatUq | .notificationOutboxPkey | .notificationOutboxUpdateIdKey
  | .notificationsPkey | .notificationsDeviceUpdateUq | .reportsPkey
  | .reportsReporterTargetOpenUq | .userBlocksPkey => true
  | _ => false

/-- The constraints in the order in which a statement runs into them. -/
def Constraint.all : List Constraint :=
  [.updatesNeedsHelpFieldsCk, .followsOwnerCk, .reportsOtherRequiresNoteCk,
   .userBlocksNoSelfBlockCk,
   .usersPkey, .usersPhoneKey, .devicesPkey, .devicesTokenHashKey, .refreshTokensPkey,
   .refreshTokensTokenHashKey, .otpCodesPkey, .catsPkey, .catsUserIdempotencyUq, .mediaPkey,
   .mediaUserIdempotencyUq, .catMediaPkey, .catMediaCatIdMediaIdKey, .updatesPkey,
   .updatesUserIdempotencyUq, .updateStatusesPkey, .followsDeviceCatUq, .followsUserCatUq,
   .notificationOutboxPkey, .notificationOutboxUpdateIdKey, .notificationsPkey,
   .notificationsDeviceUpdateUq, .reportsPkey, .reportsReporterTargetOpenUq, .userBlocksPkey,
   .devicesUserIdFkey, .refreshTokensUserIdFkey, .catsCreatedByUserIdFkey,
   .catsCreatedByDeviceIdFkey, .catsPrimaryPhotoIdFkey, .mediaUploadedByUserIdFkey,
   .mediaUploadedByDeviceIdFkey, .catMediaCatIdFkey, .catMediaMediaIdFkey, .updatesCatIdFkey,
   .updatesAuthorDeviceIdFkey, .updatesAuthorUserIdFkey, .updatesMediaIdFkey,
   .updateStatusesUpdateIdFkey, .followsDeviceIdFkey, .followsUserIdFkey, .followsCatIdFkey,
   .notificationOutboxUpdateIdFkey, .notificationOutboxCatIdFkey, .notificationsDeviceIdFkey,
   .notificationsCatIdFkey, .notificationsUpdateIdFkey, .reportsReporterUserIdFkey,
   .userBlocksBlockerUserIdFkey, .userBlocksBlockedUserIdFkey]

theorem Constraint.mem_all (c : Constraint) : c ∈ Constraint.all := by
  cases c <;> decide

/-- No constraint is violated. -/
def Valid (t : Tables) : Prop :=
  ∀ c ∈ Constraint.all, c.Holds t

instance (t : Tables) : Decidable (Valid t) :=
  inferInstanceAs (Decidable (∀ c ∈ Constraint.all, c.Holds t))

theorem Valid.holds {t : Tables} (h : Valid t) (c : Constraint) : c.Holds t :=
  h c (Constraint.mem_all c)

theorem valid_iff {t : Tables} : Valid t ↔ ∀ c : Constraint, c.Holds t :=
  ⟨Valid.holds, fun h c _ => h c⟩

theorem valid_empty : Valid {} := by
  decide

end Tekir.Schema
