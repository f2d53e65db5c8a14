import Tekir.AccountQueries

/-!
# Cat and media queries

The statements of `cats.sql`, `media.sql` and `cat_media.sql`. A lateral join that
picks a cat's newest matching update is `newestUpdate`; the geometry of PostGIS is a
parameter where a statement depends on it.
-/
namespace Tekir.CatQueries
open Table Schema Statements AccountQueries

/-- `order by u.created_at desc, u.seq desc`. -/
def newestFirst (a b : Update) : Bool :=
  decide (b.createdAt < a.createdAt) || (a.createdAt == b.createdAt && decide (b.seq ≤ a.seq))

/-- The newest live update of a cat that satisfies `p`. -/
def newestUpdate (catId : UUID) (p : Update → Bool) (db : Database) : Option Update :=
  (orderBy newestFirst
    (db.tables.updates.filter fun u => u.catId == catId && p u && u.deletedAt.isNone)).head?

def newestWithStatus (catId : UUID) (status : Status) (db : Database) : Option Update :=
  newestUpdate catId
    (fun u => db.tables.updateStatuses.any fun s => s.updateId == u.id && s.status == status) db

/-- `coalesce(c.photo_url, m.url, '')`. -/
def photoUrl (c : Cat) (db : Database) : String :=
  let primary := db.tables.media.find? fun m => c.primaryPhotoId == some m.id
  (c.photoUrl.or (primary.map Medium.url)).getD ""

structure CatRow where
  id : UUID
  name : Option String
  area : Point
  areaLabel : Option String
  photoUrl : String
  createdByUserId : Option UUID
  createdAt : Instant
  lastUpdateAt : Option Instant
  needsHelp : Option Update
  lastSeenAt : Option Instant
  lastFedAt : Option Instant
  lastWaterAt : Option Instant

/-- `c.status != 'deleted'` and the owner is not an account the viewer blocks. -/
def visible (viewer : Option UUID) (db : Database) (c : Cat) : Bool :=
  c.status != .deleted && !blocks viewer c.createdByUserId db

def getCatByID (id : UUID) (viewer : Option UUID) (db : Database) : Except Error CatRow := do
  let c ← one (db.tables.cats.filter fun c => c.id == id && visible viewer db c)
  return {
    id := c.id, name := c.name, area := c.area, areaLabel := c.areaLabel
    photoUrl := photoUrl c db
    createdByUserId := c.createdByUserId, createdAt := c.createdAt
    lastUpdateAt := c.lastUpdateAt
    needsHelp := newestUpdate c.id (fun u => u.needsHelp) db
    lastSeenAt := (newestWithStatus c.id .seen db).map Update.createdAt
    lastFedAt := (newestWithStatus c.id .fed db).map Update.createdAt
    lastWaterAt := (newestWithStatus c.id .waterProvided db).map Update.createdAt }

def catExists (id : UUID) (viewer : Option UUID) (db : Database) : Bool :=
  db.tables.cats.any fun c => c.id == id && visible viewer db c

def setCatCoverPhoto (primaryPhotoId id : UUID) (db : Database) : Except Error Database :=
  db.write fun t =>
    { t with
      cats := updateWhere (fun c => c.id == id)
        (fun c => { c with primaryPhotoId := some primaryPhotoId }) t.cats }

def updateCatName (name : String) (id : UUID) (db : Database) : Except Error Database :=
  db.write fun t =>
    { t with
      cats := updateWhere (fun c => c.id == id) (fun c => { c with name := some name }) t.cats }

/-- `greatest(last_update_at, at)` ignores a null. -/
def greatest (last : Option Instant) (at' : Instant) : Option Instant :=
  some (last.elim at' fun l => max l at')

def updateCatLastUpdateAt (lastUpdateAt : Instant) (id : UUID) (db : Database) :
    Except Error Database :=
  db.write fun t =>
    { t with
      cats := updateWhere (fun c => c.id == id)
        (fun c => { c with lastUpdateAt := greatest c.lastUpdateAt lastUpdateAt }) t.cats }

structure CreateCatParams where
  id : UUID
  name : Option String
  area : Point
  primaryPhotoId : Option UUID := none
  createdByUserId : UUID
  createdByDeviceId : Option UUID
  idempotencyKey : Option String

/-- On a conflict in `cats_user_idempotency_uq` nothing is inserted and no row returned. -/
def createCat (arg : CreateCatParams) (now : Instant) (db : Database) :
    Except Error (Cat × Database) := do
  let row : Cat :=
    { id := arg.id, name := arg.name, area := arg.area, primaryPhotoId := arg.primaryPhotoId
      status := .active, createdByUserId := some arg.createdByUserId
      createdByDeviceId := arg.createdByDeviceId, idempotencyKey := arg.idempotencyKey
      createdAt := now }
  if arg.idempotencyKey.isSome && db.tables.cats.any fun c =>
      c.createdByUserId == some arg.createdByUserId && c.idempotencyKey == arg.idempotencyKey then
    .error .noRows
  else
    let db ← db.write fun t => { t with cats := t.cats ++ [row] }
    return (row, db)

def getCatByIdempotencyKey (createdByUserId : UUID) (idempotencyKey : String) (db : Database) :
    Except Error Cat :=
  one (db.tables.cats.filter fun c =>
    c.createdByUserId == some createdByUserId && c.idempotencyKey == some idempotencyKey)

/-- `dwithin` stands for `st_dwithin(c.area, point, radius_m)`; the order is by distance. -/
def listNearbyCatsForDuplicateCheck (dwithin : Point → Bool) (viewer : Option UUID)
    (db : Database) : List Cat :=
  db.tables.cats.filter fun c =>
    c.status == .active && dwithin c.area && !blocks viewer c.createdByUserId db

def softDeleteCat (id createdByUserId : UUID) (db : Database) : Except Error (UUID × Database) := do
  let owned : Cat → Bool := fun c =>
    c.id == id && c.createdByUserId == some createdByUserId && c.status != .deleted
  let row ← one (db.tables.cats.filter owned)
  let db ← db.write fun t =>
    { t with cats := updateWhere owned (fun c => { c with status := .deleted }) t.cats }
  return (row.id, db)

def getCatOwnershipForDelete (id : UUID) (db : Database) : Except Error Cat :=
  one (db.tables.cats.filter fun c => c.id == id)

/-- On a conflict in `media_user_idempotency_uq` nothing is inserted and no row returned. -/
def createMedia (row : Medium) (db : Database) : Except Error (Medium × Database) := do
  if row.idempotencyKey.isSome && db.tables.media.any fun m =>
      m.uploadedByUserId == row.uploadedByUserId && m.idempotencyKey == row.idempotencyKey then
    .error .noRows
  else
    let db ← db.write fun t => { t with media := t.media ++ [row] }
    return (row, db)

def getMediaByIdempotencyKey (uploadedByUserId : UUID) (idempotencyKey : String) (db : Database) :
    Except Error Medium :=
  one (db.tables.media.filter fun m =>
    m.uploadedByUserId == uploadedByUserId && m.idempotencyKey == some idempotencyKey)

def getMediaByID (id : UUID) (db : Database) : Except Error Medium :=
  one (db.tables.media.filter fun m => m.id == id)

/-- On a conflict in `(cat_id, media_id)` nothing is inserted and no row returned. -/
def createCatMedia (id catId mediaId : UUID) (createdAt : Instant) (db : Database) :
    Except Error (CatMedium × Database) := do
  let row : CatMedium := { id, catId, mediaId, createdAt }
  if db.tables.catMedia.any fun m => m.catId == catId && m.mediaId == mediaId then
    .error .noRows
  else
    let db ← db.write fun t => { t with catMedia := t.catMedia ++ [row] }
    return (row, db)

def getCatMediaByCatAndMedia (catId mediaId : UUID) (db : Database) : Except Error CatMedium :=
  one (db.tables.catMedia.filter fun m => m.catId == catId && m.mediaId == mediaId)

def countCatMedia (catId : UUID) (db : Database) : ℕ :=
  (db.tables.catMedia.filter fun m => m.catId == catId).length

structure CatMediaRow where
  id : UUID
  catId : UUID
  mediaId : UUID
  createdAt : Instant
  url : String
  contentType : ContentType
  muted : Bool
  isCover : Bool
  uploaderUserId : UUID
  uploaderDisplayName : Option String
  deriving DecidableEq

/-- No update of the cat ever attached the media, or a live one still does. -/
def stillAttached (cm : CatMedium) (db : Database) : Bool :=
  let attaching := db.tables.updates.filter fun u =>
    u.mediaId == some cm.mediaId && u.catId == cm.catId
  attaching.isEmpty || attaching.any fun u => u.deletedAt.isNone

/-- `order by cm.created_at desc, cm.id desc`. -/
def newestMediaFirst (a b : CatMediaRow) : Bool :=
  decide (b.createdAt < a.createdAt) || (a.createdAt == b.createdAt && decide (b.id ≤ a.id))

def catMediaRow (cm : CatMedium) (db : Database) : Option CatMediaRow := do
  let m ← db.tables.media.find? fun m => m.id == cm.mediaId
  let c ← db.tables.cats.find? fun c => c.id == cm.catId
  return {
    id := cm.id, catId := cm.catId, mediaId := cm.mediaId, createdAt := cm.createdAt
    url := m.url, contentType := m.contentType, muted := m.muted
    isCover := c.primaryPhotoId == some cm.mediaId
    uploaderUserId := m.uploadedByUserId
    uploaderDisplayName :=
      (db.tables.users.find? fun u => u.id == m.uploadedByUserId).bind User.displayName }

def listCatMedia (catId : UUID) (db : Database) : List CatMediaRow :=
  orderBy newestMediaFirst
    ((db.tables.catMedia.filter fun cm => cm.catId == catId && stillAttached cm db).filterMap
      fun cm => catMediaRow cm db)

/-- Every listed entry is a row of `cat_media` and carries that row's own id. -/
theorem mem_listCatMedia {catId : UUID} {db : Database} {i : CatMediaRow}
    (h : i ∈ listCatMedia catId db) :
    ∃ cm ∈ db.tables.catMedia, cm.id = i.id ∧ cm.catId = catId ∧ cm.mediaId = i.mediaId := by
  simp only [listCatMedia, mem_orderBy, List.mem_filterMap, List.mem_filter, Bool.and_eq_true,
    beq_iff_eq] at h
  obtain ⟨cm, ⟨hmem, hcat, -⟩, hrow⟩ := h
  refine ⟨cm, hmem, ?_⟩
  simp only [catMediaRow, Option.bind_eq_bind, Option.bind_eq_some_iff, Option.pure_def,
    Option.some.injEq] at hrow
  obtain ⟨m, -, c, -, rfl⟩ := hrow
  exact ⟨rfl, hcat, rfl⟩

end Tekir.CatQueries
