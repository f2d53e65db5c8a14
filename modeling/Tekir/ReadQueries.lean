import Mathlib.Data.NNRat.Defs
import Tekir.UpdateQueries

/-!
# Read queries

The statements of `cats.sql`, `follows.sql` and `updates.sql` that return lists of cats or
of updates. The geometry of PostGIS is a parameter. Every list of cats carries the newest
live help mark of each cat, whether or not it has expired.
-/
namespace Tekir.ReadQueries
open Table Schema Statements AccountQueries CatQueries UpdateQueries

structure Bounds where
  minLng : ℚ
  minLat : ℚ
  maxLng : ℚ
  maxLat : ℚ
  deriving DecidableEq

structure Geometry where
  /-- `area && st_makeenvelope(..)`. -/
  overlaps : Bounds → Point → Bool
  /-- `st_distance`, in meters. -/
  distance : Point → Point → ℚ≥0

/-- The columns of a cat that the lists share. -/
structure MarkerRow where
  id : UUID
  name : Option String
  photoUrl : String
  area : Point
  areaLabel : Option String
  lastUpdateAt : Option Instant
  needsHelp : Option Update
  deriving DecidableEq

def markerRow (db : Database) (c : Cat) : MarkerRow :=
  { id := c.id, name := c.name, photoUrl := photoUrl c db, area := c.area, areaLabel := c.areaLabel
    lastUpdateAt := c.lastUpdateAt, needsHelp := newestUpdate c.id (fun u => u.needsHelp) db }

/-- `c.status = 'active'` and the owner is not an account the viewer blocks. -/
def listed (viewer : Option UUID) (db : Database) (c : Cat) : Bool :=
  c.status == .active && !blocks viewer c.createdByUserId db

/-- `order by c.created_at desc`. -/
def newestCatFirst (a b : Cat) : Bool :=
  decide (b.createdAt ≤ a.createdAt)

def listCatsInBounds (geo : Geometry) (bounds : Bounds) (viewer : Option UUID) (db : Database) :
    List MarkerRow :=
  (orderBy newestCatFirst
    (db.tables.cats.filter fun c => listed viewer db c && geo.overlaps bounds c.area)).map
    (markerRow db)

/-- `listNearbyCatsForDuplicateCheck` with its `order by`. -/
def nearbyDuplicates (geo : Geometry) (dwithin : Point → Bool) (point : Point)
    (viewer : Option UUID) (db : Database) : List Cat :=
  orderBy (fun a b => decide (geo.distance a.area point ≤ geo.distance b.area point))
    (listNearbyCatsForDuplicateCheck dwithin viewer db)

/-- A row of the common table expression `candidates`. -/
structure DistanceRow extends MarkerRow where
  distanceM : ℚ≥0
  deriving DecidableEq

def candidates (geo : Geometry) (point : Point) (viewer : Option UUID) (db : Database) :
    List DistanceRow :=
  (db.tables.cats.filter (listed viewer db)).map fun c =>
    { markerRow db c with distanceM := geo.distance c.area point }

/-- `distance_m > after_distance_m or (distance_m = after_distance_m and id > after_id)`. -/
def afterCursor (after : Option (ℚ≥0 × UUID)) (r : DistanceRow) : Bool :=
  after.all fun a =>
    decide (a.1 < r.distanceM) || (r.distanceM == a.1 && decide (a.2 < r.id))

/-- `order by distance_m asc, id asc`. -/
def nearestFirst (a b : DistanceRow) : Bool :=
  decide (a.distanceM < b.distanceM) || (a.distanceM == b.distanceM && decide (a.id ≤ b.id))

def listCatsByDistance (geo : Geometry) (point : Point) (after : Option (ℚ≥0 × UUID))
    (rowLimit : ℕ) (viewer : Option UUID) (db : Database) : List DistanceRow :=
  (orderBy nearestFirst ((candidates geo point viewer db).filter (afterCursor after))).take rowLimit

/-- `needs_help_expires_at is not null and needs_help_expires_at > now`. -/
def helpActiveAt (now : Instant) (r : DistanceRow) : Bool :=
  (r.needsHelp.bind Update.needsHelpExpiresAt).any fun expiresAt => decide (now < expiresAt)

def listActiveNeedsHelpCatsByDistance (geo : Geometry) (point : Point) (now : Instant)
    (after : Option (ℚ≥0 × UUID)) (rowLimit : ℕ) (viewer : Option UUID) (db : Database) :
    List DistanceRow :=
  (orderBy nearestFirst
    ((candidates geo point viewer db).filter fun r => helpActiveAt now r && afterCursor after r)).take
    rowLimit

/-- `order by c.last_update_at desc nulls last, c.id desc`. -/
def mostRecentActivityFirst (a b : Cat) : Bool :=
  match a.lastUpdateAt, b.lastUpdateAt with
  | some x, some y => decide (y < x) || (x == y && decide (b.id ≤ a.id))
  | some _, none => true
  | none, some _ => false
  | none, none => decide (b.id ≤ a.id)

/-- Nothing is said about the status of the cat. -/
def listFollowedCats (userId : UUID) (db : Database) : List MarkerRow :=
  let followed := (db.tables.follows.filter fun f => f.userId == some userId).flatMap fun f =>
    db.tables.cats.filter fun c =>
      c.id == f.catId && !blocks (some userId) c.createdByUserId db
  (orderBy mostRecentActivityFirst followed).map (markerRow db)

structure UpdateRow where
  id : UUID
  kind : UpdateKind
  comment : Option String
  createdAt : Instant
  seq : ℕ
  authorUserId : Option UUID
  authorDisplayName : Option String
  needsHelp : Bool
  needsHelpCategory : Option Category
  needsHelpExpiresAt : Option Instant
  photoUrl : Option String
  mediaContentType : Option ContentType
  mediaMuted : Option Bool
  statuses : List Status
  deriving DecidableEq

def updateRow (db : Database) (u : Update) : UpdateRow :=
  let author := db.tables.users.find? fun a => u.authorUserId == some a.id
  let media := db.tables.media.find? fun m => u.mediaId == some m.id
  { id := u.id, kind := u.kind, comment := u.comment, createdAt := u.createdAt, seq := u.seq
    authorUserId := u.authorUserId, authorDisplayName := author.bind User.displayName
    needsHelp := u.needsHelp, needsHelpCategory := u.needsHelpCategory
    needsHelpExpiresAt := u.needsHelpExpiresAt, photoUrl := media.map Medium.url
    mediaContentType := media.map Medium.contentType, mediaMuted := media.map Medium.muted
    statuses := listUpdateStatuses u.id db }

/-- `created_at < before_created_at or (created_at = before_created_at and seq < before_seq)`. -/
def beforeCursor (before : Option (Instant × ℕ)) (u : Update) : Bool :=
  before.all fun b => decide (u.createdAt < b.1) || (u.createdAt == b.1 && decide (u.seq < b.2))

def listCatUpdates (catId : UUID) (before : Option (Instant × ℕ)) (rowLimit : ℕ) (db : Database) :
    List UpdateRow :=
  ((orderBy newestFirst
    (db.tables.updates.filter fun u =>
      u.catId == catId && u.deletedAt.isNone && beforeCursor before u)).take rowLimit).map
    (updateRow db)

end Tekir.ReadQueries
