import Tekir.CatServices
import Tekir.ReadQueries

/-!
# Read services

The list reads of `CatsService` and `FollowsService`. Whether a help mark is active is
decided here, against the clock of the service; a page is cut off one row before the last
fetched one, and its cursor is the position of its last row.
-/
namespace Tekir.ReadServices
open Table Schema Statements AccountQueries CatQueries UpdateQueries ReadQueries CatServices

/-- The opaque text of a position. -/
structure Codec (κ : Type) where
  encode : κ → String
  decode : String → Option κ

/-- A text that was made from a position is read as that position. -/
def Codec.Restores {κ : Type} (codec : Codec κ) (k : κ) : Prop :=
  codec.decode (codec.encode k) = some k

structure Reading extends Geometry where
  discoverCursor : Codec (ℚ≥0 × UUID)
  updatesCursor : Codec (Instant × ℕ)

structure CatMarker where
  id : UUID
  name : String
  primaryPhoto : String
  area : Point
  areaLabel : Option String
  activeAlert : Option ActiveAlert
  lastUpdateAt : Option Instant
  deriving DecidableEq

def toCatMarker (clock : Instant) (r : MarkerRow) : CatMarker :=
  { id := r.id, name := r.name.getD "", primaryPhoto := r.photoUrl, area := r.area
    areaLabel := r.areaLabel, activeAlert := deriveActiveAlert clock r.needsHelp
    lastUpdateAt := r.lastUpdateAt }

/-- Values that are not finite have no counterpart here. -/
def Bounds.validate (b : Bounds) : Except Error Unit :=
  if b.minLat < -90 ∨ 90 < b.maxLat ∨ b.minLng < -180 ∨ 180 < b.maxLng then .error .invalidBounds
  else if b.maxLat ≤ b.minLat ∨ b.maxLng ≤ b.minLng then .error .invalidBounds
  else .ok ()

def listNearby (read : Reading) (clock : Instant) (bounds : Bounds) (caller : Option UUID)
    (db : Database) : Except Error (List CatMarker) := do
  Bounds.validate bounds
  return (listCatsInBounds read.toGeometry bounds caller db).map (toCatMarker clock)

structure DuplicateCandidate where
  id : UUID
  name : String
  primaryPhoto : String
  deriving DecidableEq

def listNearbyDuplicates (read : Reading) (dwithin : Point → Point → Bool) (point : Point)
    (caller : Option UUID) (db : Database) : Except Error (List DuplicateCandidate) :=
  if withinIstanbul point then
    .ok ((nearbyDuplicates read.toGeometry (fun p => dwithin p point) point caller db).map fun c =>
      { id := c.id, name := c.name.getD "", primaryPhoto := photoUrl c db })
  else .error .invalidArea

structure DiscoverCat where
  id : UUID
  name : String
  primaryPhoto : String
  areaLabel : Option String
  distanceMeters : ℚ≥0
  activeAlert : Option ActiveAlert
  lastUpdateAt : Option Instant
  deriving DecidableEq

def toDiscoverCat (clock : Instant) (r : DistanceRow) : DiscoverCat :=
  { id := r.id, name := r.name.getD "", primaryPhoto := r.photoUrl, areaLabel := r.areaLabel
    distanceMeters := r.distanceM, activeAlert := deriveActiveAlert clock r.needsHelp
    lastUpdateAt := r.lastUpdateAt }

/-- No cursor is the empty text. -/
structure DiscoverPage where
  items : List DiscoverCat
  nextCursor : Option String

inductive DiscoverFilter | nearby | needsHelp
  deriving DecidableEq

def discoverFilter : String → Option DiscoverFilter
  | "nearby" => some .nearby
  | "needs_help" => some .needsHelp
  | _ => none

def defaultDiscoverLimit : ℕ := 20

def maxDiscoverLimit : ℕ := 50

/-- A limit of zero stands for the default. -/
def pageLimit (default max : ℕ) (limit : ℤ) : Except Error ℕ :=
  let limit := if limit = 0 then (default : ℤ) else limit
  if limit < 0 ∨ (max : ℤ) < limit then .error .invalidLimit else .ok limit.toNat

def decodeCursor {κ : Type} (codec : Codec κ) (cursor : Option String) :
    Except Error (Option κ) :=
  match cursor with
  | none => .ok none
  | some text =>
    match codec.decode text with
    | none => .error .invalidCursor
    | some k => .ok (some k)

def discoverRows (read : Reading) (filter : DiscoverFilter) (point : Point) (now : Instant)
    (after : Option (ℚ≥0 × UUID)) (rowLimit : ℕ) (caller : Option UUID) (db : Database) :
    List DistanceRow :=
  match filter with
  | .nearby => listCatsByDistance read.toGeometry point after rowLimit caller db
  | .needsHelp =>
    listActiveNeedsHelpCatsByDistance read.toGeometry point now after rowLimit caller db

def discoverPage (read : Reading) (now : Instant) (limit : ℕ) (rows : List DistanceRow) :
    DiscoverPage :=
  if limit < rows.length then
    { items := (rows.take limit).map (toDiscoverCat now)
      nextCursor := (rows.take limit).getLast?.map fun r =>
        read.discoverCursor.encode (r.distanceM, r.id) }
  else { items := rows.map (toDiscoverCat now), nextCursor := none }

def listDiscover (read : Reading) (clock : Instant) (filter : String) (point : Point)
    (cursor : Option String) (limit : ℤ) (caller : Option UUID) (db : Database) :
    Except Error DiscoverPage := do
  match discoverFilter filter with
  | none => .error .invalidDiscoverFilter
  | some filter =>
    if withinIstanbul point then
      let limit ← pageLimit defaultDiscoverLimit maxDiscoverLimit limit
      let after ← decodeCursor read.discoverCursor cursor
      return discoverPage read clock limit
        (discoverRows read filter point clock after (limit + 1) caller db)
    else .error .invalidArea

def listFollows (clock : Instant) (userId : UUID) (db : Database) : List CatMarker :=
  (listFollowedCats userId db).map (toCatMarker clock)

structure UpdatesPage where
  items : List CatUpdate
  nextCursor : Option String

/-- The alert fields serve the stored category or the compatibility pair. -/
def toCatUpdate (clock : Instant) (caller : Option UUID) (r : UpdateRow) : CatUpdate :=
  let isMe := caller.isSome && r.authorUserId == caller
  let expiresAt := r.needsHelpExpiresAt.getD 0
  { id := r.id, kind := wireUpdateKind r.needsHelp, statuses := r.statuses, comment := r.comment
    createdAt := r.createdAt, needsHelp := r.needsHelp, authorUserId := r.authorUserId
    authorDisplayName := r.authorDisplayName, photoUrl := r.photoUrl
    mediaContentType := r.mediaContentType, mediaMuted := r.mediaMuted
    needsHelpCategory := if r.needsHelp then some (alertCategory r.needsHelpCategory).1 else none
    needsHelpCategoryLabel :=
      if r.needsHelp then some (alertCategory r.needsHelpCategory).2 else none
    needsHelpExpiresAt := if r.needsHelp then some expiresAt else none
    needsHelpActive := if r.needsHelp then some (decide (clock < expiresAt)) else none
    authorIsMe := isMe
    correctionExpiresAt :=
      if isMe && r.kind == .ordinary then some (r.createdAt + updateCorrectionWindow) else none }

def defaultUpdatesLimit : ℕ := 20

def maxUpdatesLimit : ℕ := 50

def updatesPage (read : Reading) (clock : Instant) (caller : Option UUID) (limit : ℕ)
    (rows : List UpdateRow) : UpdatesPage :=
  if limit < rows.length then
    { items := (rows.take limit).map (toCatUpdate clock caller)
      nextCursor := (rows.take limit).getLast?.map fun r =>
        read.updatesCursor.encode (r.createdAt, r.seq) }
  else { items := rows.map (toCatUpdate clock caller), nextCursor := none }

def listCatUpdates (read : Reading) (clock : Instant) (catId : UUID) (cursor : Option String)
    (limit : ℤ) (caller : Option UUID) (db : Database) : Except Error UpdatesPage := do
  let limit ← pageLimit defaultUpdatesLimit maxUpdatesLimit limit
  let before ← decodeCursor read.updatesCursor cursor
  if catExists catId caller db then
    return updatesPage read clock caller limit
      (ReadQueries.listCatUpdates catId before (limit + 1) db)
  else .error .catNotFound

end Tekir.ReadServices
