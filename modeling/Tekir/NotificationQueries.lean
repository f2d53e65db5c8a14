import Tekir.UpdateQueries
import Mathlib.Data.List.Dedup

/-!
# Outbox and inbox queries

The statements of `notification_outbox.sql` and `notifications.sql`, and the
recipient query of `follows.sql`.
-/
namespace Tekir.NotificationQueries
open Table Schema Statements AccountQueries

/-- A live mark at an earlier position whose window still covers the new one. -/
def coveredBy (u p : Update) : Bool :=
  p.catId == u.catId && p.needsHelp && p.deletedAt.isNone && p.id != u.id &&
    (decide (p.createdAt < u.createdAt) || (p.createdAt == u.createdAt && decide (p.seq < u.seq))) &&
    p.needsHelpExpiresAt.any fun e => decide (u.createdAt < e)

/-- The verdict frozen into the outbox row. -/
def needsHelpEligible (updates : List Update) (u : Update) : Bool :=
  u.needsHelp && !updates.any (coveredBy u)

def createNotificationOutbox (id updateId : UUID) (now : Instant) (db : Database) :
    Except Error Database :=
  db.write fun t =>
    { t with
      notificationOutbox := t.notificationOutbox ++
        (t.updates.filter fun u => u.id == updateId).map fun u =>
          { id, updateId := u.id, catId := u.catId
            needsHelpEligible := needsHelpEligible t.updates u, createdAt := now } }

structure ClaimedRow where
  id : UUID
  updateId : UUID
  catId : UUID
  needsHelp : Bool
  authorUserId : Option UUID
  needsHelpEligible : Bool
  deriving DecidableEq

def claimedRow (updates : List Update) (o : NotificationOutbox) : Option ClaimedRow :=
  (updates.find? fun u => u.id == o.updateId).map fun u =>
    { id := o.id, updateId := o.updateId, catId := o.catId
      needsHelp := u.needsHelp && u.deletedAt.isNone
      authorUserId := u.authorUserId, needsHelpEligible := o.needsHelpEligible }

/-- `for update of o skip locked`: rows another transaction holds are passed over. -/
def claimUnlocked (locked : UUID → Bool) (rowLimit : ℕ) (db : Database) : List ClaimedRow :=
  let pending := db.tables.notificationOutbox.filter fun o => o.processedAt.isNone && !locked o.id
  ((orderBy (fun a b => decide (a.createdAt ≤ b.createdAt)) pending).filterMap
    (claimedRow db.tables.updates)).take rowLimit

/-- The batch a dispatch claims while no other one is running. -/
def claimNotificationOutboxBatch (rowLimit : ℕ) (db : Database) : List ClaimedRow :=
  claimUnlocked (fun _ => false) rowLimit db

def processOutbox (processedAt : Instant) (id : UUID) (t : Tables) : Tables :=
  { t with
    notificationOutbox := updateWhere (fun o => o.id == id)
      (fun o => { o with processedAt := some processedAt }) t.notificationOutbox }

def markNotificationOutboxProcessed (processedAt : Instant) (id : UUID) (db : Database) :
    Except Error Database :=
  db.write (processOutbox processedAt id)

def insertNotification (row : Notification) (t : Tables) : Tables :=
  { t with notifications := t.notifications ++ [row] }

/-- On a conflict in `(device_id, update_id)` nothing is inserted and no row returned. -/
def createNotification (id deviceId catId updateId : UUID) (now : Instant) (db : Database) :
    Except Error (Notification × Database) := do
  let row : Notification := { id, deviceId, catId, updateId, createdAt := now }
  if db.tables.notifications.any fun n => n.deviceId == deviceId && n.updateId == updateId then
    .error .noRows
  else
    let db ← db.write (insertNotification row)
    return (row, db)

/-- The row that is returned is the one inserted, and its pair was free. -/
theorem createNotification_spec {id deviceId catId updateId : UUID} {now : Instant}
    {db db' : Database} {n : Notification}
    (h : createNotification id deviceId catId updateId now db = .ok (n, db')) :
    (∀ m ∈ db.tables.notifications, (m.deviceId, m.updateId) ≠ (deviceId, updateId)) ∧
      n = { id, deviceId, catId, updateId, createdAt := now } ∧
      db'.tables = insertNotification n db.tables := by
  unfold createNotification at h
  split at h
  · cases h
  · rename_i hfree
    obtain ⟨db₁, hwrite, h⟩ := bind_eq_ok.mp h
    cases h
    refine ⟨fun m hm heq => hfree ?_, rfl, write_eq_ok.mp hwrite⟩
    simp only [Prod.mk.injEq] at heq
    exact List.any_eq_true.mpr ⟨m, hm, by simp [heq]⟩

structure Recipient where
  deviceId : UUID
  pushToken : Option String
  deriving DecidableEq

/-- With no author the comparison `f.user_id != author_user_id` is null for every follow. -/
def follower (catId : UUID) (authorUserId : Option UUID) (db : Database) (f : Follow) : Bool :=
  f.catId == catId && f.userId.isSome && authorUserId.isSome && f.userId != authorUserId &&
    db.tables.cats.any fun c => c.id == f.catId && !blocks f.userId c.createdByUserId db

def listNeedsHelpRecipientDevices (catId : UUID) (authorUserId : Option UUID) (db : Database) :
    List Recipient :=
  ((db.tables.follows.filter (follower catId authorUserId db)).flatMap fun f =>
    (db.tables.devices.filter fun d => d.userId == f.userId && d.revokedAt.isNone).map fun d =>
      { deviceId := d.id, pushToken := d.pushToken }).dedup

structure NotificationRow where
  id : UUID
  catId : UUID
  updateId : UUID
  readAt : Option Instant
  createdAt : Instant
  deriving DecidableEq

/-- The keyset position of the last entry of the previous page. -/
structure Before where
  createdAt : Instant
  id : UUID
  deriving DecidableEq

def beforeCursor (before : Option Before) (n : NotificationRow) : Bool :=
  before.all fun b =>
    decide (n.createdAt < b.createdAt) || (n.createdAt == b.createdAt && decide (n.id < b.id))

/-- `order by n.created_at desc, n.id desc`. -/
def newestNotificationFirst (a b : NotificationRow) : Bool :=
  decide (b.createdAt < a.createdAt) || (a.createdAt == b.createdAt && decide (b.id ≤ a.id))

def listMyNotifications (userId : UUID) (before : Option Before) (rowLimit : ℕ) (db : Database) :
    List NotificationRow :=
  let mine := db.tables.notifications.filter fun n =>
    db.tables.devices.any fun d => d.id == n.deviceId && d.userId == some userId
  let rows := mine.map fun n =>
    { id := n.id, catId := n.catId, updateId := n.updateId, readAt := n.readAt
      createdAt := n.createdAt : NotificationRow }
  (orderBy newestNotificationFirst (rows.filter (beforeCursor before))).take rowLimit

def markNotificationRead (readAt : Instant) (id userId : UUID) (db : Database) :
    Except Error Database :=
  db.write fun t =>
    { t with
      notifications := updateWhere (fun n =>
          n.id == id && t.devices.any fun d => d.id == n.deviceId && d.userId == some userId)
        (fun n => { n with readAt := some readAt }) t.notifications }

end Tekir.NotificationQueries
