import Tekir.Environment

/-!
# Writes of the content services

What single statements about cats, updates, media, follows, reports, blocks, the outbox
and the inbox write. A write names the rows it touches, so that applying it to a later
database touches the same rows. It locks those rows and the unique keys it fills, and
holds on to the rows it refers to.
-/
namespace Tekir.ContentWrites
open Table Schema Statements CatQueries UpdateQueries NotificationQueries Environment

/-- The rows one statement of the account deletion works on. -/
structure Purge where
  notifications : List UUID := []
  outbox : List UUID := []
  updateStatuses : List UpdateStatus := []
  updates : List UUID := []
  follows : List Follow := []
  reports : List UUID := []
  userBlocks : List UserBlock := []
  /-- The cats that lose their cover. -/
  covers : List UUID := []
  catMedia : List UUID := []
  cats : List UUID := []
  media : List UUID := []
  /-- The devices that are detached and revoked. -/
  devices : List UUID := []
  refreshTokens : List UUID := []
  otpCodes : List UUID := []
  users : List UUID := []

inductive Write
  | medium (row : Medium)
  | cat (row : Cat)
  | catMedium (row : CatMedium)
  | update (arg : CreateUpdateParams)
  /-- The `on conflict (id) do update` of the same statement. -/
  | reassigned (arg : CreateUpdateParams)
  | updateStatus (row : UpdateStatus)
  | clearedStatuses (rows : List UpdateStatus)
  | touched (catId : UUID) (at' : Instant)
  | outbox (rows : List NotificationOutbox)
  | corrected (arg : CorrectOrdinaryUpdateParams)
  | hidden (updateId : UUID) (at' : Instant)
  | cover (catId mediaId : UUID)
  | named (catId : UUID) (name : String)
  | retired (catId : UUID)
  | follow (row : Follow)
  | unfollowed (userId catId : UUID)
  | report (row : Report)
  | block (row : UserBlock)
  | unblocked (row : UserBlock)
  /-- Outbox rows locked by `for update`. -/
  | claimed (ids : List UUID)
  | notification (row : Notification)
  | processed (id : UUID) (at' : Instant)
  | clearedToken (deviceId : UUID) (token : Option String)
  | read (ids : List UUID) (at' : Instant)
  | purged (rows : Purge) (at' : Instant)
  | put (key : String)
  | erased (key : String)

def Purge.apply (rows : Purge) (at' : Instant) (t : Tables) : Tables :=
  { t with
    notifications := deleteWhere (fun n => rows.notifications.contains n.id) t.notifications
    notificationOutbox := deleteWhere (fun o => rows.outbox.contains o.id) t.notificationOutbox
    updateStatuses := deleteWhere (fun s => rows.updateStatuses.contains s) t.updateStatuses
    updates := deleteWhere (fun u => rows.updates.contains u.id) t.updates
    follows := deleteWhere (fun f => rows.follows.contains f) t.follows
    reports := deleteWhere (fun r => rows.reports.contains r.id) t.reports
    userBlocks := deleteWhere (fun b => rows.userBlocks.contains b) t.userBlocks
    catMedia := deleteWhere (fun m => rows.catMedia.contains m.id) t.catMedia
    cats := updateWhere (fun c => rows.covers.contains c.id)
      (fun c => { c with primaryPhotoId := none })
      (deleteWhere (fun c => rows.cats.contains c.id) t.cats)
    media := deleteWhere (fun m => rows.media.contains m.id) t.media
    devices := updateWhere (fun d => rows.devices.contains d.id)
      (fun d => { d with userId := none, revokedAt := some at' }) t.devices
    refreshTokens := deleteWhere (fun r => rows.refreshTokens.contains r.id) t.refreshTokens
    otpCodes := deleteWhere (fun o => rows.otpCodes.contains o.id) t.otpCodes
    users := deleteWhere (fun u => rows.users.contains u.id) t.users }

/-- A new update gets its sequence number when it is published. -/
def Write.apply : Write → Tables → Tables
  | .medium row, t => { t with media := t.media ++ [row] }
  | .cat row, t => { t with cats := t.cats ++ [row] }
  | .catMedium row, t => { t with catMedia := t.catMedia ++ [row] }
  | .update arg, t =>
    { t with updates := t.updates ++ [arg.insert t.updatesSeq], updatesSeq := t.updatesSeq + 1 }
  | .reassigned arg, t =>
    { t with
      updates := updateWhere (fun u => u.id == arg.id) arg.assign t.updates
      updatesSeq := t.updatesSeq + 1 }
  | .updateStatus row, t => { t with updateStatuses := t.updateStatuses ++ [row] }
  | .clearedStatuses rows, t =>
    { t with updateStatuses := deleteWhere (fun s => rows.contains s) t.updateStatuses }
  | .touched catId at', t =>
    { t with
      cats := updateWhere (fun c => c.id == catId)
        (fun c => { c with lastUpdateAt := greatest c.lastUpdateAt at' }) t.cats }
  | .outbox rows, t => { t with notificationOutbox := t.notificationOutbox ++ rows }
  | .corrected arg, t =>
    { t with updates := updateWhere (fun u => u.id == arg.id) arg.assign t.updates }
  | .hidden updateId at', t =>
    { t with
      updates := updateWhere (fun u => u.id == updateId)
        (fun u => { u with deletedAt := some at' }) t.updates }
  | .cover catId mediaId, t =>
    { t with
      cats := updateWhere (fun c => c.id == catId)
        (fun c => { c with primaryPhotoId := some mediaId }) t.cats }
  | .named catId name, t =>
    { t with
      cats := updateWhere (fun c => c.id == catId) (fun c => { c with name := some name }) t.cats }
  | .retired catId, t =>
    { t with
      cats := updateWhere (fun c => c.id == catId) (fun c => { c with status := .deleted }) t.cats }
  | .follow row, t => insertFollow row t
  | .unfollowed userId catId, t =>
    { t with
      follows := deleteWhere (fun f => f.userId == some userId && f.catId == catId) t.follows }
  | .report row, t => { t with reports := t.reports ++ [row] }
  | .block row, t => { t with userBlocks := t.userBlocks ++ [row] }
  | .unblocked row, t => { t with userBlocks := deleteWhere (fun b => b == row) t.userBlocks }
  | .claimed _, t => t
  | .notification row, t => insertNotification row t
  | .processed id at', t => processOutbox at' id t
  | .clearedToken deviceId token, t => AccountQueries.clearPushToken deviceId token t
  | .read ids at', t =>
    { t with
      notifications := updateWhere (fun n => ids.contains n.id)
        (fun n => { n with readAt := some at' }) t.notifications }
  | .purged rows at', t => rows.apply at' t
  | .put _, t => t
  | .erased _, t => t

def applyAll (ws : List Write) (t : Tables) : Tables :=
  ws.foldl (fun t w => w.apply t) t

def Write.store : Write → List String → List String
  | .put key, objects => objects ++ [key]
  | .erased key, objects => objects.filter fun k => k != key
  | _, objects => objects

/-- The world as a transaction with these writes sees it. -/
def view (ws : List Write) (w : World) : Option World :=
  if h : Valid (applyAll ws w.db.tables) then
    some { w with
      db := ⟨applyAll ws w.db.tables, h⟩
      objects := ws.foldl (fun objects w => w.store objects) w.objects }
  else none

/-- What is locked: a row, or a key of a unique index. -/
inductive Lock
  | user (id : UUID)
  | device (id : UUID)
  | cat (id : UUID)
  | catKey (owner : Option UUID) (key : String)
  | medium (id : UUID)
  | mediumKey (uploader : UUID) (key : String)
  | catMedium (id : UUID)
  | catMediumOf (catId mediaId : UUID)
  | update (id : UUID)
  | updateKey (author : Option UUID) (key : String)
  | updateStatus (row : UpdateStatus)
  | outbox (id : UUID)
  | outboxOf (updateId : UUID)
  | notification (id : UUID)
  | notificationOf (deviceId updateId : UUID)
  | follow (userId : Option UUID) (catId : UUID)
  | report (reporter : UUID) (targetType : TargetType) (targetId : UUID)
  | reportRow (id : UUID)
  | block (row : UserBlock)
  deriving DecidableEq

/-- The locks of a row that is inserted or of rows that are changed. -/
def Write.locks : Write → List Lock
  | .medium row => .medium row.id :: row.idempotencyKey.toList.map (.mediumKey row.uploadedByUserId)
  | .cat row => .cat row.id :: row.idempotencyKey.toList.map (.catKey row.createdByUserId)
  | .catMedium row => [.catMedium row.id, .catMediumOf row.catId row.mediaId]
  | .update arg => .update arg.id :: arg.idempotencyKey.toList.map (.updateKey arg.authorUserId)
  | .reassigned arg => .update arg.id :: arg.idempotencyKey.toList.map (.updateKey arg.authorUserId)
  | .updateStatus row => [.updateStatus row]
  | .clearedStatuses rows => rows.map .updateStatus
  | .touched catId _ => [.cat catId]
  | .outbox rows => rows.flatMap fun o => [.outbox o.id, .outboxOf o.updateId]
  | .corrected arg => [.update arg.id]
  | .hidden updateId _ => [.update updateId]
  | .cover catId _ => [.cat catId]
  | .named catId _ => [.cat catId]
  | .retired catId => [.cat catId]
  | .follow row => [.follow row.userId row.catId]
  | .unfollowed userId catId => [.follow (some userId) catId]
  | .report row => [.reportRow row.id, .report row.reporterUserId row.targetType row.targetId]
  | .block row => [.block row]
  | .unblocked row => [.block row]
  | .claimed ids => ids.map .outbox
  | .notification row => [.notification row.id, .notificationOf row.deviceId row.updateId]
  | .processed id _ => [.outbox id]
  | .clearedToken deviceId _ => [.device deviceId]
  | .read ids _ => ids.map .notification
  | .purged rows _ =>
    rows.notifications.map .notification ++ rows.outbox.map .outbox ++
      rows.updateStatuses.map .updateStatus ++ rows.updates.map .update ++
      (rows.follows.map fun f => .follow f.userId f.catId) ++ rows.reports.map .reportRow ++
      rows.userBlocks.map .block ++ rows.covers.map .cat ++ rows.catMedia.map .catMedium ++
      rows.cats.map .cat ++ rows.media.map .medium ++ rows.devices.map .device ++
      rows.users.map .user
  | .put _ => []
  | .erased _ => []

/-- The rows a write must not lose: `for key share` on what its foreign keys refer to. -/
def Write.refersTo : Write → List Lock
  | .medium row => .user row.uploadedByUserId :: row.uploadedByDeviceId.toList.map .device
  | .cat row => row.createdByUserId.toList.map .user ++ row.createdByDeviceId.toList.map .device ++
      row.primaryPhotoId.toList.map .medium
  | .catMedium row => [.cat row.catId, .medium row.mediaId]
  | .update arg | .reassigned arg => .cat arg.catId :: (arg.authorUserId.toList.map .user ++
      arg.authorDeviceId.toList.map .device ++ arg.mediaId.toList.map .medium)
  | .updateStatus row => [.update row.updateId]
  | .outbox rows => rows.flatMap fun o => [.update o.updateId, .cat o.catId]
  | .cover _ mediaId => [.medium mediaId]
  | .follow row => .cat row.catId :: (row.userId.toList.map .user ++ row.deviceId.toList.map .device)
  | .report row => [.user row.reporterUserId]
  | .block row => [.user row.blockerUserId, .user row.blockedUserId]
  | .notification row => [.device row.deviceId, .cat row.catId, .update row.updateId]
  | _ => []

/-- The rows a write deletes to which others may refer. -/
def Write.removes : Write → List Lock
  | .purged rows _ =>
    rows.updates.map .update ++ rows.cats.map .cat ++ rows.media.map .medium ++ rows.users.map .user
  | _ => []

/-- A lock is held until the end of the transaction. -/
def clash (w w' : Write) : Bool :=
  (w.locks.any fun l => w'.locks.contains l) ||
    (w.refersTo.any fun l => w'.removes.contains l) ||
    w'.refersTo.any fun l => w.removes.contains l

theorem clash_symm (w w' : Write) : clash w w' = clash w' w := by
  rw [Bool.eq_iff_iff]
  simp only [clash, Bool.or_eq_true, List.any_eq_true, List.contains_iff_mem]
  constructor
  · rintro ((⟨l, h, h'⟩ | h) | h)
    · exact .inl (.inl ⟨l, h', h⟩)
    · exact .inr h
    · exact .inl (.inr h)
  · rintro ((⟨l, h, h'⟩ | h) | h)
    · exact .inl (.inl ⟨l, h', h⟩)
    · exact .inr h
    · exact .inl (.inr h)

theorem view_nil (w : World) : view [] w = some w := by
  simp [view, applyAll, w.db.valid]

theorem tables_of_view {ws : List Write} {w w' : World} (hview : view ws w = some w') :
    w'.db.tables = applyAll ws w.db.tables := by
  unfold view at hview
  split at hview
  · cases hview
    rfl
  · cases hview

theorem objects_of_view {ws : List Write} {w w' : World} (hview : view ws w = some w') :
    w'.objects = ws.foldl (fun objects w => w.store objects) w.objects := by
  unfold view at hview
  split at hview
  · cases hview
    rfl
  · cases hview

@[simp] theorem applyAll_nil (t : Tables) : applyAll [] t = t := rfl

@[simp] theorem applyAll_cons (w : Write) (ws : List Write) (t : Tables) :
    applyAll (w :: ws) t = applyAll ws (w.apply t) := rfl

theorem applyAll_append (ws ws' : List Write) (t : Tables) :
    applyAll (ws ++ ws') t = applyAll ws' (applyAll ws t) :=
  List.foldl_append

/-- Tables that no write of a transaction touches stay as they are. -/
theorem applyAll_frame {α : Type} (part : Tables → α) {ws : List Write}
    (h : ∀ w ∈ ws, ∀ t, part (w.apply t) = part t) (t : Tables) :
    part (applyAll ws t) = part t := by
  induction ws generalizing t with
  | nil => rfl
  | cons w ws ih =>
    rw [applyAll_cons, ih fun w' hw' => h w' (List.mem_cons_of_mem w hw'), h w List.mem_cons_self]

section Rows

variable {w : Write} {t : Tables}

/-- A write changes name, status, cover and activity of cats, and creates or removes them. -/
theorem mem_cats_apply {c' : Cat} (h : c' ∈ (w.apply t).cats) :
    w = .cat c' ∨ ∃ c ∈ t.cats, c' =
      { c with
        name := c'.name, status := c'.status, primaryPhotoId := c'.primaryPhotoId
        lastUpdateAt := c'.lastUpdateAt } := by
  cases w with
  | cat row =>
    rcases List.mem_append.mp h with h | h
    · exact .inr ⟨c', h, rfl⟩
    · exact .inl (by rw [List.mem_singleton.mp h])
  | touched catId at' | cover catId mediaId | named catId name | retired catId =>
    obtain ⟨c, hc, rfl⟩ := mem_updateWhere.mp h
    refine .inr ⟨c, hc, ?_⟩
    split <;> rfl
  | purged rows at' =>
    obtain ⟨c, hc, rfl⟩ := mem_updateWhere.mp h
    refine .inr ⟨c, (mem_deleteWhere.mp hc).1, ?_⟩
    split <;> rfl
  | _ => exact .inr ⟨c', h, rfl⟩

theorem mem_media_apply {m : Medium} (h : m ∈ (w.apply t).media) : w = .medium m ∨ m ∈ t.media := by
  cases w with
  | medium row =>
    rcases List.mem_append.mp h with h | h
    · exact .inr h
    · exact .inl (by rw [List.mem_singleton.mp h])
  | purged rows at' => exact .inr (mem_deleteWhere.mp h).1
  | _ => exact .inr h

/-- A write other than the creation itself keeps what identifies an update. -/
theorem mem_updates_apply {u' : Update} (h : u' ∈ (w.apply t).updates) :
    (∃ arg, w = .update arg ∧ u' = arg.insert t.updatesSeq) ∨
      (∃ arg, w = .reassigned arg ∧ u'.id = arg.id ∧ ∃ u ∈ t.updates, u.id = arg.id) ∨
      ∃ u ∈ t.updates, u' =
        { u with
          comment := u'.comment, updatedAt := u'.updatedAt, needsHelp := u'.needsHelp
          needsHelpExpiresAt := u'.needsHelpExpiresAt, needsHelpCategory := u'.needsHelpCategory
          deletedAt := u'.deletedAt } := by
  cases w with
  | update arg =>
    rcases List.mem_append.mp h with h | h
    · exact .inr (.inr ⟨u', h, rfl⟩)
    · exact .inl ⟨arg, rfl, List.mem_singleton.mp h⟩
  | reassigned arg =>
    obtain ⟨u, hu, rfl⟩ := mem_updateWhere.mp h
    by_cases hid : u.id = arg.id
    · refine .inr (.inl ⟨arg, rfl, ?_, u, hu, hid⟩)
      rw [if_pos (beq_iff_eq.mpr hid)]
      exact hid
    · refine .inr (.inr ⟨u, hu, ?_⟩)
      rw [if_neg (fun heq => hid (beq_iff_eq.mp heq))]
  | corrected arg | hidden updateId at' =>
    obtain ⟨u, hu, rfl⟩ := mem_updateWhere.mp h
    refine .inr (.inr ⟨u, hu, ?_⟩)
    split <;> rfl
  | purged rows at' => exact .inr (.inr ⟨u', (mem_deleteWhere.mp h).1, rfl⟩)
  | _ => exact .inr (.inr ⟨u', h, rfl⟩)

theorem mem_outbox_apply {o' : NotificationOutbox} (h : o' ∈ (w.apply t).notificationOutbox) :
    (∃ rows, w = .outbox rows ∧ o' ∈ rows) ∨
      ∃ o ∈ t.notificationOutbox, o' = { o with processedAt := o'.processedAt } := by
  cases w with
  | outbox rows =>
    rcases List.mem_append.mp h with h | h
    · exact .inr ⟨o', h, rfl⟩
    · exact .inl ⟨rows, rfl, h⟩
  | processed id at' =>
    obtain ⟨o, ho, rfl⟩ := mem_updateWhere.mp h
    refine .inr ⟨o, ho, ?_⟩
    split <;> rfl
  | purged rows at' => exact .inr ⟨o', (mem_deleteWhere.mp h).1, rfl⟩
  | _ => exact .inr ⟨o', h, rfl⟩

end Rows

end Tekir.ContentWrites
