import Tekir.CatServices

/-!
# Follow, report and notification services

`FollowsService`, `ReportsService`, `NotificationService` and
`NotificationInboxService`.
-/
namespace Tekir.SocialServices
open Table Schema Statements AccountQueries CatQueries UpdateQueries NotificationQueries
  Environment

def follow (catId : Option UUID) (userId : UUID) (deviceId : Option UUID) (w : World) :
    Except Error Unit × World :=
  match catId with
  | none => (.error .invalidCatID, w)
  | some cat =>
    if catExists cat (some userId) w.db then w.run (createFollow userId deviceId cat w.db)
    else (.error .catNotFound, w)

def unfollow (catId : Option UUID) (userId : UUID) (w : World) : Except Error Unit × World :=
  match catId with
  | none => (.error .invalidCatID, w)
  | some cat =>
    if catExists cat (some userId) w.db then w.run (deleteFollow userId cat w.db)
    else (.error .catNotFound, w)

def targetExists (targetType : TargetType) (targetId reporterUserId : UUID) (db : Database) : Bool :=
  match targetType with
  | .cat => catExists targetId (some reporterUserId) db
  | .update => updateExists targetId db
  | .media => (getMediaByID targetId db).isOk

/-- The checks of `ReportsService.Create`, up to the write. -/
def prepareReport (env : Env) (reporterUserId : UUID) (targetType : String)
    (targetId : Option UUID) (reason : String) (note : Option String) (db : Database) :
    Except Error Report :=
  match reportTargetType targetType, targetId, reportReason reason with
  | none, _, _ => .error .invalidReportTargetType
  | some _, none, _ => .error .invalidReportTargetID
  | some _, some _, none => .error .invalidReportReason
  | some type, some target, some reason =>
    let trimmedNote := note.elim "" trimSpace
    if reason = .other ∧ trimmedNote = "" then .error .reportNoteRequired
    else if !targetExists type target reporterUserId db then .error .reportTargetNotFound
    else .ok {
      id := env.uuid 0, reporterUserId, targetType := type, targetId := target, reason
      note := if trimmedNote = "" then none else some trimmedNote, createdAt := env.now }

/-- A duplicate of an open report answers with that report. -/
def createReport (env : Env) (reporterUserId : UUID) (targetType : String)
    (targetId : Option UUID) (reason : String) (note : Option String) (w : World) :
    Except Error Report × World :=
  match prepareReport env reporterUserId targetType targetId reason note w.db with
  | .error e => (.error e, w)
  | .ok row =>
    match UpdateQueries.createReport row w.db with
    | .ok (row, db) => (.ok row, { w with db })
    | .error .noRows =>
      (getOpenReportByReporterAndTarget row.reporterUserId row.targetType row.targetId w.db, w)
    | .error e => (.error e, w)

/-- Run `f` on each element in order, up to the first error. -/
def forEach {α σ : Type} (f : α → σ → Except Error Unit × σ) : List α → σ → Except Error Unit × σ
  | [], s => (.ok (), s)
  | a :: as, s =>
    match f a s with
    | (.ok (), s) => forEach f as s
    | (.error e, s) => (.error e, s)

theorem forEach_induct {α σ : Type} {f : α → σ → Except Error Unit × σ} {I : σ → Prop}
    {as : List α} (step : ∀ a ∈ as, ∀ s, I s → I (f a s).2) {s : σ} (hs : I s) :
    I (forEach f as s).2 := by
  induction as generalizing s with
  | nil => exact hs
  | cons a as ih =>
    have h := step a List.mem_cons_self s hs
    rw [forEach]
    split
    · rename_i t hft
      rw [hft] at h
      exact ih (fun b hb => step b (List.mem_cons_of_mem _ hb)) h
    · rename_i e t hft
      rw [hft] at h
      exact h

/-- The state of one dispatch transaction: `drawn` counts the identifiers generated so far. -/
structure Dispatch where
  db : Database
  drawn : ℕ := 0
  sent : List PushMessage := []

def Dispatch.push (env : Env) (msg : PushMessage) (s : Dispatch) : Except Error Unit × Dispatch :=
  let s := { s with sent := s.sent ++ [msg] }
  match env.send msg with
  | .tokenInvalid =>
    match clearDevicePushToken msg.deviceId (some msg.pushToken) s.db with
    | .error e => (.error e, s)
    | .ok db => (.ok (), { s with db })
  | _ => (.ok (), s)

/-- One recipient: the inbox row first, then the push if there is a token. -/
def Dispatch.deliver (env : Env) (row : ClaimedRow) (rec : Recipient) (s : Dispatch) :
    Except Error Unit × Dispatch :=
  match createNotification (env.uuid s.drawn) rec.deviceId row.catId row.updateId env.now s.db with
  | .error .noRows => (.ok (), { s with drawn := s.drawn + 1 })
  | .error e => (.error e, { s with drawn := s.drawn + 1 })
  | .ok (_, db) =>
    let s := { s with db, drawn := s.drawn + 1 }
    match rec.pushToken with
    | none => (.ok (), s)
    | some token =>
      if token = "" then (.ok (), s)
      else s.push env { deviceId := rec.deviceId, pushToken := token
                        catId := row.catId, updateId := row.updateId }

def dispatchNeedsHelp (env : Env) (row : ClaimedRow) (s : Dispatch) :
    Except Error Unit × Dispatch :=
  forEach (Dispatch.deliver env row)
    (listNeedsHelpRecipientDevices row.catId row.authorUserId s.db) s

def Dispatch.markProcessed (env : Env) (row : ClaimedRow) (s : Dispatch) :
    Except Error Unit × Dispatch :=
  match markNotificationOutboxProcessed env.clock row.id s.db with
  | .error e => (.error e, s)
  | .ok db => (.ok (), { s with db })

def dispatchRow (env : Env) (row : ClaimedRow) (s : Dispatch) : Except Error Unit × Dispatch :=
  if row.needsHelp && row.needsHelpEligible then
    match dispatchNeedsHelp env row s with
    | (.error e, s) => (.error e, s)
    | (.ok (), s) => s.markProcessed env row
  else s.markProcessed env row

/-- A rollback undoes the rows but not the pushes that were made. -/
def dispatchPending (cfg : Config) (env : Env) (w : World) : Except Error ℕ × World :=
  let rows := claimNotificationOutboxBatch cfg.batchSize w.db
  match forEach (dispatchRow env) rows { db := w.db } with
  | (.ok (), s) => (.ok rows.length, { w with db := s.db, sent := w.sent ++ s.sent })
  | (.error e, s) => (.error e, { w with sent := w.sent ++ s.sent })

def markRead (env : Env) (userId : UUID) (id : Option UUID) (w : World) :
    Except Error Unit × World :=
  match id with
  | none => (.error .invalidNotificationID, w)
  | some n => w.run (markNotificationRead env.clock n userId w.db)

end Tekir.SocialServices
