import Tekir.ArchiveEffects
import Tekir.MediaProcessing
import Tekir.ModerationReply

/-!
# The moderation gate

The services that publish names, comments and media, with the bytes of what they store and
everything they ask of the moderator and the frame extractor. Nothing is written before it was
allowed, and a refusal writes nothing.
-/
namespace Tekir.ModerationGate
open Machine Table Schema Statements AccountQueries CatQueries UpdateQueries Environment
  CatServices MediaProcessing ArchiveEffects
open VideoDuration (ProcessedMedia Pipeline)
open Store (CreateOrdinaryUpdateParams CorrectOwnUpdateParams)

/-- What was asked of the moderator or the frame extractor, and the answer. -/
inductive Event
  | text (text : String) (verdict : Except Error Bool)
  | image (contentType : String) (data : List UInt8) (verdict : Except Error Bool)
  | sheet (video : List UInt8) (extension : String) (result : Except Error (List UInt8))

/-- A rejection or an error. -/
def Event.refuses : Event → Bool
  | .text _ (.ok true) | .image _ _ (.ok true) | .sheet _ _ (.ok _) => false
  | _ => true

structure Object where
  key : String
  contentType : String
  data : List UInt8

structure State where
  db : Database
  objects : List Object := []
  events : List Event := []

/-- What one call draws from outside. -/
structure Outside where
  env : Env
  moderateImage : String → List UInt8 → Except Error Bool
  extractContactSheet : List UInt8 → String → Except Error (List UInt8)

structure Wiring extends Config where
  codecs : Codecs
  maxBytes : ℤ
  maxVideoBytes : ℤ

/-- `WithCatsMediaPipeline`: a cat's own photo is never a video. -/
def Wiring.catsPipeline (wiring : Wiring) : Pipeline :=
  ⟨wiring.maxBytes, 0⟩

def Wiring.mediaPipeline (wiring : Wiring) : Pipeline :=
  ⟨wiring.maxBytes, wiring.maxVideoBytes⟩

/-- A call of a service, which keeps what it did when it fails. -/
abbrev Service (α : Type) := ExceptT Error (StateM State) α

def Service.run {α : Type} (x : Service α) (s : State) : Except Error α × State :=
  StateT.run (ExceptT.run x) s

/-- A computation that asks nobody and writes nothing. -/
def lift {α : Type} (x : Except Error α) : Service α :=
  ExceptT.mk (pure x)

def note (e : Event) : Service Unit :=
  modify fun s => { s with events := s.events ++ [e] }

/-- What the services make of a verdict. -/
def allowed (verdict : Except Error Bool) : Except Error Unit := do
  if ← verdict then return () else .error .contentRejected

section Moderation

variable (out : Outside)

def moderateText (text : String) : Service Unit := do
  note (.text text (out.env.moderateText text))
  lift (allowed (out.env.moderateText text))

def moderateOptionalText (comment : Option String) : Service Unit :=
  match comment with
  | none => pure ()
  | some c => if trimSpace c = "" then pure () else moderateText out (trimSpace c)

def moderateImage (contentType : String) (data : List UInt8) : Service Unit := do
  note (.image contentType data (out.moderateImage contentType data))
  lift (allowed (out.moderateImage contentType data))

/-- `MediaService.moderate`: a video is judged by its contact sheet. -/
def moderate (processed : ProcessedMedia) : Service Unit :=
  if isVideo processed.contentType then do
    note (.sheet processed.data processed.extension
      (out.extractContactSheet processed.data processed.extension))
    match out.extractContactSheet processed.data processed.extension with
    | .error _ => lift (.error .moderationUnavailable)
    | .ok sheet => moderateImage out "image/jpeg" sheet
  else moderateImage out processed.contentType processed.data

/-- The two calls run side by side, so both are made whatever the other says; the verdict on the
image comes first. -/
def moderateCreate (processed : ProcessedMedia) (name : Option String) : Service Unit := do
  let image := out.moderateImage processed.contentType processed.data
  note (.image processed.contentType processed.data image)
  match name with
  | none => lift (allowed image)
  | some name =>
    if trimSpace name = "" then lift (allowed image)
    else do
      let text := out.env.moderateText (trimSpace name)
      note (.text (trimSpace name) text)
      lift (allowed image)
      lift (allowed text)

end Moderation

section Services

variable (wiring : Wiring) (out : Outside)

/-- `mediaPipeline.upload`. A stored key is overwritten. -/
def put (processed : ProcessedMedia) : Service String := do
  let url ← lift out.env.put
  modify fun s => { s with
    objects := s.objects.filter (fun o => o.key != out.env.objectKey) ++
      [⟨out.env.objectKey, processed.contentType, processed.data⟩] }
  return url

/-- `ObjectStore.Delete`; a delete that fails is logged. -/
def deleteObject (key : String) : Service Unit :=
  modify fun s =>
    if out.env.deletes key then { s with objects := s.objects.filter fun o => o.key != key } else s

def commit (db : Database) : Service Unit :=
  modify fun s => { s with db }

/-- What `Create` checks before anyone is asked. -/
def checkCreate (req : CreateRequest) (photo : List UInt8) (db : Database) :
    Except Error ProcessedMedia :=
  if !withinIstanbul req.area then .error .invalidArea
  else if photo.isEmpty then .error .missingPhoto
  else if !req.confirmedNew && !(duplicateCandidates wiring.toConfig req db).isEmpty then
    .error (.duplicateCandidates (duplicateCandidates wiring.toConfig req db))
  else process wiring.codecs wiring.catsPipeline photo

/-- `Create` up to the upload. -/
def reviewCreate (req : CreateRequest) (photo : List UInt8) (db : Database) :
    Service ProcessedMedia := do
  let processed ← lift (checkCreate wiring req photo db)
  moderateCreate out processed req.name
  return processed

/-- The upload and the rows, or the compensation: the object is deleted again, whatever the
failure. -/
def publish {ρ β : Type} (processed : ProcessedMedia) (write : String → Except Error (ρ × Database))
    (recover : Error → Except Error β) (answer : String → ρ → β) : Service β := do
  let url ← put out processed
  match write url with
  | .error e => do
    deleteObject out out.env.objectKey
    lift (recover e)
  | .ok (row, db) => do
    commit db
    return answer url row

def publishCat (req : CreateRequest) (processed : ProcessedMedia) (db : Database) :
    Service CatDetail :=
  publish out processed
    (fun url =>
      Store.createCatWithMedia (out.env.uuid 2) out.env.now
        { id := out.env.uuid 0, objectKey := out.env.objectKey, url
          contentType := storedAs processed.contentType
          uploadedByUserId := req.userId, uploadedByDeviceId := req.deviceId }
        { id := out.env.uuid 1, name := req.name, area := req.area, createdByUserId := req.userId
          createdByDeviceId := req.deviceId, idempotencyKey := req.idempotencyKey } db)
    (fun e =>
      if e = .noRows ∧ req.idempotencyKey.isSome then earlierCat out.env req db else .error e)
    fun url row =>
      { id := row.cat.id, name := row.cat.name.getD "", area := row.cat.area
        areaLabel := row.cat.areaLabel, primaryPhoto := some url
        createdAt := row.cat.createdAt, lastUpdateAt := row.cat.lastUpdateAt }

def create (req : CreateRequest) (photo : List UInt8) : Service CatDetail := do
  let s ← get
  match earlierCat out.env req s.db with
  | .ok existing => return existing
  | .error .noRows => do
    let processed ← reviewCreate wiring out req photo s.db
    publishCat out req processed s.db
  | .error e => lift (.error e)

/-- The checks of `RenameCat`. -/
def reviewRename (id caller : UUID) (name : String) (db : Database) : Service String := do
  let _ ← lift (ownedCat id caller db)
  if trimSpace name = "" then lift (.error .invalidCatName)
  else do
    moderateText out (trimSpace name)
    return trimSpace name

def renameCat (id caller : UUID) (name : String) : Service CatDetail := do
  let s ← get
  let trimmed ← reviewRename out id caller name s.db
  let db ← lift (updateCatName trimmed id s.db)
  commit db
  lift (getCatDetail out.env.clock id (some caller) db)

/-- The checks of `CreateOrdinaryUpdate`, up to the write. -/
def reviewOrdinaryUpdate (req : OrdinaryUpdateRequest) (catId : UUID) (db : Database) :
    Service (CreateOrdinaryUpdateParams × Option Medium) := do
  let statuses ← lift (validateStatusSet req.statuses req.needsHelp)
  lift (validateHelpNote req.needsHelp req.comment)
  moderateOptionalText out req.comment
  if catExists catId (some req.userId) db then do
    let media ← lift (resolveOwnMedia req.mediaId req.userId db)
    return (UpdateCreation.ordinaryParams out.env req catId statuses media, media)
  else lift (.error .catNotFound)

def createOrdinaryUpdate (req : OrdinaryUpdateRequest) : Service CatUpdate :=
  match req.catId with
  | none => lift (.error .invalidCatID)
  | some catId => do
    let s ← get
    match earlierUpdate out.env req s.db with
    | .ok existing => return existing
    | .error .noRows => do
      let (params, media) ← reviewOrdinaryUpdate out req catId s.db
      match Store.createOrdinaryUpdate (out.env.uuid 1) (out.env.uuid 2) out.env.now params
          s.db with
      | .error e => lift (recoverOrdinaryUpdate out.env req e s.db)
      | .ok (id, db) => do
        commit db
        lift (ordinaryUpdateResult out.env req params.statuses media id db)
    | .error e => lift (.error e)

/-- The checks of the compatibility endpoint, up to the write. -/
def reviewNeedsHelpUpdate (catId : Option UUID) (userId : UUID) (deviceId : Option UUID)
    (category : String) (comment : Option String) (db : Database) :
    Service (CreateOrdinaryUpdateParams × Category) :=
  match catId, needsHelpCategory category with
  | none, _ => lift (.error .invalidCatID)
  | some _, none => lift (.error .invalidNeedsHelpCategory)
  | some catId, some c => do
    lift (validateNeedsHelpNote comment)
    moderateOptionalText out comment
    if catExists catId (some userId) db then
      return (UpdateCreation.needsHelpParams out.env catId userId deviceId c comment, c)
    else lift (.error .catNotFound)

def createNeedsHelpUpdate (catId : Option UUID) (userId : UUID) (deviceId : Option UUID)
    (category : String) (comment : Option String) : Service CatUpdate := do
  let s ← get
  let (params, c) ← reviewNeedsHelpUpdate out catId userId deviceId category comment s.db
  let (id, db) ← lift (Store.createOrdinaryUpdate (out.env.uuid 1) (out.env.uuid 2) out.env.now
    params s.db)
  commit db
  lift (needsHelpResult out.env userId comment c id db)

/-- A comment is judged only when the correction sets it. -/
def moderateCorrection (correction : UpdateCorrection) : Service Unit :=
  if correction.setComment then moderateOptionalText out correction.comment else pure ()

/-- The checks of `CorrectOwnUpdate`. -/
def reviewCorrection (catId updateId : Option UUID) (userId : UUID)
    (correction : UpdateCorrection) : Service CorrectOwnUpdateParams :=
  match catId, updateId with
  | none, _ => lift (.error .invalidCatID)
  | some _, none => lift (.error .updateNotFound)
  | some catId, some updateId => do
    let statuses ← lift correction.parsed
    moderateCorrection out correction
    return {
      id := updateId, catId, authorUserId := userId, setComment := correction.setComment
      comment := correction.comment, updatedAt := out.env.clock
      windowStart := out.env.clock - updateCorrectionWindow
      replaceStatuses := correction.statuses.isSome, statuses := orderStatuses statuses
      clearNeedsHelp := correction.clearNeedsHelp }

def correctOwnUpdate (catId updateId : Option UUID) (userId : UUID)
    (correction : UpdateCorrection) : Service CatUpdate := do
  let s ← get
  let params ← reviewCorrection out catId updateId userId correction
  match Store.correctOwnUpdate params s.db with
  | .ok ((row, statuses), db) => do
    commit db
    return correctionResult out.env row statuses
  | .error .noRows => do
    lift (resolveCorrectionFailure params.catId params.id userId params.windowStart true s.db)
    lift (.error .updateNotFound)
  | .error e => lift (.error e)

/-- The checks of `Upload`. -/
def reviewUpload (raw : List UInt8) : Service ProcessedMedia := do
  let processed ← lift (process wiring.codecs wiring.mediaPipeline raw)
  moderate out processed
  return processed

def publishMedia (userId : UUID) (deviceId : Option UUID) (idempotencyKey : Option String)
    (muted : Bool) (processed : ProcessedMedia) (db : Database) : Service Media :=
  publish out processed
    (fun url =>
      createMedia
        { id := out.env.uuid 0, objectKey := out.env.objectKey, url
          contentType := storedAs processed.contentType, uploadedByUserId := userId
          uploadedByDeviceId := deviceId, idempotencyKey, muted } db)
    (fun e =>
      if e = .noRows ∧ idempotencyKey.isSome then earlierMedia userId idempotencyKey db
      else .error e)
    fun _ row => toMedia row

def upload (userId : UUID) (deviceId : Option UUID) (idempotencyKey : Option String)
    (muted : Bool) (raw : List UInt8) : Service Media := do
  let s ← get
  match earlierMedia userId idempotencyKey s.db with
  | .ok existing => return existing
  | .error .noRows => do
    let processed ← reviewUpload wiring out raw
    publishMedia out userId deviceId idempotencyKey muted processed s.db
  | .error e => lift (.error e)

end Services

inductive Op
  | create (req : CreateRequest) (photo : List UInt8)
  | renameCat (id caller : UUID) (name : String)
  | createOrdinaryUpdate (req : OrdinaryUpdateRequest)
  | createNeedsHelpUpdate (catId : Option UUID) (userId : UUID) (deviceId : Option UUID)
      (category : String) (comment : Option String)
  | correctOwnUpdate (catId updateId : Option UUID) (userId : UUID) (correction : UpdateCorrection)
  | upload (userId : UUID) (deviceId : Option UUID) (idempotencyKey : Option String) (muted : Bool)
      (raw : List UInt8)

structure Request where
  out : Outside
  op : Op

def serve (wiring : Wiring) (r : Request) (s : State) : State :=
  match r.op with
  | .create req photo => ((create wiring r.out req photo).run s).2
  | .renameCat id caller name => ((renameCat r.out id caller name).run s).2
  | .createOrdinaryUpdate req => ((createOrdinaryUpdate r.out req).run s).2
  | .createNeedsHelpUpdate catId userId deviceId category comment =>
    ((createNeedsHelpUpdate r.out catId userId deviceId category comment).run s).2
  | .correctOwnUpdate catId updateId userId correction =>
    ((correctOwnUpdate r.out catId updateId userId correction).run s).2
  | .upload userId deviceId idempotencyKey muted raw =>
    ((upload wiring r.out userId deviceId idempotencyKey muted raw).run s).2

/-- No call is refused beforehand. -/
def next (wiring : Wiring) (s : State) (r : Request) : Option State :=
  some (serve wiring r s)

/-- Before the first call nothing public needed a verdict. -/
structure Start (s : State) : Prop where
  names : ∀ c ∈ s.db.tables.cats, ∀ name ∈ c.name, trimSpace name = ""
  comments : ∀ u ∈ s.db.tables.updates, ∀ comment ∈ u.comment, trimSpace comment = ""
  objects : s.objects = []
  events : s.events = []

/-- Blank, or allowed in its trimmed form. -/
def Cleared (events : List Event) (text : String) : Prop :=
  trimSpace text = "" ∨ .text (trimSpace text) (.ok true) ∈ events

def AllCleared (events : List Event) (text : Option String) : Prop :=
  ∀ t ∈ text, Cleared events t

/-- The image was allowed, or the contact sheet of exactly this video. -/
def Object.Reviewed (events : List Event) (o : Object) : Prop :=
  if isVideo o.contentType then
    ∃ extension sheet, .sheet o.data extension (.ok sheet) ∈ events ∧
      .image "image/jpeg" sheet (.ok true) ∈ events
  else .image o.contentType o.data (.ok true) ∈ events

theorem trimSpace_idem (s : String) : trimSpace (trimSpace s) = trimSpace s := by
  have h := ModerationReply.trimChars_idem s.toList
  unfold ModerationReply.trimChars List.rdropWhile at h
  unfold trimSpace
  rw [String.toList_ofList, h]

theorem Object.Reviewed.append {events more : List Event} {o : Object} (h : o.Reviewed events) :
    o.Reviewed (events ++ more) := by
  unfold Object.Reviewed at h ⊢
  split
  · rename_i hvideo
    rw [if_pos hvideo] at h
    obtain ⟨extension, sheet, hsheet, himage⟩ := h
    exact ⟨extension, sheet, List.mem_append_left more hsheet, List.mem_append_left more himage⟩
  · rename_i hphoto
    rw [if_neg hphoto] at h
    exact List.mem_append_left more h

/-- Everything public was allowed. -/
structure Reviewed (s : State) : Prop where
  names : ∀ c ∈ s.db.tables.cats, AllCleared s.events c.name
  comments : ∀ u ∈ s.db.tables.updates, AllCleared s.events u.comment
  objects : ∀ o ∈ s.objects, o.Reviewed s.events

/-- Every text was there before, or these events allow it. -/
structure TextsBacked (t t' : Tables) (new : List Event) : Prop where
  names : ∀ c' ∈ t'.cats, (∃ c ∈ t.cats, c.name = c'.name) ∨ AllCleared new c'.name
  comments : ∀ u' ∈ t'.updates,
    (∃ u ∈ t.updates, u.comment = u'.comment) ∨ AllCleared new u'.comment

/-- And so was every object. -/
structure Backed (s s' : State) (new : List Event) : Prop where
  texts : TextsBacked s.db.tables s'.db.tables new
  objects : ∀ o ∈ s'.objects, o ∈ s.objects ∨ o.Reviewed new

/-- One call: a refusal leaves the database and the objects as they were. -/
def Gated (s s' : State) : Prop :=
  ∃ new, s'.events = s.events ++ new ∧
    ((∃ e ∈ new, e.refuses = true) → s'.db = s.db ∧ s'.objects = s.objects) ∧ Backed s s' new

section Runs

variable {α β : Type} {s : State}

@[simp] theorem run_pure (a : α) : (pure a : Service α).run s = (.ok a, s) := rfl

@[simp] theorem run_lift (x : Except Error α) : (lift x).run s = (x, s) := rfl

@[simp] theorem run_get : (get : Service State).run s = (.ok s, s) := rfl

@[simp] theorem run_note (e : Event) :
    (note e).run s = (.ok (), { s with events := s.events ++ [e] }) := rfl

@[simp] theorem run_commit (db : Database) : (commit db).run s = (.ok (), { s with db }) := rfl

theorem run_bind (x : Service α) (f : α → Service β) : (x >>= f).run s =
    match x.run s with
    | (.ok a, s') => (f a).run s'
    | (.error e, s') => (.error e, s') := by
  change (StateT.bind (ExceptT.run x) (ExceptT.bindCont f)) s = _
  unfold StateT.bind Service.run
  cases h : StateT.run (ExceptT.run x) s with
  | mk result s' =>
    change (ExceptT.run x) s = (result, s') at h
    simp only [h]
    cases result <;> rfl

/-- It writes nothing and answers `v`; if it succeeds, nobody refused, and `Q` holds of what was
asked. -/
def Reviews (x : Service α) (v : Except Error α) (Q : α → List Event → Prop) : Prop :=
  ∀ s, ∃ new, x.run s = (v, { s with events := s.events ++ new }) ∧
    ∀ a, v = .ok a → (∀ e ∈ new, e.refuses = false) ∧ Q a new

theorem Reviews.mono {x : Service α} {v : Except Error α} {Q R : α → List Event → Prop}
    (h : Reviews x v Q) (hQ : ∀ a new, v = .ok a → Q a new → R a new) : Reviews x v R := by
  intro s
  obtain ⟨new, hrun, hok⟩ := h s
  exact ⟨new, hrun, fun a ha => ⟨(hok a ha).1, hQ a new ha (hok a ha).2⟩⟩

theorem reviews_lift (v : Except Error α) : Reviews (lift v) v fun _ _ => True := by
  intro s
  exact ⟨[], by simp, fun _ _ => by simp⟩

/-- A check before the rest. -/
theorem reviews_lift_bind {v : Except Error α} {f : α → Service β} {g : α → Except Error β}
    {Q : β → List Event → Prop} (h : ∀ a, v = .ok a → Reviews (f a) (g a) Q) :
    Reviews (lift v >>= f) (v >>= g) Q := by
  intro s
  rw [run_bind, run_lift]
  cases v with
  | error e => exact ⟨[], by simp [bind, Except.bind], fun a ha => by cases ha⟩
  | ok a => exact h a rfl s

/-- One review after the other. -/
theorem reviews_seq {x : Service Unit} {v : Except Error Unit} {P : Unit → List Event → Prop}
    {y : Service β} {w : Except Error β} {Q : β → List Event → Prop} (hx : Reviews x v P)
    (hy : Reviews y w fun _ _ => True)
    (hQ : ∀ b new more, P () new → w = .ok b → Q b (new ++ more)) :
    Reviews (x >>= fun _ => y) (v >>= fun _ => w) Q := by
  intro s
  obtain ⟨new, hrun, hok⟩ := hx s
  rw [run_bind, hrun]
  cases v with
  | error e => exact ⟨new, rfl, fun a ha => by cases ha⟩
  | ok u =>
    obtain ⟨more, hmore, hdone⟩ := hy { s with events := s.events ++ new }
    refine ⟨new ++ more, ?_, fun b hb => ⟨?_, ?_⟩⟩
    · simpa [bind, Except.bind] using hmore
    · intro e he
      rcases List.mem_append.mp he with he | he
      · exact (hok u rfl).1 e he
      · exact (hdone b hb).1 e he
    · exact hQ b new more (hok u rfl).2 hb

end Runs

section Reviews

variable (wiring : Wiring) (out : Outside)

theorem allowed_eq_ok {verdict : Except Error Bool} (h : allowed verdict = .ok ()) :
    verdict = .ok true := by
  obtain ⟨b, rfl, h⟩ := bind_eq_ok.mp h
  cases b with
  | true => rfl
  | false => cases h

theorem reviews_moderateText (text : String) :
    Reviews (moderateText out text) (CatServices.moderateText out.env text)
      fun _ new => .text text (.ok true) ∈ new := by
  intro s
  refine ⟨[.text text (out.env.moderateText text)], ?_, fun _ hok => ?_⟩
  · unfold moderateText
    rw [run_bind, run_note]
    rfl
  · have hverdict := allowed_eq_ok hok
    rw [hverdict]
    simp [Event.refuses]

theorem reviews_moderateOptionalText (comment : Option String) :
    Reviews (moderateOptionalText out comment) (CatServices.moderateOptionalText out.env comment)
      fun _ new => AllCleared new comment := by
  cases comment with
  | none =>
    intro s
    exact ⟨[], by simp [moderateOptionalText, CatServices.moderateOptionalText],
      fun _ _ => by simp [AllCleared]⟩
  | some c =>
    unfold moderateOptionalText CatServices.moderateOptionalText
    dsimp only
    split
    · rename_i hblank
      intro s
      exact ⟨[], by simp, fun _ _ => by simp [AllCleared, Cleared, hblank]⟩
    · refine (reviews_moderateText out (trimSpace c)).mono fun _ new _ hnew => ?_
      intro t ht
      cases ht
      exact .inr hnew

theorem reviews_moderateImage (contentType : String) (data : List UInt8) :
    Reviews (moderateImage out contentType data) (allowed (out.moderateImage contentType data))
      fun _ new => .image contentType data (.ok true) ∈ new := by
  intro s
  refine ⟨[.image contentType data (out.moderateImage contentType data)], ?_, fun _ hok => ?_⟩
  · unfold moderateImage
    rw [run_bind, run_note]
    rfl
  · have hverdict := allowed_eq_ok hok
    rw [hverdict]
    simp [Event.refuses]

/-- The verdict on an upload. -/
def verdict (out : Outside) (processed : ProcessedMedia) : Except Error Bool :=
  if isVideo processed.contentType then
    match out.extractContactSheet processed.data processed.extension with
    | .error _ => .error .moderationUnavailable
    | .ok sheet => out.moderateImage "image/jpeg" sheet
  else out.moderateImage processed.contentType processed.data

theorem reviews_moderate (processed : ProcessedMedia) (key : String) :
    Reviews (moderate out processed) (allowed (verdict out processed))
      fun _ new => Object.Reviewed new ⟨key, processed.contentType, processed.data⟩ := by
  unfold moderate verdict Object.Reviewed
  split
  · intro s
    rw [run_bind, run_note]
    dsimp only
    cases hsheet : out.extractContactSheet processed.data processed.extension with
    | error e => exact ⟨[.sheet processed.data processed.extension (.error e)], rfl,
        fun _ hok => by cases hok⟩
    | ok sheet =>
      obtain ⟨new, hrun, hok⟩ := reviews_moderateImage out "image/jpeg" sheet
        { s with events := s.events ++ [.sheet processed.data processed.extension (.ok sheet)] }
      refine ⟨.sheet processed.data processed.extension (.ok sheet) :: new, ?_, fun u hu => ?_⟩
      · simpa using hrun
      · obtain ⟨hnone, himage⟩ := hok u hu
        refine ⟨fun e he => ?_, ?_⟩
        · rcases List.mem_cons.mp he with rfl | he
          · rfl
          · exact hnone e he
        · exact ⟨processed.extension, sheet, List.mem_cons_self, List.mem_cons_of_mem _ himage⟩
  · exact reviews_moderateImage out processed.contentType processed.data

theorem reviews_moderateCreate (processed : ProcessedMedia) (name : Option String) :
    Reviews (moderateCreate out processed name)
      (allowed (out.moderateImage processed.contentType processed.data) >>= fun _ =>
        CatServices.moderateOptionalText out.env name)
      fun _ new => .image processed.contentType processed.data (.ok true) ∈ new ∧
        AllCleared new name := by
  have hnone : ∀ {name : Option String}, (∀ t ∈ name, trimSpace t = "") →
      CatServices.moderateOptionalText out.env name = .ok () →
      Reviews
        (note (.image processed.contentType processed.data
          (out.moderateImage processed.contentType processed.data)) >>= fun _ =>
            lift (allowed (out.moderateImage processed.contentType processed.data)))
        (allowed (out.moderateImage processed.contentType processed.data) >>= fun _ =>
          CatServices.moderateOptionalText out.env name)
        fun _ new => .image processed.contentType processed.data (.ok true) ∈ new ∧
          AllCleared new name := by
    intro name hblank hskips
    rw [hskips]
    have h := reviews_moderateImage out processed.contentType processed.data
    unfold moderateImage at h
    have hpure : (allowed (out.moderateImage processed.contentType processed.data) >>= fun _ =>
        (.ok () : Except Error Unit)) =
        allowed (out.moderateImage processed.contentType processed.data) := by
      cases allowed (out.moderateImage processed.contentType processed.data) <;> rfl
    rw [hpure]
    exact h.mono fun _ new _ hnew => ⟨hnew, fun t ht => .inl (hblank t ht)⟩
  unfold moderateCreate
  cases name with
  | none => exact hnone (by simp) rfl
  | some name =>
    dsimp only
    split
    · rename_i hblank
      exact hnone (by simpa using hblank) (if_pos hblank)
    · rename_i hblank
      intro s
      refine ⟨[.image processed.contentType processed.data
          (out.moderateImage processed.contentType processed.data),
        .text (trimSpace name) (out.env.moderateText (trimSpace name))], ?_, fun _ hok => ?_⟩
      · have htext : CatServices.moderateOptionalText out.env (some name) =
            allowed (out.env.moderateText (trimSpace name)) := if_neg hblank
        rw [htext]
        simp only [run_bind, run_note, run_lift, List.append_assoc, List.singleton_append]
        cases allowed (out.moderateImage processed.contentType processed.data) <;> rfl
      · obtain ⟨_, himage, htext⟩ := bind_eq_ok.mp hok
        have himage := allowed_eq_ok himage
        have htext := allowed_eq_ok ((if_neg hblank).symm.trans htext)
        rw [himage, htext]
        refine ⟨by simp [Event.refuses], by simp, fun t ht => ?_⟩
        cases ht
        exact .inr (by simp)

/-- The object an upload would leave. -/
def object (out : Outside) (m : ProcessedMedia) : Object :=
  ⟨out.env.objectKey, m.contentType, m.data⟩

theorem checkCreate_photo {req : CreateRequest} {photo : List UInt8} {db : Database}
    {m : ProcessedMedia} (h : checkCreate wiring req photo db = .ok m) :
    isVideo m.contentType = false := by
  unfold checkCreate at h
  split at h
  · cases h
  · split at h
    · cases h
    · split at h
      · cases h
      · exact process_photo rfl h

theorem verdict_photo {m : ProcessedMedia} (h : isVideo m.contentType = false) :
    verdict out m = out.moderateImage m.contentType m.data := by
  unfold verdict
  rw [h]
  rfl

theorem reviews_create (req : CreateRequest) (photo : List UInt8) (db : Database) :
    Reviews (reviewCreate wiring out req photo db)
      (checkCreate wiring req photo db >>= fun m =>
        (allowed (verdict out m) >>= fun _ => CatServices.moderateOptionalText out.env req.name) >>=
          fun _ => .ok m)
      fun m new => AllCleared new req.name ∧ (object out m).Reviewed new := by
  refine reviews_lift_bind fun m hm => ?_
  have hvideo := checkCreate_photo wiring hm
  rw [verdict_photo out hvideo]
  refine reviews_seq (reviews_moderateCreate out m req.name) (reviews_lift (.ok m)) ?_
  intro b new more ⟨himage, hname⟩ hb
  cases hb
  refine ⟨fun t ht => (hname t ht).imp_right (List.mem_append_left more), ?_⟩
  unfold Object.Reviewed object
  rw [hvideo]
  exact List.mem_append_left more himage

theorem reviews_rename (id caller : UUID) (name : String) (db : Database) :
    Reviews (reviewRename out id caller name db) (prepareRename out.env id caller name db)
      fun trimmed new => Cleared new trimmed := by
  refine reviews_lift_bind fun _ _ => ?_
  split
  · exact (reviews_lift _).mono fun a new h => by cases h
  · refine reviews_seq (reviews_moderateText out (trimSpace name)) (reviews_lift (.ok _)) ?_
    intro b new more htext hb
    cases hb
    refine .inr ?_
    rw [trimSpace_idem]
    exact List.mem_append_left more htext

theorem AllCleared.append {new more : List Event} {text : Option String} (h : AllCleared new text) :
    AllCleared (new ++ more) text :=
  fun t ht => (h t ht).imp_right (List.mem_append_left more)

theorem reviews_ordinaryUpdate (req : OrdinaryUpdateRequest) (catId : UUID) (db : Database) :
    Reviews (reviewOrdinaryUpdate out req catId db) (prepareOrdinaryUpdate out.env req catId db)
      fun _ new => AllCleared new req.comment := by
  refine reviews_lift_bind fun statuses _ => ?_
  refine reviews_lift_bind fun _ _ => ?_
  have hwrite : Reviews
      (if catExists catId (some req.userId) db then
        lift (resolveOwnMedia req.mediaId req.userId db) >>= fun media =>
          (pure (UpdateCreation.ordinaryParams out.env req catId statuses media, media) :
            Service (CreateOrdinaryUpdateParams × Option Medium))
      else lift (.error .catNotFound))
      (if catExists catId (some req.userId) db then
        resolveOwnMedia req.mediaId req.userId db >>= fun media =>
          .ok (UpdateCreation.ordinaryParams out.env req catId statuses media, media)
      else .error .catNotFound) fun _ _ => True := by
    split
    · exact reviews_lift_bind fun _ _ => reviews_lift (.ok _)
    · exact reviews_lift _
  exact reviews_seq (reviews_moderateOptionalText out req.comment) hwrite
    fun _ _ _ h _ => h.append

theorem reviews_needsHelpUpdate (catId : Option UUID) (userId : UUID) (deviceId : Option UUID)
    (category : String) (comment : Option String) (db : Database) :
    Reviews (reviewNeedsHelpUpdate out catId userId deviceId category comment db)
      (prepareNeedsHelpUpdate out.env catId userId deviceId category comment db)
      fun _ new => AllCleared new comment := by
  unfold reviewNeedsHelpUpdate prepareNeedsHelpUpdate
  cases catId with
  | none => exact (reviews_lift (.error .invalidCatID)).mono fun a new h => by cases h
  | some catId =>
    cases needsHelpCategory category with
    | none => exact (reviews_lift (.error .invalidNeedsHelpCategory)).mono fun a new h => by cases h
    | some c =>
      refine reviews_lift_bind fun _ _ => ?_
      have hwrite : Reviews
          (if catExists catId (some userId) db then
            (pure (UpdateCreation.needsHelpParams out.env catId userId deviceId c comment, c) :
              Service (CreateOrdinaryUpdateParams × Category))
          else lift (.error .catNotFound))
          (if catExists catId (some userId) db then
            .ok (UpdateCreation.needsHelpParams out.env catId userId deviceId c comment, c)
          else .error .catNotFound) fun _ _ => True := by
        split
        · exact reviews_lift (.ok _)
        · exact reviews_lift _
      exact reviews_seq (reviews_moderateOptionalText out comment) hwrite fun _ _ _ h _ => h.append

/-- A correction that sets no comment asks nobody. -/
theorem reviews_correction (catId updateId : Option UUID) (userId : UUID)
    (correction : UpdateCorrection) :
    Reviews (reviewCorrection out catId updateId userId correction)
      (prepareCorrection out.env catId updateId userId correction)
      fun params new => params.setComment = true → AllCleared new params.comment := by
  unfold reviewCorrection prepareCorrection
  split
  · exact (reviews_lift _).mono fun a new h => by cases h
  · exact (reviews_lift _).mono fun a new h => by cases h
  · refine reviews_lift_bind fun statuses _ => ?_
    have hcomment : Reviews (moderateCorrection out correction) (correction.moderate out.env)
        fun _ new => correction.setComment = true → AllCleared new correction.comment := by
      unfold moderateCorrection UpdateCorrection.moderate
      split
      · exact (reviews_moderateOptionalText out correction.comment).mono fun _ _ _ h _ => h
      · rename_i hunset
        exact (reviews_lift (.ok ())).mono fun _ _ _ _ hset => absurd hset hunset
    refine reviews_seq hcomment (reviews_lift (.ok _)) ?_
    intro b new more hset hb
    cases hb
    exact fun h => (hset h).append

theorem reviews_upload (raw : List UInt8) :
    Reviews (reviewUpload wiring out raw)
      (process wiring.codecs wiring.mediaPipeline raw >>= fun m =>
        allowed (verdict out m) >>= fun _ => .ok m)
      fun m new => (object out m).Reviewed new := by
  refine reviews_lift_bind fun m _ => ?_
  refine reviews_seq (reviews_moderate out m out.env.objectKey) (reviews_lift (.ok m)) ?_
  intro b new more hobject hb
  cases hb
  exact hobject.append

end Reviews

section Statements

variable {db db' : Database}

theorem createCatWithMedia_texts {cmId : UUID} {now : Instant} {media : Medium}
    {cat : CreateCatParams} {row : Store.CreateCatWithMediaRow}
    (h : Store.createCatWithMedia cmId now media cat db = .ok (row, db')) :
    db'.tables.updates = db.tables.updates ∧
      ∃ c, c.name = cat.name ∧ db'.tables.cats = db.tables.cats ++ [c] := by
  obtain ⟨⟨m, db₁⟩, hmedia, h⟩ := bind_eq_ok.mp h
  obtain ⟨⟨c, db₂⟩, hcat, h⟩ := bind_eq_ok.mp h
  obtain ⟨⟨cm, db₃⟩, hphoto, h⟩ := bind_eq_ok.mp h
  cases h
  obtain ⟨-, ht₁⟩ := ServiceEffects.createMedia_tables hmedia
  obtain ⟨-, hname, -, -, ht₂⟩ := createCat_row hcat
  obtain ⟨-, ht₃⟩ := createCatMedia_row hphoto
  rw [ht₂, ht₁] at ht₃
  rw [ht₃]
  exact ⟨rfl, c, hname, rfl⟩

/-- The transaction of an update renames no cat and writes one comment. -/
theorem createOrdinaryUpdate_texts {cmId outId id : UUID} {now : Instant}
    {arg : CreateOrdinaryUpdateParams}
    (h : Store.createOrdinaryUpdate cmId outId now arg db = .ok (id, db')) :
    (∀ c' ∈ db'.tables.cats, ∃ c ∈ db.tables.cats, c.name = c'.name) ∧
      ∀ u' ∈ db'.tables.updates,
        (∃ u ∈ db.tables.updates, u.comment = u'.comment) ∨ u'.comment = arg.comment := by
  constructor
  · obtain ⟨⟨id', db₁⟩, hcreate, h⟩ := bind_eq_ok.mp h
    obtain ⟨db₂, hstatuses, h⟩ := bind_eq_ok.mp h
    obtain ⟨db₃, hlast, h⟩ := bind_eq_ok.mp h
    obtain ⟨db₄, hgallery, h⟩ := bind_eq_ok.mp h
    obtain ⟨db₅, houtbox, h⟩ := bind_eq_ok.mp h
    cases h
    obtain ⟨rows, ht₂⟩ := ServiceEffects.statuses_tables hstatuses
    have ht₃ := write_eq_ok.mp hlast
    obtain ⟨links, ht₄⟩ := ServiceEffects.linkGallery_tables hgallery
    have ht₅ := write_eq_ok.mp houtbox
    have hcats₁ : db₁.tables.cats = db.tables.cats := by
      obtain ⟨-, ⟨-, ht₁⟩ | ⟨-, ht₁⟩⟩ := ServiceEffects.createUpdate_cases hcreate
      · rw [ht₁]
      · rw [ht₁]
    have hcats : db'.tables.cats = UpdateCreation.touched arg db.tables.cats := by
      rw [ht₅, ht₄, ht₃, ht₂, ← hcats₁]
      rfl
    intro c' hc'
    rw [hcats] at hc'
    obtain ⟨c, hc, rfl⟩ := mem_updateWhere.mp hc'
    refine ⟨c, hc, ?_⟩
    split <;> rfl
  · obtain ⟨db₁, hcreate, hupdates, -⟩ := store_updates h
    intro u' hu'
    rw [hupdates] at hu'
    obtain ⟨-, ⟨-, ht⟩ | ⟨-, ht⟩⟩ := ServiceEffects.createUpdate_cases hcreate
    · rw [ht] at hu'
      obtain ⟨u, hu, rfl⟩ := mem_updateWhere.mp hu'
      split
      · exact .inr rfl
      · exact .inl ⟨u, hu, rfl⟩
    · rw [ht] at hu'
      rcases List.mem_append.mp hu' with hu' | hu'
      · exact .inl ⟨u', hu', rfl⟩
      · rw [List.mem_singleton.mp hu']
        exact .inr rfl

/-- A correction renames no cat, and writes its comment if it sets one. -/
theorem correctOwnUpdate_texts {arg : CorrectOwnUpdateParams} {r : Update × List Status}
    (h : Store.correctOwnUpdate arg db = .ok (r, db')) :
    db'.tables.cats = db.tables.cats ∧
      ∀ u' ∈ db'.tables.updates, (∃ u ∈ db.tables.updates, u.comment = u'.comment) ∨
        arg.setComment = true ∧ u'.comment = arg.comment := by
  obtain ⟨⟨row, db₁⟩, hcorrect, h⟩ := bind_eq_ok.mp h
  obtain ⟨old, -, hcorrect⟩ := bind_eq_ok.mp hcorrect
  obtain ⟨db₂, hwrite, hcorrect⟩ := bind_eq_ok.mp hcorrect
  cases hcorrect
  have ht := write_eq_ok.mp hwrite
  have hrows : db'.tables.cats = db₁.tables.cats ∧ db'.tables.updates = db₁.tables.updates := by
    dsimp only at h
    split at h
    · obtain ⟨db₃, hreplace, h⟩ := bind_eq_ok.mp h
      cases h
      have hsame := replaceStatuses_untouched hreplace
      exact ⟨hsame.cats, hsame.updates⟩
    · cases h
      exact ⟨rfl, rfl⟩
  rw [hrows.1, hrows.2, ht]
  refine ⟨rfl, fun u' hu' => ?_⟩
  obtain ⟨u, hu, rfl⟩ := mem_updateWhere.mp hu'
  split
  · by_cases hset : arg.setComment = true
    · exact .inr ⟨hset, if_pos hset⟩
    · exact .inl ⟨u, hu, (if_neg hset).symm⟩
  · exact .inl ⟨u, hu, rfl⟩

end Statements

section Publishing

variable {α β : Type} {wiring : Wiring} {out : Outside} {s s' : State} {new : List Event}

theorem TextsBacked.refl (t : Tables) : TextsBacked t t new :=
  ⟨fun c hc => .inl ⟨c, hc, rfl⟩, fun u hu => .inl ⟨u, hu, rfl⟩⟩

theorem backed_of_unchanged (hdb : s'.db = s.db) (hobjects : s'.objects = s.objects) :
    Backed s s' new := by
  refine ⟨?_, fun o ho => .inl ?_⟩
  · rw [hdb]
    exact .refl _
  · rw [← hobjects]
    exact ho

/-- It asks nobody, and what it publishes is backed by earlier events. -/
def Publishes (y : Service β) (s : State) (new : List Event) : Prop :=
  (y.run s).2.events = s.events ∧ Backed s (y.run s).2 new

/-- What is published after a review is gated. -/
theorem gated_of_reviews {x : Service α} {v : Except Error α} {Q : α → List Event → Prop}
    {f : α → Service β} (hx : Reviews x v Q)
    (hf : ∀ a new, v = .ok a → Q a new →
      Publishes (f a) { s with events := s.events ++ new } new) :
    Gated s ((x >>= f).run s).2 := by
  obtain ⟨new, hrun, hok⟩ := hx s
  rw [run_bind, hrun]
  cases v with
  | error e => exact ⟨new, rfl, fun _ => ⟨rfl, rfl⟩, backed_of_unchanged rfl rfl⟩
  | ok a =>
    obtain ⟨hnone, hQ⟩ := hok a rfl
    obtain ⟨hevents, hbacked⟩ := hf a new rfl hQ
    refine ⟨new, hevents, fun ⟨e, he, hrefuses⟩ => ?_, hbacked.texts, hbacked.objects⟩
    rw [hnone e he] at hrefuses
    cases hrefuses

theorem gated_refl (s : State) : Gated s s :=
  ⟨[], by simp, fun _ => ⟨rfl, rfl⟩, backed_of_unchanged rfl rfl⟩

theorem publishes_lift (x : Except Error β) : Publishes (lift x) s new :=
  ⟨rfl, backed_of_unchanged rfl rfl⟩

/-- A transaction, then the answer. -/
theorem publishes_commit {x : Except Error (α × Database)} {answer : α → Database → Except Error β}
    (h : ∀ a db', x = .ok (a, db') → TextsBacked s.db.tables db'.tables new) :
    Publishes (lift x >>= fun r => commit r.2 >>= fun _ => lift (answer r.1 r.2)) s new := by
  unfold Publishes
  rw [run_bind, run_lift]
  cases x with
  | error e => exact ⟨rfl, backed_of_unchanged rfl rfl⟩
  | ok r => exact ⟨rfl, h r.1 r.2 rfl, fun o ho => .inl ho⟩

theorem run_put (m : ProcessedMedia) : (put out m).run s =
    match out.env.put with
    | .error e => (.error e, s)
    | .ok url => (.ok url, { s with
        objects := s.objects.filter (fun o => o.key != out.env.objectKey) ++ [object out m] }) := by
  unfold put
  rw [run_bind, run_lift]
  cases out.env.put <;> rfl

theorem run_deleteObject (key : String) : (deleteObject out key).run s = (.ok (),
    if out.env.deletes key then { s with objects := s.objects.filter fun o => o.key != key }
    else s) := rfl

/-- What is published with an object is backed by the review of the object and of the texts. -/
theorem publishes_publish {m : ProcessedMedia} {write : String → Except Error (α × Database)}
    {recover : Error → Except Error β} {answer : String → α → β}
    (hobject : (object out m).Reviewed new)
    (h : ∀ url a db', write url = .ok (a, db') → TextsBacked s.db.tables db'.tables new) :
    Publishes (publish out m write recover answer) s new := by
  have hadded : ∀ o ∈ s.objects.filter (fun o => o.key != out.env.objectKey) ++ [object out m],
      o ∈ s.objects ∨ o.Reviewed new := by
    intro o ho
    rcases List.mem_append.mp ho with ho | ho
    · exact .inl (List.mem_filter.mp ho).1
    · rw [List.mem_singleton.mp ho]
      exact .inr hobject
  unfold Publishes publish
  rw [run_bind, run_put]
  cases out.env.put with
  | error e => exact ⟨rfl, backed_of_unchanged rfl rfl⟩
  | ok url =>
    dsimp only
    cases hx : write url with
    | error e =>
      dsimp only
      rw [run_bind, run_deleteObject]
      dsimp only
      rw [run_lift]
      split
      · refine ⟨rfl, .refl _, fun o ho => hadded o ?_⟩
        exact (List.mem_filter.mp ho).1
      · exact ⟨rfl, .refl _, hadded⟩
    | ok r => exact ⟨rfl, h url r.1 r.2 hx, hadded⟩

theorem gated_create (req : CreateRequest) (photo : List UInt8) :
    Gated s ((create wiring out req photo).run s).2 := by
  unfold create
  rw [run_bind, run_get]
  dsimp only
  split
  · exact gated_refl s
  · refine gated_of_reviews (reviews_create wiring out req photo s.db)
      fun m new _ ⟨hname, hobject⟩ => ?_
    refine publishes_publish hobject fun url row db' hstore => ?_
    obtain ⟨hupdates, c, hc, hcats⟩ := createCatWithMedia_texts hstore
    refine ⟨fun c' hc' => ?_, fun u hu => .inl ⟨u, hupdates ▸ hu, rfl⟩⟩
    rw [hcats] at hc'
    rcases List.mem_append.mp hc' with hc' | hc'
    · exact .inl ⟨c', hc', rfl⟩
    · rw [List.mem_singleton.mp hc', hc]
      exact .inr hname
  · exact gated_refl s

theorem gated_renameCat (id caller : UUID) (name : String) :
    Gated s ((renameCat out id caller name).run s).2 := by
  unfold renameCat
  rw [run_bind, run_get]
  refine gated_of_reviews (reviews_rename out id caller name s.db) fun trimmed new _ hname => ?_
  unfold Publishes
  rw [run_bind, run_lift]
  cases hwrite : updateCatName trimmed id s.db with
  | error e => exact ⟨rfl, backed_of_unchanged rfl rfl⟩
  | ok db' =>
    refine ⟨rfl, ⟨fun c' hc' => ?_, fun u hu => .inl ⟨u, ?_, rfl⟩⟩, fun o ho => .inl ho⟩
    · have hcats := congrArg Tables.cats (write_eq_ok.mp hwrite)
      have hc' : c' ∈ db'.tables.cats := hc'
      rw [hcats] at hc'
      obtain ⟨c, hc, rfl⟩ := mem_updateWhere.mp hc'
      split
      · refine .inr fun t ht => ?_
        cases ht
        exact hname
      · exact .inl ⟨c, hc, rfl⟩
    · have hupdates := congrArg Tables.updates (write_eq_ok.mp hwrite)
      have hu : u ∈ db'.tables.updates := hu
      rw [hupdates] at hu
      exact hu

/-- The texts of an update's transaction, once its comment is allowed. -/
theorem backed_of_createOrdinaryUpdate {db db' : Database} {cmId outId id : UUID} {now : Instant}
    {arg : CreateOrdinaryUpdateParams}
    (h : Store.createOrdinaryUpdate cmId outId now arg db = .ok (id, db'))
    (hcomment : AllCleared new arg.comment) : TextsBacked db.tables db'.tables new := by
  obtain ⟨hnames, hcomments⟩ := createOrdinaryUpdate_texts h
  refine ⟨fun c hc => .inl (hnames c hc), fun u hu => ?_⟩
  rcases hcomments u hu with hold | hnew
  · exact .inl hold
  · rw [hnew]
    exact .inr hcomment

theorem gated_createOrdinaryUpdate (req : OrdinaryUpdateRequest) :
    Gated s ((createOrdinaryUpdate out req).run s).2 := by
  unfold createOrdinaryUpdate
  split
  · exact gated_refl s
  · rename_i catId _
    rw [run_bind, run_get]
    dsimp only
    split
    · exact gated_refl s
    · refine gated_of_reviews (reviews_ordinaryUpdate out req catId s.db)
        fun r new hprepare hcomment => ?_
      obtain ⟨statuses, -, -, -, hparams⟩ := UpdateCreation.prepareOrdinaryUpdate_eq_ok hprepare
      have hcomment : AllCleared new r.1.comment := by
        rw [hparams]
        exact hcomment
      cases hwrite : Store.createOrdinaryUpdate _ _ _ r.1 s.db with
      | error e => exact publishes_lift _
      | ok written =>
        exact ⟨rfl, backed_of_createOrdinaryUpdate hwrite hcomment, fun o ho => .inl ho⟩
    · exact gated_refl s

theorem gated_createNeedsHelpUpdate (catId : Option UUID) (userId : UUID) (deviceId : Option UUID)
    (category : String) (comment : Option String) :
    Gated s ((createNeedsHelpUpdate out catId userId deviceId category comment).run s).2 := by
  unfold createNeedsHelpUpdate
  rw [run_bind, run_get]
  refine gated_of_reviews (reviews_needsHelpUpdate out catId userId deviceId category comment s.db)
    fun r new hprepare hcomment => ?_
  obtain ⟨cat, -, -, hparams⟩ := UpdateCreation.prepareNeedsHelpUpdate_eq_ok hprepare
  have hcomment : AllCleared new r.1.comment := by
    rw [hparams]
    exact hcomment
  exact publishes_commit fun id db' hwrite => backed_of_createOrdinaryUpdate hwrite hcomment

theorem gated_correctOwnUpdate (catId updateId : Option UUID) (userId : UUID)
    (correction : UpdateCorrection) :
    Gated s ((correctOwnUpdate out catId updateId userId correction).run s).2 := by
  unfold correctOwnUpdate
  rw [run_bind, run_get]
  refine gated_of_reviews (reviews_correction out catId updateId userId correction)
    fun params new _ hcomment => ?_
  cases hwrite : Store.correctOwnUpdate params s.db with
  | ok r =>
    obtain ⟨hcats, hcomments⟩ := correctOwnUpdate_texts hwrite
    refine ⟨rfl, ⟨fun c hc => .inl ⟨c, hcats ▸ hc, rfl⟩, fun u hu => ?_⟩, fun o ho => .inl ho⟩
    rcases hcomments u hu with hold | ⟨hset, hnew⟩
    · exact .inl hold
    · rw [hnew]
      exact .inr (hcomment hset)
  | error e =>
    cases e with
    | noRows =>
      dsimp only
      unfold Publishes
      rw [run_bind, run_lift]
      cases resolveCorrectionFailure params.catId params.id userId params.windowStart true s.db with
      | error e => exact publishes_lift (.error e)
      | ok u => exact publishes_lift (.error .updateNotFound)
    | _ => exact publishes_lift _

theorem gated_upload (userId : UUID) (deviceId : Option UUID) (idempotencyKey : Option String)
    (muted : Bool) (raw : List UInt8) :
    Gated s ((upload wiring out userId deviceId idempotencyKey muted raw).run s).2 := by
  unfold upload
  rw [run_bind, run_get]
  dsimp only
  split
  · exact gated_refl s
  · refine gated_of_reviews (reviews_upload wiring out raw) fun m new _ hobject => ?_
    refine publishes_publish hobject fun url row db' hwrite => ?_
    rw [(ServiceEffects.createMedia_tables hwrite).2]
    exact ⟨fun c hc => .inl ⟨c, hc, rfl⟩, fun u hu => .inl ⟨u, hu, rfl⟩⟩
  · exact gated_refl s

end Publishing

section Runs

variable {wiring : Wiring} {s s' : State}

theorem serve_gated (r : Request) : Gated s (serve wiring r s) := by
  obtain ⟨out, op⟩ := r
  cases op with
  | create req photo => exact gated_create req photo
  | renameCat id caller name => exact gated_renameCat id caller name
  | createOrdinaryUpdate req => exact gated_createOrdinaryUpdate req
  | createNeedsHelpUpdate catId userId deviceId category comment =>
    exact gated_createNeedsHelpUpdate catId userId deviceId category comment
  | correctOwnUpdate catId updateId userId correction =>
    exact gated_correctOwnUpdate catId updateId userId correction
  | upload userId deviceId idempotencyKey muted raw =>
    exact gated_upload userId deviceId idempotencyKey muted raw

theorem Start.reviewed (h : Start s) : Reviewed s where
  names c hc t ht := .inl (h.names c hc t ht)
  comments u hu t ht := .inl (h.comments u hu t ht)
  objects o ho := by
    rw [h.objects] at ho
    cases ho

theorem AllCleared.prepend {old new : List Event} {text : Option String} (h : AllCleared new text) :
    AllCleared (old ++ new) text :=
  fun t ht => (h t ht).imp_right (List.mem_append_right old)

theorem Object.Reviewed.prepend {old new : List Event} {o : Object} (h : o.Reviewed new) :
    o.Reviewed (old ++ new) := by
  unfold Object.Reviewed at h ⊢
  split
  · rename_i hvideo
    rw [if_pos hvideo] at h
    obtain ⟨extension, sheet, hsheet, himage⟩ := h
    exact ⟨extension, sheet, List.mem_append_right old hsheet, List.mem_append_right old himage⟩
  · rename_i hphoto
    rw [if_neg hphoto] at h
    exact List.mem_append_right old h

/-- What was reviewed stays reviewed, and what is new was reviewed in the call. -/
theorem Reviewed.gated (h : Reviewed s) (hs : Gated s s') : Reviewed s' := by
  obtain ⟨new, hevents, -, hbacked⟩ := hs
  constructor
  · intro c' hc'
    rw [hevents]
    rcases hbacked.texts.names c' hc' with ⟨c, hc, hname⟩ | hnew
    · rw [← hname]
      exact (h.names c hc).append
    · exact hnew.prepend
  · intro u' hu'
    rw [hevents]
    rcases hbacked.texts.comments u' hu' with ⟨u, hu, hcomment⟩ | hnew
    · rw [← hcomment]
      exact (h.comments u hu).append
    · exact hnew.prepend
  · intro o ho
    rw [hevents]
    rcases hbacked.objects o ho with hold | hnew
    · exact (h.objects o hold).append
    · exact hnew.prepend

theorem reachable_reviewed (h : Reachable (next wiring) Start s) : Reviewed s := by
  refine Reachable.induct (fun s hs => hs.reviewed) (fun s r t hs ht => ?_) h
  cases ht
  exact hs.gated (serve_gated r)

/-- Everything public was allowed, and a refused call changes neither rows nor objects. -/
theorem moderation_gate (h : Reachable (next wiring) Start s) :
    Reviewed s ∧ ∀ r s', next wiring s r = some s' →
      ∃ new, s'.events = s.events ++ new ∧
        ((∃ e ∈ new, e.refuses = true) → s'.db = s.db ∧ s'.objects = s.objects) := by
  refine ⟨reachable_reviewed h, fun r s' hnext => ?_⟩
  cases hnext
  obtain ⟨new, hevents, hrefused, -⟩ := (serve_gated r : Gated s (serve wiring r s))
  exact ⟨new, hevents, hrefused⟩

end Runs

/-- Codecs that know one image. -/
def plainCodecs : Codecs where
  decodeConfig _ := some (1, 1)
  decode _ := some (⟨0, 0, 1, 1, fun _ _ => .nrgba ⟨0, 0, 0, 255⟩⟩, "png")
  encodeJpeg _ := .ok []
  encodePng _ := .ok [0, 0, 0, 255]

def plainWiring : Wiring where
  toConfig := Backend.plainConfig
  codecs := plainCodecs
  maxBytes := 100
  maxVideoBytes := 100

/-- The draws of the `k`-th call; the moderator refuses one word. -/
def plainOutside (k : ℕ) : Outside where
  env := { Backend.plainEnv k with moderateText := fun text => .ok (text != "kötü") }
  moderateImage _ _ := .ok true
  extractContactSheet _ _ := .error .moderationUnavailable

/-- One account. -/
def accountState : State where
  db := ⟨{ users := [{ id := 1, phone := "+905550004455", phoneVerifiedAt := 0 }] }, by decide⟩

theorem accountState_start : Start accountState :=
  ⟨by simp [accountState], by simp [accountState], rfl, rfl⟩

/-- A cat whose new name is refused keeps the name that was allowed. -/
theorem moderation_gate_refused_name : ∃ s, Reachable (next plainWiring) Start s ∧
    s.db.tables.cats.map Cat.name = [some "Tekir"] ∧
    AllCleared s.events (some "Tekir") ∧
    ∀ s', next plainWiring s ⟨plainOutside 2, .renameCat 11 1 "kötü"⟩ = some s' →
      s'.db = s.db ∧ s'.objects = s.objects := by
  obtain ⟨s, hs, htest⟩ := exists_of_exec_test (next plainWiring) accountState
    [⟨plainOutside 1, .create { userId := 1, area := ⟨41, 29⟩, name := some "Tekir" } [1]⟩]
    (fun s => decide (s.db.tables.cats.map Cat.name = [some "Tekir"]) &&
      ((serve plainWiring ⟨plainOutside 2, .renameCat 11 1 "kötü"⟩ s).events.drop
        s.events.length).any Event.refuses) (by decide +kernel)
  simp only [Bool.and_eq_true, decide_eq_true_eq, List.any_eq_true] at htest
  have hreach : Reachable (next plainWiring) Start s := ⟨_, _, accountState_start, hs⟩
  obtain ⟨hreviewed, hgate⟩ := moderation_gate hreach
  refine ⟨s, hreach, htest.1, ?_, fun s' hnext => ?_⟩
  · have hname : some "Tekir" ∈ s.db.tables.cats.map Cat.name := by
      rw [htest.1]
      exact List.mem_singleton_self _
    obtain ⟨c, hc, hcname⟩ := List.mem_map.mp hname
    rw [← hcname]
    exact hreviewed.names c hc
  · obtain ⟨new, hevents, hrefused⟩ := hgate _ s' hnext
    refine hrefused ?_
    cases hnext
    obtain ⟨e, he, hrefuses⟩ := htest.2
    rw [hevents, List.drop_left] at he
    exact ⟨e, he, hrefuses⟩

end Tekir.ModerationGate
