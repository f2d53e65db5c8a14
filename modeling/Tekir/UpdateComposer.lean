import Mathlib.Data.List.Sort
import Tekir.AddCat

/-!
# The update composer

`CatUpdateComposerNotifier` and the server's rule for an `Idempotency-Key` that an account repeats,
for a media upload and for an update. Random keys are numbered in the order in which they are
generated.
-/
namespace Tekir.UpdateComposer
open EventLoop KeyedRows
open AddCat (entered)
open Schema (UUID Status)

inductive UpdateSubmitError
  | validation
  | unauthorized
  | notFound
  | network
  | server
  | mediaTooLarge
  | unsupportedMedia
  | mediaNotFound
  | contentRejected
  deriving DecidableEq

inductive InlineSaveStatus | saving | failed
  deriving DecidableEq

structure PendingUpdate where
  statuses : List Status
  status : InlineSaveStatus
  deriving DecidableEq

/-- `mediaBytes`, `mediaFilename` and `mediaContentType` are set together. -/
structure PickedMedia where
  bytes : String
  filename : String
  contentType : String
  deriving DecidableEq

structure CatUpdateComposerState where
  selectedStatuses : List Status := []
  needsHelp : Bool := false
  comment : String := ""
  isSubmitting : Bool := false
  error : Option UpdateSubmitError := none
  pending : Option PendingUpdate := none
  media : Option PickedMedia := none
  mediaMuted : Bool := true
  deriving DecidableEq

/-- What `uploadMedia` sends. -/
structure UploadRequest where
  bytes : String
  filename : String
  muted : Bool
  idempotencyKey : ℕ
  deriving DecidableEq

/-- What the server keeps of an upload. -/
structure Media where
  bytes : String
  muted : Bool
  deriving DecidableEq

def UploadRequest.media (q : UploadRequest) : Media :=
  ⟨q.bytes, q.muted⟩

/-- What `createUpdate` sends. -/
structure CreateRequest where
  statuses : List Status
  needsHelp : Bool
  comment : Option String
  mediaId : Option ℕ
  idempotencyKey : ℕ
  deriving DecidableEq

/-- What the server keeps of an update. -/
structure Update where
  statuses : List Status
  needsHelp : Bool
  comment : Option String
  mediaId : Option ℕ
  deriving DecidableEq

/-- The order of the wire words, as `sort.Strings` has it. -/
def rank : Status → ℕ
  | .fed => 0
  | .seen => 1
  | .waterProvided => 2

def CreateRequest.update (q : CreateRequest) : Update :=
  ⟨q.statuses.insertionSort fun s t => rank s ≤ rank t, q.needsHelp, q.comment, q.mediaId⟩

/-- What `submit` is called with. -/
structure Draft where
  statuses : List Status
  needsHelp : Bool
  comment : Option String
  media : Option Media
  deriving DecidableEq

structure Flow where
  state : CatUpdateComposerState := {}
  idempotencyKey : ℕ := 0
  mediaIdempotencyKey : ℕ := 1
  /-- How many keys have been generated. -/
  keys : ℕ := 2
  generation : ℕ := 0
  /-- The uploads that the server has, under the account and the key of the request. -/
  media : List ((UUID × ℕ) × Media) := []
  updates : List ((UUID × ℕ) × Update) := []
  deriving DecidableEq

inductive Call
  | toggleStatus (status : Status)
  | toggleNeedsHelp
  | setComment (value : String)
  /-- `pickPhoto`, `pickVideo` or `pickMedia`. -/
  | pick
  | removeMedia
  | toggleMuted
  | reset
  | discardInFlightMediaPick
  /-- `signedIn` says whether a session is cached. -/
  | submit (signedIn : Bool)

inductive Waiting
  | picking (generation : ℕ)
  /-- An upload, and the row that the server has found or made for it. -/
  | uploading (draft : Draft) (request : UploadRequest) (row : Option ℕ)
  | initializing (draft : Draft) (mediaId : Option ℕ)
  /-- An update, and the row that the server has found or made for it. -/
  | creating (draft : Draft) (request : CreateRequest) (row : Option ℕ)
  | loggingOut
  deriving DecidableEq

inductive Reply
  | picked (media : PickedMedia)
  | cancelled
  | stored (account : UUID)
  | done
  | failed (error : UpdateSubmitError)

/-- `_fail`. -/
def fail (f : Flow) (error : UpdateSubmitError) : Flow :=
  { f with state := { f.state with
      isSubmitting := false, error := some error
      pending := f.state.pending.map fun p => { p with status := .failed } } }

def draft (state : CatUpdateComposerState) : Draft where
  statuses := state.selectedStatuses
  needsHelp := state.needsHelp
  comment := entered state.comment
  media := state.media.map fun m => ⟨m.bytes, state.mediaMuted⟩

/-- `_submit`, up to its first wait. `copyWith` keeps a `pending` that is not replaced. -/
def submit (f : Flow) (signedIn : Bool) : Flow × List Waiting :=
  let d := draft f.state
  if d.statuses = [] ∧ d.needsHelp = false then (f, [])
  else if f.state.isSubmitting then (f, [])
  else
    let pending := if d.needsHelp || d.media.isSome then f.state.pending
      else some ⟨d.statuses, .saving⟩
    let f : Flow := { f with state := { f.state with isSubmitting := true, error := none, pending } }
    if signedIn = false then (fail f .unauthorized, [])
    else
      match f.state.media with
      | none => (f, [.initializing d none])
      | some m =>
        (f, [.uploading d ⟨m.bytes, m.filename, f.state.mediaMuted, f.mediaIdempotencyKey⟩ none])

def call (f : Flow) : Call → Flow × List Waiting
  | .toggleStatus status =>
    if f.state.isSubmitting then (f, [])
    else
      let next := if status ∈ f.state.selectedStatuses then f.state.selectedStatuses.erase status
        else f.state.selectedStatuses ++ [status]
      ({ f with state := { f.state with selectedStatuses := next, error := none } }, [])
  | .toggleNeedsHelp =>
    if f.state.isSubmitting then (f, [])
    else ({ f with state := { f.state with needsHelp := !f.state.needsHelp, error := none } }, [])
  | .setComment value => ({ f with state := { f.state with comment := value } }, [])
  | .pick => if f.state.isSubmitting then (f, []) else (f, [.picking f.generation])
  | .removeMedia =>
    if f.state.isSubmitting then (f, [])
    else ({ f with state := { f.state with media := none, mediaMuted := true, error := none } }, [])
  | .toggleMuted =>
    if f.state.isSubmitting then (f, [])
    else ({ f with state := { f.state with mediaMuted := !f.state.mediaMuted } }, [])
  | .reset =>
    if f.state.isSubmitting then (f, [])
    else if f.state.pending.map PendingUpdate.status = some .failed then (f, [])
    else ({ f with generation := f.generation + 1, state := {} }, [])
  | .discardInFlightMediaPick => ({ f with generation := f.generation + 1 }, [])
  | .submit signedIn => submit f signedIn

/-- `_setPickedMedia`, once the bytes are read. -/
def setPickedMedia (f : Flow) (generation : ℕ) (media : PickedMedia) : Flow :=
  if generation = f.generation then
    { f with
      mediaIdempotencyKey := f.keys, keys := f.keys + 1
      state := { f.state with media := some media, mediaMuted := true, error := none } }
  else f

/-- What the handlers of `_submit` do with an error. A refused session is logged out first. -/
def failed (f : Flow) : UpdateSubmitError → Flow × List Waiting
  | .unauthorized => (f, [.loggingOut])
  | .mediaNotFound =>
    (fail { f with
      mediaIdempotencyKey := f.keys, keys := f.keys + 1
      state := { f.state with media := none, mediaMuted := true } } .mediaNotFound, [])
  | error => (fail f error, [])

def resume (f : Flow) : Waiting → Reply → Option (Flow × List Waiting)
  | .picking generation, .picked media => some (setPickedMedia f generation media, [])
  | .picking _, .cancelled => some (f, [])
  | .uploading d q none, .stored account =>
    let t := answer f.media (account, q.idempotencyKey) q.media
    some ({ f with media := t.1 }, [.uploading d q (some t.2)])
  | .uploading d _ (some row), .done => some (f, [.initializing d (some row)])
  | .uploading _ _ _, .failed error => some (failed f error)
  | .initializing d mediaId, .done =>
    some (f, [.creating d ⟨d.statuses, d.needsHelp, d.comment, mediaId, f.idempotencyKey⟩ none])
  | .initializing _ _, .failed error => some (failed f error)
  | .creating d q none, .stored account =>
    let t := answer f.updates (account, q.idempotencyKey) q.update
    some ({ f with updates := t.1 }, [.creating d q (some t.2)])
  | .creating _ _ (some _), .done => some
      ({ f with
        state := {}, idempotencyKey := f.keys, mediaIdempotencyKey := f.keys + 1
        keys := f.keys + 2 }, [])
  | .creating _ _ _, .failed error => some (failed f error)
  | .loggingOut, .done => some (fail f .unauthorized, [])
  | _, _ => none

def handlers : Handlers Flow Waiting Call Reply where
  call f i := some (call f i)
  resume := resume

end Tekir.UpdateComposer
