import Mathlib.Data.List.Basic
import Tekir.EventLoop
import Tekir.KeyedRows
import Tekir.Schema

/-!
# Adding a cat

`AddCatNotifier` and the server's rule for an `Idempotency-Key` that an account repeats: it answers
with the row that the first request has left. Random keys are numbered in the order in which they
are generated.
-/
namespace Tekir.AddCat
open EventLoop KeyedRows
open Schema (UUID Point)

inductive AddCatStep | location | details
  deriving DecidableEq

inductive AddCatError
  | missingPhoto
  | invalidSubmission
  | mediaTooLarge
  | unsupportedMedia
  | network
  | server
  | unauthorized
  | contentRejected
  deriving DecidableEq

structure Photo where
  bytes : String
  filename : String
  deriving DecidableEq

/-- `lat` and `lng` are set together. -/
structure AddCatState where
  step : AddCatStep := .location
  location : Option Point := none
  locationRevision : ℕ := 0
  geoError : Option String := none
  duplicates : List UUID := []
  confirmedNew : Bool := false
  photo : Option Photo := none
  name : String := ""
  saving : Bool := false
  error : Option AddCatError := none
  deriving DecidableEq

structure CreateRequest where
  location : Point
  name : Option String
  confirmedNew : Bool
  photo : Photo
  idempotencyKey : ℕ
  deriving DecidableEq

/-- What the server keeps of a request. -/
structure NewCat where
  location : Point
  name : Option String
  photo : Photo
  deriving DecidableEq

def CreateRequest.cat (q : CreateRequest) : NewCat :=
  ⟨q.location, q.name, q.photo⟩

structure Flow where
  state : AddCatState := {}
  idempotencyKey : ℕ := 0
  /-- How many keys have been generated. -/
  keys : ℕ := 1
  /-- The cats that the server has created, under the account and the key of the request. -/
  rows : List ((UUID × ℕ) × NewCat) := []
  deriving DecidableEq

inductive Call
  | start
  | useCurrentLocation
  | setLocation (location : Point)
  | confirmLocation
  | continueAsDifferent
  | backToLocation
  | setName (value : String)
  | pickPhoto (photo : Photo)
  | save

inductive Waiting
  | resolving
  | checking (location : Point)
  /-- A submission, and the row that the server has found or made for it. -/
  | creating (request : CreateRequest) (row : Option ℕ)
  deriving DecidableEq

inductive Reply
  | resolved (center : Point) (isFallback : Bool)
  | nearby (candidates : List UUID)
  | created (account : UUID)
  | done
  /-- The server finds candidates for the submission. -/
  | duplicates (candidates : List UUID)
  | failed (error : AddCatError)

/-- What Dart's `trim` removes. -/
def isWhitespace (c : Char) : Bool :=
  [0x20, 0x85, 0xa0, 0x1680, 0x2028, 0x2029, 0x202f, 0x205f, 0x3000, 0xfeff].contains c.toNat ||
    (0x9 ≤ c.toNat && c.toNat ≤ 0xd) || (0x2000 ≤ c.toNat && c.toNat ≤ 0x200a)

def trim (s : String) : String :=
  String.ofList ((s.toList.dropWhile isWhitespace).reverse.dropWhile isWhitespace).reverse

/-- The trimmed text, if it is not empty. -/
def entered (s : String) : Option String :=
  if trim s = "" then none else some (trim s)

/-- What `save` sends, if it sends anything. -/
def submission (f : Flow) : Option CreateRequest :=
  f.state.photo.bind fun photo => f.state.location.map fun location =>
    { location, name := entered f.state.name, confirmedNew := f.state.confirmedNew, photo
      idempotencyKey := f.idempotencyKey }

def call (f : Flow) : Call → Flow × List Waiting
  | .start =>
    ({ f with state := {}, idempotencyKey := f.keys, keys := f.keys + 1 }, [.resolving])
  | .useCurrentLocation => (f, [.resolving])
  | .setLocation location =>
    ({ f with state := { f.state with location := some location, geoError := none } }, [])
  | .confirmLocation =>
    match f.state.location with
    | none => (f, [])
    | some location => (f, [.checking location])
  | .continueAsDifferent =>
    ({ f with state := { f.state with step := .details, duplicates := [], confirmedNew := true } }, [])
  | .backToLocation => ({ f with state := { f.state with step := .location } }, [])
  | .setName value => ({ f with state := { f.state with name := value } }, [])
  | .pickPhoto photo =>
    ({ f with state := { f.state with photo := some photo, error := none } }, [])
  | .save =>
    if f.state.saving then (f, [])
    else if f.state.photo = none then
      ({ f with state := { f.state with error := some .missingPhoto } }, [])
    else
      match submission f with
      | none => ({ f with state := { f.state with error := some .invalidSubmission } }, [])
      | some request =>
        ({ f with state := { f.state with saving := true, error := none } },
          [.creating request none])

/-- The row of the account's first request with the key, or a new one. -/
def create (rows : List ((UUID × ℕ) × NewCat)) (account : UUID) (q : CreateRequest) :
    List ((UUID × ℕ) × NewCat) × ℕ :=
  answer rows (account, q.idempotencyKey) q.cat

def resume (f : Flow) : Waiting → Reply → Option (Flow × List Waiting)
  | .resolving, .resolved center isFallback => some
      ({ f with state :=
        { f.state with
          location := some center, locationRevision := f.state.locationRevision + 1
          geoError := if isFallback then some "Konum bulunamadı. Haritadan elle seç." else none } }, [])
  | .checking _, .nearby candidates => some
      (if candidates.isEmpty then
        { f with state := { f.state with step := .details, duplicates := [] } }
      else { f with state := { f.state with duplicates := candidates } }, [])
  | .checking _, .failed _ =>
    some ({ f with state := { f.state with step := .details, duplicates := [] } }, [])
  | .creating q none, .created account =>
    let t := create f.rows account q
    some ({ f with rows := t.1 }, [.creating q (some t.2)])
  | .creating _ (some _), .done => some ({ f with state := {} }, [])
  | .creating _ none, .duplicates candidates => some
      ({ f with state :=
        { f.state with saving := false, step := .location, duplicates := candidates } }, [])
  | .creating _ _, .failed error =>
    some ({ f with state := { f.state with saving := false, error := some error } }, [])
  | _, _ => none

def handlers : Handlers Flow Waiting Call Reply where
  call f i := some (call f i)
  resume := resume

end Tekir.AddCat
