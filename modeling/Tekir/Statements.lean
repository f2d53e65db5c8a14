import Tekir.Schema

/-!
# Databases and statements

A `Database` is a set of tables together with the proof that every declared
constraint holds, so a table state that violates one cannot be built. A statement
is applied by `Database.write`: it succeeds precisely if its result satisfies all
constraints, and otherwise it reports one that does not. A transaction body is a
sequence of statements in `Except Error`, where an error rolls everything back.
-/
namespace Tekir.Statements
open Table Schema

/-- Tables with the proof that no constraint is violated. -/
structure Database where
  tables : Tables
  valid : Valid tables

@[ext] theorem Database.ext {a b : Database} (h : a.tables = b.tables) : a = b := by
  cases a
  cases b
  cases h
  rfl

/-- What a statement, a transaction or a service call can fail with. -/
inductive Error
  | noRows
  | violates (c : Constraint)
  | invalidCatID | catNotFound | invalidStatuses | invalidNeedsHelpCategory | noteTooLong
  | invalidArea | missingPhoto | duplicateCandidates (ids : List UUID)
  | updateNotFound | notUpdateAuthor | notCatOwner | invalidMediaID | invalidCatName
  | mediaNotInGallery | correctionWindowExpired | mediaNotFound | updateHoldsCover
  | contentRejected | moderationUnavailable
  | mediaTooLarge | unsupportedMediaType | malformedMedia | mediaDimensionsTooLarge
  | mediaDurationTooLong | storageUnavailable
  | invalidReportTargetType | invalidReportTargetID | reportTargetNotFound
  | invalidReportReason | reportNoteRequired
  | invalidBlockedUserID | cannotBlockSelf | blockedUserNotFound
  | invalidPlatform | invalidPushToken
  | invalidPhone | otpResendTooSoon | otpNotRequested | otpExpired | otpAlreadyConsumed
  | otpTooManyAttempts | otpCodeMismatch | deviceLinkedToOtherAccount | invalidDisplayName
  | sessionInvalid | sessionExpired | sessionRevoked
  | invalidNotificationID | invalidLimit | invalidBounds | invalidDiscoverFilter | invalidCursor
  | providerUnavailable | transactionAborted
  deriving DecidableEq, Repr

def isUniqueViolation : Error → Bool
  | .violates c => Constraint.isUnique c
  | _ => false

/-- The constraint a failing statement reports. -/
def firstViolated (t : Tables) : Constraint :=
  (Constraint.all.find? fun c => !decide (c.Holds t)).getD .usersPkey

/-- Run one statement. -/
def Database.write (db : Database) (f : Tables → Tables) : Except Error Database :=
  if h : Valid (f db.tables) then .ok ⟨f db.tables, h⟩
  else .error (.violates (firstViolated (f db.tables)))

theorem firstViolated_not_holds {t : Tables} (h : ¬ Valid t) : ¬ (firstViolated t).Holds t := by
  unfold firstViolated
  cases hfind : Constraint.all.find? fun c => !decide (c.Holds t) with
  | none =>
    refine absurd (fun c hc => ?_) h
    simpa using List.find?_eq_none.mp hfind c hc
  | some c => simpa using List.find?_some hfind

/-- A statement that succeeds has carried out its assignment and nothing else. -/
theorem write_eq_ok {db db' : Database} {f : Tables → Tables} :
    db.write f = .ok db' ↔ db'.tables = f db.tables := by
  unfold Database.write
  constructor
  · intro h
    split at h
    · cases h
      rfl
    · cases h
  · intro h
    have hv : Valid (f db.tables) := h ▸ db'.valid
    simp only [hv, dif_pos]
    exact congrArg Except.ok (Database.ext h.symm)

theorem write_ok {db : Database} {f : Tables → Tables} (h : Valid (f db.tables)) :
    db.write f = .ok ⟨f db.tables, h⟩ :=
  write_eq_ok.mpr rfl

/-- A statement that fails reports a constraint its result does not satisfy. -/
theorem write_eq_error {db : Database} {f : Tables → Tables} {e : Error}
    (h : db.write f = .error e) : ∃ c, e = .violates c ∧ ¬ c.Holds (f db.tables) := by
  unfold Database.write at h
  split at h
  · cases h
  · rename_i hv
    cases h
    exact ⟨_, rfl, firstViolated_not_holds hv⟩

theorem write_error_of_not_holds {db : Database} {f : Tables → Tables} {c : Constraint}
    (h : ¬ c.Holds (f db.tables)) : ∃ c', db.write f = .error (.violates c') := by
  have hv : ¬ Valid (f db.tables) := fun hv => h (hv.holds c)
  exact ⟨firstViolated (f db.tables), by simp [Database.write, hv]⟩

/-- Statements run in order: the whole succeeds if each does. -/
theorem bind_eq_ok {α β : Type} {x : Except Error α} {f : α → Except Error β} {b : β} :
    x >>= f = .ok b ↔ ∃ a, x = .ok a ∧ f a = .ok b := by
  cases x with
  | error e => simp [bind, Except.bind]
  | ok a => simp [bind, Except.bind]

theorem bind_eq_error {α β : Type} {x : Except Error α} {f : α → Except Error β} {e : Error} :
    x >>= f = .error e ↔ x = .error e ∨ ∃ a, x = .ok a ∧ f a = .error e := by
  cases x with
  | error e => simp [bind, Except.bind]
  | ok a => simp [bind, Except.bind]

/-- The single row of a `:one` query. -/
def one {α : Type} : List α → Except Error α
  | [] => .error .noRows
  | r :: _ => .ok r

theorem one_eq_ok {α : Type} {rows : List α} {r : α} (h : one rows = .ok r) : r ∈ rows := by
  cases rows with
  | nil => cases h
  | cons a as =>
    cases h
    exact List.mem_cons_self

@[simp] theorem one_nil {α : Type} : one ([] : List α) = .error .noRows := rfl

@[simp] theorem one_cons {α : Type} (r : α) (rows : List α) : one (r :: rows) = .ok r := rfl

theorem one_eq_noRows {α : Type} {rows : List α} : one rows = .error .noRows ↔ rows = [] := by
  cases rows <;> simp

end Tekir.Statements
