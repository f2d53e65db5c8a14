import Tekir.Backend
import Tekir.Interleaving

/-!
# Account calls, statement by statement

`RequestOTP`, `VerifyOTP`, `Refresh`, `Revoke` and the logout handler as programs over
the queries they run, and what each query answers and writes under READ COMMITTED. A
write names the rows it touches, so that applying it to a later database touches the
same rows. Row locks and unique keys decide which writes exclude each other.
-/
namespace Tekir.AccountCalls
open Table Schema Statements AccountQueries UpdateQueries Environment AccountServices Programs
  Interleaving

/-- The queries of the account services, with their arguments. -/
inductive Query
  | getLatestOtpCode (phone : String)
  | createOtpCode (id : UUID) (phone codeHash : String) (maxAttempts : ℤ)
      (expiresAt now : Instant)
  | incrementOtpAttempts (id : UUID)
  | consumeOtpCodeIfValid (consumedAt : Instant) (id : UUID) (codeHash : String)
      (now : Instant) (phone : String)
  | getUserByPhone (phone : String)
  | createUser (id : UUID) (phone : String) (phoneVerifiedAt : Instant)
  | getDeviceByID (id : UUID)
  | linkDeviceToUser (userId id : UUID)
  | unlinkDeviceFromUser (id userId : UUID)
  | deleteRedundantDeviceFollows (deviceId userId : UUID)
  | backfillFollowsUserID (userId deviceId : UUID)
  | backfillUpdatesAuthorUserID (authorUserId authorDeviceId : UUID)
  | createRefreshToken (id userId : UUID) (tokenHash : String) (expiresAt : Instant)
  | getRefreshTokenByHash (tokenHash : String)
  | revokeRefreshToken (revokedAt : Instant) (id : UUID)
  | revokeRefreshTokenIfActive (revokedAt : Instant) (id : UUID) (now : Instant)

/-- The row or value a query returns. -/
@[reducible] def Query.Row : Query → Type
  | .getLatestOtpCode _ => OtpCode
  | .consumeOtpCodeIfValid _ _ _ _ _ => UUID
  | .getUserByPhone _ => User
  | .createUser _ _ _ => User
  | .getDeviceByID _ => Device
  | .getRefreshTokenByHash _ => RefreshToken
  | .revokeRefreshTokenIfActive _ _ _ => UUID
  | .createOtpCode _ _ _ _ _ _ => Unit
  | .incrementOtpAttempts _ => Unit
  | .linkDeviceToUser _ _ => Unit
  | .unlinkDeviceFromUser _ _ => Unit
  | .deleteRedundantDeviceFollows _ _ => Unit
  | .backfillFollowsUserID _ _ => Unit
  | .backfillUpdatesAuthorUserID _ _ => Unit
  | .createRefreshToken _ _ _ _ => Unit
  | .revokeRefreshToken _ _ => Unit

/-- A write of an account transaction. -/
inductive Write
  | otpCode (row : OtpCode)
  | attempt (id : UUID)
  | consumed (id : UUID) (at' : Instant)
  | user (row : User)
  | linked (deviceId userId : UUID)
  | unlinked (deviceId userId : UUID)
  | droppedFollows (rows : List Follow)
  | claimedFollows (rows : List Follow) (userId : UUID)
  | claimedUpdates (ids : List UUID) (userId : UUID)
  | refreshToken (row : RefreshToken)
  | revoked (id : UUID) (at' : Instant)
  /-- The conditional revocation, which answers with the account. -/
  | rotated (id userId : UUID) (at' : Instant)
  deriving DecidableEq

def Write.apply : Write → Tables → Tables
  | .otpCode row, t => { t with otpCodes := t.otpCodes ++ [row] }
  | .attempt id, t =>
    { t with
      otpCodes := updateWhere (fun o => o.id == id)
        (fun o => { o with attempts := o.attempts + 1 }) t.otpCodes }
  | .consumed id at', t =>
    { t with
      otpCodes := updateWhere (fun o => o.id == id)
        (fun o => { o with consumedAt := some at' }) t.otpCodes }
  | .user row, t => { t with users := t.users ++ [row] }
  | .linked deviceId userId, t =>
    { t with
      devices := updateWhere (fun d => d.id == deviceId)
        (fun d => { d with userId := some userId }) t.devices }
  | .unlinked deviceId _, t =>
    { t with
      devices := updateWhere (fun d => d.id == deviceId)
        (fun d => { d with userId := none }) t.devices }
  | .droppedFollows rows, t =>
    { t with follows := deleteWhere (fun f => rows.contains f) t.follows }
  | .claimedFollows rows userId, t =>
    { t with
      follows := updateWhere (fun f => rows.contains f)
        (fun f => { f with userId := some userId }) t.follows }
  | .claimedUpdates ids userId, t =>
    { t with
      updates := updateWhere (fun u => ids.contains u.id)
        (fun u => { u with authorUserId := some userId }) t.updates }
  | .refreshToken row, t => { t with refreshTokens := t.refreshTokens ++ [row] }
  | .revoked id at', t =>
    { t with
      refreshTokens := updateWhere (fun r => r.id == id)
        (fun r => { r with revokedAt := some at' }) t.refreshTokens }
  | .rotated id _ at', t =>
    { t with
      refreshTokens := updateWhere (fun r => r.id == id)
        (fun r => { r with revokedAt := some at' }) t.refreshTokens }

def applyAll (ws : List Write) (t : Tables) : Tables :=
  ws.foldl (fun t w => w.apply t) t

/-- The database a transaction with these writes sees. -/
def view (ws : List Write) (db : Database) : Option Database :=
  if h : Valid (applyAll ws db.tables) then some ⟨applyAll ws db.tables, h⟩ else none

/-- What a write locks: a row, or a key of a unique index. -/
inductive Lock
  | otpCode (id : UUID)
  | user (id : UUID)
  | phone (phone : String)
  | device (id : UUID)
  | follow (row : Follow)
  | followOf (userId catId : UUID)
  | update (id : UUID)
  | refreshToken (id : UUID)
  | tokenHash (tokenHash : String)
  deriving DecidableEq

def Write.locks : Write → List Lock
  | .otpCode row => [.otpCode row.id]
  | .attempt id => [.otpCode id]
  | .consumed id _ => [.otpCode id]
  | .user row => [.user row.id, .phone row.phone]
  | .linked deviceId _ => [.device deviceId]
  | .unlinked deviceId _ => [.device deviceId]
  | .droppedFollows rows => rows.map .follow
  | .claimedFollows rows userId =>
    rows.map .follow ++ rows.map fun f => .followOf userId f.catId
  | .claimedUpdates ids _ => ids.map .update
  | .refreshToken row => [.refreshToken row.id, .tokenHash row.tokenHash]
  | .revoked id _ => [.refreshToken id]
  | .rotated id _ _ => [.refreshToken id]

/-- A lock is held until the end of the transaction. -/
def clash (w w' : Write) : Bool :=
  w.locks.any fun l => w'.locks.contains l

/-- A statement that reads. -/
def reads {α : Type} (x : Except Error α) : Except Error (α × List Write) :=
  x.map fun a => (a, [])

/-- A statement that writes: its result must satisfy every constraint. -/
def writes {α : Type} (a : α) (w : Write) (db : Database) : Except Error (α × List Write) := do
  let _ ← db.write w.apply
  return (a, [w])

/-- The `where` clause of `ConsumeOtpCodeIfValid`, with its sub-query answered. -/
def consumable (id : UUID) (codeHash : String) (now : Instant) (latest : Option OtpCode)
    (o : OtpCode) : Bool :=
  o.id == id && o.codeHash == codeHash && o.consumedAt.isNone && decide (now < o.expiresAt) &&
    decide (o.attempts < o.maxAttempts) && latest.any fun latest => latest.id == o.id

def active (id : UUID) (now : Instant) (r : RefreshToken) : Bool :=
  r.id == id && r.revokedAt.isNone && decide (now < r.expiresAt)

/-- A follow of the device that has no owner. -/
def unowned (deviceId : UUID) (f : Follow) : Bool :=
  f.deviceId == some deviceId && f.userId.isNone

def unauthored (deviceId : UUID) (u : Update) : Bool :=
  u.authorDeviceId == some deviceId && u.authorUserId.isNone

/-- What a query returns and writes. The rows an update works on are those its snapshot
matched, in their newest version and if that still matches; sub-queries see the snapshot. -/
def Query.run : (q : Query) → Database → Database → Except Error (q.Row × List Write)
  | .getLatestOtpCode phone, snapshot, _ => reads (AccountQueries.getLatestOtpCode phone snapshot)
  | .createOtpCode id phone codeHash maxAttempts expiresAt now, _, db =>
    writes () (.otpCode { id, phone, codeHash, maxAttempts, expiresAt, createdAt := now }) db
  | .incrementOtpAttempts id, _, db => writes () (.attempt id) db
  | .consumeOtpCodeIfValid consumedAt id codeHash now phone, snapshot, db => do
    let valid := consumable id codeHash now (latestOtpCode phone snapshot.tables.otpCodes)
    let _ ← one (snapshot.tables.otpCodes.filter valid)
    let row ← one (db.tables.otpCodes.filter valid)
    writes row.id (.consumed row.id consumedAt) db
  | .getUserByPhone phone, snapshot, _ => reads (AccountQueries.getUserByPhone phone snapshot)
  | .createUser id phone phoneVerifiedAt, _, db =>
    writes { id, phone, phoneVerifiedAt } (.user { id, phone, phoneVerifiedAt }) db
  | .getDeviceByID id, snapshot, _ => reads (AccountQueries.getDeviceByID id snapshot)
  | .linkDeviceToUser userId id, _, db =>
    if db.tables.devices.any fun d => d.id == id then writes () (.linked id userId) db
    else reads (.ok ())
  | .unlinkDeviceFromUser id userId, _, db =>
    if db.tables.devices.any fun d => d.id == id && d.userId == some userId then
      writes () (.unlinked id userId) db
    else reads (.ok ())
  | .deleteRedundantDeviceFollows deviceId userId, snapshot, db =>
    let redundant : Follow → Bool := fun f => unowned deviceId f &&
      snapshot.tables.follows.any fun owned => owned.catId == f.catId && owned.userId == some userId
    writes () (.droppedFollows (db.tables.follows.filter fun f =>
      redundant f && snapshot.tables.follows.contains f)) db
  | .backfillFollowsUserID userId deviceId, snapshot, db =>
    writes () (.claimedFollows (db.tables.follows.filter fun f =>
      unowned deviceId f && snapshot.tables.follows.contains f) userId) db
  | .backfillUpdatesAuthorUserID authorUserId authorDeviceId, snapshot, db =>
    let matched := snapshot.tables.updates.filter (unauthored authorDeviceId)
    writes () (.claimedUpdates ((db.tables.updates.filter fun u =>
      unauthored authorDeviceId u && matched.any fun v => v.id == u.id).map Update.id)
        authorUserId) db
  | .createRefreshToken id userId tokenHash expiresAt, _, db =>
    writes () (.refreshToken { id, userId, tokenHash, expiresAt }) db
  | .getRefreshTokenByHash tokenHash, snapshot, _ =>
    reads (AccountQueries.getRefreshTokenByHash tokenHash snapshot)
  | .revokeRefreshToken revokedAt id, _, db => writes () (.revoked id revokedAt) db
  | .revokeRefreshTokenIfActive revokedAt id now, snapshot, db => do
    let _ ← one (snapshot.tables.refreshTokens.filter (active id now))
    let row ← one (db.tables.refreshTokens.filter (active id now))
    writes row.userId (.rotated row.id row.userId revokedAt) db

def answer (q : Query) (snapshot db : Database) : Except Error q.Row :=
  (q.run snapshot db).map Prod.fst

def effect (q : Query) (snapshot db : Database) : List Write :=
  match q.run snapshot db with
  | .ok (_, ws) => ws
  | .error _ => []

@[simp] theorem reads_eq_ok {α : Type} {x : Except Error α} {a : α} {ws : List Write} :
    reads x = .ok (a, ws) ↔ x = .ok a ∧ ws = [] := by
  cases x with
  | error e => simp [reads, Except.map]
  | ok b => simp [reads, Except.map, eq_comm]

@[simp] theorem writes_eq_ok {α : Type} {a a' : α} {w : Write} {db : Database} {ws : List Write} :
    writes a w db = .ok (a', ws) ↔ a' = a ∧ ws = [w] ∧ ∃ db', db.write w.apply = .ok db' := by
  simp only [writes, bind_eq_ok, pure, Except.pure, Except.ok.injEq, Prod.mk.injEq]
  constructor
  · rintro ⟨db', hdb', rfl, rfl⟩
    exact ⟨rfl, rfl, db', hdb'⟩
  · rintro ⟨rfl, rfl, db', hdb'⟩
    exact ⟨db', hdb', rfl, rfl⟩

theorem answer_eq_ok {q : Query} {snapshot db : Database} {a : q.Row} :
    answer q snapshot db = .ok a ↔ q.run snapshot db = .ok (a, effect q snapshot db) := by
  unfold answer effect
  cases h : q.run snapshot db with
  | error e => simp [Except.map]
  | ok x => simp [Except.map, Prod.ext_iff]

/-- A statement that fails writes nothing. -/
theorem mem_effect {q : Query} {snapshot db : Database} {w : Write}
    (h : w ∈ effect q snapshot db) : ∃ a, q.run snapshot db = .ok (a, effect q snapshot db) := by
  unfold effect at h ⊢
  cases hrun : q.run snapshot db with
  | error e => simp [hrun] at h
  | ok x => exact ⟨x.1, rfl⟩

/-- The kind of write a query can lead to. -/
def Query.Emits : Query → Write → Prop
  | .createOtpCode _ _ _ _ _ _, .otpCode _ | .incrementOtpAttempts _, .attempt _
  | .consumeOtpCodeIfValid _ _ _ _ _, .consumed _ _ | .createUser _ _ _, .user _
  | .linkDeviceToUser _ _, .linked _ _ | .unlinkDeviceFromUser _ _, .unlinked _ _
  | .deleteRedundantDeviceFollows _ _, .droppedFollows _
  | .backfillFollowsUserID _ _, .claimedFollows _ _
  | .backfillUpdatesAuthorUserID _ _, .claimedUpdates _ _
  | .createRefreshToken _ _ _ _, .refreshToken _ | .revokeRefreshToken _ _, .revoked _ _
  | .revokeRefreshTokenIfActive _ _ _, .rotated _ _ _ => True
  | _, _ => False

theorem emits_of_mem {q : Query} {snapshot db : Database} {w : Write}
    (h : w ∈ effect q snapshot db) : q.Emits w := by
  obtain ⟨a, hrun⟩ := mem_effect h
  cases q with
  | getLatestOtpCode phone | getUserByPhone phone | getDeviceByID id
  | getRefreshTokenByHash tokenHash =>
    simp only [Query.run, reads_eq_ok] at hrun
    simp [hrun.2] at h
  | createOtpCode | incrementOtpAttempts | createUser | deleteRedundantDeviceFollows
  | backfillFollowsUserID | backfillUpdatesAuthorUserID | createRefreshToken
  | revokeRefreshToken =>
    simp only [Query.run, writes_eq_ok] at hrun
    obtain rfl := List.mem_singleton.mp (hrun.2.1 ▸ h)
    trivial
  | consumeOtpCodeIfValid | revokeRefreshTokenIfActive =>
    simp only [Query.run, bind_eq_ok, writes_eq_ok] at hrun
    obtain ⟨-, -, row, -, -, hws, -⟩ := hrun
    obtain rfl := List.mem_singleton.mp (hws ▸ h)
    trivial
  | linkDeviceToUser | unlinkDeviceFromUser =>
    simp only [Query.run] at hrun
    split at hrun
    · simp only [writes_eq_ok] at hrun
      obtain rfl := List.mem_singleton.mp (hrun.2.1 ▸ h)
      trivial
    · simp only [reads_eq_ok] at hrun
      simp [hrun.2] at h

/-- No rows is an answer; any other error aborts the transaction. -/
def aborts (e : Error) : Bool :=
  e != .noRows

/-- What other operations than account deletion may commit: codes and tokens are theirs neither
to write nor to drop, accounts and links stay, a device is registered without a link. -/
structure Aside (t t' : Tables) : Prop where
  otpCodes : t'.otpCodes = t.otpCodes
  refreshTokens : t'.refreshTokens = t.refreshTokens
  users : t'.users.map (fun u => (u.id, u.phone)) = t.users.map fun u => (u.id, u.phone)
  devices : ∀ d ∈ t.devices, ∃ d' ∈ t'.devices, d'.id = d.id ∧ d'.userId = d.userId
  links : ∀ d' ∈ t'.devices, d'.userId = none ∨ ∃ d ∈ t.devices, d.id = d'.id

instance (t t' : Tables) : Decidable (Aside t t') :=
  decidable_of_iff (_ ∧ _ ∧ _ ∧ _ ∧ _)
    ⟨fun ⟨h₁, h₂, h₃, h₄, h₅⟩ => ⟨h₁, h₂, h₃, h₄, h₅⟩,
      fun h => ⟨h.otpCodes, h.refreshTokens, h.users, h.devices, h.links⟩⟩

theorem clash_symm (w w' : Write) : clash w w' = clash w' w := by
  rw [Bool.eq_iff_iff]
  simp only [clash, List.any_eq_true, List.contains_iff_mem]
  exact ⟨fun ⟨l, h, h'⟩ => ⟨l, h', h⟩, fun ⟨l, h, h'⟩ => ⟨l, h', h⟩⟩

theorem view_nil (db : Database) : view [] db = some db := by
  simp [view, applyAll, db.valid]

theorem tables_of_view {ws : List Write} {db db' : Database} (hview : view ws db = some db') :
    db'.tables = applyAll ws db.tables := by
  unfold view at hview
  split at hview
  · cases hview
    rfl
  · cases hview

/-- A row that each write leaves in some form is left in some form by a whole transaction. -/
theorem exists_applyAll {ρ : Type} (rows : Tables → List ρ) (After : List Write → ρ → ρ → Prop)
    (hnil : ∀ r, After [] r r)
    (happly : ∀ t r, r ∈ rows t → ∀ w : Write, ∃ r' ∈ rows (w.apply t), After [w] r r')
    (hcons : ∀ {w ws r r₁ r₂}, After [w] r r₁ → After ws r₁ r₂ → After (w :: ws) r r₂)
    {t : Tables} {r : ρ} (hr : r ∈ rows t) (ws : List Write) :
    ∃ r' ∈ rows (applyAll ws t), After ws r r' := by
  induction ws generalizing t r with
  | nil => exact ⟨r, hr, hnil r⟩
  | cons w ws ih =>
    obtain ⟨r₁, hr₁, h₁⟩ := happly t r hr w
    obtain ⟨r₂, hr₂, h₂⟩ := ih hr₁
    exact ⟨r₂, hr₂, hcons h₁ h₂⟩

/-- `foreign` says what the rest of the backend may commit while some writes are open. -/
def engine (fails : Bool) (foreign : List Write → Database → Database → Bool) :
    Engine Database Write Query Query.Row Error where
  view := view
  clash := clash
  answer := answer
  effect := effect
  aborts := aborts
  lost := .transactionAborted
  fails := fails
  foreign := foreign
  view_nil := view_nil
  clash_symm := clash_symm
  lost_aborts := rfl

/-- A program of account queries that ends with a value or an error. -/
abbrev Script (α : Type) := Prog Query Query.Row Error (Except Error α)

/-- A statement inside a transaction. -/
def ask (q : Query) : Script q.Row :=
  Prog.query q

/-- A read outside a transaction. -/
def readOnce (q : Query) : Script q.Row :=
  Prog.read q

/-- A write outside a transaction. -/
def writeOnce (q : Query) : Script q.Row :=
  Prog.auto .transactionAborted q

section Rules

open Programs.Prog

variable {fails : Bool} {foreign : List Write → Database → Database → Bool} {α : Type} {q : Query}
  {asks : Local Write Query Query.Row Error → Query → Prop}
  {commits : Local Write Query Query.Row Error → Prop}
  {l : Local Write Query Query.Row Error}

theorem answer_error {snapshot db : Database} {e : Error} (h : answer q snapshot db = .error e) :
    effect q snapshot db = [] := by
  unfold answer at h
  unfold effect
  cases hrun : q.run snapshot db with
  | error e' => rfl
  | ok x => simp [hrun, Except.map] at h

/-- A statement answers with what it returns and writes, or fails and writes nothing. -/
theorem meets_ask {post : Local Write Query Query.Row Error → Except Error q.Row → Prop}
    (hasks : l.aborted = false → asks l q)
    (hok : ∀ b₀ b a ws, q.run b₀ b = .ok (a, ws) →
      post (l.ask (engine fails foreign) q (.ok a) ws) (.ok a))
    (herror : ∀ e, post (l.ask (engine fails foreign) q (.error e) []) (.error e)) :
    (ask q).Meets (engine fails foreign) asks commits post l := by
  refine meets_query.mpr ⟨fun hl => ⟨hasks hl, fun b₀ b => ?_⟩, fun _ => herror _⟩
  cases h : (engine fails foreign).answer q b₀ b with
  | ok a => exact hok b₀ b a _ (answer_eq_ok.mp h)
  | error e =>
    have heffect : (engine fails foreign).effect q b₀ b = [] := answer_error h
    rw [heffect]
    exact herror e

theorem meets_ask_andThen {f : q.Row → Script α}
    {post : Local Write Query Query.Row Error → Except Error α → Prop}
    (hasks : l.aborted = false → asks l q)
    (hok : ∀ b₀ b a ws, q.run b₀ b = .ok (a, ws) →
      (f a).Meets (engine fails foreign) asks commits post (l.ask (engine fails foreign) q (.ok a) ws))
    (herror : ∀ e, post (l.ask (engine fails foreign) q (.error e) []) (.error e)) :
    ((ask q).andThen f).Meets (engine fails foreign) asks commits post l := by
  refine meets_bind.mpr (meets_ask hasks (fun b₀ b a ws h => hok b₀ b a ws h) fun e => herror e)

theorem meets_readOnce {post : Local Write Query Query.Row Error → Except Error q.Row → Prop}
    (hasks : l.aborted = false → asks l q)
    (hok : ∀ b₀ b a ws, q.run b₀ b = .ok (a, ws) →
      post (l.ask (engine fails foreign) q (.ok a) ws).drop (.ok a))
    (herror : ∀ e, post (l.ask (engine fails foreign) q (.error e) []).drop (.error e)) :
    (readOnce q).Meets (engine fails foreign) asks commits post l :=
  meets_bind.mpr (meets_ask hasks (fun b₀ b a ws h => hok b₀ b a ws h) fun e => herror e)

theorem meets_writeOnce {post : Local Write Query Query.Row Error → Except Error q.Row → Prop}
    (hasks : l.aborted = false → asks l q)
    (hok : ∀ b₀ b a ws, q.run b₀ b = .ok (a, ws) →
      commits (l.ask (engine fails foreign) q (.ok a) ws) ∧
        post (l.ask (engine fails foreign) q (.ok a) ws).publish (.ok a))
    (herror : ∀ r e, post (l.ask (engine fails foreign) q r []).drop (.error e)) :
    (writeOnce q).Meets (engine fails foreign) asks commits post l := by
  refine meets_transaction (meets_ask hasks (fun b₀ b a ws h => ⟨fun a' ha => ?_, by simp⟩)
    fun e => ⟨by simp, fun e' _ => herror _ e'⟩)
  cases ha
  exact ⟨fun _ => hok b₀ b a ws h, fun _ => herror (.ok a) _⟩

end Rules

/-- After a unique violation the account is looked up on the same transaction handle. -/
def createOrFind (env : Env) (phone : String) (now : Instant) : Script (User × Bool) :=
  (ask (.createUser (env.uuid 0) phone now)).bind fun
    | .ok created => .ret (.ok (created, true))
    | .error e =>
      if isUniqueViolation e then
        (ask (.getUserByPhone phone)).andThen fun existing => .ret (.ok (existing, false))
      else .ret (.error e)

def resolveOrCreateUser (env : Env) (phone : String) (now : Instant) : Script (User × Bool) :=
  (ask (.getUserByPhone phone)).bind fun
    | .ok existing => .ret (.ok (existing, false))
    | .error .noRows => createOrFind env phone now
    | .error e => .ret (.error e)

def relink (device : Device) (deviceId userId : UUID) : Script Unit :=
  match device.userId with
  | some owner => .ret (if owner = userId then .ok () else .error .deviceLinkedToOtherAccount)
  | none => ask (.linkDeviceToUser userId deviceId)

/-- The tail of `linkDevice`: what the device owns goes to the account. -/
def backfill (deviceId userId : UUID) : Script Unit :=
  (ask (.deleteRedundantDeviceFollows deviceId userId)).andThen fun _ =>
  (ask (.backfillFollowsUserID userId deviceId)).andThen fun _ =>
  ask (.backfillUpdatesAuthorUserID userId deviceId)

def linkDevice (deviceId userId : UUID) : Script Unit :=
  (ask (.getDeviceByID deviceId)).andThen fun device =>
  (relink device deviceId userId).andThen fun _ =>
  backfill deviceId userId

def issue (cfg : Config) (env : Env) (userId : UUID) : Script Session :=
  (ask (.createRefreshToken (env.uuid 1) userId (hashRefreshToken cfg env.token)
    (env.clock + cfg.refreshTokenTTL))).andThen fun _ =>
  .ret (.ok { refreshToken := env.token, userId })

/-- The tail of both verification paths, inside the transaction. -/
def openSession (cfg : Config) (env : Env) (phone : String) (deviceId : UUID) : Script Session :=
  (resolveOrCreateUser env phone env.clock).andThen fun found =>
  (linkDevice deviceId found.1.id).andThen fun _ =>
  (issue cfg env found.1.id).andThen fun session =>
  .ret (.ok { session with isNewAccount := found.2 })

def withinTx {α : Type} (body : Script α) : Script α :=
  Prog.transaction .transactionAborted body

/-- What a call returns: a session, or nothing. -/
abbrev Reply := Except Error (Option Session)

/-- Store a new code and hand it to the sender. -/
def storeAndSend (cfg : Config) (env : Env) (phone : String) : Script (Option Session) :=
  (writeOnce (.createOtpCode (env.uuid 0) phone (hashOTPCode cfg phone env.otpCode)
    cfg.otpMaxAttempts (env.clock + cfg.otpTTL) env.now)).andThen fun _ =>
  .ret (env.smsSend.map fun _ => none)

def requestOTP (cfg : Config) (env : Env) (rawPhone : String) : Script (Option Session) :=
  match normalizePhone rawPhone, env.external with
  | .error e, _ => .ret (.error e)
  | .ok _, some provider => .ret (provider.startVerification.map fun _ => none)
  | .ok phone, none =>
    (readOnce (.getLatestOtpCode phone)).bind fun
      | .ok latest =>
        if env.clock - latest.createdAt < cfg.resendCooldown then .ret (.error .otpResendTooSoon)
        else storeAndSend cfg env phone
      | .error .noRows => storeAndSend cfg env phone
      | .error e => .ret (.error e)

/-- The presented code is right, or its attempt is counted. -/
def checkCode (cfg : Config) (env : Env) (phone code : String) (deviceId : UUID) (row : OtpCode) :
    Script Session :=
  if hashOTPCode cfg phone code = row.codeHash then
    (withinTx ((ask (.consumeOtpCodeIfValid env.clock row.id (hashOTPCode cfg phone code)
        env.clock phone)).andThen fun _ =>
      openSession cfg env phone deviceId)).bind fun r => .ret (asAlreadyConsumed r)
  else
    (writeOnce (.incrementOtpAttempts row.id)).andThen fun _ =>
    .ret (.error .otpCodeMismatch)

def verifyOTP (cfg : Config) (env : Env) (rawPhone code : String) (deviceId : UUID) :
    Script Session :=
  match normalizePhone rawPhone, env.external with
  | .error e, _ => .ret (.error e)
  | .ok phone, some provider =>
    match provider.checkVerification with
    | .error e => .ret (.error e)
    | .ok () => withinTx (openSession cfg env phone deviceId)
  | .ok phone, none =>
    (readOnce (.getLatestOtpCode phone)).bind fun
      | .error .noRows => .ret (.error .otpNotRequested)
      | .error e => .ret (.error e)
      | .ok row =>
        match otpPrecheck row env.clock with
        | .error e => .ret (.error e)
        | .ok () => checkCode cfg env phone code deviceId row

/-- No rows out of the rotation: the token is not active any more. -/
def asRevoked {α : Type} : Except Error α → Except Error α
  | .error .noRows => .error .sessionRevoked
  | r => r

def refresh (cfg : Config) (env : Env) (rawRefreshToken : String) : Script Session :=
  (readOnce (.getRefreshTokenByHash (hashRefreshToken cfg rawRefreshToken))).bind fun
    | .error .noRows => .ret (.error .sessionInvalid)
    | .error e => .ret (.error e)
    | .ok row =>
      if row.revokedAt.isSome then .ret (.error .sessionRevoked)
      else if row.expiresAt ≤ env.clock then .ret (.error .sessionExpired)
      else
        (withinTx ((ask (.revokeRefreshTokenIfActive env.clock row.id env.clock)).andThen
          fun userId => issue cfg env userId)).bind fun r => .ret (asRevoked r)

def revoke (cfg : Config) (env : Env) (rawRefreshToken : String) : Script Unit :=
  (readOnce (.getRefreshTokenByHash (hashRefreshToken cfg rawRefreshToken))).bind fun
    | .error .noRows => .ret (.ok ())
    | .error e => .ret (.error e)
    | .ok row =>
      if row.revokedAt.isSome then .ret (.ok ())
      else writeOnce (.revokeRefreshToken env.clock row.id)

def unlinkDevice (deviceId userId : UUID) : Script Unit :=
  writeOnce (.unlinkDeviceFromUser deviceId userId)

/-- The handler: unlinking is best-effort and only for a presented device. -/
def logout (cfg : Config) (env : Env) (userId : UUID) (rawRefreshToken : String)
    (deviceId : Option UUID) : Script Unit :=
  (revoke cfg env rawRefreshToken).andThen fun _ =>
    match deviceId with
    | none => .ret (.ok ())
    | some d => (unlinkDevice d userId).bind fun _ => .ret (.ok ())

/-- The queries that resolve the account and link the device. -/
def Query.LinksAccount : Query → Prop
  | .getUserByPhone _ | .createUser _ _ _ | .getDeviceByID _ | .linkDeviceToUser _ _
  | .deleteRedundantDeviceFollows _ _ | .backfillFollowsUserID _ _
  | .backfillUpdatesAuthorUserID _ _ => True
  | .getLatestOtpCode _ | .createOtpCode _ _ _ _ _ _ | .incrementOtpAttempts _
  | .consumeOtpCodeIfValid _ _ _ _ _ | .unlinkDeviceFromUser _ _ | .createRefreshToken _ _ _ _
  | .getRefreshTokenByHash _ | .revokeRefreshToken _ _ | .revokeRefreshTokenIfActive _ _ _ => False

theorem resolveOrCreateUser_plain (env : Env) (phone : String) (now : Instant) :
    (resolveOrCreateUser env phone now).Plain Query.LinksAccount := by
  refine Prog.plain_bind (Prog.plain_query trivial) fun r => ?_
  split
  · trivial
  · refine Prog.plain_bind (Prog.plain_query trivial) fun r => ?_
    split
    · trivial
    · split
      · exact Prog.plain_andThen (Prog.plain_query trivial) fun _ => trivial
      · trivial
  · trivial

theorem backfill_plain {P : Query → Prop} {deviceId userId : UUID}
    (h₁ : P (.deleteRedundantDeviceFollows deviceId userId))
    (h₂ : P (.backfillFollowsUserID userId deviceId))
    (h₃ : P (.backfillUpdatesAuthorUserID userId deviceId)) :
    (backfill deviceId userId).Plain P := by
  refine Prog.plain_andThen (Prog.plain_query h₁) fun _ => ?_
  refine Prog.plain_andThen (Prog.plain_query h₂) fun _ => ?_
  exact Prog.plain_query h₃

theorem linkDevice_plain (deviceId userId : UUID) :
    (linkDevice deviceId userId).Plain Query.LinksAccount := by
  refine Prog.plain_andThen (Prog.plain_query trivial) fun device => ?_
  refine Prog.plain_andThen ?_ fun _ => backfill_plain trivial trivial trivial
  unfold relink
  split
  · trivial
  · exact Prog.plain_query trivial

def Query.RequestsCode : Query → Prop
  | .getLatestOtpCode _ | .createOtpCode _ _ _ _ _ _ => True
  | _ => False

def Query.RotatesToken : Query → Prop
  | .getRefreshTokenByHash _ | .revokeRefreshTokenIfActive _ _ _ | .createRefreshToken _ _ _ _ =>
    True
  | _ => False

def Query.RevokesToken : Query → Prop
  | .getRefreshTokenByHash _ | .revokeRefreshToken _ _ => True
  | _ => False

theorem readOnce_uses {P : Query → Prop} {q : Query} (hq : P q) : (readOnce q).Uses P :=
  ⟨hq, fun _ => trivial⟩

theorem writeOnce_uses {P : Query → Prop} {q : Query} (hq : P q) : (writeOnce q).Uses P :=
  Prog.uses_transaction (Prog.plain_query hq).uses

theorem uses_reply {P : Query → Prop} {α β : Type} {p : Script α} (hp : p.Uses P) (f : α → β) :
    (p.andThen fun a => .ret (.ok (f a))).Uses P :=
  Prog.uses_andThen hp fun _ => trivial

theorem requestOTP_uses (cfg : Config) (env : Env) (rawPhone : String) :
    (requestOTP cfg env rawPhone).Uses Query.RequestsCode := by
  unfold requestOTP
  split
  · trivial
  · trivial
  · refine Prog.uses_bind (readOnce_uses trivial) fun r => ?_
    have hsend : ∀ phone, (storeAndSend cfg env phone).Uses Query.RequestsCode := fun phone =>
      Prog.uses_andThen (writeOnce_uses trivial) fun _ => trivial
    split
    · split
      · trivial
      · exact hsend _
    · exact hsend _
    · trivial

/-- The queries of a verification. -/
def Query.Verifies (q : Query) : Prop :=
  q.LinksAccount ∨ match q with
    | .getLatestOtpCode _ | .incrementOtpAttempts _ | .consumeOtpCodeIfValid _ _ _ _ _
    | .createRefreshToken _ _ _ _ => True
    | _ => False

theorem openSession_uses (cfg : Config) (env : Env) (phone : String) (deviceId : UUID) :
    (openSession cfg env phone deviceId).Uses Query.Verifies := by
  refine Prog.uses_andThen ((resolveOrCreateUser_plain env phone env.clock).uses.mono ?_) fun _ => ?_
  · exact fun q hq => .inl hq
  · refine Prog.uses_andThen ((linkDevice_plain deviceId _).uses.mono ?_) fun _ => ?_
    · exact fun q hq => .inl hq
    · refine Prog.uses_andThen (Prog.uses_andThen ?_ fun _ => trivial) fun _ => trivial
      exact (Prog.plain_query (.inr trivial)).uses

theorem verifyOTP_uses (cfg : Config) (env : Env) (rawPhone code : String) (deviceId : UUID) :
    (verifyOTP cfg env rawPhone code deviceId).Uses Query.Verifies := by
  have hopen : ∀ phone, (openSession cfg env phone deviceId).Uses Query.Verifies := fun phone =>
    openSession_uses cfg env phone deviceId
  unfold verifyOTP
  split
  · trivial
  · split
    · trivial
    · exact Prog.uses_transaction (hopen _)
  · refine Prog.uses_bind (readOnce_uses (.inr trivial)) fun r => ?_
    split
    · trivial
    · trivial
    · split
      · trivial
      · unfold checkCode
        split
        · refine Prog.uses_bind (Prog.uses_transaction ?_) fun _ => trivial
          exact Prog.uses_andThen (Prog.plain_query (.inr trivial)).uses fun _ => hopen _
        · exact Prog.uses_andThen (writeOnce_uses (.inr trivial)) fun _ => trivial

theorem refresh_uses (cfg : Config) (env : Env) (token : String) :
    (refresh cfg env token).Uses Query.RotatesToken := by
  refine Prog.uses_bind (readOnce_uses trivial) fun r => ?_
  split
  · trivial
  · trivial
  · split
    · trivial
    · split
      · trivial
      · refine Prog.uses_bind (Prog.uses_transaction ?_) fun r => trivial
        refine Prog.uses_andThen (Prog.plain_query trivial).uses fun userId => ?_
        exact Prog.uses_andThen (Prog.plain_query trivial).uses fun _ => trivial

theorem revoke_uses (cfg : Config) (env : Env) (token : String) :
    (revoke cfg env token).Uses Query.RevokesToken := by
  refine Prog.uses_bind (readOnce_uses trivial) fun r => ?_
  split
  · trivial
  · trivial
  · split
    · trivial
    · exact writeOnce_uses trivial

/-- A logout revokes the token and unlinks the device. -/
def Query.LogsOut (q : Query) : Prop :=
  q.RevokesToken ∨ match q with
    | .unlinkDeviceFromUser _ _ => True
    | _ => False

theorem logout_uses (cfg : Config) (env : Env) (userId : UUID) (token : String)
    (deviceId : Option UUID) : (logout cfg env userId token deviceId).Uses Query.LogsOut := by
  refine Prog.uses_andThen ((revoke_uses cfg env token).mono fun _ => .inl) fun _ => ?_
  split
  · trivial
  · exact Prog.uses_bind (writeOnce_uses (.inr trivial)) fun _ => trivial

inductive Op
  | requestOTP (env : Env) (phone : String)
  | verifyOTP (env : Env) (phone code : String) (deviceId : UUID)
  | refresh (env : Env) (token : String)
  | revoke (env : Env) (token : String)
  | logout (env : Env) (userId : UUID) (token : String) (deviceId : Option UUID)

def program (cfg : Config) : Op → Script (Option Session)
  | .requestOTP env phone => requestOTP cfg env phone
  | .verifyOTP env phone code deviceId =>
    (verifyOTP cfg env phone code deviceId).andThen fun session => .ret (.ok (some session))
  | .refresh env token =>
    (refresh cfg env token).andThen fun session => .ret (.ok (some session))
  | .revoke env token => (revoke cfg env token).andThen fun _ => .ret (.ok none)
  | .logout env userId token deviceId =>
    (logout cfg env userId token deviceId).andThen fun _ => .ret (.ok none)

/-- Other parts of the backend may commit in between. -/
def system : Engine Database Write Query Query.Row Error :=
  engine true fun _ db db' => decide (Aside db.tables db'.tables)

abbrev AccountLocal := Local Write Query Query.Row Error

abbrev AccountCommit := Commit Database Write Query Query.Row Error Op

abbrev AccountDone := Done Write Query Query.Row Error Op Reply

abbrev AccountState (n : ℕ) := State Database Write Query Query.Row Error Op Reply n

abbrev AccountAction (n : ℕ) := Action Database Op n

end Tekir.AccountCalls
