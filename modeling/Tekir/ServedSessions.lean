import Tekir.FinalSessions
import Tekir.SessionRecords

/-!
# The client's session and the server's record of it

The session service of one installation, whose requests the server answers one after another; the
storage carries out every operation. An access token is checked by its signature and its age alone.
-/
namespace Tekir.ServedSessions
open Machine Table Schema Statements Environment SessionRecords
open AccountServices (Session)
open FinalSessions (stored)
open SessionService

/-- The signing and the parsing of jwts. The text of one is not empty and has no blanks. -/
structure Jwt where
  sign : UUID → ℤ → String
  /-- The subject and the expiry of a text whose signature is right. -/
  parse : String → Option (UUID × ℤ)
  parse_sign : ∀ userId exp, parse (sign userId exp) = some (userId, exp)
  sign_trimmed : ∀ userId exp, trimSpace (sign userId exp) = sign userId exp
  sign_nonempty : ∀ userId exp, sign userId exp ≠ ""

structure Served where
  service : Service := {}
  world : World

inductive Action
  /-- `VerifyOTP`, and `save` with the session that it opens. -/
  | signIn (env : Env) (phone code : String) (deviceId : UUID)
  | restore (env : Env)
  /-- `now` is the clock of the client. -/
  | refreshIfExpired (env : Env) (now : ℤ)
  | logout (env : Env) (deviceToken : Option String)
  /-- The process ends and the app is started again. -/
  | restart

/-- What the server may draw a token from. -/
def Action.draws : Action → Option Env
  | .signIn env _ _ _ | .restore env | .refreshIfExpired env _ => some env
  | .logout _ _ | .restart => none

variable (jwt : Jwt) (cfg : Config) (accessTokenTTL : ℤ)

/-- An instant is in microseconds, the `exp` of a token in seconds. -/
def microseconds : ℤ := 1000000

def signAccessToken (env : Env) (userId : UUID) : AccessToken :=
  let exp := (env.clock + accessTokenTTL) / microseconds
  ⟨jwt.sign userId exp, some exp⟩

/-- Returns the subject. -/
def validateAccessToken (now : Instant) (rawToken : String) : Option UUID :=
  (jwt.parse rawToken).bind fun claims =>
    if now < claims.2 * microseconds then some claims.1 else none

/-- `RequireBearer`, which passes on the account. -/
def requireBearer (now : Instant) (authorization : Option AccessToken) : Option UUID :=
  authorization.bind fun header =>
    let token := trimSpace header.text
    if token = "" then none else validateAccessToken jwt now token

/-- `ResolveToken`. -/
def resolveToken (w : World) (rawToken : String) : Option UUID :=
  (w.db.tables.devices.find? fun d => d.tokenHash == hashDeviceToken cfg rawToken).bind fun d =>
    if d.revokedAt.isSome then none else some d.id

/-- `OptionalDeviceToken`, which passes on the device. -/
def optionalDeviceToken (w : World) (header : Option String) : Option UUID :=
  header.bind fun value =>
    let token := trimSpace value
    if token = "" then none else resolveToken cfg w token

/-- `POST /v1/auth/refresh` -/
def serveRefresh (env : Env) (refreshToken : String) (w : World) : Reply × World :=
  if refreshToken = "" then (.refused, w)
  else
    match AccountServices.refresh cfg env refreshToken w with
    | (.ok session, w) =>
      (.tokens (some (signAccessToken jwt accessTokenTTL env session.userId))
        (some session.refreshToken), w)
    | (.error _, w) => (.refused, w)

/-- `POST /v1/auth/logout` -/
def serveLogout (env : Env) (r : Revocation) (w : World) : Reply × World :=
  match requireBearer jwt env.clock r.accessToken, r.refreshToken with
  | some userId, some refreshToken =>
    if refreshToken = "" then (.refused, w)
    else
      match AccountServices.logout cfg env userId refreshToken
        (optionalDeviceToken cfg w r.deviceToken) w with
      | (.ok (), w) => (.done, w)
      | (.error _, w) => (.refused, w)
  | _, _ => (.refused, w)

/-- What a task of the client waits for. -/
def answer (env : Env) (w : World) : Task → Reply × World
  | .rotate _ refreshToken _ => serveRefresh jwt cfg accessTokenTTL env refreshToken w
  | .revoke r => serveLogout jwt cfg env r w
  | _ => (.done, w)

/-- Carry out the tasks, and those that they lead to. -/
def settle (env : Env) : ℕ → Served → List Task → Option Served
  | _, s, [] => some s
  | 0, _, _ :: _ => none
  | n + 1, s, task :: tasks =>
    let t := answer jwt cfg accessTokenTTL env s.world task
    (resume s.service task t.1).bind fun u => settle env n ⟨u.1, t.2⟩ (tasks ++ u.2)

/-- No call leads to more tasks one after another. -/
def maxTasks : ℕ := 6

def carryOut (env : Env) (s : Served) (i : Call) : Option Served :=
  let t := call s.service i
  settle jwt cfg accessTokenTTL env maxTasks { s with service := t.1 } t.2

def uuidText (id : UUID) : UserId :=
  toString id

def opened (env : Env) (session : Session) : SessionIdentity :=
  ⟨signAccessToken jwt accessTokenTTL env session.userId, session.refreshToken,
    uuidText session.userId⟩

def perform (s : Served) : Action → Option Served
  | .signIn env phone code deviceId =>
    match AccountServices.verifyOTP cfg env phone code deviceId s.world with
    | (.ok session, world) =>
      carryOut jwt cfg accessTokenTTL env { s with world }
        (.save (opened jwt accessTokenTTL env session))
    | (.error _, world) => some { s with world }
  | .restore env => carryOut jwt cfg accessTokenTTL env s .restore
  | .refreshIfExpired env now => carryOut jwt cfg accessTokenTTL env s (.refreshIfExpired now)
  | .logout env deviceToken => carryOut jwt cfg accessTokenTTL env s (.logout deviceToken)
  | .restart => some { s with service := { storage := s.service.storage } }

/-- A generated token is not empty. -/
def step (s : Served) (a : Action) : Option Served :=
  if ∀ env ∈ a.draws, env.token ≠ "" then perform jwt cfg accessTokenTTL s a else none

/-- The refresh token that the client holds, and its access token. -/
def heldRefreshToken (s : Service) : Option String :=
  (s.cached.map SessionIdentity.refreshToken) <|> s.storage.refreshToken

def heldAccessToken (s : Service) : Option AccessToken :=
  (s.cached.map SessionIdentity.accessToken) <|> s.storage.accessToken

section Calls

variable {jwt cfg accessTokenTTL} {env : Env} {s : Service} {w : World} {n : ℕ}

/-- The server has issued the session, and has its refresh token on record for the account of the
access token. -/
structure Known (jwt : Jwt) (cfg : Config) (db : Database) (session : SessionIdentity) : Prop where
  nonempty : session.refreshToken ≠ ""
  recorded : ∃ userId exp, session.accessToken = ⟨jwt.sign userId exp, some exp⟩ ∧
    Recorded db (hashRefreshToken cfg session.refreshToken) userId

theorem Known.mono {db db' : Database} {session : SessionIdentity} (hkept : Kept db db')
    (h : Known jwt cfg db session) : Known jwt cfg db' session := by
  obtain ⟨userId, exp, haccess, hrecorded⟩ := h.recorded
  exact ⟨h.nonempty, userId, exp, haccess, hkept _ _ hrecorded⟩

/-- What the client holds is what the server has issued. -/
structure Sound (jwt : Jwt) (cfg : Config) (s : Served) : Prop where
  cached : ∀ session ∈ s.service.cached, Known jwt cfg s.world.db session
  storage : ∃ session, s.service.storage = stored session ∧
    ∀ session' ∈ session, Known jwt cfg s.world.db session'

theorem Sound.world {w' : World} (h : Sound jwt cfg ⟨s, w⟩) (hkept : Kept w.db w'.db) :
    Sound jwt cfg ⟨s, w'⟩ := by
  obtain ⟨session, hstorage, hknown⟩ := h.storage
  exact ⟨fun session' hs => (h.cached session' hs).mono hkept, session, hstorage,
    fun session' hs => (hknown session' hs).mono hkept⟩

/-- A session that is held in full, or no session. -/
theorem sound_of_eq {session : Option SessionIdentity} (hcached : s.cached = session)
    (hstorage : s.storage = stored session)
    (hknown : ∀ session' ∈ session, Known jwt cfg w.db session') : Sound jwt cfg ⟨s, w⟩ :=
  ⟨fun session' hs => hknown session' (hcached ▸ hs), session, hstorage, hknown⟩

theorem settle_nil {t : Served} : settle jwt cfg accessTokenTTL env n t [] = some t := by
  cases n <;> rfl

theorem settle_save {session : SessionIdentity} :
    settle jwt cfg accessTokenTTL env (n + 3) ⟨s, w⟩ [.persist none session .accessToken] =
      some ⟨{ s with
        cached := some session, restoreFuture := true, storage := stored (some session) }, w⟩ :=
  settle_nil

theorem settle_persist {r : Rotation} {session : SessionIdentity} :
    settle jwt cfg accessTokenTTL env (n + 3) ⟨s, w⟩ [.persist (some r) session .accessToken] =
      some ⟨rotated { s with storage := stored (some session) } (some session) r, w⟩ :=
  settle_nil

theorem settle_clear {r : Rotation} :
    settle jwt cfg accessTokenTTL env (n + 3) ⟨s, w⟩ [.clear (.rotation r) .accessToken] =
      some ⟨rotated { s with storage := stored none } none r, w⟩ :=
  settle_nil

theorem rotated_cached (session : Option SessionIdentity) (r : Rotation) :
    (rotated s session r).cached = session := by
  cases r <;> rfl

theorem rotated_storage (session : Option SessionIdentity) (r : Rotation) :
    (rotated s session r).storage = s.storage := by
  cases r <;> rfl

theorem known_of_issued {session : Session} {userId : UserId} (htoken : env.token ≠ "")
    (h : Issued cfg env session w.db) : Known jwt cfg w.db
      ⟨signAccessToken jwt accessTokenTTL env session.userId, session.refreshToken, userId⟩ := by
  refine ⟨fun hempty => htoken (h.token.symm.trans hempty), session.userId, _, rfl, ?_⟩
  dsimp only
  rw [h.token]
  exact h.recorded

theorem serveRefresh_spec (refreshToken : String) :
    (∃ session w', Issued cfg env session w'.db ∧
      serveRefresh jwt cfg accessTokenTTL env refreshToken w =
        (.tokens (some (signAccessToken jwt accessTokenTTL env session.userId))
          (some session.refreshToken), w')) ∨
    ∃ w', serveRefresh jwt cfg accessTokenTTL env refreshToken w = (.refused, w') := by
  have hserves : Serves cfg env w (AccountServices.refresh cfg env refreshToken w) :=
    refresh_serves refreshToken
  unfold serveRefresh
  split
  · exact .inr ⟨w, rfl⟩
  · split
    case h_1 session w' hrefresh =>
      rw [hrefresh] at hserves
      exact .inl ⟨session, w', hserves.issued session rfl, rfl⟩
    case h_2 e w' hrefresh => exact .inr ⟨w', rfl⟩

/-- A rotation leaves the session that the server has issued, or none. -/
theorem settle_rotate {r : Rotation} {refreshToken : String} {userId : UserId}
    (htoken : env.token ≠ "") : ∃ t, Sound jwt cfg t ∧
      settle jwt cfg accessTokenTTL env (n + 4) ⟨s, w⟩ [.rotate r refreshToken userId] = some t := by
  have hstep : settle jwt cfg accessTokenTTL env (n + 4) ⟨s, w⟩ [.rotate r refreshToken userId] =
      (resume s (.rotate r refreshToken userId)
        (serveRefresh jwt cfg accessTokenTTL env refreshToken w).1).bind fun u =>
          settle jwt cfg accessTokenTTL env (n + 3)
            ⟨u.1, (serveRefresh jwt cfg accessTokenTTL env refreshToken w).2⟩ u.2 := rfl
  rw [hstep]
  rcases serveRefresh_spec refreshToken with ⟨session, w', hissued, heq⟩ | ⟨w', heq⟩
  · rw [heq]
    refine ⟨_, ?_, settle_persist⟩
    refine sound_of_eq (rotated_cached _ r) (rotated_storage _ r) fun session' hs => ?_
    cases hs
    exact known_of_issued htoken hissued
  · rw [heq]
    exact ⟨_, sound_of_eq (rotated_cached none r) (rotated_storage none r) nofun, settle_clear⟩

theorem carryOut_save {session : SessionIdentity} (h : Known jwt cfg w.db session) :
    ∃ t, Sound jwt cfg t ∧
      carryOut jwt cfg accessTokenTTL env ⟨s, w⟩ (.save session) = some t := by
  refine ⟨_, ?_, settle_save⟩
  refine sound_of_eq rfl rfl fun session' hs => ?_
  cases hs
  exact h

theorem carryOut_restore (h : Sound jwt cfg ⟨s, w⟩) (htoken : env.token ≠ "") :
    ∃ t, Sound jwt cfg t ∧ carryOut jwt cfg accessTokenTTL env ⟨s, w⟩ .restore = some t := by
  unfold carryOut call
  dsimp only
  split
  · exact ⟨_, h, settle_nil⟩
  · obtain ⟨session, hstorage, -⟩ := h.storage
    obtain ⟨cached, restoreFuture, refreshFuture, storage⟩ := s
    obtain rfl : storage = stored session := hstorage
    cases session with
    | none => exact ⟨_, sound_of_eq (rotated_cached none .restore) rfl nofun, settle_nil⟩
    | some session => exact settle_rotate htoken

theorem carryOut_refreshIfExpired {now : ℤ} (h : Sound jwt cfg ⟨s, w⟩) (htoken : env.token ≠ "") :
    ∃ t, Sound jwt cfg t ∧
      carryOut jwt cfg accessTokenTTL env ⟨s, w⟩ (.refreshIfExpired now) = some t := by
  unfold carryOut call
  dsimp only
  split
  · exact ⟨_, h, settle_nil⟩
  · split
    · exact ⟨_, h, settle_nil⟩
    · exact settle_rotate htoken

theorem serveLogout_reply (r : Revocation) :
    ∃ w', serveLogout jwt cfg env r w = (.done, w') ∨
      serveLogout jwt cfg env r w = (.refused, w') := by
  unfold serveLogout
  split
  · split
    · exact ⟨w, .inr rfl⟩
    · split
      · exact ⟨_, .inl rfl⟩
      · exact ⟨_, .inr rfl⟩
  · exact ⟨w, .inr rfl⟩

theorem settle_revoke {r : Revocation} :
    settle jwt cfg accessTokenTTL env (n + 1) ⟨s, w⟩ [.revoke r] =
      some ⟨s, (serveLogout jwt cfg env r w).2⟩ := by
  have hstep : settle jwt cfg accessTokenTTL env (n + 1) ⟨s, w⟩ [.revoke r] =
      (resume s (.revoke r) (serveLogout jwt cfg env r w).1).bind fun u =>
        settle jwt cfg accessTokenTTL env n ⟨u.1, (serveLogout jwt cfg env r w).2⟩ u.2 := rfl
  rw [hstep]
  obtain ⟨w', h | h⟩ : ∃ w', serveLogout jwt cfg env r w = (.done, w') ∨
      serveLogout jwt cfg env r w = (.refused, w') := serveLogout_reply r
  · rw [h]
    exact settle_nil
  · rw [h]
    exact settle_nil

/-- What a logout does once it knows what to send. -/
theorem settle_drop (s : Service) (r : Revocation) (n : ℕ) :
    settle jwt cfg accessTokenTTL env (n + 4) ⟨(drop s r).1, w⟩ (drop s r).2 = some
      ⟨{ s with cached := none, restoreFuture := false, storage := stored none },
        match r.refreshToken with
        | none => w
        | some _ => (serveLogout jwt cfg env r w).2⟩ := by
  obtain ⟨refreshToken, accessToken, deviceToken⟩ := r
  cases refreshToken with
  | none => exact settle_nil
  | some token => exact settle_revoke

/-- A logout drops the session, and sends what the client has held. -/
theorem carryOut_logout {deviceToken : Option String} :
    carryOut jwt cfg accessTokenTTL env ⟨s, w⟩ (.logout deviceToken) = some
      ⟨{ s with cached := none, restoreFuture := false, storage := stored none },
        match heldRefreshToken s with
        | none => w
        | some token =>
          (serveLogout jwt cfg env ⟨some token, heldAccessToken s, deviceToken⟩ w).2⟩ := by
  obtain ⟨cached, restoreFuture, refreshFuture, accessToken, refreshToken, userId⟩ := s
  cases cached with
  | some session => exact settle_drop _ _ 2
  | none =>
    cases refreshToken with
    | none =>
      exact settle_drop ⟨none, restoreFuture, refreshFuture, accessToken, none, userId⟩
        ⟨none, accessToken, deviceToken⟩ 0
    | some token =>
      exact settle_drop ⟨none, restoreFuture, refreshFuture, accessToken, some token, userId⟩
        ⟨some token, accessToken, deviceToken⟩ 0

theorem serveLogout_kept (r : Revocation) :
    Kept w.db (serveLogout jwt cfg env r w).2.db := by
  unfold serveLogout
  split
  case h_1 userId token _ _ =>
    split
    · exact Kept.refl _
    · have hkept : Kept w.db (AccountServices.logout cfg env userId token
          (optionalDeviceToken cfg w r.deviceToken) w).2.db := logout_kept userId token _
      split
      case h_1 h | h_2 h =>
        rw [h] at hkept
        exact hkept
  · exact Kept.refl _

/-- A call returns, and what the client holds then is what the server has issued. -/
theorem step_sound {t : Served} (h : Sound jwt cfg t) {a : Action}
    (ha : ∀ env ∈ a.draws, env.token ≠ "") :
    ∃ t', Sound jwt cfg t' ∧ step jwt cfg accessTokenTTL t a = some t' := by
  rw [step, if_pos ha]
  cases a with
  | signIn env phone code deviceId =>
    have hserves : Serves cfg env t.world (AccountServices.verifyOTP cfg env phone code deviceId
      t.world) := verifyOTP_serves phone code deviceId
    unfold perform
    dsimp only
    split
    case h_1 session world hverify =>
      rw [hverify] at hserves
      exact carryOut_save (known_of_issued (ha env rfl) (hserves.issued session rfl))
    case h_2 e world hverify =>
      rw [hverify] at hserves
      exact ⟨_, h.world hserves.kept, rfl⟩
  | restore env => exact carryOut_restore h (ha env rfl)
  | refreshIfExpired env now => exact carryOut_refreshIfExpired h (ha env rfl)
  | logout env deviceToken =>
    refine ⟨_, ?_, carryOut_logout⟩
    refine Sound.world (w := t.world) (sound_of_eq rfl rfl nofun) ?_
    split
    · exact Kept.refl _
    · exact serveLogout_kept _
  | restart =>
    obtain ⟨session, hstorage, hknown⟩ := h.storage
    refine ⟨⟨{ storage := t.service.storage }, t.world⟩, ⟨fun session' hs => ?_, ?_⟩, rfl⟩
    · cases hs
    · exact ⟨session, hstorage, hknown⟩

theorem sound_of_step {t t' : Served} {a : Action} (h : Sound jwt cfg t)
    (hstep : step jwt cfg accessTokenTTL t a = some t') : Sound jwt cfg t' := by
  by_cases ha : ∀ env ∈ a.draws, env.token ≠ ""
  · obtain ⟨u, hu, heq⟩ : ∃ u, Sound jwt cfg u ∧ step jwt cfg accessTokenTTL t a = some u :=
      step_sound h ha
    exact Option.some_inj.mp (heq.symm.trans hstep) ▸ hu
  · rw [step, if_neg ha] at hstep
    cases hstep

/-- A fresh installation. -/
theorem sound_start : Sound jwt cfg ⟨{}, w⟩ := by
  refine ⟨fun session hs => ?_, none, rfl, nofun⟩
  cases hs

theorem sound_of_exec {as : List Action} {t : Served}
    (h : exec (step jwt cfg accessTokenTTL) ⟨{}, w⟩ as = some t) : Sound jwt cfg t :=
  (always_of_step (fun _ _ _ hs => sound_of_step hs) sound_start as).final h

end Calls

section Logout

variable {jwt cfg accessTokenTTL} {s s' : Served} {env : Env} {deviceToken token : String}
  {deviceId userId : UUID}

/-- The client holds an unexpired, unrevoked refresh token of the account. -/
def HoldsToken (cfg : Config) (s : Served) (now : Instant) (token : String) (userId : UUID) :
    Prop :=
  heldRefreshToken s.service = some token ∧
    ∃ row ∈ s.world.db.tables.refreshTokens, row.tokenHash = hashRefreshToken cfg token ∧
      row.userId = userId ∧ row.revokedAt = none ∧ now < row.expiresAt

/-- The session of the account has ended: its token is revoked, the device is not linked to it, and
unless the device was another account's already, none is refused on it. -/
structure Ended (cfg : Config) (token : String) (deviceId userId : UUID) (w w' : World) : Prop where
  revoked : ∃ row ∈ w'.db.tables.refreshTokens, row.tokenHash = hashRefreshToken cfg token ∧
    row.revokedAt.isSome = true
  unlinked : Unlinked w'.db deviceId userId
  admitted : (∀ device ∈ w.db.tables.devices, device.id = deviceId →
      ∀ owner ∈ device.userId, owner = userId) →
    ∀ (env : Env) (phone code : String),
      (∀ provider ∈ env.external, provider.checkVerification = .ok ()) →
        ¬ Rejected (AccountServices.verifyOTP cfg env phone code deviceId w').1

theorem LoggedOut.ended {w w' : World} {row : RefreshToken}
    (h : LoggedOut cfg token deviceId userId w.db w'.db)
    (hrow : row ∈ w.db.tables.refreshTokens) (hhash : row.tokenHash = hashRefreshToken cfg token) :
    Ended cfg token deviceId userId w w' := by
  refine ⟨?_, h.unlinked, fun howner env phone code hprovider => ?_⟩
  · obtain ⟨row', hrow', hhash', -⟩ := h.kept _ _ ⟨row, hrow, hhash, rfl⟩
    exact ⟨row', hrow', hhash', h.revoked row' hrow' hhash'⟩
  · refine verifyOTP_not_rejected hprovider fun device hdevice hid => ?_
    cases hlink : device.userId with
    | none => rfl
    | some owner =>
      have heq := howner device (h.owners device hdevice owner hlink) hid owner hlink
      exact absurd (heq ▸ hlink) (h.unlinked device hdevice hid)

/-- The two tokens that the client holds are of one session. -/
theorem Sound.held (h : Sound jwt cfg s) (htoken : heldRefreshToken s.service = some token) :
    ∃ session, Known jwt cfg s.world.db session ∧ session.refreshToken = token ∧
      heldAccessToken s.service = some session.accessToken := by
  obtain ⟨session, hstorage, hknown⟩ := h.storage
  unfold heldRefreshToken at htoken
  unfold heldAccessToken
  rw [hstorage] at htoken ⊢
  cases hcached : s.service.cached with
  | some current =>
    rw [hcached] at htoken
    exact ⟨current, h.cached current hcached, Option.some_inj.mp htoken, rfl⟩
  | none =>
    rw [hcached] at htoken
    cases session with
    | none => cases htoken
    | some session => exact ⟨session, hknown session rfl, Option.some_inj.mp htoken, rfl⟩

theorem requireBearer_sign {exp : ℤ} {user : UUID} (now : Instant)
    (h : requireBearer jwt now (some ⟨jwt.sign userId exp, some exp⟩) = some user) :
    user = userId := by
  unfold requireBearer validateAccessToken at h
  simp only [Option.bind_some, jwt.sign_trimmed, jwt.sign_nonempty, jwt.parse_sign, if_false] at h
  split at h
  · exact (Option.some_inj.mp h).symm
  · cases h

theorem serveLogout_of_none {w : World} {r : Revocation}
    (h : requireBearer jwt env.clock r.accessToken = none) :
    (serveLogout jwt cfg env r w).2 = w := by
  unfold serveLogout
  rw [h]

theorem serveLogout_of_some {w : World} {accessToken : Option AccessToken} {row : RefreshToken}
    (h : requireBearer jwt env.clock accessToken = some userId) (hnonempty : token ≠ "")
    (hdevice : optionalDeviceToken cfg w (some deviceToken) = some deviceId)
    (hrow : row ∈ w.db.tables.refreshTokens) (hhash : row.tokenHash = hashRefreshToken cfg token) :
    LoggedOut cfg token deviceId userId w.db
      (serveLogout jwt cfg env ⟨some token, accessToken, some deviceToken⟩ w).2.db := by
  obtain ⟨w', hlogout, hloggedOut⟩ : ∃ w', AccountServices.logout cfg env userId token
      (some deviceId) w = (.ok (), w') ∧ LoggedOut cfg token deviceId userId w.db w'.db :=
    logout_spec deviceId userId hrow hhash
  unfold serveLogout
  rw [h]
  dsimp only
  rw [if_neg hnonempty, hdevice, hlogout]
  exact hloggedOut

theorem step_logout (htoken : heldRefreshToken s.service = some token) :
    step jwt cfg accessTokenTTL s (.logout env (some deviceToken)) = some
      ⟨{ s.service with cached := none, restoreFuture := false, storage := stored none },
        (serveLogout jwt cfg env ⟨some token, heldAccessToken s.service, some deviceToken⟩
          s.world).2⟩ := by
  have hdraws : ∀ env' ∈ (Action.logout env (some deviceToken)).draws, env'.token ≠ "" := by
    intro env' henv
    cases henv
  rw [step, if_pos hdraws]
  refine carryOut_logout.trans ?_
  rw [htoken]

/-- In every serial run a logout returns; it has ended the session if and only if the server still
accepted the access token that the client held. -/
theorem logout_ends {w : World} {as : List Action}
    (h : exec (step jwt cfg accessTokenTTL) ⟨{}, w⟩ as = some s)
    (hholds : HoldsToken cfg s env.clock token userId)
    (hdevice : optionalDeviceToken cfg s.world (some deviceToken) = some deviceId) :
    ∃ s', step jwt cfg accessTokenTTL s (.logout env (some deviceToken)) = some s' ∧
      (Ended cfg token deviceId userId s.world s'.world ↔
        (requireBearer jwt env.clock (heldAccessToken s.service)).isSome = true) := by
  obtain ⟨htoken, row, hrow, hhash, hrowUser, hactive, -⟩ := hholds
  obtain ⟨session, hknown, hrefresh, haccess⟩ := (sound_of_exec h).held htoken
  obtain ⟨user, exp, hsigned, hrecorded⟩ := hknown.recorded
  have hnonempty : token ≠ "" := hrefresh ▸ hknown.nonempty
  have huser : user = userId :=
    (hrecorded.userId_eq hrow (hrefresh ▸ hhash)).symm.trans hrowUser
  refine ⟨_, step_logout htoken, ?_⟩
  rw [haccess]
  cases hbearer : requireBearer jwt env.clock (some session.accessToken) with
  | none =>
    -- the request is refused, and the token stays as it is
    rw [serveLogout_of_none hbearer]
    refine ⟨fun hended => ?_, nofun⟩
    obtain ⟨row', hrow', hhash', hrevoked⟩ := hended.revoked
    have heq : row' = row := (s.world.db.valid.holds .refreshTokensTokenHashKey).eq_of_key_eq
      hrow' hrow (by simp [hhash, hhash']) (by simp)
    rw [heq, hactive] at hrevoked
    cases hrevoked
  | some subject =>
    refine ⟨fun _ => rfl, fun _ => ?_⟩
    have hsubject : subject = userId := by
      rw [hsigned] at hbearer
      exact (requireBearer_sign env.clock hbearer).trans huser
    rw [hsubject] at hbearer
    exact LoggedOut.ended (serveLogout_of_some hbearer hnonempty hdevice hrow hhash) hrow hhash

instance {now : Instant} : Decidable (HoldsToken cfg s now token userId) :=
  inferInstanceAs (Decidable (_ ∧ ∃ row ∈ s.world.db.tables.refreshTokens, _))

end Logout

section Runs

/-- The text of a token in unary. -/
def unary (userId : UUID) (exp : ℤ) : List Char :=
  List.replicate (userId + 1) 's' ++
    (if exp < 0 then 'b' else 'a') :: List.replicate exp.natAbs 'e'

theorem count_subject {userId : UUID} {exp : ℤ} :
    (unary userId exp).count 's' = userId + 1 := by
  unfold unary
  split <;> simp [List.count_replicate]

theorem count_expiry {userId : UUID} {exp : ℤ} : (unary userId exp).count 'e' = exp.natAbs := by
  unfold unary
  split <;> simp [List.count_replicate]

theorem mem_sign {userId : UUID} {exp : ℤ} : 'b' ∈ unary userId exp ↔ exp < 0 := by
  unfold unary
  split <;> simp [*]

def parseUnary (text : String) : Option (UUID × ℤ) :=
  match text.toList.count 's' with
  | 0 => none
  | userId + 1 => some (userId,
      if 'b' ∈ text.toList then -(text.toList.count 'e' : ℤ) else text.toList.count 'e')

theorem trimSpace_ofList {cs : List Char} (h : ∀ c ∈ cs, isSpace c = false) :
    trimSpace (String.ofList cs) = String.ofList cs := by
  have hdrop : ∀ ds : List Char, (∀ c ∈ ds, isSpace c = false) → ds.dropWhile isSpace = ds := by
    intro ds hds
    cases ds with
    | nil => rfl
    | cons d ds => exact List.dropWhile_cons_of_neg (by simp [hds d List.mem_cons_self])
  unfold trimSpace
  rw [String.toList_ofList, hdrop cs h, hdrop cs.reverse fun c hc => h c (List.mem_reverse.mp hc),
    List.reverse_reverse]

def plainJwt : Jwt where
  sign userId exp := String.ofList (unary userId exp)
  parse := parseUnary
  parse_sign userId exp := by
    rw [parseUnary, String.toList_ofList, count_subject, count_expiry]
    dsimp only
    by_cases hexp : exp < 0
    · rw [if_pos (mem_sign.mpr hexp), Int.ofNat_natAbs_of_nonpos (Int.le_of_lt hexp), Int.neg_neg]
    · rw [if_neg (mem_sign.not.mpr hexp), Int.natAbs_of_nonneg (Int.not_lt.mp hexp)]
  sign_trimmed userId exp := by
    refine trimSpace_ofList fun c hc => ?_
    rcases List.mem_append.mp hc with hc | hc
    · rw [List.eq_of_mem_replicate hc]
      decide
    · rcases List.mem_cons.mp hc with rfl | hc
      · split <;> decide
      · rw [List.eq_of_mem_replicate hc]
        decide
  sign_nonempty userId exp := by
    intro h
    have hempty : unary userId exp = [] := by simpa using congrArg String.toList h
    exact List.cons_ne_nil _ _ hempty

def longConfig : Config :=
  { Backend.plainConfig with refreshTokenTTL := 2592000000000 }

/-- One installation, linked to nobody. -/
def oneDevice : World where
  db := ⟨{ devices := [{ id := 7, tokenHash := "device", platform := .ios }] }, by decide⟩

def signIn : Action := .signIn (Backend.plainEnv 1) "5551234567" "" 7

/-- The app is started again, and the session that is restored is logged out at once. -/
theorem logout_ends_restored : ∃ s s', exec (step plainJwt longConfig 2000000) ⟨{}, oneDevice⟩
      [signIn, .restart, .restore (Backend.plainEnv 2)] = some s ∧
    step plainJwt longConfig 2000000 s (.logout (Backend.plainEnv 3) (some "device")) = some s' ∧
    Ended longConfig "2" 7 10 s.world s'.world := by
  obtain ⟨s, hs, htest⟩ := exists_of_exec_test (step plainJwt longConfig 2000000) ⟨{}, oneDevice⟩
    [signIn, .restart, .restore (Backend.plainEnv 2)]
    (fun s => decide (HoldsToken longConfig s (Backend.plainEnv 3).clock "2" 10 ∧
      optionalDeviceToken longConfig s.world (some "device") = some 7 ∧
      (requireBearer plainJwt (Backend.plainEnv 3).clock (heldAccessToken s.service)).isSome =
        true)) (by decide +kernel)
  obtain ⟨hholds, hdevice, haccepted⟩ := of_decide_eq_true htest
  obtain ⟨s', hs', hended⟩ := logout_ends hs hholds hdevice
  exact ⟨s, s', hs, hs', hended.mpr haccepted⟩

/-- Three seconds later. -/
def late : Env :=
  { Backend.plainEnv 2 with clock := 3000000, now := 3000000 }

def linked (s : Served) : Bool :=
  s.world.db.tables.devices.any fun device => device.id == 7 && device.userId == some 10

/-- The access token has run out by the time of the logout. -/
theorem session_left_by_logout : ¬ ∀ (as : List Action) (s s' : Served),
    exec (step plainJwt longConfig 2000000) ⟨{}, oneDevice⟩ as = some s →
    HoldsToken longConfig s late.clock "1" 10 →
    optionalDeviceToken longConfig s.world (some "device") = some 7 →
    step plainJwt longConfig 2000000 s (.logout late (some "device")) = some s' →
    Ended longConfig "1" 7 10 s.world s'.world := by
  intro h
  obtain ⟨s, hs, htest⟩ := exists_of_exec_test (step plainJwt longConfig 2000000) ⟨{}, oneDevice⟩
    [signIn]
    (fun s => decide (HoldsToken longConfig s late.clock "1" 10 ∧
      optionalDeviceToken longConfig s.world (some "device") = some 7 ∧
      (step plainJwt longConfig 2000000 s (.logout late (some "device"))).map linked = some true))
    (by decide +kernel)
  obtain ⟨hholds, hdevice, hlinked⟩ := of_decide_eq_true htest
  obtain ⟨s', hs', hlinked⟩ := Option.map_eq_some_iff.mp hlinked
  obtain ⟨device, hmem, hlink⟩ := List.any_eq_true.mp hlinked
  obtain ⟨hid, howner⟩ := Bool.and_eq_true_iff.mp hlink
  exact (h _ s s' hs hholds hdevice hs').unlinked device hmem (beq_iff_eq.mp hid)
    (beq_iff_eq.mp howner)

end Runs

end Tekir.ServedSessions
