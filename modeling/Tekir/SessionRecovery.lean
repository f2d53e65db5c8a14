import Tekir.ContentQueries
import Tekir.ServedSessions

/-!
# Sessions that can be recovered

`restore` and `refreshIfExpired` of the client's session service, whose requests the server answers
or not, over a storage that may fail. A rotation consumes a token on the server before the client
has written the next one.
-/
namespace Tekir.SessionRecovery
open Machine EventLoop Table Schema Statements Environment
open AccountServices (Session)
open SessionService
open ServedSessions (Jwt serveRefresh signAccessToken)

structure Client where
  service : Service := {}
  world : World
  /-- The clock of the server at the last request that it answered. -/
  clock : Instant
  /-- Whether it has answered 401. -/
  rejected : Bool := false

inductive Operation
  | restore
  /-- `now` is the clock of the client. -/
  | refreshIfExpired (now : ℤ)

def Operation.call : Operation → Call
  | .restore => .restore
  | .refreshIfExpired now => .refreshIfExpired now

inductive Outcome
  | done
  /-- A storage error, or any other exception that is no `DioException`. -/
  | thrown
  /-- The server answers the request. -/
  | served (env : Env)
  /-- A connection failure, a timeout or a 5xx: the server does not rotate. -/
  | unanswered

/-- The errors that the handler answers with 401. -/
def isInvalidSession : Error → Bool
  | .sessionExpired | .sessionRevoked | .sessionInvalid => true
  | _ => false

def rejects (cfg : Config) (env : Env) (refreshToken : String) (w : World) : Bool :=
  match AccountServices.refresh cfg env refreshToken w with
  | (.error e, _) => isInvalidSession e
  | (.ok _, _) => false

variable (jwt : Jwt) (cfg : Config) (accessTokenTTL : ℤ)

def call (c : Client) (i : Operation) : Option (Client × List Task) :=
  let t := SessionService.call c.service i.call
  some ({ c with service := t.1 }, t.2)

/-- The code goes on with a reply that leaves the server alone. -/
def goOn (c : Client) (task : Task) (r : Reply) : Option (Client × List Task) :=
  (SessionService.resume c.service task r).map fun t => ({ c with service := t.1 }, t.2)

/-- `POST /v1/auth/refresh`, which an empty token does not pass. -/
def request (c : Client) (task : Task) (env : Env) (refreshToken : String) :
    Option (Client × List Task) :=
  let t := serveRefresh jwt cfg accessTokenTTL env refreshToken c.world
  (SessionService.resume c.service task t.1).map fun u =>
    ({ service := u.1, world := t.2, clock := env.clock
       rejected := c.rejected ||
        (decide (refreshToken ≠ "") && rejects cfg env refreshToken c.world) }, u.2)

/-- A generated token is not empty. -/
def resume (c : Client) (task : Task) : Outcome → Option (Client × List Task)
  | .done => goOn c task .done
  | .thrown => goOn c task .thrown
  | .unanswered => goOn c task .refused
  | .served env =>
    match task with
    | .rotate _ refreshToken _ =>
      if env.token = "" then none else request jwt cfg accessTokenTTL c task env refreshToken
    | _ => none

def handlers : Handlers Client Task Operation Outcome where
  call := call
  resume := resume jwt cfg accessTokenTTL

/-- The server would rotate the token at that time. -/
structure Active (db : Database) (now : Instant) (account : UUID) (token : String) : Prop where
  nonempty : token ≠ ""
  row : ∃ row ∈ db.tables.refreshTokens, row.tokenHash = hashRefreshToken cfg token ∧
    row.userId = account ∧ row.revokedAt = none ∧ now < row.expiresAt

/-- The refresh tokens in the cache and in the storage. -/
def heldTokens (s : Service) : List String :=
  (s.cached.map SessionIdentity.refreshToken).toList ++ s.storage.refreshToken.toList

/-- The token of the next rotation: a refresh takes the cached one, a restore the stored one. -/
def nextToken (s : Service) : Option String :=
  if s.refreshFuture then none
  else
    match s.cached with
    | some current => some current.refreshToken
    | none => if s.restoreFuture || s.storage.userId.isNone then none else s.storage.refreshToken

/-- The client holds an active token, and the next rotation presents one. -/
structure Recoverable (account : UUID) (c : Client) : Prop where
  held : ∃ token ∈ heldTokens c.service, Active cfg c.world.db c.clock account token
  next : ∃ token ∈ nextToken c.service, Active cfg c.world.db c.clock account token

/-- Once no call is under way, the session can be recovered unless the server has rejected it. -/
def Settled (account : UUID) (l : Loop Client Task) : Prop :=
  l.waiting = [] → l.state.rejected = false → Recoverable cfg account l.state

/-- What leaves a session that the server has not rejected: after a rotation, all that is left
undone at most is the last write of a restore; after a request that failed, the clearing stops
before it has taken the only token. -/
def spares : Task → Outcome → Bool
  | .rotate _ _ _, .served _ => decide (0 < cfg.refreshTokenTTL)
  | .persist (some .restore) _ key, .thrown => key == .userId
  | .persist (some (.refresh _)) _ _, .thrown => false
  | .clear (.rotation .restore) key, .done => key == .accessToken
  | .clear (.rotation (.refresh _)) key, .done => key != .userId
  | _, _ => true

def guard : Guard Client Task Operation Outcome where
  answer c task r := c.rejected = true ∨ spares cfg task r = true

instance (c : Client) (i : Operation) : Decidable ((guard cfg).call c i) :=
  inferInstanceAs (Decidable True)

instance (c : Client) (task : Task) (r : Outcome) : Decidable ((guard cfg).answer c task r) :=
  inferInstanceAs (Decidable (_ = true ∨ _ = true))

variable {jwt cfg accessTokenTTL}

section Server

variable {db db' : Database} {w : World} {env : Env} {now : Instant} {account : UUID}
  {token : String}

/-- A row of the account that has not run out names the token. -/
theorem active_of_row {row : RefreshToken} (hnonempty : token ≠ "")
    (hrow : row ∈ db.tables.refreshTokens) (hhash : row.tokenHash = hashRefreshToken cfg token)
    (hrevoked : row.revokedAt = none) (hexpires : now < row.expiresAt) :
    Active cfg db now row.userId token :=
  ⟨hnonempty, row, hrow, hhash, rfl, hrevoked, hexpires⟩

/-- A hash names one row, whose account is that of an active token. -/
theorem Active.userId_eq {row : RefreshToken} (h : Active cfg db now account token)
    (hrow : row ∈ db.tables.refreshTokens) (hhash : row.tokenHash = hashRefreshToken cfg token) :
    row.userId = account := by
  obtain ⟨row', hrow', hhash', rfl, -⟩ := h.row
  have heq : row = row' := (db.valid.holds .refreshTokensTokenHashKey).eq_of_key_eq hrow hrow'
    (by simp [hhash, hhash']) (by simp)
  rw [heq]

/-- The account whose token was revoked has the next one. -/
theorem issue_active {session : Session} (htoken : env.token ≠ "") (httl : 0 < cfg.refreshTokenTTL)
    (h : AccountServices.issue cfg env account db = .ok (session, db')) :
    session.refreshToken = env.token ∧ Active cfg db' env.clock account env.token := by
  obtain ⟨db₁, hwrite, h⟩ := bind_eq_ok.mp h
  cases h
  have ht := congrArg Tables.refreshTokens (write_eq_ok.mp hwrite)
  refine ⟨rfl, htoken, ⟨env.uuid 1, account, _, env.clock + cfg.refreshTokenTTL, none⟩, ?_, rfl,
    rfl, rfl, ?_⟩
  · rw [ht]
    exact List.mem_append_right _ (List.mem_singleton_self _)
  · exact Int.lt_add_of_pos_right env.clock httl

theorem revokeRefreshTokenIfActive_userId {row : RefreshToken} {at' : Instant} {userId : UUID}
    (hrow : row ∈ db.tables.refreshTokens)
    (h : AccountQueries.revokeRefreshTokenIfActive at' row.id now db = .ok (userId, db')) :
    userId = row.userId := by
  obtain ⟨row', hone, h⟩ := bind_eq_ok.mp h
  obtain ⟨db₁, -, h⟩ := bind_eq_ok.mp h
  cases h
  obtain ⟨hrow', hactive⟩ := List.mem_filter.mp (one_eq_ok hone)
  have hid : row'.id = row.id := by
    simp only [Bool.and_eq_true, beq_iff_eq] at hactive
    exact hactive.1.1
  have heq : row' = row := (db.valid.holds .refreshTokensPkey).eq_of_key_eq hrow' hrow
    (by simp [hid]) (by simp)
  rw [heq]

/-- What the server makes of an active token. -/
inductive Answered (cfg : Config) (env : Env) (account : UUID) (token : String) (w : World) :
    Except Error Session × World → Prop
  | rotated (session : Session) (w' : World) (htoken : session.refreshToken = env.token)
      (hactive : Active cfg w'.db env.clock account env.token) :
      Answered cfg env account token w (.ok session, w')
  | rejected (e : Error) (he : isInvalidSession e = true) :
      Answered cfg env account token w (.error e, w)
  /-- The token is as it was. -/
  | failed (e : Error) (hactive : Active cfg w.db env.clock account token) :
      Answered cfg env account token w (.error e, w)

theorem refresh_answered (h : Active cfg w.db now account token) (htoken : env.token ≠ "")
    (httl : 0 < cfg.refreshTokenTTL) :
    Answered cfg env account token w (AccountServices.refresh cfg env token w) := by
  unfold AccountServices.refresh
  split
  case h_1 => exact .rejected _ rfl
  case h_2 e hne hget => exact absurd (ContentQueries.one_eq_error hget) hne
  case h_3 row hget =>
    obtain ⟨hrow, hhash⟩ := List.mem_filter.mp (one_eq_ok hget)
    rw [beq_iff_eq] at hhash
    have haccount : row.userId = account := h.userId_eq hrow hhash
    split
    · exact .rejected _ rfl
    · rename_i hrevoked
      split
      · exact .rejected _ rfl
      · rename_i hexpires
        have hstill : Active cfg w.db env.clock account token := by
          rw [← haccount]
          exact active_of_row h.nonempty hrow hhash (by simpa using hrevoked)
            (Int.not_le.mp hexpires)
        dsimp only
        generalize hrotated : (AccountQueries.revokeRefreshTokenIfActive env.clock row.id env.clock
          w.db >>= fun x => AccountServices.issue cfg env x.1 x.2) = rotated
        split
        · exact .rejected _ rfl
        · rcases rotated with e | ⟨session, db'⟩
          · exact .failed e hstill
          · obtain ⟨⟨userId, db₁⟩, hrevoke, hissue⟩ := bind_eq_ok.mp hrotated
            have huser := revokeRefreshTokenIfActive_userId hrow hrevoke
            rw [huser, haccount] at hissue
            obtain ⟨hsession, hactive⟩ := issue_active htoken httl hissue
            exact .rotated session _ hsession hactive

end Server

section Invariant

variable {account : UUID} {token : String} {c : Client} {s : Service} {task : Task} {r : Outcome}
  {i : Operation} {t : Client × List Task} {current : SessionIdentity}

/-- A restore is under way, and the cache is empty. -/
structure Restoring (s : Service) : Prop where
  cached : s.cached = none
  restoreFuture : s.restoreFuture = true
  refreshFuture : s.refreshFuture = false

/-- A refresh of the session is under way. -/
structure Refreshing (current : SessionIdentity) (s : Service) : Prop where
  cached : s.cached = some current
  refreshFuture : s.refreshFuture = true

/-- The storage has the token and whose it is. -/
structure Stocked (token : String) (s : Service) : Prop where
  refreshToken : s.storage.refreshToken = some token
  userId : s.storage.userId.isSome = true

/-- What is known while the task waits. -/
def UnderWay (cfg : Config) (account : UUID) (c : Client) : Task → Prop
  | .readRefreshToken => Restoring c.service ∧
      ∃ token, Stocked token c.service ∧ Active cfg c.world.db c.clock account token
  | .readUserId refreshToken => Restoring c.service ∧
      ∃ token, refreshToken = some token ∧ Stocked token c.service ∧
        Active cfg c.world.db c.clock account token
  | .rotate .restore token _ => Restoring c.service ∧ Stocked token c.service ∧
      Active cfg c.world.db c.clock account token
  | .rotate (.refresh current) token _ => Refreshing current c.service ∧
      token = current.refreshToken ∧ Active cfg c.world.db c.clock account token
  | .persist (some .restore) session key => Restoring c.service ∧
      c.service.storage.userId.isSome = true ∧
      Active cfg c.world.db c.clock account session.refreshToken ∧
      (key = .userId → c.service.storage.refreshToken = some session.refreshToken)
  | .persist (some (.refresh current)) session _ => Refreshing current c.service ∧
      Active cfg c.world.db c.clock account session.refreshToken
  | .clear (.rotation .restore) key => Restoring c.service ∧ key ≠ .userId ∧
      ∃ token, Stocked token c.service ∧ Active cfg c.world.db c.clock account token
  | .clear (.rotation (.refresh current)) _ => Refreshing current c.service ∧
      Active cfg c.world.db c.clock account current.refreshToken
  | _ => False

/-- One rotation at a time is under way, if any. -/
def Sound (cfg : Config) (account : UUID) (l : Loop Client Task) : Prop :=
  l.state.rejected = true ∨
    match l.waiting with
    | [] => Recoverable cfg account l.state
    | [task] => UnderWay cfg account l.state task
    | _ => False

theorem Sound.settled {l : Loop Client Task} (h : Sound cfg account l) :
    Settled cfg account l := by
  intro hwaiting hrejected
  rcases h with h | h
  · rw [hrejected] at h
    cases h
  · rw [hwaiting] at h
    exact h

/-- A cached session whose token is active. -/
theorem recoverable_of_cached (hcached : c.service.cached = some current)
    (hrefresh : c.service.refreshFuture = false)
    (hactive : Active cfg c.world.db c.clock account current.refreshToken) :
    Recoverable cfg account c := by
  refine ⟨⟨current.refreshToken, ?_, hactive⟩, current.refreshToken, ?_, hactive⟩
  · simp [heldTokens, hcached]
  · simp [nextToken, hcached, hrefresh]

/-- A stored session whose token is active. -/
theorem recoverable_of_stocked (hcached : c.service.cached = none)
    (hrestore : c.service.restoreFuture = false) (hrefresh : c.service.refreshFuture = false)
    (hstocked : Stocked token c.service)
    (hactive : Active cfg c.world.db c.clock account token) : Recoverable cfg account c := by
  refine ⟨⟨token, ?_, hactive⟩, token, ?_, hactive⟩
  · simp [heldTokens, hstocked.refreshToken]
  · simpa [nextToken, hcached, hrestore, hrefresh, hstocked.refreshToken] using
      Option.isSome_iff_ne_none.mp hstocked.userId

/-- The next token is either the cached one, or the stored one. -/
theorem Recoverable.cases (h : Recoverable cfg account c) :
    c.service.refreshFuture = false ∧
      ((∃ current, c.service.cached = some current ∧
        Active cfg c.world.db c.clock account current.refreshToken) ∨
      ∃ token, c.service.cached = none ∧ c.service.restoreFuture = false ∧
        Stocked token c.service ∧ Active cfg c.world.db c.clock account token) := by
  obtain ⟨token, htoken, hactive⟩ := h.next
  unfold nextToken at htoken
  split at htoken
  · cases htoken
  · rename_i hrefresh
    refine ⟨by simpa using hrefresh, ?_⟩
    split at htoken
    · rename_i current hcached
      cases htoken
      exact .inl ⟨current, hcached, hactive⟩
    · rename_i hcached
      split at htoken
      · cases htoken
      · rename_i hmissing
        simp only [Bool.or_eq_true, not_or, Bool.not_eq_true, Option.isNone_eq_false_iff]
          at hmissing
        exact .inr ⟨token, hcached, hmissing.1, ⟨htoken, hmissing.2⟩, hactive⟩

/-- Nothing that the code goes on with changes the server. -/
theorem goOn_eq_some {reply : Reply} : goOn c task reply = some t ↔ ∃ s ws,
    SessionService.resume c.service task reply = some (s, ws) ∧
      t = ({ c with service := s }, ws) := by
  constructor
  · intro h
    obtain ⟨⟨s, ws⟩, hresume, rfl⟩ := Option.map_eq_some_iff.mp h
    exact ⟨s, ws, hresume, rfl⟩
  · rintro ⟨s, ws, hresume, rfl⟩
    exact Option.map_eq_some_iff.mpr ⟨(s, ws), hresume, rfl⟩

/-- What a turn leaves, of the client and of the tasks. -/
def Leaves (cfg : Config) (account : UUID) (t : Client × List Task) : Prop :=
  Sound cfg account ⟨t.1, t.2⟩

theorem leaves_rest (h : Recoverable cfg account c) : Leaves cfg account (c, []) :=
  .inr h

theorem leaves_underWay (h : UnderWay cfg account c task) : Leaves cfg account (c, [task]) :=
  .inr h

/-- A call starts at most one task. -/
theorem call_leaves (h : Recoverable cfg account c) (hcall : call c i = some t) :
    Leaves cfg account t := by
  obtain ⟨hrefresh, ⟨current, hcached, hactive⟩ | ⟨token, hcached, hrestore, hstocked, hactive⟩⟩ :=
    h.cases
  · cases hcall
    cases i with
    | restore =>
      have hsame : SessionService.call c.service .restore = (c.service, []) := by
        simp [SessionService.call, hcached]
      rw [Operation.call, hsame]
      exact leaves_rest h
    | refreshIfExpired now =>
      rw [Operation.call, SessionService.call, hcached]
      dsimp only
      split
      · exact leaves_rest h
      · exact leaves_underWay ⟨⟨rfl, rfl⟩, rfl, hactive⟩
  · cases hcall
    cases i with
    | restore =>
      have hstarts : SessionService.call c.service .restore =
          ({ c.service with restoreFuture := true }, [.readRefreshToken]) := by
        simp [SessionService.call, hcached, hrestore]
      rw [Operation.call, hstarts]
      exact leaves_underWay ⟨⟨hcached, rfl, hrefresh⟩, token, ⟨hstocked.1, hstocked.2⟩, hactive⟩
    | refreshIfExpired now =>
      rw [Operation.call, SessionService.call, hcached]
      exact leaves_rest h

/-- While a rotation is under way, calls share it. -/
theorem call_shares (h : UnderWay cfg account c task) (hcall : call c i = some t) :
    t = (c, []) := by
  have hbusy : Restoring c.service ∨ ∃ current, Refreshing current c.service := by
    unfold UnderWay at h
    split at h
    case h_4 | h_6 => exact .inr ⟨_, h.1⟩
    case h_8 => exact .inr ⟨_, h.1⟩
    case h_9 => exact h.elim
    all_goals exact .inl h.1
  cases hcall
  have hsame : SessionService.call c.service i.call = (c.service, []) := by
    rcases hbusy with hbusy | ⟨current, hbusy⟩
    · cases i with
      | restore => simp [SessionService.call, Operation.call, hbusy.restoreFuture]
      | refreshIfExpired now => simp [SessionService.call, Operation.call, hbusy.cached]
    · cases i with
      | restore => simp [SessionService.call, Operation.call, hbusy.cached]
      | refreshIfExpired now =>
        simp [SessionService.call, Operation.call, hbusy.cached, hbusy.refreshFuture]
  rw [hsame]

/-- A rotation that goes on with nothing leaves what its caller had. -/
theorem rotationFailed_leaves (rotation : Rotation)
    (h : match rotation with
      | .restore => Restoring c.service ∧
          ∃ token, Stocked token c.service ∧ Active cfg c.world.db c.clock account token
      | .refresh current => Refreshing current c.service ∧
          Active cfg c.world.db c.clock account current.refreshToken) :
    Leaves cfg account ({ c with service := rotationFailed c.service rotation }, []) := by
  apply leaves_rest
  cases rotation with
  | restore =>
    obtain ⟨hrestoring, token, hstocked, hactive⟩ := h
    exact recoverable_of_stocked hrestoring.cached rfl hrestoring.refreshFuture
      ⟨hstocked.refreshToken, hstocked.userId⟩ hactive
  | refresh current =>
    obtain ⟨hrefreshing, hactive⟩ := h
    exact recoverable_of_cached hrefreshing.cached rfl hactive

theorem done_leaves (h : UnderWay cfg account c task) (hspares : spares cfg task .done = true)
    (hgoOn : goOn c task .done = some t) : Leaves cfg account t := by
  obtain ⟨s, ws, hresume, rfl⟩ := goOn_eq_some.mp hgoOn
  cases task with
  | readRefreshToken =>
    cases hresume
    obtain ⟨hrestoring, token, hstocked, hactive⟩ := h
    exact leaves_underWay ⟨hrestoring, token, hstocked.refreshToken, hstocked, hactive⟩
  | readUserId refreshToken =>
    obtain ⟨hrestoring, token, rfl, hstocked, hactive⟩ := h
    obtain ⟨userId, huser⟩ := Option.isSome_iff_exists.mp hstocked.userId
    simp only [SessionService.resume, huser] at hresume
    cases hresume
    exact leaves_underWay ⟨hrestoring, hstocked, hactive⟩
  | rotate rotation refreshToken userId => cases hresume
  | persist rotation session key =>
    cases rotation with
    | none => exact h.elim
    | some rotation =>
      cases rotation with
      | restore =>
        obtain ⟨hrestoring, huser, hactive, hwritten⟩ := h
        obtain ⟨hcached, hrestore, hrefresh⟩ := hrestoring
        cases key with
        | accessToken =>
          cases hresume
          exact leaves_underWay ⟨⟨hcached, hrestore, hrefresh⟩, huser, hactive, nofun⟩
        | refreshToken =>
          cases hresume
          exact leaves_underWay ⟨⟨hcached, hrestore, hrefresh⟩, huser, hactive, fun _ => rfl⟩
        | userId =>
          cases hresume
          exact leaves_rest (recoverable_of_cached rfl hrefresh hactive)
      | refresh current =>
        obtain ⟨hrefreshing, hactive⟩ := h
        cases key with
        | accessToken | refreshToken =>
          cases hresume
          exact leaves_underWay ⟨⟨hrefreshing.cached, hrefreshing.refreshFuture⟩, hactive⟩
        | userId =>
          cases hresume
          exact leaves_rest (recoverable_of_cached rfl rfl hactive)
  | clear clearing key =>
    cases clearing with
    | logout revocation => exact h.elim
    | rotation rotation =>
      cases rotation with
      | restore =>
        obtain ⟨hrestoring, -, token, hstocked, hactive⟩ := h
        obtain ⟨hcached, hrestore, hrefresh⟩ := hrestoring
        obtain rfl : key = .accessToken := by simpa [spares] using hspares
        cases hresume
        exact leaves_underWay ⟨⟨hcached, hrestore, hrefresh⟩, nofun, token,
          ⟨hstocked.refreshToken, hstocked.userId⟩, hactive⟩
      | refresh current =>
        obtain ⟨hrefreshing, hactive⟩ := h
        cases key with
        | accessToken | refreshToken =>
          cases hresume
          exact leaves_underWay ⟨⟨hrefreshing.cached, hrefreshing.refreshFuture⟩, hactive⟩
        | userId => simp [spares] at hspares
  | logoutReadRefreshToken | logoutReadAccessToken | revoke => exact h.elim

theorem thrown_leaves (h : UnderWay cfg account c task) (hspares : spares cfg task .thrown = true)
    (hgoOn : goOn c task .thrown = some t) : Leaves cfg account t := by
  obtain ⟨s, ws, hresume, rfl⟩ := goOn_eq_some.mp hgoOn
  cases task with
  | readRefreshToken =>
    cases hresume
    exact rotationFailed_leaves .restore h
  | readUserId refreshToken =>
    cases hresume
    obtain ⟨hrestoring, token, -, hstocked, hactive⟩ := h
    exact rotationFailed_leaves .restore ⟨hrestoring, token, hstocked, hactive⟩
  | rotate rotation refreshToken userId =>
    cases hresume
    cases rotation with
    | restore => exact rotationFailed_leaves .restore ⟨h.1, refreshToken, h.2⟩
    | refresh current =>
      obtain ⟨hrefreshing, rfl, hactive⟩ := h
      exact rotationFailed_leaves (.refresh current) ⟨hrefreshing, hactive⟩
  | persist rotation session key =>
    cases rotation with
    | none => exact h.elim
    | some rotation =>
      cases rotation with
      | restore =>
        cases hresume
        obtain ⟨hrestoring, huser, hactive, hwritten⟩ := h
        have hkey : key = .userId := by simpa [spares] using hspares
        exact rotationFailed_leaves .restore
          ⟨hrestoring, session.refreshToken, ⟨hwritten hkey, huser⟩, hactive⟩
      | refresh current => simp [spares] at hspares
  | clear clearing key =>
    cases clearing with
    | logout revocation => exact h.elim
    | rotation rotation =>
      cases hresume
      cases rotation with
      | restore => exact rotationFailed_leaves .restore ⟨h.1, h.2.2⟩
      | refresh current => exact rotationFailed_leaves (.refresh current) h
  | logoutReadRefreshToken | logoutReadAccessToken | revoke => exact h.elim

/-- A request that failed has left the token, which is now to be cleared. -/
theorem refused_leaves {rotation : Rotation} {refreshToken : String} {userId : UserId}
    (h : UnderWay cfg account c (.rotate rotation refreshToken userId)) :
    Leaves cfg account (c, [.clear (.rotation rotation) .accessToken]) := by
  apply leaves_underWay
  cases rotation with
  | restore => exact ⟨h.1, nofun, refreshToken, h.2⟩
  | refresh current =>
    obtain ⟨hrefreshing, rfl, hactive⟩ := h
    exact ⟨hrefreshing, hactive⟩

theorem unanswered_leaves (h : UnderWay cfg account c task)
    (hgoOn : goOn c task .refused = some t) : Leaves cfg account t := by
  obtain ⟨s, ws, hresume, rfl⟩ := goOn_eq_some.mp hgoOn
  cases task with
  | rotate rotation refreshToken userId =>
    cases hresume
    exact refused_leaves h
  | readRefreshToken | readUserId => cases hresume
  | persist rotation => cases rotation <;> cases hresume
  | clear clearing => cases clearing <;> cases hresume
  | logoutReadRefreshToken | logoutReadAccessToken | revoke => exact h.elim

/-- The server's answer: another token, a rejection, or an error that has left the token. -/
theorem served_leaves {env : Env} {rotation : Rotation} {refreshToken : String} {userId : UserId}
    (h : UnderWay cfg account c (.rotate rotation refreshToken userId))
    (hactive : Active cfg c.world.db c.clock account refreshToken) (htoken : env.token ≠ "")
    (httl : 0 < cfg.refreshTokenTTL)
    (hrequest : request jwt cfg accessTokenTTL c (.rotate rotation refreshToken userId) env
      refreshToken = some t) : Leaves cfg account t := by
  have hanswered : Answered cfg env account refreshToken c.world
    (AccountServices.refresh cfg env refreshToken c.world) := refresh_answered hactive htoken httl
  have hnonempty := hactive.nonempty
  unfold request serveRefresh rejects at hrequest
  rw [if_neg hnonempty] at hrequest
  generalize AccountServices.refresh cfg env refreshToken c.world = answer at hanswered hrequest
  cases hanswered with
  | rotated session w' hsession hnew =>
    cases hrequest
    apply leaves_underWay
    cases rotation with
    | restore => exact ⟨⟨h.1.cached, h.1.restoreFuture, h.1.refreshFuture⟩, h.2.1.userId,
        hsession ▸ hnew, nofun⟩
    | refresh current => exact ⟨⟨h.1.cached, h.1.refreshFuture⟩, hsession ▸ hnew⟩
  | rejected e he =>
    cases hrequest
    exact .inl (by simp [hnonempty, he])
  | failed e hstill =>
    cases hrequest
    have hwaits : ∀ rejected, UnderWay cfg account ⟨c.service, c.world, env.clock, rejected⟩
        (.rotate rotation refreshToken userId) := by
      intro rejected
      cases rotation with
      | restore => exact ⟨h.1, h.2.1, hstill⟩
      | refresh current => exact ⟨h.1, h.2.1, hstill⟩
    exact refused_leaves (hwaits _)

theorem resume_leaves (h : UnderWay cfg account c task) (hspares : spares cfg task r = true)
    (hresume : resume jwt cfg accessTokenTTL c task r = some t) : Leaves cfg account t := by
  cases r with
  | done => exact done_leaves h hspares hresume
  | thrown => exact thrown_leaves h hspares hresume
  | unanswered => exact unanswered_leaves h hresume
  | served env =>
    unfold resume at hresume
    dsimp only at hresume
    split at hresume
    · rename_i rotation refreshToken userId
      split at hresume
      · cases hresume
      · rename_i htoken
        have httl : 0 < cfg.refreshTokenTTL := of_decide_eq_true hspares
        have hactive : Active cfg c.world.db c.clock account refreshToken := by
          cases rotation with
          | restore => exact h.2.2
          | refresh current => exact h.2.2
        exact served_leaves h hactive htoken httl hresume
    · cases hresume

theorem rejected_resume (h : c.rejected = true)
    (hresume : resume jwt cfg accessTokenTTL c task r = some t) : t.1.rejected = true := by
  have hgoOn : ∀ reply, goOn c task reply = some t → t.1.rejected = true := by
    intro reply hreply
    obtain ⟨s, ws, -, rfl⟩ := goOn_eq_some.mp hreply
    exact h
  cases r with
  | done => exact hgoOn .done hresume
  | thrown => exact hgoOn .thrown hresume
  | unanswered => exact hgoOn .refused hresume
  | served env =>
    unfold resume at hresume
    dsimp only at hresume
    split at hresume
    · split at hresume
      · cases hresume
      · obtain ⟨u, -, rfl⟩ := Option.map_eq_some_iff.mp hresume
        exact Bool.or_eq_true_iff.mpr (.inl h)
    · cases hresume

theorem next_sound {l l' : Loop Client Task} {e : Event Operation Outcome}
    (h : Sound cfg account l) (hadmits : (guard cfg).Admits l e)
    (hnext : (handlers jwt cfg accessTokenTTL).next l e = some l') : Sound cfg account l' := by
  cases e with
  | call i =>
    obtain ⟨c, ws, hcall, rfl⟩ := Handlers.next_call.mp hnext
    rcases h with hrejected | h
    · cases hcall
      exact .inl hrejected
    · obtain ⟨state, waiting⟩ := l
      match waiting, h with
      | [], h => exact call_leaves h hcall
      | [task], h =>
        cases call_shares h hcall
        exact .inr h
  | answer k r =>
    obtain ⟨task, c, ws, htask, hresume, rfl⟩ := Handlers.next_answer.mp hnext
    rcases h with hrejected | h
    · exact .inl (rejected_resume hrejected hresume)
    · rcases hadmits task htask with hrejected | hspares
      · exact .inl (rejected_resume hrejected hresume)
      · obtain ⟨state, waiting⟩ := l
        match waiting, h with
        | [], h => cases htask
        | [task'], h =>
          obtain ⟨rfl, rfl⟩ : k = 0 ∧ task' = task := by
            cases k with
            | zero => exact ⟨rfl, Option.some_inj.mp htask⟩
            | succ k => cases htask
          exact resume_leaves h hspares hresume

end Invariant

/-- In every run of turns that the guard admits, a session that could be recovered can be recovered
whenever no call is under way, unless the server has rejected it. -/
theorem sessions_recoverable {account : UUID} {c : Client} {es : List (Event Operation Outcome)}
    (hc : Recoverable cfg account c)
    (h : Each (handlers jwt cfg accessTokenTTL).next (guard cfg).Admits ⟨c, []⟩ es) :
    Always (handlers jwt cfg accessTokenTTL).next (Settled cfg account) ⟨c, []⟩ es := by
  have hsound : Always (handlers jwt cfg accessTokenTTL).next (Sound cfg account) ⟨c, []⟩ es :=
    Each.always (fun _ _ _ hl hg hnext => next_sound hl hg hnext) (.inr hc) h
  exact hsound.mono fun l hl => hl.settled

section Runs

open Backend ServedSessions

def firstToken : RefreshToken :=
  { id := 1, userId := 7, tokenHash := "first", expiresAt := 100 }

/-- A session in the storage of an app that has just started, and on the server. -/
def stored : Client where
  service := { storage := ⟨some ⟨"jwt", none⟩, some "first", some "7"⟩ }
  world :=
    { db := ⟨{ users := [{ id := 7, phone := "+905551234567", phoneVerifiedAt := 0 }]
               refreshTokens := [firstToken] }, by decide⟩ }
  clock := 0

theorem stored_recoverable : Recoverable plainConfig 7 stored := by
  have hactive : Active plainConfig stored.world.db stored.clock firstToken.userId "first" :=
    active_of_row (by decide) (List.mem_singleton_self _) rfl rfl (by decide)
  exact recoverable_of_stocked rfl rfl rfl ⟨rfl, rfl⟩ hactive

/-- A restore without a connection, whose clearing fails at once; one that leaves the last key
unwritten; one that succeeds, and a refresh. -/
theorem recoverable_after_failures :
    Always (handlers plainJwt plainConfig 1000000).next (Settled plainConfig 7) ⟨stored, []⟩
      [.call .restore, .answer 0 .done, .answer 0 .done, .answer 0 .unanswered, .answer 0 .thrown,
        .call .restore, .answer 0 .done, .answer 0 .done, .answer 0 (.served (plainEnv 1)),
        .answer 0 .done, .answer 0 .done, .answer 0 .thrown,
        .call .restore, .answer 0 .done, .answer 0 .done, .answer 0 (.served (plainEnv 2)),
        .answer 0 .done, .answer 0 .done, .answer 0 .done,
        .call (.refreshIfExpired 1000000), .call .restore, .answer 0 (.served (plainEnv 3)),
        .answer 0 .done, .answer 0 .done, .answer 0 .done] :=
  sessions_recoverable stored_recoverable (by decide +kernel)

/-- The app is started without a connection: the stored session is cleared. -/
theorem session_cleared_offline :
    ¬ Always (handlers plainJwt plainConfig 1000000).next (Settled plainConfig 7) ⟨stored, []⟩
      [.call .restore, .answer 0 .done, .answer 0 .done, .answer 0 .unanswered, .answer 0 .done,
        .answer 0 .done, .answer 0 .done] := by
  intro h
  obtain ⟨l, hl, htest⟩ := exists_of_exec_test (handlers plainJwt plainConfig 1000000).next
    ⟨stored, []⟩ [.call .restore, .answer 0 .done, .answer 0 .done, .answer 0 .unanswered,
      .answer 0 .done, .answer 0 .done, .answer 0 .done]
    (fun l => l.waiting.isEmpty && !l.state.rejected && (heldTokens l.state.service).isEmpty)
    (by decide)
  simp only [Bool.and_eq_true, Bool.not_eq_true', List.isEmpty_iff] at htest
  obtain ⟨⟨hwaiting, hrejected⟩, hnone⟩ := htest
  obtain ⟨token, htoken, -⟩ := (h.final hl hwaiting hrejected).held
  rw [hnone] at htoken
  cases htoken

end Runs

end Tekir.SessionRecovery
