import Mathlib.Data.Int.Notation
import Tekir.EventLoop

/-!
# The session service of the client

`SessionIdentityService`: the cached session, the three keys of the secure storage and the two
futures that concurrent calls share. An operation goes on, after each await, as a task; a storage
operation takes effect when it completes.
-/
namespace Tekir.SessionService
open EventLoop

abbrev UserId := String

/-- A jwt, with the `exp` that its payload decodes to, if it does and has one. -/
structure AccessToken where
  text : String
  exp : Option ℤ := none
  deriving DecidableEq

structure SessionIdentity where
  accessToken : AccessToken
  refreshToken : String
  userId : UserId
  deriving DecidableEq

/-- `_isAccessTokenExpired`, thirty seconds early; the clock is in milliseconds. -/
def isAccessTokenExpired (now : ℤ) (accessToken : AccessToken) : Bool :=
  match accessToken.exp with
  | none => true
  | some exp => !decide (now < exp * 1000 - 30000)

inductive Key | accessToken | refreshToken | userId
  deriving DecidableEq

/-- `_persist` and `_clear` take the keys in this order. -/
def Key.next : Key → Option Key
  | .accessToken => some .refreshToken
  | .refreshToken => some .userId
  | .userId => none

structure Storage where
  accessToken : Option AccessToken := none
  refreshToken : Option String := none
  userId : Option UserId := none
  deriving DecidableEq

/-- Write the key's part of the session, or delete the key. -/
def Storage.put (s : Storage) (session : Option SessionIdentity) : Key → Storage
  | .accessToken => { s with accessToken := session.map SessionIdentity.accessToken }
  | .refreshToken => { s with refreshToken := session.map SessionIdentity.refreshToken }
  | .userId => { s with userId := session.map SessionIdentity.userId }

structure Service where
  cached : Option SessionIdentity := none
  /-- Whether `_restoreFuture`, and `_refreshFuture`, is set. -/
  restoreFuture : Bool := false
  refreshFuture : Bool := false
  storage : Storage := {}
  deriving DecidableEq

/-- Who rotates. `refreshIfExpired` falls back on the session it found. -/
inductive Rotation
  | restore
  | refresh (current : SessionIdentity)
  deriving DecidableEq

/-- What a logout sends once the session is cleared. -/
structure Revocation where
  refreshToken : Option String
  accessToken : Option AccessToken
  deviceToken : Option String
  deriving DecidableEq

inductive Clearing
  | rotation (r : Rotation)
  | logout (r : Revocation)
  deriving DecidableEq

inductive Task
  | readRefreshToken
  | readUserId (refreshToken : Option String)
  /-- `POST /v1/auth/refresh` -/
  | rotate (r : Rotation) (refreshToken : String) (userId : UserId)
  /-- A write of `save`, which stands for no rotation, or of a rotation. -/
  | persist (r : Option Rotation) (session : SessionIdentity) (key : Key)
  | clear (c : Clearing) (key : Key)
  | logoutReadRefreshToken (deviceToken : Option String)
  | logoutReadAccessToken (refreshToken deviceToken : Option String)
  /-- `POST /v1/auth/logout` -/
  | revoke (r : Revocation)
  deriving DecidableEq

inductive Call
  | restore
  | refreshIfExpired (now : ℤ)
  | save (identity : SessionIdentity)
  | logout (deviceToken : Option String)
  deriving DecidableEq

inductive Reply
  | done
  | tokens (accessToken : Option AccessToken) (refreshToken : Option String)
  /-- A `DioException` -/
  | refused
  /-- Any other exception, such as a storage error. -/
  | thrown
  deriving DecidableEq

/-- The callback of `_rotate`'s future. -/
def rotated (s : Service) (session : Option SessionIdentity) : Rotation → Service
  | .restore => { s with cached := session, restoreFuture := s.restoreFuture && session.isSome }
  | .refresh _ => { s with cached := session, refreshFuture := false }

/-- `onError` of `_rotate`'s future. -/
def rotationFailed (s : Service) : Rotation → Service
  | .restore => { s with restoreFuture := false }
  | .refresh _ => { s with refreshFuture := false }

/-- A logout drops the cache before it clears the storage. -/
def drop (s : Service) (r : Revocation) : Service × List Task :=
  ({ s with cached := none, restoreFuture := false }, [.clear (.logout r) .accessToken])

def call (s : Service) : Call → Service × List Task
  | .restore =>
    if s.cached.isSome || s.restoreFuture then (s, [])
    else ({ s with restoreFuture := true }, [.readRefreshToken])
  | .refreshIfExpired now =>
    match s.cached with
    | none => (s, [])
    | some current =>
      if !isAccessTokenExpired now current.accessToken || s.refreshFuture then (s, [])
      else ({ s with refreshFuture := true },
        [.rotate (.refresh current) current.refreshToken current.userId])
  | .save identity => (s, [.persist none identity .accessToken])
  | .logout deviceToken =>
    match s.cached with
    | none => (s, [.logoutReadRefreshToken deviceToken])
    | some c => drop s ⟨some c.refreshToken, some c.accessToken, deviceToken⟩

def resume (s : Service) : Task → Reply → Option (Service × List Task)
  | .readRefreshToken, .done => some (s, [.readUserId s.storage.refreshToken])
  | .readUserId refreshToken, .done => some <|
    match refreshToken, s.storage.userId with
    | some refreshToken, some userId => (s, [.rotate .restore refreshToken userId])
    | _, _ => (rotated s none .restore, [])
  | .readRefreshToken, .thrown | .readUserId _, .thrown => some (rotationFailed s .restore, [])
  | .rotate r _ userId, .tokens (some accessToken) (some refreshToken) =>
    some (s, [.persist (some r) ⟨accessToken, refreshToken, userId⟩ .accessToken])
  | .rotate r _ _, .tokens _ _ | .rotate r _ _, .refused =>
    some (s, [.clear (.rotation r) .accessToken])
  | .rotate r _ _, .thrown => some (rotationFailed s r, [])
  | .persist r session key, .done =>
    let s' := { s with storage := s.storage.put (some session) key }
    some <| match key.next, r with
    | some key, _ => (s', [.persist r session key])
    | none, some r => (rotated s' (some session) r, [])
    | none, none => ({ s' with cached := some session, restoreFuture := true }, [])
  | .persist (some r) _ _, .thrown => some (rotationFailed s r, [])
  | .persist none _ _, .thrown => some (s, [])
  | .clear c key, .done =>
    let s' := { s with storage := s.storage.put none key }
    some <| match key.next, c with
    | some key, _ => (s', [.clear c key])
    | none, .rotation r => (rotated s' none r, [])
    | none, .logout r => (s', if r.refreshToken.isSome then [.revoke r] else [])
  | .clear (.rotation r) _, .thrown => some (rotationFailed s r, [])
  | .clear (.logout _) _, .thrown => some (s, [])
  | .logoutReadRefreshToken deviceToken, .done => some <|
    match s.cached with
    | none => (s, [.logoutReadAccessToken s.storage.refreshToken deviceToken])
    | some c => drop s ⟨s.storage.refreshToken, some c.accessToken, deviceToken⟩
  | .logoutReadAccessToken refreshToken deviceToken, .done =>
    some (drop s ⟨refreshToken, s.storage.accessToken, deviceToken⟩)
  | .logoutReadRefreshToken _, .thrown | .logoutReadAccessToken _ _, .thrown => some (s, [])
  | .revoke _, .done | .revoke _, .refused | .revoke _, .thrown => some (s, [])
  | _, _ => none

end Tekir.SessionService
