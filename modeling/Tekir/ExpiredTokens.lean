import Mathlib.Data.List.Basic
import Tekir.SessionService

/-!
# Recovery from an expired access token

Requests to the tekir api, to which `BearerInterceptor` attaches the cached access token, and
`SessionRefreshInterceptor.onError`, which asks `SessionIdentityService.refreshIfExpired` for
another one. The request options are shared by both sends of a request, so the mark of the first
retry stays with the request.
-/
namespace Tekir.ExpiredTokens
open Machine EventLoop
open SessionService (AccessToken SessionIdentity Service Storage Task isAccessTokenExpired)

inductive Outcome | ok | unauthorized | failed
  deriving DecidableEq

structure Request where
  /-- The bearer of every send, the first send first. -/
  sent : List (Option AccessToken)
  /-- `extra['sessionRefreshRetried']` -/
  retried : Bool := false
  /-- What the caller has got. -/
  outcome : Option Outcome := none
  deriving DecidableEq

def Request.mark (q : Request) : Request :=
  { q with retried := true }

/-- An error handler that awaits the shared rotation, and the token it has found stale. -/
structure Handler where
  request : ℕ
  staleToken : AccessToken
  deriving DecidableEq

structure Client where
  service : Service
  now : ℤ
  requests : List Request := []
  awaiting : List Handler := []
  /-- How often `POST /v1/auth/refresh` was sent. -/
  refreshCalls : ℕ := 0
  deriving DecidableEq

inductive Waiting
  | request (request : ℕ) (bearer : Option AccessToken)
  | service (task : Task)
  deriving DecidableEq

inductive Call
  | send
  | tick (now : ℤ)

inductive Reply
  | response (outcome : Outcome)
  | service (reply : SessionService.Reply)
  deriving DecidableEq

namespace Client

def accessToken (c : Client) : Option AccessToken :=
  c.service.cached.map SessionIdentity.accessToken

def update (c : Client) (request : ℕ) (f : Request → Request) : Client :=
  { c with requests := c.requests.modify request f }

/-- The caller gets its response or its error. -/
def conclude (c : Client) (request : ℕ) (outcome : Outcome) : Client :=
  c.update request fun q => { q with outcome := some outcome }

end Client

/-- `BearerInterceptor.onRequest`: without a session the header stays as it is. -/
def onRequest (c : Client) (header : Option AccessToken) : Option AccessToken :=
  c.accessToken <|> header

/-- The request is sent again, with the options of the first send. -/
def fetch (c : Client) (request : ℕ) : Client × List Waiting :=
  let bearer := onRequest c ((c.requests[request]?).bind fun q => q.sent.getLast?.join)
  (c.update request fun q => { q with sent := q.sent ++ [bearer] }, [.request request bearer])

/-- `onError` once `refreshIfExpired` has returned. -/
def refreshed (c : Client) (session : Option SessionIdentity) (h : Handler) :
    Client × List Waiting :=
  match session with
  | none => (c.conclude h.request .unauthorized, [])
  | some s =>
    if s.accessToken = h.staleToken then (c.conclude h.request .unauthorized, [])
    else fetch c h.request

/-- The handlers that have awaited one rotation go on in turn. -/
def resumeAll (session : Option SessionIdentity) : Client → List Handler → Client × List Waiting
  | c, [] => (c, [])
  | c, h :: hs =>
    let t := refreshed c session h
    let u := resumeAll session t.1 hs
    (u.1, t.2 ++ u.2)

/-- `refreshIfExpired` for a token that has expired: the rotation is started, or shared. -/
def share (c : Client) (h : Handler) : Client × List Waiting :=
  let t := SessionService.call c.service (.refreshIfExpired c.now)
  ({ c with service := t.1, awaiting := c.awaiting ++ [h],
            refreshCalls := c.refreshCalls + t.2.length }, t.2.map .service)

/-- `onError` for a 401 -/
def onUnauthorized (c : Client) (request : ℕ) : Client × List Waiting :=
  match c.service.cached, c.requests[request]? with
  | some session, some q =>
    if q.retried then (c.conclude request .unauthorized, [])
    else
      let c' := c.update request Request.mark
      let h : Handler := ⟨request, session.accessToken⟩
      if isAccessTokenExpired c.now session.accessToken then share c' h
      else refreshed c' (some session) h
  | _, _ => (c.conclude request .unauthorized, [])

/-- What `_refreshFuture` completes with: the session found, after an unexpected failure. -/
def completed (s : Service) : Task → SessionService.Reply → Option SessionIdentity
  | .rotate (.refresh current) _ _, .thrown
  | .persist (some (.refresh current)) _ _, .thrown
  | .clear (.rotation (.refresh current)) _, .thrown => some current
  | _, _ => s.cached

def call (c : Client) : Call → Option (Client × List Waiting)
  | .send => some ({ c with requests := c.requests ++ [{ sent := [onRequest c none] }] },
      [.request c.requests.length (onRequest c none)])
  | .tick now => if c.now ≤ now then some ({ c with now }, []) else none

def resume (c : Client) : Waiting → Reply → Option (Client × List Waiting)
  | .request request _, .response .unauthorized => some (onUnauthorized c request)
  | .request request _, .response outcome => some (c.conclude request outcome, [])
  | .service task, .service reply =>
    (SessionService.resume c.service task reply).map fun t =>
      let c' := { c with service := t.1 }
      if c.service.refreshFuture && !t.1.refreshFuture then
        resumeAll (completed t.1 task reply) { c' with awaiting := [] } c.awaiting
      else (c', t.2.map .service)
  | _, _ => none

def handlers : Handlers Client Waiting Call Reply where
  call := call
  resume := resume

def start (session : SessionIdentity) (storage : Storage) (now : ℤ) : Loop Client Waiting :=
  ⟨{ service := { cached := some session, restoreFuture := true, storage }, now }, []⟩

/-- The rotation is called once. A request that is refused is sent once more, with the new token,
before its caller gets anything, and no caller gets the refusal or waits for ever. -/
structure Recovered (a b : AccessToken) (l : Loop Client Waiting) : Prop where
  once : l.state.refreshCalls ≤ 1
  twice : ∀ q ∈ l.state.requests, q.sent.length ≤ 2
  told : ∀ q ∈ l.state.requests, q.outcome ≠ some .unauthorized
  retried : ∀ q ∈ l.state.requests, q.retried = true → q.outcome.isSome →
    q.sent = [some a, some b]
  all : l.waiting = [] → ∀ q ∈ l.state.requests, q.outcome.isSome

instance (a b : AccessToken) : DecidablePred (Recovered a b) := fun l =>
  decidable_of_iff (l.state.refreshCalls ≤ 1 ∧ (∀ q ∈ l.state.requests, q.sent.length ≤ 2) ∧
    (∀ q ∈ l.state.requests, q.outcome ≠ some .unauthorized) ∧
    (∀ q ∈ l.state.requests, q.retried = true → q.outcome.isSome → q.sent = [some a, some b]) ∧
    (l.waiting = [] → ∀ q ∈ l.state.requests, q.outcome.isSome))
  ⟨fun ⟨h₁, h₂, h₃, h₄, h₅⟩ => ⟨h₁, h₂, h₃, h₄, h₅⟩,
    fun h => ⟨h.once, h.twice, h.told, h.retried, h.all⟩⟩

/-- The rotation brings `b`, and the storage works. -/
def brings (b : AccessToken) : Reply → Bool
  | .service (.tokens (some accessToken) (some _)) => accessToken = b
  | .service reply => reply = .done
  | .response _ => true

/-- The bearer of a request that is refused. -/
def refusedBearer : Waiting → Reply → Option (Option AccessToken)
  | .request _ bearer, .response .unauthorized => some bearer
  | _, _ => none

/-- The new token stays fresh and is not refused. -/
def fresh (b : AccessToken) : Guard Client Waiting Call Reply where
  call _
    | .send => True
    | .tick now => isAccessTokenExpired now b = false
  answer _ w r := brings b r = true ∧ refusedBearer w r ≠ some (some b)

/-- A request is refused while the token that it carried is still cached. -/
def early : Guard Client Waiting Call Reply where
  answer c w r := ∀ bearer ∈ refusedBearer w r, c.accessToken = bearer

instance (b : AccessToken) (c : Client) : (i : Call) → Decidable ((fresh b).call c i)
  | .send => isTrue trivial
  | .tick _ => inferInstanceAs (Decidable (_ = false))

instance (b : AccessToken) (c : Client) (w : Waiting) (r : Reply) :
    Decidable ((fresh b).answer c w r) := inferInstanceAs (Decidable (_ ∧ _))

instance (c : Client) (i : Call) : Decidable (early.call c i) := isTrue trivial

instance (c : Client) (w : Waiting) (r : Reply) : Decidable (early.answer c w r) :=
  inferInstanceAs (Decidable (∀ bearer ∈ refusedBearer w r, _))

section Invariant

variable {a b : AccessToken} {c : Client} {w : Waiting} {r : Reply}

def awaited (c : Client) : List ℕ :=
  c.awaiting.map Handler.request

/-- A request under way: one that awaits the rotation was refused, and the others that were
refused have been sent again. -/
structure Treated (a b : AccessToken) (awaits : Prop) (q : Request) : Prop where
  told : q.outcome ≠ some .unauthorized
  once : q.retried = false → q.sent.length = 1
  waits : awaits → q.retried = true ∧ q.outcome = none ∧ q.sent = [some a]
  retried : ¬ awaits → q.retried = true → q.sent = [some a, some b]

structure Sound (a b : AccessToken) (c : Client) : Prop where
  token : c.accessToken = some a ∨ c.accessToken = some b
  refreshing : c.service.refreshFuture = true → c.accessToken = some a
  once : c.refreshCalls ≤ 1
  idle : c.accessToken = some a → c.service.refreshFuture = false → c.refreshCalls = 0
  shared : c.awaiting ≠ [] → c.service.refreshFuture = true
  known : ∀ id ∈ awaited c, id < c.requests.length
  nodup : (awaited c).Nodup
  stale : ∀ h ∈ c.awaiting, h.staleToken = a
  expired : isAccessTokenExpired c.now a = true
  fresh : isAccessTokenExpired c.now b = false
  treated : ∀ id q, c.requests[id]? = some q → Treated a b (id ∈ awaited c) q

/-- A rotation that `refreshIfExpired` has started and that brings `b`. -/
def Rotating (b : AccessToken) : Task → Prop
  | .rotate (.refresh _) _ _ => True
  | .persist (some (.refresh _)) session _ => session.accessToken = b
  | _ => False

def Pending (b : AccessToken) (c : Client) : Waiting → Prop
  | .request id bearer => ∃ q, c.requests[id]? = some q ∧ q.outcome = none ∧ id ∉ awaited c ∧
      q.sent.getLast? = some bearer ∧ (q.retried = true → bearer = some b)
  | .service task => c.service.refreshFuture = true ∧ Rotating b task

/-- A request waits for one response, and there is one rotation. -/
def Apart : Waiting → Waiting → Prop
  | .request id _, .request id' _ => id ≠ id'
  | .service _, .service _ => False
  | _, _ => True

theorem apart_symm (w w' : Waiting) (h : Apart w w') : Apart w' w := by
  cases w <;> cases w' <;> first | exact h | exact fun heq => h heq.symm

@[simp] theorem update_requests (c : Client) (id m : ℕ) (f : Request → Request) :
    (c.update id f).requests[m]? = if id = m then (c.requests[m]?).map f else c.requests[m]? := by
  rw [Client.update, List.getElem?_modify]
  by_cases h : id = m <;> simp [h]

theorem brings_service {reply : SessionService.Reply} (h : brings b (.service reply) = true) :
    reply = .done ∨ ∃ refreshToken, reply = .tokens (some b) (some refreshToken) := by
  unfold brings at h
  split at h
  · rename_i accessToken refreshToken heq
    cases heq
    obtain rfl : accessToken = b := of_decide_eq_true h
    exact .inr ⟨refreshToken, rfl⟩
  · rename_i reply' _ heq
    cases heq
    exact .inl (of_decide_eq_true h)
  · rename_i heq
    cases heq

/-- A step of the rotation goes on to the next, or completes with `b`. -/
theorem rotating_resume {s : Service} {task : Task} {reply : SessionService.Reply}
    {t : Service × List Task} (hs : s.refreshFuture = true) (htask : Rotating b task)
    (hreply : brings b (.service reply) = true) (h : SessionService.resume s task reply = some t) :
    (t.1.refreshFuture = true ∧ t.1.cached = s.cached ∧ ∃ task', t.2 = [task'] ∧ Rotating b task') ∨
    (t.1.refreshFuture = false ∧ t.2 = [] ∧ ∃ session, completed t.1 task reply = some session ∧
      t.1.cached = some session ∧ session.accessToken = b) := by
  unfold Rotating at htask
  split at htask
  case h_1 current refreshToken userId =>
    rcases brings_service hreply with rfl | ⟨refreshToken', rfl⟩
    · cases h
    · cases h
      exact .inl ⟨hs, rfl, _, rfl, rfl⟩
  case h_2 current session key =>
    rcases brings_service hreply with rfl | ⟨refreshToken', rfl⟩
    · cases key with
      | accessToken | refreshToken =>
        cases h
        exact .inl ⟨hs, rfl, _, rfl, htask⟩
      | userId =>
        cases h
        exact .inr ⟨rfl, rfl, session, rfl, rfl, htask⟩
    · cases h
  case h_3 => cases htask

section Resent

def Request.resend (b : AccessToken) (q : Request) : Request :=
  { q with sent := q.sent ++ [some b] }

/-- The requests of the handlers, each sent once more. -/
def resent (b : AccessToken) (c : Client) (hs : List Handler) : Client :=
  hs.foldl (fun c h => c.update h.request (Request.resend b)) c

theorem resent_eq (hs : List Handler) (c : Client) :
    resent b c hs = { c with requests := (resent b c hs).requests } := by
  induction hs generalizing c with
  | nil => rfl
  | cons h hs ih => exact ih (c.update h.request (Request.resend b))

theorem resent_requests {hs : List Handler} (hnodup : (hs.map Handler.request).Nodup) (c : Client)
    (id : ℕ) : (resent b c hs).requests[id]? =
      if id ∈ hs.map Handler.request then (c.requests[id]?).map (Request.resend b)
      else c.requests[id]? := by
  induction hs generalizing c with
  | nil => simp [resent]
  | cons h hs ih =>
    obtain ⟨hnot, hrest⟩ := List.nodup_cons.mp hnodup
    change (resent b (c.update h.request (Request.resend b)) hs).requests[id]? = _
    rw [ih hrest, update_requests]
    by_cases heq : h.request = id
    · subst heq
      simp [hnot]
    · have hne : id ≠ h.request := fun h' => heq h'.symm
      simp [heq, hne]

/-- A rotation that has brought another token has every handler send its request again. -/
theorem resumeAll_eq {session : SessionIdentity} (hsession : session.accessToken = b) (hne : b ≠ a)
    {hs : List Handler} (hstale : ∀ h ∈ hs, h.staleToken = a) {c : Client}
    (hc : c.accessToken = some b) : resumeAll (some session) c hs =
      (resent b c hs, hs.map fun h => .request h.request (some b)) := by
  induction hs generalizing c with
  | nil => rfl
  | cons h hs ih =>
    have hstep : refreshed c (some session) h =
        (c.update h.request (Request.resend b), [.request h.request (some b)]) := by
      have hdiff : session.accessToken ≠ h.staleToken := by
        rw [hsession, hstale h List.mem_cons_self]
        exact hne
      simp only [refreshed, if_neg hdiff, fetch, onRequest, hc]
      rfl
    have hrest := ih (fun h' hh' => hstale h' (List.mem_cons_of_mem h hh'))
      (c := c.update h.request (Request.resend b)) hc
    simp only [resumeAll, hstep, hrest]
    rfl

end Resent

theorem expired_later {now now' : ℤ} (h : isAccessTokenExpired now a = true) (hle : now ≤ now') :
    isAccessTokenExpired now' a = true := by
  unfold isAccessTokenExpired at h ⊢
  split
  · rfl
  · rename_i exp hexp
    simp only [hexp, Bool.not_eq_true', decide_eq_false_iff_not] at h ⊢
    omega

theorem call_keeps {i : Call} {t : Client × List Waiting} (h : Sound a b c)
    (hguard : (fresh b).call c i) (hcall : call c i = some t) :
    KeepsApart (Sound a b) (Pending b) Apart c (fun _ => True) t := by
  cases i with
  | send =>
    cases hcall
    have hnew : ∀ id q, (c.requests ++ [({ sent := [onRequest c none] } : Request)])[id]? = some q →
        c.requests[id]? = some q ∨ id = c.requests.length ∧ q = { sent := [onRequest c none] } := by
      intro id q hq
      rw [List.getElem?_append] at hq
      split at hq
      · exact .inl hq
      · rename_i hle
        have hlt := (List.getElem?_eq_some_iff.mp hq).1
        rw [List.length_singleton] at hlt
        refine .inr ⟨by omega, ?_⟩
        rw [List.mem_singleton.mp (List.mem_of_getElem? hq)]
    -- handlers stand for requests that were sent before
    have hnot : c.requests.length ∉ awaited c := fun hin => Nat.lt_irrefl _ (h.known _ hin)
    refine ⟨⟨h.token, h.refreshing, h.once, h.idle, h.shared, fun id hid => ?_, h.nodup, h.stale,
      h.expired, h.fresh, fun id q hq => ?_⟩, fun w hw _ => ?_, fun w hw => ?_,
      List.pairwise_singleton _ _⟩
    · rw [List.length_append]
      exact Nat.lt_add_right _ (h.known id hid)
    · rcases hnew id q hq with hq | ⟨rfl, rfl⟩
      · exact h.treated id q hq
      · exact ⟨nofun, fun _ => rfl, fun hin => absurd hin hnot, nofun⟩
    · cases w with
      | request id bearer =>
        obtain ⟨q, hq, hrest⟩ := hw
        have hlt := (List.getElem?_eq_some_iff.mp hq).1
        refine ⟨⟨q, (List.getElem?_append_left hlt).trans hq, hrest⟩, fun w' hw' => ?_⟩
        rw [List.mem_singleton.mp hw']
        exact Nat.ne_of_lt hlt
      | service task =>
        refine ⟨hw, fun w' hw' => ?_⟩
        rw [List.mem_singleton.mp hw']
        trivial
    · rw [List.mem_singleton.mp hw]
      exact ⟨_, List.getElem?_concat_length, rfl, hnot, rfl, nofun⟩
  | tick now =>
    simp only [call] at hcall
    split at hcall
    · rename_i hle
      cases hcall
      refine ⟨⟨h.token, h.refreshing, h.once, h.idle, h.shared, h.known, h.nodup, h.stale,
        expired_later h.expired hle, hguard, h.treated⟩, fun w hw _ => ⟨?_, nofun⟩, nofun,
        List.Pairwise.nil⟩
      cases w <;> exact hw
    · cases hcall

/-- A caller gets a response, or an error that is no refusal. -/
theorem conclude_keeps {id : ℕ} {bearer : Option AccessToken} {o : Outcome} (h : Sound a b c)
    (hw : Pending b c (.request id bearer)) (ho : o ≠ .unauthorized) :
    KeepsApart (Sound a b) (Pending b) Apart c (Apart (.request id bearer))
      (c.conclude id o, []) := by
  obtain ⟨q, hq, hnone, hnot, hlast, hretried⟩ := hw
  refine ⟨⟨h.token, h.refreshing, h.once, h.idle, h.shared,
    fun m hm => (List.length_modify ..).symm ▸ h.known m hm, h.nodup, h.stale, h.expired, h.fresh,
    fun m q' hq' => ?_⟩, fun w hw hapart => ⟨?_, nofun⟩, nofun, List.Pairwise.nil⟩
  · rw [Client.conclude, update_requests] at hq'
    split at hq'
    · rename_i heq
      subst heq
      rw [hq] at hq'
      cases hq'
      have ht := h.treated id q hq
      exact ⟨fun heq => ho (Option.some_inj.mp heq), ht.once, fun hin => absurd hin hnot, ht.retried⟩
    · exact h.treated m q' hq'
  · cases w with
    | request m bearer' =>
      obtain ⟨q', hq', hrest⟩ := hw
      refine ⟨q', ?_, hrest⟩
      rw [Client.conclude, update_requests, if_neg hapart, hq']
    | service task => exact hw

/-- What `share` does to a client with an expired token. -/
structure Shared (b : AccessToken) (c : Client) (h : Handler) (t : Client × List Waiting) : Prop where
  cached : t.1.service.cached = c.service.cached
  refreshing : t.1.service.refreshFuture = true
  awaited : awaited t.1 = awaited c ++ [h.request]
  awaiting : t.1.awaiting = c.awaiting ++ [h]
  requests : t.1.requests = c.requests
  now : t.1.now = c.now
  once : t.1.refreshCalls ≤ 1
  tasks : c.service.refreshFuture = true ∧ t.2 = [] ∨
    c.service.refreshFuture = false ∧ ∃ task, t.2 = [.service task] ∧ Rotating b task

theorem share_spec {session : SessionIdentity} (h : Handler)
    (hcached : c.service.cached = some session)
    (hexpired : isAccessTokenExpired c.now session.accessToken = true) (honce : c.refreshCalls ≤ 1)
    (hidle : c.service.refreshFuture = false → c.refreshCalls = 0) : Shared b c h (share c h) := by
  have hawaited : ∀ c' : Client, c'.awaiting = c.awaiting ++ [h] →
      awaited c' = awaited c ++ [h.request] := by
    intro c' hc'
    rw [awaited, hc', List.map_append]
    rfl
  cases hfuture : c.service.refreshFuture with
  | true =>
    have hcall : SessionService.call c.service (.refreshIfExpired c.now) = (c.service, []) := by
      simp [SessionService.call, hcached, hexpired, hfuture]
    simp only [share, hcall]
    exact ⟨rfl, hfuture, hawaited _ rfl, rfl, rfl, rfl, honce, .inl ⟨hfuture, rfl⟩⟩
  | false =>
    have hcall : SessionService.call c.service (.refreshIfExpired c.now) =
        ({ c.service with refreshFuture := true },
          [.rotate (.refresh session) session.refreshToken session.userId]) := by
      simp [SessionService.call, hcached, hexpired, hfuture]
    simp only [share, hcall]
    exact ⟨rfl, rfl, hawaited _ rfl, rfl, rfl, rfl, Nat.le_of_eq (congrArg (· + 1) (hidle hfuture)),
      .inr ⟨hfuture, _, rfl, trivial⟩⟩

/-- A request that is refused for the token still cached has been sent once. -/
theorem refused_open {id : ℕ} {bearer : Option AccessToken} (h : Sound a b c)
    (hw : Pending b c (.request id bearer)) (hfresh : bearer ≠ some b)
    (hearly : c.accessToken = bearer) : ∃ q, c.requests[id]? = some q ∧ q.outcome = none ∧
      q.retried = false ∧ q.sent = [some a] ∧ id ∉ awaited c ∧ c.accessToken = some a := by
  obtain ⟨q, hq, hopen, hnot, hlast, hretried⟩ := hw
  have hold : q.retried = false := Bool.eq_false_iff.mpr fun htrue => hfresh (hretried htrue)
  obtain rfl : bearer = some a := by
    rcases h.token with htoken | htoken
    · exact hearly.symm.trans htoken
    · exact absurd (hearly.symm.trans htoken) hfresh
  refine ⟨q, hq, hopen, hold, ?_, hnot, hearly⟩
  obtain ⟨x, hx⟩ := List.length_eq_one_iff.mp ((h.treated id q hq).once hold)
  rw [hx] at hlast ⊢
  exact congrArg ([·]) (Option.some_inj.mp hlast)

theorem onUnauthorized_shared {id : ℕ} {q : Request} (h : Sound a b c)
    (hq : c.requests[id]? = some q) (hold : q.retried = false) (htoken : c.accessToken = some a) :
    Shared b (c.update id Request.mark) ⟨id, a⟩ (onUnauthorized c id) := by
  obtain ⟨session, hcached, rfl⟩ := Option.map_eq_some_iff.mp htoken
  have hstep : onUnauthorized c id = share (c.update id Request.mark) ⟨id, session.accessToken⟩ := by
    simp only [onUnauthorized, hcached, hq, hold, h.expired, Bool.false_eq_true, if_false, if_true]
  rw [hstep]
  exact share_spec _ hcached h.expired h.once (h.idle htoken)

/-- A request is refused: its handler awaits the rotation, and starts it if it is the first. -/
theorem unauthorized_keeps {id : ℕ} {bearer : Option AccessToken} (h : Sound a b c)
    (hw : Pending b c (.request id bearer)) (hfresh : bearer ≠ some b)
    (hearly : c.accessToken = bearer) :
    KeepsApart (Sound a b) (Pending b) Apart c (Apart (.request id bearer))
      (onUnauthorized c id) := by
  obtain ⟨q, hq, hopen, hold, hsent, hnot, htoken⟩ := refused_open h hw hfresh hearly
  have hs := onUnauthorized_shared h hq hold htoken
  have hget : ∀ m, (onUnauthorized c id).1.requests[m]? =
      if id = m then some q.mark else c.requests[m]? := by
    intro m
    rw [hs.requests, update_requests]
    by_cases heq : id = m
    · subst heq
      simp [hq]
    · simp [heq]
  have hmem : ∀ m, m ∈ awaited (onUnauthorized c id).1 ↔ m ∈ awaited c ∨ m = id := by
    intro m
    rw [hs.awaited, List.mem_append, List.mem_singleton]
    rfl
  have htoken' : (onUnauthorized c id).1.accessToken = some a :=
    (congrArg (Option.map _) hs.cached).trans htoken
  refine ⟨⟨.inl htoken', fun _ => htoken', hs.once, fun _ hfalse => ?_, fun _ => hs.refreshing,
    fun m hm => ?_, ?_, fun x hx => ?_, hs.now ▸ h.expired, hs.now ▸ h.fresh, fun m q' hq' => ?_⟩,
    fun w hw hapart => ?_, fun w hw => ?_, ?_⟩
  · rw [hs.refreshing] at hfalse
    cases hfalse
  · rw [hs.requests, Client.update, List.length_modify]
    rcases (hmem m).mp hm with hm | rfl
    · exact h.known m hm
    · exact (List.getElem?_eq_some_iff.mp hq).1
  · rw [hs.awaited]
    refine List.nodup_append.mpr ⟨h.nodup, by simp, fun m hm m' hm' heq => ?_⟩
    rw [List.mem_singleton.mp hm'] at heq
    have heq' : m = id := heq
    exact hnot (heq' ▸ hm)
  · rw [hs.awaiting] at hx
    rcases List.mem_append.mp hx with hx | hx
    · exact h.stale x hx
    · rw [List.mem_singleton.mp hx]
  · rw [hget] at hq'
    split at hq'
    · rename_i heq
      subst heq
      cases hq'
      exact ⟨(h.treated id q hq).told, nofun, fun _ => ⟨rfl, hopen, hsent⟩,
        fun hin => absurd ((hmem id).mpr (.inr rfl)) hin⟩
    · rename_i hdiff
      have ht := h.treated m q' hq'
      refine ⟨ht.told, ht.once, fun hin => ht.waits ?_, fun hin => ht.retried fun hin' => ?_⟩
      · exact ((hmem m).mp hin).resolve_right fun heq => hdiff heq.symm
      · exact hin ((hmem m).mpr (.inl hin'))
  · cases w with
    | request m bearer' =>
      obtain ⟨q', hq', hrest⟩ := hw
      refine ⟨⟨q', ?_, hrest.1, fun hin => ?_, hrest.2.2⟩, fun w' hw' => ?_⟩
      · rw [hget, if_neg hapart, hq']
      · rcases (hmem m).mp hin with hin | heq
        · exact hrest.2.1 hin
        · exact hapart heq.symm
      · rcases hs.tasks with ⟨-, hnil⟩ | ⟨-, task, htask, -⟩
        · rw [hnil] at hw'
          cases hw'
        · rw [htask] at hw'
          rw [List.mem_singleton.mp hw']
          trivial
    | service task =>
      refine ⟨⟨hs.refreshing, hw.2⟩, fun w' hw' => ?_⟩
      rcases hs.tasks with ⟨-, hnil⟩ | ⟨hfalse, -⟩
      · rw [hnil] at hw'
        cases hw'
      · -- a rotation that is under way is shared
        exact absurd (hw.1.symm.trans hfalse) nofun
  · rcases hs.tasks with ⟨-, hnil⟩ | ⟨-, task, htask, hrotating⟩
    · rw [hnil] at hw
      cases hw
    · rw [htask] at hw
      rw [List.mem_singleton.mp hw]
      exact ⟨hs.refreshing, hrotating⟩
  · rcases hs.tasks with ⟨-, hnil⟩ | ⟨-, task, htask, -⟩
    · rw [hnil]
      exact List.Pairwise.nil
    · rw [htask]
      exact List.pairwise_singleton _ _

/-- What the end of the rotation does: all that were refused are sent again. -/
structure Resumed (b : AccessToken) (c : Client) (t : Client × List Waiting) : Prop where
  token : t.1.accessToken = some b
  refreshing : t.1.service.refreshFuture = false
  calls : t.1.refreshCalls = c.refreshCalls
  now : t.1.now = c.now
  awaiting : t.1.awaiting = []
  requests : ∀ id, t.1.requests[id]? =
    if id ∈ awaited c then (c.requests[id]?).map (Request.resend b) else c.requests[id]?
  sent : t.2 = c.awaiting.map fun h => .request h.request (some b)

theorem service_spec {task : Task} {reply : SessionService.Reply} {t : Client × List Waiting}
    (hne : b ≠ a) (h : Sound a b c) (hw : Pending b c (.service task))
    (hreply : brings b (.service reply) = true)
    (hresume : resume c (.service task) (.service reply) = some t) :
    (∃ s task', t = ({ c with service := s }, [.service task']) ∧ s.refreshFuture = true ∧
      s.cached = c.service.cached ∧ Rotating b task') ∨ Resumed b c t := by
  obtain ⟨u, hu, rfl⟩ := Option.map_eq_some_iff.mp hresume
  rcases rotating_resume hw.1 hw.2 hreply hu with
    ⟨hfuture, hcached, task', htasks, hrotating⟩ | ⟨hfuture, htasks, session, hcompleted, hcached, rfl⟩
  · refine .inl ⟨u.1, task', ?_, hfuture, hcached, hrotating⟩
    simp only [hfuture, htasks, Bool.not_true, Bool.and_false, Bool.false_eq_true, if_false]
    rfl
  · have htoken : ({ c with service := u.1, awaiting := [] } : Client).accessToken =
        some session.accessToken := congrArg (Option.map _) hcached
    have hend := resumeAll_eq rfl hne h.stale htoken
    simp only [hfuture, hw.1, Bool.not_false, Bool.and_self, if_true, hcompleted, hend]
    have hfields := resent_eq (b := session.accessToken) c.awaiting
      { c with service := u.1, awaiting := [] }
    have hget := resent_requests (b := session.accessToken) h.nodup
      { c with service := u.1, awaiting := [] }
    rw [hfields]
    exact .inr ⟨htoken, hfuture, rfl, rfl, rfl, hget, rfl⟩

theorem service_keeps {task : Task} {reply : SessionService.Reply} {t : Client × List Waiting}
    (hne : b ≠ a) (h : Sound a b c) (hw : Pending b c (.service task))
    (hreply : brings b (.service reply) = true)
    (hresume : resume c (.service task) (.service reply) = some t) :
    KeepsApart (Sound a b) (Pending b) Apart c (Apart (.service task)) t := by
  rcases service_spec hne h hw hreply hresume with ⟨s, task', rfl, hfuture, hcached, hrotating⟩ | ht
  · have htoken : ({ c with service := s } : Client).accessToken = c.accessToken :=
      congrArg (Option.map _) hcached
    refine ⟨⟨htoken ▸ h.token, fun _ => htoken.trans (h.refreshing hw.1), h.once,
      fun _ hfalse => ?_, fun _ => hfuture, h.known, h.nodup, h.stale, h.expired, h.fresh, h.treated⟩,
      fun w' hw' hapart => ?_, fun w' hw' => ?_, List.pairwise_singleton _ _⟩
    · exact absurd (hfuture.symm.trans hfalse) nofun
    · cases w' with
      | request m bearer =>
        refine ⟨hw', fun w'' hw'' => ?_⟩
        rw [List.mem_singleton.mp hw'']
        trivial
      | service task'' => exact hapart.elim
    · rw [List.mem_singleton.mp hw']
      exact ⟨hfuture, hrotating⟩
  · have hnone : awaited t.1 = [] := by rw [awaited, ht.awaiting]; rfl
    refine ⟨⟨.inr ht.token, fun htrue => ?_, ht.calls ▸ h.once, fun heq => ?_,
      fun hsome => absurd ht.awaiting hsome, ?_, ?_, ?_, ht.now ▸ h.expired, ht.now ▸ h.fresh,
      fun m q hq => ?_⟩, fun w' hw' hapart => ?_, fun w' hw' => ?_, ?_⟩
    · exact absurd (htrue.symm.trans ht.refreshing) nofun
    · exact absurd (Option.some_inj.mp (ht.token.symm.trans heq)) hne
    · rw [hnone]
      exact nofun
    · rw [hnone]
      exact List.nodup_nil
    · rw [ht.awaiting]
      exact nofun
    · rw [hnone]
      rw [ht.requests] at hq
      split at hq
      · rename_i hin
        obtain ⟨q₀, hq₀, rfl⟩ := Option.map_eq_some_iff.mp hq
        have hbefore := h.treated m q₀ hq₀
        obtain ⟨hretried, -, hsent⟩ := hbefore.waits hin
        refine ⟨hbefore.told, fun hfalse => ?_, nofun, fun _ _ => ?_⟩
        · exact absurd (hretried.symm.trans hfalse) nofun
        · rw [Request.resend, hsent]
          rfl
      · rename_i hin
        have hbefore := h.treated m q hq
        exact ⟨hbefore.told, hbefore.once, nofun, fun _ => hbefore.retried hin⟩
    · cases w' with
      | request m bearer =>
        obtain ⟨q, hq, hopen, hnot, hrest⟩ := hw'
        refine ⟨⟨q, (ht.requests m).trans ((if_neg hnot).trans hq), hopen, by simp [hnone], hrest⟩,
          fun w'' hw'' => ?_⟩
        rw [ht.sent] at hw''
        obtain ⟨x, hx, rfl⟩ := List.mem_map.mp hw''
        exact fun heq => hnot (heq ▸ List.mem_map_of_mem hx)
      | service task' => exact hapart.elim
    · rw [ht.sent] at hw'
      obtain ⟨x, hx, rfl⟩ := List.mem_map.mp hw'
      have hin : x.request ∈ awaited c := List.mem_map_of_mem hx
      have hq := List.getElem?_eq_getElem (h.known _ hin)
      obtain ⟨-, hopen, -⟩ := (h.treated _ _ hq).waits hin
      refine ⟨_, (ht.requests x.request).trans ((if_pos hin).trans (congrArg _ hq)), hopen,
        by simp [hnone], ?_, fun _ => rfl⟩
      simp [Request.resend]
    · rw [ht.sent]
      have hdistinct : c.awaiting.Pairwise fun x y => x.request ≠ y.request :=
        List.pairwise_map.mp h.nodup
      exact List.pairwise_map.mpr hdistinct

theorem resume_keeps {t : Client × List Waiting} (hne : b ≠ a) (h : Sound a b c) (hw : Pending b c w)
    (hguard : ((fresh b).and early).answer c w r) (hresume : resume c w r = some t) :
    KeepsApart (Sound a b) (Pending b) Apart c (Apart w) t := by
  obtain ⟨⟨hbrings, hfresh⟩, hearly⟩ := hguard
  cases w with
  | request id bearer =>
    cases r with
    | response o =>
      cases o with
      | unauthorized =>
        cases hresume
        exact unauthorized_keeps h hw (fun heq => hfresh (congrArg some heq)) (hearly bearer rfl)
      | ok | failed =>
        cases hresume
        exact conclude_keeps h hw nofun
    | service reply => cases hresume
  | service task =>
    cases r with
    | response o => cases hresume
    | service reply => exact service_keeps hne h hw hbrings hresume

/-- A request without a response waits for it or for the rotation, and a rotation for its next
step. -/
def Owes (c : Client) : Option ℕ → Prop
  | some id => ∃ q, c.requests[id]? = some q ∧ q.outcome = none ∧ id ∉ awaited c
  | none => c.service.refreshFuture = true

def tag : Waiting → Option ℕ
  | .request id _ => some id
  | .service _ => none

theorem call_owes {i : Call} {t : Client × List Waiting} (hcall : call c i = some t) (k : Option ℕ)
    (hk : Owes t.1 k) : Owes c k ∨ ∃ w ∈ t.2, tag w = k := by
  cases i with
  | send =>
    cases hcall
    cases k with
    | none => exact .inl hk
    | some id =>
      obtain ⟨q, hq, hrest⟩ := hk
      by_cases hlt : id < c.requests.length
      · rw [List.getElem?_append_left hlt] at hq
        exact .inl ⟨q, hq, hrest⟩
      · have hlt' := (List.getElem?_eq_some_iff.mp hq).1
        rw [List.length_append, List.length_singleton] at hlt'
        obtain rfl : id = c.requests.length := by omega
        exact .inr ⟨_, List.mem_singleton_self _, rfl⟩
  | tick now =>
    simp only [call] at hcall
    split at hcall
    · cases hcall
      exact .inl (by cases k <;> exact hk)
    · cases hcall

theorem resume_owes {t : Client × List Waiting} (hne : b ≠ a) (h : Sound a b c) (hw : Pending b c w)
    (hguard : ((fresh b).and early).answer c w r) (hresume : resume c w r = some t) (k : Option ℕ)
    (hk : Owes t.1 k) : (Owes c k ∧ tag w ≠ k) ∨ ∃ w' ∈ t.2, tag w' = k := by
  obtain ⟨⟨hbrings, hfresh⟩, hearly⟩ := hguard
  cases w with
  | request id bearer =>
    cases r with
    | response o =>
      cases o with
      | unauthorized =>
        cases hresume
        obtain ⟨q, hq, hopen, hold, hsent, hnot, htoken⟩ :=
          refused_open h hw (fun heq => hfresh (congrArg some heq)) (hearly bearer rfl)
        have hs := onUnauthorized_shared h hq hold htoken
        cases k with
        | none =>
          rcases hs.tasks with ⟨hfuture, -⟩ | ⟨-, task, htask, -⟩
          · exact .inl ⟨hfuture, nofun⟩
          · exact .inr ⟨.service task, htask ▸ List.mem_singleton_self _, rfl⟩
        | some m =>
          obtain ⟨q', hq', hopen', hnot'⟩ := hk
          rw [hs.awaited, List.mem_append, List.mem_singleton, not_or] at hnot'
          have hdiff : id ≠ m := fun heq => hnot'.2 heq.symm
          rw [hs.requests, update_requests, if_neg hdiff] at hq'
          exact .inl ⟨⟨q', hq', hopen', hnot'.1⟩, fun heq => hdiff (Option.some_inj.mp heq)⟩
      | ok | failed =>
        cases hresume
        cases k with
        | none => exact .inl ⟨hk, nofun⟩
        | some m =>
          obtain ⟨q', hq', hopen', hnot'⟩ := hk
          rw [Client.conclude, update_requests] at hq'
          split at hq'
          · obtain ⟨q₀, -, rfl⟩ := Option.map_eq_some_iff.mp hq'
            cases hopen'
          · rename_i hdiff
            exact .inl ⟨⟨q', hq', hopen', hnot'⟩, fun heq => hdiff (Option.some_inj.mp heq)⟩
    | service reply => cases hresume
  | service task =>
    cases r with
    | response o => cases hresume
    | service reply =>
      rcases service_spec hne h hw hbrings hresume with ⟨s, task', rfl, hfuture, -, -⟩ | ht
      · cases k with
        | none => exact .inr ⟨_, List.mem_singleton_self _, rfl⟩
        | some m => exact .inl ⟨hk, nofun⟩
      · cases k with
        | none => exact absurd (ht.refreshing.symm.trans hk) nofun
        | some m =>
          obtain ⟨q', hq', hopen', -⟩ := hk
          rw [ht.requests] at hq'
          split at hq'
          · rename_i hin
            obtain ⟨x, hx, rfl⟩ := List.mem_map.mp hin
            exact .inr ⟨.request x.request (some b), ht.sent ▸ List.mem_map_of_mem hx, rfl⟩
          · rename_i hin
            exact .inl ⟨⟨q', hq', hopen', hin⟩, nofun⟩

theorem recovered_of {l : Loop Client Waiting} (h : Sound a b l.state) (howed : Owed Owes tag l) :
    Recovered a b l := by
  have htreated : ∀ q ∈ l.state.requests, ∃ id, Treated a b (id ∈ awaited l.state) q := by
    intro q hq
    obtain ⟨id, hid⟩ := List.mem_iff_getElem?.mp hq
    exact ⟨id, h.treated id q hid⟩
  refine ⟨h.once, fun q hq => ?_, fun q hq => ?_, fun q hq hretried hsome => ?_, fun hempty q hq => ?_⟩
  · obtain ⟨id, ht⟩ := htreated q hq
    cases hretried : q.retried with
    | false => exact Nat.le_succ_of_le (Nat.le_of_eq (ht.once hretried))
    | true =>
      by_cases hin : id ∈ awaited l.state
      · rw [(ht.waits hin).2.2]
        exact Nat.le_succ 1
      · rw [ht.retried hin hretried]
        exact Nat.le_refl 2
  · obtain ⟨id, ht⟩ := htreated q hq
    exact ht.told
  · obtain ⟨id, ht⟩ := htreated q hq
    refine ht.retried (fun hin => ?_) hretried
    rw [(ht.waits hin).2.1] at hsome
    cases hsome
  · have hpaid : ∀ k, ¬ Owes l.state k := by
      intro k hk
      obtain ⟨w, hw, -⟩ := howed k hk
      rw [hempty] at hw
      cases hw
    have hnone : l.state.awaiting = [] := by
      by_contra hsome
      exact hpaid none (h.shared hsome)
    obtain ⟨id, hid⟩ := List.mem_iff_getElem?.mp hq
    by_contra hopen
    refine hpaid (some id) ⟨q, hid, by simpa using hopen, ?_⟩
    rw [awaited, hnone]
    exact nofun

end Invariant

/-- In every run in which the rotation brings a fresh token and each refusal is handled while the
refused token is cached, every request recovers. -/
theorem recovered {session : SessionIdentity} {storage : Storage} {now : ℤ} {b : AccessToken}
    {es : List (Event Call Reply)}
    (hexpired : isAccessTokenExpired now session.accessToken = true)
    (hfresh : isAccessTokenExpired now b = false)
    (hbrings : Each handlers.next (fresh b).Admits (start session storage now) es)
    (hearly : Each handlers.next early.Admits (start session storage now) es) :
    Always handlers.next (Recovered session.accessToken b) (start session storage now) es := by
  have hne : b ≠ session.accessToken := by
    rintro rfl
    exact absurd (hexpired.symm.trans hfresh) nofun
  have hguard := Guard.each_and hbrings hearly
  have hsound : Always handlers.next
      (HeldApart (Sound session.accessToken b) (Pending b) Apart) (start session storage now) es := by
    refine HeldApart.always (G := (fresh b).and early) apart_symm
      (fun _ _ _ h hguard => call_keeps h hguard.1) (fun _ _ _ _ => resume_keeps hne) ?_ hguard
    refine ⟨⟨⟨.inl rfl, nofun, Nat.zero_le _, fun _ _ => rfl, fun h => absurd rfl h, nofun,
      List.nodup_nil, nofun, hexpired, hfresh, nofun⟩, nofun⟩, List.Pairwise.nil⟩
  have howed : Always handlers.next (Owed Owes tag) (start session storage now) es := by
    refine Owed.always (fun _ _ _ _ _ => call_owes) (fun _ _ _ _ => resume_owes hne) (fun k hk => ?_)
      (hsound.mono fun _ hl => hl.toHeld) hguard
    cases k with
    | none => cases hk
    | some id =>
      obtain ⟨q, hq, -⟩ := hk
      cases hq
  exact (hsound.and howed).mono fun l hl => recovered_of hl.1.state hl.2

def expiredSession : SessionIdentity := ⟨{ text := "A", exp := some 100 }, "r", "aylin"⟩

def freshToken : AccessToken := { text := "B", exp := some 1000 }

/-- Two requests are refused before the rotation is answered. -/
theorem recovered_together : Always handlers.next (Recovered expiredSession.accessToken freshToken)
    (start expiredSession {} 100000)
    [.call .send, .call .send, .answer 0 (.response .unauthorized),
      .answer 0 (.response .unauthorized), .answer 0 (.service (.tokens (some freshToken) (some "s"))),
      .answer 0 (.service .done), .answer 0 (.service .done), .answer 0 (.service .done),
      .answer 1 (.response .ok), .answer 0 (.response .failed)] :=
  recovered (by decide) (by decide) (by decide) (by decide)

def lateRefusal : List (Event Call Reply) :=
  [.call .send, .call .send, .answer 0 (.response .unauthorized),
    .answer 1 (.service (.tokens (some freshToken) (some "s"))), .answer 1 (.service .done),
    .answer 1 (.service .done), .answer 1 (.service .done), .answer 0 (.response .unauthorized)]

/-- The second refusal comes after the rotation; its handler finds the new token and takes it for
the stale one. -/
theorem late_refusal_surfaces :
    Each handlers.next (fresh freshToken).Admits (start expiredSession {} 100000) lateRefusal ∧
      ¬ Always handlers.next (Recovered expiredSession.accessToken freshToken)
        (start expiredSession {} 100000) lateRefusal :=
  ⟨by decide, not_always_of_test (by decide)⟩

end Tekir.ExpiredTokens
