import Tekir.Handlers

/-!
# The router

The routes of the API and the middleware in front of each handler. A path is matched segment by
segment; a text of the pattern goes before a parameter. A request that matches no route leaves
everything as it was, as does one whose credential is refused.
-/
namespace Tekir.Router
open Schema Environment HttpRequests Handlers

/-- A route with the parameters of its path. -/
inductive Endpoint
  | live | ready
  | nearby | nearbyDuplicates | discover
  | detail (catId : String) | rename (catId : String) | deleteCat (catId : String)
  | media (catId : String) | setCover (catId : String) | updateHistory (catId : String)
  | createCat | createUpdate (catId : String)
  | correctUpdate (catId updateId : String) | deleteUpdate (catId updateId : String)
  | createNeedsHelp (catId : String)
  | follow (catId : String) | unfollow (catId : String) | listFollows
  | listNotifications | markRead (id : String)
  | profile | badges
  | createReport
  | createBlock | listBlocks | deleteBlock (userId : String)
  | upload | serveObject (key : String)
  | register | updatePushToken
  | requestOTP | verifyOTP | refresh | logout | me | updateDisplayName | deleteAccount
  deriving DecidableEq

/-- A parameter at the end of a path is not empty. -/
def param (s : String) (f : String → Endpoint) : Option Endpoint :=
  if s = "" then none else some (f s)

def catRoutes : Method → List String → Option Endpoint
  | .get, [] => some .nearby
  | .post, [] => some .createCat
  | .get, ["nearby"] => some .nearbyDuplicates
  | .get, ["discover"] => some .discover
  | .get, [catId] => param catId .detail
  | .patch, [catId] => param catId .rename
  | .delete, [catId] => param catId .deleteCat
  | .get, [catId, "media"] => some (.media catId)
  | .patch, [catId, "cover"] => some (.setCover catId)
  | .get, [catId, "updates"] => some (.updateHistory catId)
  | .post, [catId, "updates"] => some (.createUpdate catId)
  | .patch, [catId, "updates", updateId] => param updateId (.correctUpdate catId)
  | .delete, [catId, "updates", updateId] => param updateId (.deleteUpdate catId)
  | .post, [catId, "needs-help"] => some (.createNeedsHelp catId)
  | .post, [catId, "follow"] => some (.follow catId)
  | .delete, [catId, "follow"] => some (.unfollow catId)
  | _, _ => none

def meRoutes : Method → List String → Option Endpoint
  | .get, [] => some .me
  | .patch, [] => some .updateDisplayName
  | .delete, [] => some .deleteAccount
  | .get, ["follows"] => some .listFollows
  | .get, ["notifications"] => some .listNotifications
  | .post, ["notifications", id, "read"] => some (.markRead id)
  | .get, ["profile"] => some .profile
  | .get, ["badges"] => some .badges
  | .post, ["blocks"] => some .createBlock
  | .get, ["blocks"] => some .listBlocks
  | .delete, ["blocks", userId] => param userId .deleteBlock
  | _, _ => none

def endpoint : Method → List String → Option Endpoint
  | .get, ["healthz"] => some .live
  | .get, ["readyz"] => some .ready
  | m, "v1" :: "cats" :: rest => catRoutes m rest
  | m, "v1" :: "me" :: rest => meRoutes m rest
  | .post, ["v1", "reports"] => some .createReport
  | .post, ["v1", "media"] => some .upload
  | .get, ["v1", "media", "objects", key] => param key .serveObject
  | .post, ["v1", "devices"] => some .register
  | .put, ["v1", "devices", "me"] => some .updatePushToken
  | .post, ["v1", "auth", "otp", "request"] => some .requestOTP
  | .post, ["v1", "auth", "otp", "verify"] => some .verifyOTP
  | .post, ["v1", "auth", "refresh"] => some .refresh
  | .post, ["v1", "auth", "logout"] => some .logout
  | _, _ => none

section Reads

/-- The routes of `GET` requests. -/
def Endpoint.reads : Endpoint → Bool
  | .live | .ready | .nearby | .nearbyDuplicates | .discover | .detail _ | .media _
  | .updateHistory _ | .listFollows | .listNotifications | .profile | .badges | .listBlocks
  | .serveObject _ | .me => true
  | _ => false

variable {m : Method} {path : List String} {e : Endpoint}

theorem param_reads {s : String} {f : String → Endpoint} (hf : (f s).reads = true)
    (h : param s f = some e) : e.reads = true := by
  unfold param at h
  split at h
  · cases h
  · cases h
    exact hf

theorem catRoutes_get (hm : m = .get) (h : catRoutes m path = some e) : e.reads = true := by
  unfold catRoutes at h
  split at h
  all_goals first
    | cases hm; done
    | cases h <;> rfl
    | exact param_reads rfl h

theorem meRoutes_get (hm : m = .get) (h : meRoutes m path = some e) : e.reads = true := by
  unfold meRoutes at h
  split at h
  all_goals first
    | cases hm; done
    | cases h <;> rfl

theorem endpoint_get (hm : m = .get) (h : endpoint m path = some e) : e.reads = true := by
  unfold endpoint at h
  split at h
  all_goals first
    | cases hm; done
    | exact catRoutes_get hm h
    | exact meRoutes_get hm h
    | cases h <;> rfl
    | exact param_reads rfl h

end Reads

section Middleware

variable (h : Wiring) (i : Incoming) (w : World)

/-- The account that the request is made for. -/
def bearerOf : Credential UUID :=
  bearer h.jwt i.env.clock i.request

/-- The device that the request is made from. -/
def deviceOf : Credential DeviceIdentity :=
  device h.cfg w i.request

def requireBearer (next : UUID → Answer × World) : Answer × World :=
  require "bearer" (bearerOf h i) w next

def optionalBearer : Option UUID :=
  (bearerOf h i).toOption

def requireDeviceToken (next : DeviceIdentity → Answer × World) : Answer × World :=
  require "device" (deviceOf h i w) w next

def optionalDeviceToken : Option DeviceIdentity :=
  (deviceOf h i w).toOption

/-- The middleware of a route, and its handler. -/
def Endpoint.serve : Endpoint → Answer × World
  | .live => (Handlers.live, w)
  | .ready => (Handlers.ready i.ping, w)
  | .nearby => Handlers.nearby h i w (optionalBearer h i)
  | .nearbyDuplicates => Handlers.nearbyDuplicates h i w (optionalBearer h i)
  | .discover => Handlers.discover h i w (optionalBearer h i)
  | .detail catId => Handlers.detail h i w (optionalBearer h i) catId
  | .rename catId => requireBearer h i w fun user => Handlers.rename h i w user catId
  | .deleteCat catId => requireBearer h i w fun user => Handlers.deleteCat h w user catId
  | .media catId => Handlers.media h w (optionalBearer h i) catId
  | .setCover catId => requireBearer h i w fun user => Handlers.setCover h i w user catId
  | .updateHistory catId => Handlers.updateHistory h i w (optionalBearer h i) catId
  | .createCat =>
    requireBearer h i w fun user => Handlers.createCat h i w user (optionalDeviceToken h i w)
  | .createUpdate catId =>
    requireBearer h i w fun user =>
      Handlers.createUpdate h i w user (optionalDeviceToken h i w) catId
  | .correctUpdate catId updateId =>
    requireBearer h i w fun user => Handlers.correctUpdate h i w user catId updateId
  | .deleteUpdate catId updateId =>
    requireBearer h i w fun user => Handlers.deleteUpdate h i w user catId updateId
  | .createNeedsHelp catId =>
    requireBearer h i w fun user =>
      Handlers.createNeedsHelp h i w user (optionalDeviceToken h i w) catId
  | .follow catId =>
    requireBearer h i w fun user => Handlers.follow h w user (optionalDeviceToken h i w) catId
  | .unfollow catId => requireBearer h i w fun user => Handlers.unfollow h w user catId
  | .listFollows => requireBearer h i w fun user => (Handlers.listFollows i w user, w)
  | .listNotifications => requireBearer h i w fun user => Handlers.listNotifications h i w user
  | .markRead id => requireBearer h i w fun user => Handlers.markRead h i w user id
  | .profile => requireBearer h i w fun user => Handlers.profile w user
  | .badges => requireBearer h i w fun user => (Handlers.badges w user, w)
  | .createReport => requireBearer h i w fun user => Handlers.createReport h i w user
  | .createBlock => requireBearer h i w fun user => Handlers.createBlock h i w user
  | .listBlocks => requireBearer h i w fun user => (Handlers.listBlocks w user, w)
  | .deleteBlock userId => requireBearer h i w fun user => Handlers.deleteBlock h w user userId
  | .upload =>
    requireBearer h i w fun user => Handlers.upload i w user (optionalDeviceToken h i w)
  | .serveObject key => (Handlers.serveObject h i key, w)
  | .register => Handlers.register h i w
  | .updatePushToken => requireDeviceToken h i w fun device => Handlers.updatePushToken i w device
  | .requestOTP => Handlers.requestOTP h i w
  | .verifyOTP => requireDeviceToken h i w fun device => Handlers.verifyOTP h i w device
  | .refresh => Handlers.refresh h i w
  | .logout =>
    requireBearer h i w fun user => Handlers.logout h i w user (optionalDeviceToken h i w)
  | .me => requireDeviceToken h i w fun device => (Handlers.me device (optionalBearer h i), w)
  | .updateDisplayName => requireBearer h i w fun user => Handlers.updateDisplayName i w user
  | .deleteAccount => requireBearer h i w fun user => Handlers.deleteAccount i w user

/-- The route of the request. -/
def route (i : Incoming) : Option Endpoint :=
  endpoint i.request.method i.request.path

def methods : List Method :=
  [.get, .post, .put, .patch, .delete]

/-- Unless a route matches, another method may have one for the path. -/
def serveHTTP : Answer × World :=
  match route i with
  | some e => e.serve h i w
  | none =>
    if methods.any fun m => (endpoint m i.request.path).isSome then
      ({ status := 405, body := .ok .none }, w)
    else ({ status := 404, body := .ok (.page "404 page not found") }, w)

end Middleware

end Tekir.Router
