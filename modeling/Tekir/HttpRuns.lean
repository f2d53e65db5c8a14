import Tekir.AccountSeparation
import Tekir.Router

/-!
# Runs of the API

Requests come in one after another, and the notifier sends what is due in between. A request
changes the state by one operation of the backend at most, which it carries out as the account
and the device that its credentials stand for.
-/
namespace Tekir.HttpRuns
open Machine Table Schema Environment Backend Decoding HttpRequests Handlers Router
  AccountSeparation

/-- What happens to the backend. -/
inductive Event
  | request (i : Incoming)
  | tick (env : Env)

def Event.env : Event → Env
  | .request i => i.env
  | .tick env => env

def handle (h : Wiring) (w : World) : Event → World
  | .request i => (serveHTTP h i w).2
  | .tick env => (SocialServices.dispatchPending h.cfg env w).2

instance (env : Env) (t : Tables) : Decidable (FreshUpdate env t) :=
  inferInstanceAs (Decidable (∀ u ∈ t.updates, u.id ≠ env.uuid 0))

/-- The object key and the update's identifier that are drawn name nothing yet. -/
def step (h : Wiring) (w : World) (e : Event) : Option World :=
  if FreshKey e.env.objectKey w ∧ FreshUpdate e.env w.db.tables then some (handle h w e) else none

theorem step_eq_some {h : Wiring} {w w' : World} {e : Event} :
    step h w e = some w' ↔
      FreshKey e.env.objectKey w ∧ FreshUpdate e.env w.db.tables ∧ handle h w e = w' := by
  unfold step
  split <;> simp_all

/-- The phone number in a body of `POST /v1/auth/otp/verify`. -/
def phoneOf (r : HttpRequest) : Option String :=
  ((decodeFirst r.body).bind (decodeRecord false otpVerifyFields {})).map OtpVerifyBody.phone

section Authorised

variable (h : Wiring) (i : Incoming) (w : World)

/-- The device that is recorded with what an account does. -/
def recordedDevice : Option UUID :=
  (optionalDeviceToken h i w).map DeviceIdentity.deviceId

/-- The request's credentials stand for the account and the device of the operation. -/
def Authorised : Op → Prop
  | .register _ _ | .requestOTP _ => True
  | .setPushToken deviceId _ => ∃ d, deviceOf h i w = .valid d ∧ d.deviceId = deviceId
  | .verifyOTP phone _ deviceId =>
    route i = some .verifyOTP ∧ phoneOf i.request = some phone ∧
      ∃ d, deviceOf h i w = .valid d ∧ d.deviceId = deviceId
  | .refresh token => route i = some .refresh ∧ refreshTokenOf i.request = some token
  | .logout userId token deviceId =>
    bearerOf h i = .valid userId ∧ route i = some .logout ∧
      refreshTokenOf i.request = some token ∧ deviceId = recordedDevice h i w
  | .unlinkDevice _ _ | .dispatchPending => False
  | .setDisplayName userId _ | .block userId _ | .unblock userId _ | .correctOwnUpdate _ _ userId _
  | .deleteOwnUpdate _ _ userId | .setCoverPhoto _ userId _ | .renameCat _ userId _
  | .deleteCat _ userId | .unfollow _ userId | .report userId _ _ _ _ | .markRead userId _ =>
    bearerOf h i = .valid userId
  | .upload userId deviceId _ _ | .createNeedsHelpUpdate _ userId deviceId _ _
  | .follow _ userId deviceId =>
    bearerOf h i = .valid userId ∧ deviceId = recordedDevice h i w
  | .createCat req =>
    bearerOf h i = .valid req.userId ∧ req.deviceId = recordedDevice h i w
  | .createOrdinaryUpdate req =>
    bearerOf h i = .valid req.userId ∧ req.deviceId = recordedDevice h i w
  | .deleteAccount userId => bearerOf h i = .valid userId ∧ route i = some .deleteAccount

end Authorised

section Requests

variable {h : Wiring} {i : Incoming} {w : World}

/-- The answer leaves the state as it was. -/
def Stays (w : World) (x : Answer × World) : Prop :=
  x.2 = w

theorem stays (answer : Answer) : Stays w (answer, w) := rfl

/-- A `GET` request changes nothing. -/
theorem serve_reads {e : Endpoint} (hreads : e.reads = true) : Stays w (e.serve h i w) := by
  cases e with
  | live => exact stays _
  | ready => exact stays _
  | nearby => exact withParsed_of stays fun _ => rfl
  | nearbyDuplicates => exact withParsed_of stays fun _ => rfl
  | discover => exact withParsed_of stays fun _ => withLimit_of stays fun _ => rfl
  | detail catId => exact withCatID_of stays fun _ => rfl
  | media catId => exact withCatID_of stays fun _ => rfl
  | updateHistory catId => exact withLimit_of stays fun _ => withCatID_of stays fun _ => rfl
  | listFollows => exact require_of stays fun _ _ => rfl
  | listNotifications => exact require_of stays fun _ _ => withLimit_of stays fun _ => rfl
  | profile => exact require_of stays fun _ _ => rfl
  | badges => exact require_of stays fun _ _ => rfl
  | listBlocks => exact require_of stays fun _ _ => rfl
  | serveObject key => exact stays _
  | me => exact require_of stays fun _ _ => rfl
  | _ => cases hreads

/-- What the request carries out. -/
def Performs (h : Wiring) (i : Incoming) (w w' : World) : Prop :=
  ∃ op, Authorised h i w op ∧ w' = serve h.cfg ⟨i.env, op⟩ w

/-- The answer leaves the state as it was, or the request has performed something. -/
def Does (h : Wiring) (i : Incoming) (w : World) (x : Answer × World) : Prop :=
  x.2 = w ∨ Performs h i w x.2

theorem does_nothing (answer : Answer) : Does h i w (answer, w) :=
  .inl rfl

theorem does_op {x : Answer × World} (op : Op) (hop : Authorised h i w op)
    (hx : x.2 = serve h.cfg ⟨i.env, op⟩ w) : Does h i w x :=
  .inr ⟨op, hop, hx⟩

/-- What a route does, it does by one operation. -/
theorem endpoint_performs {e : Endpoint} (hroute : route i = some e) :
    Does h i w (e.serve h i w) := by
  cases e with
  | live | ready | nearby | nearbyDuplicates | discover | detail | media | updateHistory
  | listFollows | listNotifications | profile | badges | listBlocks | serveObject | me =>
    exact .inl (serve_reads rfl)
  | rename catId =>
    refine require_of does_nothing fun user huser => ?_
    refine withBody_of does_nothing fun req _ => withCatID_of does_nothing fun id => ?_
    exact does_op (.renameCat id user req.name) huser rfl
  | deleteCat catId =>
    refine require_of does_nothing fun user huser => withCatID_of does_nothing fun id => ?_
    exact does_op (.deleteCat id user) huser rfl
  | setCover catId =>
    refine require_of does_nothing fun user huser => ?_
    refine withBody_of does_nothing fun req _ => withCatID_of does_nothing fun id => ?_
    exact does_op (.setCoverPhoto id user (h.parseUUID req.mediaId)) huser rfl
  | createCat =>
    refine require_of does_nothing fun user huser => withForm_of does_nothing fun form => ?_
    refine withParsed_of does_nothing fun area => ?_
    split
    · exact does_nothing _
    · exact does_op (.createCat _) ⟨huser, rfl⟩ rfl
  | createUpdate catId =>
    refine require_of does_nothing fun user huser => withBody_of does_nothing fun req _ => ?_
    exact does_op (.createOrdinaryUpdate _) ⟨huser, rfl⟩ rfl
  | correctUpdate catId updateId =>
    refine require_of does_nothing fun user huser => withBody_of does_nothing fun req _ => ?_
    split
    · exact does_nothing _
    · exact does_op (.correctOwnUpdate (h.parseUUID catId) (h.parseUUID updateId) user
        req.correction) huser rfl
  | deleteUpdate catId updateId =>
    refine require_of does_nothing fun user huser => ?_
    exact does_op (.deleteOwnUpdate (h.parseUUID catId) (h.parseUUID updateId) user) huser rfl
  | createNeedsHelp catId =>
    refine require_of does_nothing fun user huser => withBody_of does_nothing fun req _ => ?_
    exact does_op (.createNeedsHelpUpdate (h.parseUUID catId) user _ req.category req.comment)
      ⟨huser, rfl⟩ rfl
  | follow catId =>
    refine require_of does_nothing fun user huser => ?_
    exact does_op (.follow (h.parseUUID catId) user _) ⟨huser, rfl⟩ rfl
  | unfollow catId =>
    refine require_of does_nothing fun user huser => ?_
    exact does_op (.unfollow (h.parseUUID catId) user) huser rfl
  | markRead id =>
    refine require_of does_nothing fun user huser => ?_
    exact does_op (.markRead user (h.parseUUID id)) huser rfl
  | createReport =>
    refine require_of does_nothing fun user huser => withBody_of does_nothing fun req _ => ?_
    exact does_op (.report user req.targetType (h.parseUUID req.targetId) req.reason req.note)
      huser rfl
  | createBlock =>
    refine require_of does_nothing fun user huser => withBody_of does_nothing fun req _ => ?_
    exact does_op (.block user (h.parseUUID req.blockedUserId)) huser rfl
  | deleteBlock userId =>
    refine require_of does_nothing fun user huser => ?_
    exact does_op (.unblock user (h.parseUUID userId)) huser rfl
  | upload =>
    refine require_of does_nothing fun user huser => withForm_of does_nothing fun form => ?_
    split
    · exact does_nothing _
    · exact does_op (.upload user _ _ _) ⟨huser, rfl⟩ rfl
  | register =>
    refine withBody_of does_nothing fun req _ => ?_
    split
    · exact does_nothing _
    · exact does_op (.register req.platform req.pushToken) trivial rfl
  | updatePushToken =>
    refine require_of does_nothing fun d hd => withBody_of does_nothing fun req _ => ?_
    exact does_op (.setPushToken d.deviceId req.pushToken) ⟨d, hd, rfl⟩ rfl
  | requestOTP =>
    refine withBody_of does_nothing fun req _ => ?_
    exact does_op (.requestOTP req.phone) trivial rfl
  | verifyOTP =>
    refine require_of does_nothing fun d hd => withBody_of does_nothing fun req hdecode => ?_
    have hphone : phoneOf i.request = some req.phone := by
      rw [phoneOf, hdecode]
      rfl
    exact does_op (.verifyOTP req.phone req.code d.deviceId) ⟨hroute, hphone, d, hd, rfl⟩ rfl
  | refresh =>
    refine withRefreshToken_of does_nothing fun token htoken => ?_
    exact does_op (.refresh token) ⟨hroute, htoken⟩ rfl
  | logout =>
    refine require_of does_nothing fun user huser => ?_
    refine withRefreshToken_of does_nothing fun token htoken => ?_
    exact does_op (.logout user token _) ⟨huser, hroute, htoken, rfl⟩ rfl
  | updateDisplayName =>
    refine require_of does_nothing fun user huser => withBody_of does_nothing fun req _ => ?_
    exact does_op (.setDisplayName user req.displayName) huser rfl
  | deleteAccount =>
    refine require_of does_nothing fun user huser => ?_
    exact does_op (.deleteAccount user) ⟨huser, hroute⟩ rfl

/-- A request changes the state by one operation that its credentials allow, if at all. -/
theorem request_cases : (serveHTTP h i w).2 = w ∨
    i.request.method ≠ .get ∧ Performs h i w (serveHTTP h i w).2 := by
  unfold serveHTTP
  split
  · next e hroute =>
    by_cases hget : i.request.method = .get
    · exact .inl (serve_reads (endpoint_get hget hroute))
    · exact (endpoint_performs hroute).imp_right fun hperforms => ⟨hget, hperforms⟩
  · split
    · exact .inl rfl
    · exact .inl rfl

end Requests

section Runs

variable {h : Wiring} {w w' : World} {es : List Event} {rs : List Request}

/-- The operations that a run carries out, one for an event at most. -/
inductive Carries (h : Wiring) : World → List Event → List Request → Prop
  | done (w : World) : Carries h w [] []
  | idle {w : World} {i : Incoming} {es : List Event} {rs : List Request}
      (hsame : handle h w (.request i) = w) (hrest : Carries h w es rs) :
      Carries h w (.request i :: es) rs
  | perform {w : World} {i : Incoming} {op : Op} {es : List Event} {rs : List Request}
      (hmethod : i.request.method ≠ .get) (hop : Authorised h i w op)
      (hrest : Carries h (serve h.cfg ⟨i.env, op⟩ w) es rs) :
      Carries h w (.request i :: es) (⟨i.env, op⟩ :: rs)
  | tick {w : World} {env : Env} {es : List Event} {rs : List Request}
      (hrest : Carries h (serve h.cfg ⟨env, .dispatchPending⟩ w) es rs) :
      Carries h w (.tick env :: es) (⟨env, .dispatchPending⟩ :: rs)

/-- A run of the API is a run of the backend, whose operations are those that the credentials
of its requests allow. -/
theorem run_authorised (hrun : exec (step h) w es = some w') :
    ∃ rs, Carries h w es rs ∧ exec (next h.cfg) w rs = some w' := by
  induction es generalizing w with
  | nil => exact ⟨[], .done w, hrun⟩
  | cons e es ih =>
    obtain ⟨w₁, hstep, hrest⟩ := Option.bind_eq_some_iff.mp hrun
    obtain ⟨hkey, -, hhandle⟩ := step_eq_some.mp hstep
    obtain ⟨rs, hcarries, hexec⟩ := ih hrest
    cases e with
    | tick env =>
      have hnext : next h.cfg w ⟨env, .dispatchPending⟩ = some w₁ :=
        next_eq_some.mpr ⟨hkey, hhandle⟩
      refine ⟨⟨env, .dispatchPending⟩ :: rs, .tick ?_, ?_⟩
      · rw [(next_eq_some.mp hnext).2]
        exact hcarries
      · rw [exec_cons, hnext]
        exact hexec
    | request i =>
      rcases request_cases (h := h) (i := i) (w := w) with hsame | ⟨hmethod, op, hop, hserve⟩
      · have hidle : handle h w (.request i) = w := hsame
        rw [hidle] at hhandle
        rw [← hhandle] at hcarries hexec
        exact ⟨rs, .idle hidle hcarries, hexec⟩
      · have hnext : next h.cfg w ⟨i.env, op⟩ = some w₁ :=
          next_eq_some.mpr ⟨hkey, hserve.symm.trans hhandle⟩
        refine ⟨⟨i.env, op⟩ :: rs, .perform hmethod hop ?_, ?_⟩
        · rw [(next_eq_some.mp hnext).2]
          exact hcarries
        · rw [exec_cons, hnext]
          exact hexec

/-- Concrete runs are wired with a plain configuration. -/
def plainWiring : Wiring where
  cfg := plainConfig
  texts := Cursors.numerals
  geo := DiscoverPages.coarse
  jwt := ServedSessions.plainJwt
  accessTokenTTL := 1000000
  typeByExtension _ := ""

/-- Each of two accounts has a cat, and the first one follows both. -/
def neighbours : World where
  db := ⟨{
    users := [{ id := 1, phone := "+905551112299", phoneVerifiedAt := 0 },
      { id := 2, phone := "+905551112200", phoneVerifiedAt := 0 }]
    devices := [{ id := 3, tokenHash := "one", pushToken := some "there", platform := .ios
                  userId := some 1 }]
    cats := [{ id := 5, name := none, area := ⟨41, 29⟩, createdAt := 0, createdByUserId := some 1 },
      { id := 6, name := none, area := ⟨41, 30⟩, createdAt := 0, createdByUserId := some 2 }]
    follows := [{ userId := some 1, catId := 5 }, { userId := some 1, catId := 6 }] }, by decide⟩

/-- A request of the second account, whose token is valid for a second. -/
def visit (k : ℕ) (method : Method) (path : List String) : Event :=
  .request { request := { method, path, authorization := ["Bearer sssae"] }, env := plainEnv k }

/-- The second account follows the cat of the first one and marks it in need of help; the
notifier runs, and the second account is deleted. -/
def visits : List Event :=
  [visit 1 .post ["v1", "cats", "5", "follow"],
    .request {
      request := {
        method := .post
        path := ["v1", "cats", "5", "needs-help"]
        authorization := ["Bearer sssae"]
        body := "\x7b\"category\":\"food_needed\"\x7d".toList }
      env := plainEnv 2 },
    .tick (plainEnv 3), visit 4 .delete ["v1", "me"]]

/-- The second account is gone; the first one has got a notification, and lost nothing but its
follow of the cat that is gone. -/
def afterVisits (w : World) : Bool :=
  w.db.tables.users.map User.id == [1] && w.db.tables.cats.map Cat.id == [5] &&
    w.db.tables.follows == [{ userId := some 1, catId := 5 }] && w.sent.length == 1

theorem visits_run : ∃ w', exec (step plainWiring) neighbours visits = some w' ∧
    afterVisits w' = true :=
  exists_of_exec_test (step plainWiring) neighbours visits afterVisits (by decide +kernel)

theorem run_authorised_visits : ∃ w' rs, afterVisits w' = true ∧
    Carries plainWiring neighbours visits rs ∧ exec (next plainConfig) neighbours rs = some w' := by
  obtain ⟨w', hrun, htest⟩ := visits_run
  obtain ⟨rs, hcarries, hexec⟩ := run_authorised hrun
  exact ⟨w', rs, htest, hcarries, hexec⟩

end Runs

section Separation

variable {h : Wiring} {deleted : UUID → Prop} {a : UUID} {t : Tables} {w w' : World}
  {es : List Event}

/-- The request carries no credential of the account: neither an access token of its own nor,
where a session is opened by them, its phone number or a refresh token of its own. Accounts that
it deletes are counted. -/
structure Elsewhere (h : Wiring) (deleted : UUID → Prop) (a : UUID) (t : Tables)
    (i : Incoming) : Prop where
  bearer : bearerOf h i ≠ .valid a
  phone : route i = some .verifyOTP → ∀ raw ∈ phoneOf i.request, ∀ phone,
    normalizePhone raw = .ok phone → ∀ u ∈ t.users, u.id = a → u.phone ≠ phone
  refreshToken : route i = some .refresh ∨ route i = some .logout →
    ∀ token ∈ refreshTokenOf i.request, ∀ r ∈ t.refreshTokens, r.userId = a →
      r.tokenHash ≠ hashRefreshToken h.cfg token
  deleting : route i = some .deleteAccount → ∀ b, bearerOf h i = .valid b → deleted b

def ElsewhereEvent (h : Wiring) (deleted : UUID → Prop) (a : UUID) (t : Tables) : Event → Prop
  | .request i => Elsewhere h deleted a t i
  | .tick _ => True

/-- An operation that such a request performs is not done for the account. -/
theorem foreign_of_elsewhere {i : Incoming} {op : Op} (hkept : Kept deleted a t w.db.tables)
    (helse : Elsewhere h deleted a t i) (hop : Authorised h i w op) :
    Foreign deleted h.cfg a w.db.tables op := by
  have hother : ∀ user, bearerOf h i = .valid user → user ≠ a := by
    intro user huser heq
    exact helse.bearer (heq ▸ huser)
  have htoken : ∀ token ∈ refreshTokenOf i.request, route i = some .refresh ∨
      route i = some .logout → ∀ r ∈ w.db.tables.refreshTokens,
        r.tokenHash = hashRefreshToken h.cfg token → r.userId ≠ a := by
    intro token htoken hroute r hr hhash hown
    have hthere := hkept.refreshTokens.old r hr hown
    exact helse.refreshToken hroute token htoken r hthere hown hhash
  cases op with
  | register platform pushToken => trivial
  | setPushToken deviceId pushToken => trivial
  | requestOTP phone => trivial
  | dispatchPending => trivial
  | unlinkDevice deviceId userId => exact hop.elim
  | verifyOTP rawPhone code deviceId =>
    obtain ⟨hroute, hraw, -⟩ := hop
    intro phone hphone u hu huphone hown
    have hthere := hkept.users.old u hu hown
    exact helse.phone hroute rawPhone hraw phone hphone u hthere hown huphone
  | refresh token => exact htoken token hop.2 (.inl hop.1)
  | logout userId token deviceId =>
    obtain ⟨huser, hroute, hbody, -⟩ := hop
    exact ⟨hother userId huser, htoken token hbody (.inr hroute)⟩
  | deleteAccount userId =>
    exact ⟨hother userId hop.1, helse.deleting hop.2 userId hop.1⟩
  | setDisplayName userId name => exact hother userId hop
  | block userId blocked => exact hother userId hop
  | unblock userId blocked => exact hother userId hop
  | correctOwnUpdate catId updateId userId correction => exact hother userId hop
  | deleteOwnUpdate catId updateId userId => exact hother userId hop
  | setCoverPhoto catId userId mediaId => exact hother userId hop
  | renameCat catId userId name => exact hother userId hop
  | deleteCat catId userId => exact hother userId hop
  | unfollow catId userId => exact hother userId hop
  | report userId targetType targetId reason note => exact hother userId hop
  | markRead userId id => exact hother userId hop
  | upload userId deviceId key muted => exact hother userId hop.1
  | createNeedsHelpUpdate catId userId deviceId category comment => exact hother userId hop.1
  | follow catId userId deviceId => exact hother userId hop.1
  | createCat req => exact hother req.userId hop.1
  | createOrdinaryUpdate req => exact hother req.userId hop.1

theorem step_kept {e : Event} (ha : There a t) (hkept : Kept deleted a t w.db.tables)
    (helse : ElsewhereEvent h deleted a t e) (hstep : step h w e = some w') :
    Kept deleted a t w'.db.tables := by
  obtain ⟨-, hfresh, hhandle⟩ := step_eq_some.mp hstep
  subst hhandle
  cases e with
  | tick env => exact hkept.trans dispatchPending_kept
  | request i =>
    rcases request_cases (h := h) (i := i) (w := w) with hsame | ⟨-, op, hop, hserve⟩
    · have hidle : handle h w (.request i) = w := hsame
      rw [hidle]
      exact hkept
    · have hperformed : handle h w (.request i) = serve h.cfg ⟨i.env, op⟩ w := hserve
      rw [hperformed]
      exact hkept.trans
        (serve_kept (hkept.there ha) (foreign_of_elsewhere hkept helse hop) hfresh)

theorem run_kept (ha : There a t) (hkept : Kept deleted a t w.db.tables)
    (helse : ∀ e ∈ es, ElsewhereEvent h deleted a t e) (hrun : exec (step h) w es = some w') :
    Kept deleted a t w'.db.tables := by
  induction es generalizing w with
  | nil =>
    cases hrun
    exact hkept
  | cons e es ih =>
    obtain ⟨w₁, hstep, hrest⟩ := Option.bind_eq_some_iff.mp hrun
    have hkept' := step_kept ha hkept (helse e List.mem_cons_self) hstep
    exact ih hkept' (fun e' he' => helse e' (List.mem_cons_of_mem _ he')) hrest

theorem elsewhere_of_bearer {deleted : UUID → Prop} {a b : UUID} {i : Incoming}
    (hbearer : bearerOf h i = .valid b) (hother : b ≠ a) (hdeleted : deleted b)
    (hroute : ¬ (route i = some .verifyOTP ∨ route i = some .refresh ∨ route i = some .logout)) :
    ElsewhereEvent h deleted a t (.request i) where
  bearer := by
    rw [hbearer]
    exact fun heq => hother (Credential.valid.inj heq)
  phone := fun h => absurd (.inl h) hroute
  refreshToken := fun h => absurd (.inr h) hroute
  deleting := by
    intro _ c hc
    rw [hbearer] at hc
    exact Credential.valid.inj hc ▸ hdeleted

theorem visits_elsewhere : ∀ e ∈ visits,
    ElsewhereEvent plainWiring (· = 2) 1 neighbours.db.tables e := by
  intro e he
  have htest : visits.all (fun e => match e with
      | .request i => decide (bearerOf plainWiring i = .valid 2 ∧
          ¬ (route i = some .verifyOTP ∨ route i = some .refresh ∨ route i = some .logout))
      | .tick _ => true) = true := by decide +kernel
  have hone := List.all_eq_true.mp htest e he
  cases e with
  | tick env => trivial
  | request i =>
    obtain ⟨hbearer, hroute⟩ := of_decide_eq_true hone
    exact elsewhere_of_bearer hbearer (by decide) rfl hroute

end Separation

end Tekir.HttpRuns
