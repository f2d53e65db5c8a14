import Tekir.HiddenCats
import Tekir.HttpRuns
import Tekir.ReadPrivacy

/-!
# Acts that nobody else sees

Following, blocking, reporting, reading one's notifications, opening and ending sessions, naming
an address for pushes and uploading a file are an account's own affair: a run of such requests
changes no answer to a `GET` request of anyone else.
-/
namespace Tekir.DiscreetActs
open Machine Table Schema Statements AccountQueries CatQueries UpdateQueries NotificationQueries
  Environment AccountServices CatServices SocialServices HiddenCats HttpRequests Handlers Router
  HttpRuns ReadPrivacy
open AccountSeparation (SameDevice)
open ServiceEffects (createMedia_tables)

section Statements

variable {viewer : Option UUID} {db db' : Database} {id userId deviceId : UUID}

theorem createDevice_alike {hash : String} {token : Option String} {platform : Platform}
    (h : createDevice id hash token platform db = .ok db') :
    Alike viewer db.tables db'.tables := by
  rw [write_eq_ok.mp h]
  apply alike_devices
  · intro d hd _
    exact ⟨d, List.mem_append_left _ hd, .refl d⟩
  · intro a _ id
    simp

theorem setDevicePushToken_alike {token : String}
    (h : setDevicePushToken token deviceId db = .ok db') : Alike viewer db.tables db'.tables := by
  rw [write_eq_ok.mp h]
  apply alike_devices
  · intro d hd _
    have hd' := List.mem_map_of_mem (f := fun d => if d.id = deviceId then
        { d with pushToken := some token }
      else if d.pushToken = some token then { d with pushToken := none } else d) hd
    refine ⟨_, hd', ?_⟩
    split
    · rfl
    · split
      · rfl
      · rfl
  · intro a _ id
    rw [List.any_map]
    apply congrArg db.tables.devices.any
    funext d
    rw [Function.comp_apply]
    split
    · rfl
    · split
      · rfl
      · rfl

theorem unlinkDeviceFromUser_alike (huser : userId ∉ viewer)
    (h : unlinkDeviceFromUser id userId db = .ok db') : Alike viewer db.tables db'.tables := by
  rw [write_eq_ok.mp h]
  apply alike_devices
  · intro d hd howner
    have hother : (d.id == id && d.userId == some userId) = false := by
      have hne : d.userId ≠ some userId := by
        rintro heq
        rcases howner with hnone | hviewer
        · rw [hnone] at heq
          cases heq
        · exact huser (hviewer.symm.trans heq)
      rw [beq_false_of_ne hne, Bool.and_false]
    exact ⟨d, mem_updateWhere.mpr ⟨d, hd, if_neg (by simp [hother])⟩, .refl d⟩
  · intro a ha id'
    rw [updateWhere, List.any_map]
    apply congrArg db.tables.devices.any
    funext d
    rw [Function.comp_apply]
    split
    · next hown =>
      simp only [Bool.and_eq_true, beq_iff_eq] at hown
      have hne : userId ≠ a := fun heq => huser (heq ▸ ha)
      simp [hown.2, hne]
    · rfl

theorem createBlock_alike {blocked : UUID} (huser : userId ∉ viewer)
    (h : AccountQueries.createBlock userId blocked db = .ok db') :
    Alike viewer db.tables db'.tables := by
  unfold AccountQueries.createBlock at h
  split at h
  · cases h
    exact .refl _ _
  · rw [write_eq_ok.mp h]
    refine { Alike.refl viewer db.tables with blocks := fun a ha => ?_ }
    have hne : userId ≠ a := fun heq => huser (heq ▸ ha)
    simp [List.filter_append, hne]

theorem deleteBlock_alike {blocked : UUID} (huser : userId ∉ viewer)
    (h : AccountQueries.deleteBlock userId blocked db = .ok db') :
    Alike viewer db.tables db'.tables := by
  rw [write_eq_ok.mp h]
  refine { Alike.refl viewer db.tables with blocks := fun a ha => ?_ }
  apply filter_deleteWhere
  · intro b _ hb
    simp only [Bool.and_eq_true, beq_iff_eq] at hb
    have hne : b.blockerUserId ≠ a := fun heq => huser ((hb.1.symm.trans heq) ▸ ha)
    exact beq_false_of_ne hne
  · intro b _ _
    rfl

theorem createFollow_alike {device : Option UUID} {catId : UUID} (huser : userId ∉ viewer)
    (h : createFollow userId device catId db = .ok db') : Alike viewer db.tables db'.tables := by
  unfold createFollow at h
  split at h
  · cases h
    exact .refl _ _
  · rw [write_eq_ok.mp h]
    refine { Alike.refl viewer db.tables with follows := fun a ha => ?_ }
    have hne : userId ≠ a := fun heq => huser (heq ▸ ha)
    simp [insertFollow, List.filter_append, hne]

theorem deleteFollow_alike {catId : UUID} (huser : userId ∉ viewer)
    (h : deleteFollow userId catId db = .ok db') : Alike viewer db.tables db'.tables := by
  rw [write_eq_ok.mp h]
  refine { Alike.refl viewer db.tables with follows := fun a ha => ?_ }
  apply filter_deleteWhere
  · intro f _ hf
    simp only [Bool.and_eq_true, beq_iff_eq] at hf
    have hne : f.userId ≠ some a := by
      rw [hf.1]
      exact fun heq => huser (Option.some.inj heq ▸ ha)
    exact beq_false_of_ne hne
  · intro f _ _
    rfl

/-- A device is linked to one account, so a notification that another account marks is not in
the viewer's inbox. -/
theorem markNotificationRead_alike {at' : Instant} (huser : userId ∉ viewer)
    (h : markNotificationRead at' id userId db = .ok db') : Alike viewer db.tables db'.tables := by
  rw [write_eq_ok.mp h]
  refine { Alike.refl viewer db.tables with inbox := fun a ha => ?_ }
  have hnot (deviceId : UUID)
      (hother : (db.tables.devices.any fun d => d.id == deviceId && d.userId == some userId) =
        true) :
      (db.tables.devices.any fun d => d.id == deviceId && d.userId == some a) = false := by
    obtain ⟨d, hd, hlink⟩ := List.any_eq_true.mp hother
    simp only [Bool.and_eq_true, beq_iff_eq] at hlink
    apply List.any_eq_false.mpr
    intro d' hd' hlink'
    simp only [Bool.and_eq_true, beq_iff_eq] at hlink'
    have hsame : d' = d := (db.valid.holds .devicesPkey).eq_of_key_eq hd' hd
      (congrArg some (hlink'.1.trans hlink.1.symm)) (by simp)
    rw [hsame, hlink.2] at hlink'
    exact huser (Option.some.inj hlink'.2 ▸ ha)
  apply filter_updateWhere
  intro n _ hn
  have hmine := hnot n.deviceId (Bool.and_eq_true_iff.mp hn).2
  exact ⟨hmine, hmine⟩

theorem createMedia_alike {row r : Medium} (h : createMedia row db = .ok (r, db')) :
    Alike viewer db.tables db'.tables := by
  rw [(createMedia_tables h).2]
  exact { Alike.refl viewer db.tables with media := List.prefix_append _ _ }

end Statements

section Services

variable {viewer : Option UUID} {cfg : Config} {env : Env} {w : World} {userId : UUID}

theorem run_alike {x : Except Error Database}
    (h : ∀ db', x = .ok db' → Alike viewer w.db.tables db'.tables) :
    Alike viewer w.db.tables (w.run x).2.db.tables := by
  cases x with
  | error e => exact .refl _ _
  | ok db' => exact h db' rfl

theorem commit_alike {α : Type} {x : Except Error (α × Database)}
    (h : ∀ r db', x = .ok (r, db') → Alike viewer w.db.tables db'.tables) :
    Alike viewer w.db.tables (w.commit x).2.db.tables := by
  cases x with
  | error e => exact .refl _ _
  | ok x => exact h x.1 x.2 rfl

theorem register_alike (platform : String) (pushToken : Option String) :
    Alike viewer w.db.tables
      (AccountServices.register cfg env platform pushToken w).2.db.tables := by
  unfold AccountServices.register
  split
  · exact .refl _ _
  · split
    · exact .refl _ _
    · next h => exact createDevice_alike h

theorem setPushToken_alike (deviceId : UUID) (pushToken : String) :
    Alike viewer w.db.tables (setPushToken deviceId pushToken w).2.db.tables := by
  unfold setPushToken
  dsimp only
  split
  · exact .refl _ _
  · exact run_alike fun db' h => setDevicePushToken_alike h

theorem requestOTP_alike (phone : String) :
    Alike viewer w.db.tables (AccountServices.requestOTP cfg env phone w).2.db.tables := by
  unfold AccountServices.requestOTP
  split
  · exact .refl _ _
  · exact .refl _ _
  · dsimp only
    split
    · exact .refl _ _
    · split
      · exact .refl _ _
      · next h =>
        rw [write_eq_ok.mp h]
        exact alike_sessions

theorem revokeRefreshTokenIfActive_alike {at' now : Instant} {id user : UUID} {db db' : Database}
    (h : revokeRefreshTokenIfActive at' id now db = .ok (user, db')) :
    Alike viewer db.tables db'.tables := by
  obtain ⟨row, -, h⟩ := bind_eq_ok.mp h
  obtain ⟨db₁, hwrite, h⟩ := bind_eq_ok.mp h
  cases h
  rw [write_eq_ok.mp hwrite]
  exact alike_sessions

theorem issue_alike {session : Session} {db db' : Database}
    (h : issue cfg env userId db = .ok (session, db')) : Alike viewer db.tables db'.tables := by
  obtain ⟨db₁, hwrite, h⟩ := bind_eq_ok.mp h
  cases h
  rw [write_eq_ok.mp hwrite]
  exact alike_sessions

theorem refresh_alike (token : String) :
    Alike viewer w.db.tables (AccountServices.refresh cfg env token w).2.db.tables := by
  unfold AccountServices.refresh
  split
  · exact .refl _ _
  · exact .refl _ _
  · split
    · exact .refl _ _
    · split
      · exact .refl _ _
      · dsimp only
        apply commit_alike
        intro session db' h
        split at h
        · cases h
        · obtain ⟨⟨user, db₁⟩, hrevoke, hissue⟩ := bind_eq_ok.mp h
          exact (revokeRefreshTokenIfActive_alike hrevoke).trans (issue_alike hissue)

theorem revoke_alike (token : String) :
    Alike viewer w.db.tables (revoke cfg env token w).2.db.tables := by
  unfold revoke
  split
  · exact .refl _ _
  · exact .refl _ _
  · split
    · exact .refl _ _
    · apply run_alike
      intro db' h
      rw [write_eq_ok.mp h]
      exact alike_sessions

theorem logout_alike {token : String} {deviceId : Option UUID} (huser : userId ∉ viewer) :
    Alike viewer w.db.tables
      (AccountServices.logout cfg env userId token deviceId w).2.db.tables := by
  have hrevoked : Alike viewer w.db.tables (revoke cfg env token w).2.db.tables :=
    revoke_alike token
  unfold AccountServices.logout
  split
  · next h =>
    rw [h] at hrevoked
    exact hrevoked
  · next h =>
    rw [h] at hrevoked
    split
    · exact hrevoked
    · exact hrevoked.trans (run_alike fun db' h => unlinkDeviceFromUser_alike huser h)

theorem block_alike {blocked : Option UUID} (huser : userId ∉ viewer) :
    Alike viewer w.db.tables (block userId blocked w).2.db.tables := by
  unfold block
  split
  · exact .refl _ _
  · split
    · exact .refl _ _
    · split
      · exact .refl _ _
      · exact .refl _ _
      · exact run_alike fun db' h => createBlock_alike huser h

theorem unblock_alike {blocked : Option UUID} (huser : userId ∉ viewer) :
    Alike viewer w.db.tables (unblock userId blocked w).2.db.tables := by
  unfold unblock
  split
  · exact .refl _ _
  · split
    · exact .refl _ _
    · exact run_alike fun db' h => deleteBlock_alike huser h

theorem follow_alike {catId deviceId : Option UUID} (huser : userId ∉ viewer) :
    Alike viewer w.db.tables (SocialServices.follow catId userId deviceId w).2.db.tables := by
  unfold SocialServices.follow
  split
  · exact .refl _ _
  · split
    · exact run_alike fun db' h => createFollow_alike huser h
    · exact .refl _ _

theorem unfollow_alike {catId : Option UUID} (huser : userId ∉ viewer) :
    Alike viewer w.db.tables (SocialServices.unfollow catId userId w).2.db.tables := by
  unfold SocialServices.unfollow
  split
  · exact .refl _ _
  · split
    · exact run_alike fun db' h => deleteFollow_alike huser h
    · exact .refl _ _

theorem createReport_alike {targetType : String} {targetId : Option UUID} {reason : String}
    {note : Option String} :
    Alike viewer w.db.tables
      (SocialServices.createReport env userId targetType targetId reason note w).2.db.tables := by
  unfold SocialServices.createReport
  split
  · exact .refl _ _
  · split
    · next h =>
      unfold UpdateQueries.createReport at h
      split at h
      · cases h
      · obtain ⟨db₁, hwrite, h⟩ := bind_eq_ok.mp h
        cases h
        rw [write_eq_ok.mp hwrite]
        exact alike_sessions
    · exact .refl _ _
    · exact .refl _ _

theorem markRead_alike {id : Option UUID} (huser : userId ∉ viewer) :
    Alike viewer w.db.tables (SocialServices.markRead env userId id w).2.db.tables := by
  unfold SocialServices.markRead
  split
  · exact .refl _ _
  · exact run_alike fun db' h => markNotificationRead_alike huser h

theorem upload_alike {deviceId : Option UUID} {key : Option String} {muted : Bool} :
    Alike viewer w.db.tables
      (CatServices.upload env userId deviceId key muted w).2.db.tables := by
  unfold CatServices.upload
  split
  · exact .refl _ _
  · split
    · exact .refl _ _
    · exact .refl _ _
    · dsimp only
      split
      · simp only [recoverFromCreateFailure, deleteObject_db]
        exact .refl _ _
      · next h => exact createMedia_alike h
  · exact .refl _ _

end Services

section Runs

variable {viewer : Option UUID} {h : Wiring} {i : Incoming} {w w' : World} {es : List Event}

/-- Routes on which whoever makes a request looks around or sees to an affair of its own. -/
def discreet : Endpoint → Bool
  | .follow _ | .unfollow _ | .createBlock | .deleteBlock _ | .createReport | .markRead _
  | .upload | .register | .updatePushToken | .requestOTP | .refresh | .logout => true
  | e => e.reads

/-- To the viewer the answer leaves everything as it was. -/
def Unnoticed (viewer : Option UUID) (w : World) (x : Answer × World) : Prop :=
  Alike viewer w.db.tables x.2.db.tables

theorem unnoticed (answer : Answer) : Unnoticed viewer w (answer, w) :=
  .refl _ _

theorem endpoint_unnoticed {e : Endpoint} (hdiscreet : discreet e = true)
    (hother : ∀ a ∈ viewer, bearerOf h i ≠ .valid a) : Unnoticed viewer w (e.serve h i w) := by
  have hnot (user : UUID) (huser : bearerOf h i = .valid user) : user ∉ viewer :=
    fun hmem => hother user hmem huser
  have hreads (hread : e.reads = true) : Unnoticed viewer w (e.serve h i w) := by
    have hstays : (e.serve h i w).2 = w := serve_reads hread
    rw [Unnoticed, hstays]
    exact .refl _ _
  cases e with
  | follow catId => exact require_of unnoticed fun user huser => follow_alike (hnot user huser)
  | unfollow catId => exact require_of unnoticed fun user huser => unfollow_alike (hnot user huser)
  | createBlock =>
    apply require_of unnoticed
    intro user huser
    exact withBody_of unnoticed fun _ _ => block_alike (hnot user huser)
  | deleteBlock userId =>
    exact require_of unnoticed fun user huser => unblock_alike (hnot user huser)
  | createReport =>
    apply require_of unnoticed
    intro user _
    exact withBody_of unnoticed fun _ _ => createReport_alike
  | markRead id => exact require_of unnoticed fun user huser => markRead_alike (hnot user huser)
  | upload =>
    apply require_of unnoticed
    intro user _
    apply withForm_of unnoticed
    intro form
    split
    · exact unnoticed _
    · exact upload_alike
  | register =>
    apply withBody_of unnoticed
    intro req _
    split
    · exact unnoticed _
    · exact register_alike _ _
  | updatePushToken =>
    apply require_of unnoticed
    intro device _
    exact withBody_of unnoticed fun _ _ => setPushToken_alike _ _
  | requestOTP => exact withBody_of unnoticed fun _ _ => requestOTP_alike _
  | refresh => exact withRefreshToken_of unnoticed fun token _ => refresh_alike token
  | logout =>
    apply require_of unnoticed
    intro user huser
    exact withRefreshToken_of unnoticed fun _ _ => logout_alike (hnot user huser)
  | _ => exact hreads hdiscreet

/-- A request on one of these routes, or on none, that is not made for the viewer. -/
def DiscreetEvent (h : Wiring) (viewer : Option UUID) : Event → Prop
  | .request i => (∀ e ∈ route i, discreet e = true) ∧ ∀ a ∈ viewer, bearerOf h i ≠ .valid a
  | .tick _ => False

theorem step_alike {e : Event} (he : DiscreetEvent h viewer e) (hstep : step h w e = some w') :
    Alike viewer w.db.tables w'.db.tables := by
  obtain ⟨-, -, hhandle⟩ := step_eq_some.mp hstep
  rw [← hhandle]
  cases e with
  | tick env => exact he.elim
  | request i =>
    change Unnoticed viewer w (serveHTTP h i w)
    unfold serveHTTP
    cases hroute : route i with
    | some e => exact endpoint_unnoticed (he.1 e hroute) he.2
    | none =>
      dsimp only
      split
      · exact unnoticed _
      · exact unnoticed _

theorem run_alike_of_discreet (hes : ∀ e ∈ es, DiscreetEvent h viewer e)
    (hrun : exec (step h) w es = some w') : Alike viewer w.db.tables w'.db.tables := by
  induction es generalizing w with
  | nil =>
    cases hrun
    exact .refl _ _
  | cons e es ih =>
    obtain ⟨w₁, hstep, hrest⟩ := Option.bind_eq_some_iff.mp hrun
    have hfirst := step_alike (hes e List.mem_cons_self) hstep
    exact hfirst.trans (ih (fun e' he' => hes e' (List.mem_cons_of_mem _ he')) hrest)

/-- No device token comes with the request, or that of a device of the viewer or of nobody. -/
def OwnDevice (viewer : Option UUID) (c : Credential DeviceIdentity) : Prop :=
  c = .missing ∨ ∃ d, c = .valid d ∧ (d.userId = none ∨ d.userId = viewer)

/-- A device token names one device. -/
theorem resolveToken_alike {cfg : Config} {token : String} {d : DeviceIdentity}
    (halike : Alike viewer w.db.tables w'.db.tables) (hd : resolveToken cfg w token = some d)
    (huser : d.userId = none ∨ d.userId = viewer) : resolveToken cfg w' token = some d := by
  obtain ⟨row, hfind, hrow⟩ := Option.bind_eq_some_iff.mp hd
  have hashed {rows : List Device} {found : Device}
      (h : (rows.find? fun d => d.tokenHash == hashDeviceToken cfg token) = some found) :
      found.tokenHash = hashDeviceToken cfg token := by
    have hmatch := List.find?_some h
    exact eq_of_beq hmatch
  split at hrow
  · cases hrow
  · next hlive =>
    cases hrow
    have hhash := hashed hfind
    obtain ⟨row', hrow', hsame⟩ := halike.devices row (List.mem_of_find?_eq_some hfind) huser
    have hhash' : row'.tokenHash = hashDeviceToken cfg token := by
      rw [hsame]
      exact hhash
    have hfind' : (w'.db.tables.devices.find? fun d => d.tokenHash == hashDeviceToken cfg token) =
        some row' := by
      have hsome : (w'.db.tables.devices.find? fun d =>
          d.tokenHash == hashDeviceToken cfg token).isSome = true :=
        List.find?_isSome.mpr ⟨row', hrow', beq_iff_eq.mpr hhash'⟩
      obtain ⟨found, hfound⟩ := Option.isSome_iff_exists.mp hsome
      have heq : found = row' := (w'.db.valid.holds .devicesTokenHashKey).eq_of_key_eq
        (List.mem_of_find?_eq_some hfound) hrow'
        (congrArg some ((hashed hfound).trans hhash'.symm)) (by simp)
      rw [hfound, heq]
    rw [resolveToken, hfind', Option.bind_some, hsame]
    exact if_neg hlive

theorem deviceOf_alike (halike : Alike viewer w.db.tables w'.db.tables)
    (hown : OwnDevice viewer (deviceOf h i w)) : deviceOf h i w' = deviceOf h i w := by
  unfold deviceOf device credential at hown ⊢
  cases htoken : onlyToken i.request.deviceToken with
  | none => rfl
  | some token =>
    rw [htoken] at hown
    dsimp only at hown ⊢
    cases hresolve : resolveToken h.cfg w token with
    | none =>
      rw [hresolve] at hown
      rcases hown with hmissing | ⟨d, hvalid, -⟩
      · cases hmissing
      · cases hvalid
    | some d =>
      rw [hresolve] at hown
      rcases hown with hmissing | ⟨d', hvalid, huser⟩
      · cases hmissing
      · cases hvalid
        rw [resolveToken_alike halike hresolve huser]

/-- The second account follows the cat of the first one, reports it and blocks its owner, and
someone registers a device. -/
def affairs : List Event :=
  [visit 1 .post ["v1", "cats", "5", "follow"],
    .request {
      request := {
        method := .post
        path := ["v1", "reports"]
        authorization := ["Bearer sssae"]
        body := "\x7b\"target_type\":\"cat\",\"target_id\":\"5\",\"reason\":\"spam\"\x7d".toList }
      env := Backend.plainEnv 2 },
    .request {
      request := {
        method := .post
        path := ["v1", "me", "blocks"]
        authorization := ["Bearer sssae"]
        body := "\x7b\"blocked_user_id\":\"1\"\x7d".toList }
      env := Backend.plainEnv 3 },
    .request {
      request := {
        method := .post
        path := ["v1", "devices"]
        body := "\x7b\"platform\":\"ios\"\x7d".toList }
      env := Backend.plainEnv 4 }]

/-- The first account lists whom it blocks. -/
def glance : Incoming where
  request := { method := .get, path := ["v1", "me", "blocks"], authorization := ["Bearer ssae"] }
  env := Backend.plainEnv 5

theorem affairs_discreet : ∀ e ∈ affairs, DiscreetEvent plainWiring (some 1) e := by
  intro e he
  have htest : affairs.all (fun e => match e with
      | .request i => (route i).all discreet && decide (bearerOf plainWiring i ≠ .valid 1)
      | .tick _ => false) = true := by decide +kernel
  have hone := List.all_eq_true.mp htest e he
  cases e with
  | tick env => cases hone
  | request i =>
    simp only [Bool.and_eq_true, decide_eq_true_eq] at hone
    refine ⟨fun e hroute => ?_, fun a ha => ?_⟩
    · have hall := hone.1
      rw [Option.mem_def.mp hroute] at hall
      exact hall
    · rw [← Option.some.inj ha]
      exact hone.2

end Runs

end Tekir.DiscreetActs
