import Tekir.AccountSeparation
import Tekir.Router

/-!
# What a reader sees

Every reader sees the cats with their media and updates, and the names of the accounts; an
account sees what it follows and blocks itself, and its own inbox. States that agree on these
answer a `GET` request alike: no answer tells a phone number, a session, a one-time code, a push
token or a report, nor whom or what anyone else follows, blocks or has read.
-/
namespace Tekir.ReadPrivacy
open Table Schema Statements AccountQueries CatQueries UpdateQueries ReadQueries AccountReads
  Environment HttpRequests Handlers Router
open AccountSeparation (SameDevice)
open Badges (gatherContributions)
open CatServices (withinIstanbul)
open Cursors (parseInt)

/-- What everybody may know of an account. -/
def profileOf (u : User) : UUID × Option String :=
  (u.id, u.displayName)

/-- The notifications for the devices of an account. -/
def inbox (a : UUID) (t : Tables) : List Notification :=
  t.notifications.filter fun n => t.devices.any fun d => d.id == n.deviceId && d.userId == some a

/-- To the viewer, who may have no account, both states look alike. Media that have come since
are nowhere shown. -/
structure Alike (viewer : Option UUID) (t t' : Tables) : Prop where
  profiles : t'.users.map profileOf = t.users.map profileOf
  cats : t'.cats = t.cats
  media : t.media <+: t'.media
  catMedia : t'.catMedia = t.catMedia
  updates : t'.updates = t.updates
  statuses : t'.updateStatuses = t.updateStatuses
  follows : ∀ a ∈ viewer, (t'.follows.filter fun f => f.userId == some a) =
    t.follows.filter fun f => f.userId == some a
  blocks : ∀ a ∈ viewer, (t'.userBlocks.filter fun b => b.blockerUserId == a) =
    t.userBlocks.filter fun b => b.blockerUserId == a
  inbox : ∀ a ∈ viewer, inbox a t' = inbox a t
  devices : ∀ d ∈ t.devices, d.userId = none ∨ d.userId = viewer →
    ∃ d' ∈ t'.devices, SameDevice d d'

section Alike

variable {viewer : Option UUID} {t t' t'' : Tables}

theorem Alike.refl (viewer : Option UUID) (t : Tables) : Alike viewer t t where
  profiles := rfl
  cats := rfl
  media := List.prefix_refl _
  catMedia := rfl
  updates := rfl
  statuses := rfl
  follows := fun _ _ => rfl
  blocks := fun _ _ => rfl
  inbox := fun _ _ => rfl
  devices := fun d hd _ => ⟨d, hd, .refl d⟩

theorem Alike.trans (h : Alike viewer t t') (h' : Alike viewer t' t'') : Alike viewer t t'' where
  profiles := h'.profiles.trans h.profiles
  cats := h'.cats.trans h.cats
  media := h.media.trans h'.media
  catMedia := h'.catMedia.trans h.catMedia
  updates := h'.updates.trans h.updates
  statuses := h'.statuses.trans h.statuses
  follows := fun a ha => (h'.follows a ha).trans (h.follows a ha)
  blocks := fun a ha => (h'.blocks a ha).trans (h.blocks a ha)
  inbox := fun a ha => (h'.inbox a ha).trans (h.inbox a ha)
  devices := by
    intro d hd huser
    obtain ⟨d₁, hd₁, hsame⟩ := h.devices d hd huser
    have huser₁ : d₁.userId = none ∨ d₁.userId = viewer := by
      rw [hsame]
      exact huser
    obtain ⟨d₂, hd₂, hsame'⟩ := h'.devices d₁ hd₁ huser₁
    exact ⟨d₂, hd₂, SameDevice.trans d d₁ d₂ hsame hsame'⟩

/-- A statement on sessions, codes or reports. -/
theorem alike_sessions {sessions : List RefreshToken} {codes : List OtpCode}
    {reports : List Report} :
    Alike viewer t { t with refreshTokens := sessions, otpCodes := codes, reports := reports } :=
  { Alike.refl viewer t with }

/-- A statement on devices that links none to the viewer and unlinks none of the viewer's. -/
theorem alike_devices {devices : List Device}
    (hkept : ∀ d ∈ t.devices, d.userId = none ∨ d.userId = viewer →
      ∃ d' ∈ devices, SameDevice d d')
    (hlinked : ∀ a ∈ viewer, ∀ id, (devices.any fun d => d.id == id && d.userId == some a) =
      t.devices.any fun d => d.id == id && d.userId == some a) :
    Alike viewer t { t with devices := devices } :=
  { Alike.refl viewer t with
    devices := hkept
    inbox := by
      intro a ha
      apply List.filter_congr
      intro n _
      exact hlinked a ha n.deviceId }

end Alike

section Rows

variable {viewer : Option UUID} {db db' : Database}

/-- Rows that are appended do not come before one that is found. -/
theorem find?_prefix {α : Type} {p : α → Bool} {rows rows' : List α} (hrows : rows <+: rows')
    (hfound : ∃ r ∈ rows, p r = true) : rows'.find? p = rows.find? p := by
  obtain ⟨r, hr, hp⟩ := hfound
  have hsome : (rows.find? p).isSome = true := List.find?_isSome.mpr ⟨r, hr, hp⟩
  obtain ⟨first, hfirst⟩ := Option.isSome_iff_exists.mp hsome
  rw [hfirst]
  exact hrows.find?_eq_some hfirst

/-- A medium that a row refers to. -/
theorem medium_alike (h : Alike viewer db.tables db'.tables) {key : Option UUID}
    (hkey : ∀ id ∈ key, ∃ m ∈ db.tables.media, m.id = id) :
    (db'.tables.media.find? fun m => key == some m.id) =
      db.tables.media.find? fun m => key == some m.id := by
  cases key with
  | none =>
    have hnone (rows : List Medium) : (rows.find? fun m => none == some m.id) = none := by
      apply List.find?_eq_none.mpr
      intro m _
      simp
    rw [hnone, hnone]
  | some id =>
    obtain ⟨m, hm, hid⟩ := hkey id rfl
    exact find?_prefix h.media ⟨m, hm, by simp [hid]⟩

theorem displayName_alike (h : Alike viewer db.tables db'.tables) (p : UUID → Bool) :
    (db'.tables.users.find? fun u => p u.id).bind User.displayName =
      (db.tables.users.find? fun u => p u.id).bind User.displayName := by
  have hname (users : List User) : (users.find? fun u => p u.id).bind User.displayName =
      ((users.map profileOf).find? fun x => p x.1).bind Prod.snd := by
    rw [List.find?_map, Option.bind_map]
    rfl
  rw [hname, h.profiles, ← hname]

theorem blocks_alike (h : Alike viewer db.tables db'.tables) (owner : Option UUID) :
    AccountQueries.blocks viewer owner db' = AccountQueries.blocks viewer owner db := by
  cases viewer with
  | none =>
    have hnone (db : Database) : AccountQueries.blocks none owner db = false := by
      apply List.any_eq_false.mpr
      intro b _
      simp
    rw [hnone, hnone]
  | some a =>
    have hown (db : Database) : AccountQueries.blocks (some a) owner db =
        (db.tables.userBlocks.filter fun b => b.blockerUserId == a).any fun b =>
          owner == some b.blockedUserId := by
      rw [AccountQueries.blocks, List.any_filter]
      apply congrArg db.tables.userBlocks.any
      funext b
      rw [Option.some_beq_some, Bool.beq_comm]
    rw [hown, h.blocks a rfl, ← hown]

end Rows

section Cats

variable {viewer : Option UUID} {db db' : Database}

theorem visible_alike (h : Alike viewer db.tables db'.tables) :
    visible viewer db' = visible viewer db := by
  funext c
  rw [visible, blocks_alike h, visible]

theorem listed_alike (h : Alike viewer db.tables db'.tables) :
    listed viewer db' = listed viewer db := by
  funext c
  rw [listed, blocks_alike h, listed]

theorem photoUrl_alike (h : Alike viewer db.tables db'.tables) {c : Cat}
    (hc : c ∈ db.tables.cats) : photoUrl c db' = photoUrl c db := by
  have hkey := db.valid.holds .catsPrimaryPhotoIdFkey c hc
  rw [photoUrl, medium_alike h hkey, photoUrl]

theorem newestUpdate_alike (h : Alike viewer db.tables db'.tables) (catId : UUID)
    (p : Update → Bool) : newestUpdate catId p db' = newestUpdate catId p db := by
  rw [newestUpdate, h.updates, newestUpdate]

theorem newestWithStatus_alike (h : Alike viewer db.tables db'.tables) (catId : UUID)
    (status : Status) : newestWithStatus catId status db' = newestWithStatus catId status db := by
  rw [newestWithStatus, newestUpdate_alike h, h.statuses, newestWithStatus]

theorem markerRow_alike (h : Alike viewer db.tables db'.tables) {c : Cat}
    (hc : c ∈ db.tables.cats) : markerRow db' c = markerRow db c := by
  rw [markerRow, photoUrl_alike h hc, newestUpdate_alike h, markerRow]

theorem listCatsInBounds_alike (h : Alike viewer db.tables db'.tables) (geo : Geometry)
    (bounds : Bounds) :
    listCatsInBounds geo bounds viewer db' = listCatsInBounds geo bounds viewer db := by
  rw [listCatsInBounds, h.cats, listed_alike h, listCatsInBounds]
  apply List.map_congr_left
  intro c hc
  exact markerRow_alike h (List.mem_filter.mp (mem_orderBy.mp hc)).1

theorem candidates_alike (h : Alike viewer db.tables db'.tables) (geo : Geometry) (point : Point) :
    candidates geo point viewer db' = candidates geo point viewer db := by
  rw [candidates, h.cats, listed_alike h, candidates]
  apply List.map_congr_left
  intro c hc
  rw [markerRow_alike h (List.mem_filter.mp hc).1]

theorem nearbyDuplicates_alike (h : Alike viewer db.tables db'.tables) (geo : Geometry)
    (dwithin : Point → Bool) (point : Point) :
    ReadQueries.nearbyDuplicates geo dwithin point viewer db' =
      ReadQueries.nearbyDuplicates geo dwithin point viewer db := by
  have hrows : listNearbyCatsForDuplicateCheck dwithin viewer db' =
      listNearbyCatsForDuplicateCheck dwithin viewer db := by
    rw [listNearbyCatsForDuplicateCheck, h.cats, listNearbyCatsForDuplicateCheck]
    apply List.filter_congr
    intro c _
    rw [blocks_alike h]
  rw [ReadQueries.nearbyDuplicates, hrows, ReadQueries.nearbyDuplicates]

theorem mem_nearbyDuplicates {geo : Geometry} {dwithin : Point → Bool} {point : Point} {c : Cat}
    (hc : c ∈ ReadQueries.nearbyDuplicates geo dwithin point viewer db) : c ∈ db.tables.cats :=
  (List.mem_filter.mp (mem_orderBy.mp hc)).1

/-- Of its own follows an account sees the cats. -/
theorem listFollowedCats_alike {a : UUID} (h : Alike (some a) db.tables db'.tables) :
    listFollowedCats a db' = listFollowedCats a db := by
  have hblocks (f : Follow) : (db.tables.cats.filter fun c =>
      c.id == f.catId && !AccountQueries.blocks (some a) c.createdByUserId db') =
      db.tables.cats.filter fun c =>
        c.id == f.catId && !AccountQueries.blocks (some a) c.createdByUserId db := by
    apply List.filter_congr
    intro c _
    rw [blocks_alike h]
  rw [listFollowedCats, h.follows a rfl, h.cats, listFollowedCats]
  simp only [hblocks]
  apply List.map_congr_left
  intro c hc
  obtain ⟨f, -, hcf⟩ := List.mem_flatMap.mp (mem_orderBy.mp hc)
  exact markerRow_alike h (List.mem_filter.mp hcf).1

theorem getCatByID_alike (h : Alike viewer db.tables db'.tables) (id : UUID) :
    getCatByID id viewer db' = getCatByID id viewer db := by
  rw [getCatByID, h.cats, visible_alike h, getCatByID]
  cases hc : one (db.tables.cats.filter fun c => c.id == id && visible viewer db c) with
  | error e => rfl
  | ok c =>
    have hmem := (List.mem_filter.mp (one_eq_ok hc)).1
    change Except.ok _ = Except.ok _
    rw [photoUrl_alike h hmem, newestUpdate_alike h, newestWithStatus_alike h,
      newestWithStatus_alike h, newestWithStatus_alike h]

theorem catExists_alike (h : Alike viewer db.tables db'.tables) (id : UUID) :
    catExists id viewer db' = catExists id viewer db := by
  rw [catExists, h.cats, visible_alike h, catExists]

theorem getCatDetail_alike (h : Alike viewer db.tables db'.tables) (clock : Instant) (id : UUID) :
    CatServices.getCatDetail clock id viewer db' = CatServices.getCatDetail clock id viewer db := by
  have hcount : countCatMedia id db' = countCatMedia id db := by
    rw [countCatMedia, h.catMedia, countCatMedia]
  rw [CatServices.getCatDetail, getCatByID_alike h, hcount, CatServices.getCatDetail]

theorem catMediaRow_alike (h : Alike viewer db.tables db'.tables) {m : CatMedium}
    (hm : m ∈ db.tables.catMedia) : catMediaRow m db' = catMediaRow m db := by
  obtain ⟨medium, hmedium, hid⟩ := db.valid.holds .catMediaMediaIdFkey m hm m.mediaId rfl
  have hfind : (db'.tables.media.find? fun x => x.id == m.mediaId) =
      db.tables.media.find? fun x => x.id == m.mediaId :=
    find?_prefix h.media ⟨medium, hmedium, beq_iff_eq.mpr hid⟩
  have hname (id : UUID) := displayName_alike h fun x => x == id
  rw [catMediaRow, hfind, h.cats, catMediaRow]
  simp only [hname]

theorem listCatMedia_alike (h : Alike viewer db.tables db'.tables) (id : UUID) :
    CatServices.listCatMedia id viewer db' = CatServices.listCatMedia id viewer db := by
  have hattached (m : CatMedium) : stillAttached m db' = stillAttached m db := by
    rw [stillAttached, h.updates, stillAttached]
  have hrows : CatQueries.listCatMedia id db' = CatQueries.listCatMedia id db := by
    rw [CatQueries.listCatMedia, h.catMedia, CatQueries.listCatMedia]
    simp only [hattached]
    apply congrArg (orderBy newestMediaFirst)
    apply List.filterMap_congr
    intro m hm
    exact catMediaRow_alike h (List.mem_filter.mp hm).1
  rw [CatServices.listCatMedia, catExists_alike h, hrows, CatServices.listCatMedia]

end Cats

section Updates

variable {viewer : Option UUID} {db db' : Database}

theorem listUpdateStatuses_alike (h : Alike viewer db.tables db'.tables) (id : UUID) :
    listUpdateStatuses id db' = listUpdateStatuses id db := by
  rw [listUpdateStatuses, h.statuses, listUpdateStatuses]

theorem updateRow_alike (h : Alike viewer db.tables db'.tables) {u : Update}
    (hu : u ∈ db.tables.updates) : updateRow db' u = updateRow db u := by
  have hkey := db.valid.holds .updatesMediaIdFkey u hu
  have hname := displayName_alike h fun x => u.authorUserId == some x
  rw [updateRow, medium_alike h hkey, hname, listUpdateStatuses_alike h, updateRow]

theorem listCatUpdates_alike (h : Alike viewer db.tables db'.tables) (catId : UUID)
    (before : Option (Instant × ℕ)) (rowLimit : ℕ) :
    ReadQueries.listCatUpdates catId before rowLimit db' =
      ReadQueries.listCatUpdates catId before rowLimit db := by
  rw [ReadQueries.listCatUpdates, h.updates, ReadQueries.listCatUpdates]
  apply List.map_congr_left
  intro u hu
  exact updateRow_alike h (List.mem_filter.mp (mem_orderBy.mp (List.mem_of_mem_take hu))).1

theorem gatherContributions_alike (h : Alike viewer db.tables db'.tables) (userId : UUID) :
    gatherContributions userId db' = gatherContributions userId db := by
  have hordinary : Badges.listUserOrdinaryUpdatesForBadges userId db' =
      Badges.listUserOrdinaryUpdatesForBadges userId db := by
    rw [Badges.listUserOrdinaryUpdatesForBadges, h.updates,
      Badges.listUserOrdinaryUpdatesForBadges]
    simp only [listUpdateStatuses_alike h]
  have hhelp : Badges.listUserNeedsHelpUpdatesForBadges userId db' =
      Badges.listUserNeedsHelpUpdatesForBadges userId db := by
    rw [Badges.listUserNeedsHelpUpdatesForBadges, h.updates,
      Badges.listUserNeedsHelpUpdatesForBadges]
  have hcats : Badges.listUserCreatedCatsForBadges userId db' =
      Badges.listUserCreatedCatsForBadges userId db := by
    rw [Badges.listUserCreatedCatsForBadges, h.cats, Badges.listUserCreatedCatsForBadges]
  rw [gatherContributions, hordinary, hhelp, hcats, gatherContributions]

end Updates

section Accounts

variable {a : UUID} {db db' : Database}

theorem listBlocked_alike (h : Alike (some a) db.tables db'.tables) :
    listBlocked a db' = listBlocked a db := by
  have hnames (users : List User) (id : UUID) :
      ((users.filter fun u => u.id == id).map fun u =>
        ({ userId := id, displayName := u.displayName } : BlockedAccount)) =
      ((users.map profileOf).filter fun x => x.1 == id).map fun x =>
        { userId := id, displayName := x.2 } := by
    rw [List.filter_map, List.map_map]
    rfl
  rw [listBlocked, listBlockedAccounts, h.blocks a rfl, listBlocked, listBlockedAccounts]
  simp only [hnames, h.profiles]

theorem catSummary_alike {viewer : Option UUID} (h : Alike viewer db.tables db'.tables)
    (catId : UUID) : catSummary catId db' = catSummary catId db := by
  rw [catSummary, h.cats, catSummary]
  cases hfind : db.tables.cats.find? fun c => c.id == catId with
  | none => rfl
  | some c =>
    rw [Option.map_some, Option.map_some, photoUrl_alike h (List.mem_of_find?_eq_some hfind)]

theorem getUserByID_alike {viewer : Option UUID} (h : Alike viewer db.tables db'.tables)
    (id : UUID) : (getUserByID id db').map profileOf = (getUserByID id db).map profileOf := by
  have hone (users : List User) : (one (users.filter fun u => u.id == id)).map profileOf =
      one ((users.map profileOf).filter fun x => x.1 == id) := by
    have hrows : ((users.map profileOf).filter fun x => x.1 == id) =
        (users.filter fun u => u.id == id).map profileOf := by
      rw [List.filter_map]
      rfl
    rw [hrows]
    cases users.filter fun u => u.id == id with
    | nil => rfl
    | cons u us => rfl
  rw [getUserByID, hone, h.profiles, ← hone, getUserByID]

theorem getProfile_alike (h : Alike (some a) db.tables db'.tables) :
    getProfile a db' = getProfile a db := by
  have huser := getUserByID_alike h a
  have hrecent : recentContribution db' = recentContribution db := by
    funext e
    rw [recentContribution, catSummary_alike h, recentContribution]
  rw [getProfile, gatherContributions_alike h, hrecent, getProfile]
  cases hget' : getUserByID a db' with
  | error e' =>
    cases hget : getUserByID a db with
    | error e =>
      rw [hget', hget] at huser
      cases huser
      rfl
    | ok u =>
      rw [hget', hget] at huser
      cases huser
  | ok u' =>
    cases hget : getUserByID a db with
    | error e =>
      rw [hget', hget] at huser
      cases huser
    | ok u =>
      rw [hget', hget] at huser
      have hname : u'.displayName = u.displayName :=
        congrArg Prod.snd (Except.ok.inj huser)
      change Except.ok _ = Except.ok _
      rw [hname]

theorem listMyNotifications_alike (h : Alike (some a) db.tables db'.tables)
    (before : Option NotificationQueries.Before) (rowLimit : ℕ) :
    NotificationQueries.listMyNotifications a before rowLimit db' =
      NotificationQueries.listMyNotifications a before rowLimit db := by
  have hmine := h.inbox a rfl
  rw [ReadPrivacy.inbox, ReadPrivacy.inbox] at hmine
  rw [NotificationQueries.listMyNotifications, hmine, NotificationQueries.listMyNotifications]

end Accounts

section Answers

variable {h : Wiring} {i : Incoming} {w w' : World}

/-- The same is answered from both states. -/
def Agree (x x' : Answer × World) : Prop :=
  x'.1 = x.1

theorem agree (answer : Answer) : Agree (answer, w) (answer, w') := rfl

theorem respond_agree {α : Type} {onError : Error → Answer} {onOk : α → Answer}
    {x x' : Except Error α} (hx : x' = x) :
    Agree (respond onError onOk (x, w)) (respond onError onOk (x', w')) := by
  rw [hx]
  rfl

theorem require_agree {α : Type} {name : String} {c : Credential α}
    {next next' : α → Answer × World} (hnext : ∀ a, c = .valid a → Agree (next a) (next' a)) :
    Agree (require name c w next) (require name c w' next') := by
  cases c with
  | missing => exact agree _
  | invalid => exact agree _
  | valid a => exact hnext a rfl

theorem withLimit_agree {message : String} {r : HttpRequest} {next next' : ℤ → Answer × World}
    (hnext : ∀ limit, Agree (next limit) (next' limit)) :
    Agree (withLimit message r w next) (withLimit message r w' next') := by
  unfold withLimit
  dsimp only
  split
  · exact hnext 0
  · cases parseInt (valueOf "limit" r.query).toList with
    | none => exact agree _
    | some limit => exact hnext limit

theorem withParsed_agree {α : Type} {x : Except String α} {next next' : α → Answer × World}
    (hnext : ∀ a, Agree (next a) (next' a)) :
    Agree (withParsed w x next) (withParsed w' x next') := by
  cases x with
  | error message => exact agree _
  | ok a => exact hnext a

theorem withCatID_agree {catId : String} {next next' : UUID → Answer × World}
    (hnext : ∀ id, Agree (next id) (next' id)) :
    Agree (withCatID h w catId next) (withCatID h w' catId next') := by
  unfold withCatID
  cases h.parseUUID catId with
  | none => exact agree _
  | some id => exact hnext id

variable {viewer : Option UUID}

theorem nearby_agree (halike : Alike viewer w.db.tables w'.db.tables) :
    Agree (nearby h i w viewer) (nearby h i w' viewer) := by
  apply withParsed_agree
  intro bounds
  apply respond_agree
  rw [ReadServices.listNearby, listCatsInBounds_alike halike, ReadServices.listNearby]

theorem nearbyDuplicates_agree (halike : Alike viewer w.db.tables w'.db.tables) :
    Agree (nearbyDuplicates h i w viewer) (nearbyDuplicates h i w' viewer) := by
  apply withParsed_agree
  intro point
  apply respond_agree
  rw [ReadServices.listNearbyDuplicates, nearbyDuplicates_alike halike,
    ReadServices.listNearbyDuplicates]
  apply congrArg (fun x => if withinIstanbul point then x else _)
  apply congrArg Except.ok
  apply List.map_congr_left
  intro c hc
  rw [photoUrl_alike halike (mem_nearbyDuplicates hc)]

theorem discover_agree (halike : Alike viewer w.db.tables w'.db.tables) :
    Agree (discover h i w viewer) (discover h i w' viewer) := by
  apply withParsed_agree
  intro point
  apply withLimit_agree
  intro limit
  apply respond_agree
  have hrows (filter : ReadServices.DiscoverFilter) (after : Option (ℚ≥0 × UUID)) (n : ℕ) :
      ReadServices.discoverRows (Cursors.reading h.texts h.geo) filter point i.env.clock after n
        viewer w'.db =
      ReadServices.discoverRows (Cursors.reading h.texts h.geo) filter point i.env.clock after n
        viewer w.db := by
    cases filter with
    | nearby =>
      rw [ReadServices.discoverRows, listCatsByDistance, candidates_alike halike]
      rfl
    | needsHelp =>
      rw [ReadServices.discoverRows, listActiveNeedsHelpCatsByDistance, candidates_alike halike]
      rfl
  unfold ReadServices.listDiscover
  simp only [hrows]

theorem updateHistory_agree (halike : Alike viewer w.db.tables w'.db.tables) (catId : String) :
    Agree (updateHistory h i w viewer catId) (updateHistory h i w' viewer catId) := by
  apply withLimit_agree
  intro limit
  apply withCatID_agree
  intro id
  apply respond_agree
  unfold ReadServices.listCatUpdates
  simp only [catExists_alike halike, listCatUpdates_alike halike]

/-- A `GET` request is answered alike in states that look alike to whoever makes it, from a
device that is linked as before. -/
theorem endpoint_agree {e : Endpoint} (hreads : e.reads = true)
    (halike : Alike (optionalBearer h i) w.db.tables w'.db.tables)
    (hdevice : deviceOf h i w' = deviceOf h i w) : Agree (e.serve h i w) (e.serve h i w') := by
  have hown (user : UUID) (huser : bearerOf h i = .valid user) :
      Alike (some user) w.db.tables w'.db.tables := by
    rw [optionalBearer, huser] at halike
    exact halike
  cases e with
  | live => exact agree _
  | ready => exact agree _
  | nearby => exact nearby_agree halike
  | nearbyDuplicates => exact nearbyDuplicates_agree halike
  | discover => exact discover_agree halike
  | detail catId =>
    apply withCatID_agree
    intro id
    exact respond_agree (getCatDetail_alike halike i.env.clock id)
  | media catId =>
    apply withCatID_agree
    intro id
    exact respond_agree (listCatMedia_alike halike id)
  | updateHistory catId => exact updateHistory_agree halike catId
  | listFollows =>
    apply require_agree
    intro user huser
    rw [Agree, listFollows, ReadServices.listFollows, listFollowedCats_alike (hown user huser)]
    rfl
  | listNotifications =>
    apply require_agree
    intro user huser
    apply withLimit_agree
    intro limit
    apply respond_agree
    unfold HistoryPages.listMyNotifications
    simp only [listMyNotifications_alike (hown user huser)]
  | profile =>
    apply require_agree
    intro user huser
    exact respond_agree (getProfile_alike (hown user huser))
  | badges =>
    apply require_agree
    intro user huser
    rw [Agree, badges, Badges.getBadges, gatherContributions_alike (hown user huser)]
    rfl
  | listBlocks =>
    apply require_agree
    intro user huser
    rw [Agree, listBlocks, listBlocked_alike (hown user huser)]
    rfl
  | serveObject key => exact agree _
  | me =>
    unfold Endpoint.serve requireDeviceToken
    rw [hdevice]
    apply require_agree
    intro device _
    exact agree _
  | _ => cases hreads

theorem get_agree (hget : i.request.method = .get)
    (halike : Alike (optionalBearer h i) w.db.tables w'.db.tables)
    (hdevice : deviceOf h i w' = deviceOf h i w) :
    (serveHTTP h i w').1 = (serveHTTP h i w).1 := by
  unfold serveHTTP
  cases hroute : route i with
  | some e => exact endpoint_agree (endpoint_get hget hroute) halike hdevice
  | none =>
    dsimp only
    split
    · rfl
    · rfl

end Answers

end Tekir.ReadPrivacy
