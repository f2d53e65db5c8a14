import Tekir.OwnRows
import Tekir.ServiceEffects

/-!
# The rows of an account

What of an account stays as it is while others use the backend: its profile, sessions, media,
devices, cats, updates, follows, reports and blocks, and what it has read. Nothing is written in
its name. What hangs on another account goes with that account, when it is deleted.
-/
namespace Tekir.AccountSeparation
open Table Schema Statements AccountQueries CatQueries UpdateQueries NotificationQueries
  DeletionQueries Environment AccountServices CatServices SocialServices Backend OwnRows
  ServiceEffects

/-- The cat is there, and it is not a deleted account's. -/
def Clear (deleted : UUID → Prop) (t : Tables) (catId : UUID) : Prop :=
  ∃ c ∈ t.cats, c.id = catId ∧ ∀ owner ∈ c.createdByUserId, ¬ deleted owner

/-- Others post to a cat, and its cover may go with the account that had uploaded it. -/
def SameCat (deleted : UUID → Prop) (c c' : Cat) : Prop :=
  c' = { c with lastUpdateAt := c'.lastUpdateAt, primaryPhotoId := c'.primaryPhotoId } ∧
    (c'.primaryPhotoId = c.primaryPhotoId ∨ c'.primaryPhotoId = none ∧ ∃ b, deleted b)

/-- The push token is an address, which is the installation's. -/
def SameDevice (d d' : Device) : Prop :=
  d' = { d with pushToken := d'.pushToken }

/-- The device is linked to the account. -/
def LinkedTo (a : UUID) (t : Tables) (deviceId : UUID) : Prop :=
  ∃ d ∈ t.devices, d.id = deviceId ∧ d.userId = some a

/-- What others leave of an account while some of them are deleted. -/
structure Kept (deleted : UUID → Prop) (a : UUID) (t t' : Tables) : Prop where
  users : Held (fun u => u.id = a) (fun _ => True) t.users t'.users
  refreshTokens : Held (fun r => r.userId = a) (fun _ => True) t.refreshTokens t'.refreshTokens
  media : Held (fun m => m.uploadedByUserId = a) (fun _ => True) t.media t'.media
  cats : Revised (fun c => c.createdByUserId = some a) (SameCat deleted) t.cats t'.cats
  clear : ∀ catId, Clear deleted t catId → Clear deleted t' catId
  devices : Revised (fun d => d.userId = some a) SameDevice t.devices t'.devices
  updates : Held (fun u => u.authorUserId = some a) (fun u => Clear deleted t u.catId)
    t.updates t'.updates
  statuses : ∀ u ∈ t.updates, u.authorUserId = some a → Clear deleted t u.catId →
    Held (fun s => s.updateId = u.id) (fun _ => True) t.updateStatuses t'.updateStatuses
  follows : Held (fun f => f.userId = some a) (fun f => Clear deleted t f.catId)
    t.follows t'.follows
  reports : Held (fun r => r.reporterUserId = a) (fun _ => ∀ b, ¬ deleted b) t.reports t'.reports
  blocks : Held (fun b => b.blockerUserId = a) (fun b => ¬ deleted b.blockedUserId)
    t.userBlocks t'.userBlocks
  read : ∀ n ∈ t'.notifications, n.readAt ≠ none → LinkedTo a t n.deviceId → n ∈ t.notifications

variable {deleted : UUID → Prop} {a : UUID} {t t' t'' : Tables} {db db' : Database}

section Kept

theorem SameCat.refl (c : Cat) : SameCat deleted c c :=
  ⟨rfl, .inl rfl⟩

theorem SameCat.trans (c c' c'' : Cat) (h : SameCat deleted c c') (h' : SameCat deleted c' c'') :
    SameCat deleted c c'' := by
  obtain ⟨hsame, hcover⟩ := h
  obtain ⟨hsame', hcover'⟩ := h'
  refine ⟨?_, ?_⟩
  · rw [hsame', hsame]
  · rcases hcover' with hcover' | hcover'
    · rw [hcover']
      exact hcover
    · exact .inr hcover'

theorem SameDevice.refl (d : Device) : SameDevice d d := rfl

theorem SameDevice.id {d d' : Device} (h : SameDevice d d') : d'.id = d.id := by
  rw [h]

theorem SameDevice.trans (d d' d'' : Device) (h : SameDevice d d') (h' : SameDevice d' d'') :
    SameDevice d d'' := by
  unfold SameDevice at h h' ⊢
  rw [h', h]

theorem Kept.refl (deleted : UUID → Prop) (a : UUID) (t : Tables) : Kept deleted a t t where
  users := .refl _ _ _
  refreshTokens := .refl _ _ _
  media := .refl _ _ _
  cats := .refl SameCat.refl _
  clear := fun _ h => h
  devices := .refl SameDevice.refl _
  updates := .refl _ _ _
  statuses := fun _ _ _ _ => .refl _ _ _
  follows := .refl _ _ _
  reports := .refl _ _ _
  blocks := .refl _ _ _
  read := fun _ hn _ _ => hn

/-- What is linked to the account stays linked to it. -/
theorem Kept.linked (h : Kept deleted a t t') {deviceId : UUID} (hd : LinkedTo a t deviceId) :
    LinkedTo a t' deviceId := by
  obtain ⟨d, hd, hid, huser⟩ := hd
  obtain ⟨d', hd', huser', hsame⟩ := h.devices.kept d hd huser
  exact ⟨d', hd', hsame.id.trans hid, huser'⟩

theorem Kept.trans (h : Kept deleted a t t') (h' : Kept deleted a t' t'') :
    Kept deleted a t t'' where
  users := h.users.trans h'.users fun _ _ _ hk => hk
  refreshTokens := h.refreshTokens.trans h'.refreshTokens fun _ _ _ hk => hk
  media := h.media.trans h'.media fun _ _ _ hk => hk
  cats := h.cats.trans SameCat.trans h'.cats
  clear := fun catId hc => h'.clear catId (h.clear catId hc)
  devices := h.devices.trans SameDevice.trans h'.devices
  updates := h.updates.trans h'.updates fun _ _ _ hk => h.clear _ hk
  statuses := by
    intro u hu hauthor hclear
    have hstill := h.updates.kept u hu hauthor hclear
    have hclear' := h.clear _ hclear
    exact (h.statuses u hu hauthor hclear).trans (h'.statuses u hstill hauthor hclear')
      fun _ _ _ hk => hk
  follows := h.follows.trans h'.follows fun _ _ _ hk => h.clear _ hk
  reports := h.reports.trans h'.reports fun _ _ _ hk => hk
  blocks := h.blocks.trans h'.blocks fun _ _ _ hk => hk
  read := by
    intro n hn hread hlinked
    have hthere := h'.read n hn hread (h.linked hlinked)
    exact h.read n hthere hread hlinked

/-- The tables in which an account has rows. -/
def owned (t : Tables) :=
  (t.users, t.refreshTokens, t.media, t.cats, t.devices, t.updates, t.updateStatuses, t.follows,
    t.reports, t.userBlocks, t.notifications)

/-- A statement on the other tables. -/
theorem kept_of_eq (h : owned t' = owned t) : Kept deleted a t t' := by
  have hk := Kept.refl deleted a t
  cases t
  cases t'
  simp only [owned, Prod.mk.injEq] at h
  obtain ⟨rfl, rfl, rfl, rfl, rfl, rfl, rfl, rfl, rfl, rfl, rfl⟩ := h
  exact ⟨hk.users, hk.refreshTokens, hk.media, hk.cats, hk.clear, hk.devices, hk.updates,
    hk.statuses, hk.follows, hk.reports, hk.blocks, hk.read⟩

theorem kept_write {f : Tables → Tables} (h : db.write f = .ok db')
    (hk : Kept deleted a db.tables (f db.tables)) : Kept deleted a db.tables db'.tables := by
  rw [write_eq_ok.mp h]
  exact hk

end Kept

section Accounts

variable {id userId deviceId : UUID}

theorem none_ne_account (a : UUID) : ¬ (none : Option UUID) = some a := by
  intro h
  cases h

/-- The account is there. -/
def There (a : UUID) (t : Tables) : Prop :=
  ∃ u ∈ t.users, u.id = a

theorem Kept.there (h : Kept deleted a t t') (ha : There a t) : There a t' := by
  obtain ⟨u, hu, hid⟩ := ha
  exact ⟨u, h.users.kept u hu hid trivial, hid⟩

theorem createUser_kept {phone : String} {at' : Instant} {row : User} (ha : There a db.tables)
    (h : createUser id phone at' db = .ok (row, db')) :
    row.id ≠ a ∧ Kept deleted a db.tables db'.tables := by
  obtain ⟨db₁, hwrite, h⟩ := bind_eq_ok.mp h
  cases h
  have hunique := db'.valid.holds .usersPkey
  simp only [Constraint.Holds, write_eq_ok.mp hwrite, uniqueOn_append_singleton] at hunique
  have hid : id ≠ a := by
    intro heq
    obtain ⟨u, hu, hua⟩ := ha
    rcases hunique.2 u hu with hnone | hne
    · cases hnone
    · exact hne (congrArg some (hua.trans heq.symm))
  exact ⟨hid, kept_write hwrite { Kept.refl deleted a db.tables with users := held_append hid }⟩

theorem updateUserDisplayName_kept {name : String} (huser : userId ≠ a)
    (h : updateUserDisplayName userId name db = .ok db') :
    Kept deleted a db.tables db'.tables := by
  have hothers : ∀ u ∈ db.tables.users, (u.id == userId) = true → ¬ u.id = a ∧ ¬ u.id = a := by
    intro u _ hu
    have hid : u.id ≠ a := (eq_of_beq hu).trans_ne huser
    exact ⟨hid, hid⟩
  exact kept_write h { Kept.refl deleted a db.tables with users := held_updateWhere hothers }

theorem createDevice_kept {hash : String} {token : Option String} {platform : Platform}
    (h : createDevice id hash token platform db = .ok db') :
    Kept deleted a db.tables db'.tables :=
  kept_write h { Kept.refl deleted a db.tables with
    devices := revised_append SameDevice.refl (none_ne_account a) }

theorem setDevicePushToken_kept {token : String}
    (h : setDevicePushToken token deviceId db = .ok db') :
    Kept deleted a db.tables db'.tables := by
  refine kept_write h { Kept.refl deleted a db.tables with devices := revised_map fun d _ => ?_ }
  split
  · exact ⟨Iff.rfl, fun _ => rfl⟩
  · split
    · exact ⟨Iff.rfl, fun _ => rfl⟩
    · exact ⟨Iff.rfl, fun _ => rfl⟩

theorem clearDevicePushToken_kept {token : Option String}
    (h : clearDevicePushToken deviceId token db = .ok db') :
    Kept deleted a db.tables db'.tables :=
  kept_write h { Kept.refl deleted a db.tables with
    devices := revised_updateWhere SameDevice.refl fun _ _ _ => ⟨Iff.rfl, fun _ => rfl⟩ }

theorem unlinkDeviceFromUser_kept (huser : userId ≠ a)
    (h : unlinkDeviceFromUser id userId db = .ok db') : Kept deleted a db.tables db'.tables := by
  refine kept_write h { Kept.refl deleted a db.tables with
    devices := revised_updateWhere SameDevice.refl fun d _ hd => ?_ }
  have hlink : d.userId = some userId := by
    simp only [Bool.and_eq_true, beq_iff_eq] at hd
    exact hd.2
  have hother : d.userId ≠ some a := by
    rw [hlink]
    exact fun heq => huser (Option.some.inj heq)
  exact ⟨⟨fun h => absurd h (none_ne_account a), fun h => absurd h hother⟩,
    fun h => absurd h hother⟩

theorem createRefreshToken_kept {hash : String} {expiresAt : Instant} (huser : userId ≠ a)
    (h : createRefreshToken id userId hash expiresAt db = .ok db') :
    Kept deleted a db.tables db'.tables :=
  kept_write h { Kept.refl deleted a db.tables with refreshTokens := held_append huser }

/-- A session of someone else is rewritten. -/
theorem refreshTokens_kept {p : RefreshToken → Bool} {at' : Instant}
    (hp : ∀ r ∈ t.refreshTokens, p r = true → r.userId ≠ a) :
    Kept deleted a t { t with
      refreshTokens := updateWhere p (fun r => { r with revokedAt := some at' })
        t.refreshTokens } :=
  { Kept.refl deleted a t with
    refreshTokens := held_updateWhere fun r hr hpr => ⟨hp r hr hpr, hp r hr hpr⟩ }

theorem createBlock_kept {blocked : UUID} (huser : userId ≠ a)
    (h : createBlock userId blocked db = .ok db') : Kept deleted a db.tables db'.tables := by
  unfold createBlock at h
  split at h
  · cases h
    exact .refl _ _ _
  · exact kept_write h { Kept.refl deleted a db.tables with blocks := held_append huser }

theorem deleteBlock_kept {blocked : UUID} (huser : userId ≠ a)
    (h : deleteBlock userId blocked db = .ok db') : Kept deleted a db.tables db'.tables := by
  have hothers : ∀ b ∈ db.tables.userBlocks, b.blockerUserId = a → ¬ deleted b.blockedUserId →
      (b.blockerUserId == userId && b.blockedUserId == blocked) = false := by
    intro b _ hown _
    have hne : (b.blockerUserId == userId) = false :=
      beq_eq_false_iff_ne.mpr (hown.trans_ne huser.symm)
    rw [hne, Bool.false_and]
  exact kept_write h { Kept.refl deleted a db.tables with blocks := held_deleteWhere hothers }

/-- A device of nobody is linked to another account. -/
theorem link_kept (huser : userId ≠ a)
    (hfree : ∀ d ∈ t.devices, d.id = deviceId → d.userId = none) :
    Kept deleted a t (link deviceId userId t) := by
  refine { Kept.refl deleted a t with
    devices := revised_updateWhere SameDevice.refl fun d hd hid => ?_ }
  have hnone := hfree d hd (eq_of_beq hid)
  have hbefore : d.userId ≠ some a := by
    rw [hnone]
    exact none_ne_account a
  exact ⟨⟨fun h => absurd (Option.some.inj h) huser, fun h => absurd h hbefore⟩,
    fun h => absurd h hbefore⟩

/-- Only what nobody owns is claimed. -/
theorem claim_kept (huser : userId ≠ a) : Kept deleted a t (claim deviceId userId t) := by
  have hnot : ¬ some userId = some a := fun h => huser (Option.some.inj h)
  have hdrop : ∀ f ∈ t.follows, f.userId = some a → Clear deleted t f.catId →
      (f.deviceId == some deviceId && f.userId.isNone &&
        t.follows.any fun owned => owned.catId == f.catId && owned.userId == some userId) =
          false := by
    intro f _ hown _
    simp [hown]
  have hfollows : ∀ f : Follow, (f.deviceId == some deviceId && f.userId.isNone) = true →
      ¬ f.userId = some a ∧ ¬ some userId = some a := by
    intro f hf
    simp only [Bool.and_eq_true, Option.isNone_iff_eq_none] at hf
    rw [hf.2]
    exact ⟨none_ne_account a, hnot⟩
  have hupdates : ∀ u : Update,
      (u.authorDeviceId == some deviceId && u.authorUserId.isNone) = true →
      ¬ u.authorUserId = some a ∧ ¬ some userId = some a := by
    intro u hu
    simp only [Bool.and_eq_true, Option.isNone_iff_eq_none] at hu
    rw [hu.2]
    exact ⟨none_ne_account a, hnot⟩
  exact { Kept.refl deleted a t with
    follows := (held_deleteWhere hdrop).trans (held_updateWhere fun f _ hf => hfollows f hf)
      fun _ _ _ hk => hk
    updates := held_updateWhere fun u _ hu => hupdates u hu }

theorem linkDevice_kept (huser : userId ≠ a) (h : linkDevice deviceId userId db = .ok db') :
    Kept deleted a db.tables db'.tables := by
  obtain ⟨device, hdevice, hid, hcase⟩ := linkDevice_cases h
  rcases hcase with ⟨-, ht⟩ | ⟨hnone, ht⟩
  · rw [ht]
    exact claim_kept huser
  · have hfree : ∀ d ∈ db.tables.devices, d.id = deviceId → d.userId = none := by
      intro d hd hd'
      have hsame : d = device := (db.valid.holds .devicesPkey).eq_of_key_eq hd hdevice
        (congrArg some (hd'.trans hid.symm)) (by simp)
      rw [hsame]
      exact hnone
    rw [ht]
    exact (link_kept huser hfree).trans (claim_kept huser)

end Accounts

section Sessions

variable {cfg : Config} {env : Env} {deviceId : UUID} {now : Instant} {phone : String}

theorem resolveOrCreateUser_kept {user : User} {isNew : Bool} (ha : There a db.tables)
    (hphone : ∀ u ∈ db.tables.users, u.phone = phone → u.id ≠ a)
    (h : resolveOrCreateUser env phone now db = .ok ((user, isNew), db')) :
    user.id ≠ a ∧ Kept deleted a db.tables db'.tables := by
  unfold resolveOrCreateUser at h
  split at h
  · next existing hget =>
    cases h
    obtain ⟨hmem, hp⟩ := List.mem_filter.mp (one_eq_ok hget)
    exact ⟨hphone user hmem (eq_of_beq hp), .refl _ _ _⟩
  · split at h
    · next created db₁ hcreate =>
      cases h
      exact createUser_kept ha hcreate
    · cases h
  · cases h

theorem issue_kept {userId : UUID} {session : Session} (huser : userId ≠ a)
    (h : issue cfg env userId db = .ok (session, db')) : Kept deleted a db.tables db'.tables := by
  obtain ⟨db₁, hwrite, h⟩ := bind_eq_ok.mp h
  cases h
  exact createRefreshToken_kept huser hwrite

theorem sessionForVerifiedPhone_kept {session : Session} (ha : There a db.tables)
    (hphone : ∀ u ∈ db.tables.users, u.phone = phone → u.id ≠ a)
    (h : sessionForVerifiedPhone cfg env phone deviceId now db = .ok (session, db')) :
    Kept deleted a db.tables db'.tables := by
  obtain ⟨⟨⟨user, isNew⟩, db₁⟩, hresolve, h⟩ := bind_eq_ok.mp h
  obtain ⟨db₂, hlink, h⟩ := bind_eq_ok.mp h
  obtain ⟨⟨session', db₃⟩, hissue, h⟩ := bind_eq_ok.mp h
  cases h
  obtain ⟨huser, hresolved⟩ := resolveOrCreateUser_kept ha hphone hresolve
  exact (hresolved.trans (linkDevice_kept huser hlink)).trans (issue_kept huser hissue)

theorem consumeOtpCodeIfValid_kept {id : UUID} {hash : String} {at' : Instant} {r : UUID}
    (h : consumeOtpCodeIfValid at' id hash now phone db = .ok (r, db')) :
    Kept deleted a db.tables db'.tables ∧ db'.tables.users = db.tables.users := by
  obtain ⟨row, -, h⟩ := bind_eq_ok.mp h
  obtain ⟨db₁, hwrite, h⟩ := bind_eq_ok.mp h
  cases h
  refine ⟨kept_write hwrite (kept_of_eq rfl), ?_⟩
  rw [write_eq_ok.mp hwrite]

end Sessions

section Cats

variable {id catId userId caller : UUID}

/-- A statement on cats that keeps whose they are. -/
theorem updateCats_kept {p : Cat → Bool} {f : Cat → Cat} (hid : ∀ c, (f c).id = c.id)
    (howner : ∀ c, (f c).createdByUserId = c.createdByUserId)
    (hsame : ∀ c ∈ t.cats, p c = true → c.createdByUserId = some a → SameCat deleted c (f c)) :
    Kept deleted a t { t with cats := updateWhere p f t.cats } := by
  refine { Kept.refl deleted a t with
    cats := revised_updateWhere SameCat.refl fun c hc hp => ⟨by rw [howner c], hsame c hc hp⟩
    clear := fun catId hclear => ?_ }
  obtain ⟨c, hc, hcat, hfree⟩ := hclear
  refine ⟨_, mem_updateWhere.mpr ⟨c, hc, rfl⟩, ?_⟩
  by_cases hp : p c = true
  · rw [if_pos hp, hid, howner]
    exact ⟨hcat, hfree⟩
  · rw [if_neg hp]
    exact ⟨hcat, hfree⟩

theorem updateCatLastUpdateAt_kept {at' : Instant}
    (h : updateCatLastUpdateAt at' id db = .ok db') : Kept deleted a db.tables db'.tables :=
  kept_write h (updateCats_kept (fun _ => rfl) (fun _ => rfl) fun _ _ _ _ => ⟨rfl, .inl rfl⟩)

theorem createCat_kept {arg : CreateCatParams} {now : Instant} {row : Cat}
    (huser : arg.createdByUserId ≠ a) (h : createCat arg now db = .ok (row, db')) :
    Kept deleted a db.tables db'.tables := by
  unfold createCat at h
  dsimp only at h
  split at h
  · cases h
  · obtain ⟨db₁, hwrite, h⟩ := bind_eq_ok.mp h
    cases h
    refine kept_write hwrite { Kept.refl deleted a db.tables with
      cats := revised_append SameCat.refl fun hown => huser (Option.some.inj hown)
      clear := fun catId hclear => ?_ }
    obtain ⟨c, hc, hcat, hfree⟩ := hclear
    exact ⟨c, List.mem_append_left _ hc, hcat, hfree⟩

/-- What an owner may change is no cat of another account. -/
theorem ownedCat_other {row : CatRow} (hcaller : caller ≠ a)
    (h : ownedCat id caller db = .ok row) :
    ∀ c ∈ db.tables.cats, (c.id == id) = true → c.createdByUserId ≠ some a := by
  intro c hc hid hown
  unfold ownedCat at h
  split at h
  · cases h
  · cases h
  · next found hget =>
    obtain ⟨c', hone, hrow⟩ := bind_eq_ok.mp hget
    obtain ⟨hc', hmatch⟩ := List.mem_filter.mp (one_eq_ok hone)
    simp only [Bool.and_eq_true, beq_iff_eq] at hmatch
    have hsame : c = c' := (db.valid.holds .catsPkey).eq_of_key_eq hc hc'
      (congrArg some ((eq_of_beq hid).trans hmatch.1.symm)) (by simp)
    cases hrow
    split at h
    · next howner =>
      have heq : some caller = some a := by rw [← howner, ← hown, hsame]
      exact hcaller (Option.some.inj heq)
    · cases h

theorem softDeleteCat_kept {r : UUID} (hcaller : caller ≠ a)
    (h : softDeleteCat id caller db = .ok (r, db')) : Kept deleted a db.tables db'.tables := by
  obtain ⟨row, -, h⟩ := bind_eq_ok.mp h
  obtain ⟨db₁, hwrite, h⟩ := bind_eq_ok.mp h
  cases h
  refine kept_write hwrite (updateCats_kept (fun _ => rfl) (fun _ => rfl) fun c _ hp hown => ?_)
  simp only [Bool.and_eq_true, beq_iff_eq] at hp
  have heq : some caller = some a := hp.1.2.symm.trans hown
  exact absurd (Option.some.inj heq) hcaller

theorem createMedia_kept {row r : Medium} (huser : row.uploadedByUserId ≠ a)
    (h : createMedia row db = .ok (r, db')) : Kept deleted a db.tables db'.tables := by
  rw [(createMedia_tables h).2]
  exact { Kept.refl deleted a db.tables with media := held_append huser }

theorem createCatMedia_kept {mediaId : UUID} {at' : Instant} {r : CatMedium}
    (h : createCatMedia id catId mediaId at' db = .ok (r, db')) :
    Kept deleted a db.tables db'.tables := by
  obtain ⟨rows, ht⟩ := createCatMedia_tables h
  rw [ht]
  exact kept_of_eq rfl

theorem createCatWithMedia_kept {now : Instant} {media : Medium} {cat : CreateCatParams}
    {r : Store.CreateCatWithMediaRow} (huser : media.uploadedByUserId ≠ a)
    (howner : cat.createdByUserId ≠ a)
    (h : Store.createCatWithMedia id now media cat db = .ok (r, db')) :
    Kept deleted a db.tables db'.tables := by
  obtain ⟨⟨m, db₁⟩, hmedia, h⟩ := bind_eq_ok.mp h
  obtain ⟨⟨c, db₂⟩, hcat, h⟩ := bind_eq_ok.mp h
  obtain ⟨⟨cm, db₃⟩, hlink, h⟩ := bind_eq_ok.mp h
  cases h
  have howner' : { cat with primaryPhotoId := some m.id }.createdByUserId ≠ a := howner
  exact ((createMedia_kept huser hmedia).trans (createCat_kept howner' hcat)).trans
    (createCatMedia_kept hlink)

end Cats

section Updates

variable {id userId : UUID}

/-- The identifier names no update of the account. -/
def Unused (a : UUID) (t : Tables) (id : UUID) : Prop :=
  ∀ u ∈ t.updates, u.authorUserId = some a → u.id ≠ id

theorem createUpdate_kept {arg : CreateUpdateParams}
    (huser : arg.authorUserId ≠ some a) (hfresh : ∀ u ∈ db.tables.updates, u.id ≠ arg.id)
    (h : createUpdate arg db = .ok (id, db')) :
    Kept deleted a db.tables db'.tables ∧ Unused a db'.tables id := by
  obtain ⟨rfl, hcase⟩ := createUpdate_cases h
  rcases hcase with ⟨⟨u, hu, hid⟩, -⟩ | ⟨-, ht⟩
  · exact absurd hid (hfresh u hu)
  · rw [ht]
    refine ⟨{ Kept.refl deleted a db.tables with updates := held_append huser },
      fun u hu hown hid => ?_⟩
    rcases List.mem_append.mp hu with hu | hu
    · exact hfresh u hu hid
    · have heq : u = arg.insert db.tables.updatesSeq := List.mem_singleton.mp hu
      rw [heq] at hown
      exact huser hown

/-- A statement on the statuses of an update of someone else. -/
theorem updateStatuses_kept {rows : List UpdateStatus} (hunused : Unused a t id)
    (hrows : ∀ s, s.updateId ≠ id → (s ∈ rows ↔ s ∈ t.updateStatuses)) :
    Kept deleted a t { t with updateStatuses := rows } :=
  { Kept.refl deleted a t with
    statuses := fun u hu hown _ =>
      have hne : ∀ s : UpdateStatus, s.updateId = u.id → s.updateId ≠ id :=
        fun _ hs => hs.trans_ne (hunused u hu hown)
      ⟨fun s hs hsu => (hrows s (hne s hsu)).mp hs,
        fun s hs hsu _ => (hrows s (hne s hsu)).mpr hs⟩ }

theorem createUpdateStatus_kept {status : Status} (hunused : Unused a db.tables id)
    (h : createUpdateStatus id status db = .ok db') :
    Kept deleted a db.tables db'.tables ∧ Unused a db'.tables id := by
  unfold createUpdateStatus at h
  split at h
  · cases h
    exact ⟨.refl _ _ _, hunused⟩
  · have ht := write_eq_ok.mp h
    refine ⟨kept_write h (updateStatuses_kept hunused fun s hs => ?_), ?_⟩
    · simp only [List.mem_append, List.mem_singleton, or_iff_left_iff_imp]
      intro heq
      exact absurd (congrArg UpdateStatus.updateId heq) hs
    · unfold Unused
      rw [ht]
      exact hunused

theorem statuses_kept {statuses : List Status} (hunused : Unused a db.tables id)
    (h : statuses.foldlM (fun db status => createUpdateStatus id status db) db = .ok db') :
    Kept deleted a db.tables db'.tables := by
  induction statuses generalizing db with
  | nil =>
    cases h
    exact .refl _ _ _
  | cons status statuses ih =>
    rw [List.foldlM_cons] at h
    obtain ⟨db₁, hone, h⟩ := bind_eq_ok.mp h
    obtain ⟨hkept, hunused'⟩ := createUpdateStatus_kept hunused hone
    exact hkept.trans (ih hunused' h)

theorem store_createOrdinaryUpdate_kept {cmId outId : UUID} {now : Instant}
    {arg : Store.CreateOrdinaryUpdateParams} (huser : arg.authorUserId ≠ a)
    (hfresh : ∀ u ∈ db.tables.updates, u.id ≠ arg.id)
    (h : Store.createOrdinaryUpdate cmId outId now arg db = .ok (id, db')) :
    Kept deleted a db.tables db'.tables := by
  obtain ⟨⟨id', db₁⟩, hcreate, h⟩ := bind_eq_ok.mp h
  obtain ⟨db₂, hstatuses, h⟩ := bind_eq_ok.mp h
  obtain ⟨db₃, hlast, h⟩ := bind_eq_ok.mp h
  obtain ⟨db₄, hgallery, h⟩ := bind_eq_ok.mp h
  obtain ⟨db₅, houtbox, h⟩ := bind_eq_ok.mp h
  cases h
  have hauthor : arg.row.authorUserId ≠ some a := fun heq => huser (Option.some.inj heq)
  obtain ⟨hcreated, hunused⟩ :
      Kept deleted a db.tables db₁.tables ∧ Unused a db₁.tables id :=
    createUpdate_kept hauthor hfresh hcreate
  have hposted : Kept deleted a db.tables db₃.tables :=
    (hcreated.trans (statuses_kept hunused hstatuses)).trans (updateCatLastUpdateAt_kept hlast)
  obtain ⟨links, ht⟩ := linkGallery_tables hgallery
  have hlinked : Kept deleted a db₃.tables db₄.tables := by
    rw [ht]
    exact kept_of_eq rfl
  exact (hposted.trans hlinked).trans (kept_write houtbox (kept_of_eq rfl))

/-- A statement on updates of someone else that keeps whose they are. -/
theorem updateUpdates_kept {p : Update → Bool} {f : Update → Update}
    (hp : ∀ u ∈ t.updates, p u = true → u.authorUserId ≠ some a)
    (hf : ∀ u, (f u).authorUserId = u.authorUserId) :
    Kept deleted a t { t with updates := updateWhere p f t.updates } :=
  { Kept.refl deleted a t with
    updates := held_updateWhere fun u hu hpu =>
      ⟨hp u hu hpu, fun hown => hp u hu hpu ((hf u).symm.trans hown)⟩ }

theorem correctOrdinaryUpdate_kept {arg : CorrectOrdinaryUpdateParams} {row : Update}
    (huser : arg.authorUserId ≠ a) (h : correctOrdinaryUpdate arg db = .ok (row, db')) :
    Kept deleted a db.tables db'.tables ∧ Unused a db'.tables arg.id := by
  obtain ⟨old, hone, h⟩ := bind_eq_ok.mp h
  obtain ⟨db₁, hwrite, h⟩ := bind_eq_ok.mp h
  cases h
  have hmatches : ∀ u ∈ db.tables.updates,
      arg.matches (carriesStatus arg.id db.tables.updateStatuses) u = true →
        u.id = arg.id ∧ u.authorUserId = some arg.authorUserId := by
    intro u _ hu
    simp only [CorrectOrdinaryUpdateParams.matches, Bool.and_eq_true, beq_iff_eq] at hu
    exact ⟨hu.1.1.1.1.1.1, hu.1.1.1.1.2⟩
  have hother : ∀ u ∈ db.tables.updates,
      arg.matches (carriesStatus arg.id db.tables.updateStatuses) u = true →
        u.authorUserId ≠ some a := by
    intro u hu hmatch hown
    have heq := (hmatches u hu hmatch).2.symm.trans hown
    exact huser (Option.some.inj heq)
  obtain ⟨hold, holdmatch⟩ := List.mem_filter.mp (one_eq_ok hone)
  have hunused : Unused a db.tables arg.id := by
    intro u hu hown hid
    have hsame : u = old := (db.valid.holds .updatesPkey).eq_of_key_eq hu hold
      (congrArg some (hid.trans (hmatches old hold holdmatch).1.symm)) (by simp)
    exact hother old hold holdmatch (hsame ▸ hown)
  refine ⟨kept_write hwrite (updateUpdates_kept hother fun _ => rfl), fun u hu hown => ?_⟩
  rw [write_eq_ok.mp hwrite] at hu
  obtain ⟨v, hv, rfl⟩ := mem_updateWhere.mp hu
  by_cases hmatch : arg.matches (carriesStatus arg.id db.tables.updateStatuses) v = true
  · rw [if_pos hmatch] at hown
    exact absurd hown (hother v hv hmatch)
  · rw [if_neg hmatch] at hown ⊢
    exact hunused v hv hown

theorem replaceStatuses_kept {statuses : List Status} (hunused : Unused a db.tables id)
    (h : Store.replaceStatuses id statuses db = .ok db') :
    Kept deleted a db.tables db'.tables := by
  obtain ⟨db₁, hclear, h⟩ := bind_eq_ok.mp h
  have hcleared : Kept deleted a db.tables db₁.tables := by
    refine kept_write hclear (updateStatuses_kept hunused fun s hs => ?_)
    have hne : (s.updateId == id) = false := beq_eq_false_iff_ne.mpr hs
    simp [hne]
  have hunused' : Unused a db₁.tables id := by
    unfold Unused
    rw [write_eq_ok.mp hclear]
    exact hunused
  exact hcleared.trans (statuses_kept hunused' h)

theorem store_correctOwnUpdate_kept {arg : Store.CorrectOwnUpdateParams}
    {r : Update × List Status} (huser : arg.authorUserId ≠ a)
    (h : Store.correctOwnUpdate arg db = .ok (r, db')) : Kept deleted a db.tables db'.tables := by
  obtain ⟨⟨row, db₁⟩, hcorrect, h⟩ := bind_eq_ok.mp h
  obtain ⟨hkept, hunused⟩ := correctOrdinaryUpdate_kept huser hcorrect
  dsimp only at h
  split at h
  · obtain ⟨db₂, hreplace, h⟩ := bind_eq_ok.mp h
    cases h
    exact hkept.trans (replaceStatuses_kept hunused hreplace)
  · cases h
    exact hkept

theorem deleteOwnUpdate_kept {arg : DeleteOwnUpdateParams} {row : Update}
    (huser : arg.authorUserId ≠ a)
    (h : UpdateQueries.deleteOwnUpdate arg db = .ok (row, db')) :
    Kept deleted a db.tables db'.tables := by
  obtain ⟨old, -, h⟩ := bind_eq_ok.mp h
  obtain ⟨db₁, hwrite, h⟩ := bind_eq_ok.mp h
  cases h
  refine kept_write hwrite (updateUpdates_kept (fun u _ hu hown => ?_) fun _ => rfl)
  simp only [Bool.and_eq_true, beq_iff_eq] at hu
  have heq : some arg.authorUserId = some a := hu.1.1.1.1.2.symm.trans hown
  exact huser (Option.some.inj heq)

end Updates

section Social

variable {id userId catId : UUID}

theorem createFollow_kept {deviceId : Option UUID} (huser : userId ≠ a)
    (h : createFollow userId deviceId catId db = .ok db') :
    Kept deleted a db.tables db'.tables := by
  unfold createFollow at h
  split at h
  · cases h
    exact .refl _ _ _
  · exact kept_write h { Kept.refl deleted a db.tables with
      follows := held_append fun hown => huser (Option.some.inj hown) }

theorem deleteFollow_kept (huser : userId ≠ a) (h : deleteFollow userId catId db = .ok db') :
    Kept deleted a db.tables db'.tables := by
  have hothers : ∀ f ∈ db.tables.follows, f.userId = some a → Clear deleted db.tables f.catId →
      (f.userId == some userId && f.catId == catId) = false := by
    intro f _ hown _
    have hne : (f.userId == some userId) = false := by
      rw [hown, beq_eq_false_iff_ne]
      exact fun heq => huser (Option.some.inj heq).symm
    rw [hne, Bool.false_and]
  exact kept_write h { Kept.refl deleted a db.tables with follows := held_deleteWhere hothers }

theorem createReport_kept {row r : Report} (huser : row.reporterUserId ≠ a)
    (h : UpdateQueries.createReport row db = .ok (r, db')) :
    Kept deleted a db.tables db'.tables := by
  unfold UpdateQueries.createReport at h
  split at h
  · cases h
  · obtain ⟨db₁, hwrite, h⟩ := bind_eq_ok.mp h
    cases h
    exact kept_write hwrite { Kept.refl deleted a db.tables with reports := held_append huser }

theorem createNotification_kept {deviceId updateId : UUID} {now : Instant} {n : Notification}
    (h : createNotification id deviceId catId updateId now db = .ok (n, db')) :
    Kept deleted a db.tables db'.tables := by
  obtain ⟨-, hn, ht⟩ := createNotification_spec h
  rw [ht]
  refine { Kept.refl deleted a db.tables with read := fun m hm hread _ => ?_ }
  rcases List.mem_append.mp hm with hm | hm
  · exact hm
  · have heq : m = n := List.mem_singleton.mp hm
    rw [heq, hn] at hread
    exact absurd rfl hread

theorem markNotificationRead_kept {at' : Instant} (huser : userId ≠ a)
    (h : markNotificationRead at' id userId db = .ok db') :
    Kept deleted a db.tables db'.tables := by
  refine kept_write h { Kept.refl deleted a db.tables with read := fun n hn _ hlinked => ?_ }
  obtain ⟨m, hm, rfl⟩ := mem_updateWhere.mp hn
  by_cases hp : (m.id == id && db.tables.devices.any fun d =>
      d.id == m.deviceId && d.userId == some userId) = true
  · rw [if_pos hp] at hlinked
    simp only [Bool.and_eq_true, beq_iff_eq, List.any_eq_true] at hp
    obtain ⟨-, d, hd, hid, hother⟩ := hp
    obtain ⟨d', hd', hid', hown⟩ := hlinked
    have hsame : d' = d := (db.valid.holds .devicesPkey).eq_of_key_eq hd' hd
      (congrArg some (hid'.trans hid.symm)) (by simp)
    rw [hsame, hother] at hown
    exact absurd (Option.some.inj hown) huser
  · rw [if_neg hp]
    exact hm

end Social

section Deletion

variable {b : UUID} {now : Instant} {phone : String}

/-- A cat that is kept is not the deleted account's. -/
theorem not_onOwnCat (ht : Valid t) (hb : deleted b) {catId : UUID}
    (hclear : Clear deleted t catId) : onOwnCat b t.cats catId = false := by
  obtain ⟨c, hc, hid, hfree⟩ := hclear
  refine List.any_eq_false.mpr fun c' hc' hown => ?_
  simp only [ownCat, Bool.and_eq_true, beq_iff_eq] at hown
  have hsame : c' = c := (ht.holds .catsPkey).eq_of_key_eq hc' hc
    (congrArg some (hown.1.trans hid.symm)) (by simp)
  have howner : c.createdByUserId = some b := hsame ▸ hown.2
  exact hfree b howner hb

theorem not_accountUpdate (ht : Valid t) (hb : deleted b) (hne : b ≠ a) {u : Update}
    (hown : u.authorUserId = some a) (hclear : Clear deleted t u.catId) :
    accountUpdate b t.cats u = false := by
  have hauthor : (u.authorUserId == some b) = false := by
    rw [hown, beq_eq_false_iff_ne]
    exact fun heq => hne (Option.some.inj heq).symm
  rw [accountUpdate, hauthor, not_onOwnCat ht hb hclear, Bool.false_or]

theorem deleteAccountUpdateStatuses_kept (ht : Valid t) (hb : deleted b) (hne : b ≠ a) :
    Kept deleted a t (deleteAccountUpdateStatuses b t) := by
  refine { Kept.refl deleted a t with
    statuses := fun u hu hown hclear => held_deleteWhere fun s _ hs _ => ?_ }
  refine List.any_eq_false.mpr fun v hv hdeleted => ?_
  simp only [Bool.and_eq_true, beq_iff_eq] at hdeleted
  have hsame : v = u := (ht.holds .updatesPkey).eq_of_key_eq hv hu
    (congrArg some (hdeleted.1.trans hs)) (by simp)
  rw [hsame, not_accountUpdate ht hb hne hown hclear] at hdeleted
  exact absurd hdeleted.2 Bool.false_ne_true

theorem deleteAccountFollows_kept (ht : Valid t) (hb : deleted b) (hne : b ≠ a) :
    Kept deleted a t (deleteAccountFollows b t) := by
  refine { Kept.refl deleted a t with
    follows := held_deleteWhere fun f _ hown hclear => ?_ }
  have huser : (f.userId == some b) = false := by
    rw [hown, beq_eq_false_iff_ne]
    exact fun heq => hne (Option.some.inj heq).symm
  rw [huser, not_onOwnCat ht hb hclear, Bool.false_or]

theorem deleteAccountBlocks_kept (hb : deleted b) (hne : b ≠ a) :
    Kept deleted a t (deleteAccountBlocks b t) := by
  refine { Kept.refl deleted a t with
    blocks := held_deleteWhere fun k _ hown hkeep => ?_ }
  have hblocker : (k.blockerUserId == b) = false := beq_eq_false_iff_ne.mpr (hown.trans_ne hne.symm)
  have hblocked : (k.blockedUserId == b) = false :=
    beq_eq_false_iff_ne.mpr fun heq => hkeep (heq ▸ hb)
  rw [hblocker, hblocked, Bool.false_or]

theorem deleteAccountCats_kept (hb : deleted b) (hne : b ≠ a) :
    Kept deleted a t (deleteAccountCats b t) := by
  refine { Kept.refl deleted a t with
    cats := revised_deleteWhere SameCat.refl fun c _ hown => ?_
    clear := fun catId hclear => ?_ }
  · rw [ownCat, hown, beq_eq_false_iff_ne]
    exact fun heq => hne (Option.some.inj heq).symm
  · obtain ⟨c, hc, hid, hfree⟩ := hclear
    refine ⟨c, mem_deleteWhere.mpr ⟨hc, ?_⟩, hid, hfree⟩
    rw [ownCat, beq_eq_false_iff_ne]
    exact fun howner => hfree b howner hb

theorem detachAccountDevices_kept (hne : b ≠ a) :
    Kept deleted a t (detachAccountDevices now b t) := by
  refine { Kept.refl deleted a t with
    devices := revised_updateWhere SameDevice.refl fun d _ hd => ?_ }
  have hother : ¬ d.userId = some a := by
    rw [eq_of_beq hd]
    exact fun heq => hne (Option.some.inj heq)
  exact ⟨⟨fun h => absurd h (none_ne_account a), fun h => absurd h hother⟩,
    fun h => absurd h hother⟩

/-- Each step of a deletion leaves the rows of another account. -/
theorem deletionSteps_kept (hb : deleted b) (hne : b ≠ a) :
    ∀ step ∈ Store.deletionSteps now b phone, ∀ t, Valid t → Kept deleted a t (step t) := by
  have hrow : ∀ x : UUID, x = a → (x == b) = false :=
    fun x hx => beq_eq_false_iff_ne.mpr (hx.trans_ne hne.symm)
  simp only [Store.deletionSteps, List.forall_mem_cons]
  refine ⟨?_, ?_, ?_, ?_, ?_, ?_, ?_, ?_, ?_, ?_, ?_, ?_, ?_, ?_, ?_, fun _ h => by cases h⟩
  · exact fun t _ => { Kept.refl deleted a t with
      read := fun n hn _ _ => (mem_deleteWhere.mp hn).1 }
  · exact fun t _ => kept_of_eq rfl
  · exact fun t ht => deleteAccountUpdateStatuses_kept ht hb hne
  · exact fun t ht => { Kept.refl deleted a t with
      updates := held_deleteWhere fun u _ hown hclear => not_accountUpdate ht hb hne hown hclear }
  · exact fun t ht => deleteAccountFollows_kept ht hb hne
  · exact fun t _ => { Kept.refl deleted a t with
      reports := held_deleteWhere fun r _ _ hnone => absurd hb (hnone b) }
  · exact fun t _ => deleteAccountBlocks_kept hb hne
  · exact fun t _ => updateCats_kept (fun _ => rfl) (fun _ => rfl)
      fun c _ _ _ => ⟨rfl, .inr ⟨rfl, b, hb⟩⟩
  · exact fun t _ => kept_of_eq rfl
  · exact fun t _ => deleteAccountCats_kept hb hne
  · exact fun t _ => { Kept.refl deleted a t with
      media := held_deleteWhere fun m _ hown _ => hrow m.uploadedByUserId hown }
  · exact fun t _ => detachAccountDevices_kept hne
  · exact fun t _ => { Kept.refl deleted a t with
      refreshTokens := held_deleteWhere fun r _ hown _ => hrow r.userId hown }
  · exact fun t _ => kept_of_eq rfl
  · exact fun t _ => { Kept.refl deleted a t with
      users := held_deleteWhere fun u _ hown _ => hrow u.id hown }

theorem kept_writes {steps : List (Tables → Tables)}
    (hsteps : ∀ step ∈ steps, ∀ t, Valid t → Kept deleted a t (step t))
    (h : steps.foldlM (fun db step => db.write step) db = .ok db') :
    Kept deleted a db.tables db'.tables := by
  induction steps generalizing db with
  | nil =>
    cases h
    exact .refl _ _ _
  | cons step steps ih =>
    rw [List.foldlM_cons] at h
    obtain ⟨db₁, hwrite, h⟩ := bind_eq_ok.mp h
    have hone := kept_write hwrite (hsteps step List.mem_cons_self db.tables db.valid)
    exact hone.trans (ih (fun s hs => hsteps s (List.mem_cons_of_mem _ hs)) h)

theorem deleteAccount_kept {keys : List String} (hb : deleted b) (hne : b ≠ a)
    (h : Store.deleteAccount now b phone db = .ok (keys, db')) :
    Kept deleted a db.tables db'.tables := by
  obtain ⟨db₁, hfold, h⟩ := bind_eq_ok.mp h
  cases h
  exact kept_writes (deletionSteps_kept hb hne) hfold

end Deletion

section Operations

variable {cfg : Config} {env : Env} {w : World}

/-- The operation is not done for the account: not as it, nor with its phone number or with a
refresh token of its own. Those that are deleted are others. -/
def Foreign (deleted : UUID → Prop) (cfg : Config) (a : UUID) (t : Tables) : Op → Prop
  | .register _ _ | .setPushToken _ _ | .requestOTP _ | .dispatchPending => True
  | .verifyOTP rawPhone _ _ =>
    ∀ phone, normalizePhone rawPhone = .ok phone → ∀ u ∈ t.users, u.phone = phone → u.id ≠ a
  | .refresh token =>
    ∀ r ∈ t.refreshTokens, r.tokenHash = hashRefreshToken cfg token → r.userId ≠ a
  | .logout userId token _ =>
    userId ≠ a ∧ ∀ r ∈ t.refreshTokens, r.tokenHash = hashRefreshToken cfg token → r.userId ≠ a
  | .setDisplayName userId _ | .unlinkDevice _ userId | .block userId _ | .unblock userId _
  | .upload userId _ _ _ | .createNeedsHelpUpdate _ userId _ _ _ | .correctOwnUpdate _ _ userId _
  | .deleteOwnUpdate _ _ userId | .setCoverPhoto _ userId _ | .renameCat _ userId _
  | .deleteCat _ userId | .follow _ userId _ | .unfollow _ userId | .report userId _ _ _ _
  | .markRead userId _ => userId ≠ a
  | .createCat req => req.userId ≠ a
  | .createOrdinaryUpdate req => req.userId ≠ a
  | .deleteAccount userId => userId ≠ a ∧ deleted userId

/-- The identifier that is drawn for an update names none yet. -/
def FreshUpdate (env : Env) (t : Tables) : Prop :=
  ∀ u ∈ t.updates, u.id ≠ env.uuid 0

theorem commit_kept {α : Type} {x : Except Error (α × Database)}
    (h : ∀ r db', x = .ok (r, db') → Kept deleted a w.db.tables db'.tables) :
    Kept deleted a w.db.tables (w.commit x).2.db.tables := by
  rcases x with e | ⟨r, db'⟩
  · exact .refl _ _ _
  · exact h r db' rfl

theorem run_kept {x : Except Error Database}
    (h : ∀ db', x = .ok db' → Kept deleted a w.db.tables db'.tables) :
    Kept deleted a w.db.tables (w.run x).2.db.tables := by
  rcases x with e | db'
  · exact .refl _ _ _
  · exact h db' rfl

theorem register_kept (platform : String) (pushToken : Option String) :
    Kept deleted a w.db.tables (register cfg env platform pushToken w).2.db.tables := by
  unfold register
  split
  · exact .refl _ _ _
  · split
    · exact .refl _ _ _
    · next h => exact createDevice_kept h

theorem setPushToken_kept (deviceId : UUID) (pushToken : String) :
    Kept deleted a w.db.tables (setPushToken deviceId pushToken w).2.db.tables := by
  unfold setPushToken
  dsimp only
  split
  · exact .refl _ _ _
  · exact run_kept fun db' h => setDevicePushToken_kept h

theorem requestOTP_kept (phone : String) :
    Kept deleted a w.db.tables (requestOTP cfg env phone w).2.db.tables := by
  unfold requestOTP
  split
  · exact .refl _ _ _
  · exact .refl _ _ _
  · dsimp only
    split
    · exact .refl _ _ _
    · split
      · exact .refl _ _ _
      · next h => exact kept_write h (kept_of_eq rfl)

theorem consumeAndOpen_kept {phone hash : String} {row : OtpCode} {deviceId : UUID}
    {session : Session} {db db' : Database} (ha : There a db.tables)
    (hphone : ∀ u ∈ db.tables.users, u.phone = phone → u.id ≠ a)
    (h : consumeAndOpen cfg env phone row hash deviceId db = .ok (session, db')) :
    Kept deleted a db.tables db'.tables := by
  obtain ⟨⟨r, db₁⟩, hconsume, h⟩ := bind_eq_ok.mp h
  obtain ⟨hkept, husers⟩ : Kept deleted a db.tables db₁.tables ∧ _ :=
    consumeOtpCodeIfValid_kept hconsume
  exact hkept.trans (sessionForVerifiedPhone_kept (hkept.there ha) (husers ▸ hphone) h)

theorem verifyOTP_kept {rawPhone code : String} {deviceId : UUID} (ha : There a w.db.tables)
    (hforeign : ∀ phone, normalizePhone rawPhone = .ok phone →
      ∀ u ∈ w.db.tables.users, u.phone = phone → u.id ≠ a) :
    Kept deleted a w.db.tables (verifyOTP cfg env rawPhone code deviceId w).2.db.tables := by
  unfold verifyOTP
  split
  · exact .refl _ _ _
  · next phone provider hphone _ =>
    split
    · exact .refl _ _ _
    · exact commit_kept fun _ _ h => sessionForVerifiedPhone_kept ha (hforeign phone hphone) h
  · next phone hphone _ =>
    split
    · exact .refl _ _ _
    · split
      · refine commit_kept fun session db' h => ?_
        unfold asAlreadyConsumed at h
        split at h
        · cases h
        · exact consumeAndOpen_kept ha (hforeign phone hphone) h
      · split
        · exact .refl _ _ _
        · next h => exact kept_write h (kept_of_eq rfl)

theorem setDisplayName_kept {userId : UUID} (name : String) (huser : userId ≠ a) :
    Kept deleted a w.db.tables (setDisplayName userId name w).2.db.tables := by
  unfold setDisplayName
  dsimp only
  split
  · exact .refl _ _ _
  · exact run_kept fun db' h => updateUserDisplayName_kept huser h

theorem refresh_kept {token : String}
    (hforeign : ∀ r ∈ w.db.tables.refreshTokens,
      r.tokenHash = hashRefreshToken cfg token → r.userId ≠ a) :
    Kept deleted a w.db.tables (refresh cfg env token w).2.db.tables := by
  unfold refresh
  split
  · exact .refl _ _ _
  · exact .refl _ _ _
  · next row hget =>
    obtain ⟨hrow, hhash⟩ := List.mem_filter.mp (one_eq_ok hget)
    have huser : row.userId ≠ a := hforeign row hrow (eq_of_beq hhash)
    have hrows : ∀ r ∈ w.db.tables.refreshTokens, r.id = row.id → r.userId ≠ a := by
      intro r hr hid
      have hsame : r = row := (w.db.valid.holds .refreshTokensPkey).eq_of_key_eq hr hrow
        (congrArg some hid) (by simp)
      rw [hsame]
      exact huser
    split
    · exact .refl _ _ _
    · split
      · exact .refl _ _ _
      · dsimp only
        refine commit_kept fun session db' h => ?_
        split at h
        · cases h
        · obtain ⟨⟨userId, db₁⟩, hrevoke, hissue⟩ := bind_eq_ok.mp h
          obtain ⟨active, hone, hrevoke⟩ := bind_eq_ok.mp hrevoke
          obtain ⟨db₂, hwrite, hrevoke⟩ := bind_eq_ok.mp hrevoke
          cases hrevoke
          obtain ⟨hactive, hmatch⟩ := List.mem_filter.mp (one_eq_ok hone)
          simp only [Bool.and_eq_true, beq_iff_eq] at hmatch
          have hrevoked : Kept deleted a w.db.tables db₁.tables := by
            refine kept_write hwrite (refreshTokens_kept fun r hr hp => ?_)
            simp only [Bool.and_eq_true, beq_iff_eq] at hp
            exact hrows r hr hp.1.1
          exact hrevoked.trans (issue_kept (hrows active hactive hmatch.1.1) hissue)

theorem revoke_kept {token : String}
    (hforeign : ∀ r ∈ w.db.tables.refreshTokens,
      r.tokenHash = hashRefreshToken cfg token → r.userId ≠ a) :
    Kept deleted a w.db.tables (revoke cfg env token w).2.db.tables := by
  unfold revoke
  split
  · exact .refl _ _ _
  · exact .refl _ _ _
  · next row hget =>
    split
    · exact .refl _ _ _
    · obtain ⟨hrow, hhash⟩ := List.mem_filter.mp (one_eq_ok hget)
      refine run_kept fun db' h => kept_write h (refreshTokens_kept fun r hr hid => ?_)
      have hsame : r = row := (w.db.valid.holds .refreshTokensPkey).eq_of_key_eq hr hrow
        (congrArg some (eq_of_beq hid)) (by simp)
      rw [hsame]
      exact hforeign row hrow (eq_of_beq hhash)

theorem unlinkDevice_kept {deviceId userId : UUID} (huser : userId ≠ a) :
    Kept deleted a w.db.tables (unlinkDevice deviceId userId w).2.db.tables :=
  run_kept fun _ h => unlinkDeviceFromUser_kept huser h

theorem logout_kept {userId : UUID} {token : String} {deviceId : Option UUID} (huser : userId ≠ a)
    (hforeign : ∀ r ∈ w.db.tables.refreshTokens,
      r.tokenHash = hashRefreshToken cfg token → r.userId ≠ a) :
    Kept deleted a w.db.tables (logout cfg env userId token deviceId w).2.db.tables := by
  have hrevoked : Kept deleted a w.db.tables (revoke cfg env token w).2.db.tables :=
    revoke_kept hforeign
  unfold logout
  split
  · next h =>
    rw [h] at hrevoked
    exact hrevoked
  · next h =>
    rw [h] at hrevoked
    split
    · exact hrevoked
    · exact hrevoked.trans (unlinkDevice_kept huser)

theorem block_kept {blocker : UUID} {blocked : Option UUID} (huser : blocker ≠ a) :
    Kept deleted a w.db.tables (block blocker blocked w).2.db.tables := by
  unfold block
  split
  · exact .refl _ _ _
  · split
    · exact .refl _ _ _
    · split
      · exact .refl _ _ _
      · exact .refl _ _ _
      · exact run_kept fun db' h => createBlock_kept huser h

theorem unblock_kept {blocker : UUID} {blocked : Option UUID} (huser : blocker ≠ a) :
    Kept deleted a w.db.tables (unblock blocker blocked w).2.db.tables := by
  unfold unblock
  split
  · exact .refl _ _ _
  · split
    · exact .refl _ _ _
    · exact run_kept fun db' h => deleteBlock_kept huser h

theorem delete_kept {userId : UUID} (huser : userId ≠ a) (hdeleted : deleted userId) :
    Kept deleted a w.db.tables (AccountServices.delete env userId w).2.db.tables := by
  unfold AccountServices.delete
  split
  · exact .refl _ _ _
  · exact .refl _ _ _
  · split
    · exact .refl _ _ _
    · next h =>
      simp only [deleteObjects_db]
      exact deleteAccount_kept hdeleted huser h

theorem setCoverPhoto_kept {id caller : UUID} {mediaId : Option UUID} (huser : caller ≠ a) :
    Kept deleted a w.db.tables (setCoverPhoto env id caller mediaId w).2.db.tables := by
  unfold setCoverPhoto
  split
  · exact .refl _ _ _
  · exact .refl _ _ _
  · next howned =>
    split
    · exact .refl _ _ _
    · exact .refl _ _ _
    · split
      · exact .refl _ _ _
      · next h =>
        exact kept_write h (updateCats_kept (fun _ => rfl) (fun _ => rfl)
          fun c hc hid hown => absurd hown (ownedCat_other huser howned c hc hid))

theorem renameCat_kept {id caller : UUID} {name : String} (huser : caller ≠ a) :
    Kept deleted a w.db.tables (renameCat env id caller name w).2.db.tables := by
  unfold renameCat
  split
  · exact .refl _ _ _
  · next hprepare =>
    obtain ⟨row, howned, -⟩ := bind_eq_ok.mp hprepare
    split
    · exact .refl _ _ _
    · next h =>
      exact kept_write h (updateCats_kept (fun _ => rfl) (fun _ => rfl)
        fun c hc hid hown => absurd hown (ownedCat_other huser howned c hc hid))

theorem deleteCat_kept {id caller : UUID} (huser : caller ≠ a) :
    Kept deleted a w.db.tables (deleteCat id caller w).2.db.tables := by
  unfold deleteCat
  split
  · next h => exact softDeleteCat_kept huser h
  · exact .refl _ _ _
  · exact .refl _ _ _

theorem create_kept {req : CreateRequest} (huser : req.userId ≠ a) :
    Kept deleted a w.db.tables (create cfg env req w).2.db.tables := by
  unfold create
  split
  · exact .refl _ _ _
  · split
    · exact .refl _ _ _
    · exact .refl _ _ _
    · dsimp only
      split
      · simp only [recoverFromCreateCatFailure, deleteObject_db]
        exact .refl _ _ _
      · next h => exact createCatWithMedia_kept huser huser h
  · exact .refl _ _ _

theorem upload_kept {userId : UUID} {deviceId : Option UUID} {key : Option String} {muted : Bool}
    (huser : userId ≠ a) :
    Kept deleted a w.db.tables (upload env userId deviceId key muted w).2.db.tables := by
  unfold upload
  split
  · exact .refl _ _ _
  · split
    · exact .refl _ _ _
    · exact .refl _ _ _
    · dsimp only
      split
      · simp only [recoverFromCreateFailure, deleteObject_db]
        exact .refl _ _ _
      · next h => exact createMedia_kept huser h
  · exact .refl _ _ _

theorem createOrdinaryUpdate_kept {req : OrdinaryUpdateRequest} (huser : req.userId ≠ a)
    (hfresh : FreshUpdate env w.db.tables) :
    Kept deleted a w.db.tables (createOrdinaryUpdate env req w).2.db.tables := by
  unfold createOrdinaryUpdate
  split
  · exact .refl _ _ _
  · split
    · exact .refl _ _ _
    · split
      · exact .refl _ _ _
      · next params media hprepare =>
        split
        · exact .refl _ _ _
        · next h =>
          have hparams : params.id = env.uuid 0 ∧ params.authorUserId = req.userId := by
            simp only [prepareOrdinaryUpdate, bind_eq_ok] at hprepare
            obtain ⟨statuses, -, _, -, _, -, hprepare⟩ := hprepare
            split at hprepare
            · simp only [bind_eq_ok] at hprepare
              obtain ⟨m, -, hprepare⟩ := hprepare
              cases hprepare
              exact ⟨rfl, rfl⟩
            · cases hprepare
          have hother : params.authorUserId ≠ a := hparams.2 ▸ huser
          exact store_createOrdinaryUpdate_kept hother (hparams.1 ▸ hfresh) h
    · exact .refl _ _ _

theorem createNeedsHelpUpdate_kept {catId : Option UUID} {userId : UUID} {deviceId : Option UUID}
    {category : String} {comment : Option String} (huser : userId ≠ a)
    (hfresh : FreshUpdate env w.db.tables) :
    Kept deleted a w.db.tables
      (createNeedsHelpUpdate env catId userId deviceId category comment w).2.db.tables := by
  unfold createNeedsHelpUpdate
  split
  · exact .refl _ _ _
  · next params c hprepare =>
    split
    · exact .refl _ _ _
    · next h =>
      have hparams : params.id = env.uuid 0 ∧ params.authorUserId = userId := by
        unfold prepareNeedsHelpUpdate at hprepare
        split at hprepare
        · cases hprepare
        · cases hprepare
        · simp only [bind_eq_ok] at hprepare
          obtain ⟨_, -, _, -, hprepare⟩ := hprepare
          split at hprepare
          · cases hprepare
            exact ⟨rfl, rfl⟩
          · cases hprepare
      have hother : params.authorUserId ≠ a := hparams.2 ▸ huser
      exact store_createOrdinaryUpdate_kept hother (hparams.1 ▸ hfresh) h

theorem correctOwnUpdate_kept {catId updateId : Option UUID} {userId : UUID}
    {correction : UpdateCorrection} (huser : userId ≠ a) :
    Kept deleted a w.db.tables
      (correctOwnUpdate env catId updateId userId correction w).2.db.tables := by
  unfold correctOwnUpdate
  split
  · exact .refl _ _ _
  · next params hprepare =>
    have hauthor : params.authorUserId = userId := by
      unfold prepareCorrection at hprepare
      split at hprepare
      · cases hprepare
      · cases hprepare
      · simp only [bind_eq_ok] at hprepare
        obtain ⟨_, -, _, -, hprepare⟩ := hprepare
        cases hprepare
        rfl
    split
    · next h => exact store_correctOwnUpdate_kept (hauthor ▸ huser) h
    · split <;> exact .refl _ _ _
    · exact .refl _ _ _

theorem service_deleteOwnUpdate_kept {catId updateId : Option UUID} {userId : UUID}
    (huser : userId ≠ a) :
    Kept deleted a w.db.tables
      (CatServices.deleteOwnUpdate env catId updateId userId w).2.db.tables := by
  unfold CatServices.deleteOwnUpdate
  split
  · exact .refl _ _ _
  · exact .refl _ _ _
  · dsimp only
    split
    · next h => exact deleteOwnUpdate_kept huser h
    · exact .refl _ _ _
    · exact .refl _ _ _

theorem follow_kept {catId : Option UUID} {userId : UUID} {deviceId : Option UUID}
    (huser : userId ≠ a) :
    Kept deleted a w.db.tables (follow catId userId deviceId w).2.db.tables := by
  unfold follow
  split
  · exact .refl _ _ _
  · split
    · exact run_kept fun db' h => createFollow_kept huser h
    · exact .refl _ _ _

theorem unfollow_kept {catId : Option UUID} {userId : UUID} (huser : userId ≠ a) :
    Kept deleted a w.db.tables (unfollow catId userId w).2.db.tables := by
  unfold unfollow
  split
  · exact .refl _ _ _
  · split
    · exact run_kept fun db' h => deleteFollow_kept huser h
    · exact .refl _ _ _

theorem service_createReport_kept {reporter : UUID} {targetType : String}
    {targetId : Option UUID} {reason : String} {note : Option String} (huser : reporter ≠ a) :
    Kept deleted a w.db.tables
      (SocialServices.createReport env reporter targetType targetId reason note w).2.db.tables := by
  unfold SocialServices.createReport
  split
  · exact .refl _ _ _
  · next row hprepare =>
    have hreporter : row.reporterUserId = reporter := by
      unfold prepareReport at hprepare
      split at hprepare
      · cases hprepare
      · cases hprepare
      · cases hprepare
      · dsimp only at hprepare
        split_ifs at hprepare
        all_goals cases hprepare; rfl
    split
    · next h => exact createReport_kept (hreporter ▸ huser) h
    · exact .refl _ _ _
    · exact .refl _ _ _

theorem markRead_kept {userId : UUID} {id : Option UUID} (huser : userId ≠ a) :
    Kept deleted a w.db.tables (markRead env userId id w).2.db.tables := by
  unfold markRead
  split
  · exact .refl _ _ _
  · exact run_kept fun db' h => markNotificationRead_kept huser h

theorem deliver_kept {row : ClaimedRow} {rec : Recipient} {s : Dispatch} {t : Tables}
    (hs : Kept deleted a t s.db.tables) :
    Kept deleted a t (s.deliver env row rec).2.db.tables := by
  unfold Dispatch.deliver
  split
  · exact hs
  · exact hs
  · next h =>
    have hcreated := hs.trans (createNotification_kept h)
    dsimp only
    split
    · exact hcreated
    · split
      · exact hcreated
      · unfold Dispatch.push
        dsimp only
        split
        · split
          · exact hcreated
          · next hclear => exact hcreated.trans (clearDevicePushToken_kept hclear)
        · exact hcreated

theorem markProcessed_kept {row : ClaimedRow} {s : Dispatch} {t : Tables}
    (hs : Kept deleted a t s.db.tables) :
    Kept deleted a t (s.markProcessed env row).2.db.tables := by
  unfold Dispatch.markProcessed
  split
  · exact hs
  · next h => exact hs.trans (kept_write h (kept_of_eq rfl))

theorem dispatchRow_kept {row : ClaimedRow} {s : Dispatch} {t : Tables}
    (hs : Kept deleted a t s.db.tables) :
    Kept deleted a t (dispatchRow env row s).2.db.tables := by
  have hdelivered : Kept deleted a t (dispatchNeedsHelp env row s).2.db.tables :=
    forEach_induct (I := fun s : Dispatch => Kept deleted a t s.db.tables)
      (fun _ _ _ => deliver_kept) hs
  unfold dispatchRow
  split
  · split
    · next h =>
      rw [h] at hdelivered
      exact hdelivered
    · next h =>
      rw [h] at hdelivered
      exact markProcessed_kept hdelivered
  · exact markProcessed_kept hs

theorem dispatchPending_kept :
    Kept deleted a w.db.tables (dispatchPending cfg env w).2.db.tables := by
  have hdispatched (rows : List ClaimedRow) :
      Kept deleted a w.db.tables (forEach (dispatchRow env) rows { db := w.db }).2.db.tables :=
    forEach_induct (I := fun s : Dispatch => Kept deleted a w.db.tables s.db.tables)
      (fun _ _ _ => dispatchRow_kept) (.refl _ _ _)
  unfold dispatchPending
  dsimp only
  split
  · next h =>
    have hrows := hdispatched (claimNotificationOutboxBatch cfg.batchSize w.db)
    rw [h] at hrows
    exact hrows
  · exact .refl _ _ _

/-- An operation that is not done for the account keeps what is the account's. -/
theorem serve_kept {r : Request} (ha : There a w.db.tables)
    (hforeign : Foreign deleted cfg a w.db.tables r.op) (hfresh : FreshUpdate r.env w.db.tables) :
    Kept deleted a w.db.tables (serve cfg r w).db.tables := by
  obtain ⟨env, op⟩ := r
  cases op with
  | register platform pushToken => exact register_kept platform pushToken
  | setPushToken deviceId pushToken => exact setPushToken_kept deviceId pushToken
  | requestOTP phone => exact requestOTP_kept phone
  | verifyOTP phone code deviceId => exact verifyOTP_kept ha hforeign
  | setDisplayName userId name => exact setDisplayName_kept name hforeign
  | refresh token => exact refresh_kept hforeign
  | logout userId token deviceId => exact logout_kept hforeign.1 hforeign.2
  | unlinkDevice deviceId userId => exact unlinkDevice_kept hforeign
  | block blocker blocked => exact block_kept hforeign
  | unblock blocker blocked => exact unblock_kept hforeign
  | createCat req => exact create_kept hforeign
  | upload userId deviceId key muted => exact upload_kept hforeign
  | createOrdinaryUpdate req => exact createOrdinaryUpdate_kept hforeign hfresh
  | createNeedsHelpUpdate catId userId deviceId category comment =>
    exact createNeedsHelpUpdate_kept hforeign hfresh
  | correctOwnUpdate catId updateId userId correction => exact correctOwnUpdate_kept hforeign
  | deleteOwnUpdate catId updateId userId => exact service_deleteOwnUpdate_kept hforeign
  | setCoverPhoto catId caller mediaId => exact setCoverPhoto_kept hforeign
  | renameCat catId caller name => exact renameCat_kept hforeign
  | deleteCat catId caller => exact deleteCat_kept hforeign
  | follow catId userId deviceId => exact follow_kept hforeign
  | unfollow catId userId => exact unfollow_kept hforeign
  | report reporter targetType targetId reason note => exact service_createReport_kept hforeign
  | dispatchPending => exact dispatchPending_kept
  | markRead userId id => exact markRead_kept hforeign
  | deleteAccount userId => exact delete_kept hforeign.1 hforeign.2

end Operations

end Tekir.AccountSeparation
