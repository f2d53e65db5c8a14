import Tekir.AsideOperations

/-!
# What one operation changes

Every operation but five is quiet. The five are a verification, which links a device
and claims its earlier contributions, the two that store a medium, the creation of an
update and the dispatch; each has its own lemma about the rows it adds.
-/
namespace Tekir.ServiceEffects
open Machine Table Schema Statements AccountQueries CatQueries UpdateQueries NotificationQueries
  DeletionQueries Environment AccountServices CatServices SocialServices Backend Integrity
  AsideOperations

variable {cfg : Config} {env : Env} {w : World}

section Accounts

theorem deleteObjects_db (keys : List String) (w : World) :
    (keys.foldl (World.deleteObject env) w).db = w.db := by
  induction keys generalizing w with
  | nil => rfl
  | cons k keys ih => simp [ih]

theorem quiet_writes {db db' : Database} {steps : List (Tables → Tables)}
    (hsteps : ∀ f ∈ steps, ∀ t, Quiet t (f t))
    (h : steps.foldlM (fun db step => db.write step) db = .ok db') :
    Quiet db.tables db'.tables := by
  induction steps generalizing db with
  | nil =>
    cases h
    exact .refl _
  | cons f steps ih =>
    rw [List.foldlM_cons] at h
    obtain ⟨db₁, hwrite, h⟩ := bind_eq_ok.mp h
    refine (quiet_write (hsteps f List.mem_cons_self db.tables) hwrite).trans ?_
    exact ih (fun g hg => hsteps g (List.mem_cons_of_mem _ hg)) h

theorem deleteAccount_quiet {now : Instant} {userId : UUID} {phone : String} {db db' : Database}
    {keys : List String} (h : Store.deleteAccount now userId phone db = .ok (keys, db')) :
    Quiet db.tables db'.tables := by
  obtain ⟨db₁, hfold, h⟩ := bind_eq_ok.mp h
  cases h
  exact quiet_writes deletionSteps_quiet hfold

theorem delete_quiet {userId : UUID} :
    Quiet w.db.tables (AccountServices.delete env userId w).2.db.tables := by
  unfold AccountServices.delete
  split
  · exact .refl _
  · exact .refl _
  · split
    · exact .refl _
    · rename_i h
      simp only [deleteObjects_db]
      exact deleteAccount_quiet h

end Accounts

section Cats

theorem setCoverPhoto_quiet {id caller : UUID} {mediaId : Option UUID} :
    Quiet w.db.tables (setCoverPhoto env id caller mediaId w).2.db.tables := by
  unfold setCoverPhoto
  split
  · exact .refl _
  · exact .refl _
  · split
    · exact .refl _
    · exact .refl _
    · split
      · exact .refl _
      · rename_i h
        exact quiet_write (quiet_of_eq rfl rfl rfl rfl rfl) h

theorem renameCat_quiet {id caller : UUID} {name : String} :
    Quiet w.db.tables (renameCat env id caller name w).2.db.tables := by
  unfold renameCat
  split
  · exact .refl _
  · split
    · exact .refl _
    · rename_i h
      exact quiet_write (quiet_of_eq rfl rfl rfl rfl rfl) h

theorem deleteCat_quiet {id caller : UUID} :
    Quiet w.db.tables (deleteCat id caller w).2.db.tables := by
  unfold deleteCat
  split
  · rename_i h
    obtain ⟨row, -, h⟩ := bind_eq_ok.mp h
    obtain ⟨db₁, hwrite, h⟩ := bind_eq_ok.mp h
    cases h
    exact quiet_write (quiet_of_eq rfl rfl rfl rfl rfl) hwrite
  · exact .refl _
  · exact .refl _

theorem store_correctOwnUpdate_quiet {arg : Store.CorrectOwnUpdateParams} {db db' : Database}
    {r : Update × List Status} (h : Store.correctOwnUpdate arg db = .ok (r, db')) :
    Quiet db.tables db'.tables := by
  obtain ⟨⟨row, db₁⟩, hcorrect, h⟩ := bind_eq_ok.mp h
  have hq := correctOrdinaryUpdate_quiet hcorrect
  dsimp only at h
  split at h
  · obtain ⟨db₂, hreplace, h⟩ := bind_eq_ok.mp h
    cases h
    exact hq.trans (replaceStatuses_quiet hreplace)
  · cases h
    exact hq

theorem correctOwnUpdate_quiet {catId updateId : Option UUID} {userId : UUID}
    {correction : UpdateCorrection} :
    Quiet w.db.tables (correctOwnUpdate env catId updateId userId correction w).2.db.tables := by
  unfold correctOwnUpdate
  split
  · exact .refl _
  · split
    · rename_i h
      exact store_correctOwnUpdate_quiet h
    · split <;> exact .refl _
    · exact .refl _

theorem deleteOwnUpdate_quiet' {catId updateId : Option UUID} {userId : UUID} :
    Quiet w.db.tables (CatServices.deleteOwnUpdate env catId updateId userId w).2.db.tables := by
  unfold CatServices.deleteOwnUpdate
  split
  · exact .refl _
  · exact .refl _
  · dsimp only
    split
    · rename_i h
      exact deleteOwnUpdate_quiet h
    · exact .refl _
    · exact .refl _

end Cats

section Verification

/-- The account a verified number resolves to: its own, or the one the call creates. -/
def verifiedAccount (env : Env) (phone : String) (db : Database) : UUID :=
  ((db.tables.users.find? fun u => u.phone == phone).map User.id).getD (env.uuid 0)

/-- The device changes hands. -/
def link (deviceId userId : UUID) (t : Tables) : Tables :=
  { t with
    devices := updateWhere (fun d => d.id == deviceId)
      (fun d => { d with userId := some userId }) t.devices }

/-- The device's contributions without an account become the account's. -/
def claim (deviceId userId : UUID) (t : Tables) : Tables :=
  { t with
    follows := updateWhere (fun f => f.deviceId == some deviceId && f.userId.isNone)
      (fun f => { f with userId := some userId })
      (deleteWhere (fun f =>
        f.deviceId == some deviceId && f.userId.isNone &&
          t.follows.any fun owned => owned.catId == f.catId && owned.userId == some userId)
        t.follows)
    updates := updateWhere (fun u => u.authorDeviceId == some deviceId && u.authorUserId.isNone)
      (fun u => { u with authorUserId := some userId }) t.updates }

variable {db db' : Database}

theorem linkDevice_cases {deviceId userId : UUID} (h : linkDevice deviceId userId db = .ok db') :
    ∃ device ∈ db.tables.devices, device.id = deviceId ∧
      (device.userId = some userId ∧ db'.tables = claim deviceId userId db.tables ∨
       device.userId = none ∧ db'.tables = claim deviceId userId (link deviceId userId db.tables)) := by
  obtain ⟨device, hget, h⟩ := bind_eq_ok.mp h
  obtain ⟨db₁, hlink, h⟩ := bind_eq_ok.mp h
  obtain ⟨db₂, hdrop, h⟩ := bind_eq_ok.mp h
  obtain ⟨db₃, hfollows, hupdates⟩ := bind_eq_ok.mp h
  obtain ⟨hmem, hid⟩ := List.mem_filter.mp (one_eq_ok hget)
  have htables : db'.tables = claim deviceId userId db₁.tables := by
    rw [write_eq_ok.mp hupdates, write_eq_ok.mp hfollows, write_eq_ok.mp hdrop]
    rfl
  refine ⟨device, hmem, by simpa using hid, ?_⟩
  unfold relink at hlink
  split at hlink
  · rename_i owner howner
    split at hlink
    · rename_i heq
      cases hlink
      exact .inl ⟨heq ▸ howner, htables⟩
    · cases hlink
  · rename_i hnone
    exact .inr ⟨hnone, by rw [htables, write_eq_ok.mp hlink]; rfl⟩

/-- An update without an account carries no medium, so claiming it links nothing wrongly. -/
theorem linked_claim {t : Tables} (h : Linked t) (deviceId userId : UUID) :
    Linked (claim deviceId userId t) := by
  have hrows : Inherited (fun u : Update => (u.id, u.catId)) t.updates
      (claim deviceId userId t).updates := by
    refine inherited_updateWhere _ (fun _ => ?_) _
    rfl
  refine ⟨?_, ?_, ?_, h.objectKeys⟩
  · intro u' hu' m hm hmedia
    obtain ⟨u, hu, rfl⟩ := mem_updateWhere.mp hu'
    split at hmedia
    · rename_i hclaimed
      have hauthor := h.mediaByAuthor u hu m hm hmedia
      simp [hauthor] at hclaimed
    · rename_i hkept
      rw [if_neg hkept]
      exact h.mediaByAuthor u hu m hm hmedia
  · intro o ho u' hu' hid
    obtain ⟨u, hu, heq⟩ := hrows u' hu'
    obtain ⟨hid', hcat⟩ := Prod.mk.inj heq
    exact hcat ▸ h.outboxCat o ho u hu (hid'.trans hid)
  · intro n hn u' hu' hid
    obtain ⟨u, hu, heq⟩ := hrows u' hu'
    obtain ⟨hid', hcat⟩ := Prod.mk.inj heq
    exact hcat ▸ h.notificationCat n hn u hu (hid'.trans hid)

theorem linked_link {t : Tables} (h : Linked t) (deviceId userId : UUID) :
    Linked (link deviceId userId t) :=
  ⟨h.mediaByAuthor, h.outboxCat, h.notificationCat, h.objectKeys⟩

/-- How the links look after a device was linked to an account. -/
structure LinksOnly (deviceId userId : UUID) (t t' : Tables) : Prop where
  notifications : t'.notifications = t.notifications
  links : ∀ d' ∈ t'.devices, ∀ v, d'.userId = some v →
    (∃ d ∈ t.devices, d.id = d'.id ∧ d.userId = some v) ∨
    d'.id = deviceId ∧ v = userId ∧ ∃ d ∈ t.devices, d.id = deviceId ∧ d.userId = none
  linked : ∃ d' ∈ t'.devices, d'.id = deviceId ∧ d'.userId = some userId

theorem linkDevice_links {deviceId userId : UUID} (h : linkDevice deviceId userId db = .ok db') :
    LinksOnly deviceId userId db.tables db'.tables := by
  obtain ⟨device, hmem, hid, ⟨howner, ht⟩ | ⟨hnone, ht⟩⟩ := linkDevice_cases h
  · rw [ht]
    exact ⟨rfl, fun d hd v hv => .inl ⟨d, hd, rfl, hv⟩, device, hmem, hid, howner⟩
  · rw [ht]
    refine ⟨rfl, fun d' hd' v hv => ?_, ?_⟩
    · obtain ⟨d, hd, rfl⟩ := mem_updateWhere.mp hd'
      by_cases hdid : d.id = deviceId
      · simp only [hdid, beq_self_eq_true, if_true, Option.some.injEq] at hv ⊢
        exact .inr ⟨trivial, hv.symm, device, hmem, hid, hnone⟩
      · simp only [beq_iff_eq, hdid, if_false] at hv ⊢
        exact .inl ⟨d, hd, rfl, hv⟩
    · refine ⟨_, mem_updateWhere.mpr ⟨device, hmem, rfl⟩, ?_⟩
      simp [hid]

theorem linkDevice_linked {deviceId userId : UUID} (h : linkDevice deviceId userId db = .ok db')
    (hl : Linked db.tables) : Linked db'.tables := by
  obtain ⟨device, -, -, ⟨-, ht⟩ | ⟨-, ht⟩⟩ := linkDevice_cases h
  · rw [ht]
    exact linked_claim hl deviceId userId
  · rw [ht]
    exact linked_claim (linked_link hl deviceId userId) deviceId userId

/-- The links and the inbox are untouched. -/
structure SameInbox (t t' : Tables) : Prop where
  notifications : t'.notifications = t.notifications
  devices : t'.devices = t.devices

theorem resolveOrCreateUser_effect {phone : String} {now : Instant} {user : User} {isNew : Bool}
    (h : resolveOrCreateUser env phone now db = .ok ((user, isNew), db')) :
    user.id = verifiedAccount env phone db ∧ Quiet db.tables db'.tables ∧
      SameInbox db.tables db'.tables := by
  unfold resolveOrCreateUser at h
  have hfind : (db.tables.users.find? fun u => u.phone == phone) =
      (db.tables.users.filter fun u => u.phone == phone).head? := List.head?_filter.symm
  split at h
  · rename_i existing hget
    cases h
    refine ⟨?_, .refl _, rfl, rfl⟩
    unfold getUserByPhone at hget
    unfold verifiedAccount
    rw [hfind]
    cases hrows : db.tables.users.filter fun u => u.phone == phone with
    | nil => simp [hrows] at hget
    | cons r rows =>
      rw [hrows] at hget
      cases hget
      rfl
  · rename_i hget
    split at h
    · rename_i created db₁ hcreate
      cases h
      obtain ⟨db₂, hwrite, hcreate⟩ := bind_eq_ok.mp hcreate
      cases hcreate
      have ht := write_eq_ok.mp hwrite
      refine ⟨?_, quiet_write (quiet_of_eq rfl rfl rfl rfl rfl) hwrite, by rw [ht], by rw [ht]⟩
      unfold verifiedAccount
      rw [hfind, one_eq_noRows.mp hget]
      rfl
    · cases h
  · cases h

/-- A verified number's session: the device is linked to the account of the number. -/
theorem sessionForVerifiedPhone_effect {phone : String} {deviceId : UUID} {now : Instant}
    {session : Session}
    (h : sessionForVerifiedPhone cfg env phone deviceId now db = .ok (session, db')) :
    LinksOnly deviceId (verifiedAccount env phone db) db.tables db'.tables ∧
      (Linked db.tables → Linked db'.tables) := by
  obtain ⟨⟨⟨user, isNew⟩, db₁⟩, hresolve, h⟩ := bind_eq_ok.mp h
  obtain ⟨db₂, hlink, h⟩ := bind_eq_ok.mp h
  obtain ⟨⟨s, db₃⟩, hissue, h⟩ := bind_eq_ok.mp h
  cases h
  obtain ⟨huser, hquiet₁, hsame⟩ := resolveOrCreateUser_effect hresolve
  have hl := linkDevice_links hlink
  obtain ⟨db₄, hwrite, hissue'⟩ := bind_eq_ok.mp hissue
  cases hissue'
  have ht := write_eq_ok.mp hwrite
  refine ⟨⟨?_, fun d' hd' v hv => ?_, ?_⟩, fun hlinked => ?_⟩
  · rw [ht]
    exact hl.notifications.trans hsame.notifications
  · rw [ht] at hd'
    have hcases := hl.links d' hd' v hv
    rw [hsame.devices, huser] at hcases
    exact hcases
  · obtain ⟨d', hd', hlinked⟩ := hl.linked
    refine ⟨d', ?_, huser ▸ hlinked⟩
    rw [ht]
    exact hd'
  · exact (linkDevice_linked hlink (hlinked.inherit hquiet₁.inherits)).inherit
      (issue_aside quiet_aside hissue).inherits

theorem consumeOtpCodeIfValid_effect {at' : Instant} {id : UUID} {hash : String} {now : Instant}
    {phone : String} {r : UUID}
    (h : consumeOtpCodeIfValid at' id hash now phone db = .ok (r, db')) :
    ∃ codes, db'.tables = { db.tables with otpCodes := codes } := by
  obtain ⟨row, -, h⟩ := bind_eq_ok.mp h
  obtain ⟨db₁, hwrite, h⟩ := bind_eq_ok.mp h
  cases h
  exact ⟨_, write_eq_ok.mp hwrite⟩

/-- What a verification does: nothing to links and inbox, or it links the device. -/
theorem verifyOTP_effect (cfg : Config) (env : Env) (w : World) (rawPhone code : String)
    (deviceId : UUID) :
    let r := verifyOTP cfg env rawPhone code deviceId w
    (Linked w.db.tables → Linked r.2.db.tables) ∧
    ((r.1.isOk = false ∧ SameInbox w.db.tables r.2.db.tables) ∨
     (r.1.isOk = true ∧ ∃ phone, normalizePhone rawPhone = .ok phone ∧
        LinksOnly deviceId (verifiedAccount env phone w.db) w.db.tables r.2.db.tables)) := by
  have same : SameInbox w.db.tables w.db.tables := ⟨rfl, rfl⟩
  dsimp only
  unfold verifyOTP
  split
  · exact ⟨id, .inl ⟨rfl, same⟩⟩
  · rename_i phone provider hphone _
    split
    · exact ⟨id, .inl ⟨rfl, same⟩⟩
    · cases hs : sessionForVerifiedPhone cfg env phone deviceId env.clock w.db with
      | error e => exact ⟨id, .inl ⟨rfl, same⟩⟩
      | ok r =>
        obtain ⟨hlinks, hlinked⟩ := sessionForVerifiedPhone_effect hs
        exact ⟨hlinked, .inr ⟨rfl, phone, hphone, hlinks⟩⟩
  · rename_i phone hphone _
    split
    · exact ⟨id, .inl ⟨rfl, same⟩⟩
    · rename_i row _
      split
      · cases hs : consumeAndOpen cfg env phone row (hashOTPCode cfg phone code) deviceId w.db with
        | error e =>
          have herr : ∃ e', asAlreadyConsumed (Except.error e : Except Error (Session × Database)) =
              .error e' := by
            unfold asAlreadyConsumed
            split
            · exact ⟨_, rfl⟩
            · exact ⟨e, rfl⟩
          obtain ⟨e', he'⟩ := herr
          rw [he']
          exact ⟨id, .inl ⟨rfl, same⟩⟩
        | ok r =>
          obtain ⟨⟨_, db₁⟩, hconsume, hsession⟩ := bind_eq_ok.mp hs
          obtain ⟨codes, ht⟩ := consumeOtpCodeIfValid_effect hconsume
          obtain ⟨hlinks, hlinked⟩ := sessionForVerifiedPhone_effect hsession
          rw [ht] at hlinks hlinked
          have haccount : verifiedAccount env phone db₁ = verifiedAccount env phone w.db := by
            unfold verifiedAccount
            rw [ht]
          rw [haccount] at hlinks
          refine ⟨fun hl => hlinked ⟨hl.mediaByAuthor, hl.outboxCat, hl.notificationCat,
            hl.objectKeys⟩, .inr ⟨rfl, phone, hphone, hlinks.notifications, hlinks.links,
            hlinks.linked⟩⟩
      · split
        · exact ⟨id, .inl ⟨rfl, same⟩⟩
        · rename_i db' hinc
          have ht := write_eq_ok.mp hinc
          have hq : Quiet w.db.tables db'.tables :=
            quiet_write (quiet_of_eq rfl rfl rfl rfl rfl) hinc
          exact ⟨fun hl => hl.inherit hq.inherits, .inl ⟨rfl, by rw [ht], by rw [ht]⟩⟩

end Verification

theorem SameInbox.refl (t : Tables) : SameInbox t t := ⟨rfl, rfl⟩

theorem SameInbox.trans {t t' t'' : Tables} (h : SameInbox t t') (h' : SameInbox t' t'') :
    SameInbox t t'' :=
  ⟨h'.notifications.trans h.notifications, h'.devices.trans h.devices⟩

section Media

variable {db db' : Database}

theorem createMedia_tables {row r : Medium} (h : createMedia row db = .ok (r, db')) :
    r = row ∧ db'.tables = { db.tables with media := db.tables.media ++ [row] } := by
  unfold createMedia at h
  split at h
  · cases h
  · obtain ⟨db₁, hwrite, h⟩ := bind_eq_ok.mp h
    cases h
    exact ⟨rfl, write_eq_ok.mp hwrite⟩

/-- No update can refer to a medium before it exists. -/
theorem createMedia_linked {row r : Medium} (h : createMedia row db = .ok (r, db'))
    (hkey : ∀ m ∈ db.tables.media, m.objectKey ≠ row.objectKey) (hl : Linked db.tables) :
    Linked db'.tables := by
  obtain ⟨-, ht⟩ := createMedia_tables h
  have hpkey := db'.valid.holds .mediaPkey
  rw [ht] at hpkey ⊢
  have hfresh := (uniqueOn_append_singleton.mp hpkey).2
  refine ⟨fun u hu m hm hmedia => ?_, hl.outboxCat, hl.notificationCat,
    uniqueOn_append_singleton.mpr ⟨hl.objectKeys, fun m hm => .inr ?_⟩⟩
  · rcases List.mem_append.mp hm with hm | hm
    · exact hl.mediaByAuthor u hu m hm hmedia
    · rw [List.mem_singleton.mp hm] at hmedia
      obtain ⟨m', hm', hid⟩ := db.valid.holds .updatesMediaIdFkey u hu row.id hmedia
      have := hfresh m' hm'
      simp [hid] at this
  · simpa using hkey m hm

theorem createMedia_inbox {row r : Medium} (h : createMedia row db = .ok (r, db')) :
    SameInbox db.tables db'.tables := by
  rw [(createMedia_tables h).2]
  exact ⟨rfl, rfl⟩

theorem createCatMedia_tables {id catId mediaId : UUID} {at' : Instant} {r : CatMedium}
    (h : createCatMedia id catId mediaId at' db = .ok (r, db')) :
    ∃ rows, db'.tables = { db.tables with catMedia := rows } := by
  unfold createCatMedia at h
  split at h
  · cases h
  · obtain ⟨db₁, hwrite, h⟩ := bind_eq_ok.mp h
    cases h
    exact ⟨_, write_eq_ok.mp hwrite⟩

theorem createCat_tables {arg : CreateCatParams} {now : Instant} {r : Cat}
    (h : createCat arg now db = .ok (r, db')) :
    ∃ rows, db'.tables = { db.tables with cats := rows } := by
  unfold createCat at h
  dsimp only at h
  split at h
  · cases h
  · obtain ⟨db₁, hwrite, h⟩ := bind_eq_ok.mp h
    cases h
    exact ⟨_, write_eq_ok.mp hwrite⟩

theorem createCatWithMedia_effect {id : UUID} {now : Instant} {media : Medium}
    {cat : CreateCatParams} {r : Store.CreateCatWithMediaRow}
    (h : Store.createCatWithMedia id now media cat db = .ok (r, db'))
    (hkey : ∀ m ∈ db.tables.media, m.objectKey ≠ media.objectKey) :
    (Linked db.tables → Linked db'.tables) ∧ SameInbox db.tables db'.tables := by
  obtain ⟨⟨m, db₁⟩, hmedia, h⟩ := bind_eq_ok.mp h
  obtain ⟨⟨c, db₂⟩, hcat, h⟩ := bind_eq_ok.mp h
  obtain ⟨⟨cm, db₃⟩, hcatMedia, h⟩ := bind_eq_ok.mp h
  cases h
  obtain ⟨cats, ht₂⟩ := createCat_tables hcat
  obtain ⟨links, ht₃⟩ := createCatMedia_tables hcatMedia
  have hsame := createMedia_inbox hmedia
  rw [ht₃, ht₂]
  refine ⟨fun hl => ?_, hsame.notifications, hsame.devices⟩
  have hl₁ := createMedia_linked hmedia hkey hl
  exact ⟨hl₁.mediaByAuthor, hl₁.outboxCat, hl₁.notificationCat, hl₁.objectKeys⟩

theorem create_effect {req : CreateRequest} (hfresh : FreshKey env.objectKey w) :
    let w' := (create cfg env req w).2
    (Linked w.db.tables → Linked w'.db.tables) ∧ SameInbox w.db.tables w'.db.tables := by
  dsimp only
  unfold create
  split
  · exact ⟨id, .refl _⟩
  · split
    · exact ⟨id, .refl _⟩
    · exact ⟨id, .refl _⟩
    · dsimp only
      split
      · simp only [recoverFromCreateCatFailure, deleteObject_db]
        exact ⟨id, .refl _⟩
      · rename_i h
        exact createCatWithMedia_effect h hfresh.2
  · exact ⟨id, .refl _⟩

theorem upload_effect {userId : UUID} {deviceId : Option UUID} {key : Option String} {muted : Bool}
    (hfresh : FreshKey env.objectKey w) :
    let w' := (upload env userId deviceId key muted w).2
    (Linked w.db.tables → Linked w'.db.tables) ∧ SameInbox w.db.tables w'.db.tables := by
  dsimp only
  unfold upload
  split
  · exact ⟨id, .refl _⟩
  · split
    · exact ⟨id, .refl _⟩
    · exact ⟨id, .refl _⟩
    · dsimp only
      split
      · simp only [recoverFromCreateFailure, deleteObject_db]
        exact ⟨id, .refl _⟩
      · rename_i h
        exact ⟨createMedia_linked h hfresh.2, createMedia_inbox h⟩
  · exact ⟨id, .refl _⟩

end Media

section Updates

variable {db db' : Database}

theorem createUpdate_cases {arg : CreateUpdateParams} {id : UUID}
    (h : createUpdate arg db = .ok (id, db')) :
    id = arg.id ∧
    ((∃ u ∈ db.tables.updates, u.id = arg.id) ∧
        db'.tables = { db.tables with
          updates := updateWhere (fun u => u.id == arg.id) arg.assign db.tables.updates
          updatesSeq := db.tables.updatesSeq + 1 } ∨
     (∀ u ∈ db.tables.updates, u.id ≠ arg.id) ∧
        db'.tables = { db.tables with
          updates := db.tables.updates ++ [arg.insert db.tables.updatesSeq]
          updatesSeq := db.tables.updatesSeq + 1 }) := by
  obtain ⟨db₁, hwrite, h⟩ := bind_eq_ok.mp h
  cases h
  refine ⟨rfl, ?_⟩
  have ht := write_eq_ok.mp hwrite
  split at ht
  · rename_i hany
    exact .inl ⟨by simpa using hany, ht⟩
  · rename_i hany
    exact .inr ⟨by simpa using hany, ht⟩

/-- The author of the written row uploaded the medium it carries. -/
def OwnMedia (arg : CreateUpdateParams) (media : List Medium) : Prop :=
  ∀ id, arg.mediaId = some id → ∃ m ∈ media, m.id = id ∧ arg.authorUserId = some m.uploadedByUserId

theorem OwnMedia.author {arg : CreateUpdateParams} {m : Medium} (h : OwnMedia arg db.tables.media)
    (hm : m ∈ db.tables.media) (hmedia : arg.mediaId = some m.id) :
    arg.authorUserId = some m.uploadedByUserId := by
  obtain ⟨m', hm', hid, hauthor⟩ := h m.id hmedia
  have heq : m' = m :=
    (db.valid.holds .mediaPkey).eq_of_key_eq hm' hm (by simp [hid]) (by simp)
  exact heq ▸ hauthor

theorem createUpdate_linked {arg : CreateUpdateParams} {id : UUID}
    (h : createUpdate arg db = .ok (id, db')) (hown : OwnMedia arg db.tables.media)
    (hl : Linked db.tables) : Linked db'.tables := by
  obtain ⟨-, ⟨-, ht⟩ | ⟨hnew, ht⟩⟩ := createUpdate_cases h
  · -- an existing row is overwritten: its identifier and its cat stay
    have hrows : Inherited (fun u : Update => (u.id, u.catId)) db.tables.updates
        (updateWhere (fun u => u.id == arg.id) arg.assign db.tables.updates) := by
      refine inherited_updateWhere _ (fun _ => ?_) _
      rfl
    rw [ht]
    refine ⟨fun u' hu' m hm hmedia => ?_, fun o ho u' hu' hid => ?_, fun n hn u' hu' hid => ?_,
      hl.objectKeys⟩
    · obtain ⟨u, hu, rfl⟩ := mem_updateWhere.mp hu'
      by_cases hid : u.id = arg.id
      · simp only [hid, beq_self_eq_true, if_true] at hmedia ⊢
        exact hown.author hm hmedia
      · simp only [beq_iff_eq, hid, if_false] at hmedia ⊢
        exact hl.mediaByAuthor u hu m hm hmedia
    · obtain ⟨u, hu, heq⟩ := hrows u' hu'
      obtain ⟨hid', hcat⟩ := Prod.mk.inj heq
      exact hcat ▸ hl.outboxCat o ho u hu (hid'.trans hid)
    · obtain ⟨u, hu, heq⟩ := hrows u' hu'
      obtain ⟨hid', hcat⟩ := Prod.mk.inj heq
      exact hcat ▸ hl.notificationCat n hn u hu (hid'.trans hid)
  · -- nothing refers to a row that was not there
    rw [ht]
    refine ⟨fun u hu m hm hmedia => ?_, fun o ho u hu hid => ?_, fun n hn u hu hid => ?_,
      hl.objectKeys⟩
    · rcases List.mem_append.mp hu with hu | hu
      · exact hl.mediaByAuthor u hu m hm hmedia
      · rw [List.mem_singleton.mp hu] at hmedia ⊢
        exact hown.author hm hmedia
    · rcases List.mem_append.mp hu with hu | hu
      · exact hl.outboxCat o ho u hu hid
      · rw [List.mem_singleton.mp hu] at hid
        obtain ⟨u', hu', hid'⟩ :=
          db.valid.holds .notificationOutboxUpdateIdFkey o ho o.updateId rfl
        exact absurd (hid'.trans hid.symm) (hnew u' hu')
    · rcases List.mem_append.mp hu with hu | hu
      · exact hl.notificationCat n hn u hu hid
      · rw [List.mem_singleton.mp hu] at hid
        obtain ⟨u', hu', hid'⟩ := db.valid.holds .notificationsUpdateIdFkey n hn n.updateId rfl
        exact absurd (hid'.trans hid.symm) (hnew u' hu')

theorem createUpdate_inbox {arg : CreateUpdateParams} {id : UUID}
    (h : createUpdate arg db = .ok (id, db')) : SameInbox db.tables db'.tables := by
  obtain ⟨-, ⟨-, ht⟩ | ⟨-, ht⟩⟩ := createUpdate_cases h
  · rw [ht]
    exact ⟨rfl, rfl⟩
  · rw [ht]
    exact ⟨rfl, rfl⟩

/-- The enqueued row takes the cat of its update. -/
theorem createNotificationOutbox_linked {id updateId : UUID} {now : Instant}
    (h : createNotificationOutbox id updateId now db = .ok db') (hl : Linked db.tables) :
    Linked db'.tables := by
  rw [write_eq_ok.mp h]
  refine ⟨hl.mediaByAuthor, fun o ho u hu hid => ?_, hl.notificationCat, hl.objectKeys⟩
  rcases List.mem_append.mp ho with ho | ho
  · exact hl.outboxCat o ho u hu hid
  · obtain ⟨u', hu', rfl⟩ := List.mem_map.mp ho
    have heq : u = u' := (db.valid.holds .updatesPkey).eq_of_key_eq hu
      (List.mem_filter.mp hu').1 (by simp [hid]) (by simp)
    rw [heq]

theorem statuses_tables {id : UUID} {statuses : List Status}
    (h : statuses.foldlM (fun db status => createUpdateStatus id status db) db = .ok db') :
    ∃ rows, db'.tables = { db.tables with updateStatuses := rows } := by
  induction statuses generalizing db with
  | nil =>
    cases h
    exact ⟨_, rfl⟩
  | cons status statuses ih =>
    rw [List.foldlM_cons] at h
    obtain ⟨db₁, h₁, h⟩ := bind_eq_ok.mp h
    obtain ⟨rows, ht⟩ := ih h
    unfold createUpdateStatus at h₁
    split at h₁
    · cases h₁
      exact ⟨rows, ht⟩
    · rw [write_eq_ok.mp h₁] at ht
      exact ⟨rows, ht⟩

theorem linkGallery_tables {id : UUID} {arg : Store.CreateOrdinaryUpdateParams}
    (h : Store.linkGallery id arg db = .ok db') :
    ∃ rows, db'.tables = { db.tables with catMedia := rows } := by
  unfold Store.linkGallery at h
  split at h
  · cases h
    exact ⟨_, rfl⟩
  · unfold Store.unlessNoRows at h
    split at h
    · rename_i hcreate
      cases h
      exact createCatMedia_tables hcreate
    · cases h
      exact ⟨_, rfl⟩
    · cases h

theorem store_createOrdinaryUpdate_effect {cmId outId id : UUID} {now : Instant}
    {arg : Store.CreateOrdinaryUpdateParams}
    (h : Store.createOrdinaryUpdate cmId outId now arg db = .ok (id, db'))
    (hown : OwnMedia arg.row db.tables.media) :
    (Linked db.tables → Linked db'.tables) ∧ SameInbox db.tables db'.tables := by
  obtain ⟨⟨id', db₁⟩, hcreate, h⟩ := bind_eq_ok.mp h
  obtain ⟨db₂, hstatuses, h⟩ := bind_eq_ok.mp h
  obtain ⟨db₃, hlast, h⟩ := bind_eq_ok.mp h
  obtain ⟨db₄, hgallery, h⟩ := bind_eq_ok.mp h
  obtain ⟨db₅, houtbox, h⟩ := bind_eq_ok.mp h
  cases h
  obtain ⟨statuses, ht₂⟩ := statuses_tables hstatuses
  have ht₃ := write_eq_ok.mp hlast
  obtain ⟨links, ht₄⟩ := linkGallery_tables hgallery
  rw [ht₃, ht₂] at ht₄
  have ht₅ := write_eq_ok.mp houtbox
  refine ⟨fun hl => ?_, ?_⟩
  · have hl₁ := createUpdate_linked hcreate hown hl
    refine createNotificationOutbox_linked houtbox ?_
    rw [ht₄]
    exact ⟨hl₁.mediaByAuthor, hl₁.outboxCat, hl₁.notificationCat, hl₁.objectKeys⟩
  · have hsame := createUpdate_inbox hcreate
    rw [ht₅, ht₄]
    exact ⟨hsame.notifications, hsame.devices⟩

theorem resolveOwnMedia_own {mediaId : Option (Option UUID)} {author : UUID}
    {media : Option Medium} (h : resolveOwnMedia mediaId author db = .ok media) :
    ∀ m ∈ media, m ∈ db.tables.media ∧ m.uploadedByUserId = author := by
  unfold resolveOwnMedia at h
  split at h
  · cases h
    simp
  · cases h
  · split at h
    · cases h
    · cases h
    · rename_i m hget
      split at h
      · rename_i hup
        cases h
        intro m' hm'
        cases hm'
        exact ⟨(List.mem_filter.mp (one_eq_ok hget)).1, hup⟩
      · cases h

theorem prepareOrdinaryUpdate_own {req : OrdinaryUpdateRequest} {catId : UUID}
    {params : Store.CreateOrdinaryUpdateParams} {media : Option Medium}
    (h : prepareOrdinaryUpdate env req catId db = .ok (params, media)) :
    OwnMedia params.row db.tables.media := by
  obtain ⟨statuses, -, h⟩ := bind_eq_ok.mp h
  obtain ⟨_, -, h⟩ := bind_eq_ok.mp h
  obtain ⟨_, -, h⟩ := bind_eq_ok.mp h
  split at h
  · obtain ⟨media', hmedia, h⟩ := bind_eq_ok.mp h
    cases h
    intro id hid
    obtain ⟨m, rfl, rfl⟩ := Option.map_eq_some_iff.mp hid
    obtain ⟨hmem, hup⟩ := resolveOwnMedia_own hmedia m rfl
    exact ⟨m, hmem, rfl, by rw [hup]; rfl⟩
  · cases h

theorem createOrdinaryUpdate_effect {req : OrdinaryUpdateRequest} :
    let w' := (CatServices.createOrdinaryUpdate env req w).2
    (Linked w.db.tables → Linked w'.db.tables) ∧ SameInbox w.db.tables w'.db.tables := by
  dsimp only
  unfold CatServices.createOrdinaryUpdate
  split
  · exact ⟨id, .refl _⟩
  · split
    · exact ⟨id, .refl _⟩
    · split
      · exact ⟨id, .refl _⟩
      · rename_i hprep
        split
        · exact ⟨id, .refl _⟩
        · rename_i h
          exact store_createOrdinaryUpdate_effect h (prepareOrdinaryUpdate_own hprep)
    · exact ⟨id, .refl _⟩

theorem prepareNeedsHelpUpdate_own {catId : Option UUID} {userId : UUID}
    {deviceId : Option UUID} {category : String} {comment : Option String}
    {params : Store.CreateOrdinaryUpdateParams} {c : Category}
    (h : prepareNeedsHelpUpdate env catId userId deviceId category comment db = .ok (params, c)) :
    OwnMedia params.row db.tables.media := by
  unfold prepareNeedsHelpUpdate at h
  split at h
  · cases h
  · cases h
  · obtain ⟨_, -, h⟩ := bind_eq_ok.mp h
    obtain ⟨_, -, h⟩ := bind_eq_ok.mp h
    split at h
    · cases h
      intro id hid
      cases hid
    · cases h

theorem createNeedsHelpUpdate_effect {catId : Option UUID} {userId : UUID}
    {deviceId : Option UUID} {category : String} {comment : Option String} :
    let w' := (createNeedsHelpUpdate env catId userId deviceId category comment w).2
    (Linked w.db.tables → Linked w'.db.tables) ∧ SameInbox w.db.tables w'.db.tables := by
  dsimp only
  unfold createNeedsHelpUpdate
  split
  · exact ⟨id, .refl _⟩
  · rename_i hprep
    split
    · exact ⟨id, .refl _⟩
    · rename_i h
      exact store_createOrdinaryUpdate_effect h (prepareNeedsHelpUpdate_own hprep)

end Updates

section Dispatching

def deviceLinks (d : Device) : UUID × Option UUID :=
  (d.id, d.userId)

/-- The cat is the cat of the update, and the account the device belongs to follows it. -/
def Addressed (t : Tables) (n : Notification) : Prop :=
  (∀ u ∈ t.updates, u.id = n.updateId → u.catId = n.catId) ∧
    ∀ v, (n.deviceId, some v) ∈ t.devices.map deviceLinks →
      ∃ f ∈ t.follows, f.userId = some v ∧ f.catId = n.catId

/-- What the statements of a dispatch make of the tables: inbox rows are added, each one
addressed, and outbox rows keep what they refer to. -/
structure Dispatched (t t' : Tables) : Prop where
  updates : t'.updates = t.updates
  media : t'.media = t.media
  follows : t'.follows = t.follows
  devices : t'.devices.map deviceLinks = t.devices.map deviceLinks
  outbox : Inherited outboxLinks t.notificationOutbox t'.notificationOutbox
  inbox : ∃ new, t'.notifications = t.notifications ++ new ∧ ∀ n ∈ new, Addressed t n

theorem Dispatched.refl (t : Tables) : Dispatched t t :=
  ⟨rfl, rfl, rfl, rfl, .refl _ _, [], by simp, by simp⟩

theorem Dispatched.addressed_iff {t t' : Tables} (h : Dispatched t t') {n : Notification} :
    Addressed t' n ↔ Addressed t n := by
  unfold Addressed
  rw [h.updates, h.devices, h.follows]

theorem Dispatched.trans {t t' t'' : Tables} (h : Dispatched t t') (h' : Dispatched t' t'') :
    Dispatched t t'' := by
  obtain ⟨new, heq, hnew⟩ := h.inbox
  obtain ⟨new', heq', hnew'⟩ := h'.inbox
  refine ⟨h'.updates.trans h.updates, h'.media.trans h.media, h'.follows.trans h.follows,
    h'.devices.trans h.devices, h.outbox.trans h'.outbox, new ++ new', ?_, ?_⟩
  · rw [heq', heq, List.append_assoc]
  · intro n hn
    rcases List.mem_append.mp hn with hn | hn
    · exact hnew n hn
    · exact h.addressed_iff.mp (hnew' n hn)

theorem Dispatched.linked {t t' : Tables} (h : Dispatched t t') (hl : Linked t) : Linked t' := by
  obtain ⟨new, heq, hnew⟩ := h.inbox
  refine ⟨?_, fun o' ho' u hu hid => ?_, fun n hn u hu hid => ?_, ?_⟩
  · rw [h.updates, h.media]
    exact hl.mediaByAuthor
  · rw [h.updates] at hu
    obtain ⟨o, ho, heqo⟩ := h.outbox o' ho'
    simp only [outboxLinks, Prod.mk.injEq] at heqo
    rw [← heqo.2]
    exact hl.outboxCat o ho u hu (hid.trans heqo.1.symm)
  · rw [h.updates] at hu
    rw [heq] at hn
    rcases List.mem_append.mp hn with hn | hn
    · exact hl.notificationCat n hn u hu hid
    · exact (hnew n hn).1 u hu hid
  · rw [h.media]
    exact hl.objectKeys

variable {row : ClaimedRow} {s : Dispatch}

/-- The claimed row names the cat of its update. -/
def NamesCat (row : ClaimedRow) (t : Tables) : Prop :=
  ∀ u ∈ t.updates, u.id = row.updateId → u.catId = row.catId

theorem claimed_namesCat {limit : ℕ} {db : Database} (hl : Linked db.tables) :
    ∀ row ∈ claimNotificationOutboxBatch limit db, NamesCat row db.tables := by
  intro row hrow
  obtain ⟨o, ho, hclaim⟩ := List.mem_filterMap.mp (List.mem_of_mem_take hrow)
  obtain ⟨u, -, rfl⟩ := Option.map_eq_some_iff.mp hclaim
  exact hl.outboxCat o (List.mem_filter.mp (mem_orderBy.mp ho)).1

theorem push_dispatched (msg : PushMessage) :
    Dispatched s.db.tables (s.push env msg).2.db.tables := by
  unfold Dispatch.push
  dsimp only
  split
  · split
    · exact .refl _
    · rename_i h
      rw [write_eq_ok.mp h]
      refine ⟨rfl, rfl, rfl, map_updateWhere (fun _ => ?_) _, .refl _ _, [], (List.append_nil _).symm,
        by simp⟩
      rfl
  · exact .refl _

/-- The device belongs to a follower of the cat, so whoever owns it is one. -/
theorem recipient_follows {rec : Recipient} {catId : UUID} {author : Option UUID} {db : Database}
    (hrec : rec ∈ listNeedsHelpRecipientDevices catId author db) :
    ∀ v, (rec.deviceId, some v) ∈ db.tables.devices.map deviceLinks →
      ∃ f ∈ db.tables.follows, f.userId = some v ∧ f.catId = catId := by
  intro v hv
  obtain ⟨f, hf, hrec⟩ := List.mem_flatMap.mp (List.mem_dedup.mp hrec)
  obtain ⟨d, hd, rfl⟩ := List.mem_map.mp hrec
  obtain ⟨d', hd', heq⟩ := List.mem_map.mp hv
  obtain ⟨hf, hfollower⟩ := List.mem_filter.mp hf
  obtain ⟨hd, hlink⟩ := List.mem_filter.mp hd
  simp only [deviceLinks, Prod.mk.injEq] at heq
  simp only [follower, Bool.and_eq_true, beq_iff_eq] at hfollower hlink
  have hsame : d' = d :=
    (db.valid.holds .devicesPkey).eq_of_key_eq hd' hd (congrArg some heq.1) (by simp)
  refine ⟨f, hf, ?_, hfollower.1.1.1.1⟩
  rw [← hlink.1, ← hsame, heq.2]

theorem createNotification_dispatched {id deviceId : UUID} {now : Instant} {db db' : Database}
    {n : Notification} (hcat : NamesCat row db.tables)
    (hfollows : ∀ v, (deviceId, some v) ∈ db.tables.devices.map deviceLinks →
      ∃ f ∈ db.tables.follows, f.userId = some v ∧ f.catId = row.catId)
    (h : createNotification id deviceId row.catId row.updateId now db = .ok (n, db')) :
    Dispatched db.tables db'.tables := by
  obtain ⟨_, rfl, ht⟩ := createNotification_spec h
  rw [ht]
  refine ⟨rfl, rfl, rfl, rfl, .refl _ _, [_], rfl, fun n hn => ?_⟩
  rw [List.mem_singleton.mp hn]
  exact ⟨hcat, hfollows⟩

theorem deliver_dispatched {rec : Recipient} (hcat : NamesCat row s.db.tables)
    (hfollows : ∀ v, (rec.deviceId, some v) ∈ s.db.tables.devices.map deviceLinks →
      ∃ f ∈ s.db.tables.follows, f.userId = some v ∧ f.catId = row.catId) :
    Dispatched s.db.tables (s.deliver env row rec).2.db.tables := by
  unfold Dispatch.deliver
  split
  · exact .refl _
  · exact .refl _
  · rename_i h
    have hd := createNotification_dispatched hcat hfollows h
    dsimp only
    split
    · exact hd
    · split
      · exact hd
      · refine hd.trans ?_
        exact push_dispatched (s := { s with db := _, drawn := s.drawn + 1 }) _

theorem markProcessed_dispatched :
    Dispatched s.db.tables (s.markProcessed env row).2.db.tables := by
  unfold Dispatch.markProcessed
  split
  · exact .refl _
  · rename_i h
    rw [write_eq_ok.mp h]
    refine ⟨rfl, rfl, rfl, rfl, inherited_updateWhere _ (fun _ => ?_) _, [],
      (List.append_nil _).symm, by simp⟩
    rfl

theorem dispatchNeedsHelp_dispatched (hcat : NamesCat row s.db.tables) :
    Dispatched s.db.tables (dispatchNeedsHelp env row s).2.db.tables := by
  refine forEach_induct (I := fun s' : Dispatch => Dispatched s.db.tables s'.db.tables) ?_ (.refl _)
  intro rec hrec s' hs'
  have hfollows := recipient_follows hrec
  refine hs'.trans (deliver_dispatched ?_ ?_)
  · intro u hu
    rw [hs'.updates] at hu
    exact hcat u hu
  · rw [hs'.devices, hs'.follows]
    exact hfollows

theorem dispatchRow_dispatched (hcat : NamesCat row s.db.tables) :
    Dispatched s.db.tables (dispatchRow env row s).2.db.tables := by
  have hsend : Dispatched s.db.tables (dispatchNeedsHelp env row s).2.db.tables :=
    dispatchNeedsHelp_dispatched hcat
  unfold dispatchRow
  split
  · split
    · rename_i h
      rw [h] at hsend
      exact hsend
    · rename_i h
      rw [h] at hsend
      exact hsend.trans markProcessed_dispatched
  · exact markProcessed_dispatched

theorem dispatchPending_dispatched (hl : Linked w.db.tables) :
    Dispatched w.db.tables (dispatchPending cfg env w).2.db.tables := by
  have hbatch : Dispatched w.db.tables (forEach (dispatchRow env)
      (claimNotificationOutboxBatch cfg.batchSize w.db) { db := w.db }).2.db.tables := by
    refine forEach_induct (I := fun s : Dispatch => Dispatched w.db.tables s.db.tables) ?_ (.refl _)
    intro row hrow s hs
    refine hs.trans (dispatchRow_dispatched ?_)
    intro u hu
    rw [hs.updates] at hu
    exact claimed_namesCat hl row hrow u hu
  unfold dispatchPending
  dsimp only
  split
  · rename_i h
    rw [h] at hbatch
    exact hbatch
  · exact .refl _

end Dispatching

theorem genesis_linked (h : Genesis w) : Linked w.db.tables := by
  refine ⟨fun u _ m hm => ?_, h.outbox, fun n hn => ?_, ?_⟩
  · rw [h.media] at hm
    cases hm
  · rw [h.notifications] at hn
    cases hn
  · rw [h.media]
    exact List.Pairwise.nil

/-- Every operation keeps the links between contributions, media and notifications. -/
theorem serve_linked {r : Request} (hfresh : FreshKey r.env.objectKey w) (hl : Linked w.db.tables) :
    Linked (serve cfg r w).db.tables := by
  have quiet : ∀ {w' : World}, Quiet w.db.tables w'.db.tables → Linked w'.db.tables :=
    fun hq => hl.inherit hq.inherits
  obtain ⟨env, op⟩ := r
  by_cases haside : isAside op = true
  · exact quiet (serve_aside quiet_aside haside)
  · cases op <;> try exact absurd rfl haside
    case verifyOTP => exact (verifyOTP_effect _ _ _ _ _ _).1 hl
    case createCat => exact (create_effect hfresh).1 hl
    case upload => exact (upload_effect hfresh).1 hl
    case createOrdinaryUpdate => exact createOrdinaryUpdate_effect.1 hl
    case createNeedsHelpUpdate => exact createNeedsHelpUpdate_effect.1 hl
    case correctOwnUpdate => exact quiet correctOwnUpdate_quiet
    case deleteOwnUpdate => exact quiet deleteOwnUpdate_quiet'
    case setCoverPhoto => exact quiet setCoverPhoto_quiet
    case renameCat => exact quiet renameCat_quiet
    case deleteCat => exact quiet deleteCat_quiet
    case dispatchPending => exact (dispatchPending_dispatched hl).linked hl
    case deleteAccount => exact quiet delete_quiet

theorem next_linked {r : Request} {w' : World} (hl : Linked w.db.tables)
    (h : next cfg w r = some w') : Linked w'.db.tables := by
  obtain ⟨hfresh, rfl⟩ := next_eq_some.mp h
  exact serve_linked hfresh hl

/-- The links hold in every reachable state. -/
theorem reaches_linked (h : Reaches cfg w) : Linked w.db.tables :=
  Reachable.induct (I := fun w => Linked w.db.tables) (fun _ => genesis_linked)
    (fun _ _ _ => next_linked) h

end Tekir.ServiceEffects
