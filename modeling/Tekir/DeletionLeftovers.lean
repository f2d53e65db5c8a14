import Tekir.DeletionSafety

/-!
# What an account deletion misses

The keys of the objects to delete are collected over every gallery of the account's cats,
the media rows are deleted by uploader, so the object of a photo somebody else added to
such a gallery goes while its row stays. The reports on updates are deleted after the
updates, when the sub-query finds none of them.
-/
namespace Tekir.DeletionLeftovers
open Machine Table Schema Statements DeletionQueries Store Environment Backend Integrity
  ServiceEffects DeletionSafety

variable {cfg : Config} {env : Env} {w : World} {a : UUID} {t : Tables}

section Objects

/-- The returned keys are the keys of the media rows the deletion removed. -/
def ReturnsRemovedKeys (now : Instant) (a : UUID) (phone : String) (db : Database) : Prop :=
  ∃ keys db', deleteAccount now a phone db = .ok (keys, db') ∧
    ∀ k, k ∈ keys ↔ ∃ m ∈ db.tables.media, m ∉ db'.tables.media ∧ m.objectKey = k

/-- Surviving media rows keep their object, and no object of a removed row remains. -/
def ObjectsMatch (env : Env) (a : UUID) (w : World) : Prop :=
  let w' := (AccountServices.delete env a w).2
  (∀ m ∈ w'.db.tables.media, m.objectKey ∈ w.objects → m.objectKey ∈ w'.objects) ∧
    ∀ m ∈ w.db.tables.media, m ∉ w'.db.tables.media → m.objectKey ∉ w'.objects

/-- The galleries of the account's cats show media of the account alone. -/
def OwnGalleries (a : UUID) (t : Tables) : Prop :=
  ∀ cm ∈ t.catMedia, onOwnCat a t.cats cm.catId = true →
    ∀ m ∈ t.media, m.id = cm.mediaId → m.uploadedByUserId = a

instance (env : Env) (a : UUID) (w : World) : Decidable (ObjectsMatch env a w) :=
  inferInstanceAs (Decidable (_ ∧ _))

instance (a : UUID) (t : Tables) : Decidable (OwnGalleries a t) :=
  inferInstanceAs (Decidable (∀ cm ∈ t.catMedia, _ → ∀ m ∈ t.media, _ → _))

theorem afterDeletion_media {now : Instant} {phone : String} {m : Medium} :
    m ∈ (afterDeletion now a phone t).media ↔ m ∈ t.media ∧ m.uploadedByUserId ≠ a := by
  have h : m ∈ deleteWhere (fun m => m.uploadedByUserId == a) t.media ↔
      m ∈ t.media ∧ m.uploadedByUserId ≠ a := by simp
  exact h

theorem mem_listAccountObjectKeys {db : Database} {k : String} :
    k ∈ listAccountObjectKeys a db ↔ ∃ m ∈ db.tables.media, m.objectKey = k ∧
      (m.uploadedByUserId = a ∨
        ∃ cm ∈ db.tables.catMedia,
          cm.mediaId = m.id ∧ onOwnCat a db.tables.cats cm.catId = true) := by
  simp only [listAccountObjectKeys, List.mem_map, List.mem_filter, Bool.or_eq_true, beq_iff_eq,
    List.any_eq_true, Bool.and_eq_true]
  constructor
  · rintro ⟨m, ⟨hm, hlisted⟩, rfl⟩
    exact ⟨m, hm, rfl, hlisted⟩
  · rintro ⟨m, hm, rfl, hlisted⟩
    exact ⟨m, ⟨hm, hlisted⟩, rfl⟩

theorem returnsRemovedKeys_iff (hl : Linked w.db.tables) (now : Instant) (phone : String) :
    ReturnsRemovedKeys now a phone w.db ↔ OwnGalleries a w.db.tables := by
  obtain ⟨db', hdelete, ht⟩ := deleteAccount_succeeds now a phone hl
  have hgone : ∀ m ∈ w.db.tables.media, m ∉ db'.tables.media ↔ m.uploadedByUserId = a := by
    intro m hm
    rw [ht, afterDeletion_media]
    simp [hm]
  constructor
  · rintro ⟨keys, db'', hdelete', hkeys⟩ cm hcm hown m hm hid
    rw [hdelete] at hdelete'
    cases hdelete'
    have hlisted : m.objectKey ∈ listAccountObjectKeys a w.db :=
      mem_listAccountObjectKeys.mpr ⟨m, hm, rfl, .inr ⟨cm, hcm, hid.symm, hown⟩⟩
    obtain ⟨m', hm', hremoved, hkey⟩ := (hkeys m.objectKey).mp hlisted
    have hsame : m' = m := hl.objectKeys.eq_of_key_eq hm' hm (congrArg some hkey) (by simp)
    exact (hgone m hm).mp (hsame ▸ hremoved)
  · intro hown
    refine ⟨_, db', hdelete, fun k => ?_⟩
    rw [mem_listAccountObjectKeys]
    constructor
    · rintro ⟨m, hm, rfl, hup | ⟨cm, hcm, hid, hcat⟩⟩
      · exact ⟨m, hm, (hgone m hm).mpr hup, rfl⟩
      · exact ⟨m, hm, (hgone m hm).mpr (hown cm hcm hcat m hm hid.symm), rfl⟩
    · rintro ⟨m, hm, hremoved, rfl⟩
      exact ⟨m, hm, rfl, .inl ((hgone m hm).mp hremoved)⟩

/-- With a store that carries out deletes, exactly the listed keys go. -/
theorem deleteObjects_objects (hdel : ∀ k, env.deletes k = true) (keys : List String) (w : World)
    (k : String) :
    k ∈ (keys.foldl (World.deleteObject env) w).objects ↔ k ∈ w.objects ∧ k ∉ keys := by
  induction keys generalizing w with
  | nil => simp
  | cons key keys ih =>
    rw [List.foldl_cons, ih]
    simp only [World.deleteObject, hdel, if_true, List.mem_filter, bne_iff_ne, List.mem_cons,
      not_or,
      and_assoc]

theorem delete_eq (env : Env) {user : User} (hl : Linked w.db.tables)
    (hu : user ∈ w.db.tables.users) :
    ∃ db', AccountServices.delete env user.id w =
        (.ok (),
          (listAccountObjectKeys user.id w.db).foldl (World.deleteObject env) { w with db := db' }) ∧
      db'.tables = afterDeletion env.now user.id user.phone w.db.tables := by
  obtain ⟨db', hdelete, ht⟩ := deleteAccount_succeeds env.now user.id user.phone hl
  have hget : AccountQueries.getUserByID user.id w.db = .ok user := by
    unfold AccountQueries.getUserByID
    cases hrows : w.db.tables.users.filter fun u => u.id == user.id with
    | nil => simpa using List.filter_eq_nil_iff.mp hrows user hu
    | cons r rows =>
      have hr : r ∈ w.db.tables.users.filter fun u => u.id == user.id := hrows ▸ List.mem_cons_self
      obtain ⟨hmem, hid⟩ := List.mem_filter.mp hr
      rw [(w.db.valid.holds .usersPkey).eq_of_key_eq hmem hu (by simpa using hid) (by simp)]
      rfl
  refine ⟨db', ?_, ht⟩
  unfold AccountServices.delete
  rw [hget]
  dsimp only
  rw [hdelete]

/-- The account's deletion removes exactly its objects precisely if the galleries of its
cats show no medium of another account. -/
theorem deletion_removes_its_objects_iff (env : Env) {user : User} (hw : Reaches cfg w)
    (hu : user ∈ w.db.tables.users) (hdel : ∀ k, env.deletes k = true) :
    ReturnsRemovedKeys env.now user.id user.phone w.db ∧ ObjectsMatch env user.id w ↔
      OwnGalleries user.id w.db.tables := by
  have hl := reaches_linked hw
  have hkeys := returnsRemovedKeys_iff (a := user.id) hl env.now user.phone
  refine ⟨fun h => hkeys.mp h.1, fun hown => ⟨hkeys.mpr hown, ?_⟩⟩
  obtain ⟨db', hdelete, ht⟩ := delete_eq env hl hu
  have hlisted : ∀ m ∈ w.db.tables.media,
      m.objectKey ∈ listAccountObjectKeys user.id w.db ↔ m.uploadedByUserId = user.id := by
    intro m hm
    rw [mem_listAccountObjectKeys]
    constructor
    · rintro ⟨m', hm', hkey, hcase⟩
      have hsame : m' = m := hl.objectKeys.eq_of_key_eq hm' hm (congrArg some hkey) (by simp)
      rcases hcase with hup | ⟨cm, hcm, hid, hcat⟩
      · exact hsame ▸ hup
      · exact hown cm hcm hcat m hm (hsame ▸ hid.symm)
    · intro hup
      exact ⟨m, hm, rfl, .inl hup⟩
  have hmedia : ∀ m,
      m ∈ db'.tables.media ↔ m ∈ w.db.tables.media ∧ m.uploadedByUserId ≠ user.id := by
    intro m
    rw [ht, afterDeletion_media]
  unfold ObjectsMatch
  rw [hdelete]
  simp only [deleteObjects_db, deleteObjects_objects hdel]
  refine ⟨fun m hm hobject => ⟨hobject, ?_⟩, fun m hm hremoved hobject => hobject.2 ?_⟩
  · obtain ⟨hm, hup⟩ := (hmedia m).mp hm
    exact mt (hlisted m hm).mp hup
  · refine (hlisted m hm).mpr ?_
    by_contra hup
    exact hremoved ((hmedia m).mpr ⟨hm, hup⟩)

/-- Two accounts; the first adds a cat, and the second uploads a photo. -/
def sharedCat : List Request :=
  [⟨plainEnv 1, .register "ios" none⟩,
   ⟨plainEnv 2, .register "ios" none⟩,
   ⟨plainEnv 3, .verifyOTP "5551112233" "" 10⟩,
   ⟨plainEnv 4, .verifyOTP "5554445566" "" 20⟩,
   ⟨plainEnv 5, .createCat { userId := 30, area := ⟨41, 29⟩ }⟩,
   ⟨plainEnv 6, .upload 40 (some 20) none true⟩]

/-- The second account attaches its photo to an update on the cat of the first. -/
def sharedGallery : List Request :=
  sharedCat ++ [⟨plainEnv 7, .createOrdinaryUpdate
    { catId := some 51, userId := 40, statuses := ["seen"], mediaId := some (some 60) }⟩]

/-- As long as no gallery is shared the deletion of the first account is exact. -/
theorem deletion_exact_without_sharing : ∃ w, Reaches plainConfig w ∧
    ∃ user ∈ w.db.tables.users, user.id = 30 ∧
      ReturnsRemovedKeys 9 30 user.phone w.db ∧ ObjectsMatch (plainEnv 9) 30 w := by
  obtain ⟨w, hreach, hp⟩ := exists_reaches_of_test plainConfig seedWorld_genesis
    sharedCat
    (fun w => w.db.tables.users.any (fun u => u.id == 30) &&
      decide (OwnGalleries 30 w.db.tables)) (by decide +kernel)
  simp only [Bool.and_eq_true, List.any_eq_true, beq_iff_eq, decide_eq_true_eq] at hp
  obtain ⟨⟨user, hu, hid⟩, hown⟩ := hp
  have hexact := (deletion_removes_its_objects_iff (plainEnv 9)
    hreach hu fun _ => rfl).mpr (hid ▸ hown)
  rw [hid] at hexact
  exact ⟨w, hreach, user, hu, hid, hexact⟩

/-- The photo of the second account stays listed and loses its object. -/
theorem shared_photo_loses_object : ∃ w, Reaches plainConfig w ∧
    (∃ user ∈ w.db.tables.users, user.id = 30) ∧
    (∀ phone, ¬ ReturnsRemovedKeys 9 30 phone w.db) ∧ ¬ ObjectsMatch (plainEnv 9) 30 w := by
  obtain ⟨w, hreach, hp⟩ := exists_reaches_of_test plainConfig seedWorld_genesis
    sharedGallery
    (fun w => w.db.tables.users.any (fun u => u.id == 30) &&
      !decide (OwnGalleries 30 w.db.tables) && !decide (ObjectsMatch (plainEnv 9) 30 w))
    (by decide +kernel)
  simp only [Bool.and_eq_true, List.any_eq_true, beq_iff_eq, Bool.not_eq_true',
    decide_eq_false_iff_not] at hp
  obtain ⟨⟨huser, hshared⟩, hmissing⟩ := hp
  exact ⟨w, hreach, huser,
    fun phone => mt (returnsRemovedKeys_iff (reaches_linked hreach) 9 phone).mp hshared, hmissing⟩

end Objects

section Reports

/-- The target of the report was there before and is gone. -/
def Dangling (t t' : Tables) (r : Report) : Prop :=
  match r.targetType with
  | .cat => (∃ c ∈ t.cats, c.id = r.targetId) ∧ ∀ c ∈ t'.cats, c.id ≠ r.targetId
  | .update => (∃ u ∈ t.updates, u.id = r.targetId) ∧ ∀ u ∈ t'.updates, u.id ≠ r.targetId
  | .media => (∃ m ∈ t.media, m.id = r.targetId) ∧ ∀ m ∈ t'.media, m.id ≠ r.targetId

/-- The deletion commits and leaves no report whose target it removed. -/
def LeavesNoDangling (now : Instant) (a : UUID) (phone : String) (db : Database) : Prop :=
  ∃ keys db', deleteAccount now a phone db = .ok (keys, db') ∧
    ∀ r ∈ db'.tables.reports, ¬ Dangling db.tables db'.tables r

/-- Whoever reported an update the account wrote, or an update on one of its cats, is the
account itself. -/
def UpdatesReportedByOwner (a : UUID) (t : Tables) : Prop :=
  ∀ r ∈ t.reports, r.targetType = .update →
    ∀ u ∈ t.updates, u.id = r.targetId → accountUpdate a t.cats u = true → r.reporterUserId = a

instance (a : UUID) (t : Tables) : Decidable (UpdatesReportedByOwner a t) :=
  inferInstanceAs (Decidable (∀ r ∈ t.reports, _ → ∀ u ∈ t.updates, _ → _ → _))

theorem afterDeletion_updates {now : Instant} {phone : String} {u : Update} :
    u ∈ (afterDeletion now a phone t).updates ↔ u ∈ t.updates ∧ accountUpdate a t.cats u = false :=
  mem_deleteWhere

/-- When the reports are deleted the account's updates are gone already. -/
theorem afterDeletion_reports {now : Instant} {phone : String} {r : Report} :
    r ∈ (afterDeletion now a phone t).reports ↔ r ∈ t.reports ∧ r.reporterUserId ≠ a ∧
      (r.targetType = .cat → onOwnCat a t.cats r.targetId = false) ∧
      (r.targetType = .media → ofOwnMedia a t.media r.targetId = false) := by
  have hgone : ∀ id, ((deleteWhere (accountUpdate a t.cats) t.updates).any fun u =>
      u.id == id && accountUpdate a t.cats u) = false := by
    intro id
    refine List.any_eq_false.mpr fun u hu => ?_
    simp [(mem_deleteWhere.mp hu).2]
  change r ∈ deleteWhere _ t.reports ↔ _
  rw [mem_deleteWhere]
  refine and_congr_right fun _ => ?_
  simp only [deleteAccountUpdates, hgone, Bool.and_false, Bool.or_false]
  cases r.targetType <;> simp

theorem leavesNoDangling_iff (hl : Linked w.db.tables) (now : Instant) (phone : String) :
    LeavesNoDangling now a phone w.db ↔ UpdatesReportedByOwner a w.db.tables := by
  obtain ⟨db', hdelete, ht⟩ := deleteAccount_succeeds now a phone hl
  have hv := w.db.valid
  constructor
  · rintro ⟨keys, db'', hdelete', hnone⟩ r hr htype u hu hid hown
    rw [hdelete] at hdelete'
    cases hdelete'
    by_contra hreporter
    have hkept : r ∈ db'.tables.reports := by
      rw [ht, afterDeletion_reports]
      exact ⟨hr, hreporter, by simp [htype], by simp [htype]⟩
    refine hnone r hkept ?_
    simp only [Dangling, htype]
    refine ⟨⟨u, hu, hid⟩, fun v hv' hvid => ?_⟩
    rw [ht, afterDeletion_updates] at hv'
    have hsame : v = u := (hv.holds .updatesPkey).eq_of_key_eq hv'.1 hu
      (congrArg some (hvid.trans hid.symm)) (by simp)
    rw [hsame, hown] at hv'
    cases hv'.2
  · intro hown
    refine ⟨_, db', hdelete, fun r hr hdangling => ?_⟩
    rw [ht, afterDeletion_reports] at hr
    obtain ⟨hr, hreporter, hcat, hmedia⟩ := hr
    unfold Dangling at hdangling
    split at hdangling
    · -- a cat that is not the account's is still there
      rename_i htype
      obtain ⟨⟨c, hc, hid⟩, hgone⟩ := hdangling
      have hother := onOwnCat_eq_false.mp (hcat htype) c hc hid
      refine hgone _ (ht ▸ (afterDeletion_others hv).cats c hc hother) ?_
      split <;> exact hid
    · rename_i htype
      obtain ⟨⟨u, hu, hid⟩, hgone⟩ := hdangling
      by_cases haccount : accountUpdate a w.db.tables.cats u = true
      · exact hreporter (hown r hr htype u hu hid haccount)
      · refine hgone u ?_ hid
        rw [ht, afterDeletion_updates]
        exact ⟨hu, by simpa using haccount⟩
    · rename_i htype
      obtain ⟨⟨m, hm, hid⟩, hgone⟩ := hdangling
      refine hgone m ?_ hid
      rw [ht, afterDeletion_media]
      exact ⟨hm, ofOwnMedia_eq_false.mp (hmedia htype) m hm hid⟩

/-- In a reachable state the deletion leaves no dangling report precisely if nobody else
reported an update that goes with the account. -/
theorem deletion_leaves_no_dangling_iff (hw : Reaches cfg w) (now : Instant) (a : UUID)
    (phone : String) :
    LeavesNoDangling now a phone w.db ↔ UpdatesReportedByOwner a w.db.tables :=
  leavesNoDangling_iff (reaches_linked hw) now phone

/-- Two accounts; the first asks for help for the seed cat. -/
def helpUpdate : List Request :=
  [⟨plainEnv 1, .register "ios" none⟩,
   ⟨plainEnv 2, .register "ios" none⟩,
   ⟨plainEnv 3, .verifyOTP "5551112233" "" 10⟩,
   ⟨plainEnv 4, .verifyOTP "5554445566" "" 20⟩,
   ⟨plainEnv 5, .createNeedsHelpUpdate (some 1) 30 (some 10) "food_needed" none⟩]

/-- A report of the account on its own update goes with it. -/
theorem own_report_goes : ∃ w, Reaches plainConfig w ∧ w.db.tables.reports ≠ [] ∧
    LeavesNoDangling 9 30 "+905551112233" w.db := by
  obtain ⟨w, hreach, hp⟩ := exists_reaches_of_test plainConfig seedWorld_genesis
    (helpUpdate ++ [⟨plainEnv 6, .report 30 "update" (some 50) "spam" none⟩])
    (fun w => !w.db.tables.reports.isEmpty && decide (UpdatesReportedByOwner 30 w.db.tables))
    (by decide +kernel)
  simp only [Bool.and_eq_true, Bool.not_eq_true', List.isEmpty_eq_false_iff,
    decide_eq_true_eq] at hp
  exact ⟨w, hreach, hp.1, (deletion_leaves_no_dangling_iff hreach 9 30 _).mpr hp.2⟩

/-- A report of the other account on the update survives it. -/
theorem report_on_deleted_update_survives : ∃ w, Reaches plainConfig w ∧
    (∃ user ∈ w.db.tables.users, user.id = 30) ∧
    ¬ LeavesNoDangling 9 30 "+905551112233" w.db := by
  obtain ⟨w, hreach, hp⟩ := exists_reaches_of_test plainConfig seedWorld_genesis
    (helpUpdate ++ [⟨plainEnv 6, .report 40 "update" (some 50) "spam" none⟩])
    (fun w => w.db.tables.users.any (fun u => u.id == 30) &&
      !decide (UpdatesReportedByOwner 30 w.db.tables)) (by decide +kernel)
  simp only [Bool.and_eq_true, List.any_eq_true, beq_iff_eq, Bool.not_eq_true',
    decide_eq_false_iff_not] at hp
  exact ⟨w, hreach, hp.1, mt (leavesNoDangling_iff (reaches_linked hreach) 9 _).mp hp.2⟩

end Reports

end Tekir.DeletionLeftovers
