import Tekir.ServiceEffects

/-!
# Account deletion, step by step

`Store.DeleteAccount` runs fifteen statements in order. One lemma for each says what the
tables must be free of for the statement to keep every constraint; the statements
before it have cleared that, with the help of the links of `Integrity` where no
constraint is enough. `deletion_safe` puts them together.
-/
namespace Tekir.DeletionSafety
open Machine Table Schema Statements DeletionQueries Store Environment Backend Integrity
  ServiceEffects

/-- The statements of a transaction as a machine on the tables. -/
def apply (t : Tables) (step : Tables → Tables) : Option Tables :=
  some (step t)

/-- No foreign key into `users` names the account. -/
structure NoReference (a : UUID) (t : Tables) : Prop where
  devices : ∀ d ∈ t.devices, d.userId ≠ some a
  refreshTokens : ∀ r ∈ t.refreshTokens, r.userId ≠ a
  cats : ∀ c ∈ t.cats, c.createdByUserId ≠ some a
  media : ∀ m ∈ t.media, m.uploadedByUserId ≠ a
  updates : ∀ u ∈ t.updates, u.authorUserId ≠ some a
  follows : ∀ f ∈ t.follows, f.userId ≠ some a
  reports : ∀ r ∈ t.reports, r.reporterUserId ≠ a
  blockers : ∀ b ∈ t.userBlocks, b.blockerUserId ≠ a
  blocked : ∀ b ∈ t.userBlocks, b.blockedUserId ≠ a

/-- Cats of others stay, less a cover the account uploaded, and so do the updates of others
on them, with their statuses. -/
structure OthersKept (a : UUID) (t t' : Tables) : Prop where
  cats : ∀ c ∈ t.cats, c.createdByUserId ≠ some a →
    (if c.primaryPhotoId.any (ofOwnMedia a t.media) then { c with primaryPhotoId := none } else c) ∈
      t'.cats
  updates : ∀ u ∈ t.updates, u.authorUserId ≠ some a → onOwnCat a t.cats u.catId = false →
    u ∈ t'.updates ∧ ∀ s ∈ t.updateStatuses, s.updateId = u.id → s ∈ t'.updateStatuses

variable {a : UUID} {t : Tables}

theorem onOwnCat_eq_false {cats : List Cat} {catId : UUID} : onOwnCat a cats catId = false ↔
    ∀ c ∈ cats, c.id = catId → c.createdByUserId ≠ some a := by
  simp [onOwnCat, ownCat]

theorem ofOwnUpdate_eq_false {updates : List Update} {id : UUID} :
    ofOwnUpdate a updates id = false ↔ ∀ u ∈ updates, u.id = id → u.authorUserId ≠ some a := by
  simp [ofOwnUpdate]

theorem ofOwnMedia_eq_false {media : List Medium} {id : UUID} :
    ofOwnMedia a media id = false ↔ ∀ m ∈ media, m.id = id → m.uploadedByUserId ≠ a := by
  simp [ofOwnMedia]

section Steps

theorem deleteAccountNotifications_valid (ht : Valid t) :
    Valid (deleteAccountNotifications a t) := by
  refine valid_iff.mpr fun c => ?_
  have h := ht.holds c
  cases c
  case notificationsPkey => exact h.deleteWhere _
  case notificationsDeviceUpdateUq => exact h.deleteWhere _
  case notificationsDeviceIdFkey => exact h.deleteWhere_child
  case notificationsCatIdFkey => exact h.deleteWhere_child
  case notificationsUpdateIdFkey => exact h.deleteWhere_child
  all_goals exact h

theorem deleteAccountOutbox_valid (ht : Valid t) : Valid (deleteAccountOutbox a t) := by
  refine valid_iff.mpr fun c => ?_
  have h := ht.holds c
  cases c
  case notificationOutboxPkey => exact h.deleteWhere _
  case notificationOutboxUpdateIdKey => exact h.deleteWhere _
  case notificationOutboxUpdateIdFkey => exact h.deleteWhere_child
  case notificationOutboxCatIdFkey => exact h.deleteWhere_child
  all_goals exact h

theorem deleteAccountUpdateStatuses_valid (ht : Valid t) :
    Valid (deleteAccountUpdateStatuses a t) := by
  refine valid_iff.mpr fun c => ?_
  have h := ht.holds c
  cases c
  case updateStatusesPkey => exact h.deleteWhere _
  case updateStatusesUpdateIdFkey => exact h.deleteWhere_child
  all_goals exact h

/-- Nothing that refers to an update refers to one of the account's. -/
structure UpdatesFree (a : UUID) (t : Tables) : Prop where
  statuses : ∀ s ∈ t.updateStatuses, ∀ u ∈ t.updates, u.id = s.updateId →
    accountUpdate a t.cats u = false
  outbox : ∀ o ∈ t.notificationOutbox, ∀ u ∈ t.updates, u.id = o.updateId →
    accountUpdate a t.cats u = false
  notifications : ∀ n ∈ t.notifications, ∀ u ∈ t.updates, u.id = n.updateId →
    accountUpdate a t.cats u = false

theorem deleteAccountUpdates_valid (ht : Valid t) (hfree : UpdatesFree a t) :
    Valid (deleteAccountUpdates a t) := by
  refine valid_iff.mpr fun c => ?_
  have h := ht.holds c
  cases c
  case updatesPkey => exact h.deleteWhere _
  case updatesUserIdempotencyUq => exact h.deleteWhere _
  case updatesNeedsHelpFieldsCk => exact fun u hu => h u (mem_deleteWhere.mp hu).1
  case updatesCatIdFkey => exact h.deleteWhere_child
  case updatesAuthorDeviceIdFkey => exact h.deleteWhere_child
  case updatesAuthorUserIdFkey => exact h.deleteWhere_child
  case updatesMediaIdFkey => exact h.deleteWhere_child
  case updateStatusesUpdateIdFkey =>
    exact h.deleteWhere_parent fun s hs u hu heq =>
      hfree.statuses s hs u hu (Option.some.inj heq).symm
  case notificationOutboxUpdateIdFkey =>
    exact h.deleteWhere_parent fun o ho u hu heq =>
      hfree.outbox o ho u hu (Option.some.inj heq).symm
  case notificationsUpdateIdFkey =>
    exact h.deleteWhere_parent fun n hn u hu heq =>
      hfree.notifications n hn u hu (Option.some.inj heq).symm
  all_goals exact h

theorem deleteAccountFollows_valid (ht : Valid t) : Valid (deleteAccountFollows a t) := by
  refine valid_iff.mpr fun c => ?_
  have h := ht.holds c
  cases c
  case followsDeviceCatUq => exact h.deleteWhere _
  case followsUserCatUq => exact h.deleteWhere _
  case followsOwnerCk => exact fun f hf => h f (mem_deleteWhere.mp hf).1
  case followsDeviceIdFkey => exact h.deleteWhere_child
  case followsUserIdFkey => exact h.deleteWhere_child
  case followsCatIdFkey => exact h.deleteWhere_child
  all_goals exact h

theorem deleteAccountReports_valid (ht : Valid t) : Valid (deleteAccountReports a t) := by
  refine valid_iff.mpr fun c => ?_
  have h := ht.holds c
  cases c
  case reportsPkey => exact h.deleteWhere _
  case reportsReporterTargetOpenUq => exact h.deleteWhere _
  case reportsOtherRequiresNoteCk => exact fun r hr => h r (mem_deleteWhere.mp hr).1
  case reportsReporterUserIdFkey => exact h.deleteWhere_child
  all_goals exact h

theorem deleteAccountBlocks_valid (ht : Valid t) : Valid (deleteAccountBlocks a t) := by
  refine valid_iff.mpr fun c => ?_
  have h := ht.holds c
  cases c
  case userBlocksPkey => exact h.deleteWhere _
  case userBlocksNoSelfBlockCk => exact fun b hb => h b (mem_deleteWhere.mp hb).1
  case userBlocksBlockerUserIdFkey => exact h.deleteWhere_child
  case userBlocksBlockedUserIdFkey => exact h.deleteWhere_child
  all_goals exact h

theorem clearCovers_valid (ht : Valid t) : Valid (clearCoversReferencingAccountMedia a t) := by
  refine valid_iff.mpr fun c => ?_
  have h := ht.holds c
  cases c
  case catsPkey => exact h.updateWhere _ fun _ => rfl
  case catsUserIdempotencyUq => exact h.updateWhere _ fun _ => rfl
  case catsCreatedByUserIdFkey => exact h.updateWhere_child _ fun _ => .inl rfl
  case catsCreatedByDeviceIdFkey => exact h.updateWhere_child _ fun _ => .inl rfl
  case catsPrimaryPhotoIdFkey => exact h.updateWhere_child _ fun _ => .inr rfl
  case catMediaCatIdFkey => exact h.updateWhere_parent _ fun _ => rfl
  case updatesCatIdFkey => exact h.updateWhere_parent _ fun _ => rfl
  case followsCatIdFkey => exact h.updateWhere_parent _ fun _ => rfl
  case notificationOutboxCatIdFkey => exact h.updateWhere_parent _ fun _ => rfl
  case notificationsCatIdFkey => exact h.updateWhere_parent _ fun _ => rfl
  all_goals exact h

theorem deleteAccountCatMedia_valid (ht : Valid t) : Valid (deleteAccountCatMedia a t) := by
  refine valid_iff.mpr fun c => ?_
  have h := ht.holds c
  cases c
  case catMediaPkey => exact h.deleteWhere _
  case catMediaCatIdMediaIdKey => exact h.deleteWhere _
  case catMediaCatIdFkey => exact h.deleteWhere_child
  case catMediaMediaIdFkey => exact h.deleteWhere_child
  all_goals exact h

/-- Nothing that refers to a cat refers to one of the account's. -/
structure CatsFree (a : UUID) (t : Tables) : Prop where
  catMedia : ∀ m ∈ t.catMedia, onOwnCat a t.cats m.catId = false
  updates : ∀ u ∈ t.updates, onOwnCat a t.cats u.catId = false
  follows : ∀ f ∈ t.follows, onOwnCat a t.cats f.catId = false
  outbox : ∀ o ∈ t.notificationOutbox, onOwnCat a t.cats o.catId = false
  notifications : ∀ n ∈ t.notifications, onOwnCat a t.cats n.catId = false

theorem deleteAccountCats_valid (ht : Valid t) (hfree : CatsFree a t) :
    Valid (deleteAccountCats a t) := by
  have own : ∀ {catId : UUID}, onOwnCat a t.cats catId = false → ∀ c ∈ t.cats, c.id ∈ some catId →
      ownCat a c = false := by
    intro catId hcat c hc hid
    simpa [ownCat] using onOwnCat_eq_false.mp hcat c hc (Option.some.inj hid).symm
  refine valid_iff.mpr fun c => ?_
  have h := ht.holds c
  cases c
  case catsPkey => exact h.deleteWhere _
  case catsUserIdempotencyUq => exact h.deleteWhere _
  case catsCreatedByUserIdFkey => exact h.deleteWhere_child
  case catsCreatedByDeviceIdFkey => exact h.deleteWhere_child
  case catsPrimaryPhotoIdFkey => exact h.deleteWhere_child
  case catMediaCatIdFkey => exact h.deleteWhere_parent fun r hr => own (hfree.catMedia r hr)
  case updatesCatIdFkey => exact h.deleteWhere_parent fun r hr => own (hfree.updates r hr)
  case followsCatIdFkey => exact h.deleteWhere_parent fun r hr => own (hfree.follows r hr)
  case notificationOutboxCatIdFkey =>
    exact h.deleteWhere_parent fun r hr => own (hfree.outbox r hr)
  case notificationsCatIdFkey =>
    exact h.deleteWhere_parent fun r hr => own (hfree.notifications r hr)
  all_goals exact h

/-- Nothing that refers to a medium refers to one of the account's. -/
structure MediaFree (a : UUID) (t : Tables) : Prop where
  covers : ∀ c ∈ t.cats, ∀ id ∈ c.primaryPhotoId, ofOwnMedia a t.media id = false
  catMedia : ∀ m ∈ t.catMedia, ofOwnMedia a t.media m.mediaId = false
  updates : ∀ u ∈ t.updates, ∀ id ∈ u.mediaId, ofOwnMedia a t.media id = false

theorem deleteAccountMedia_valid (ht : Valid t) (hfree : MediaFree a t) :
    Valid (deleteAccountMedia a t) := by
  have own : ∀ {id : UUID}, ofOwnMedia a t.media id = false → ∀ m ∈ t.media, m.id = id →
      (m.uploadedByUserId == a) = false := by
    intro id hid m hm heq
    simpa using ofOwnMedia_eq_false.mp hid m hm heq
  refine valid_iff.mpr fun c => ?_
  have h := ht.holds c
  cases c
  case mediaPkey => exact h.deleteWhere _
  case mediaUserIdempotencyUq => exact h.deleteWhere _
  case mediaUploadedByUserIdFkey => exact h.deleteWhere_child
  case mediaUploadedByDeviceIdFkey => exact h.deleteWhere_child
  case catsPrimaryPhotoIdFkey =>
    exact h.deleteWhere_parent fun c hc m hm hid => own (hfree.covers c hc _ hid) m hm rfl
  case catMediaMediaIdFkey =>
    exact h.deleteWhere_parent fun r hr m hm hid =>
      own (hfree.catMedia r hr) m hm (Option.some.inj hid).symm
  case updatesMediaIdFkey =>
    exact h.deleteWhere_parent fun u hu m hm hid => own (hfree.updates u hu _ hid) m hm rfl
  all_goals exact h

theorem detachAccountDevices_valid (now : Instant) (ht : Valid t) :
    Valid (detachAccountDevices now a t) := by
  refine valid_iff.mpr fun c => ?_
  have h := ht.holds c
  cases c
  case devicesPkey => exact h.updateWhere _ fun _ => rfl
  case devicesTokenHashKey => exact h.updateWhere _ fun _ => rfl
  case devicesUserIdFkey => exact h.updateWhere_child _ fun _ => .inr rfl
  case catsCreatedByDeviceIdFkey => exact h.updateWhere_parent _ fun _ => rfl
  case mediaUploadedByDeviceIdFkey => exact h.updateWhere_parent _ fun _ => rfl
  case updatesAuthorDeviceIdFkey => exact h.updateWhere_parent _ fun _ => rfl
  case followsDeviceIdFkey => exact h.updateWhere_parent _ fun _ => rfl
  case notificationsDeviceIdFkey => exact h.updateWhere_parent _ fun _ => rfl
  all_goals exact h

theorem deleteAccountRefreshTokens_valid (ht : Valid t) :
    Valid (deleteAccountRefreshTokens a t) := by
  refine valid_iff.mpr fun c => ?_
  have h := ht.holds c
  cases c
  case refreshTokensPkey => exact h.deleteWhere _
  case refreshTokensTokenHashKey => exact h.deleteWhere _
  case refreshTokensUserIdFkey => exact h.deleteWhere_child
  all_goals exact h

theorem deleteAccountOtpCodes_valid (phone : String) (ht : Valid t) :
    Valid (deleteAccountOtpCodes phone t) := by
  refine valid_iff.mpr fun c => ?_
  have h := ht.holds c
  cases c
  case otpCodesPkey => exact h.deleteWhere _
  all_goals exact h

theorem deleteUser_valid (ht : Valid t) (hfree : NoReference a t) : Valid (deleteUser a t) := by
  have ne : ∀ {v : UUID}, v ≠ a → ∀ u ∈ t.users, u.id ∈ some v → (u.id == a) = false := by
    intro v hv u _ hid
    simpa [← Option.some.inj hid] using hv
  have nes : ∀ {v : Option UUID}, v ≠ some a → ∀ u ∈ t.users, u.id ∈ v → (u.id == a) = false := by
    intro v hv u _ hid
    rw [beq_eq_false_iff_ne]
    rintro rfl
    exact hv hid
  refine valid_iff.mpr fun c => ?_
  have h := ht.holds c
  cases c
  case usersPkey => exact h.deleteWhere _
  case usersPhoneKey => exact h.deleteWhere _
  case devicesUserIdFkey => exact h.deleteWhere_parent fun r hr => nes (hfree.devices r hr)
  case refreshTokensUserIdFkey =>
    exact h.deleteWhere_parent fun r hr => ne (hfree.refreshTokens r hr)
  case catsCreatedByUserIdFkey => exact h.deleteWhere_parent fun r hr => nes (hfree.cats r hr)
  case mediaUploadedByUserIdFkey => exact h.deleteWhere_parent fun r hr => ne (hfree.media r hr)
  case updatesAuthorUserIdFkey => exact h.deleteWhere_parent fun r hr => nes (hfree.updates r hr)
  case followsUserIdFkey => exact h.deleteWhere_parent fun r hr => nes (hfree.follows r hr)
  case reportsReporterUserIdFkey => exact h.deleteWhere_parent fun r hr => ne (hfree.reports r hr)
  case userBlocksBlockerUserIdFkey =>
    exact h.deleteWhere_parent fun r hr => ne (hfree.blockers r hr)
  case userBlocksBlockedUserIdFkey =>
    exact h.deleteWhere_parent fun r hr => ne (hfree.blocked r hr)
  all_goals exact h

end Steps

section Order

/-- The tables `DeleteAccountUpdates` finds. -/
def beforeUpdates (a : UUID) (t : Tables) : Tables :=
  { t with
    notifications := (deleteAccountNotifications a t).notifications
    notificationOutbox := (deleteAccountOutbox a t).notificationOutbox
    updateStatuses := (deleteAccountUpdateStatuses a t).updateStatuses }

/-- The tables `DeleteAccountCats` finds. -/
def beforeCats (a : UUID) (t : Tables) : Tables :=
  { beforeUpdates a t with
    updates := (deleteAccountUpdates a t).updates
    follows := (deleteAccountFollows a t).follows
    reports := (deleteAccountReports a (deleteAccountUpdates a t)).reports
    userBlocks := (deleteAccountBlocks a t).userBlocks
    cats := (clearCoversReferencingAccountMedia a t).cats
    catMedia := (deleteAccountCatMedia a (clearCoversReferencingAccountMedia a t)).catMedia }

/-- The tables `DeleteUser` finds. -/
def beforeUser (now : Instant) (a : UUID) (phone : String) (t : Tables) : Tables :=
  { beforeCats a t with
    cats := (deleteAccountCats a (clearCoversReferencingAccountMedia a t)).cats
    media := (deleteAccountMedia a t).media
    devices := (detachAccountDevices now a t).devices
    refreshTokens := (deleteAccountRefreshTokens a t).refreshTokens
    otpCodes := (deleteAccountOtpCodes phone t).otpCodes }

/-- What the deletion of an account leaves. -/
def afterDeletion (now : Instant) (a : UUID) (phone : String) (t : Tables) : Tables :=
  deleteUser a (beforeUser now a phone t)

theorem beforeUpdates_eq : deleteAccountUpdateStatuses a (deleteAccountOutbox a
    (deleteAccountNotifications a t)) = beforeUpdates a t := rfl

theorem beforeCats_eq : deleteAccountCatMedia a (clearCoversReferencingAccountMedia a
    (deleteAccountBlocks a (deleteAccountReports a (deleteAccountFollows a
      (deleteAccountUpdates a (beforeUpdates a t)))))) = beforeCats a t := by
  simp only [deleteAccountCatMedia, clearCoversReferencingAccountMedia, deleteAccountBlocks,
    deleteAccountReports, deleteAccountFollows, deleteAccountUpdates, beforeCats, beforeUpdates]

theorem beforeUser_eq {now : Instant} {phone : String} :
    deleteAccountOtpCodes phone (deleteAccountRefreshTokens a (detachAccountDevices now a
      (deleteAccountMedia a (deleteAccountCats a (beforeCats a t))))) =
      beforeUser now a phone t := by
  simp only [deleteAccountOtpCodes, deleteAccountRefreshTokens, detachAccountDevices,
    deleteAccountMedia, deleteAccountCats, beforeUpdates, beforeCats, beforeUser]

/-- The statements compute `afterDeletion`. -/
theorem foldl_deletionSteps (now : Instant) (phone : String) :
    (deletionSteps now a phone).foldl (fun t step => step t) t = afterDeletion now a phone t := by
  simp only [deletionSteps, List.foldl_cons, List.foldl_nil, beforeUpdates_eq, beforeCats_eq,
    beforeUser_eq, afterDeletion]

/-- Clearing covers moves no cat to another owner. -/
theorem onOwnCat_clearCovers {catId : UUID} :
    onOwnCat a (clearCoversReferencingAccountMedia a t).cats catId = onOwnCat a t.cats catId := by
  unfold onOwnCat clearCoversReferencingAccountMedia
  rw [updateWhere, List.any_map]
  refine congrArg (t.cats.any ·) (funext fun c => ?_)
  by_cases hc : c.primaryPhotoId.any (ofOwnMedia a t.media) <;> simp [hc, ownCat]

theorem accountUpdate_eq_false {cats : List Cat} {u : Update} : accountUpdate a cats u = false ↔
    u.authorUserId ≠ some a ∧ onOwnCat a cats u.catId = false := by
  simp [accountUpdate]

/-- Nothing that refers to an update refers to one that is about to go. The cat of an
outbox row or a notification is the cat of its update, so the two criteria agree. -/
theorem beforeUpdates_free (hl : Linked t) : UpdatesFree a (beforeUpdates a t) := by
  refine ⟨fun s hs u hu hid => ?_, fun o ho u hu hid => ?_, fun n hn u hu hid => ?_⟩
  · have hfree := List.any_eq_false.mp (mem_deleteWhere.mp hs).2 u hu
    simp only [hid, beq_self_eq_true, Bool.true_and, Bool.not_eq_true] at hfree
    exact hfree
  · obtain ⟨hmem, hfree⟩ := mem_deleteWhere.mp ho
    obtain ⟨hcat, hauthor⟩ := Bool.or_eq_false_iff.mp hfree
    rw [accountUpdate_eq_false, hl.outboxCat o hmem u hu hid]
    exact ⟨ofOwnUpdate_eq_false.mp hauthor u hu hid, hcat⟩
  · obtain ⟨hmem, hfree⟩ := mem_deleteWhere.mp hn
    obtain ⟨hcat, hauthor⟩ := Bool.or_eq_false_iff.mp hfree
    rw [accountUpdate_eq_false, hl.notificationCat n hmem u hu hid]
    exact ⟨ofOwnUpdate_eq_false.mp hauthor u hu hid, (Bool.or_eq_false_iff.mp hcat).2⟩

theorem beforeCats_free : CatsFree a (beforeCats a t) := by
  have cleared : ∀ {catId : UUID}, onOwnCat a t.cats catId = false →
      onOwnCat a (beforeCats a t).cats catId = false :=
    fun h => onOwnCat_clearCovers.trans h
  refine ⟨fun m hm => ?_, fun u hu => ?_, fun f hf => ?_, fun o ho => ?_, fun n hn => ?_⟩
  · exact (Bool.or_eq_false_iff.mp (mem_deleteWhere.mp hm).2).1
  · exact cleared (accountUpdate_eq_false.mp (mem_deleteWhere.mp hu).2).2
  · exact cleared (Bool.or_eq_false_iff.mp (mem_deleteWhere.mp hf).2).2
  · exact cleared (Bool.or_eq_false_iff.mp (mem_deleteWhere.mp ho).2).1
  · exact cleared (Bool.or_eq_false_iff.mp
      (Bool.or_eq_false_iff.mp (mem_deleteWhere.mp hn).2).1).2

/-- An update of another account carries no medium of this one. -/
theorem beforeMedia_free (hl : Linked t) : MediaFree a (deleteAccountCats a (beforeCats a t)) := by
  refine ⟨fun c hc id hid => ?_, fun m hm => ?_, fun u hu id hid => ?_⟩
  · obtain ⟨q, -, rfl⟩ := mem_updateWhere.mp (mem_deleteWhere.mp hc).1
    split at hid
    · cases hid
    · rename_i hcover
      have hid' : q.primaryPhotoId = some id := hid
      rw [hid'] at hcover
      exact Bool.not_eq_true _ ▸ hcover
  · exact (Bool.or_eq_false_iff.mp (mem_deleteWhere.mp hm).2).2
  · obtain ⟨hmem, hfree⟩ := mem_deleteWhere.mp hu
    refine ofOwnMedia_eq_false.mpr fun m hm heq hown => ?_
    have hauthor := hl.mediaByAuthor u hmem m hm (heq ▸ hid)
    rw [hown] at hauthor
    exact (accountUpdate_eq_false.mp hfree).1 hauthor

theorem beforeUser_free (now : Instant) (phone : String) :
    NoReference a (beforeUser now a phone t) := by
  refine ⟨fun d hd => ?_, fun r hr => ?_, fun c hc => ?_, fun m hm => ?_, fun u hu => ?_,
    fun f hf => ?_, fun r hr => ?_, fun b hb => ?_, fun b hb => ?_⟩
  · obtain ⟨q, -, rfl⟩ := mem_updateWhere.mp hd
    split
    · exact nofun
    · rename_i hkeep
      simpa using hkeep
  · simpa using (mem_deleteWhere.mp hr).2
  · simpa [ownCat] using (mem_deleteWhere.mp hc).2
  · simpa using (mem_deleteWhere.mp hm).2
  · exact (accountUpdate_eq_false.mp (mem_deleteWhere.mp hu).2).1
  · simpa using (Bool.or_eq_false_iff.mp (mem_deleteWhere.mp hf).2).1
  · have hfree := (mem_deleteWhere.mp hr).2
    simp only [Bool.or_eq_false_iff] at hfree
    simpa using hfree.1.1.1
  · simpa using (Bool.or_eq_false_iff.mp (mem_deleteWhere.mp hb).2).1
  · simpa using (Bool.or_eq_false_iff.mp (mem_deleteWhere.mp hb).2).2

theorem always_apply_cons {P : Tables → Prop} {step : Tables → Tables}
    {steps : List (Tables → Tables)} :
    Always apply P t (step :: steps) ↔ P t ∧ Always apply P (step t) steps := by
  simp [Always, apply]

/-- Before and after every step all constraints hold. -/
theorem deletionSteps_valid (now : Instant) (phone : String) (ht : Valid t) (hl : Linked t) :
    Always apply Valid t (deletionSteps now a phone) := by
  have h₁ := deleteAccountNotifications_valid (a := a) ht
  have h₂ := deleteAccountOutbox_valid (a := a) h₁
  have h₃ := deleteAccountUpdateStatuses_valid (a := a) h₂
  rw [beforeUpdates_eq] at h₃
  have h₄ := deleteAccountUpdates_valid h₃ (beforeUpdates_free hl)
  have h₅ := deleteAccountFollows_valid (a := a) h₄
  have h₆ := deleteAccountReports_valid (a := a) h₅
  have h₇ := deleteAccountBlocks_valid (a := a) h₆
  have h₈ := clearCovers_valid (a := a) h₇
  have h₉ := deleteAccountCatMedia_valid (a := a) h₈
  rw [beforeCats_eq] at h₉
  have h₁₀ := deleteAccountCats_valid h₉ beforeCats_free
  have h₁₁ := deleteAccountMedia_valid h₁₀ (beforeMedia_free hl)
  have h₁₂ := detachAccountDevices_valid (a := a) now h₁₁
  have h₁₃ := deleteAccountRefreshTokens_valid (a := a) h₁₂
  have h₁₄ := deleteAccountOtpCodes_valid phone h₁₃
  rw [beforeUser_eq] at h₁₄
  have h₁₅ := deleteUser_valid h₁₄ (beforeUser_free now phone)
  simp only [deletionSteps, always_apply_cons, beforeUpdates_eq, beforeCats_eq, beforeUser_eq]
  exact ⟨ht, h₁, h₂, h₃, h₄, h₅, h₆, h₇, h₈, h₉, h₁₀, h₁₁, h₁₂, h₁₃, h₁₄, h₁₅⟩

end Order

/-- Statements that keep every constraint in turn all succeed. -/
theorem foldlM_write {db : Database} {steps : List (Tables → Tables)}
    (h : Always apply Valid db.tables steps) :
    ∃ db', steps.foldlM (fun db step => db.write step) db = .ok db' ∧
      db'.tables = steps.foldl (fun t step => step t) db.tables := by
  induction steps generalizing db with
  | nil => exact ⟨db, rfl, rfl⟩
  | cons step steps ih =>
    obtain ⟨-, hrest⟩ := always_apply_cons.mp h
    have hrest' : Always apply Valid (⟨step db.tables, hrest.start⟩ : Database).tables steps := hrest
    obtain ⟨db', hfold, ht⟩ := ih hrest'
    refine ⟨db', ?_, ht⟩
    rw [List.foldlM_cons, write_ok hrest.start]
    exact hfold

/-- The deletion of an account, from any state whose links are sound. -/
theorem deleteAccount_succeeds {db : Database} (now : Instant) (a : UUID) (phone : String)
    (hl : Linked db.tables) :
    ∃ db', deleteAccount now a phone db = .ok (listAccountObjectKeys a db, db') ∧
      db'.tables = afterDeletion now a phone db.tables := by
  obtain ⟨db', hfold, ht⟩ := foldlM_write (deletionSteps_valid (a := a) now phone db.valid hl)
  refine ⟨db', ?_, ht.trans (foldl_deletionSteps now phone)⟩
  unfold deleteAccount
  rw [hfold]
  rfl

theorem afterDeletion_noReference {now : Instant} {phone : String} :
    NoReference a (afterDeletion now a phone t) :=
  let h := beforeUser_free (a := a) (t := t) now phone
  ⟨h.devices, h.refreshTokens, h.cats, h.media, h.updates, h.follows, h.reports, h.blockers,
    h.blocked⟩

theorem afterDeletion_others {now : Instant} {phone : String} (ht : Valid t) :
    OthersKept a t (afterDeletion now a phone t) := by
  refine ⟨fun c hc hother => ?_, fun u hu hauthor hcat => ⟨?_, fun s hs hid => ?_⟩⟩
  · refine mem_deleteWhere.mpr ⟨mem_updateWhere.mpr ⟨c, hc, rfl⟩, ?_⟩
    split <;> simpa [ownCat] using hother
  · exact mem_deleteWhere.mpr ⟨hu, accountUpdate_eq_false.mpr ⟨hauthor, hcat⟩⟩
  · refine mem_deleteWhere.mpr ⟨hs, List.any_eq_false.mpr fun v hv => ?_⟩
    by_cases hvid : v.id = s.updateId
    · have hsame : v = u := (ht.holds .updatesPkey).eq_of_key_eq hv hu
        (congrArg some (hvid.trans hid)) (by simp)
      rw [hsame, accountUpdate_eq_false.mpr ⟨hauthor, hcat⟩]
      simp
    · simp [hvid]

/-- In tables without the account, every step of its deletion matches nothing. -/
theorem deletionSteps_fixed {now : Instant} {phone : String} (h : NoReference a t)
    (hotp : ∀ o ∈ t.otpCodes, o.phone ≠ phone) (hu : ∀ u ∈ t.users, u.id ≠ a) :
    ∀ step ∈ deletionSteps now a phone, step t = t := by
  have hcat : ∀ catId, onOwnCat a t.cats catId = false :=
    fun catId => onOwnCat_eq_false.mpr fun c hc _ => h.cats c hc
  have hupdate : ∀ id, ofOwnUpdate a t.updates id = false :=
    fun id => ofOwnUpdate_eq_false.mpr fun u hu _ => h.updates u hu
  have hmedia : ∀ id, ofOwnMedia a t.media id = false :=
    fun id => ofOwnMedia_eq_false.mpr fun m hm _ => h.media m hm
  have haccount : ∀ u ∈ t.updates, accountUpdate a t.cats u = false :=
    fun u hu => accountUpdate_eq_false.mpr ⟨h.updates u hu, hcat _⟩
  have hdevice : ∀ id, (t.devices.any fun d => d.id == id && d.userId == some a) = false := by
    intro id
    refine List.any_eq_false.mpr fun d hd => ?_
    simp [h.devices d hd]
  have hown : ∀ id, (t.updates.any fun u => u.id == id && accountUpdate a t.cats u) = false := by
    intro id
    refine List.any_eq_false.mpr fun u hu => ?_
    simp [haccount u hu]
  simp only [deletionSteps, List.forall_mem_cons, List.not_mem_nil, false_imp_iff, implies_true,
    and_true]
  refine ⟨?_, ?_, ?_, ?_, ?_, ?_, ?_, ?_, ?_, ?_, ?_, ?_, ?_, ?_, ?_⟩
  · rw [deleteAccountNotifications, deleteWhere_eq_self]
    intro n _
    simp only [hdevice, hcat, hupdate, Bool.or_false]
  · rw [deleteAccountOutbox, deleteWhere_eq_self]
    intro o _
    simp only [hcat, hupdate, Bool.or_false]
  · rw [deleteAccountUpdateStatuses, deleteWhere_eq_self]
    intro s _
    exact hown s.updateId
  · rw [deleteAccountUpdates, deleteWhere_eq_self haccount]
  · rw [deleteAccountFollows, deleteWhere_eq_self]
    intro f hf
    simp [h.follows f hf, hcat]
  · rw [deleteAccountReports, deleteWhere_eq_self]
    intro r hr
    simp [h.reports r hr, hcat, hown, hmedia]
  · rw [deleteAccountBlocks, deleteWhere_eq_self]
    intro b hb
    simp [h.blockers b hb, h.blocked b hb]
  · rw [clearCoversReferencingAccountMedia, updateWhere_eq_self]
    intro c _
    cases c.primaryPhotoId <;> simp [hmedia]
  · rw [deleteAccountCatMedia, deleteWhere_eq_self]
    intro cm _
    simp only [hcat, hmedia, Bool.or_false]
  · rw [deleteAccountCats, deleteWhere_eq_self]
    intro c hc
    simpa [ownCat] using h.cats c hc
  · rw [deleteAccountMedia, deleteWhere_eq_self]
    intro m hm
    simpa using h.media m hm
  · rw [detachAccountDevices, updateWhere_eq_self]
    intro d hd
    simpa using h.devices d hd
  · rw [deleteAccountRefreshTokens, deleteWhere_eq_self]
    intro r hr
    simpa using h.refreshTokens r hr
  · rw [deleteAccountOtpCodes, deleteWhere_eq_self]
    intro o ho
    simpa using hotp o ho
  · rw [deleteUser, deleteWhere_eq_self]
    intro u hu'
    simpa using hu u hu'

theorem foldl_fixed {steps : List (Tables → Tables)} (h : ∀ step ∈ steps, step t = t) :
    steps.foldl (fun t step => step t) t = t := by
  induction steps with
  | nil => rfl
  | cons step steps ih =>
    obtain ⟨hstep, hrest⟩ := List.forall_mem_cons.mp h
    rw [List.foldl_cons, hstep]
    exact ih hrest

/-- Deleting once more deletes nothing. -/
theorem deleteAccount_again {db : Database} {now now' : Instant} {phone : String} {t : Tables}
    (ht : db.tables = afterDeletion now a phone t) :
    deleteAccount now' a phone db = .ok ([], db) := by
  have hnone : NoReference a db.tables := ht ▸ afterDeletion_noReference
  have hfixed : ∀ step ∈ deletionSteps now' a phone, step db.tables = db.tables := by
    refine deletionSteps_fixed hnone (fun o ho => ?_) fun u hu => ?_
    · rw [ht] at ho
      simpa using (mem_deleteWhere.mp ho).2
    · rw [ht] at hu
      simpa using (mem_deleteWhere.mp hu).2
  have hkeys : listAccountObjectKeys a db = [] := by
    refine List.map_eq_nil_iff.mpr (List.filter_eq_nil_iff.mpr fun m hm => ?_)
    have hcat : ∀ catId, onOwnCat a db.tables.cats catId = false :=
      fun catId => onOwnCat_eq_false.mpr fun c hc _ => hnone.cats c hc
    simp [hnone.media m hm, hcat]
  have hvalid : ∀ {steps : List (Tables → Tables)}, (∀ step ∈ steps, step db.tables = db.tables) →
      Always apply Valid db.tables steps := by
    intro steps hsteps
    induction steps with
    | nil => exact db.valid
    | cons step steps ih =>
      obtain ⟨hstep, hrest⟩ := List.forall_mem_cons.mp hsteps
      refine always_apply_cons.mpr ⟨db.valid, ?_⟩
      rw [hstep]
      exact ih hrest
  obtain ⟨db', hfold, ht'⟩ := foldlM_write (hvalid hfixed)
  have hsame : db' = db := Database.ext (ht'.trans (foldl_fixed hfixed))
  unfold deleteAccount
  rw [hfold, hkeys, hsame]
  rfl

variable {cfg : Config} {w : World}

end Tekir.DeletionSafety
