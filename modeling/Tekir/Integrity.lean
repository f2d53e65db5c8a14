import Tekir.Backend

/-!
# What the write paths keep

Three links hold in every reachable state although no constraint states them: an
update's medium was uploaded by the update's author, and the cat of an outbox row or
of a notification is the cat of its update. Object keys are unique as well. An
operation that is `Quiet` adds no row these links speak about and gives no device a
new account; the others are taken one by one.
-/
namespace Tekir.Integrity
open Machine Table Schema Statements AccountQueries CatQueries UpdateQueries NotificationQueries
  DeletionQueries Store Environment Backend

structure Linked (t : Tables) : Prop where
  mediaByAuthor : ∀ u ∈ t.updates, ∀ m ∈ t.media, u.mediaId = some m.id →
    u.authorUserId = some m.uploadedByUserId
  outboxCat : ∀ o ∈ t.notificationOutbox, ∀ u ∈ t.updates, u.id = o.updateId → u.catId = o.catId
  notificationCat : ∀ n ∈ t.notifications, ∀ u ∈ t.updates, u.id = n.updateId → u.catId = n.catId
  objectKeys : UniqueOn (some ·.objectKey) t.media

def updateLinks (u : Update) : UUID × UUID × Option UUID × Option UUID :=
  (u.id, u.catId, u.mediaId, u.authorUserId)

def outboxLinks (o : NotificationOutbox) : UUID × UUID :=
  (o.updateId, o.catId)

def notificationLinks (n : Notification) : UUID × UUID × UUID × UUID :=
  (n.id, n.deviceId, n.updateId, n.catId)

/-- No contribution, outbox or inbox row of `t'` is new. -/
structure Inherits (t t' : Tables) : Prop where
  updates : Inherited updateLinks t.updates t'.updates
  media : t'.media.Sublist t.media
  outbox : Inherited outboxLinks t.notificationOutbox t'.notificationOutbox
  notifications : Inherited notificationLinks t.notifications t'.notifications

/-- Every account link of `t'` is one of `t`. -/
def KeepsLinks (t t' : Tables) : Prop :=
  ∀ d' ∈ t'.devices, ∀ u, d'.userId = some u → ∃ d ∈ t.devices, d.id = d'.id ∧ d.userId = some u

structure Quiet (t t' : Tables) : Prop where
  inherits : Inherits t t'
  links : KeepsLinks t t'

theorem Inherits.refl (t : Tables) : Inherits t t :=
  ⟨.refl _ _, .refl _, .refl _ _, .refl _ _⟩

theorem Inherits.trans {t t' t'' : Tables} (h : Inherits t t') (h' : Inherits t' t'') :
    Inherits t t'' :=
  ⟨h.updates.trans h'.updates, h'.media.trans h.media, h.outbox.trans h'.outbox,
    h.notifications.trans h'.notifications⟩

theorem KeepsLinks.refl (t : Tables) : KeepsLinks t t :=
  fun d hd _ hu => ⟨d, hd, rfl, hu⟩

theorem KeepsLinks.trans {t t' t'' : Tables} (h : KeepsLinks t t') (h' : KeepsLinks t' t'') :
    KeepsLinks t t'' := by
  intro d'' hd'' u hu
  obtain ⟨d', hd', hid', hu'⟩ := h' d'' hd'' u hu
  obtain ⟨d, hd, hid, hu⟩ := h d' hd' u hu'
  exact ⟨d, hd, hid.trans hid', hu⟩

theorem Quiet.refl (t : Tables) : Quiet t t :=
  ⟨.refl t, .refl t⟩

theorem Quiet.trans {t t' t'' : Tables} (h : Quiet t t') (h' : Quiet t' t'') : Quiet t t'' :=
  ⟨h.inherits.trans h'.inherits, h.links.trans h'.links⟩

/-- Rows that are inherited are linked as the rows they come from. -/
theorem Linked.inherit {t t' : Tables} (h : Linked t) (hi : Inherits t t') : Linked t' where
  mediaByAuthor := by
    intro u' hu' m hm hmedia
    obtain ⟨u, hu, heq⟩ := hi.updates u' hu'
    simp only [updateLinks, Prod.mk.injEq] at heq
    rw [← heq.2.2.2]
    exact h.mediaByAuthor u hu m (hi.media.subset hm) (heq.2.2.1.trans hmedia)
  outboxCat := by
    intro o' ho' u' hu' hid
    obtain ⟨u, hu, hequ⟩ := hi.updates u' hu'
    obtain ⟨o, ho, heqo⟩ := hi.outbox o' ho'
    simp only [updateLinks, outboxLinks, Prod.mk.injEq] at hequ heqo
    rw [← hequ.2.1, ← heqo.2]
    exact h.outboxCat o ho u hu ((hequ.1.trans hid).trans heqo.1.symm)
  notificationCat := by
    intro n' hn' u' hu' hid
    obtain ⟨u, hu, hequ⟩ := hi.updates u' hu'
    obtain ⟨n, hn, heqn⟩ := hi.notifications n' hn'
    simp only [updateLinks, notificationLinks, Prod.mk.injEq] at hequ heqn
    rw [← hequ.2.1, ← heqn.2.2.2]
    exact h.notificationCat n hn u hu ((hequ.1.trans hid).trans heqn.2.2.1.symm)
  objectKeys := List.Pairwise.sublist hi.media h.objectKeys

/-- A statement on other tables is quiet. -/
theorem quiet_of_eq {t t' : Tables} (hu : t'.updates = t.updates) (hm : t'.media = t.media)
    (ho : t'.notificationOutbox = t.notificationOutbox) (hn : t'.notifications = t.notifications)
    (hd : t'.devices = t.devices) : Quiet t t' := by
  refine ⟨⟨?_, ?_, ?_, ?_⟩, ?_⟩
  · rw [hu]
    exact .refl _ _
  · rw [hm]
  · rw [ho]
    exact .refl _ _
  · rw [hn]
    exact .refl _ _
  · intro d hd' u hu'
    rw [hd] at hd'
    exact ⟨d, hd', rfl, hu'⟩

section Statements

variable {db db' : Database}

theorem quiet_write {f : Tables → Tables} (hf : Quiet db.tables (f db.tables))
    (h : db.write f = .ok db') : Quiet db.tables db'.tables := by
  rw [write_eq_ok.mp h]
  exact hf

/-- A statement on the devices that leaves their links or clears them. -/
theorem quiet_devices {t : Tables} {g : Device → Device} (hid : ∀ d, (g d).id = d.id)
    (hlink : ∀ d, (g d).userId = d.userId ∨ (g d).userId = none) :
    Quiet t { t with devices := t.devices.map g } := by
  refine ⟨⟨.refl _ _, .refl _, .refl _ _, .refl _ _⟩, fun d' hd' u hu => ?_⟩
  obtain ⟨d, hd, rfl⟩ := List.mem_map.mp hd'
  rcases hlink d with h | h
  · exact ⟨d, hd, (hid d).symm, h ▸ hu⟩
  · rw [h] at hu
    cases hu

private theorem quiet_devicesWhere {t : Tables} (p : Device → Bool) {f : Device → Device}
    (hid : ∀ d, (f d).id = d.id) (hlink : ∀ d, (f d).userId = d.userId ∨ (f d).userId = none) :
    Quiet t { t with devices := updateWhere p f t.devices } := by
  refine quiet_devices (fun d => ?_) fun d => ?_
  · by_cases hp : p d <;> simp [hp, hid]
  · by_cases hp : p d <;> simp [hp, hlink]

private theorem quiet_updates {t : Tables} {rows : List Update}
    (h : Inherited updateLinks t.updates rows) : Quiet t { t with updates := rows } :=
  ⟨⟨h, .refl _, .refl _ _, .refl _ _⟩, .refl t⟩

theorem correctOrdinaryUpdate_quiet {arg : CorrectOrdinaryUpdateParams} {row : Update}
    (h : correctOrdinaryUpdate arg db = .ok (row, db')) : Quiet db.tables db'.tables := by
  obtain ⟨_, -, h⟩ := bind_eq_ok.mp h
  obtain ⟨_, hwrite, h⟩ := bind_eq_ok.mp h
  cases h
  refine quiet_write (quiet_updates ?_) hwrite
  refine inherited_updateWhere _ (fun _ => ?_) _
  rfl

theorem deleteOwnUpdate_quiet {arg : DeleteOwnUpdateParams} {row : Update}
    (h : deleteOwnUpdate arg db = .ok (row, db')) : Quiet db.tables db'.tables := by
  obtain ⟨_, -, h⟩ := bind_eq_ok.mp h
  obtain ⟨_, hwrite, h⟩ := bind_eq_ok.mp h
  cases h
  refine quiet_write (quiet_updates ?_) hwrite
  refine inherited_updateWhere _ (fun _ => ?_) _
  rfl

theorem createUpdateStatus_quiet {id : UUID} {status : Status}
    (h : createUpdateStatus id status db = .ok db') : Quiet db.tables db'.tables := by
  unfold createUpdateStatus at h
  split at h
  · cases h
    exact .refl _
  · exact quiet_write (quiet_of_eq rfl rfl rfl rfl rfl) h

/-- A loop of quiet statements is quiet. -/
theorem quiet_foldlM {α : Type} {f : Database → α → Except Error Database}
    (hf : ∀ db a db', f db a = .ok db' → Quiet db.tables db'.tables) {as : List α}
    (h : as.foldlM f db = .ok db') : Quiet db.tables db'.tables := by
  induction as generalizing db with
  | nil =>
    cases h
    exact .refl _
  | cons a as ih =>
    rw [List.foldlM_cons] at h
    obtain ⟨db₁, h₁, h⟩ := bind_eq_ok.mp h
    exact (hf db a db₁ h₁).trans (ih h)

theorem replaceStatuses_quiet {id : UUID} {statuses : List Status}
    (h : replaceStatuses id statuses db = .ok db') : Quiet db.tables db'.tables := by
  obtain ⟨db₁, hwrite, h⟩ := bind_eq_ok.mp h
  exact (quiet_write (quiet_of_eq rfl rfl rfl rfl rfl) hwrite).trans
    (quiet_foldlM (fun _ _ _ => createUpdateStatus_quiet) h)

/-- Each step of the account deletion drops rows, clears covers or detaches devices. -/
theorem deletionSteps_quiet {now : Instant} {u : UUID} {phone : String} :
    ∀ f ∈ deletionSteps now u phone, ∀ t, Quiet t (f t) := by
  intro f hf t
  simp only [deletionSteps, List.mem_cons, List.not_mem_nil, or_false] at hf
  rcases hf with rfl | rfl | rfl | rfl | rfl | rfl | rfl | rfl | rfl | rfl | rfl | rfl | rfl | rfl |
    rfl
  case inl =>
    exact ⟨⟨.refl _ _, .refl _, .refl _ _, inherited_deleteWhere _ _ _⟩, .refl t⟩
  case inr.inl =>
    exact ⟨⟨.refl _ _, .refl _, inherited_deleteWhere _ _ _, .refl _ _⟩, .refl t⟩
  case inr.inr.inr.inl => exact quiet_updates (inherited_deleteWhere _ _ _)
  case inr.inr.inr.inr.inr.inr.inr.inr.inr.inr.inl =>
    exact ⟨⟨.refl _ _, List.filter_sublist, .refl _ _, .refl _ _⟩, .refl t⟩
  case inr.inr.inr.inr.inr.inr.inr.inr.inr.inr.inr.inl => 
    exact quiet_devicesWhere _ (fun _ => rfl) fun _ => .inr rfl
  all_goals exact quiet_of_eq rfl rfl rfl rfl rfl

end Statements

end Tekir.Integrity
