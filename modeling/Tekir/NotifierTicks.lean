import Mathlib.Data.Nat.Pairing
import Tekir.ServiceEffects

/-!
# Ticks of the notifier

On a tick the notifier dispatches batch after batch, until one fails or there is nothing left to
dispatch. Unless an identifier is drawn twice no batch fails; so a tick ends with an empty outbox,
and with a notification for every device that was owed one.
-/
namespace Tekir.NotifierTicks
open Table Schema Statements AccountQueries NotificationQueries SocialServices Environment

/-- The loop of a tick. The `k`-th call draws what `draws k` says, and `calls` bounds the number
of calls. -/
def tick (cfg : Config) (draws : ℕ → Env) : ℕ → ℕ → World → Option (Except Error Unit × World)
  | 0, _, _ => none
  | calls + 1, k, w =>
    match dispatchPending cfg (draws k) w with
    | (.error e, w) => some (.error e, w)
    | (.ok 0, w) => some (.ok (), w)
    | (.ok (_ + 1), w) => tick cfg draws calls (k + 1) w

/-- The rows of the outbox that are still to be dispatched. -/
def pending (t : Tables) : List NotificationOutbox :=
  t.notificationOutbox.filter fun o => o.processedAt.isNone

/-- The device has a notification of the update. -/
def Has (t : Tables) (deviceId updateId : UUID) : Prop :=
  ∃ n ∈ t.notifications, n.deviceId = deviceId ∧ n.updateId = updateId

/-- The row asks for help, and the device is one of a follower's. -/
def Due (db : Database) (row : ClaimedRow) (deviceId : UUID) : Prop :=
  (row.needsHelp && row.needsHelpEligible) = true ∧
    ∃ rec ∈ listNeedsHelpRecipientDevices row.catId row.authorUserId db, rec.deviceId = deviceId

/-- The row of the outbox owes the device a notification. -/
def Owed (db : Database) (o : NotificationOutbox) (deviceId : UUID) : Prop :=
  ∃ row ∈ claimedRow db.tables.updates o, Due db row deviceId

/-- A device without its address. -/
def addressless (d : Device) : Device :=
  { d with pushToken := none }

def stamp (stamps : UUID → Option Instant) (o : NotificationOutbox) : NotificationOutbox :=
  { o with processedAt := (stamps o.id).or o.processedAt }

/-- Rows of the outbox are stamped and notifications added; addresses may be cleared. -/
structure Notifies (ids : UUID → Bool) (pairs : UUID → UUID → Prop) (t t' : Tables) : Prop where
  rest : t' = { t with
    devices := t'.devices, notificationOutbox := t'.notificationOutbox
    notifications := t'.notifications }
  devices : t'.devices.map addressless = t.devices.map addressless
  outbox : ∃ stamps : UUID → Option Instant, (∀ id, (stamps id).isSome = ids id) ∧
    t'.notificationOutbox = t.notificationOutbox.map (stamp stamps)
  inbox : ∀ d u, Has t' d u ↔ Has t d u ∨ pairs d u

section Notifies

variable {ids ids' : UUID → Bool} {pairs pairs' : UUID → UUID → Prop} {t t' t'' : Tables}

theorem Notifies.refl (t : Tables) : Notifies (fun _ => false) (fun _ _ => False) t t where
  rest := rfl
  devices := rfl
  outbox := ⟨fun _ => none, fun _ => rfl, (List.map_id _).symm⟩
  inbox := by simp

theorem Notifies.trans (h : Notifies ids pairs t t') (h' : Notifies ids' pairs' t' t'') :
    Notifies (fun id => ids id || ids' id) (fun d u => pairs d u ∨ pairs' d u) t t'' where
  rest := by
    have hrest := h'.rest
    rw [h.rest] at hrest
    exact hrest
  devices := h'.devices.trans h.devices
  outbox := by
    obtain ⟨stamps, hstamps, heq⟩ := h.outbox
    obtain ⟨stamps', hstamps', heq'⟩ := h'.outbox
    refine ⟨fun id => (stamps' id).or (stamps id), fun id => ?_, ?_⟩
    · rw [Option.isSome_or, hstamps, hstamps', Bool.or_comm]
    · rw [heq', heq, List.map_map]
      refine List.map_congr_left fun o _ => ?_
      simp [stamp, Option.or_assoc]
  inbox := by
    intro d u
    rw [h'.inbox, h.inbox, or_assoc]

/-- Which pairs are meant may be said in another way, and with pairs that were there. -/
theorem Notifies.congr (h : Notifies ids pairs t t') (hids : ids = ids')
    (hpairs : ∀ d u, Has t d u ∨ pairs d u ↔ Has t d u ∨ pairs' d u) :
    Notifies ids' pairs' t t' where
  rest := h.rest
  devices := h.devices
  outbox := hids ▸ h.outbox
  inbox := fun d u => (h.inbox d u).trans (hpairs d u)

/-- What has been stamped is no longer pending, and the rest is as it was. -/
theorem Notifies.pending_eq (h : Notifies ids pairs t t') :
    pending t' = (pending t).filter fun o => !ids o.id := by
  obtain ⟨stamps, hstamps, heq⟩ := h.outbox
  have hkept : ∀ o ∈ (pending t).filter fun o => !ids o.id, stamp stamps o = id o := by
    intro o ho
    have hsome : (stamps o.id).isSome = false := by
      rw [hstamps]
      simpa using (List.mem_filter.mp ho).2
    have hnone : stamps o.id = none := by
      simpa using hsome
    rw [stamp, hnone, Option.none_or]
    rfl
  have hpending : pending t' = ((pending t).filter fun o => !ids o.id).map (stamp stamps) := by
    rw [pending, heq, List.filter_map, pending, List.filter_filter]
    refine congrArg _ (List.filter_congr fun o _ => ?_)
    simp only [Function.comp_apply, stamp, ← hstamps]
    cases stamps o.id with
    | none => simp
    | some at' => simp
  rw [hpending, List.map_congr_left hkept, List.map_id]

end Notifies

section Recipients

variable {ids : UUID → Bool} {pairs : UUID → UUID → Prop} {db db' : Database}

theorem mem_recipients {catId deviceId : UUID} {author : Option UUID} :
    (∃ rec ∈ listNeedsHelpRecipientDevices catId author db, rec.deviceId = deviceId) ↔
      ∃ f ∈ db.tables.follows, follower catId author db f = true ∧
        ∃ d ∈ db.tables.devices, d.userId = f.userId ∧ d.revokedAt = none ∧ d.id = deviceId := by
  simp only [listNeedsHelpRecipientDevices, List.mem_dedup, List.mem_flatMap, List.mem_map,
    List.mem_filter, Bool.and_eq_true, beq_iff_eq, Option.isNone_iff_eq_none]
  constructor
  · rintro ⟨rec, ⟨f, ⟨hf, hfollows⟩, d, ⟨hd, huser, hrevoked⟩, rfl⟩, rfl⟩
    exact ⟨f, hf, hfollows, d, hd, huser, hrevoked, rfl⟩
  · rintro ⟨f, hf, hfollows, d, hd, huser, hrevoked, hid⟩
    exact ⟨_, ⟨f, ⟨hf, hfollows⟩, d, ⟨hd, huser, hrevoked⟩, rfl⟩, hid⟩

theorem due_of_same {row : ClaimedRow} {deviceId : UUID}
    (hfollows : db'.tables.follows = db.tables.follows)
    (hcats : db'.tables.cats = db.tables.cats)
    (hblocks : db'.tables.userBlocks = db.tables.userBlocks)
    (hdevices : db'.tables.devices.map addressless = db.tables.devices.map addressless)
    (h : Due db row deviceId) : Due db' row deviceId := by
  obtain ⟨hhelp, hrec⟩ := h
  obtain ⟨f, hf, hfollower, d, hd, huser, hrevoked, hid⟩ := mem_recipients.mp hrec
  have hmem : addressless d ∈ db'.tables.devices.map addressless := by
    rw [hdevices]
    exact List.mem_map_of_mem hd
  obtain ⟨d', hd', heq⟩ := List.mem_map.mp hmem
  have huser' : (addressless d').userId = (addressless d).userId := by rw [heq]
  have hrevoked' : (addressless d').revokedAt = (addressless d).revokedAt := by rw [heq]
  have hid' : (addressless d').id = (addressless d).id := by rw [heq]
  refine ⟨hhelp, mem_recipients.mpr ⟨f, hfollows ▸ hf, ?_, d', hd', huser'.trans huser,
    hrevoked'.trans hrevoked, hid'.trans hid⟩⟩
  simp only [follower, blocks, hcats, hblocks]
  exact hfollower

/-- Who is due does not change while notifications are made. -/
theorem Notifies.due_iff (h : Notifies ids pairs db.tables db'.tables) {row : ClaimedRow}
    {deviceId : UUID} : Due db' row deviceId ↔ Due db row deviceId := by
  have hfollows : db'.tables.follows = db.tables.follows := by rw [h.rest]
  have hcats : db'.tables.cats = db.tables.cats := by rw [h.rest]
  have hblocks : db'.tables.userBlocks = db.tables.userBlocks := by rw [h.rest]
  exact ⟨due_of_same hfollows.symm hcats.symm hblocks.symm h.devices.symm,
    due_of_same hfollows hcats hblocks h.devices⟩

theorem Notifies.owed_iff (h : Notifies ids pairs db.tables db'.tables) {o : NotificationOutbox}
    {deviceId : UUID} : Owed db' o deviceId ↔ Owed db o deviceId := by
  have hupdates : db'.tables.updates = db.tables.updates := by rw [h.rest]
  unfold Owed
  rw [hupdates]
  exact exists_congr fun row => and_congr_right fun _ => h.due_iff

end Recipients

section Draws

/-- No identifier is drawn twice. -/
def Distinct (draws : ℕ → Env) : Prop :=
  ∀ k i k' i', (draws k).uuid i = (draws k').uuid i' → k = k' ∧ i = i'

/-- What is drawn from the `i`-th draw of the `k`-th call on names no notification yet. -/
def Fresh (draws : ℕ → Env) (k i : ℕ) (t : Tables) : Prop :=
  ∀ n ∈ t.notifications, ∀ k' i', k < k' ∨ k = k' ∧ i ≤ i' → n.id ≠ (draws k').uuid i'

variable {draws : ℕ → Env} {k i : ℕ} {t t' : Tables}

theorem Fresh.next (h : Fresh draws k i t) : Fresh draws (k + 1) 0 t := by
  intro n hn k' i' hlater
  refine h n hn k' i' (.inl ?_)
  omega

theorem Fresh.of_notifications (h : Fresh draws k i t)
    (heq : t'.notifications = t.notifications) : Fresh draws k i t' := by
  unfold Fresh
  rw [heq]
  exact h

theorem Fresh.insert (h : Fresh draws k i t) (hdistinct : Distinct draws) {row : Notification}
    (hrow : row.id = (draws k).uuid i) : Fresh draws k (i + 1) (insertNotification row t) := by
  intro n hn k' i' hlater
  rcases List.mem_append.mp hn with hn | hn
  · exact h n hn k' i' (hlater.imp_right fun hsame => ⟨hsame.1, by omega⟩)
  · rw [List.mem_singleton.mp hn, hrow]
    intro heq
    obtain ⟨hk, hi⟩ := hdistinct k i k' i' heq
    omega

end Draws

section Statements

variable {db : Database} {id deviceId : UUID} {row : ClaimedRow}

/-- The row's cat and update are there. -/
def Stands (t : Tables) (row : ClaimedRow) : Prop :=
  (∃ c ∈ t.cats, c.id = row.catId) ∧ ∃ u ∈ t.updates, u.id = row.updateId

theorem insertNotification_valid {n : Notification} {t : Tables} (ht : Valid t)
    (hid : ∀ m ∈ t.notifications, m.id ≠ n.id) (hpair : ¬ Has t n.deviceId n.updateId)
    (hdevice : ∃ d ∈ t.devices, d.id = n.deviceId) (hcat : ∃ c ∈ t.cats, c.id = n.catId)
    (hupdate : ∃ u ∈ t.updates, u.id = n.updateId) : Valid (insertNotification n t) := by
  refine valid_iff.mpr fun c => ?_
  have h := ht.holds c
  cases c
  case notificationsPkey =>
    refine uniqueOn_append_singleton.mpr ⟨h, fun m hm => .inr fun heq => ?_⟩
    exact hid m hm (Option.some.inj heq)
  case notificationsDeviceUpdateUq =>
    refine uniqueOn_append_singleton.mpr ⟨h, fun m hm => .inr fun heq => ?_⟩
    obtain ⟨hd, hu⟩ := Prod.mk.inj (Option.some.inj heq)
    exact hpair ⟨m, hm, hd, hu⟩
  case notificationsDeviceIdFkey =>
    refine references_append_singleton.mpr ⟨h, fun k hk => ?_⟩
    exact Option.some.inj hk ▸ hdevice
  case notificationsCatIdFkey =>
    refine references_append_singleton.mpr ⟨h, fun k hk => ?_⟩
    exact Option.some.inj hk ▸ hcat
  case notificationsUpdateIdFkey =>
    refine references_append_singleton.mpr ⟨h, fun k hk => ?_⟩
    exact Option.some.inj hk ▸ hupdate
  all_goals exact h

theorem clearPushToken_valid {token : Option String} {t : Tables} (ht : Valid t) :
    Valid (clearPushToken deviceId token t) := by
  refine valid_iff.mpr fun c => ?_
  have h := ht.holds c
  cases c
  case devicesPkey => exact h.updateWhere _ fun _ => rfl
  case devicesTokenHashKey => exact h.updateWhere _ fun _ => rfl
  case devicesUserIdFkey => exact h.updateWhere_child _ fun _ => .inl rfl
  case catsCreatedByDeviceIdFkey => exact h.updateWhere_parent _ fun _ => rfl
  case mediaUploadedByDeviceIdFkey => exact h.updateWhere_parent _ fun _ => rfl
  case updatesAuthorDeviceIdFkey => exact h.updateWhere_parent _ fun _ => rfl
  case followsDeviceIdFkey => exact h.updateWhere_parent _ fun _ => rfl
  case notificationsDeviceIdFkey => exact h.updateWhere_parent _ fun _ => rfl
  all_goals exact h

theorem processOutbox_valid {at' : Instant} {t : Tables} (ht : Valid t) :
    Valid (processOutbox at' id t) := by
  refine valid_iff.mpr fun c => ?_
  have h := ht.holds c
  cases c
  case notificationOutboxPkey => exact h.updateWhere _ fun _ => rfl
  case notificationOutboxUpdateIdKey => exact h.updateWhere _ fun _ => rfl
  case notificationOutboxUpdateIdFkey => exact h.updateWhere_child _ fun _ => .inl rfl
  case notificationOutboxCatIdFkey => exact h.updateWhere_child _ fun _ => .inl rfl
  all_goals exact h

theorem notifies_insert (n : Notification) (t : Tables) :
    Notifies (fun _ => false) (fun d u => d = n.deviceId ∧ u = n.updateId) t
      (insertNotification n t) where
  rest := rfl
  devices := rfl
  outbox := (Notifies.refl t).outbox
  inbox := by
    intro d u
    constructor
    · rintro ⟨m, hm, hd, hu⟩
      rcases List.mem_append.mp hm with hm | hm
      · exact .inl ⟨m, hm, hd, hu⟩
      · have heq : m = n := List.mem_singleton.mp hm
        exact .inr ⟨(heq ▸ hd).symm, (heq ▸ hu).symm⟩
    · rintro (⟨m, hm, hmatch⟩ | ⟨hd, hu⟩)
      · exact ⟨m, List.mem_append_left _ hm, hmatch⟩
      · exact ⟨n, List.mem_append_right _ (List.mem_singleton.mpr rfl), hd.symm, hu.symm⟩

theorem notifies_clear (token : Option String) (t : Tables) :
    Notifies (fun _ => false) (fun _ _ => False) t (clearPushToken deviceId token t) where
  rest := rfl
  devices := by
    refine map_updateWhere (fun _ => ?_) _
    rfl
  outbox := (Notifies.refl t).outbox
  inbox := fun _ _ => (or_false _).symm ▸ Iff.rfl

theorem notifies_process (at' : Instant) (t : Tables) :
    Notifies (fun id' => id' == id) (fun _ _ => False) t (processOutbox at' id t) where
  rest := rfl
  devices := rfl
  outbox := by
    refine ⟨fun id' => if id' == id then some at' else none, fun id' => ?_, ?_⟩
    · by_cases hid : id' = id
      · simp [hid]
      · simp [hid]
    · refine List.map_congr_left fun o _ => ?_
      by_cases hid : o.id = id
      · simp [stamp, hid]
      · simp [stamp, hid]
  inbox := fun _ _ => (or_false _).symm ▸ Iff.rfl

/-- A notification that is there is not made again. -/
theorem createNotification_of_has {catId updateId : UUID} {now : Instant}
    (h : Has db.tables deviceId updateId) :
    createNotification id deviceId catId updateId now db = .error .noRows := by
  obtain ⟨n, hn, hd, hu⟩ := h
  have hany : (db.tables.notifications.any fun n =>
      n.deviceId == deviceId && n.updateId == updateId) = true :=
    List.any_eq_true.mpr ⟨n, hn, by simp [hd, hu]⟩
  rw [createNotification, if_pos hany]

theorem createNotification_of_not_has {n : Notification}
    (hn : n = { n with readAt := none }) (h : ¬ Has db.tables n.deviceId n.updateId)
    (hvalid : Valid (insertNotification n db.tables)) :
    createNotification n.id n.deviceId n.catId n.updateId n.createdAt db =
      .ok (n, ⟨insertNotification n db.tables, hvalid⟩) := by
  have hany : ¬ (db.tables.notifications.any fun m =>
      m.deviceId == n.deviceId && m.updateId == n.updateId) = true := by
    intro hany
    obtain ⟨m, hm, hmatch⟩ := List.any_eq_true.mp hany
    simp only [Bool.and_eq_true, beq_iff_eq] at hmatch
    exact h ⟨m, hm, hmatch⟩
  have hrow : ({ id := n.id, deviceId := n.deviceId, catId := n.catId, updateId := n.updateId
                 createdAt := n.createdAt } : Notification) = n := hn.symm
  rw [createNotification, if_neg hany, hrow, write_ok hvalid]
  rfl

end Statements

section Calls

variable {draws : ℕ → Env} {k : ℕ} {row : ClaimedRow} {s : Dispatch} {t : Tables}

/-- A loop of steps that succeed one after another succeeds. -/
theorem forEach_ok {α σ : Type} {f : α → σ → Except Error Unit × σ} {I : List α → σ → Prop}
    {as : List α} {s : σ} (hs : I [] s) (step : ∀ done a s, a ∈ as → I done s →
      ∃ s', f a s = (.ok (), s') ∧ I (done ++ [a]) s') :
    ∃ s', forEach f as s = (.ok (), s') ∧ I as s' := by
  have hall : ∀ rest done s, done ++ rest = as → I done s →
      ∃ s', forEach f rest s = (.ok (), s') ∧ I as s' := by
    intro rest
    induction rest with
    | nil =>
      intro done s hsplit hdone
      rw [List.append_nil] at hsplit
      exact ⟨s, rfl, hsplit ▸ hdone⟩
    | cons a rest ih =>
      intro done s hsplit hdone
      have ha : a ∈ as := by simp [← hsplit]
      obtain ⟨s', hf, hnext⟩ := step done a s ha hdone
      obtain ⟨s'', hrest, hend⟩ := ih (done ++ [a]) s' (by simp [hsplit]) hnext
      refine ⟨s'', ?_, hend⟩
      rw [forEach, hf]
      exact hrest
  exact hall as [] s rfl hs

theorem push_notifies (env : Env) (msg : PushMessage) :
    ∃ s', s.push env msg = (.ok (), s') ∧ s'.drawn = s.drawn ∧
      s'.db.tables.notifications = s.db.tables.notifications ∧
      Notifies (fun _ => false) (fun _ _ => False) s.db.tables s'.db.tables := by
  unfold Dispatch.push
  dsimp only
  split
  · have hwrite : clearDevicePushToken msg.deviceId (some msg.pushToken) s.db =
        .ok ⟨_, clearPushToken_valid s.db.valid⟩ := write_ok _
    rw [hwrite]
    exact ⟨_, rfl, rfl, rfl, notifies_clear _ _⟩
  · exact ⟨_, rfl, rfl, rfl, .refl _⟩

theorem deliver_notifies {rec : Recipient} (hdistinct : Distinct draws)
    (hstands : Stands s.db.tables row)
    (hdevice : ∃ d ∈ s.db.tables.devices, d.id = rec.deviceId)
    (hfresh : Fresh draws k s.drawn s.db.tables) :
    ∃ s', s.deliver (draws k) row rec = (.ok (), s') ∧
      Notifies (fun _ => false) (fun d u => d = rec.deviceId ∧ u = row.updateId)
        s.db.tables s'.db.tables ∧
      Fresh draws k s'.drawn s'.db.tables := by
  by_cases hhas : Has s.db.tables rec.deviceId row.updateId
  · unfold Dispatch.deliver
    rw [createNotification_of_has hhas]
    refine ⟨_, rfl, (Notifies.refl _).congr rfl fun d u => ?_, ?_⟩
    · refine ⟨fun h => .inl (h.resolve_right id), fun h => .inl (h.elim id ?_)⟩
      rintro ⟨rfl, rfl⟩
      exact hhas
    · intro n hn k' i' hlater
      exact hfresh n hn k' i' (hlater.imp_right fun hsame => ⟨hsame.1, by
        have hle := hsame.2
        dsimp only at hle
        omega⟩)
  · have hid : ∀ m ∈ s.db.tables.notifications, m.id ≠ (draws k).uuid s.drawn :=
      fun m hm => hfresh m hm k s.drawn (.inr ⟨rfl, Nat.le_refl _⟩)
    let n : Notification :=
      { id := (draws k).uuid s.drawn, deviceId := rec.deviceId, catId := row.catId
        updateId := row.updateId, createdAt := (draws k).now }
    have hvalid : Valid (insertNotification n s.db.tables) :=
      insertNotification_valid s.db.valid hid hhas hdevice hstands.1 hstands.2
    have hcreate : createNotification ((draws k).uuid s.drawn) rec.deviceId row.catId row.updateId
        (draws k).now s.db = .ok (n, ⟨insertNotification n s.db.tables, hvalid⟩) :=
      createNotification_of_not_has (n := n) rfl hhas hvalid
    have hinserted : Notifies (fun _ => false) (fun d u => d = rec.deviceId ∧ u = row.updateId)
        s.db.tables (insertNotification n s.db.tables) := notifies_insert n _
    have hfresh' : Fresh draws k (s.drawn + 1) (insertNotification n s.db.tables) :=
      hfresh.insert hdistinct rfl
    unfold Dispatch.deliver
    rw [hcreate]
    dsimp only
    split
    · exact ⟨_, rfl, hinserted, hfresh'⟩
    · split
      · exact ⟨_, rfl, hinserted, hfresh'⟩
      · next token _ _ =>
        obtain ⟨s', hpush, hdrawn, hsame, hcleared⟩ := push_notifies (draws k)
          { deviceId := rec.deviceId, pushToken := token, catId := row.catId
            updateId := row.updateId }
          (s := { s with db := ⟨insertNotification n s.db.tables, hvalid⟩, drawn := s.drawn + 1 })
        refine ⟨s', hpush, (hinserted.trans hcleared).congr rfl fun d u => ?_, ?_⟩
        · rw [or_false]
        · rw [hdrawn]
          exact hfresh'.of_notifications hsame

theorem Stands.notifies {ids : UUID → Bool} {pairs : UUID → UUID → Prop} {t' : Tables}
    (h : Stands t row) (hn : Notifies ids pairs t t') : Stands t' row := by
  have hcats : t'.cats = t.cats := by rw [hn.rest]
  have hupdates : t'.updates = t.updates := by rw [hn.rest]
  unfold Stands
  rw [hcats, hupdates]
  exact h

theorem dispatchNeedsHelp_notifies (hdistinct : Distinct draws) (hstands : Stands s.db.tables row)
    (hfresh : Fresh draws k s.drawn s.db.tables) :
    ∃ s', dispatchNeedsHelp (draws k) row s = (.ok (), s') ∧
      Notifies (fun _ => false) (fun d u => u = row.updateId ∧
        ∃ rec ∈ listNeedsHelpRecipientDevices row.catId row.authorUserId s.db, rec.deviceId = d)
        s.db.tables s'.db.tables ∧
      Fresh draws k s'.drawn s'.db.tables := by
  refine forEach_ok (I := fun (done : List Recipient) (s' : Dispatch) =>
    Notifies (fun _ => false) (fun d u => u = row.updateId ∧ ∃ rec ∈ done, rec.deviceId = d)
      s.db.tables s'.db.tables ∧ Fresh draws k s'.drawn s'.db.tables) ⟨?_, hfresh⟩ ?_
  · refine (Notifies.refl _).congr rfl fun d u => ?_
    simp
  · intro done rec s₁ hrec ⟨hdone, hfresh₁⟩
    obtain ⟨f, hf, hfollower, d, hd, huser, hrevoked, hid⟩ :=
      mem_recipients.mp ⟨rec, hrec, rfl⟩
    have hmem : addressless d ∈ s₁.db.tables.devices.map addressless := by
      rw [hdone.devices]
      exact List.mem_map_of_mem hd
    obtain ⟨d', hd', heq⟩ := List.mem_map.mp hmem
    have hid' : (addressless d').id = (addressless d).id := by rw [heq]
    obtain ⟨s₂, hdeliver, hone, hfresh₂⟩ := deliver_notifies hdistinct (hstands.notifies hdone)
      ⟨d', hd', hid'.trans hid⟩ hfresh₁
    refine ⟨s₂, hdeliver, (hdone.trans hone).congr rfl fun d u => ?_, hfresh₂⟩
    refine or_congr_right ⟨?_, ?_⟩
    · rintro (⟨hu, rec', hrec', hid⟩ | ⟨hd, hu⟩)
      · exact ⟨hu, rec', List.mem_append_left _ hrec', hid⟩
      · exact ⟨hu, rec, List.mem_append_right _ (List.mem_singleton.mpr rfl), hd.symm⟩
    · rintro ⟨hu, rec', hrec', hid⟩
      rcases List.mem_append.mp hrec' with hrec' | hrec'
      · exact .inl ⟨hu, rec', hrec', hid⟩
      · exact .inr ⟨(List.mem_singleton.mp hrec' ▸ hid).symm, hu⟩

theorem markProcessed_notifies (env : Env) (row : ClaimedRow) (s : Dispatch) :
    ∃ s', s.markProcessed env row = (.ok (), s') ∧ s'.drawn = s.drawn ∧
      s'.db.tables.notifications = s.db.tables.notifications ∧
      Notifies (fun id => id == row.id) (fun _ _ => False) s.db.tables s'.db.tables := by
  have hwrite : markNotificationOutboxProcessed env.clock row.id s.db =
      .ok ⟨_, processOutbox_valid s.db.valid⟩ := write_ok _
  unfold Dispatch.markProcessed
  rw [hwrite]
  exact ⟨_, rfl, rfl, rfl, notifies_process _ _⟩

/-- A row is stamped, and a device gets a notification if it was due. -/
theorem dispatchRow_notifies (hdistinct : Distinct draws) (hstands : Stands s.db.tables row)
    (hfresh : Fresh draws k s.drawn s.db.tables) :
    ∃ s', dispatchRow (draws k) row s = (.ok (), s') ∧
      Notifies (fun id => id == row.id) (fun d u => u = row.updateId ∧ Due s.db row d)
        s.db.tables s'.db.tables ∧
      Fresh draws k s'.drawn s'.db.tables := by
  unfold dispatchRow
  by_cases hhelp : (row.needsHelp && row.needsHelpEligible) = true
  · obtain ⟨s₁, hdispatch, hsent, hfresh₁⟩ := dispatchNeedsHelp_notifies hdistinct hstands hfresh
    obtain ⟨s₂, hmark, hdrawn, hsame, hmarked⟩ :=
      markProcessed_notifies (draws k) row s₁
    rw [if_pos hhelp, hdispatch]
    refine ⟨s₂, hmark, (hsent.trans hmarked).congr ?_ fun d u => ?_, ?_⟩
    · funext id
      rw [Bool.false_or]
    · rw [or_false, Due]
      refine or_congr_right (and_congr_right fun _ => ?_)
      exact ⟨fun h => ⟨hhelp, h⟩, fun h => h.2⟩
    · rw [hdrawn]
      exact hfresh₁.of_notifications hsame
  · obtain ⟨s₁, hmark, hdrawn, hsame, hmarked⟩ :=
      markProcessed_notifies (draws k) row s
    rw [if_neg hhelp]
    refine ⟨s₁, hmark, hmarked.congr rfl fun d u => or_congr_right ?_, ?_⟩
    · exact ⟨False.elim, fun h => hhelp h.2.1⟩
    · rw [hdrawn]
      exact hfresh.of_notifications hsame

variable {cfg : Config} {w : World}

/-- The rows that a call claims. -/
def batch (cfg : Config) (w : World) : List ClaimedRow :=
  claimNotificationOutboxBatch cfg.batchSize w.db

theorem mem_batch (h : row ∈ batch cfg w) :
    ∃ o ∈ pending w.db.tables, claimedRow w.db.tables.updates o = some row := by
  obtain ⟨o, ho, hclaimed⟩ := List.mem_filterMap.mp (List.mem_of_mem_take h)
  obtain ⟨ho, hpending⟩ := List.mem_filter.mp (mem_orderBy.mp ho)
  refine ⟨o, List.mem_filter.mpr ⟨ho, ?_⟩, hclaimed⟩
  simpa using hpending

theorem claimedRow_eq_some {o : NotificationOutbox} {updates : List Update}
    (h : claimedRow updates o = some row) :
    row.id = o.id ∧ row.updateId = o.updateId ∧ row.catId = o.catId ∧
      ∃ u ∈ updates, u.id = o.updateId := by
  obtain ⟨u, hu, rfl⟩ := Option.map_eq_some_iff.mp h
  exact ⟨rfl, rfl, rfl, u, List.mem_of_find?_eq_some hu, by simpa using List.find?_some hu⟩

/-- Every row of the outbox can be claimed. -/
theorem exists_claimedRow {o : NotificationOutbox} (db : Database)
    (ho : o ∈ db.tables.notificationOutbox) :
    ∃ row, claimedRow db.tables.updates o = some row := by
  obtain ⟨u, hu, hid⟩ := db.valid.holds .notificationOutboxUpdateIdFkey o ho o.updateId rfl
  have hsome : (db.tables.updates.find? fun u => u.id == o.updateId).isSome = true :=
    List.find?_isSome.mpr ⟨u, hu, beq_iff_eq.mpr hid⟩
  obtain ⟨found, hfound⟩ := Option.isSome_iff_exists.mp hsome
  exact ⟨_, Option.map_eq_some_iff.mpr ⟨found, hfound, rfl⟩⟩

theorem batch_stands (h : row ∈ batch cfg w) : Stands w.db.tables row := by
  obtain ⟨o, ho, hclaimed⟩ := mem_batch h
  obtain ⟨-, hupdate, hcat, u, hu, hid⟩ := claimedRow_eq_some hclaimed
  have hmem := (List.mem_filter.mp ho).1
  obtain ⟨c, hc, hcid⟩ := w.db.valid.holds .notificationOutboxCatIdFkey o hmem o.catId rfl
  exact ⟨⟨c, hc, hcid.trans hcat.symm⟩, u, hu, hid.trans hupdate.symm⟩

/-- How far a call has come: these rows are stamped, and whom they owe it is notified. -/
def Progress (draws : ℕ → Env) (k : ℕ) (db : Database) (done : List ClaimedRow) (s : Dispatch) :
    Prop :=
  Notifies (fun id => done.any fun row => row.id == id)
      (fun d u => ∃ row ∈ done, row.updateId = u ∧ Due db row d) db.tables s.db.tables ∧
    Fresh draws k s.drawn s.db.tables

theorem progress_start (hfresh : Fresh draws k 0 w.db.tables) :
    Progress draws k w.db [] { db := w.db } := by
  refine ⟨(Notifies.refl _).congr rfl fun d u => ?_, hfresh⟩
  simp

theorem Progress.dispatchRow {done : List ClaimedRow} (cfg : Config) (hdistinct : Distinct draws)
    (hrow : row ∈ batch cfg w) (h : Progress draws k w.db done s) :
    ∃ s', dispatchRow (draws k) row s = (.ok (), s') ∧
      Progress draws k w.db (done ++ [row]) s' := by
  obtain ⟨hdone, hfresh⟩ := h
  obtain ⟨s', hone, hnotified, hfresh'⟩ :=
    dispatchRow_notifies hdistinct ((batch_stands hrow).notifies hdone) hfresh
  refine ⟨s', hone, (hdone.trans hnotified).congr ?_ fun d u => or_congr_right ?_, hfresh'⟩
  · funext id
    simp [List.any_append, Bool.beq_comm]
  · rw [hdone.due_iff]
    constructor
    · rintro (⟨row', hrow', hu, hdue⟩ | ⟨hu, hdue⟩)
      · exact ⟨row', List.mem_append_left _ hrow', hu, hdue⟩
      · exact ⟨row, List.mem_append_right _ (List.mem_singleton.mpr rfl), hu.symm, hdue⟩
    · rintro ⟨row', hrow', hu, hdue⟩
      rcases List.mem_append.mp hrow' with hrow' | hrow'
      · exact .inl ⟨row', hrow', hu, hdue⟩
      · have heq : row' = row := List.mem_singleton.mp hrow'
        exact .inr ⟨(heq ▸ hu).symm, heq ▸ hdue⟩

/-- A call stamps its batch, and notifies whom the batch owes it. -/
theorem dispatchPending_notifies (cfg : Config) (hdistinct : Distinct draws)
    (hfresh : Fresh draws k 0 w.db.tables) :
    ∃ w', dispatchPending cfg (draws k) w = (.ok (batch cfg w).length, w') ∧
      Notifies (fun id => (batch cfg w).any fun row => row.id == id)
        (fun d u => ∃ row ∈ batch cfg w, row.updateId = u ∧ Due w.db row d)
        w.db.tables w'.db.tables ∧
      Fresh draws (k + 1) 0 w'.db.tables := by
  obtain ⟨s', hrows, hall, hfresh'⟩ := forEach_ok (progress_start hfresh)
    (fun done row s hrow h => Progress.dispatchRow cfg hdistinct hrow h)
  refine ⟨{ w with db := s'.db, sent := w.sent ++ s'.sent }, ?_, hall, hfresh'.next⟩
  unfold dispatchPending
  dsimp only
  rw [batch] at hrows
  rw [hrows]
  rfl

end Calls

section Ticks

variable {draws : ℕ → Env} {k calls : ℕ} {cfg : Config} {w : World}

/-- A batch is empty only if nothing is pending. -/
theorem pending_of_batch (hsize : 0 < cfg.batchSize) (h : batch cfg w = []) :
    pending w.db.tables = [] := by
  have hrows := (List.take_eq_nil_iff.mp h).resolve_left (Nat.ne_of_gt hsize)
  refine List.eq_nil_iff_forall_not_mem.mpr fun o ho => ?_
  obtain ⟨hmem, hnone⟩ := List.mem_filter.mp ho
  obtain ⟨row, hrow⟩ := exists_claimedRow w.db hmem
  have hunclaimed : claimedRow w.db.tables.updates o = none := by
    refine List.filterMap_eq_nil_iff.mp hrows o (mem_orderBy.mpr (List.mem_filter.mpr ⟨hmem, ?_⟩))
    simpa using hnone
  rw [hunclaimed] at hrow
  cases hrow

/-- A row of the batch belongs to a row that is pending, and to no other. -/
theorem mem_batch_iff {o : NotificationOutbox} (ho : o ∈ pending w.db.tables) :
    ((batch cfg w).any fun row => row.id == o.id) = true ↔
      ∃ row ∈ batch cfg w, claimedRow w.db.tables.updates o = some row := by
  rw [List.any_eq_true]
  refine exists_congr fun row => and_congr_right fun hrow => ?_
  obtain ⟨o', ho', hclaimed⟩ := mem_batch hrow
  obtain ⟨hid, -⟩ := claimedRow_eq_some hclaimed
  rw [beq_iff_eq]
  constructor
  · intro heq
    have hsame : o' = o := (w.db.valid.holds .notificationOutboxPkey).eq_of_key_eq
      (List.mem_filter.mp ho').1 (List.mem_filter.mp ho).1
      (congrArg some (hid.symm.trans heq)) (by simp)
    exact hsame ▸ hclaimed
  · intro hclaimed'
    exact (claimedRow_eq_some hclaimed').1

/-- What the first call does and what the calls after it do is what the tick does. -/
theorem notifies_first {w' : World} {t'' : Tables}
    (hfirst : Notifies (fun id => (batch cfg w).any fun row => row.id == id)
      (fun d u => ∃ row ∈ batch cfg w, row.updateId = u ∧ Due w.db row d)
      w.db.tables w'.db.tables)
    (hrest : Notifies (fun id => (pending w'.db.tables).any fun o => o.id == id)
      (fun d u => ∃ o ∈ pending w'.db.tables, o.updateId = u ∧ Owed w'.db o d)
      w'.db.tables t'') :
    Notifies (fun id => (pending w.db.tables).any fun o => o.id == id)
      (fun d u => ∃ o ∈ pending w.db.tables, o.updateId = u ∧ Owed w.db o d)
      w.db.tables t'' := by
  have hpending : ∀ o, o ∈ pending w'.db.tables ↔ o ∈ pending w.db.tables ∧
      ¬ ((batch cfg w).any fun row => row.id == o.id) = true := by
    intro o
    rw [hfirst.pending_eq, List.mem_filter, Bool.not_eq_true', Bool.not_eq_true]
  refine (hfirst.trans hrest).congr ?_ fun d u => or_congr_right ?_
  · funext id
    rw [Bool.eq_iff_iff, Bool.or_eq_true]
    constructor
    · rintro (hbatch | hlater)
      · obtain ⟨row, hrow, hid⟩ := List.any_eq_true.mp hbatch
        obtain ⟨o, ho, hclaimed⟩ := mem_batch hrow
        refine List.any_eq_true.mpr ⟨o, ho, ?_⟩
        rw [← (claimedRow_eq_some hclaimed).1]
        exact hid
      · obtain ⟨o, ho, hid⟩ := List.any_eq_true.mp hlater
        exact List.any_eq_true.mpr ⟨o, ((hpending o).mp ho).1, hid⟩
    · intro hall
      obtain ⟨o, ho, hid⟩ := List.any_eq_true.mp hall
      have heq : o.id = id := eq_of_beq hid
      by_cases hbatch : ((batch cfg w).any fun row => row.id == o.id) = true
      · exact .inl (heq ▸ hbatch)
      · exact .inr (List.any_eq_true.mpr ⟨o, (hpending o).mpr ⟨ho, hbatch⟩, hid⟩)
  · constructor
    · rintro (⟨row, hrow, hu, hdue⟩ | ⟨o, ho, hu, howed⟩)
      · obtain ⟨o, ho, hclaimed⟩ := mem_batch hrow
        exact ⟨o, ho, (claimedRow_eq_some hclaimed).2.1.symm.trans hu, row, hclaimed, hdue⟩
      · exact ⟨o, ((hpending o).mp ho).1, hu, hfirst.owed_iff.mp howed⟩
    · rintro ⟨o, ho, hu, howed⟩
      by_cases hbatch : ((batch cfg w).any fun row => row.id == o.id) = true
      · obtain ⟨row, hrow, hclaimed⟩ := (mem_batch_iff ho).mp hbatch
        obtain ⟨row', hclaimed', hdue⟩ := howed
        obtain rfl : row = row' := Option.some.inj (hclaimed.symm.trans hclaimed')
        exact .inl ⟨row, hrow, (claimedRow_eq_some hclaimed).2.1.trans hu, hdue⟩
      · exact .inr ⟨o, (hpending o).mpr ⟨ho, hbatch⟩, hu, hfirst.owed_iff.mpr howed⟩

/-- A tick that begins with fresh identifiers ends after as many calls as rows are pending and
one more, if not before. Then nothing is pending, and a device has the notifications that it had
and those that it was owed. -/
theorem tick_drains (hsize : 0 < cfg.batchSize) (hdistinct : Distinct draws)
    (hfresh : Fresh draws k 0 w.db.tables) (hcalls : (pending w.db.tables).length < calls) :
    ∃ w', tick cfg draws calls k w = some (.ok (), w') ∧ pending w'.db.tables = [] ∧
      Notifies (fun id => (pending w.db.tables).any fun o => o.id == id)
        (fun d u => ∃ o ∈ pending w.db.tables, o.updateId = u ∧ Owed w.db o d)
        w.db.tables w'.db.tables := by
  induction calls generalizing k w with
  | zero => omega
  | succ calls ih =>
    obtain ⟨w₁, hcall, hfirst, hfresh₁⟩ :=
      dispatchPending_notifies cfg hdistinct hfresh
    rw [tick, hcall]
    cases hbatch : batch cfg w with
    | nil =>
      have hnone : pending w.db.tables = [] := pending_of_batch hsize hbatch
      have hnone₁ : pending w₁.db.tables = [] := by
        rw [hfirst.pending_eq, hnone]
        rfl
      refine ⟨w₁, rfl, hnone₁, notifies_first hfirst ?_⟩
      rw [hnone₁]
      exact (Notifies.refl _).congr rfl fun d u => by simp
    | cons row rows =>
      have hless : (pending w₁.db.tables).length < (pending w.db.tables).length := by
        have hrow : row ∈ batch cfg w := by
          rw [hbatch]
          exact List.mem_cons_self
        obtain ⟨o, ho, hclaimed⟩ := mem_batch hrow
        rw [hfirst.pending_eq, List.length_filter_lt_length_iff_exists]
        refine ⟨o, ho, ?_⟩
        have hstamped := (mem_batch_iff ho).mpr ⟨row, hrow, hclaimed⟩
        simp [hstamped]
      obtain ⟨w', htick, hdrained, hrest⟩ := ih hfresh₁ (by omega)
      exact ⟨w', htick, hdrained, notifies_first hfirst hrest⟩

/-- What a notifier draws that never draws an identifier twice. -/
def pairing (k : ℕ) : Env :=
  { Backend.plainEnv k with uuid := fun i => Nat.pair k i }

theorem pairing_distinct : Distinct pairing :=
  fun _ _ _ _ h => Nat.pair_eq_pair.mp h

/-- A help mark and an ordinary update are pending; the cat has a follower with one device. -/
def twoPending : World where
  db := ⟨{
    users := [{ id := 1, phone := "+905551113311", phoneVerifiedAt := 0 },
      { id := 2, phone := "+905551113322", phoneVerifiedAt := 0 }]
    devices := [{ id := 3, tokenHash := "three", platform := .android, userId := some 1 }]
    cats := [{ id := 5, name := none, area := ⟨41, 29⟩, createdAt := 0 }]
    follows := [{ userId := some 1, catId := 5 }]
    updates := [
      { id := 7, catId := 5, createdAt := 0, seq := 1, authorUserId := some 2 },
      { id := 8, catId := 5, createdAt := 1, seq := 2, authorUserId := some 2, needsHelp := true
        needsHelpExpiresAt := some 100 }]
    notificationOutbox := [
      { id := 9, updateId := 7, catId := 5, createdAt := 0 },
      { id := 10, updateId := 8, catId := 5, needsHelpEligible := true, createdAt := 1 }]
    updatesSeq := 3 }, by decide⟩

/-- Batches of one row. -/
def oneByOne : Config :=
  { Backend.plainConfig with batchSize := 1 }

theorem tick_drains_twoPending : ∃ w', tick oneByOne pairing 3 0 twoPending = some (.ok (), w') ∧
    pending w'.db.tables = [] ∧
    w'.db.tables.notifications.map (fun n => (n.deviceId, n.updateId)) = [(3, 8)] := by
  obtain ⟨w', htick, hdrained, -⟩ := tick_drains (k := 0) (w := twoPending)
    (show 0 < oneByOne.batchSize by decide) pairing_distinct (fun n hn => by cases hn)
    (show (pending twoPending.db.tables).length < 3 by decide)
  have htest : (tick oneByOne pairing 3 0 twoPending).map (fun r =>
      r.2.db.tables.notifications.map fun n => (n.deviceId, n.updateId)) = some [(3, 8)] := by
    decide +kernel
  rw [htick] at htest
  exact ⟨w', htick, hdrained, Option.some.inj htest⟩

end Ticks

end Tekir.NotifierTicks
