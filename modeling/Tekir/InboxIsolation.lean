import Tekir.ServiceEffects

/-!
# Who reads an inbox row

An inbox row stores a device, and `ListMyNotifications` joins it against the account
the device is linked to now. The journal of a run keeps for every stored row the
accounts a dispatch addressed it to. Unlinking leaves the rows of a device in place, so
the next account that verifies on it reads them; `isolated_iff_admitted` says exactly
which runs stay clear of this.
-/
namespace Tekir.InboxIsolation
open Machine Table Schema Statements NotificationQueries Environment AccountServices Backend
  Integrity AsideOperations ServiceEffects

/-- A world and, for its inbox rows, the accounts they were addressed to. -/
structure Journal where
  world : World
  addressed : List (UUID × UUID) := []

def stored (w : World) (id : UUID) : Bool :=
  w.db.tables.notifications.any fun n => n.id == id

/-- The followers of the row's cat its device is linked to. -/
def addressees (t : Tables) (n : Notification) : List UUID :=
  (t.devices.filter fun d => d.id == n.deviceId).filterMap fun d =>
    d.userId.filter fun v => t.follows.any fun f => f.userId == some v && f.catId == n.catId

/-- A dispatch adds the rows it created; an entry goes with its row. -/
def record (op : Op) (w w' : World) (addressed : List (UUID × UUID)) : List (UUID × UUID) :=
  let kept := addressed.filter fun a => stored w' a.1
  match op with
  | .dispatchPending =>
    kept ++ (w'.db.tables.notifications.filter fun n => !stored w n.id).flatMap fun n =>
      (addressees w.db.tables n).map fun v => (n.id, v)
  | _ => kept

def step (cfg : Config) (j : Journal) (r : Request) : Option Journal :=
  (next cfg j.world r).map fun w' => ⟨w', record r.op j.world w' j.addressed⟩

/-- Every row an account lists was addressed to it when it was created. -/
def Isolated (j : Journal) : Prop :=
  ∀ u before limit, ∀ row ∈ listMyNotifications u before limit j.world.db,
    (row.id, u) ∈ j.addressed

/-- A verification that succeeds finds on its device only rows addressed to its account. -/
def Admits (cfg : Config) (j : Journal) (r : Request) : Prop :=
  match r.op with
  | .verifyOTP rawPhone code deviceId =>
    (verifyOTP cfg r.env rawPhone code deviceId j.world).1.isOk = true →
      ∀ phone ∈ (normalizePhone rawPhone).toOption, ∀ n ∈ j.world.db.tables.notifications,
        n.deviceId = deviceId → (n.id, verifiedAccount r.env phone j.world.db) ∈ j.addressed
  | _ => True

instance (cfg : Config) (j : Journal) (r : Request) : Decidable (Admits cfg j r) := by
  unfold Admits
  split <;> infer_instance

variable {cfg : Config} {j j' : Journal} {r : Request}

theorem mem_deviceLinks {devices : List Device} {id v : UUID} :
    (id, some v) ∈ devices.map deviceLinks ↔ ∃ d ∈ devices, d.id = id ∧ d.userId = some v := by
  simp [deviceLinks]

theorem stored_of_mem {w : World} {n : Notification} (h : n ∈ w.db.tables.notifications) :
    stored w n.id = true :=
  List.any_eq_true.mpr ⟨n, h, by simp⟩

/-- A row appears in the list of every account its device is linked to, and in no other. -/
theorem listed_iff {u : UUID} {db : Database} {id : UUID} :
    (∃ before limit, ∃ row ∈ listMyNotifications u before limit db, row.id = id) ↔
      ∃ n ∈ db.tables.notifications, n.id = id ∧
        (n.deviceId, some u) ∈ db.tables.devices.map deviceLinks := by
  have hmine : ∀ n : Notification, (db.tables.devices.any fun d =>
      d.id == n.deviceId && d.userId == some u) = true ↔
        (n.deviceId, some u) ∈ db.tables.devices.map deviceLinks := by
    intro n
    simp [mem_deviceLinks]
  constructor
  · rintro ⟨before, limit, row, hrow, rfl⟩
    obtain ⟨hrow, -⟩ := List.mem_filter.mp (mem_orderBy.mp (List.mem_of_mem_take hrow))
    obtain ⟨n, hn, rfl⟩ := List.mem_map.mp hrow
    obtain ⟨hn, hlink⟩ := List.mem_filter.mp hn
    exact ⟨n, hn, rfl, (hmine n).mp hlink⟩
  · rintro ⟨n, hn, rfl, hlink⟩
    -- the first page, as long as the table
    refine ⟨none, db.tables.notifications.length,
      ⟨n.id, n.catId, n.updateId, n.readAt, n.createdAt⟩,
      ?_, rfl⟩
    unfold listMyNotifications
    rw [List.take_of_length_le]
    · refine mem_orderBy.mpr (List.mem_filter.mpr ⟨List.mem_map.mpr ⟨n, ?_, rfl⟩, rfl⟩)
      exact List.mem_filter.mpr ⟨hn, (hmine n).mpr hlink⟩
    · rw [orderBy, List.length_insertionSort]
      refine (List.length_filter_le _ _).trans ?_
      rw [List.length_map]
      exact List.length_filter_le _ _

theorem isolated_iff : Isolated j ↔ ∀ n ∈ j.world.db.tables.notifications, ∀ v,
    (n.deviceId, some v) ∈ j.world.db.tables.devices.map deviceLinks → (n.id, v) ∈ j.addressed := by
  constructor
  · intro h n hn v hlink
    obtain ⟨before, limit, row, hrow, hid⟩ := listed_iff.mpr ⟨n, hn, rfl, hlink⟩
    exact hid ▸ h v before limit row hrow
  · intro h u before limit row hrow
    obtain ⟨n, hn, hid, hlink⟩ := listed_iff.mp ⟨before, limit, row, hrow, rfl⟩
    exact hid ▸ h n hn u hlink

/-- The entry of a row that is still stored stays. -/
theorem record_kept {op : Op} {w w' : World} {addressed : List (UUID × UUID)} {n : Notification}
    {v : UUID} (h : (n.id, v) ∈ addressed) (hn : n ∈ w'.db.tables.notifications) :
    (n.id, v) ∈ record op w w' addressed := by
  have hkept : (n.id, v) ∈ addressed.filter fun a => stored w' a.1 :=
    List.mem_filter.mpr ⟨h, stored_of_mem hn⟩
  unfold record
  split
  · exact List.mem_append_left _ hkept
  · exact hkept

theorem mem_of_record {op : Op} {w w' : World} {addressed : List (UUID × UUID)} {a : UUID × UUID}
    (hop : op ≠ .dispatchPending) (h : a ∈ record op w w' addressed) : a ∈ addressed := by
  unfold record at h
  split at h
  · exact absurd rfl hop
  · exact (List.mem_filter.mp h).1

theorem step_eq_some : step cfg j r = some j' ↔ FreshKey r.env.objectKey j.world ∧
    j' = ⟨serve cfg r j.world, record r.op j.world (serve cfg r j.world) j.addressed⟩ := by
  unfold step
  constructor
  · intro h
    obtain ⟨w', hw', rfl⟩ := Option.map_eq_some_iff.mp h
    obtain ⟨hfresh, rfl⟩ := next_eq_some.mp hw'
    exact ⟨hfresh, rfl⟩
  · rintro ⟨hfresh, rfl⟩
    rw [next_eq_some.mpr ⟨hfresh, rfl⟩]
    rfl

private theorem isolated_record {w' : World} {op : Op}
    (h : ∀ n ∈ w'.db.tables.notifications, ∀ v,
      (n.deviceId, some v) ∈ w'.db.tables.devices.map deviceLinks →
        (n.id, v) ∈ record op j.world w' j.addressed) :
    Isolated ⟨w', record op j.world w' j.addressed⟩ :=
  isolated_iff.mpr h

/-- A quiet operation shows nobody a row that was not shown before. -/
theorem quiet_isolated {w' : World} {op : Op} (h : Isolated j)
    (hq : Quiet j.world.db.tables w'.db.tables) :
    Isolated ⟨w', record op j.world w' j.addressed⟩ := by
  refine isolated_record fun n' hn' v hv => record_kept ?_ hn'
  obtain ⟨n, hn, heq⟩ := hq.inherits.notifications n' hn'
  simp only [notificationLinks, Prod.mk.injEq] at heq
  obtain ⟨d', hd', hid', hv'⟩ := mem_deviceLinks.mp hv
  obtain ⟨d, hd, hid, hdv⟩ := hq.links d' hd' v hv'
  rw [← heq.1]
  refine isolated_iff.mp h n hn v (mem_deviceLinks.mpr ⟨d, hd, ?_, hdv⟩)
  rw [hid, hid', heq.2.1]

theorem sameInbox_isolated {w' : World} {op : Op} (h : Isolated j)
    (hs : SameInbox j.world.db.tables w'.db.tables) :
    Isolated ⟨w', record op j.world w' j.addressed⟩ := by
  refine isolated_record fun n hn v hv => record_kept ?_ hn
  rw [hs.notifications] at hn
  rw [hs.devices] at hv
  exact isolated_iff.mp h n hn v hv

/-- The rows a dispatch adds are entered for whoever owns their device. -/
theorem dispatch_isolated {w' : World} (h : Isolated j)
    (hd : Dispatched j.world.db.tables w'.db.tables) :
    Isolated ⟨w', record .dispatchPending j.world w' j.addressed⟩ := by
  refine isolated_record fun n hn v hv => ?_
  obtain ⟨new, heq, hnew⟩ := hd.inbox
  have hn' := hn
  rw [hd.devices] at hv
  rw [heq] at hn'
  rcases List.mem_append.mp hn' with hold | hold
  · exact record_kept (isolated_iff.mp h n hold v hv) hn
  · obtain ⟨f, hf, hfv, hfc⟩ := (hnew n hold).2 v hv
    obtain ⟨d, hdmem, hid, hdv⟩ := mem_deviceLinks.mp hv
    have hfresh : stored j.world n.id = false := by
      have huniq := w'.db.valid.holds .notificationsPkey
      simp only [Constraint.Holds, heq, UniqueOn, List.pairwise_append] at huniq
      rw [stored, List.any_eq_false]
      intro m hm
      simpa using huniq.2.2 m hm n hold
    refine List.mem_append_right _ (List.mem_flatMap.mpr ⟨n, ?_, List.mem_map.mpr ⟨v, ?_, rfl⟩⟩)
    · exact List.mem_filter.mpr ⟨hn, by simp [hfresh]⟩
    · refine List.mem_filterMap.mpr ⟨d, List.mem_filter.mpr ⟨hdmem, by simp [hid]⟩, ?_⟩
      rw [hdv, Option.filter_some, if_pos]
      exact List.any_eq_true.mpr ⟨f, hf, by simp [hfv, hfc]⟩

/-- A verification gives the device one account more; it is the account's rows that count. -/
theorem verify_isolated_iff {env : Env} {rawPhone code : String} {deviceId : UUID}
    (h : Isolated j) :
    let r : Request := ⟨env, .verifyOTP rawPhone code deviceId⟩
    Isolated ⟨serve cfg r j.world, record r.op j.world (serve cfg r j.world) j.addressed⟩ ↔
      Admits cfg j r := by
  intro r
  have heffect := (verifyOTP_effect cfg env j.world rawPhone code deviceId).2
  rcases heffect with ⟨hfail, hsame⟩ | ⟨hok, phone, hphone, hlinks⟩
  · refine iff_of_true (sameInbox_isolated h hsame) fun hok => ?_
    rw [hfail] at hok
    cases hok
  · constructor
    · intro hiso _ p hp n hn hdev
      rw [hphone] at hp
      obtain rfl : phone = p := by simpa [Except.toOption] using hp
      obtain ⟨d', hd', hid, hlinked⟩ := hlinks.linked
      refine mem_of_record (w := j.world) (show r.op ≠ .dispatchPending by simp [r])
        (isolated_iff.mp hiso n ?_ _ ?_)
      · exact hlinks.notifications.symm ▸ hn
      · exact mem_deviceLinks.mpr ⟨d', hd', hid.trans hdev.symm, hlinked⟩
    · intro hadm
      have hadm := hadm hok phone (by simp [hphone, Except.toOption])
      refine isolated_record fun n hn v hv => record_kept ?_ hn
      have hn' : n ∈ j.world.db.tables.notifications := hlinks.notifications ▸ hn
      obtain ⟨d', hd', hid', hv'⟩ := mem_deviceLinks.mp hv
      rcases hlinks.links d' hd' v hv' with ⟨d, hd, hid, hdv⟩ | ⟨hid, rfl, -⟩
      · exact isolated_iff.mp h n hn' v (mem_deviceLinks.mpr ⟨d, hd, hid.trans hid', hdv⟩)
      · exact hadm n hn' (hid'.symm.trans hid)

/-- One operation keeps the isolation precisely if it is admitted. -/
theorem step_isolated_iff (hl : Linked j.world.db.tables) (h : Isolated j)
    (hstep : step cfg j r = some j') : Isolated j' ↔ Admits cfg j r := by
  obtain ⟨hfresh, rfl⟩ := step_eq_some.mp hstep
  obtain ⟨env, op⟩ := r
  by_cases haside : isAside op = true
  · refine iff_of_true (quiet_isolated h (serve_aside quiet_aside haside)) ?_
    cases op <;> trivial
  · cases op <;> try exact absurd rfl haside
    case verifyOTP => exact verify_isolated_iff h
    all_goals refine iff_of_true ?_ trivial
    case createCat => exact sameInbox_isolated h (create_effect hfresh).2
    case upload => exact sameInbox_isolated h (upload_effect hfresh).2
    case createOrdinaryUpdate => exact sameInbox_isolated h createOrdinaryUpdate_effect.2
    case createNeedsHelpUpdate => exact sameInbox_isolated h createNeedsHelpUpdate_effect.2
    case correctOwnUpdate => exact quiet_isolated h correctOwnUpdate_quiet
    case deleteOwnUpdate => exact quiet_isolated h deleteOwnUpdate_quiet'
    case setCoverPhoto => exact quiet_isolated h setCoverPhoto_quiet
    case renameCat => exact quiet_isolated h renameCat_quiet
    case deleteCat => exact quiet_isolated h deleteCat_quiet
    case dispatchPending => exact dispatch_isolated h (dispatchPending_dispatched hl)
    case deleteAccount => exact quiet_isolated h delete_quiet

theorem step_linked (hl : Linked j.world.db.tables) (hstep : step cfg j r = some j') :
    Linked j'.world.db.tables := by
  obtain ⟨hfresh, rfl⟩ := step_eq_some.mp hstep
  exact serve_linked hfresh hl

theorem genesis_isolated {w : World} (hw : Genesis w) : Isolated ⟨w, []⟩ := by
  refine isolated_iff.mpr fun n hn => ?_
  rw [hw.notifications] at hn
  cases hn

/-- From a genesis state, a run shows every account only rows addressed to it precisely
if every verification in it is admitted. -/
theorem isolated_iff_admitted {w : World} (hw : Genesis w) (rs : List Request) :
    Always (step cfg) Isolated ⟨w, []⟩ rs ↔ Each (step cfg) (Admits cfg) ⟨w, []⟩ rs :=
  always_iff_each (J := fun j => Linked j.world.db.tables) (fun _ _ _ => step_linked)
    (fun _ _ _ => step_isolated_iff) (genesis_linked hw) (genesis_isolated hw)

/-- Two installations; the account of the first follows the seed cat, for which the account
of the second asks for help. -/
def helpAskedFor : List Request :=
  [⟨plainEnv 1, .register "ios" none⟩,
   ⟨plainEnv 2, .register "ios" none⟩,
   ⟨plainEnv 3, .verifyOTP "5551112233" "" 10⟩,
   ⟨plainEnv 4, .verifyOTP "5554445566" "" 20⟩,
   ⟨plainEnv 5, .follow (some 1) 30 (some 10)⟩,
   ⟨plainEnv 6, .createNeedsHelpUpdate (some 1) 40 (some 20) "food_needed" none⟩,
   ⟨plainEnv 7, .dispatchPending⟩]

/-- The follower logs out and a third account verifies on the same installation. -/
def sharedInstallation : List Request :=
  helpAskedFor ++
    [⟨plainEnv 8, .logout 30 "3" (some 10)⟩, ⟨plainEnv 9, .verifyOTP "5557778899" "" 10⟩]

/-- The follower verifies again on its own installation. -/
theorem isolated_after_relogin : Always (step plainConfig) Isolated ⟨seedWorld, []⟩
    (helpAskedFor ++
      [⟨plainEnv 8, .logout 30 "3" (some 10)⟩, ⟨plainEnv 9, .verifyOTP "5551112233" "" 10⟩]) :=
  (isolated_iff_admitted seedWorld_genesis _).mpr (by decide +kernel)

/-- The third account lists the notification that went to the follower. -/
theorem not_isolated_on_shared_installation :
    ¬ Always (step plainConfig) Isolated ⟨seedWorld, []⟩ sharedInstallation := by
  obtain ⟨j, hj, hp⟩ := exists_of_exec_test (step plainConfig) (⟨seedWorld, []⟩)
    sharedInstallation
    (fun j => (listMyNotifications 90 none 50 j.world.db).any fun row =>
      !j.addressed.contains (row.id, 90)) (by decide +kernel)
  obtain ⟨row, hrow, hnot⟩ := List.any_eq_true.mp hp
  intro h
  have hmem := h.final hj 90 none 50 row hrow
  simp [hmem] at hnot

end Tekir.InboxIsolation
