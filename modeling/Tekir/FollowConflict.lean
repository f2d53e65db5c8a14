import Tekir.Backend

/-!
# Following a cat

`CreateFollow` names the index on (account, cat) as its conflict target, and the
table has a second one on (device, cat). A row of another account, or of no account,
for the presented device therefore makes the insert fail. `follow_works_iff` says
when it does not.
-/
namespace Tekir.FollowConflict
open Machine Table Schema Statements CatQueries UpdateQueries Environment SocialServices Backend

/-- A follows row of the account for the cat. -/
def ownFollow (u cat : UUID) (f : Follow) : Bool :=
  f.userId == some u && f.catId == cat

/-- The call succeeds, leaves one row for the account and the cat, and touches no other row;
both unique indexes hold afterwards. -/
def FollowWorks (cat u : UUID) (device : Option UUID) (w : World) : Prop :=
  ∃ w', follow (some cat) u device w = (.ok (), w') ∧
    (w'.db.tables.follows.filter (ownFollow u cat)).length = 1 ∧
    (w'.db.tables.follows.filter fun f => !ownFollow u cat f) =
      (w.db.tables.follows.filter fun f => !ownFollow u cat f) ∧
    Constraint.followsDeviceCatUq.Holds w'.db.tables ∧
    Constraint.followsUserCatUq.Holds w'.db.tables

/-- No device is presented, or the account follows the cat already, or nobody does on the device. -/
def DeviceFree (cat u : UUID) (device : Option UUID) (follows : List Follow) : Prop :=
  device = none ∨ (∃ f ∈ follows, f.userId = some u ∧ f.catId = cat) ∨
    ∀ f ∈ follows, f.deviceId = device → f.catId ≠ cat

variable {cat u : UUID} {device : Option UUID} {w : World}

private theorem any_ownFollow {follows : List Follow} :
    follows.any (fun f => f.userId == some u && f.catId == cat) = true ↔
      ∃ f ∈ follows, f.userId = some u ∧ f.catId = cat := by
  simp

/-- The row the insert would add meets every constraint. -/
private theorem insert_valid {t : Tables} (ht : Valid t)
    (hu : ∃ row ∈ t.users, row.id = u)
    (hd : ∀ d ∈ device, ∃ row ∈ t.devices, row.id = d)
    (hcat : ∃ row ∈ t.cats, row.id = cat)
    (hown : ¬ ∃ f ∈ t.follows, f.userId = some u ∧ f.catId = cat)
    (hdev : device = none ∨ ∀ f ∈ t.follows, f.deviceId = device → f.catId ≠ cat) :
    Valid (insertFollow { userId := some u, deviceId := device, catId := cat } t) := by
  refine valid_iff.mpr fun c => ?_
  have h := ht.holds c
  cases c
  case followsDeviceCatUq =>
    refine uniqueOn_append_singleton.mpr ⟨h, fun f hf => ?_⟩
    rcases hdev with rfl | hdev
    · cases f.deviceId <;> simp [both]
    · have hne := hdev f hf
      cases hfd : f.deviceId <;> cases device <;> simp_all [both]
  case followsUserCatUq =>
    refine uniqueOn_append_singleton.mpr ⟨h, fun f hf => ?_⟩
    have hne : f.userId = some u → f.catId ≠ cat := fun h₁ h₂ => hown ⟨f, hf, h₁, h₂⟩
    cases hfu : f.userId <;> simp_all [both]
  case followsOwnerCk =>
    intro f hf
    rcases List.mem_append.mp hf with hf | hf
    · exact h f hf
    · rw [List.mem_singleton.mp hf]
      exact .inr (by simp)
  case followsDeviceIdFkey => exact references_append_singleton.mpr ⟨h, hd⟩
  case followsUserIdFkey =>
    exact references_append_singleton.mpr ⟨h, by simpa [insertFollow] using hu⟩
  case followsCatIdFkey =>
    exact references_append_singleton.mpr ⟨h, by simpa [insertFollow] using hcat⟩
  all_goals exact h

/-- A row of somebody else on the same device and cat violates the other index. -/
private theorem insert_violates {t : Tables} {d : UUID}
    (hf : ∃ f ∈ t.follows, f.deviceId = some d ∧ f.catId = cat) :
    ¬ Constraint.followsDeviceCatUq.Holds
      (insertFollow { userId := some u, deviceId := some d, catId := cat } t) := by
  intro h
  obtain ⟨f, hf, hfd, rfl⟩ := hf
  have hne := (uniqueOn_append_singleton.mp h).2 f hf
  simp [both, hfd] at hne

theorem catExists_mem {viewer : Option UUID} {db : Database} (h : catExists cat viewer db = true) :
    ∃ row ∈ db.tables.cats, row.id = cat := by
  obtain ⟨c, hc, hcat⟩ := List.any_eq_true.mp h
  simp only [Bool.and_eq_true, beq_iff_eq] at hcat
  exact ⟨c, hc, hcat.1⟩

private theorem follow_run (hcat : catExists cat (some u) w.db = true) :
    follow (some cat) u device w = w.run (createFollow u device cat w.db) := by
  simp [follow, hcat]

/-- The account's own rows are at most one, whatever the table holds. -/
private theorem own_le_one (db : Database) :
    (db.tables.follows.filter (ownFollow u cat)).length ≤ 1 := by
  refine (db.valid.holds .followsUserCatUq).length_filter_le_one (k := (u, cat)) fun f _ hf => ?_
  simp only [ownFollow, Bool.and_eq_true, beq_iff_eq] at hf
  simp [both, hf.1, hf.2]

private theorem own_eq_one {db : Database} {f : Follow} (hf : f ∈ db.tables.follows)
    (hown : ownFollow u cat f = true) :
    (db.tables.follows.filter (ownFollow u cat)).length = 1 := by
  have hmem : f ∈ db.tables.follows.filter (ownFollow u cat) := List.mem_filter.mpr ⟨hf, hown⟩
  have hpos := List.length_pos_of_mem hmem
  have hle : (db.tables.follows.filter (ownFollow u cat)).length ≤ 1 := own_le_one db
  omega

/-- For a registered account and device and a cat the account may see, following works
precisely if the presented device is free for the cat. -/
theorem follow_works_iff (hu : ∃ row ∈ w.db.tables.users, row.id = u)
    (hd : ∀ d ∈ device, ∃ row ∈ w.db.tables.devices, row.id = d)
    (hcat : catExists cat (some u) w.db = true) :
    FollowWorks cat u device w ↔ DeviceFree cat u device w.db.tables.follows := by
  by_cases hown : ∃ f ∈ w.db.tables.follows, f.userId = some u ∧ f.catId = cat
  · -- the conflict target is hit: nothing is inserted
    have hrun : follow (some cat) u device w = (.ok (), w) := by
      rw [follow_run hcat, createFollow, if_pos (any_ownFollow.mpr hown)]
      rfl
    obtain ⟨f, hf, hfu, hfc⟩ := hown
    have hone : (w.db.tables.follows.filter (ownFollow u cat)).length = 1 :=
      own_eq_one hf (by simp [ownFollow, hfu, hfc])
    exact ⟨fun _ => .inr (.inl ⟨f, hf, hfu, hfc⟩),
      fun _ => ⟨w, hrun, hone, rfl, w.db.valid.holds _, w.db.valid.holds _⟩⟩
  · have hcreate : createFollow u device cat w.db =
        w.db.write (insertFollow { userId := some u, deviceId := device, catId := cat }) := by
      rw [createFollow, if_neg (mt any_ownFollow.mp hown)]
    constructor
    · rintro ⟨w', hw', -⟩
      by_contra hfree
      simp only [DeviceFree, not_or, not_forall] at hfree
      obtain ⟨hsome, -, f, hf, hfd, hfc⟩ := hfree
      obtain ⟨d, rfl⟩ := Option.ne_none_iff_exists'.mp hsome
      obtain ⟨c, hc⟩ := write_error_of_not_holds
        (insert_violates (u := u) ⟨f, hf, hfd, not_not.mp hfc⟩)
      rw [follow_run hcat, hcreate, hc] at hw'
      cases hw'
    · intro hfree
      have hdev : device = none ∨
          ∀ f ∈ w.db.tables.follows, f.deviceId = device → f.catId ≠ cat := by
        rcases hfree with h | h | h
        · exact .inl h
        · exact absurd h hown
        · exact .inr h
      have hvalid := insert_valid w.db.valid hu hd (catExists_mem hcat) hown hdev
      refine ⟨{ w with db := ⟨_, hvalid⟩ }, ?_, ?_, ?_, hvalid.holds _, hvalid.holds _⟩
      · rw [follow_run hcat, hcreate, write_ok hvalid]
        rfl
      · exact own_eq_one (List.mem_append_right _ (List.mem_singleton.mpr rfl))
          (by simp [ownFollow])
      · simp [insertFollow, ownFollow]

/-- The account that used the installation before still has its follow row on the device. -/
def inheritedDevice : List Request :=
  [⟨plainEnv 1, .register "ios" none⟩,
   ⟨plainEnv 2, .verifyOTP "5551112233" "" 10⟩,
   ⟨plainEnv 3, .follow (some 1) 20 (some 10)⟩,
   ⟨plainEnv 4, .logout 20 "2" (some 10)⟩,
   ⟨plainEnv 5, .verifyOTP "5554445566" "" 10⟩]

/-- The second account of an installation cannot follow the cat the first one follows. -/
theorem follow_fails_on_inherited_device : ∃ w, Reaches plainConfig w ∧
    (∃ row ∈ w.db.tables.users, row.id = 50) ∧ (∃ row ∈ w.db.tables.devices, row.id = 10) ∧
    catExists 1 (some 50) w.db = true ∧ ¬ FollowWorks 1 50 (some 10) w := by
  obtain ⟨w, hreach, hp⟩ := exists_reaches_of_test plainConfig seedWorld_genesis
    inheritedDevice
    (fun w => w.db.tables.users.any (fun row => row.id == 50) &&
      w.db.tables.devices.any (fun row => row.id == 10) && catExists 1 (some 50) w.db &&
      !(follow (some 1) 50 (some 10) w).1.isOk) (by decide +kernel)
  simp only [Bool.and_eq_true, List.any_eq_true, beq_iff_eq, Bool.not_eq_true'] at hp
  obtain ⟨⟨⟨hu, hd⟩, hcat⟩, hfail⟩ := hp
  refine ⟨w, hreach, hu, hd, hcat, ?_⟩
  rintro ⟨w', hw', -⟩
  rw [hw'] at hfail
  cases hfail

/-- An account without any row follows the seed cat from no device. -/
theorem follow_works_without_device : ∃ w, Reaches plainConfig w ∧ FollowWorks 1 50 none w := by
  obtain ⟨w, hreach, hp⟩ := exists_reaches_of_test plainConfig seedWorld_genesis
    inheritedDevice
    (fun w => w.db.tables.users.any (fun row => row.id == 50) && catExists 1 (some 50) w.db)
    (by decide +kernel)
  simp only [Bool.and_eq_true, List.any_eq_true, beq_iff_eq] at hp
  exact ⟨w, hreach,
    (follow_works_iff hp.1 (by simp) hp.2).mpr (.inl rfl)⟩

end Tekir.FollowConflict
