import Tekir.AccountRace
import Tekir.ArchiveEffects

/-!
# Linking a device merges what it contributed

The follows and the updates of a device that have no account yet go to the account, and a
follow the account has already is dropped first. Nothing else moves, no statement runs into an
index, and a second link changes nothing.
-/
namespace Tekir.DeviceMerge
open Machine Table Schema Statements AccountQueries UpdateQueries AccountWrites Environment
  AccountServices Backend Integrity ServiceEffects ArchiveEffects
open AccountCalls (Write unowned unauthored)
open AccountRace (Unkeyed)

section Rows

variable {α : Type} [BEq α] [LawfulBEq α] {p : α → Bool} {rows : List α}

/-- A statement on the rows that match is one on the rows it found. -/
theorem deleteWhere_contains :
    deleteWhere (fun r => (rows.filter p).contains r) rows = deleteWhere p rows := by
  apply List.filter_congr
  intro r hr
  simp [hr]

theorem updateWhere_contains {f : α → α} :
    updateWhere (fun r => (rows.filter p).contains r) f rows = updateWhere p f rows := by
  apply List.map_congr_left
  intro r hr
  simp [hr]

end Rows

/-- The cats the account follows. -/
def followed (userId : UUID) (t : Tables) : Set UUID :=
  {c | ∃ f ∈ t.follows, f.userId = some userId ∧ f.catId = c}

/-- The cats of the device's follows without an account. -/
def unclaimed (deviceId : UUID) (t : Tables) : Set UUID :=
  {c | ∃ f ∈ t.follows, unowned deviceId f = true ∧ f.catId = c}

/-- The account owns a follow of the cat already. -/
def redundant (deviceId userId : UUID) (follows : List Follow) (f : Follow) : Bool :=
  unowned deviceId f && follows.any fun owned => owned.catId == f.catId && owned.userId == some userId

/-- What the account has afterwards, and what everybody else keeps. -/
structure Merged (deviceId userId : UUID) (t t' : Tables) : Prop where
  followed : followed userId t' = followed userId t ∪ unclaimed deviceId t
  authored : ∀ v ∈ t.updates, unauthored deviceId v = true →
    { v with authorUserId := some userId } ∈ t'.updates
  keptFollows : ∀ f ∈ t.follows, f.userId ≠ none → f ∈ t'.follows
  keptUpdates : ∀ v ∈ t.updates, v.authorUserId ≠ none → v ∈ t'.updates
  othersFollows : ∀ other ≠ userId, t'.follows.filter (fun f => f.userId == some other) =
    t.follows.filter fun f => f.userId == some other
  othersUpdates : ∀ other ≠ userId, t'.updates.filter (fun v => v.authorUserId == some other) =
    t.updates.filter fun v => v.authorUserId == some other

/-- Every statement of the link commits. -/
def Commits (deviceId userId : UUID) (db db' : Database) : Prop :=
  ∃ device db₁ db₂ db₃, getDeviceByID deviceId db = .ok device ∧
    relink device deviceId userId db = .ok db₁ ∧
    deleteRedundantDeviceFollows deviceId userId db₁ = .ok db₂ ∧
    backfillFollowsUserID userId deviceId db₂ = .ok db₃ ∧
    backfillUpdatesAuthorUserID userId deviceId db₃ = .ok db'

section Statements

variable {db : Database} {t : Tables} {deviceId userId : UUID}

theorem deleteRedundant_ok :
    ∃ db', deleteRedundantDeviceFollows deviceId userId db = .ok db' ∧
      db'.tables = { db.tables with
        follows := deleteWhere (redundant deviceId userId db.tables.follows) db.tables.follows } := by
  have hvalid := droppedFollows_valid db.valid
    (db.tables.follows.filter (redundant deviceId userId db.tables.follows))
  simp only [Write.apply, deleteWhere_contains] at hvalid
  exact ⟨_, write_ok hvalid, rfl⟩

/-- Once the redundant follows are gone, the account follows none of the cats it takes over. -/
theorem backfillFollows_ok (hu : ∃ q ∈ db.tables.users, q.id = userId)
    (hfree : ∀ f ∈ db.tables.follows, redundant deviceId userId db.tables.follows f = false) :
    ∃ db', backfillFollowsUserID userId deviceId db = .ok db' ∧
      db'.tables = { db.tables with
        follows := updateWhere (unowned deviceId) (fun f => { f with userId := some userId })
          db.tables.follows } := by
  have hrows : ∀ f ∈ db.tables.follows.filter (unowned deviceId),
      f ∈ db.tables.follows ∧ unowned deviceId f = true := fun f hf => List.mem_filter.mp hf
  have hvalid := (claimedFollows_valid_iff db.valid hu hrows).mpr (by
    intro f hf g hg howner hcat
    obtain ⟨hf, hunowned⟩ := List.mem_filter.mp hf
    have hnone := hfree f hf
    rw [redundant, hunowned, Bool.true_and] at hnone
    have hdiffers := List.any_eq_false.mp hnone g hg
    simp [hcat, howner] at hdiffers)
  simp only [Write.apply, updateWhere_contains] at hvalid
  exact ⟨_, write_ok hvalid, rfl⟩

theorem backfillUpdates_ok (hu : ∃ q ∈ db.tables.users, q.id = userId)
    (hunkeyed : Unkeyed db.tables) :
    ∃ db', backfillUpdatesAuthorUserID userId deviceId db = .ok db' ∧
      db'.tables = { db.tables with
        updates := updateWhere (unauthored deviceId) (fun v => { v with authorUserId := some userId })
          db.tables.updates } := by
  have hids : ∀ v ∈ db.tables.updates,
      (((db.tables.updates.filter (unauthored deviceId)).map Update.id).contains v.id) =
        unauthored deviceId v := by
    intro v hv
    rw [Bool.eq_iff_iff, List.contains_iff_mem, List.mem_map]
    constructor
    · intro ⟨q, hq, hid⟩
      obtain ⟨hq, hmatch⟩ := List.mem_filter.mp hq
      obtain rfl : q = v :=
        (db.valid.holds .updatesPkey).eq_of_key_eq hq hv (congrArg some hid) (by simp)
      exact hmatch
    · intro hmatch
      exact ⟨v, List.mem_filter.mpr ⟨hv, hmatch⟩, rfl⟩
  have hkeys : ∀ v ∈ db.tables.updates,
      v.id ∈ (db.tables.updates.filter (unauthored deviceId)).map Update.id →
        v.idempotencyKey = none := by
    intro v hv hid
    have hmatch := hids v hv
    rw [List.contains_iff_mem.mpr hid] at hmatch
    simp only [unauthored, Bool.true_eq, Bool.and_eq_true, Option.isNone_iff_eq_none] at hmatch
    exact hunkeyed v hv hmatch.2
  have hvalid := claimedUpdates_valid db.valid hu hkeys
  have hsame : updateWhere (fun v => ((db.tables.updates.filter (unauthored deviceId)).map
      Update.id).contains v.id) (fun v => { v with authorUserId := some userId }) db.tables.updates =
      updateWhere (unauthored deviceId) (fun v => { v with authorUserId := some userId })
        db.tables.updates := by
    apply List.map_congr_left
    intro v hv
    simp only [hids v hv]
  simp only [Write.apply, hsame] at hvalid
  exact ⟨_, write_ok hvalid, rfl⟩

theorem getDevice_ok (hd : ∃ q ∈ db.tables.devices, q.id = deviceId) :
    ∃ device, getDeviceByID deviceId db = .ok device := by
  obtain ⟨device, hdevice, hid⟩ := hd
  unfold getDeviceByID
  cases hrows : db.tables.devices.filter fun q => q.id == deviceId with
  | nil =>
    have hnone := List.filter_eq_nil_iff.mp hrows device hdevice
    simp [hid] at hnone
  | cons q qs => exact ⟨q, rfl⟩

/-- A device that is not somebody else's is the account's afterwards. -/
theorem relink_ok {device : Device} (hu : ∃ q ∈ db.tables.users, q.id = userId)
    (hfound : getDeviceByID deviceId db = .ok device)
    (howner : ∀ owner, device.userId = some owner → owner = userId) :
    ∃ db', relink device deviceId userId db = .ok db' ∧
      (∃ devices, db'.tables = { db.tables with devices }) ∧
      ∃ q ∈ db'.tables.devices, q.id = deviceId ∧ q.userId = some userId := by
  obtain ⟨hmem, hid⟩ := List.mem_filter.mp (one_eq_ok hfound)
  unfold relink
  cases hlinked : device.userId with
  | some owner =>
    obtain rfl := howner owner hlinked
    refine ⟨db, if_pos rfl, ⟨_, rfl⟩, device, hmem, ?_, hlinked⟩
    simpa using hid
  | none =>
    have hvalid := @linked_valid _ userId deviceId db.valid hu
    refine ⟨_, write_ok hvalid, ⟨_, rfl⟩, _, mem_updateWhere.mpr ⟨device, hmem, rfl⟩, ?_⟩
    rw [if_pos hid]
    exact ⟨by simpa using hid, rfl⟩

/-- A device without loose ends is linked to its account as it is. -/
theorem linkDevice_settled {device : Device} (hfound : getDeviceByID deviceId db = .ok device)
    (howner : device.userId = some userId)
    (hfollows : ∀ f ∈ db.tables.follows, unowned deviceId f = false)
    (hupdates : ∀ v ∈ db.tables.updates, unauthored deviceId v = false) :
    linkDevice deviceId userId db = .ok db := by
  have hrelink : relink device deviceId userId db = .ok db := by
    unfold relink
    rw [howner]
    exact if_pos rfl
  have hdrop : deleteRedundantDeviceFollows deviceId userId db = .ok db := by
    have hnone : ∀ f ∈ db.tables.follows, redundant deviceId userId db.tables.follows f = false := by
      intro f hf
      rw [redundant, hfollows f hf, Bool.false_and]
    obtain ⟨db', hok, ht⟩ := @deleteRedundant_ok db deviceId userId
    rw [deleteWhere_eq_self hnone] at ht
    rw [hok, Database.ext ht]
  have hbackfill : backfillFollowsUserID userId deviceId db = .ok db :=
    write_eq_ok.mpr (congrArg (fun follows => { db.tables with follows })
      (updateWhere_eq_self hfollows).symm)
  have hclaim : backfillUpdatesAuthorUserID userId deviceId db = .ok db :=
    write_eq_ok.mpr (congrArg (fun updates => { db.tables with updates })
      (updateWhere_eq_self hupdates).symm)
  exact bind_eq_ok.mpr ⟨device, hfound, bind_eq_ok.mpr ⟨db, hrelink, bind_eq_ok.mpr ⟨db, hdrop,
    bind_eq_ok.mpr ⟨db, hbackfill, hclaim⟩⟩⟩⟩

end Statements

section Merging

variable {t t' : Tables} {deviceId userId : UUID}

theorem unowned_iff {f : Follow} : unowned deviceId f = true ↔
    f.deviceId = some deviceId ∧ f.userId = none := by
  simp [unowned]

theorem redundant_iff {follows : List Follow} {f : Follow} :
    redundant deviceId userId follows f = true ↔ unowned deviceId f = true ∧
      ∃ owned ∈ follows, owned.catId = f.catId ∧ owned.userId = some userId := by
  simp [redundant]

/-- The follows as the link leaves them. -/
def claimedFollows (deviceId userId : UUID) (follows : List Follow) : List Follow :=
  updateWhere (unowned deviceId) (fun f => { f with userId := some userId })
    (deleteWhere (redundant deviceId userId follows) follows)

/-- A follow is left alone, or it had no account and is the account's now. -/
theorem mem_claimedFollows {follows : List Follow} {f : Follow} :
    f ∈ claimedFollows deviceId userId follows ↔
      f ∈ follows ∧ unowned deviceId f = false ∨
      ∃ q ∈ follows, unowned deviceId q = true ∧ redundant deviceId userId follows q = false ∧
        f = { q with userId := some userId } := by
  rw [claimedFollows, mem_updateWhere]
  constructor
  · intro ⟨q, hq, heq⟩
    obtain ⟨hq, hkept⟩ := mem_deleteWhere.mp hq
    cases hunowned : unowned deviceId q with
    | true =>
      rw [hunowned, if_pos rfl] at heq
      exact .inr ⟨q, hq, hunowned, hkept, heq.symm⟩
    | false =>
      rw [hunowned] at heq
      obtain rfl : q = f := heq
      exact .inl ⟨hq, hunowned⟩
  · intro h
    rcases h with ⟨hf, hunowned⟩ | ⟨q, hq, hunowned, hkept, rfl⟩
    · refine ⟨f, mem_deleteWhere.mpr ⟨hf, ?_⟩, by simp [hunowned]⟩
      rw [redundant, hunowned, Bool.false_and]
    · exact ⟨q, mem_deleteWhere.mpr ⟨hq, hkept⟩, by simp [hunowned]⟩

theorem followed_claimed (h : t'.follows = claimedFollows deviceId userId t.follows) :
    followed userId t' = followed userId t ∪ unclaimed deviceId t := by
  ext c
  simp only [followed, unclaimed, Set.mem_ofPred_eq, Set.mem_union, h, mem_claimedFollows]
  constructor
  · intro ⟨f, hf, howner, hcat⟩
    rcases hf with ⟨hf, -⟩ | ⟨q, hq, hunowned, -, rfl⟩
    · exact .inl ⟨f, hf, howner, hcat⟩
    · exact .inr ⟨q, hq, hunowned, hcat⟩
  · intro hc
    rcases hc with ⟨f, hf, howner, hcat⟩ | ⟨q, hq, hunowned, hcat⟩
    · refine ⟨f, .inl ⟨hf, ?_⟩, howner, hcat⟩
      apply Bool.eq_false_iff.mpr
      intro hunowned
      rw [(unowned_iff.mp hunowned).2] at howner
      cases howner
    · cases hredundant : redundant deviceId userId t.follows q with
      | false => exact ⟨_, .inr ⟨q, hq, hunowned, hredundant, rfl⟩, rfl, hcat⟩
      | true =>
        obtain ⟨-, owned, howned, hsame, howner⟩ := redundant_iff.mp hredundant
        refine ⟨owned, .inl ⟨howned, ?_⟩, howner, hsame.trans hcat⟩
        apply Bool.eq_false_iff.mpr
        intro hloose
        rw [(unowned_iff.mp hloose).2] at howner
        cases howner

theorem others_follows {follows : List Follow} {other : UUID} (hne : other ≠ userId) :
    (claimedFollows deviceId userId follows).filter (fun f => f.userId == some other) =
      follows.filter fun f => f.userId == some other := by
  rw [claimedFollows, filter_updateWhere, deleteWhere, List.filter_filter]
  · apply List.filter_congr
    intro f hf
    cases howned : f.userId == some other with
    | false => rfl
    | true =>
      rw [beq_iff_eq] at howned
      simp [redundant, unowned, howned]
  · intro f _ hunowned
    exact ⟨by simp [(unowned_iff.mp hunowned).2], by simpa using Ne.symm hne⟩

theorem merged_of_claimed (hfollows : t'.follows = claimedFollows deviceId userId t.follows)
    (hupdates : t'.updates = updateWhere (unauthored deviceId)
      (fun v => { v with authorUserId := some userId }) t.updates) :
    Merged deviceId userId t t' where
  followed := followed_claimed hfollows
  authored := by
    intro v hv hunauthored
    rw [hupdates]
    exact mem_updateWhere.mpr ⟨v, hv, if_pos hunauthored⟩
  keptFollows := by
    intro f hf howned
    rw [hfollows]
    refine mem_claimedFollows.mpr (.inl ⟨hf, ?_⟩)
    simp [unowned, Option.isNone_eq_false_iff.mpr (Option.isSome_iff_ne_none.mpr howned)]
  keptUpdates := by
    intro v hv howned
    rw [hupdates]
    refine mem_updateWhere.mpr ⟨v, hv, if_neg ?_⟩
    simp [unauthored, Option.isNone_eq_false_iff.mpr (Option.isSome_iff_ne_none.mpr howned)]
  othersFollows := by
    intro other hne
    rw [hfollows]
    exact others_follows hne
  othersUpdates := by
    intro other hne
    rw [hupdates]
    apply filter_updateWhere
    intro v _ hunauthored
    simp only [unauthored, Bool.and_eq_true, Option.isNone_iff_eq_none] at hunauthored
    exact ⟨by simp [hunauthored.2], by simpa using Ne.symm hne⟩

end Merging

section Keys

variable {cfg : Config} {w : World} {r : Request}

/-- No update loses its author, and none without one gets a key. -/
theorem serve_unkeyed (hl : Linked w.db.tables) (h : Unkeyed w.db.tables) :
    Unkeyed (serve cfg r w).db.tables := by
  intro v' hv' hnone
  rcases (serve_rows hl).2 v' hv' with ⟨v, hv, hkept⟩ | ⟨-, hauthor, -⟩
  · obtain ⟨hwas, hkey⟩ := hkept.unauthored hnone
    rw [← hkey]
    exact h v hv hwas
  · exact absurd hnone hauthor

/-- Before the first account no update has a key, which only accounts choose. -/
def Start (w : World) : Prop :=
  Genesis w ∧ Unkeyed w.db.tables

theorem reachable_unkeyed (h : Reachable (next cfg) Start w) : Unkeyed w.db.tables := by
  refine (Reachable.induct (I := fun w => Linked w.db.tables ∧ Unkeyed w.db.tables) ?_ ?_ h).2
  · intro w ⟨hgenesis, hunkeyed⟩
    exact ⟨genesis_linked hgenesis, hunkeyed⟩
  · intro w r w' ⟨hl, hunkeyed⟩ hstep
    obtain ⟨hkey, rfl⟩ := next_eq_some.mp hstep
    exact ⟨serve_linked hkey hl, serve_unkeyed hl hunkeyed⟩

end Keys

section Link

variable {cfg : Config} {w : World} {db db' : Database} {deviceId userId : UUID}

theorem linkDevice_of_commits (h : Commits deviceId userId db db') :
    linkDevice deviceId userId db = .ok db' := by
  obtain ⟨device, db₁, db₂, db₃, hfound, hrelink, hdrop, hbackfill, hclaim⟩ := h
  exact bind_eq_ok.mpr ⟨device, hfound, bind_eq_ok.mpr ⟨db₁, hrelink, bind_eq_ok.mpr ⟨db₂, hdrop,
    bind_eq_ok.mpr ⟨db₃, hbackfill, hclaim⟩⟩⟩⟩

/-- The only refusal is that of a device of another account. -/
theorem owner_of_no_conflict {device : Device} (hfound : getDeviceByID deviceId db = .ok device)
    (h : linkDevice deviceId userId db ≠ .error .deviceLinkedToOtherAccount) :
    ∀ owner, device.userId = some owner → owner = userId := by
  intro owner howner
  by_contra hne
  apply h
  have hrelink : relink device deviceId userId db = .error .deviceLinkedToOtherAccount := by
    unfold relink
    rw [howner]
    exact if_neg hne
  simp only [linkDevice, hfound, hrelink, bind, Except.bind]

/-- The whole link, wherever updates without an author have no key. -/
theorem commits_merged (hunkeyed : Unkeyed db.tables)
    (hd : ∃ q ∈ db.tables.devices, q.id = deviceId) (hu : ∃ q ∈ db.tables.users, q.id = userId)
    (hconflict : linkDevice deviceId userId db ≠ .error .deviceLinkedToOtherAccount) :
    ∃ db', Commits deviceId userId db db' ∧ Merged deviceId userId db.tables db'.tables ∧
      linkDevice deviceId userId db' = .ok db' := by
  obtain ⟨device, hfound⟩ := getDevice_ok hd
  obtain ⟨db₁, hrelink, ⟨devices, ht₁⟩, linked, hlinked, hid, howner⟩ :=
    relink_ok hu hfound (owner_of_no_conflict hfound hconflict)
  obtain ⟨db₂, hdrop, ht₂⟩ := @deleteRedundant_ok db₁ deviceId userId
  have hu₂ : ∃ q ∈ db₂.tables.users, q.id = userId := by
    rw [ht₂, ht₁]
    exact hu
  have hfree : ∀ f ∈ db₂.tables.follows,
      redundant deviceId userId db₂.tables.follows f = false := by
    intro f hf
    rw [ht₂] at hf ⊢
    obtain ⟨hf, hkept⟩ := mem_deleteWhere.mp hf
    apply Bool.eq_false_iff.mpr
    intro hredundant
    obtain ⟨hunowned, owned, howned, hcat, howner⟩ := redundant_iff.mp hredundant
    have hstill := redundant_iff.mpr ⟨hunowned, owned, (mem_deleteWhere.mp howned).1, hcat, howner⟩
    rw [hkept] at hstill
    cases hstill
  obtain ⟨db₃, hbackfill, ht₃⟩ := backfillFollows_ok hu₂ hfree
  have hu₃ : ∃ q ∈ db₃.tables.users, q.id = userId := by
    rw [ht₃]
    exact hu₂
  have hunkeyed₃ : Unkeyed db₃.tables := by
    rw [ht₃, ht₂, ht₁]
    exact hunkeyed
  obtain ⟨db', hclaim, ht⟩ := @backfillUpdates_ok _ deviceId userId hu₃ hunkeyed₃
  have hfollows : db'.tables.follows = claimedFollows deviceId userId db.tables.follows := by
    rw [ht, ht₃, ht₂, ht₁]
    rfl
  have hupdates : db'.tables.updates = updateWhere (unauthored deviceId)
      (fun v => { v with authorUserId := some userId }) db.tables.updates := by
    rw [ht, ht₃, ht₂, ht₁]
  refine ⟨db', ⟨device, db₁, db₂, db₃, hfound, hrelink, hdrop, hbackfill, hclaim⟩,
    merged_of_claimed hfollows hupdates, ?_⟩
  have hdevices : db'.tables.devices = db₁.tables.devices := by
    rw [ht, ht₃, ht₂]
  obtain ⟨again, hagain⟩ := @getDevice_ok db' deviceId ⟨linked, hdevices ▸ hlinked, hid⟩
  obtain ⟨hmem, hsame⟩ := List.mem_filter.mp (one_eq_ok hagain)
  obtain rfl : again = linked := (db'.valid.holds .devicesPkey).eq_of_key_eq hmem
    (hdevices ▸ hlinked) (by simpa [hid] using hsame) (by simp)
  refine linkDevice_settled hagain howner ?_ ?_
  · intro f hf
    rw [hfollows] at hf
    rcases mem_claimedFollows.mp hf with ⟨-, hunowned⟩ | ⟨q, -, -, -, rfl⟩
    · exact hunowned
    · simp [unowned]
  · intro v hv
    rw [hupdates] at hv
    obtain ⟨q, -, rfl⟩ := mem_updateWhere.mp hv
    split
    · simp [unauthored]
    · rename_i hauthored
      exact Bool.eq_false_iff.mpr hauthored

/-- In every reachable state a link that meets no other account commits statement by
statement, merges what the device contributed, and changes nothing the second time. -/
theorem linkDevice_merges (h : Reachable (next cfg) Start w)
    (hd : ∃ q ∈ w.db.tables.devices, q.id = deviceId)
    (hu : ∃ q ∈ w.db.tables.users, q.id = userId)
    (hconflict : linkDevice deviceId userId w.db ≠ .error .deviceLinkedToOtherAccount) :
    ∃ db', Commits deviceId userId w.db db' ∧ linkDevice deviceId userId w.db = .ok db' ∧
      Merged deviceId userId w.db.tables db'.tables ∧
      linkDevice deviceId userId db' = .ok db' := by
  obtain ⟨db', hcommits, hmerged, hagain⟩ :=
    commits_merged (reachable_unkeyed h) hd hu hconflict
  exact ⟨db', hcommits, linkDevice_of_commits hcommits, hmerged, hagain⟩

end Link

/-- From before the accounts: a device that follows two cats and wrote one update. -/
def guestWorld : World where
  db := ⟨{ devices := [{ id := 5, tokenHash := "", platform := .ios }]
           cats := [{ id := 1, name := none, area := ⟨41, 29⟩, createdAt := 0 },
                    { id := 2, name := none, area := ⟨41, 29⟩, createdAt := 0 }]
           follows := [{ deviceId := some 5, catId := 1 }, { deviceId := some 5, catId := 2 }]
           updates := [{ id := 3, catId := 1, createdAt := 0, seq := 0, authorDeviceId := some 5 }] },
    by decide⟩

theorem guestWorld_start : Start guestWorld :=
  ⟨⟨rfl, rfl, rfl, rfl, by simp [guestWorld], rfl, rfl⟩, by simp [Unkeyed, guestWorld]⟩

/-- An account that follows one of the two cats takes the device over. -/
theorem guest_device_merges : ∃ w, Reachable (next plainConfig) Start w ∧
    ∃ db', Commits 5 20 w.db db' ∧ linkDevice 5 20 w.db = .ok db' ∧
      Merged 5 20 w.db.tables db'.tables ∧ linkDevice 5 20 db' = .ok db' := by
  obtain ⟨w, hw, htest⟩ := exists_of_exec_test (next plainConfig) guestWorld
    [⟨plainEnv 1, .register "ios" none⟩, ⟨plainEnv 2, .verifyOTP "5551112233" "" 10⟩,
     ⟨plainEnv 3, .follow (some 1) 20 none⟩]
    (fun w => decide (∃ q ∈ w.db.tables.devices, q.id = 5) &&
      (decide (∃ q ∈ w.db.tables.users, q.id = 20) && (linkDevice 5 20 w.db).isOk))
    (by decide +kernel)
  simp only [Bool.and_eq_true, decide_eq_true_eq] at htest
  have hreach : Reachable (next plainConfig) Start w := ⟨_, _, guestWorld_start, hw⟩
  refine ⟨w, hreach, linkDevice_merges hreach htest.1 htest.2.1 ?_⟩
  intro herror
  rw [herror] at htest
  cases htest.2.2

end Tekir.DeviceMerge
