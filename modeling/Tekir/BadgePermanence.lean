import Tekir.BadgeReference
import Tekir.Freshness

/-!
# Earned badges stay

Badges are computed anew at every read. What is behind a badge by its date are the counted
contributions up to then, so a badge stays as it was reported as long as these stay and none
dated earlier is added.
-/
namespace Tekir.BadgePermanence
open Machine Table Schema Statements AccountQueries CatQueries UpdateQueries DeletionQueries
  Environment AccountServices CatServices SocialServices Backend Integrity ServiceEffects
  UpdateCreation ArchiveEffects Milestones Badges
open BadgeReference (posts)

section Counting

/-- The contribution counts for the badge. -/
def counts (id : BadgeID) (e : ContributionEvent) : Bool :=
  match id with
  | .firstSighting | .neighborhoodWatcher => posts .seen e
  | .feeder => posts .fed e
  | .waterHelper => posts .waterProvided e
  | .catsOfIstanbul => true

/-- A contribution without its help mark, which no badge looks at. -/
def plain (e : ContributionEvent) : ContributionEvent :=
  { e with needsHelp := false, needsHelpCategory := none }

/-- What is behind the badge by a time. -/
def behind (id : BadgeID) (t : Instant) (events : List ContributionEvent) :
    List ContributionEvent :=
  ((until' t events).filter (counts id)).map plain

variable {id : BadgeID} {events events' : List ContributionEvent} {e : ContributionEvent}
  {s : Status} {t T : Instant}

theorem marksOf_silent (h : posts s e = false) :
    (marksOf e).filter (fun m => m.2 == s) = [] := by
  apply List.filter_eq_nil_iff.mpr
  intro m hm hs
  unfold marksOf at hm
  split at hm
  · rename_i hkind
    obtain ⟨s', hs', rfl⟩ := List.mem_map.mp hm
    obtain rfl : s' = s := beq_iff_eq.mp hs
    simp [posts, hkind, hs'] at h
  · cases hm

/-- The marks of one status come from the contributions that carry it. -/
theorem filter_marks : (marks (events.filter (posts s))).filter (fun m => m.2 == s) =
    (marks events).filter fun m => m.2 == s := by
  induction events with
  | nil => rfl
  | cons e events ih =>
    have hmarks : marks (e :: events) = marksOf e ++ marks events := rfl
    cases hposts : posts s e with
    | true =>
      have hfirst : marks (e :: events.filter (posts s)) =
          marksOf e ++ marks (events.filter (posts s)) := rfl
      rw [List.filter_cons_of_pos hposts, hfirst, hmarks, List.filter_append, List.filter_append, ih]
    | false =>
      rw [List.filter_cons_of_neg (by simp [hposts]), hmarks, List.filter_append,
        marksOf_silent hposts, List.nil_append, ih]

theorem score_of_marks {ms ms' : List Mark}
    (h : ms.filter (fun m => m.2 == s) = ms'.filter fun m => m.2 == s) :
    (posted s).score ms = (posted s).score ms' := by
  have hcount : ∀ ms, (posted s).score ms = ms.countP fun m => m.2 == s := fun _ => rfl
  rw [hcount, hcount, List.countP_eq_length_filter, List.countP_eq_length_filter, h]

/-- Only counted contributions are tallied. -/
theorem tally_counted : id.tally (events.filter (counts id)) = id.tally events := by
  cases id with
  | firstSighting => exact score_of_marks filter_marks
  | feeder => exact score_of_marks filter_marks
  | waterHelper => exact score_of_marks filter_marks
  | neighborhoodWatcher =>
    have hseen := @filter_marks events .seen
    exact congrArg (fun ms => ((ms.map fun m : Mark => m.1.catId).toFinset).card) hseen
  | catsOfIstanbul =>
    have hall : events.filter (counts .catsOfIstanbul) = events :=
      List.filter_eq_self.mpr fun _ _ => rfl
    rw [hall]

theorem marks_plain : marks (events.map plain) =
    (marks events).map fun m => (plain m.1, m.2) := by
  induction events with
  | nil => rfl
  | cons e events ih =>
    have hfirst : marksOf (plain e) = (marksOf e).map fun m => (plain m.1, m.2) := by
      unfold marksOf
      have hkind : (plain e).kind = e.kind := rfl
      rw [hkind]
      split
      · rw [List.map_map]
        rfl
      · rfl
    have hmarks : ∀ e events, marks (e :: events) = marksOf e ++ marks events := fun _ _ => rfl
    rw [List.map_cons, hmarks, hmarks, List.map_append, ih, hfirst]

/-- Help marks are not tallied. -/
theorem tally_plain : id.tally (events.map plain) = id.tally events := by
  have hposted : ∀ s, (posted s).score (marks (events.map plain)) = (posted s).score (marks events) := by
    intro s
    have hcount : ∀ ms, (posted s).score ms = ms.countP fun m => m.2 == s := fun _ => rfl
    rw [hcount, hcount, marks_plain, List.countP_map]
    rfl
  cases id with
  | firstSighting => exact hposted .seen
  | feeder => exact hposted .fed
  | waterHelper => exact hposted .waterProvided
  | neighborhoodWatcher =>
    simp only [BadgeID.tally, catsSeen, Gauge.distinct, marks_plain, List.filter_map, List.map_map]
    rfl
  | catsOfIstanbul =>
    simp only [BadgeID.tally, catsHelped, Gauge.distinct, List.filter_map, List.map_map]
    rfl

theorem tally_behind : id.tally (behind id t events) = id.tally (until' t events) := by
  rw [behind, tally_plain, tally_counted]

theorem behind_perm (h : events.Perm events') : (behind id t events).Perm (behind id t events') :=
  ((h.filter _).filter _).map _

/-- The contributions behind the badge by its date stay, and none is added behind an earlier one. -/
theorem shows_kept (h : Shows (badgeProgress events) id T)
    (hkept : (behind id T events).Subperm (behind id T events'))
    (hearlier : ∀ t < T, (behind id t events').Perm (behind id t events)) :
    Shows (badgeProgress events') id T := by
  obtain ⟨hreached, hleast⟩ := shows_badgeProgress.mp h
  obtain ⟨same, hsame, hsub⟩ := hkept
  apply shows_badgeProgress.mpr
  constructor
  · calc id.target ≤ id.tally (until' T events) := hreached
      _ = id.tally (behind id T events) := tally_behind.symm
      _ = id.tally same := (tally_perm hsame).symm
      _ ≤ id.tally (behind id T events') := tally_mono hsub
      _ = id.tally (until' T events') := tally_behind
  · intro t ht
    by_contra hlt
    have hbefore : id.tally (until' t events') = id.tally (until' t events) := by
      rw [← tally_behind, tally_perm (hearlier t (not_le.mp hlt)), tally_behind]
    have hsooner : id.target ≤ id.tally (until' t events) := hbefore ▸ ht
    exact hlt (hleast hsooner)

/-- A badge has the date of a contribution that counts for it. -/
theorem exists_dated (h : Shows (badgeProgress events) id T) :
    ∃ e ∈ events, counts id e = true ∧ e.createdAt = T := by
  obtain ⟨hreached, hleast⟩ := shows_badgeProgress.mp h
  by_contra hnone
  push Not at hnone
  have hsame : behind id (T - 1) events = behind id T events := by
    unfold behind until' Gauge.upTo
    rw [List.filter_filter, List.filter_filter]
    congr 1
    apply List.filter_congr
    intro e he
    cases hcounts : counts id e with
    | false => simp
    | true =>
      have hdate := hnone e he hcounts
      simp only [Bool.true_and, decide_eq_decide]
      exact Int.le_sub_one_iff.trans ⟨le_of_lt, fun hle => lt_of_le_of_ne hle hdate⟩
  have hsooner : id.target ≤ id.tally (until' (T - 1) events) := by
    rw [← tally_behind, hsame, tally_behind]
    exact hreached
  exact (Int.le_sub_one_iff.mp (hleast hsooner)).false

end Counting

section Entries

/-- A contribution as the archive holds it, whoever it belongs to. -/
structure Entry where
  author : Option UUID
  live : Bool
  event : ContributionEvent

def eventOf (v : Update) (statuses : List Status) : ContributionEvent :=
  match v.kind with
  | .ordinary => ordinaryEvent (v, statuses)
  | .needsHelp => needsHelpEvent v

def updateEntry (v : Update) (statuses : List Status) : Entry :=
  ⟨v.authorUserId, v.deletedAt.isNone, plain (eventOf v statuses)⟩

def catEntry (c : Cat) : Entry :=
  ⟨c.createdByUserId, true, catEvent c⟩

def updateEntries (db : Database) : List Entry :=
  db.tables.updates.map fun v => updateEntry v (listUpdateStatuses v.id db)

def entries (db : Database) : List Entry :=
  updateEntries db ++ db.tables.cats.map catEntry

/-- The entry is behind the account's badge at a time. -/
def backs (id : BadgeID) (u : UUID) (t : Instant) (e : Entry) : Bool :=
  e.author == some u && e.live && counts id e.event && decide (e.event.createdAt ≤ t)

variable {id : BadgeID} {u : UUID} {t : Instant} {db : Database}

theorem counts_plain {e : ContributionEvent} : counts id (plain e) = counts id e := by
  cases id <;> rfl

theorem orderBy_perm {α : Type} (le : α → α → Bool) (rows : List α) : (orderBy le rows).Perm rows :=
  List.perm_insertionSort _ _

theorem listed_perm : ((listUserOrdinaryUpdatesForBadges u db).map ordinaryEvent ++
    (listUserNeedsHelpUpdatesForBadges u db).map needsHelpEvent).Perm
      ((db.tables.updates.filter fun v => v.authorUserId == some u && v.deletedAt.isNone).map
        fun v => eventOf v (listUpdateStatuses v.id db)) := by
  have hordinary : ((listUserOrdinaryUpdatesForBadges u db).map ordinaryEvent).Perm
      (((db.tables.updates.filter fun v => v.authorUserId == some u && v.deletedAt.isNone).filter
        fun v => v.kind == .ordinary).map fun v => eventOf v (listUpdateStatuses v.id db)) := by
    rw [listUserOrdinaryUpdatesForBadges, List.map_map]
    refine ((orderBy_perm _ _).map _).trans (List.Perm.of_eq ?_)
    rw [List.filter_filter]
    have hrows : (db.tables.updates.filter fun v =>
        v.authorUserId == some u && v.kind == .ordinary && v.deletedAt.isNone) =
        db.tables.updates.filter fun v =>
          v.kind == .ordinary && (v.authorUserId == some u && v.deletedAt.isNone) := by
      apply List.filter_congr
      intro v _
      rw [Bool.and_comm (v.authorUserId == some u), Bool.and_assoc]
    rw [hrows]
    apply List.map_congr_left
    intro v hv
    obtain ⟨hkind, -⟩ := Bool.and_eq_true_iff.mp (List.mem_filter.mp hv).2
    simp only [Function.comp_apply, eventOf, beq_iff_eq.mp hkind]
  have hhelp : ((listUserNeedsHelpUpdatesForBadges u db).map needsHelpEvent).Perm
      (((db.tables.updates.filter fun v => v.authorUserId == some u && v.deletedAt.isNone).filter
        fun v => !(v.kind == .ordinary)).map fun v => eventOf v (listUpdateStatuses v.id db)) := by
    refine ((orderBy_perm _ _).map _).trans (List.Perm.of_eq ?_)
    rw [List.filter_filter]
    have hrows : (db.tables.updates.filter fun v =>
        v.authorUserId == some u && v.kind == .needsHelp && v.deletedAt.isNone) =
        db.tables.updates.filter fun v =>
          !(v.kind == .ordinary) && (v.authorUserId == some u && v.deletedAt.isNone) := by
      apply List.filter_congr
      intro v _
      cases v.kind with
      | ordinary => simp
      | needsHelp => simp
    rw [hrows]
    apply List.map_congr_left
    intro v hv
    obtain ⟨hkind, -⟩ := Bool.and_eq_true_iff.mp (List.mem_filter.mp hv).2
    cases hv : v.kind with
    | ordinary => simp [hv] at hkind
    | needsHelp => simp only [eventOf, hv]
  refine (hordinary.append hhelp).trans ?_
  rw [← List.map_append]
  exact (List.filter_append_perm _ _).map _

theorem gathered_perm : (gatherContributions u db).Perm
    ((db.tables.updates.filter fun v => v.authorUserId == some u && v.deletedAt.isNone).map
        (fun v => eventOf v (listUpdateStatuses v.id db)) ++
      (db.tables.cats.filter fun c => c.createdByUserId == some u).map catEvent) :=
  listed_perm.append ((orderBy_perm _ _).map _)

/-- What is behind a badge are the entries of its account that back it. -/
theorem behind_gathered : (behind id t (gatherContributions u db)).Perm
    (((entries db).filter (backs id u t)).map Entry.event) := by
  refine (behind_perm gathered_perm).trans (List.Perm.of_eq ?_)
  unfold behind until' Gauge.upTo entries updateEntries
  rw [List.filter_append, List.filter_append, List.map_append, List.filter_append, List.map_append]
  congr 1
  · simp only [List.filter_map, List.filter_filter, List.map_map]
    congr 1
    apply List.filter_congr
    intro v _
    simp only [Function.comp_apply, backs, updateEntry]
    rw [counts_plain, Bool.and_comm, Bool.and_assoc, Bool.and_comm (decide _)]
    rfl
  · simp only [List.filter_map, List.filter_filter, List.map_map]
    congr 1
    apply List.filter_congr
    intro c _
    simp only [Function.comp_apply, backs, catEntry]
    rw [Bool.and_comm, Bool.and_assoc, Bool.and_comm (decide _), Bool.and_true]
    rfl

end Entries

section Steps

def dated (T : Instant) (e : Entry) : Bool :=
  decide (e.event.createdAt ≤ T)

/-- What is dated up to a time stands as it stood. -/
def Stands (T : Instant) (db db' : Database) : Prop :=
  (entries db').filter (dated T) = (entries db).filter (dated T)

/-- The account keeps what is behind a badge by its date, and gains nothing dated earlier. -/
structure Lasts (id : BadgeID) (u : UUID) (T : Instant) (db db' : Database) : Prop where
  kept : ((entries db).filter (backs id u T)).Sublist ((entries db').filter (backs id u T))
  earlier : ∀ t < T, (entries db').filter (backs id u t) = (entries db).filter (backs id u t)

variable {cfg : Config} {env : Env} {w : World} {id : BadgeID} {u : UUID} {t T : Instant}
  {db db' : Database}

theorem Lasts.shows (h : Lasts id u T db db') (hshows : Shows (getBadges u db) id T) :
    Shows (getBadges u db') id T := by
  refine shows_kept hshows ?_ fun t ht => ?_
  · have hkept := (h.kept.map Entry.event).subperm
    exact (behind_gathered.subperm_right.mpr hkept).trans behind_gathered.symm.subperm
  · have hrows : (((entries db').filter (backs id u t)).map Entry.event).Perm
        (((entries db).filter (backs id u t)).map Entry.event) :=
      List.Perm.of_eq (congrArg _ (h.earlier t ht))
    exact behind_gathered.trans (hrows.trans behind_gathered.symm)

theorem Stands.filter (h : Stands T db db') (ht : t ≤ T) :
    (entries db').filter (backs id u t) = (entries db).filter (backs id u t) := by
  have hdated : ∀ es : List Entry,
      es.filter (backs id u t) = (es.filter (dated T)).filter (backs id u t) := by
    intro es
    rw [List.filter_filter]
    apply List.filter_congr
    intro e _
    cases hbacks : backs id u t e with
    | false => rfl
    | true =>
      simp only [backs, Bool.and_eq_true, decide_eq_true_eq] at hbacks
      simp [dated, hbacks.2.trans ht]
  rw [hdated, hdated (entries db), h]

theorem Stands.lasts (h : Stands T db db') : Lasts id u T db db' :=
  ⟨(h.filter le_rfl).symm ▸ List.Sublist.refl _, fun _ ht => h.filter ht.le⟩

theorem updateEntry_face {v : Update} {statuses : List Status} :
    updateEntry (face v) statuses = updateEntry v statuses := by
  simp only [updateEntry, eventOf, face, plain, ordinaryEvent, needsHelpEvent]
  cases v.kind <;> rfl

theorem filter_catEntry {cats : List Cat} :
    (cats.filter fun c => decide (c.createdAt ≤ T)).map catEntry =
      (cats.map catEntry).filter (dated T) := by
  rw [List.filter_map]
  rfl

/-- Rows that keep their faces and their statuses stand. -/
theorem stands_of_rows
    (hupdates : (db'.tables.updates.filter fun v => decide (v.createdAt ≤ T)).map face =
      (db.tables.updates.filter fun v => decide (v.createdAt ≤ T)).map face)
    (hstatuses : ∀ v ∈ db.tables.updates, v.createdAt ≤ T →
      listUpdateStatuses v.id db' = listUpdateStatuses v.id db)
    (hcats : (db'.tables.cats.filter fun c => decide (c.createdAt ≤ T)).map catEntry =
      (db.tables.cats.filter fun c => decide (c.createdAt ≤ T)).map catEntry) :
    Stands T db db' := by
  have hold : ∀ db, (updateEntries db).filter (dated T) =
      ((db.tables.updates.filter fun v => decide (v.createdAt ≤ T)).map face).map
        fun v => updateEntry v (listUpdateStatuses v.id db) := by
    intro db
    rw [updateEntries, List.filter_map, List.map_map]
    have hrows : (db.tables.updates.filter (dated T ∘ fun v =>
        updateEntry v (listUpdateStatuses v.id db))) =
        db.tables.updates.filter fun v => decide (v.createdAt ≤ T) := by
      apply List.filter_congr
      intro v _
      simp only [Function.comp_apply, dated, updateEntry, eventOf, plain, ordinaryEvent,
        needsHelpEvent]
      cases v.kind <;> rfl
    rw [hrows]
    apply List.map_congr_left
    intro v _
    exact updateEntry_face.symm
  unfold Stands entries
  rw [List.filter_append, List.filter_append, hold, hold, ← filter_catEntry, ← filter_catEntry,
    hupdates, hcats]
  congr 1
  apply List.map_congr_left
  intro v' hv'
  obtain ⟨v, hv, rfl⟩ := List.mem_map.mp hv'
  obtain ⟨hv, hdate⟩ := List.mem_filter.mp hv
  exact congrArg (updateEntry (face v)) (hstatuses v hv (of_decide_eq_true hdate))

theorem stands_of_faces (h : SameFaces db.tables db'.tables)
    (hstatuses : ∀ v ∈ db.tables.updates, v.createdAt ≤ T →
      listUpdateStatuses v.id db' = listUpdateStatuses v.id db) : Stands T db db' := by
  have hold : ∀ rows : List Update, (rows.filter fun v => decide (v.createdAt ≤ T)).map face =
      (rows.map face).filter fun v => decide (v.createdAt ≤ T) := by
    intro rows
    rw [List.filter_map]
    rfl
  have hcats : ∀ rows : List Cat, (rows.filter fun c => decide (c.createdAt ≤ T)).map catEntry =
      ((rows.map catFace).filter fun c => decide (c.createdAt ≤ T)).map catEntry := by
    intro rows
    rw [List.filter_map, List.map_map]
    rfl
  refine stands_of_rows ?_ hstatuses ?_
  · rw [hold, hold, h.updates]
  · rw [hcats db'.tables.cats, h.cats]
    exact (hcats _).symm

theorem same_statuses (h : SameStatuses db.tables db'.tables) (x : UUID) :
    listUpdateStatuses x db' = listUpdateStatuses x db := by
  unfold listUpdateStatuses
  rw [h]

/-- The statuses of one update are written without a look at the others. -/
theorem createStatuses_others {x y : UUID} {statuses : List Status}
    (h : statuses.foldlM (fun db status => createUpdateStatus y status db) db = .ok db')
    (hne : x ≠ y) : listUpdateStatuses x db' = listUpdateStatuses x db := by
  induction statuses generalizing db with
  | nil =>
    cases h
    rfl
  | cons status statuses ih =>
    rw [List.foldlM_cons] at h
    obtain ⟨db₁, hcreate, h⟩ := bind_eq_ok.mp h
    rw [ih h]
    unfold createUpdateStatus at hcreate
    split at hcreate
    · cases hcreate
      rfl
    · unfold listUpdateStatuses
      rw [write_eq_ok.mp hcreate]
      simp [Ne.symm hne]

theorem replaceStatuses_others {x y : UUID} {statuses : List Status}
    (h : Store.replaceStatuses y statuses db = .ok db') (hne : x ≠ y) :
    listUpdateStatuses x db' = listUpdateStatuses x db := by
  obtain ⟨db₁, hwrite, h⟩ := bind_eq_ok.mp h
  rw [createStatuses_others h hne]
  unfold listUpdateStatuses
  rw [write_eq_ok.mp hwrite, deleteWhere, List.filter_filter]
  congr 2
  apply List.filter_congr
  intro s _
  by_cases hs : s.updateId = x <;> simp [hs, hne]

/-- A correction names its update, and writes nothing once the window is closed. -/
theorem prepareCorrection_eq_ok {catId updateId : Option UUID} {userId : UUID}
    {correction : UpdateCorrection} {params : Store.CorrectOwnUpdateParams}
    (h : prepareCorrection env catId updateId userId correction = .ok params) :
    params.windowStart = env.clock - updateCorrectionWindow := by
  unfold prepareCorrection at h
  split at h
  · cases h
  · cases h
  · obtain ⟨statuses, -, h⟩ := bind_eq_ok.mp h
    obtain ⟨_, -, h⟩ := bind_eq_ok.mp h
    cases h
    rfl

theorem correctOwnUpdate_statuses {catId updateId : Option UUID} {userId : UUID}
    {correction : UpdateCorrection} {v : Update} (hv : v ∈ w.db.tables.updates)
    (hclosed : v.createdAt ≤ env.clock - updateCorrectionWindow) :
    listUpdateStatuses v.id
      (CatServices.correctOwnUpdate env catId updateId userId correction w).2.db =
        listUpdateStatuses v.id w.db := by
  unfold CatServices.correctOwnUpdate
  split
  · rfl
  · rename_i params hparams
    split
    · rename_i row statuses db' h
      obtain ⟨⟨row', db₁⟩, hcorrect, h⟩ := bind_eq_ok.mp h
      obtain ⟨old, hold, hcorrect⟩ := bind_eq_ok.mp hcorrect
      obtain ⟨db₂, hwrite, hcorrect⟩ := bind_eq_ok.mp hcorrect
      cases hcorrect
      obtain ⟨hold, hadmits⟩ := List.mem_filter.mp (one_eq_ok hold)
      simp only [CorrectOrdinaryUpdateParams.matches, Store.CorrectOwnUpdateParams.row,
        prepareCorrection_eq_ok hparams, Bool.and_eq_true, beq_iff_eq, decide_eq_true_eq] at hadmits
      obtain ⟨⟨⟨⟨⟨⟨hid, -⟩, -⟩, -⟩, -⟩, hopen⟩, -⟩ := hadmits
      have hne : v.id ≠ params.id := by
        intro heq
        have hsame : v = old := (w.db.valid.holds .updatesPkey).eq_of_key_eq hv hold
          (congrArg some (heq.trans hid.symm)) (by simp)
        rw [hsame] at hclosed
        exact absurd hopen (not_lt.mpr hclosed)
      have hrow : listUpdateStatuses v.id db₁ = listUpdateStatuses v.id w.db := by
        unfold listUpdateStatuses
        rw [write_eq_ok.mp hwrite]
      dsimp only at h
      split at h
      · obtain ⟨db₃, hreplace, h⟩ := bind_eq_ok.mp h
        cases h
        exact (replaceStatuses_others hreplace hne).trans hrow
      · cases h
        exact hrow
    · split <;> rfl
    · rfl

theorem stands_of_created {userId : UUID} {w' : World}
    (h : w'.db = w.db ∨ ∃ arg, Written env userId arg w w')
    (hfresh : FreshId (env.uuid 0) w.db.tables) (hclock : T < env.clock) :
    Stands T w.db w'.db := by
  rcases h with hsame | ⟨arg, hwritten⟩
  · rw [hsame]
    rfl
  · have hcreated := hwritten.created hfresh
    refine stands_of_rows ?_ (fun v hv _ => ?_) ?_
    · have hlate : decide ((arg.row.insert w.db.tables.updatesSeq).createdAt ≤ T) = false := by
        rw [insert_createdAt, hwritten.createdAt]
        exact decide_eq_false (not_le.mpr hclock)
      rw [hcreated.updates, List.filter_append, List.filter_cons, hlate]
      simp
    · have hne : arg.id ≠ v.id := by
        rw [hwritten.id]
        exact fun heq => hfresh v hv heq.symm
      unfold listUpdateStatuses
      rw [hcreated.statuses, List.filter_append]
      have hnone : (arg.statuses.map fun status => ({ updateId := arg.id, status } : UpdateStatus)).filter
          (fun s => s.updateId == v.id) = [] := by
        apply List.filter_eq_nil_iff.mpr
        intro s hs
        obtain ⟨status, -, rfl⟩ := List.mem_map.mp hs
        simpa using hne
      rw [hnone, List.append_nil]
    · rw [filter_catEntry, filter_catEntry, hcreated.cats, touched, map_updateWhere]
      exact fun _ => rfl

/-- Apart from sign-ins and account deletions, what is dated before the window stands. -/
theorem serve_stands {r : Request} (hfresh : FreshId (r.env.uuid 0) w.db.tables)
    (hclock : T + updateCorrectionWindow ≤ r.env.clock) (hnow : T < r.env.now)
    (hverify : ∀ phone code deviceId, r.op ≠ .verifyOTP phone code deviceId)
    (hdelete : ∀ a, r.op ≠ .deleteAccount a) : Stands T w.db (serve cfg r w).db := by
  obtain ⟨env, op⟩ := r
  have hlater : T < env.clock := by
    have hwindow : (0 : ℤ) < updateCorrectionWindow := by decide
    exact (Int.lt_add_of_pos_right T hwindow).trans_le hclock
  by_cases haside : AsideOperations.isAside op = true
  · exact stands_of_faces (AsideOperations.serve_aside untouched_aside haside).faces
      fun v _ _ => same_statuses (AsideOperations.serve_aside statuses_aside haside) v.id
  · cases op <;> try exact absurd rfl haside
    case verifyOTP phone code deviceId => exact absurd rfl (hverify phone code deviceId)
    case deleteAccount a => exact absurd rfl (hdelete a)
    case createCat req =>
      obtain ⟨hstatuses, h | ⟨cat, photo, hdate, h⟩⟩ := @ArchiveEffects.create_effect cfg env w req
      · exact stands_of_faces h.faces fun v _ _ => same_statuses hstatuses v.id
      · refine stands_of_rows ?_ (fun v _ _ => same_statuses hstatuses v.id) ?_
        · exact congrArg (fun rows => (rows.filter fun v : Update => decide (v.createdAt ≤ T)).map face)
            h.updates
        · have hlate : decide (cat.createdAt ≤ T) = false :=
            decide_eq_false (hdate ▸ not_le.mpr hnow)
          refine (congrArg (fun rows => (rows.filter fun c : Cat => decide (c.createdAt ≤ T)).map
            catEntry) h.cats).trans ?_
          simp [List.filter_append, hlate]
    case upload =>
      exact stands_of_faces (upload_outward untouched_outward).faces
        fun v _ _ => same_statuses (upload_outward statuses_outward) v.id
    case createOrdinaryUpdate => exact stands_of_created createOrdinaryUpdate_db hfresh hlater
    case createNeedsHelpUpdate => exact stands_of_created createNeedsHelpUpdate_db hfresh hlater
    case correctOwnUpdate =>
      refine stands_of_faces correctOwnUpdate_faces fun v hv hdate => ?_
      exact correctOwnUpdate_statuses hv (hdate.trans (Int.le_sub_right_of_add_le hclock))
    case deleteOwnUpdate catId updateId userId =>
      cases catId with
      | none => exact rfl
      | some catId =>
        cases updateId with
        | none => exact rfl
        | some updateId =>
          obtain ⟨hstatuses, h⟩ := @deleteOwnUpdate_effect env w catId updateId userId
          refine stands_of_rows ?_ (fun v _ _ => same_statuses hstatuses v.id) ?_
          · refine congrArg (List.map face) ((congrArg _ h.updates).trans (filter_updateWhere ?_))
            intro v _ hadmits
            -- the window is still open for a row the statement admits
            simp only [Corrections.admits, ownDeletion, Bool.and_eq_true] at hadmits
            have hopen : T < v.createdAt :=
              (Int.le_sub_right_of_add_le hclock).trans_lt (of_decide_eq_true hadmits.1.2)
            exact ⟨decide_eq_false (not_le.mpr hopen), decide_eq_false (not_le.mpr hopen)⟩
          · exact congrArg (fun rows => (rows.filter fun c : Cat => decide (c.createdAt ≤ T)).map
              catEntry) h.cats
    case setCoverPhoto =>
      exact stands_of_faces setCoverPhoto_faces.1 fun v _ _ => same_statuses setCoverPhoto_faces.2 v.id
    case renameCat =>
      exact stands_of_faces renameCat_faces.1 fun v _ _ => same_statuses renameCat_faces.2 v.id
    case deleteCat cat caller =>
      obtain ⟨hstatuses, p, h⟩ := @deleteCat_effect w cat caller
      refine stands_of_rows ?_ (fun v _ _ => same_statuses hstatuses v.id) ?_
      · exact congrArg (fun rows => (rows.filter fun v : Update => decide (v.createdAt ≤ T)).map face)
          h.updates
      · refine (congrArg (fun rows => (rows.filter fun c : Cat => decide (c.createdAt ≤ T)).map
          catEntry) h.cats).trans ?_
        rw [filter_catEntry, filter_catEntry, map_updateWhere]
        exact fun _ => rfl
    case dispatchPending =>
      exact stands_of_faces (dispatchPending_outward untouched_outward).faces
        fun v _ _ => same_statuses (dispatchPending_outward statuses_outward) v.id

end Steps

section Runs

/-- The update counts for the badge, whoever wrote it. -/
def countsFor (id : BadgeID) (db : Database) (v : Update) : Bool :=
  v.deletedAt.isNone && counts id (eventOf v (listUpdateStatuses v.id db))

/-- The account that a request signs in on the device. -/
def signsIn (cfg : Config) (w : World) (r : Request) (deviceId : UUID) : Option UUID :=
  match r.op with
  | .verifyOTP phone code device =>
    if device = deviceId then
      (verifyOTP cfg r.env phone code deviceId w).1.toOption.map Session.userId
    else none
  | _ => none

/-- The request takes no counted contribution of the account that is dated up to the badge's date
with another account, and signs the account in on no device with an older one. -/
structure Spares (cfg : Config) (id : BadgeID) (u : UUID) (T : Instant) (w : World) (r : Request) :
    Prop where
  taken : ∀ v ∈ w.db.tables.updates, v.authorUserId = some u → v.createdAt ≤ T →
    countsFor id w.db v = true → removes r w.db v = false
  brought : ∀ v ∈ w.db.tables.updates, v.authorUserId = none → v.createdAt < T →
    countsFor id w.db v = true → ∀ d ∈ v.authorDeviceId, signsIn cfg w r d ≠ some u

variable {cfg : Config} {w : World} {r : Request} {id : BadgeID} {u : UUID} {t T : Instant}

theorem backs_update {v : Update} {statuses : List Status} :
    backs id u t (updateEntry v statuses) = true ↔ v.authorUserId = some u ∧
      (v.deletedAt.isNone && counts id (eventOf v statuses)) = true ∧ v.createdAt ≤ t := by
  have hdate : (updateEntry v statuses).event.createdAt = v.createdAt := by
    simp only [updateEntry, eventOf, plain, ordinaryEvent, needsHelpEvent]
    cases v.kind <;> rfl
  simp only [backs, hdate, Bool.and_eq_true, beq_iff_eq, decide_eq_true_eq]
  simp only [updateEntry, counts_plain, and_assoc]

/-- A sign-in only adds to the account, and nothing that is older than the badge. -/
theorem verify_lasts {env : Env} {phone code : String} {deviceId : UUID}
    (hspares : Spares cfg id u T w ⟨env, .verifyOTP phone code deviceId⟩) :
    Lasts id u T w.db (verifyOTP cfg env phone code deviceId w).2.db := by
  obtain ⟨hstatuses, h | ⟨session, hok, h⟩⟩ := @ArchiveEffects.verifyOTP_effect cfg env w phone code deviceId
  · exact (stands_of_faces h.faces fun v _ _ => same_statuses hstatuses v.id).lasts
  · have hentries : entries (verifyOTP cfg env phone code deviceId w).2.db =
        (updateWhere (fun v => v.authorDeviceId == some deviceId && v.authorUserId.isNone)
          (fun v => { v with authorUserId := some session.userId }) w.db.tables.updates).map
            (fun v => updateEntry v (listUpdateStatuses v.id w.db)) ++
          w.db.tables.cats.map catEntry := by
      unfold entries updateEntries
      rw [h.updates, h.cats]
      congr 1
      apply List.map_congr_left
      intro v _
      exact congrArg (updateEntry v) (same_statuses hstatuses v.id)
    have hbacking : ∀ t (rows : List Update),
        (rows.map (fun v => updateEntry v (listUpdateStatuses v.id w.db)) ++
          w.db.tables.cats.map catEntry).filter (backs id u t) =
        (rows.filter fun v => backs id u t (updateEntry v (listUpdateStatuses v.id w.db))).map
            (fun v => updateEntry v (listUpdateStatuses v.id w.db)) ++
          (w.db.tables.cats.map catEntry).filter (backs id u t) := by
      intro t rows
      rw [List.filter_append, List.filter_map]
      rfl
    have hloose : ∀ v ∈ w.db.tables.updates,
        (v.authorDeviceId == some deviceId && v.authorUserId.isNone) = true →
          backs id u T (updateEntry v (listUpdateStatuses v.id w.db)) = false := by
      intro v _ hp
      apply Bool.eq_false_iff.mpr
      intro hbacks
      simp [(backs_update.mp hbacks).1] at hp
    constructor
    · rw [hentries, hbacking, entries, updateEntries, hbacking]
      exact ((filter_sublist_updateWhere hloose).map _).append (List.Sublist.refl _)
    · intro t ht
      rw [hentries, hbacking, entries, updateEntries, hbacking]
      congr 2
      apply filter_updateWhere
      intro v hv hp
      obtain ⟨hdevice, hnone⟩ := Bool.and_eq_true_iff.mp hp
      constructor
      · apply Bool.eq_false_iff.mpr
        intro hbacks
        simp [(backs_update.mp hbacks).1] at hnone
      · apply Bool.eq_false_iff.mpr
        intro hbacks
        obtain ⟨howner, hcounts, hdate⟩ := backs_update.mp hbacks
        have hsigned : signsIn cfg w ⟨env, .verifyOTP phone code deviceId⟩ deviceId = some u := by
          simp only [signsIn, if_true, hok]
          exact howner
        exact hspares.brought v hv (Option.isNone_iff_eq_none.mp hnone) (hdate.trans_lt ht) hcounts
          deviceId (beq_iff_eq.mp hdevice) hsigned

/-- The updates that an account deletion leaves keep their statuses. -/
theorem deletion_statuses {a : UUID} {db db' : Database} {v : Update}
    (h : db'.tables.updateStatuses = (deleteAccountUpdateStatuses a db.tables).updateStatuses)
    (hv : v ∈ db.tables.updates) (hleft : accountUpdate a db.tables.cats v = false) :
    listUpdateStatuses v.id db' = listUpdateStatuses v.id db := by
  unfold listUpdateStatuses
  rw [h, deleteAccountUpdateStatuses, deleteWhere, List.filter_filter]
  congr 2
  apply List.filter_congr
  intro s _
  cases hs : s.updateId == v.id with
  | false => rfl
  | true =>
    have hnone : (db.tables.updates.any fun x =>
        x.id == s.updateId && accountUpdate a db.tables.cats x) = false := by
      apply List.any_eq_false.mpr
      intro x hx htakes
      obtain ⟨hid, htakes⟩ := Bool.and_eq_true_iff.mp htakes
      have hsame : x = v := (db.valid.holds .updatesPkey).eq_of_key_eq hx hv
        (congrArg some ((beq_iff_eq.mp hid).trans (beq_iff_eq.mp hs))) (by simp)
      rw [hsame, hleft] at htakes
      cases htakes
    simp [hnone]

/-- The deletion of another account leaves what it does not take. -/
theorem delete_lasts {env : Env} {a : UUID} (hl : Linked w.db.tables) (hne : a ≠ u)
    (hspares : Spares cfg id u T w ⟨env, .deleteAccount a⟩) :
    Lasts id u T w.db (AccountServices.delete env a w).2.db := by
  rcases @deleteAccount_effect env w a hl with ⟨-, h, hstatuses⟩ | ⟨huser, h, hstatuses⟩
  · exact (stands_of_faces h.faces fun v _ _ => same_statuses hstatuses v.id).lasts
  · have hupdates : ∀ t ≤ T, (updateEntries (AccountServices.delete env a w).2.db).filter
        (backs id u t) = (updateEntries w.db).filter (backs id u t) := by
      intro t ht
      have hentries : updateEntries (AccountServices.delete env a w).2.db =
          (deleteWhere (accountUpdate a w.db.tables.cats) w.db.tables.updates).map
            fun v => updateEntry v (listUpdateStatuses v.id w.db) := by
        rw [updateEntries, h.updates]
        apply List.map_congr_left
        intro v hv
        obtain ⟨hv, hleft⟩ := mem_deleteWhere.mp hv
        exact congrArg (updateEntry v) (deletion_statuses hstatuses hv hleft)
      rw [hentries, updateEntries, List.filter_map, List.filter_map, deleteWhere, List.filter_filter]
      congr 1
      apply List.filter_congr
      intro v hv
      cases hbacks : (backs id u t ∘ fun v => updateEntry v (listUpdateStatuses v.id w.db)) v with
      | false => rfl
      | true =>
        obtain ⟨howner, hcounts, hdate⟩ := backs_update.mp hbacks
        have hleft := hspares.taken v hv howner (hdate.trans ht) hcounts
        have hleft : accountUpdate a w.db.tables.cats v = false := by
          simpa only [removes, huser, Bool.true_and] using hleft
        simp [hleft]
    have hcats : ∀ t, ((AccountServices.delete env a w).2.db.tables.cats.map catEntry).filter
        (backs id u t) = (w.db.tables.cats.map catEntry).filter (backs id u t) := by
      intro t
      have hfaces : ∀ cats : List Cat, cats.map catEntry = (cats.map catFace).map catEntry := by
        intro cats
        rw [List.map_map]
        rfl
      rw [hfaces, h.cats, ← hfaces, List.filter_map, List.filter_map, deleteWhere,
        List.filter_filter]
      congr 1
      apply List.filter_congr
      intro c _
      cases hbacks : (backs id u t ∘ catEntry) c with
      | false => rfl
      | true =>
        simp only [Function.comp_apply, backs, catEntry, Bool.and_eq_true, beq_iff_eq] at hbacks
        have howner : c.createdByUserId = some u := hbacks.1.1.1
        simp [ownCat, howner, Ne.symm hne]
    have hsame : ∀ t ≤ T, (entries (AccountServices.delete env a w).2.db).filter (backs id u t) =
        (entries w.db).filter (backs id u t) := by
      intro t ht
      rw [entries, entries, List.filter_append, List.filter_append, hupdates t ht, hcats]
    exact ⟨(hsame T le_rfl).symm ▸ List.Sublist.refl _, fun t ht => hsame t ht.le⟩

/-- A badge reported at a moment, with everything that counts for it past its correction window. -/
structure Earned (id : BadgeID) (u : UUID) (T moment : Instant) (db : Database) : Prop where
  shown : Shows (getBadges u db) id T
  settled : ∀ e ∈ gatherContributions u db, counts id e = true →
    e.createdAt + updateCorrectionWindow ≤ moment

/-- The request comes after the moment, and does not end the account. -/
structure Later (u : UUID) (moment : Instant) (r : Request) : Prop where
  clock : moment ≤ r.env.clock
  now : moment ≤ r.env.now
  lives : r.op ≠ .deleteAccount u

theorem step_shows {w' : World} {moment : Instant} (hl : Linked w.db.tables)
    (hshows : Shows (getBadges u w.db) id T) (hdate : T + updateCorrectionWindow ≤ moment)
    (hlater : Later u moment r) (hspares : Spares cfg id u T w r) (h : freshNext cfg w r = some w') :
    Shows (getBadges u w'.db) id T := by
  obtain ⟨hfresh, -, rfl⟩ := freshNext_eq_some.mp h
  obtain ⟨env, op⟩ := r
  have hnow : T < env.now := by
    have hwindow : (0 : ℤ) < updateCorrectionWindow := by decide
    exact ((Int.lt_add_of_pos_right T hwindow).trans_le hdate).trans_le hlater.now
  by_cases hverify : ∃ phone code deviceId, op = .verifyOTP phone code deviceId
  · obtain ⟨phone, code, deviceId, rfl⟩ := hverify
    exact (verify_lasts hspares).shows hshows
  · by_cases hdelete : ∃ a, op = .deleteAccount a
    · obtain ⟨a, rfl⟩ := hdelete
      have hne : a ≠ u := fun heq => hlater.lives (congrArg _ heq)
      exact (delete_lasts hl hne hspares).shows hshows
    · have hstands : Stands T w.db (serve cfg ⟨env, op⟩ w).db :=
        serve_stands hfresh (hdate.trans hlater.clock) hnow
          (fun phone code deviceId heq => hverify ⟨phone, code, deviceId, heq⟩)
          fun a heq => hdelete ⟨a, heq⟩
      exact hstands.lasts.shows hshows

/-- A badge that was reported once everything behind it was past its correction window is reported
with the same date ever after, as long as the account lives and the requests spare it. -/
theorem badges_permanent {moment : Instant} {rs : List Request} (hw : Reachable (freshNext cfg) Genesis w)
    (h : Earned id u T moment w.db) (hlater : ∀ r ∈ rs, Later u moment r)
    (hspares : Each (freshNext cfg) (Spares cfg id u T) w rs) :
    Always (freshNext cfg) (fun w' => Shows (getBadges u w'.db) id T) w rs := by
  have hdate : T + updateCorrectionWindow ≤ moment := by
    obtain ⟨e, he, hcounts, heq⟩ := exists_dated h.shown
    exact heq ▸ h.settled e he hcounts
  have hl : Linked w.db.tables :=
    Reachable.induct (I := fun w => Linked w.db.tables) (fun _ => genesis_linked)
      (fun _ _ _ => Freshness.next_linked) hw
  have hguarded := hspares.and_forall hlater
  have hinv : Always (freshNext cfg)
      (fun w' => Linked w'.db.tables ∧ Shows (getBadges u w'.db) id T) w rs := by
    refine hguarded.always ?_ ⟨hl, h.shown⟩
    intro s r s' hs hguard hstep
    exact ⟨Freshness.next_linked hs.1 hstep,
      step_shows hs.1 hs.2 hdate hguard.2 hguard.1 hstep⟩
  exact hinv.mono fun _ hs => hs.2

end Runs

deriving instance DecidableEq for BadgeDefinition

instance (badges : List BadgeStatus) (id : BadgeID) (earnedAt : Instant) :
    Decidable (Shows badges id earnedAt) :=
  inferInstanceAs (Decidable (∃ b ∈ badges, _))

instance (id : BadgeID) (u : UUID) (T moment : Instant) (db : Database) :
    Decidable (Earned id u T moment db) :=
  decidable_of_iff (_ ∧ _) ⟨fun h => ⟨h.1, h.2⟩, fun h => ⟨h.shown, h.settled⟩⟩

instance (cfg : Config) (id : BadgeID) (u : UUID) (T : Instant) (w : World) (r : Request) :
    Decidable (Spares cfg id u T w r) :=
  decidable_of_iff (_ ∧ _) ⟨fun h => ⟨h.1, h.2⟩, fun h => ⟨h.taken, h.brought⟩⟩

/-- One account adds a cat, another one sees it. -/
def sighting : List Request :=
  [⟨plainEnv 1, .register "ios" none⟩,
   ⟨plainEnv 2, .verifyOTP "5551112233" "" 10⟩,
   ⟨plainEnv 3, .createCat { userId := 20, area := ⟨41, 29⟩ }⟩,
   ⟨plainEnv 4, .register "ios" none⟩,
   ⟨plainEnv 5, .verifyOTP "5554445566" "" 40⟩,
   ⟨plainEnv 6, .createOrdinaryUpdate { catId := some 31, userId := 50, statuses := ["seen"] }⟩]

/-- The moment at which the correction window of the sighting is over. -/
def settledAt : Instant := 600000006

/-- The sighting is followed by another one, the cat is deleted, and a guest's account comes and goes. -/
def sparing : List Request :=
  [⟨plainEnv 600000007, .createOrdinaryUpdate
      { catId := some 31, userId := 50, statuses := ["seen", "fed"] }⟩,
   ⟨plainEnv 600000008, .deleteCat 31 20⟩,
   ⟨plainEnv 600000009, .register "ios" none⟩,
   ⟨plainEnv 600000010, .verifyOTP "5557778899" "" 6000000090⟩,
   ⟨plainEnv 600000011, .deleteAccount 6000000100⟩]

theorem badge_stays_when_spared : ∃ w, Reachable (freshNext plainConfig) Genesis w ∧
    Always (freshNext plainConfig) (fun w' => Shows (getBadges 50 w'.db) .firstSighting 6) w
      sparing := by
  obtain ⟨w, hw, hp⟩ := exists_of_exec_test (freshNext plainConfig) Freshness.emptyWorld sighting
    (fun w => decide (Earned .firstSighting 50 6 settledAt w.db) &&
      decide (Each (freshNext plainConfig) (Spares plainConfig .firstSighting 50 6) w sparing))
    (by decide +kernel)
  obtain ⟨hearned, hspares⟩ := Bool.and_eq_true_iff.mp hp
  have hreached : Reachable (freshNext plainConfig) Genesis w :=
    ⟨_, sighting, Freshness.emptyWorld_genesis, hw⟩
  refine ⟨w, hreached, badges_permanent hreached (of_decide_eq_true hearned) ?_
    (of_decide_eq_true hspares)⟩
  have hlater : ∀ r ∈ sparing, settledAt ≤ r.env.clock ∧ settledAt ≤ r.env.now ∧
      r.op ≠ .deleteAccount 50 := by
    simp [sparing, settledAt, plainEnv]
  exact fun r hr => ⟨(hlater r hr).1, (hlater r hr).2.1, (hlater r hr).2.2⟩

/-- The owner of the cat deletes the account, and the sighting goes with the cat. -/
theorem badge_lost_with_the_cat : ¬ ∀ (w : World) (id : BadgeID) (u : UUID) (T moment : Instant)
    (rs : List Request), Reachable (freshNext plainConfig) Genesis w → Earned id u T moment w.db →
      (∀ r ∈ rs, Later u moment r) →
        Always (freshNext plainConfig) (fun w' => Shows (getBadges u w'.db) id T) w rs := by
  intro h
  obtain ⟨w, hw, hp⟩ := exists_of_exec_test (freshNext plainConfig) Freshness.emptyWorld sighting
    (fun w => decide (Earned .firstSighting 50 6 settledAt w.db) &&
      ((exec (freshNext plainConfig) w [⟨plainEnv 600000006, .deleteAccount 20⟩]).map fun w' =>
        decide (Shows (getBadges 50 w'.db) .firstSighting 6)) == some false)
    (by decide +kernel)
  obtain ⟨hearned, hlost⟩ := Bool.and_eq_true_iff.mp hp
  refine not_always_of_test (beq_iff_eq.mp hlost) (h w .firstSighting 50 6 settledAt _
    ⟨_, sighting, Freshness.emptyWorld_genesis, hw⟩ (of_decide_eq_true hearned) ?_)
  intro r hr
  obtain rfl := List.mem_singleton.mp hr
  exact ⟨by decide, by decide, nofun⟩

end Tekir.BadgePermanence
