import Mathlib.Data.List.Flatten
import Tekir.Milestones
import Tekir.UpdateQueries

/-!
# Badges

The badge vocabulary, and the progress of an account as it is derived at every read from its
updates and cats: events are walked from the oldest to the newest, and the one that reaches a
target gives the badge its date.
-/
namespace Tekir.Badges
open Table Schema Statements UpdateQueries Milestones

inductive BadgeID
  | firstSighting | feeder | waterHelper | neighborhoodWatcher | catsOfIstanbul
  deriving DecidableEq

structure BadgeDefinition where
  id : BadgeID
  name : String
  icon : String
  target : ℕ
  condition : String
  descr : String

def BadgeID.definition (id : BadgeID) : BadgeDefinition :=
  match id with
  | .firstSighting => {
      id, name := "İlk Görüş", icon := "eye", target := 1
      condition := "İlk \"Görüldü\" güncellemeni paylaş."
      descr := "Bir kediyi görüp haber verdin. Her şey görmekle başlar." }
  | .feeder => {
      id, name := "Mamacı", icon := "bowl", target := 5
      condition := "5 kez \"Mama verildi\" güncellemesi paylaş."
      descr := "Mahallenin kedileri sayende aç kalmıyor." }
  | .waterHelper => {
      id, name := "Sucu", icon := "droplet", target := 5
      condition := "5 kez \"Su verildi\" güncellemesi paylaş."
      descr := "Temiz su, en az mama kadar önemli. Kaseleri boş bırakmadın." }
  | .neighborhoodWatcher => {
      id, name := "Mahalle Bekçisi", icon := "pin", target := 10
      condition := "10 farklı kedi için \"Görüldü\" güncellemesi paylaş."
      descr := "Mahallendeki kedilerin gözü kulağı oldun." }
  | .catsOfIstanbul => {
      id, name := "İstanbul'un Kedileri", icon := "paw", target := 25
      condition := "Güncelleme, fotoğraf veya yeni kedi ekleyerek 25 farklı kediye katkıda bulun."
      descr := "Şehrin kedileri seni tanıyor. Bu rozet, İstanbul'a emeğin için." }

def BadgeID.target (id : BadgeID) : ℕ :=
  id.definition.target

/-- `BadgeDefs`, in the order in which they are shown. -/
def badgeDefs : List BadgeDefinition :=
  [BadgeID.firstSighting, .feeder, .waterHelper, .neighborhoodWatcher, .catsOfIstanbul].map
    BadgeID.definition

structure BadgeStatus where
  definition : BadgeDefinition
  value : ℕ
  earned : Bool
  earnedAt : Option Instant

inductive ContributionKind | ordinary | needsHelp | catAdded
  deriving DecidableEq

structure ContributionEvent where
  kind : ContributionKind
  catId : UUID
  createdAt : Instant
  /-- Zero for a cat. -/
  seq : ℕ := 0
  statuses : List Status := []
  needsHelp : Bool := false
  needsHelpCategory : Option Category := none
  deriving DecidableEq

section Queries

/-- By time, and by sequence number at the same time. -/
def chronological {α : Type} (time : α → Instant) (seq : α → ℕ) (a b : α) : Bool :=
  decide (time a < time b) || (time a == time b && decide (seq a ≤ seq b))

def orderedUpdates (rows : List Update) : List Update :=
  orderBy (chronological Update.createdAt Update.seq) rows

def listUserOrdinaryUpdatesForBadges (authorUserId : UUID) (db : Database) :
    List (Update × List Status) :=
  (orderedUpdates (db.tables.updates.filter fun u =>
    u.authorUserId == some authorUserId && u.kind == .ordinary && u.deletedAt.isNone)).map
    fun u => (u, listUpdateStatuses u.id db)

def listUserNeedsHelpUpdatesForBadges (authorUserId : UUID) (db : Database) : List Update :=
  orderedUpdates (db.tables.updates.filter fun u =>
    u.authorUserId == some authorUserId && u.kind == .needsHelp && u.deletedAt.isNone)

def listUserCreatedCatsForBadges (createdByUserId : UUID) (db : Database) : List Cat :=
  orderBy (fun a b => decide (a.createdAt ≤ b.createdAt))
    (db.tables.cats.filter fun c => c.createdByUserId == some createdByUserId)

end Queries

def ordinaryEvent (r : Update × List Status) : ContributionEvent :=
  { kind := .ordinary, catId := r.1.catId, createdAt := r.1.createdAt, seq := r.1.seq
    statuses := r.2, needsHelp := r.1.needsHelp, needsHelpCategory := r.1.needsHelpCategory }

def needsHelpEvent (u : Update) : ContributionEvent :=
  { kind := .needsHelp, catId := u.catId, createdAt := u.createdAt, seq := u.seq
    needsHelp := true, needsHelpCategory := u.needsHelpCategory }

def catEvent (c : Cat) : ContributionEvent :=
  { kind := .catAdded, catId := c.id, createdAt := c.createdAt }

def gatherContributions (userId : UUID) (db : Database) : List ContributionEvent :=
  (listUserOrdinaryUpdatesForBadges userId db).map ordinaryEvent ++
    (listUserNeedsHelpUpdatesForBadges userId db).map needsHelpEvent ++
    (listUserCreatedCatsForBadges userId db).map catEvent

/-- What the walk over the events has noted so far; the two maps of cats are their keys. -/
structure Progress where
  counts : Status → ℕ := fun _ => 0
  seenCats : List UUID := []
  allCats : List UUID := []
  firstSeenAt : Option Instant := none
  thresholdAt : BadgeID → Option Instant := fun _ => none

/-- A threshold that is met is noted unless it was before. -/
def Progress.note (p : Progress) (id : BadgeID) (at' : Instant) (met : Bool) : Progress :=
  if met then
    { p with thresholdAt := Function.update p.thresholdAt id ((p.thresholdAt id).or (some at')) }
  else p

def Progress.status (e : ContributionEvent) (p : Progress) (s : Status) : Progress :=
  let p := { p with counts := Function.update p.counts s (p.counts s + 1) }
  let p :=
    if s = .seen then
      let p := { p with
        firstSeenAt := p.firstSeenAt.or (some e.createdAt)
        seenCats := p.seenCats.insert e.catId }
      p.note .neighborhoodWatcher e.createdAt
        (p.seenCats.length == BadgeID.target .neighborhoodWatcher)
    else p
  let p := p.note .feeder e.createdAt (s == .fed && p.counts .fed == BadgeID.target .feeder)
  p.note .waterHelper e.createdAt
    (s == .waterProvided && p.counts .waterProvided == BadgeID.target .waterHelper)

def Progress.event (p : Progress) (e : ContributionEvent) : Progress :=
  let p := { p with allCats := p.allCats.insert e.catId }
  let p := if e.kind = .ordinary then e.statuses.foldl (Progress.status e) p else p
  p.note .catsOfIstanbul e.createdAt (p.allCats.length == BadgeID.target .catsOfIstanbul)

def Progress.rawValue (p : Progress) : BadgeID → ℕ
  | .firstSighting => if p.firstSeenAt.isSome then 1 else 0
  | .feeder => p.counts .fed
  | .waterHelper => p.counts .waterProvided
  | .neighborhoodWatcher => p.seenCats.length
  | .catsOfIstanbul => p.allCats.length

def Progress.rawEarnedAt (p : Progress) (id : BadgeID) : Option Instant :=
  if id = .firstSighting then p.firstSeenAt else p.thresholdAt id

def Progress.badge (p : Progress) (definition : BadgeDefinition) : BadgeStatus :=
  let value := p.rawValue definition.id
  { definition, value := min value definition.target
    earned := decide (definition.target ≤ value)
    earnedAt := if definition.target ≤ value then p.rawEarnedAt definition.id else none }

def sortEvents (events : List ContributionEvent) : List ContributionEvent :=
  orderBy (chronological ContributionEvent.createdAt ContributionEvent.seq) events

def badgeProgress (events : List ContributionEvent) : List BadgeStatus :=
  badgeDefs.map ((sortEvents events).foldl Progress.event {}).badge

def getBadges (userId : UUID) (db : Database) : List BadgeStatus :=
  badgeProgress (gatherContributions userId db)

/-- One status that an update carries. -/
abbrev Mark := ContributionEvent × Status

def marksOf (e : ContributionEvent) : List Mark :=
  if e.kind = .ordinary then e.statuses.map (e, ·) else []

def marks (events : List ContributionEvent) : List Mark :=
  events.flatMap marksOf

def markedAt (m : Mark) : Instant :=
  m.1.createdAt

/-- How often a status was posted. -/
def posted (s : Status) : Gauge Mark :=
  Gauge.count fun m => m.2 == s

/-- How many cats were seen. -/
def catsSeen : Gauge Mark :=
  Gauge.distinct (fun m => m.2 == .seen) fun m => m.1.catId

/-- How many cats there was any contribution to. -/
def catsHelped : Gauge ContributionEvent :=
  Gauge.distinct (fun _ => true) ContributionEvent.catId

section Walk

variable {p : Progress} {ms : List Mark} {e : ContributionEvent} {s : Status}

/-- What the walk knows after these statuses. -/
structure Counted (p : Progress) (ms : List Mark) : Prop where
  counts : ∀ s, p.counts s = (posted s).score ms
  seenCats : p.seenCats.Nodup ∧
    p.seenCats.toFinset = ((ms.filter fun m => m.2 == .seen).map fun m => m.1.catId).toFinset
  firstSeenAt : p.firstSeenAt = (posted .seen).reached markedAt (BadgeID.target .firstSighting) [] ms
  feeder : p.thresholdAt .feeder = (posted .fed).reached markedAt (BadgeID.target .feeder) [] ms
  waterHelper : p.thresholdAt .waterHelper =
    (posted .waterProvided).reached markedAt (BadgeID.target .waterHelper) [] ms
  neighborhoodWatcher : p.thresholdAt .neighborhoodWatcher =
    catsSeen.reached markedAt (BadgeID.target .neighborhoodWatcher) [] ms

theorem Counted.seenCats_length (h : Counted p ms) : p.seenCats.length = catsSeen.score ms := by
  rw [← List.toFinset_card_of_nodup h.seenCats.1, h.seenCats.2]
  rfl

/-- What the walk knows of all cats after these events. -/
structure Gathered (p : Progress) (events : List ContributionEvent) : Prop where
  allCats : p.allCats.Nodup ∧ p.allCats.toFinset = (events.map ContributionEvent.catId).toFinset
  catsOfIstanbul : p.thresholdAt .catsOfIstanbul =
    catsHelped.reached ContributionEvent.createdAt (BadgeID.target .catsOfIstanbul) [] events

theorem Gathered.allCats_length {events : List ContributionEvent} (h : Gathered p events) :
    p.allCats.length = catsHelped.score events := by
  rw [← List.toFinset_card_of_nodup h.allCats.1, h.allCats.2, catsHelped, Gauge.distinct]
  simp

@[simp] theorem note_counts (id : BadgeID) (at' : Instant) (met : Bool) :
    (p.note id at' met).counts = p.counts := by
  unfold Progress.note
  split <;> rfl

@[simp] theorem note_seenCats (id : BadgeID) (at' : Instant) (met : Bool) :
    (p.note id at' met).seenCats = p.seenCats := by
  unfold Progress.note
  split <;> rfl

@[simp] theorem note_allCats (id : BadgeID) (at' : Instant) (met : Bool) :
    (p.note id at' met).allCats = p.allCats := by
  unfold Progress.note
  split <;> rfl

@[simp] theorem note_firstSeenAt (id : BadgeID) (at' : Instant) (met : Bool) :
    (p.note id at' met).firstSeenAt = p.firstSeenAt := by
  unfold Progress.note
  split <;> rfl

theorem note_thresholdAt_self (id : BadgeID) (at' : Instant) (met : Bool) :
    (p.note id at' met).thresholdAt id =
      (p.thresholdAt id).or (if met then some at' else none) := by
  unfold Progress.note
  cases met <;> simp

theorem note_thresholdAt_of_ne {id id' : BadgeID} (h : id' ≠ id) (at' : Instant) (met : Bool) :
    (p.note id at' met).thresholdAt id' = p.thresholdAt id' := by
  unfold Progress.note
  cases met <;> simp [h]

theorem score_posted_append (s' : Status) : (posted s').score (ms ++ [(e, s)]) =
    (posted s').score ms + if s = s' then 1 else 0 := by
  simp [posted, Gauge.count, List.countP_append, List.countP_singleton]

theorem catsSeen_append_of_ne (hs : s ≠ .seen) : catsSeen.score (ms ++ [(e, s)]) = catsSeen.score ms := by
  simp [catsSeen, Gauge.distinct, List.filter_append, hs]

theorem status_seen : p.status e .seen =
    ({ p with
        counts := Function.update p.counts .seen (p.counts .seen + 1)
        firstSeenAt := p.firstSeenAt.or (some e.createdAt)
        seenCats := p.seenCats.insert e.catId } : Progress).note .neighborhoodWatcher e.createdAt
      ((p.seenCats.insert e.catId).length == BadgeID.target .neighborhoodWatcher) :=
  rfl

theorem status_fed : p.status e .fed =
    ({ p with counts := Function.update p.counts .fed (p.counts .fed + 1) } : Progress).note .feeder
      e.createdAt (p.counts .fed + 1 == BadgeID.target .feeder) :=
  rfl

theorem status_waterProvided : p.status e .waterProvided =
    ({ p with counts := Function.update p.counts .waterProvided (p.counts .waterProvided + 1) } :
      Progress).note .waterHelper e.createdAt
      (p.counts .waterProvided + 1 == BadgeID.target .waterHelper) :=
  rfl

theorem update_counts (h : ∀ s, p.counts s = (posted s).score ms) (e : ContributionEvent) (s s' : Status) :
    Function.update p.counts s (p.counts s + 1) s' = (posted s').score (ms ++ [(e, s)]) := by
  rw [score_posted_append, Function.update_apply]
  by_cases hs : s = s'
  · simp [hs, h]
  · simp [hs, Ne.symm hs, h]

/-- The target of a status is noted when its count hits it. -/
theorem posted_note {s : Status} {id : BadgeID} (h : ∀ s, p.counts s = (posted s).score ms)
    (hnoted : p.thresholdAt id = (posted s).reached markedAt id.target [] ms) (hpos : 0 < id.target) :
    (p.thresholdAt id).or (if (p.counts s + 1 == id.target) = true then some e.createdAt else none) =
      (posted s).reached markedAt id.target [] (ms ++ [(e, s)]) := by
  have hscore : p.counts s + 1 = (posted s).score (ms ++ [(e, s)]) := by
    rw [score_posted_append, h, if_pos rfl]
  rw [← Gauge.reached_note (e, s) hpos, hnoted, hscore]
  simp only [beq_iff_eq]
  rfl

/-- Another status leaves it. -/
theorem posted_other {s s' : Status} (hs : s ≠ s') {target : ℕ} (hpos : 0 < target) :
    (posted s').reached markedAt target [] (ms ++ [(e, s)]) =
      (posted s').reached markedAt target [] ms :=
  Gauge.reached_same hpos (by rw [score_posted_append, if_neg hs, Nat.add_zero])

theorem Counted.seen (h : Counted p ms) (e : ContributionEvent) :
    Counted (p.status e .seen) (ms ++ [(e, .seen)]) := by
  let m : Mark := (e, .seen)
  have hcats : (p.seenCats.insert e.catId).Nodup ∧ (p.seenCats.insert e.catId).toFinset =
      (((ms ++ [m]).filter fun m => m.2 == .seen).map fun m => m.1.catId).toFinset := by
    refine ⟨h.seenCats.1.insert, ?_⟩
    ext c
    have hmem := congrArg (c ∈ ·) h.seenCats.2
    simp only [List.mem_toFinset, eq_iff_iff] at hmem
    rw [List.mem_toFinset, List.mem_toFinset, List.filter_append, List.map_append, List.mem_append,
      ← hmem]
    simp [m, List.mem_insert_iff, or_comm]
  have hlength : (p.seenCats.insert e.catId).length = catsSeen.score (ms ++ [m]) := by
    rw [← List.toFinset_card_of_nodup hcats.1, hcats.2]
    rfl
  rw [status_seen]
  refine ⟨fun s => ?_, by rw [note_seenCats]; exact hcats, ?_, ?_, ?_, ?_⟩
  · rw [note_counts]
    exact update_counts h.counts e .seen s
  · rw [note_firstSeenAt, Gauge.reached_append]
    have hone : BadgeID.target .firstSighting ≤ (posted .seen).score ([] ++ ms ++ [m]) := by
      rw [List.nil_append, score_posted_append, if_pos rfl]
      exact Nat.le_add_left 1 _
    rw [if_pos hone, ← h.firstSeenAt]
    rfl
  · rw [note_thresholdAt_of_ne (by decide), posted_other (by decide) (by decide)]
    exact h.feeder
  · rw [note_thresholdAt_of_ne (by decide), posted_other (by decide) (by decide)]
    exact h.waterHelper
  · rw [note_thresholdAt_self, hlength, ← Gauge.reached_note m (by decide),
      ← h.neighborhoodWatcher]
    simp only [beq_iff_eq]
    rfl

/-- The statuses that only add to a count. -/
theorem Counted.noted {id : BadgeID} (h : Counted p ms) (e : ContributionEvent)
    (hcase : s = .fed ∧ id = .feeder ∨ s = .waterProvided ∧ id = .waterHelper) :
    Counted (({ p with counts := Function.update p.counts s (p.counts s + 1) } : Progress).note id
      e.createdAt (p.counts s + 1 == id.target)) (ms ++ [(e, s)]) := by
  have hseen : s ≠ .seen := by
    rcases hcase with ⟨rfl, -⟩ | ⟨rfl, -⟩ <;> decide
  have hwatcher : BadgeID.neighborhoodWatcher ≠ id := by
    rcases hcase with ⟨-, rfl⟩ | ⟨-, rfl⟩ <;> decide
  refine ⟨fun s' => ?_, ?_, ?_, ?_, ?_, ?_⟩
  · rw [note_counts]
    exact update_counts h.counts e s s'
  · rw [note_seenCats, List.filter_append, List.filter_cons_of_neg (by simpa using hseen),
      List.filter_nil, List.append_nil]
    exact h.seenCats
  · rw [note_firstSeenAt, posted_other hseen (by decide)]
    exact h.firstSeenAt
  · rcases hcase with ⟨rfl, rfl⟩ | ⟨rfl, rfl⟩
    · rw [note_thresholdAt_self]
      exact posted_note h.counts h.feeder (by decide)
    · rw [note_thresholdAt_of_ne (by decide), posted_other (by decide) (by decide)]
      exact h.feeder
  · rcases hcase with ⟨rfl, rfl⟩ | ⟨rfl, rfl⟩
    · rw [note_thresholdAt_of_ne (by decide), posted_other (by decide) (by decide)]
      exact h.waterHelper
    · rw [note_thresholdAt_self]
      exact posted_note h.counts h.waterHelper (by decide)
  · rw [note_thresholdAt_of_ne hwatcher,
      Gauge.reached_same (by decide) (catsSeen_append_of_ne hseen)]
    exact h.neighborhoodWatcher

theorem Counted.status (h : Counted p ms) (e : ContributionEvent) (s : Status) :
    Counted (p.status e s) (ms ++ [(e, s)]) := by
  cases s with
  | seen => exact h.seen e
  | fed =>
    rw [status_fed]
    exact h.noted e (.inl ⟨rfl, rfl⟩)
  | waterProvided =>
    rw [status_waterProvided]
    exact h.noted e (.inr ⟨rfl, rfl⟩)

theorem Counted.statuses (h : Counted p ms) (e : ContributionEvent) (ss : List Status) :
    Counted (ss.foldl (Progress.status e) p) (ms ++ ss.map (e, ·)) := by
  induction ss generalizing p ms with
  | nil => simpa using h
  | cons s ss ih =>
    rw [List.foldl_cons, List.map_cons, List.append_cons]
    exact ih (h.status e s)

theorem status_catsOfIstanbul : (p.status e s).allCats = p.allCats ∧
    (p.status e s).thresholdAt .catsOfIstanbul = p.thresholdAt .catsOfIstanbul := by
  cases s with
  | seen =>
    rw [status_seen, note_allCats, note_thresholdAt_of_ne (by decide)]
    exact ⟨rfl, rfl⟩
  | fed =>
    rw [status_fed, note_allCats, note_thresholdAt_of_ne (by decide)]
    exact ⟨rfl, rfl⟩
  | waterProvided =>
    rw [status_waterProvided, note_allCats, note_thresholdAt_of_ne (by decide)]
    exact ⟨rfl, rfl⟩

theorem statuses_catsOfIstanbul {ss : List Status} :
    (ss.foldl (Progress.status e) p).allCats = p.allCats ∧
      (ss.foldl (Progress.status e) p).thresholdAt .catsOfIstanbul = p.thresholdAt .catsOfIstanbul := by
  induction ss generalizing p with
  | nil => exact ⟨rfl, rfl⟩
  | cons s ss ih =>
    rw [List.foldl_cons]
    exact ⟨ih.1.trans status_catsOfIstanbul.1, ih.2.trans status_catsOfIstanbul.2⟩

theorem Counted.contributed (h : Counted p ms) (cats : List UUID) :
    Counted { p with allCats := cats } ms :=
  ⟨h.counts, h.seenCats, h.firstSeenAt, h.feeder, h.waterHelper, h.neighborhoodWatcher⟩

theorem Counted.istanbul (h : Counted p ms) (at' : Instant) (met : Bool) :
    Counted (p.note .catsOfIstanbul at' met) ms := by
  refine ⟨?_, ?_, ?_, ?_, ?_, ?_⟩
  · rw [note_counts]
    exact h.counts
  · rw [note_seenCats]
    exact h.seenCats
  · rw [note_firstSeenAt]
    exact h.firstSeenAt
  · rw [note_thresholdAt_of_ne (by decide)]
    exact h.feeder
  · rw [note_thresholdAt_of_ne (by decide)]
    exact h.waterHelper
  · rw [note_thresholdAt_of_ne (by decide)]
    exact h.neighborhoodWatcher

variable {events : List ContributionEvent}

theorem marks_append (e : ContributionEvent) : marks (events ++ [e]) = marks events ++ marksOf e := by
  rw [marks, List.flatMap_append, List.flatMap_singleton, marks]

theorem Counted.event (h : Counted p (marks events)) (e : ContributionEvent) :
    Counted (p.event e) (marks (events ++ [e])) := by
  unfold Progress.event
  refine Counted.istanbul ?_ _ _
  rw [marks_append, marksOf]
  split
  · exact (h.contributed _).statuses e e.statuses
  · rw [List.append_nil]
    exact h.contributed _

theorem event_catsOfIstanbul : (p.event e).allCats = p.allCats.insert e.catId ∧
    (p.event e).thresholdAt .catsOfIstanbul = (p.thresholdAt .catsOfIstanbul).or
      (if (p.allCats.insert e.catId).length = BadgeID.target .catsOfIstanbul then some e.createdAt
        else none) := by
  unfold Progress.event
  rw [note_allCats, note_thresholdAt_self]
  split
  · rw [statuses_catsOfIstanbul.1, statuses_catsOfIstanbul.2]
    simp
  · simp

theorem Gathered.event (h : Gathered p events) (e : ContributionEvent) :
    Gathered (p.event e) (events ++ [e]) := by
  have hcats : (p.allCats.insert e.catId).Nodup ∧ (p.allCats.insert e.catId).toFinset =
      ((events ++ [e]).map ContributionEvent.catId).toFinset := by
    refine ⟨h.allCats.1.insert, ?_⟩
    ext c
    have hmem := congrArg (c ∈ ·) h.allCats.2
    simp only [List.mem_toFinset, eq_iff_iff] at hmem
    rw [List.mem_toFinset, List.mem_toFinset, List.map_append, List.mem_append, ← hmem]
    simp [List.mem_insert_iff, or_comm]
  have hlength : (p.allCats.insert e.catId).length = catsHelped.score (events ++ [e]) := by
    rw [← List.toFinset_card_of_nodup hcats.1, hcats.2, catsHelped, Gauge.distinct]
    simp
  obtain ⟨hall, hnoted⟩ := event_catsOfIstanbul (p := p) (e := e)
  constructor
  · rw [hall]
    exact hcats
  · rw [hnoted, hlength, ← Gauge.reached_note e (by decide), h.catsOfIstanbul]

theorem walked (events : List ContributionEvent) :
    Counted (events.foldl Progress.event {}) (marks events) ∧
      Gathered (events.foldl Progress.event {}) events := by
  induction events using List.reverseRecOn with
  | nil =>
    exact ⟨⟨fun _ => rfl, ⟨List.nodup_nil, rfl⟩, rfl, rfl, rfl, rfl⟩, ⟨List.nodup_nil, rfl⟩, rfl⟩
  | append_singleton events e ih =>
    rw [List.foldl_append]
    exact ⟨ih.1.event e, ih.2.event e⟩

end Walk

section Tally

/-- What of these contributions counts for a badge. -/
def BadgeID.tally (id : BadgeID) (events : List ContributionEvent) : ℕ :=
  match id with
  | .firstSighting => (posted .seen).score (marks events)
  | .feeder => (posted .fed).score (marks events)
  | .waterHelper => (posted .waterProvided).score (marks events)
  | .neighborhoodWatcher => catsSeen.score (marks events)
  | .catsOfIstanbul => catsHelped.score events

/-- The contributions up to a time. -/
def until' (t : Instant) (events : List ContributionEvent) : List ContributionEvent :=
  Gauge.upTo ContributionEvent.createdAt t events

variable {id : BadgeID} {events events' : List ContributionEvent} {t T : Instant}

theorem marks_perm (h : events.Perm events') : (marks events).Perm (marks events') :=
  h.flatMap_right _

theorem marks_sublist (h : events.Sublist events') : (marks events).Sublist (marks events') :=
  h.flatMap _

theorem tally_perm (h : events.Perm events') : id.tally events = id.tally events' := by
  cases id with
  | firstSighting | feeder | waterHelper | neighborhoodWatcher => exact Gauge.perm _ (marks_perm h)
  | catsOfIstanbul => exact Gauge.perm _ h

theorem tally_mono (h : events.Sublist events') : id.tally events ≤ id.tally events' := by
  cases id with
  | firstSighting | feeder | waterHelper | neighborhoodWatcher => exact Gauge.mono _ (marks_sublist h)
  | catsOfIstanbul => exact Gauge.mono _ h

theorem target_pos (id : BadgeID) : 0 < id.target := by
  cases id <;> decide

theorem markedAt_of_mem {e : ContributionEvent} {m : Mark} (h : m ∈ marksOf e) :
    markedAt m = e.createdAt := by
  unfold marksOf at h
  split at h
  · obtain ⟨s, -, rfl⟩ := List.mem_map.mp h
    rfl
  · cases h

theorem upTo_marks : Gauge.upTo markedAt t (marks events) = marks (until' t events) := by
  unfold marks until' Gauge.upTo
  induction events with
  | nil => rfl
  | cons e events ih =>
    rw [List.flatMap_cons, List.filter_append, ih]
    by_cases ht : e.createdAt ≤ t
    · rw [List.filter_cons_of_pos (by simpa using ht), List.flatMap_cons, List.filter_eq_self.mpr]
      intro m hm
      simpa [markedAt_of_mem hm] using ht
    · rw [List.filter_cons_of_neg (by simpa using ht), List.filter_eq_nil_iff.mpr, List.nil_append]
      intro m hm
      simpa [markedAt_of_mem hm] using ht

theorem sortEvents_perm : (sortEvents events).Perm events :=
  List.perm_insertionSort _ _

theorem chronological_iff {e e' : ContributionEvent} :
    chronological ContributionEvent.createdAt ContributionEvent.seq e e' = true ↔
      e.createdAt < e'.createdAt ∨ e.createdAt = e'.createdAt ∧ e.seq ≤ e'.seq := by
  simp [chronological]

theorem sortEvents_sorted : (sortEvents events).Pairwise fun e e' => e.createdAt ≤ e'.createdAt := by
  have htotal : Std.Total fun a b : ContributionEvent =>
      chronological ContributionEvent.createdAt ContributionEvent.seq a b = true :=
    ⟨fun a b => by grind [chronological_iff]⟩
  have htrans : IsTrans ContributionEvent fun a b =>
      chronological ContributionEvent.createdAt ContributionEvent.seq a b = true :=
    ⟨fun a b c => by grind [chronological_iff]⟩
  refine (List.pairwise_insertionSort _ events).imp fun {a b} hab => ?_
  rcases chronological_iff.mp hab with hlt | ⟨heq, -⟩
  · exact hlt.le
  · exact heq.le

theorem marks_sorted (h : events.Pairwise fun e e' => e.createdAt ≤ e'.createdAt) :
    (marks events).Pairwise fun m m' => markedAt m ≤ markedAt m' := by
  refine List.pairwise_flatMap.mpr ⟨fun e _ => ?_, h.imp fun {e e'} hle m hm m' hm' => ?_⟩
  · refine List.pairwise_of_forall_mem_list fun m hm m' hm' => ?_
    rw [markedAt_of_mem hm, markedAt_of_mem hm']
  · rw [markedAt_of_mem hm, markedAt_of_mem hm']
    exact hle

/-- The times by which the contributions reach the target. -/
def reachedBy (id : BadgeID) (events : List ContributionEvent) : Set Instant :=
  { t | id.target ≤ id.tally (until' t events) }

theorem reachedBy_perm (h : events.Perm events') : reachedBy id events = reachedBy id events' := by
  ext t
  simp only [reachedBy, Set.mem_ofPred_eq, until', Gauge.upTo, tally_perm (h.filter _)]

/-- The value reaches the target when the contributions do. -/
theorem target_le_rawValue : id.target ≤ (events.foldl Progress.event {}).rawValue id ↔
    id.target ≤ id.tally events := by
  obtain ⟨hcounted, hgathered⟩ := walked events
  cases id with
  | firstSighting =>
    simp only [Progress.rawValue, hcounted.firstSeenAt, BadgeID.tally]
    rw [← Gauge.reached_isSome (target_pos .firstSighting)]
    split
    · rename_i hseen
      exact iff_of_true (by decide) hseen
    · rename_i hnot
      exact iff_of_false (by decide) hnot
  | feeder => rw [Progress.rawValue, hcounted.counts, BadgeID.tally]
  | waterHelper => rw [Progress.rawValue, hcounted.counts, BadgeID.tally]
  | neighborhoodWatcher => rw [Progress.rawValue, hcounted.seenCats_length, BadgeID.tally]
  | catsOfIstanbul => rw [Progress.rawValue, hgathered.allCats_length, BadgeID.tally]

theorem reachedBy_marks {g : Gauge Mark} (h : ∀ events, id.tally events = g.score (marks events)) :
    reachedBy id events = g.reaches markedAt id.target (marks events) := by
  ext t
  simp only [reachedBy, Gauge.reaches, upTo_marks, h]

/-- The date of a badge is the time at which a gauge reaches the target. -/
theorem exists_gauge (id : BadgeID) (events : List ContributionEvent) :
    ∃ (E : Type) (g : Gauge E) (time : E → Instant) (es : List E),
      (events.foldl Progress.event {}).rawEarnedAt id = g.reached time id.target [] es ∧
      id.tally events = g.score es ∧ reachedBy id events = g.reaches time id.target es ∧
      (events.Pairwise (fun e e' => e.createdAt ≤ e'.createdAt) →
        es.Pairwise fun e e' => time e ≤ time e') := by
  obtain ⟨hcounted, hgathered⟩ := walked events
  cases id with
  | firstSighting =>
    exact ⟨Mark, posted .seen, markedAt, marks events, hcounted.firstSeenAt, rfl,
      reachedBy_marks fun _ => rfl, marks_sorted⟩
  | feeder =>
    exact ⟨Mark, posted .fed, markedAt, marks events, hcounted.feeder, rfl,
      reachedBy_marks fun _ => rfl, marks_sorted⟩
  | waterHelper =>
    exact ⟨Mark, posted .waterProvided, markedAt, marks events, hcounted.waterHelper, rfl,
      reachedBy_marks fun _ => rfl, marks_sorted⟩
  | neighborhoodWatcher =>
    exact ⟨Mark, catsSeen, markedAt, marks events, hcounted.neighborhoodWatcher, rfl,
      reachedBy_marks fun _ => rfl, marks_sorted⟩
  | catsOfIstanbul =>
    exact ⟨ContributionEvent, catsHelped, ContributionEvent.createdAt, events,
      hgathered.catsOfIstanbul, rfl, rfl, fun h => h⟩

/-- In the order of their times, the walk finds the least time by which the target is reached. -/
theorem rawEarnedAt_eq_some (h : events.Pairwise fun e e' => e.createdAt ≤ e'.createdAt) :
    (events.foldl Progress.event {}).rawEarnedAt id = some T ↔ IsLeast (reachedBy id events) T := by
  obtain ⟨E, g, time, es, hraw, -, hreached, hsorted⟩ := exists_gauge id events
  rw [hraw, hreached]
  exact Gauge.reached_eq_some (hsorted h) (target_pos id)

theorem rawEarnedAt_isSome : ((events.foldl Progress.event {}).rawEarnedAt id).isSome = true ↔
    id.target ≤ id.tally events := by
  obtain ⟨E, g, time, es, hraw, htally, -, -⟩ := exists_gauge id events
  rw [hraw, htally]
  exact Gauge.reached_isSome (target_pos id)

/-- A list of badges shows the badge as earned at the time. -/
def Shows (badges : List BadgeStatus) (id : BadgeID) (earnedAt : Instant) : Prop :=
  ∃ b ∈ badges, b.definition = id.definition ∧ b.earned = true ∧ b.earnedAt = some earnedAt

theorem mem_badgeProgress {b : BadgeStatus} : b ∈ badgeProgress events ↔ ∃ id : BadgeID,
    b = ((sortEvents events).foldl Progress.event {}).badge id.definition := by
  have hall : ∀ id : BadgeID, id ∈ ([.firstSighting, .feeder, .waterHelper, .neighborhoodWatcher,
      .catsOfIstanbul] : List BadgeID) := by
    intro id
    cases id <;> decide
  simp only [badgeProgress, badgeDefs, List.map_map, List.mem_map]
  constructor
  · rintro ⟨id, -, rfl⟩
    exact ⟨id, rfl⟩
  · rintro ⟨id, rfl⟩
    exact ⟨id, hall id, rfl⟩

theorem definition_id (id : BadgeID) : id.definition.id = id := by
  cases id <;> rfl

theorem definition_injective : Function.Injective BadgeID.definition :=
  fun id id' h => by rw [← definition_id id, h, definition_id]

/-- What is shown of a badge. -/
theorem badge_spec {b : BadgeStatus}
    (h : b = ((sortEvents events).foldl Progress.event {}).badge id.definition) :
    (b.earned = true ↔ id.target ≤ id.tally events) ∧
      (b.earned = true → ∀ T, b.earnedAt = some T ↔ IsLeast (reachedBy id events) T) ∧
      (b.earned = true → b.earnedAt.isSome = true) := by
  have htally : id.tally (sortEvents events) = id.tally events := tally_perm sortEvents_perm
  have hearned : b.earned = true ↔
      id.target ≤ ((sortEvents events).foldl Progress.event {}).rawValue id := by
    rw [h, Progress.badge, definition_id]
    exact decide_eq_true_iff
  have hearnedAt : b.earned = true →
      b.earnedAt = ((sortEvents events).foldl Progress.event {}).rawEarnedAt id := by
    intro hyes
    have htarget : id.definition.target = id.target := rfl
    rw [h, Progress.badge, definition_id, htarget]
    exact if_pos (hearned.mp hyes)
  refine ⟨by rw [hearned, target_le_rawValue, htally], fun hyes T => ?_, fun hyes => ?_⟩
  · rw [hearnedAt hyes, rawEarnedAt_eq_some sortEvents_sorted, reachedBy_perm sortEvents_perm]
  · rw [hearnedAt hyes, rawEarnedAt_isSome, htally, ← htally, ← target_le_rawValue]
    exact hearned.mp hyes

/-- A badge is shown as earned at the least time by which the contributions reach its target. -/
theorem shows_badgeProgress :
    Shows (badgeProgress events) id T ↔ IsLeast (reachedBy id events) T := by
  constructor
  · rintro ⟨b, hb, hdefinition, hearned, hearnedAt⟩
    obtain ⟨id', rfl⟩ := mem_badgeProgress.mp hb
    obtain rfl : id' = id := definition_injective hdefinition
    exact ((badge_spec rfl).2.1 hearned T).mp hearnedAt
  · intro h
    obtain ⟨hearned, hearnedAt, -⟩ := badge_spec (rfl : ((sortEvents events).foldl Progress.event
      {}).badge id.definition = _)
    have hyes := hearned.mpr (h.1.trans (tally_mono List.filter_sublist))
    exact ⟨_, mem_badgeProgress.mpr ⟨id, rfl⟩, rfl, hyes, (hearnedAt hyes T).mpr h⟩

/-- An earned badge is shown with its date. -/
theorem shows_of_earned {b : BadgeStatus} (hb : b ∈ badgeProgress events) (h : b.earned = true) :
    ∃ id T, b.definition = BadgeID.definition id ∧ b.earnedAt = some T := by
  obtain ⟨id, rfl⟩ := mem_badgeProgress.mp hb
  obtain ⟨T, hT⟩ := Option.isSome_iff_exists.mp ((badge_spec rfl).2.2 h)
  exact ⟨id, T, rfl, hT⟩

end Tally

end Tekir.Badges
