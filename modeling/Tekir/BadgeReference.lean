import Mathlib.Algebra.BigOperators.Group.List.Basic
import Mathlib.Data.List.Dedup
import Tekir.Badges

/-!
# What the badges count

The reference of the badge progress: plain counts over the contributions, and the first
contribution, in any order that follows the time, with which a count reaches its target.
-/
namespace Tekir.BadgeReference
open Schema Milestones Badges

/-- An ordinary update that carries the status. -/
def posts (s : Status) (e : ContributionEvent) : Bool :=
  e.kind == .ordinary && e.statuses.contains s

def distinctCats (events : List ContributionEvent) : ℕ :=
  (events.map ContributionEvent.catId).dedup.length

/-- What is counted for a badge. -/
def count (events : List ContributionEvent) : BadgeID → ℕ
  | .firstSighting => min (events.countP (posts .seen)) 1
  | .feeder => events.countP (posts .fed)
  | .waterHelper => events.countP (posts .waterProvided)
  | .neighborhoodWatcher => distinctCats (events.filter (posts .seen))
  | .catsOfIstanbul => distinctCats events

/-- The time of the first contribution with which the count reaches the target. -/
def firstReaching (id : BadgeID) (done : List ContributionEvent) :
    List ContributionEvent → Option Instant
  | [] => none
  | e :: rest =>
    if id.target ≤ count (done ++ [e]) id then some e.createdAt
    else firstReaching id (done ++ [e]) rest

def reference (ordered : List ContributionEvent) (id : BadgeID) : BadgeStatus :=
  { definition := id.definition, value := min (count ordered id) id.target
    earned := decide (id.target ≤ count ordered id), earnedAt := firstReaching id [] ordered }

/-- The badges in the order in which they are shown. -/
def badgeIds : List BadgeID :=
  [.firstSighting, .feeder, .waterHelper, .neighborhoodWatcher, .catsOfIstanbul]

/-- The count as a gauge of contributions, without the cap of the first sighting. -/
def gauge : BadgeID → Gauge ContributionEvent
  | .firstSighting => .count (posts .seen)
  | .feeder => .count (posts .fed)
  | .waterHelper => .count (posts .waterProvided)
  | .neighborhoodWatcher => .distinct (posts .seen) ContributionEvent.catId
  | .catsOfIstanbul => catsHelped

section Counts

variable {id : BadgeID} {events ordered : List ContributionEvent} {e : ContributionEvent} {s : Status}

theorem countP_marksOf (h : e.statuses.Nodup) :
    (marksOf e).countP (fun m => m.2 == s) = if posts s e then 1 else 0 := by
  unfold marksOf posts
  by_cases hkind : e.kind = .ordinary
  · rw [if_pos hkind, List.countP_map]
    have hcount : e.statuses.count s = if s ∈ e.statuses then 1 else 0 := h.count
    rw [List.count] at hcount
    simpa [hkind, Function.comp_def] using hcount
  · simp [hkind]

/-- No status is carried twice, so marks are counted as contributions. -/
theorem score_posted (h : ∀ e ∈ events, e.statuses.Nodup) :
    (posted s).score (marks events) = events.countP (posts s) := by
  induction events with
  | nil => rfl
  | cons e events ih =>
    have hrest : ∀ e ∈ events, e.statuses.Nodup := fun e he => h e (List.mem_cons_of_mem _ he)
    have hmarks : marks (e :: events) = marksOf e ++ marks events := rfl
    have hscore : ∀ ms, (posted s).score ms = ms.countP fun m => m.2 == s := fun _ => rfl
    rw [hscore, hmarks, List.countP_append, countP_marksOf (h e List.mem_cons_self), ← hscore,
      ih hrest, List.countP_cons, Nat.add_comm]

theorem mem_marks_seen {c : UUID} :
    c ∈ ((marks events).filter fun m => m.2 == .seen).map (fun m => m.1.catId) ↔
      c ∈ (events.filter (posts .seen)).map ContributionEvent.catId := by
  simp only [List.mem_map, List.mem_filter, marks, List.mem_flatMap]
  constructor
  · rintro ⟨m, ⟨⟨e, he, hm⟩, hseen⟩, rfl⟩
    unfold marksOf at hm
    split at hm
    case isTrue hkind =>
      obtain ⟨s, hs, rfl⟩ := List.mem_map.mp hm
      obtain rfl : s = .seen := beq_iff_eq.mp hseen
      exact ⟨e, ⟨he, by simp [posts, hkind, hs]⟩, rfl⟩
    case isFalse => cases hm
  · rintro ⟨e, ⟨he, hposts⟩, rfl⟩
    simp only [posts, Bool.and_eq_true, beq_iff_eq, List.contains_iff_mem] at hposts
    refine ⟨(e, .seen), ⟨⟨e, he, ?_⟩, rfl⟩, rfl⟩
    rw [marksOf, if_pos hposts.1]
    exact List.mem_map.mpr ⟨.seen, hposts.2, rfl⟩

theorem score_catsSeen : catsSeen.score (marks events) = (gauge .neighborhoodWatcher).score events := by
  have hcats : (((marks events).filter fun m => m.2 == .seen).map fun m => m.1.catId).toFinset =
      ((events.filter (posts .seen)).map ContributionEvent.catId).toFinset := by
    ext c
    rw [List.mem_toFinset, List.mem_toFinset]
    exact mem_marks_seen
  exact congrArg Finset.card hcats

theorem tally_eq (h : ∀ e ∈ events, e.statuses.Nodup) : id.tally events = (gauge id).score events := by
  cases id with
  | firstSighting => exact score_posted h
  | feeder => exact score_posted h
  | waterHelper => exact score_posted h
  | neighborhoodWatcher => exact score_catsSeen
  | catsOfIstanbul => rfl

theorem distinctCats_eq : distinctCats events =
    (events.map ContributionEvent.catId).toFinset.card :=
  (List.card_toFinset _).symm

theorem score_catsHelped : catsHelped.score events = distinctCats events := by
  rw [distinctCats_eq, catsHelped, Gauge.distinct]
  simp

/-- The count is what the gauge shows, up to the cap. -/
theorem count_eq : count events id =
    if id = .firstSighting then min ((gauge id).score events) 1 else (gauge id).score events := by
  cases id with
  | firstSighting => rfl
  | feeder => rfl
  | waterHelper => rfl
  | neighborhoodWatcher => exact distinctCats_eq
  | catsOfIstanbul => exact score_catsHelped.symm

theorem target_le_count : id.target ≤ count events id ↔ id.target ≤ (gauge id).score events := by
  rw [count_eq]
  split
  · rename_i hid
    subst hid
    have htarget : BadgeID.target .firstSighting = 1 := rfl
    omega
  · exact Iff.rfl

theorem firstReaching_eq {done rest : List ContributionEvent} : firstReaching id done rest =
    (gauge id).reached ContributionEvent.createdAt id.target done rest := by
  induction rest generalizing done with
  | nil => rfl
  | cons e rest ih => simp only [firstReaching, Gauge.reached, target_le_count, ih]

theorem reachedBy_eq (h : ∀ e ∈ events, e.statuses.Nodup) : reachedBy id events =
    (gauge id).reaches ContributionEvent.createdAt id.target events := by
  ext t
  have huntil : ∀ e ∈ until' t events, e.statuses.Nodup := fun e he => h e (List.mem_of_mem_filter he)
  rw [reachedBy, Gauge.reaches, Set.mem_ofPred_eq, Set.mem_ofPred_eq, tally_eq huntil, until']

end Counts

section Badges

variable {id : BadgeID} {events events' ordered : List ContributionEvent}

theorem rawValue_eq (h : ∀ e ∈ events, e.statuses.Nodup) :
    (events.foldl Progress.event {}).rawValue id = count events id := by
  obtain ⟨hcounted, hgathered⟩ := walked events
  cases id with
  | firstSighting =>
    have hpos : 0 < BadgeID.target .firstSighting := by decide
    have hseen : ((posted .seen).reached markedAt (BadgeID.target .firstSighting) []
        (marks events)).isSome = true ↔ _ := Gauge.reached_isSome hpos
    rw [← hcounted.firstSeenAt, score_posted h] at hseen
    have htarget : BadgeID.target .firstSighting = 1 := rfl
    rw [htarget] at hseen
    simp only [Progress.rawValue, count]
    split
    · rename_i hsome
      have hone := hseen.mp hsome
      omega
    · rename_i hnone
      have hzero := mt hseen.mpr hnone
      omega
  | feeder => rw [Progress.rawValue, hcounted.counts, score_posted h, count]
  | waterHelper => rw [Progress.rawValue, hcounted.counts, score_posted h, count]
  | neighborhoodWatcher =>
    rw [Progress.rawValue, hcounted.seenCats_length, score_catsSeen, count, distinctCats_eq]
    rfl
  | catsOfIstanbul =>
    rw [Progress.rawValue, hgathered.allCats_length, score_catsHelped, count]

theorem count_perm (h : events.Perm events') : count events id = count events' id := by
  rw [count_eq, count_eq, (gauge id).perm h]

/-- Whatever the order of contributions of one time, the target is first reached at the same. -/
theorem rawEarnedAt_eq (hordered : ordered.Pairwise fun e e' => e.createdAt ≤ e'.createdAt)
    (hperm : ordered.Perm events) (hnodup : ∀ e ∈ events, e.statuses.Nodup)
    (hreached : id.target ≤ count events id) :
    ((sortEvents events).foldl Progress.event {}).rawEarnedAt id = firstReaching id [] ordered := by
  have hnodup' : ∀ e ∈ ordered, e.statuses.Nodup := fun e he => hnodup e (hperm.subset he)
  have hscore : id.target ≤ (gauge id).score ordered := by
    rw [(gauge id).perm hperm]
    exact target_le_count.mp hreached
  have hsome : ((gauge id).reached ContributionEvent.createdAt id.target [] ordered).isSome = true :=
    (Gauge.reached_isSome (target_pos id)).mpr hscore
  obtain ⟨T, hT⟩ := Option.isSome_iff_exists.mp hsome
  have hleast := (Gauge.reached_eq_some hordered (target_pos id)).mp hT
  rw [← reachedBy_eq hnodup', reachedBy_perm (hperm.trans sortEvents_perm.symm)] at hleast
  rw [firstReaching_eq, hT]
  exact (rawEarnedAt_eq_some sortEvents_sorted).mpr hleast

theorem firstReaching_eq_none (h : ¬ id.target ≤ count ordered id) :
    firstReaching id [] ordered = none := by
  rw [firstReaching_eq, ← Option.not_isSome_iff_eq_none, Gauge.reached_isSome (target_pos id)]
  exact mt target_le_count.mpr h

theorem badge_eq_reference (hordered : ordered.Pairwise fun e e' => e.createdAt ≤ e'.createdAt)
    (hperm : ordered.Perm events) (hnodup : ∀ e ∈ events, e.statuses.Nodup) :
    ((sortEvents events).foldl Progress.event {}).badge id.definition = reference ordered id := by
  have hsorted : ∀ e ∈ sortEvents events, e.statuses.Nodup :=
    fun e he => hnodup e (sortEvents_perm.subset he)
  have hvalue : ((sortEvents events).foldl Progress.event {}).rawValue id = count ordered id := by
    rw [rawValue_eq hsorted, count_perm (sortEvents_perm.trans hperm.symm)]
  have htarget : id.definition.target = id.target := rfl
  rw [Progress.badge, reference, definition_id, hvalue, htarget]
  congr 1
  split
  · rename_i hreached
    rw [count_perm hperm] at hreached
    exact rawEarnedAt_eq hordered hperm hnodup hreached
  · rename_i hnot
    exact (firstReaching_eq_none hnot).symm

theorem badgeProgress_eq (hordered : ordered.Pairwise fun e e' => e.createdAt ≤ e'.createdAt)
    (hperm : ordered.Perm events) (hnodup : ∀ e ∈ events, e.statuses.Nodup) :
    badgeProgress events = badgeIds.map (reference ordered) := by
  rw [badgeProgress, badgeDefs, List.map_map]
  apply List.map_congr_left
  intro id _
  exact badge_eq_reference hordered hperm hnodup

/-- One more contribution, wherever it is put, leaves an earned badge earned, at no later time. -/
theorem earned_of_more {e : ContributionEvent} (hperm : events'.Perm (e :: events))
    {b : BadgeStatus} (hb : b ∈ badgeProgress events) (hearned : b.earned = true) :
    ∃ b' ∈ badgeProgress events', b'.definition = b.definition ∧ b'.earned = true ∧
      ∃ T T', b.earnedAt = some T ∧ b'.earnedAt = some T' ∧ T' ≤ T := by
  obtain ⟨id, hid⟩ := mem_badgeProgress.mp hb
  obtain ⟨hreached, hdate, hsome⟩ := badge_spec hid
  obtain ⟨hreached', hdate', hsome'⟩ := badge_spec
    (rfl : ((sortEvents events').foldl Progress.event {}).badge id.definition = _)
  obtain ⟨T, hT⟩ := Option.isSome_iff_exists.mp (hsome hearned)
  have htally : id.tally events ≤ id.tally events' := by
    rw [tally_perm hperm]
    exact tally_mono (List.sublist_cons_self e events)
  have hearned' := hreached'.mpr ((hreached.mp hearned).trans htally)
  obtain ⟨T', hT'⟩ := Option.isSome_iff_exists.mp (hsome' hearned')
  refine ⟨_, mem_badgeProgress.mpr ⟨id, rfl⟩, by rw [hid]; rfl, hearned', T, T', hT, hT', ?_⟩
  have hleast := (hdate hearned T).mp hT
  have hleast' := (hdate' hearned' T').mp hT'
  -- by the old date the target is reached with the new contribution as well
  apply hleast'.2
  rw [reachedBy_perm hperm]
  refine hleast.1.trans (tally_mono ?_)
  exact (List.sublist_cons_self e events).filter _

end Badges

/-- The progress is that of the reference, in whatever order contributions of one time are taken,
and one more contribution neither takes a badge away nor moves its date back. -/
theorem badgeProgress_meets_reference (events : List ContributionEvent)
    (hnodup : ∀ e ∈ events, e.statuses.Nodup) :
    (∀ ordered : List ContributionEvent, ordered.Perm events →
      (ordered.Pairwise fun e e' => e.createdAt ≤ e'.createdAt) →
        badgeProgress events = badgeIds.map (reference ordered)) ∧
    (∀ events' : List ContributionEvent, events'.Perm events →
      badgeProgress events' = badgeProgress events) ∧
    ∀ (e : ContributionEvent) (events' : List ContributionEvent), events'.Perm (e :: events) →
      ∀ b ∈ badgeProgress events, b.earned = true →
        ∃ b' ∈ badgeProgress events', b'.definition = b.definition ∧ b'.earned = true ∧
          ∃ T T', b.earnedAt = some T ∧ b'.earnedAt = some T' ∧ T' ≤ T := by
  refine ⟨fun ordered hperm hordered => badgeProgress_eq hordered hperm hnodup, ?_, ?_⟩
  · intro events' hperm
    have hnodup' : ∀ e ∈ events', e.statuses.Nodup := fun e he => hnodup e (hperm.subset he)
    rw [badgeProgress_eq sortEvents_sorted sortEvents_perm hnodup,
      badgeProgress_eq sortEvents_sorted (sortEvents_perm.trans hperm.symm) hnodup']
  · intro e events' hperm b hb hearned
    exact earned_of_more hperm hb hearned

/-- Two sightings of one cat at the same time, the later one in the list first in sequence. -/
def sightings : List ContributionEvent :=
  [{ kind := .ordinary, catId := 1, createdAt := 3, seq := 2, statuses := [.seen, .fed] },
   { kind := .ordinary, catId := 1, createdAt := 3, seq := 1, statuses := [.seen] }]

theorem badgeProgress_meets_reference_sightings :
    (∀ e ∈ sightings, e.statuses.Nodup) ∧
      badgeProgress sightings = badgeIds.map (reference sightings) ∧
      (reference sightings .firstSighting).earnedAt = some 3 := by
  have hnodup : ∀ e ∈ sightings, e.statuses.Nodup := by decide
  refine ⟨hnodup, ?_, by decide⟩
  exact (badgeProgress_meets_reference sightings hnodup).1 sightings (.refl _) (by decide)

end Tekir.BadgeReference
