import Tekir.ServiceEffects

/-!
# Corrections and deletions of an own update

One conditional statement decides; when it matches no row, a second query names the reason.
The service reads its clock in nanoseconds and a `timestamptz` column holds microseconds,
so the statement compares with the window rounded down and the service with the exact one.
-/
namespace Tekir.Corrections
open Table Schema Statements UpdateQueries Environment CatServices

/-- A clock reading in nanoseconds, as a `timestamptz` column holds it. -/
def stored (nanos : ℤ) : Instant :=
  nanos / 1000

/-- `updateCorrectionWindow`. -/
def correctionWindowNanos : ℤ := 600000000000

/-- `CreatedAt.After`, of a stored instant and a clock reading. -/
def after (c : Instant) (nanos : ℤ) : Prop :=
  nanos < 1000 * c

instance (c : Instant) (nanos : ℤ) : Decidable (after c nanos) :=
  inferInstanceAs (Decidable (_ < _))

/-- What a call whose clock reads `now` draws from outside. -/
def reading (env : Env) (now : ℤ) : Env :=
  { env with clock := stored now }

/-- The reasons in their order, each with the answer it leads to. -/
def FirstApplicable {α : Type} : List (Prop × α) → α → Prop
  | [], _ => False
  | (p, a) :: rest, x => (p ∧ x = a) ∨ (¬ p ∧ FirstApplicable rest x)

section Conditions

variable (now : ℤ) (catId updateId userId : UUID)

/-- What both operations demand of the row. -/
structure Correctable (u : Update) : Prop where
  cat : u.catId = catId
  kind : u.kind = .ordinary
  author : u.authorUserId = some userId
  live : u.deletedAt = none
  window : after u.createdAt (now - correctionWindowNanos)

/-- The row shows a status or the help flag. -/
def HasContent (t : Tables) (u : Update) : Prop :=
  (∃ s ∈ t.updateStatuses, s.updateId = u.id) ∨ u.needsHelp = true

/-- The medium of the row is the cover of its cat. -/
def IsCover (t : Tables) (u : Update) : Prop :=
  ∃ c ∈ t.cats, c.id = u.catId ∧ ∃ m, u.mediaId = some m ∧ c.primaryPhotoId = some m

def correctedRow (correction : UpdateCorrection) (u : Update) : Update :=
  { u with
    comment := if correction.setComment then correction.comment else u.comment
    updatedAt := some (stored now)
    needsHelp := if correction.clearNeedsHelp then false else u.needsHelp
    needsHelpExpiresAt := if correction.clearNeedsHelp then none else u.needsHelpExpiresAt
    needsHelpCategory := if correction.clearNeedsHelp then none else u.needsHelpCategory }

/-- The tables after a correction, with the statuses that were sent, if any were. -/
def corrected (correction : UpdateCorrection) (statuses : List Status) (t : Tables) : Tables :=
  { t with
    updates := updateWhere (fun u => u.id == updateId) (correctedRow now correction) t.updates
    updateStatuses :=
      if correction.statuses.isSome then
        deleteWhere (fun s => s.updateId == updateId) t.updateStatuses ++
          (orderStatuses statuses).map fun status => { updateId, status }
      else t.updateStatuses }

/-- The tables after a deletion. -/
def softDeleted (t : Tables) : Tables :=
  { t with
    updates := updateWhere (fun u => u.id == updateId)
      (fun u => { u with deletedAt := some (stored now) }) t.updates }

/-- The update is there, on this cat and not a legacy one. -/
def Found (t : Tables) (p : Update → Prop) : Prop :=
  ∃ u ∈ t.updates, u.id = updateId ∧ u.catId = catId ∧ u.kind = .ordinary ∧ p u

/-- What both operations are refused for, with the answer on a row that is already deleted. -/
def refusals (t : Tables) (already : Except Error Unit) : List (Prop × Except Error Unit) :=
  [(¬ Found catId updateId t fun _ => True, .error .updateNotFound),
   (Found catId updateId t fun u => u.authorUserId ≠ some userId, .error .notUpdateAuthor),
   (Found catId updateId t fun u => u.deletedAt ≠ none, already),
   (Found catId updateId t fun u => ¬ after u.createdAt (now - correctionWindowNanos),
    .error .correctionWindowExpired)]

def correctionRefusals (t t' : Tables) : List (Prop × Except Error Unit) :=
  refusals now catId updateId userId t (.error .updateNotFound) ++
    [(¬ Found catId updateId t' (HasContent t'), .error .invalidStatuses)]

def deletionRefusals (t : Tables) : List (Prop × Except Error Unit) :=
  refusals now catId updateId userId t (.ok ()) ++
    [(Found catId updateId t (IsCover t), .error .updateHoldsCover)]

/-- The operation is carried out precisely if the row meets the condition. Otherwise nothing
changes and the answer is the one of the first reason. Never does a row become live again,
and a row whose window has closed stays as it is, with its statuses. -/
structure Decides (p : Update → Prop) (write : Tables → Tables)
    (reasons : List (Prop × Except Error Unit)) (w : World) (out : Except Error Unit × World) :
    Prop where
  performs : (∃ u ∈ w.db.tables.updates, u.id = updateId ∧ p u) →
    out.1 = .ok () ∧ out.2.db.tables = write w.db.tables ∧ out.2.objects = w.objects ∧
      out.2.sent = w.sent
  refuses : (¬ ∃ u ∈ w.db.tables.updates, u.id = updateId ∧ p u) →
    out.2 = w ∧ FirstApplicable reasons out.1
  nothingRevived : ∀ u' ∈ out.2.db.tables.updates, u'.deletedAt = none →
    ∃ u ∈ w.db.tables.updates, u.id = u'.id ∧ u.deletedAt = none
  closedKept : ∀ u ∈ w.db.tables.updates,
    u.deletedAt ≠ none ∨ ¬ after u.createdAt (now - correctionWindowNanos) →
      u ∈ out.2.db.tables.updates ∧
      out.2.db.tables.updateStatuses.filter (fun s => s.updateId == u.id) =
        w.db.tables.updateStatuses.filter fun s => s.updateId == u.id

end Conditions

section Clock

theorem stored_sub_window (now : ℤ) :
    stored (now - correctionWindowNanos) = stored now - updateCorrectionWindow := by
  have h : (now - 600000000000) / 1000 = now / 1000 - 600000000 := by omega
  exact h

/-- The comparison of the statement and the one of the service agree. -/
theorem stored_lt_iff {nanos : ℤ} {c : Instant} : stored nanos < c ↔ after c nanos := by
  have h : ∀ c : ℤ, nanos / 1000 < c ↔ nanos < 1000 * c := by
    intro c
    omega
  exact h c

theorem windowStart_lt_iff {now : ℤ} {c : Instant} :
    stored now - updateCorrectionWindow < c ↔ after c (now - correctionWindowNanos) := by
  rw [← stored_sub_window]
  exact stored_lt_iff

end Clock

section Cascade

variable {now : ℤ} {catId updateId userId : UUID} {correction : Bool} {db : Database}

/-- `resolveCorrectionFailure` with the comparison as the service makes it. -/
def resolveByReading (catId updateId authorUserId : UUID) (windowStart : ℤ) (correction : Bool)
    (db : Database) : Except Error Unit :=
  match getUpdateForCorrectionCheck updateId catId db with
  | .error .noRows => .error .updateNotFound
  | .error e => .error e
  | .ok (check, holdsCover) =>
    if check.kind ≠ .ordinary then .error .updateNotFound
    else if check.authorUserId ≠ some authorUserId then .error .notUpdateAuthor
    else if check.deletedAt.isSome then .ok ()
    else if ¬ after check.createdAt windowStart then .error .correctionWindowExpired
    else if !correction && holdsCover then .error .updateHoldsCover
    else if correction then .error .invalidStatuses
    else .error .updateNotFound

/-- Rounding the window down changes no reason. -/
theorem resolve_eq : resolveCorrectionFailure catId updateId userId
    (stored now - updateCorrectionWindow) correction db =
      resolveByReading catId updateId userId (now - correctionWindowNanos) correction db := by
  have hwindow : ∀ c : Instant, c ≤ stored now - updateCorrectionWindow ↔
      ¬ after c (now - correctionWindowNanos) := by
    intro c
    rw [← windowStart_lt_iff]
    exact not_lt.symm
  unfold resolveCorrectionFailure resolveByReading
  rcases getUpdateForCorrectionCheck updateId catId db with e | ⟨check, holdsCover⟩
  · cases e <;> rfl
  · simp only [hwindow]

end Cascade

section Rows

variable {db : Database} {updateId : UUID} {u : Update} {p : Update → Bool}

/-- The one row a condition on a single update can match. -/
theorem one_eq_ok_of_mem (hu : u ∈ db.tables.updates) (hp : p u = true)
    (hid : ∀ v, p v = true → v.id = u.id) : one (db.tables.updates.filter p) = .ok u := by
  have hmem : u ∈ db.tables.updates.filter p := List.mem_filter.mpr ⟨hu, hp⟩
  cases hrows : db.tables.updates.filter p with
  | nil =>
    rw [hrows] at hmem
    cases hmem
  | cons v vs =>
    have hv : v ∈ db.tables.updates.filter p := by
      rw [hrows]
      exact List.mem_cons_self
    obtain ⟨hvmem, hpv⟩ := List.mem_filter.mp hv
    have heq : v = u := (db.valid.holds .updatesPkey).eq_of_key_eq hvmem hu
      (congrArg some (hid v hpv)) (by simp)
    rw [heq]
    rfl

theorem one_eq_noRows_of_forall (h : ∀ u ∈ db.tables.updates, p u = false) :
    one (db.tables.updates.filter p) = .error .noRows := by
  apply one_eq_noRows.mpr
  apply List.filter_eq_nil_iff.mpr
  intro u hu
  simp [h u hu]

/-- Rewriting the one row that matches is rewriting the row under its identifier. -/
theorem updateWhere_eq (hu : u ∈ db.tables.updates) (hp : p u = true)
    (hid : ∀ v, p v = true → v.id = u.id) (f : Update → Update) :
    updateWhere p f db.tables.updates =
      updateWhere (fun v => v.id == u.id) f db.tables.updates := by
  apply List.map_congr_left
  intro v hv
  by_cases hvid : v.id = u.id
  · have heq : v = u := (db.valid.holds .updatesPkey).eq_of_key_eq hv hu
      (congrArg some hvid) (by simp)
    simp [heq, hp]
  · have hpv : p v = false := by
      by_contra hpv
      exact hvid (hid v (by simpa using hpv))
    simp [hpv, hvid]

end Rows

section Validity

variable {t : Tables} {p : Update → Bool} {f : Update → Update}

/-- The columns that keys, indexes and references are about. -/
def indexed (u : Update) :
    UUID × UUID × UpdateKind × Option UUID × Option UUID × Option String × Option UUID :=
  (u.id, u.catId, u.kind, u.authorDeviceId, u.authorUserId, u.idempotencyKey, u.mediaId)

/-- An assignment to the other columns violates nothing as long as the help fields agree. -/
theorem rewritten_valid (ht : Valid t) (hf : ∀ u, indexed (f u) = indexed u)
    (hhelp : ∀ u ∈ t.updates,
      ((f u).needsHelp = false ∧ (f u).needsHelpCategory = none ∧
        (f u).needsHelpExpiresAt = none) ∨
      ((f u).needsHelp = true ∧ (f u).needsHelpExpiresAt ≠ none)) :
    Valid { t with updates := updateWhere p f t.updates } := by
  have hid : ∀ u, (f u).id = u.id := fun u => congrArg (·.1) (hf u)
  have hcat : ∀ u, (f u).catId = u.catId := fun u => congrArg (·.2.1) (hf u)
  have hkind : ∀ u, (f u).kind = u.kind := fun u => congrArg (·.2.2.1) (hf u)
  have hdevice : ∀ u, (f u).authorDeviceId = u.authorDeviceId :=
    fun u => congrArg (·.2.2.2.1) (hf u)
  have huser : ∀ u, (f u).authorUserId = u.authorUserId :=
    fun u => congrArg (·.2.2.2.2.1) (hf u)
  have hkey : ∀ u, (f u).idempotencyKey = u.idempotencyKey :=
    fun u => congrArg (·.2.2.2.2.2.1) (hf u)
  have hmedia : ∀ u, (f u).mediaId = u.mediaId := fun u => congrArg (·.2.2.2.2.2.2) (hf u)
  refine valid_iff.mpr fun c => ?_
  have h := ht.holds c
  cases c
  case updatesPkey => exact h.updateWhere _ fun u => congrArg some (hid u)
  case updatesUserIdempotencyUq =>
    apply h.updateWhere
    intro u
    simp only [hkind, huser, hkey]
  case updatesNeedsHelpFieldsCk =>
    intro v hv
    obtain ⟨q, hq, rfl⟩ := mem_updateWhere.mp hv
    split
    · exact hhelp q hq
    · exact h q hq
  case updatesCatIdFkey => exact h.updateWhere_child _ fun u => .inl (congrArg some (hcat u))
  case updatesAuthorDeviceIdFkey => exact h.updateWhere_child _ fun u => .inl (hdevice u)
  case updatesAuthorUserIdFkey => exact h.updateWhere_child _ fun u => .inl (huser u)
  case updatesMediaIdFkey => exact h.updateWhere_child _ fun u => .inl (hmedia u)
  case updateStatusesUpdateIdFkey => exact h.updateWhere_parent _ hid
  case notificationOutboxUpdateIdFkey => exact h.updateWhere_parent _ hid
  case notificationsUpdateIdFkey => exact h.updateWhere_parent _ hid
  all_goals exact h

end Validity

section Statuses

variable {db : Database} {updateId : UUID} {status : Status} {statuses : List Status}

/-- A status that the update does not carry yet is appended. -/
theorem createUpdateStatus_eq (hu : ∃ u ∈ db.tables.updates, u.id = updateId)
    (hnew : ∀ s ∈ db.tables.updateStatuses, s.updateId = updateId → s.status ≠ status) :
    ∃ db', createUpdateStatus updateId status db = .ok db' ∧
      db'.tables = { db.tables with
        updateStatuses := db.tables.updateStatuses ++ [{ updateId, status }] } := by
  have hany : (db.tables.updateStatuses.any fun s =>
      s.updateId == updateId && s.status == status) = false := by
    apply List.any_eq_false.mpr
    intro s hs hmatch
    simp only [Bool.and_eq_true, beq_iff_eq] at hmatch
    exact hnew s hs hmatch.1 hmatch.2
  have hvalid : Valid { db.tables with
      updateStatuses := db.tables.updateStatuses ++ [{ updateId, status }] } := by
    refine valid_iff.mpr fun c => ?_
    have h := db.valid.holds c
    cases c
    case updateStatusesPkey =>
      refine uniqueOn_append_singleton.mpr ⟨h, fun s hs => .inr ?_⟩
      intro heq
      obtain ⟨hid, hstatus⟩ := Prod.mk.inj (Option.some.inj heq)
      exact hnew s hs hid hstatus
    case updateStatusesUpdateIdFkey =>
      refine references_append_singleton.mpr ⟨h, ?_⟩
      rintro _ ⟨⟩
      exact hu
    all_goals exact h
  refine ⟨⟨_, hvalid⟩, ?_, rfl⟩
  unfold createUpdateStatus
  rw [hany, if_neg Bool.false_ne_true]
  exact write_eq_ok.mpr rfl

/-- Statuses the update does not carry yet are appended in their order. -/
theorem createStatuses_eq (hu : ∃ u ∈ db.tables.updates, u.id = updateId)
    (hnodup : statuses.Nodup)
    (hnew : ∀ s ∈ db.tables.updateStatuses, s.updateId = updateId → s.status ∉ statuses) :
    ∃ db', statuses.foldlM (fun db status => createUpdateStatus updateId status db) db = .ok db' ∧
      db'.tables = { db.tables with
        updateStatuses := db.tables.updateStatuses ++
          statuses.map fun status => { updateId, status } } := by
  induction statuses generalizing db with
  | nil => exact ⟨db, rfl, by simp⟩
  | cons status statuses ih =>
    obtain ⟨hfresh, hnodup⟩ := List.nodup_cons.mp hnodup
    obtain ⟨db₁, hcreate, ht₁⟩ := @createUpdateStatus_eq _ updateId status hu fun s hs hid heq =>
      hnew s hs hid (heq ▸ List.mem_cons_self)
    have hnew₁ : ∀ s ∈ db₁.tables.updateStatuses, s.updateId = updateId → s.status ∉ statuses := by
      intro s hs hid hmem
      rw [ht₁] at hs
      rcases List.mem_append.mp hs with hs | hs
      · exact hnew s hs hid (List.mem_cons_of_mem _ hmem)
      · rw [List.mem_singleton.mp hs] at hmem
        exact hfresh hmem
    have hu₁ : ∃ u ∈ db₁.tables.updates, u.id = updateId := by
      rw [ht₁]
      exact hu
    obtain ⟨db', hfold, ht⟩ := ih hu₁ hnodup hnew₁
    refine ⟨db', ?_, ?_⟩
    · rw [List.foldlM_cons, hcreate]
      exact hfold
    · rw [ht, ht₁]
      simp

/-- The statuses of an update are replaced as a whole. -/
theorem replaceStatuses_eq (hu : ∃ u ∈ db.tables.updates, u.id = updateId)
    (hnodup : statuses.Nodup) :
    ∃ db', Store.replaceStatuses updateId statuses db = .ok db' ∧
      db'.tables = { db.tables with
        updateStatuses := deleteWhere (fun s => s.updateId == updateId) db.tables.updateStatuses ++
          statuses.map fun status => { updateId, status } } := by
  have hvalid : Valid { db.tables with
      updateStatuses :=
        deleteWhere (fun s => s.updateId == updateId) db.tables.updateStatuses } := by
    refine valid_iff.mpr fun c => ?_
    have h := db.valid.holds c
    cases c
    case updateStatusesPkey => exact h.deleteWhere _
    case updateStatusesUpdateIdFkey => exact h.deleteWhere_child
    all_goals exact h
  obtain ⟨db', hfold, ht⟩ := @createStatuses_eq ⟨_, hvalid⟩ updateId statuses hu hnodup (by
      intro s hs hid
      have hs := (mem_deleteWhere.mp hs).2
      simp [hid] at hs)
  refine ⟨db', ?_, ht⟩
  exact bind_eq_ok.mpr ⟨_, write_eq_ok.mpr rfl, hfold⟩

theorem orderStatuses_nodup (h : statuses.Nodup) : (orderStatuses statuses).Nodup :=
  (List.perm_insertionSort _ _).nodup_iff.mpr h

theorem mem_orderStatuses : status ∈ orderStatuses statuses ↔ status ∈ statuses :=
  mem_orderBy

theorem validateStatusSet_nodup {texts : List String} {allowEmpty : Bool}
    (h : validateStatusSet texts allowEmpty = .ok statuses) : statuses.Nodup := by
  unfold validateStatusSet at h
  split at h
  · cases h
  · split at h
    · cases h
    · split at h
      · rename_i hnodup
        cases h
        exact hnodup
      · cases h

theorem parsed_nodup {correction : UpdateCorrection} (h : correction.parsed = .ok statuses) :
    statuses.Nodup := by
  unfold UpdateCorrection.parsed at h
  split at h
  · cases h
    exact List.nodup_nil
  · exact validateStatusSet_nodup h

end Statuses

section Reasons

variable {db : Database} {catId updateId userId : UUID} {u : Update} {now : ℤ}

theorem holdsCover_iff : holdsCover u db = true ↔ IsCover db.tables u := by
  unfold holdsCover IsCover
  cases hmedia : u.mediaId <;> simp

theorem found_iff {p : Update → Prop} (hu : u ∈ db.tables.updates) (hid : u.id = updateId)
    (hcat : u.catId = catId) (hkind : u.kind = .ordinary) :
    Found catId updateId db.tables p ↔ p u := by
  constructor
  · rintro ⟨v, hv, hvid, -, -, hp⟩
    have heq : v = u := (db.valid.holds .updatesPkey).eq_of_key_eq hv hu
      (congrArg some (hvid.trans hid.symm)) (by simp)
    exact heq ▸ hp
  · exact fun hp => ⟨u, hu, hid, hcat, hkind, hp⟩

theorem check_eq_ok (hu : u ∈ db.tables.updates) (hid : u.id = updateId) (hcat : u.catId = catId) :
    getUpdateForCorrectionCheck updateId catId db = .ok (u, holdsCover u db) := by
  have hone : one (db.tables.updates.filter fun v => v.id == updateId && v.catId == catId) =
      .ok u := by
    apply one_eq_ok_of_mem hu
    · simp [hid, hcat]
    · intro v hv
      simp only [Bool.and_eq_true, beq_iff_eq] at hv
      exact hv.1.trans hid.symm
  exact bind_eq_ok.mpr ⟨u, hone, rfl⟩

theorem check_eq_noRows (h : ∀ u ∈ db.tables.updates, u.id = updateId → u.catId ≠ catId) :
    getUpdateForCorrectionCheck updateId catId db = .error .noRows := by
  have hone : one (db.tables.updates.filter fun v => v.id == updateId && v.catId == catId) =
      .error .noRows := by
    apply one_eq_noRows_of_forall
    intro u hu
    by_cases hid : u.id = updateId
    · simp [h u hu hid]
    · simp [hid]
  exact bind_eq_error.mpr (.inl hone)

theorem resolve_missing {windowStart : ℤ} {correction : Bool}
    (h : ¬ Found catId updateId db.tables fun _ => True) :
    resolveByReading catId updateId userId windowStart correction db = .error .updateNotFound := by
  by_cases hrow : ∃ u ∈ db.tables.updates, u.id = updateId ∧ u.catId = catId
  · obtain ⟨u, hu, hid, hcat⟩ := hrow
    have hkind : u.kind ≠ .ordinary := fun hkind => h ⟨u, hu, hid, hcat, hkind, trivial⟩
    unfold resolveByReading
    rw [check_eq_ok hu hid hcat]
    exact if_pos hkind
  · unfold resolveByReading
    rw [check_eq_noRows fun u hu hid hcat => hrow ⟨u, hu, hid, hcat⟩]

theorem resolve_found {windowStart : ℤ} {correction : Bool} (hu : u ∈ db.tables.updates)
    (hid : u.id = updateId) (hcat : u.catId = catId) (hkind : u.kind = .ordinary) :
    resolveByReading catId updateId userId windowStart correction db =
      if u.authorUserId ≠ some userId then .error .notUpdateAuthor
      else if u.deletedAt.isSome then .ok ()
      else if ¬ after u.createdAt windowStart then .error .correctionWindowExpired
      else if !correction && holdsCover u db then .error .updateHoldsCover
      else if correction then .error .invalidStatuses
      else .error .updateNotFound := by
  unfold resolveByReading
  rw [check_eq_ok hu hid hcat]
  exact if_neg (not_not_intro hkind)

/-- The cascade names the first of the shared reasons; `answer` is what a caller makes of it. -/
theorem resolve_first {correction : Bool} {answer : Except Error Unit → Except Error Unit}
    {lastReasons : List (Prop × Except Error Unit)} (herror : ∀ e, answer (.error e) = .error e)
    (hlast : ∀ u ∈ db.tables.updates, u.id = updateId → Correctable now catId userId u →
      FirstApplicable lastReasons (answer
        (resolveByReading catId updateId userId (now - correctionWindowNanos) correction db))) :
    FirstApplicable
      (refusals now catId updateId userId db.tables (answer (.ok ())) ++ lastReasons)
      (answer
        (resolveByReading catId updateId userId (now - correctionWindowNanos) correction db)) := by
  by_cases hfound : Found catId updateId db.tables fun _ => True
  · obtain ⟨u, hu, hid, hcat, hkind, -⟩ := id hfound
    have hresolve := @resolve_found _ catId updateId userId u (now - correctionWindowNanos) correction
      hu hid hcat hkind
    refine .inr ⟨not_not_intro hfound, ?_⟩
    by_cases hauthor : u.authorUserId = some userId
    · refine .inr ⟨fun h => (found_iff hu hid hcat hkind).mp h hauthor, ?_⟩
      by_cases hdeleted : u.deletedAt = none
      · refine .inr ⟨fun h => (found_iff hu hid hcat hkind).mp h hdeleted, ?_⟩
        by_cases hwindow : after u.createdAt (now - correctionWindowNanos)
        · refine .inr ⟨fun h => (found_iff hu hid hcat hkind).mp h hwindow, ?_⟩
          exact hlast u hu hid ⟨hcat, hkind, hauthor, hdeleted, hwindow⟩
        · refine .inl ⟨(found_iff hu hid hcat hkind).mpr hwindow, ?_⟩
          rw [hresolve]
          simp [hauthor, hdeleted, hwindow, herror]
      · refine .inl ⟨(found_iff hu hid hcat hkind).mpr hdeleted, ?_⟩
        rw [hresolve]
        simp [hauthor, Option.isSome_iff_ne_none, hdeleted]
    · refine .inl ⟨(found_iff hu hid hcat hkind).mpr hauthor, ?_⟩
      rw [hresolve]
      simp [hauthor, herror]
  · refine .inl ⟨hfound, ?_⟩
    rw [resolve_missing hfound, herror]

end Reasons

section Deletion

variable {env : Env} {w : World} {db : Database} {now : ℤ} {catId updateId userId : UUID} {u : Update}

def deletion (now : ℤ) (catId updateId userId : UUID) : DeleteOwnUpdateParams :=
  { deletedAt := stored now, id := updateId, catId, authorUserId := userId
    windowStart := stored now - updateCorrectionWindow }

/-- The condition of the deleting statement. -/
def admits (arg : DeleteOwnUpdateParams) (db : Database) (u : Update) : Bool :=
  u.id == arg.id && u.catId == arg.catId && u.authorUserId == some arg.authorUserId &&
    u.kind == .ordinary && u.deletedAt.isNone && decide (arg.windowStart < u.createdAt) &&
    !holdsCover u db

theorem admits_iff : admits (deletion now catId updateId userId) db u = true ↔
    u.id = updateId ∧ Correctable now catId userId u ∧ ¬ IsCover db.tables u := by
  have hcover : holdsCover u db = false ↔ ¬ IsCover db.tables u := by
    rw [← holdsCover_iff]
    simp
  simp only [admits, deletion, Bool.and_eq_true, beq_iff_eq, decide_eq_true_eq,
    Bool.not_eq_true', hcover, windowStart_lt_iff, Option.isNone_iff_eq_none]
  constructor
  · rintro ⟨⟨⟨⟨⟨⟨hid, hcat⟩, hauthor⟩, hkind⟩, hlive⟩, hwindow⟩, hfree⟩
    exact ⟨hid, ⟨hcat, hkind, hauthor, hlive, hwindow⟩, hfree⟩
  · rintro ⟨hid, ⟨hcat, hkind, hauthor, hlive, hwindow⟩, hfree⟩
    exact ⟨⟨⟨⟨⟨⟨hid, hcat⟩, hauthor⟩, hkind⟩, hlive⟩, hwindow⟩, hfree⟩

theorem softDeleted_valid : Valid (softDeleted now updateId db.tables) := by
  apply rewritten_valid db.valid
  · intro u
    rfl
  · exact db.valid.holds .updatesNeedsHelpFieldsCk

theorem deleteOwnUpdate_eq_ok (hu : u ∈ db.tables.updates) (hid : u.id = updateId)
    (hopen : Correctable now catId userId u) (hfree : ¬ IsCover db.tables u) :
    ∃ r db', UpdateQueries.deleteOwnUpdate (deletion now catId updateId userId) db = .ok (r, db') ∧
      db'.tables = softDeleted now updateId db.tables := by
  have hadmits : admits (deletion now catId updateId userId) db u = true :=
    admits_iff.mpr ⟨hid, hopen, hfree⟩
  have hsame : ∀ v, admits (deletion now catId updateId userId) db v = true → v.id = u.id :=
    fun v hv => (admits_iff.mp hv).1.trans hid.symm
  have hwritten : { db.tables with
      updates := updateWhere (admits (deletion now catId updateId userId) db)
        (fun u => { u with deletedAt := some (stored now) }) db.tables.updates } =
      softDeleted now updateId db.tables := by
    rw [updateWhere_eq hu hadmits hsame, hid]
    rfl
  refine ⟨{ u with deletedAt := some (stored now) }, ⟨_, softDeleted_valid⟩, ?_, rfl⟩
  refine bind_eq_ok.mpr ⟨u, one_eq_ok_of_mem hu hadmits hsame, ?_⟩
  refine bind_eq_ok.mpr ⟨⟨_, softDeleted_valid⟩, ?_, rfl⟩
  exact write_eq_ok.mpr hwritten.symm

theorem deleteOwnUpdate_eq_noRows
    (h : ¬ ∃ u ∈ db.tables.updates, u.id = updateId ∧ Correctable now catId userId u ∧
      ¬ IsCover db.tables u) :
    UpdateQueries.deleteOwnUpdate (deletion now catId updateId userId) db = .error .noRows := by
  refine bind_eq_error.mpr (.inl (one_eq_noRows_of_forall fun u hu => ?_))
  have hadmits : admits (deletion now catId updateId userId) db u = false := by
    apply Bool.eq_false_iff.mpr
    exact fun hadmits => h ⟨u, hu, admits_iff.mp hadmits⟩
  exact hadmits

/-- A rewriting of one open row revives nothing and leaves closed rows alone. -/
theorem closed_kept {t : Tables} (hopen : ∀ u ∈ db.tables.updates, u.id = updateId →
      Correctable now catId userId u) {f : Update → Update}
    (hupdates : t.updates = updateWhere (fun u => u.id == updateId) f db.tables.updates)
    (hstatuses : ∀ id, id ≠ updateId → t.updateStatuses.filter (fun s => s.updateId == id) =
      db.tables.updateStatuses.filter fun s => s.updateId == id) :
    ∀ u ∈ db.tables.updates,
      u.deletedAt ≠ none ∨ ¬ after u.createdAt (now - correctionWindowNanos) →
        u ∈ t.updates ∧ t.updateStatuses.filter (fun s => s.updateId == u.id) =
          db.tables.updateStatuses.filter fun s => s.updateId == u.id := by
  intro u hu hclosed
  have hid : u.id ≠ updateId := by
    intro hid
    have h := hopen u hu hid
    rcases hclosed with hdeleted | hwindow
    · exact hdeleted h.live
    · exact hwindow h.window
  refine ⟨?_, hstatuses u.id hid⟩
  rw [hupdates]
  exact mem_updateWhere.mpr ⟨u, hu, by simp [hid]⟩

theorem nothing_revived {t : Tables} {f : Update → Update} (hid : ∀ u, (f u).id = u.id)
    (hlive : ∀ u, (f u).deletedAt = none → u.deletedAt = none)
    (hupdates : t.updates = updateWhere (fun u => u.id == updateId) f db.tables.updates) :
    ∀ u' ∈ t.updates, u'.deletedAt = none →
      ∃ u ∈ db.tables.updates, u.id = u'.id ∧ u.deletedAt = none := by
  intro u' hu' hdeleted
  rw [hupdates] at hu'
  obtain ⟨u, hu, rfl⟩ := mem_updateWhere.mp hu'
  split at hdeleted
  · rename_i hmatch
    rw [if_pos hmatch]
    exact ⟨u, hu, (hid u).symm, hlive u hdeleted⟩
  · rename_i hmatch
    rw [if_neg hmatch]
    exact ⟨u, hu, rfl, hdeleted⟩

/-- The rows of one identifier are one row. -/
theorem correctable_of_mem (hu : u ∈ db.tables.updates) (hid : u.id = updateId)
    (hopen : Correctable now catId userId u) :
    ∀ v ∈ db.tables.updates, v.id = updateId → Correctable now catId userId v := by
  intro v hv hvid
  have heq : v = u := (db.valid.holds .updatesPkey).eq_of_key_eq hv hu
    (congrArg some (hvid.trans hid.symm)) (by simp)
  exact heq ▸ hopen

theorem deletion_decides (env : Env) (now : ℤ) (catId updateId userId : UUID) (w : World) :
    Decides now updateId
      (fun u => Correctable now catId userId u ∧ ¬ IsCover w.db.tables u)
      (softDeleted now updateId) (deletionRefusals now catId updateId userId w.db.tables) w
      (CatServices.deleteOwnUpdate (reading env now) (some catId) (some updateId) userId w) := by
  by_cases hrow : ∃ u ∈ w.db.tables.updates, u.id = updateId ∧ Correctable now catId userId u ∧
      ¬ IsCover w.db.tables u
  · obtain ⟨u, hu, hid, hopen, hfree⟩ := id hrow
    obtain ⟨r, db', hdelete, ht⟩ := deleteOwnUpdate_eq_ok hu hid hopen hfree
    have hout : CatServices.deleteOwnUpdate (reading env now) (some catId) (some updateId) userId w =
        (.ok (), { w with db := db' }) := by
      simp only [deletion] at hdelete
      simp only [CatServices.deleteOwnUpdate, reading, hdelete]
    rw [hout]
    refine ⟨fun _ => ⟨rfl, ht, rfl, rfl⟩, fun h => absurd hrow h, ?_, ?_⟩
    · refine nothing_revived (f := fun u => { u with deletedAt := some (stored now) }) ?_ ?_
        (congrArg Tables.updates ht)
      · exact fun _ => rfl
      · intro u hdeleted
        cases hdeleted
    · refine closed_kept (correctable_of_mem hu hid hopen) (congrArg Tables.updates ht) ?_
      intro id _
      rw [congrArg Tables.updateStatuses ht]
      rfl
  · have hdelete := deleteOwnUpdate_eq_noRows hrow
    have hout : CatServices.deleteOwnUpdate (reading env now) (some catId) (some updateId) userId w =
        (resolveByReading catId updateId userId (now - correctionWindowNanos) false w.db, w) := by
      rw [← resolve_eq]
      simp only [deletion] at hdelete
      simp only [CatServices.deleteOwnUpdate, reading, hdelete]
    rw [hout]
    refine ⟨fun h => absurd h hrow, fun _ => ⟨rfl, ?_⟩, fun u hu hlive => ⟨u, hu, rfl, hlive⟩,
      fun u hu _ => ⟨hu, rfl⟩⟩
    refine @resolve_first _ _ _ _ _ _ id _ (fun _ => rfl) fun u hu hid hopen => ?_
    have hcover : IsCover w.db.tables u := by
      by_contra hfree
      exact hrow ⟨u, hu, hid, hopen, hfree⟩
    refine .inl ⟨(found_iff hu hid hopen.cat hopen.kind).mpr hcover, ?_⟩
    rw [id, resolve_found hu hid hopen.cat hopen.kind]
    simp [hopen.author, hopen.live, hopen.window, holdsCover_iff.mpr hcover]

end Deletion

section Correction

variable {env : Env} {w : World} {db : Database} {now : ℤ} {catId updateId userId : UUID}
  {u : Update} {correction : UpdateCorrection} {statuses : List Status}

def patch (now : ℤ) (catId updateId userId : UUID) (correction : UpdateCorrection)
    (statuses : List Status) : Store.CorrectOwnUpdateParams :=
  { id := updateId, catId, authorUserId := userId, setComment := correction.setComment
    comment := correction.comment, updatedAt := stored now
    windowStart := stored now - updateCorrectionWindow
    replaceStatuses := correction.statuses.isSome, statuses := orderStatuses statuses
    clearNeedsHelp := correction.clearNeedsHelp }

theorem prepareCorrection_eq (hparsed : correction.parsed = .ok statuses)
    (hmoderated : correction.moderate env = .ok ()) :
    prepareCorrection (reading env now) (some catId) (some updateId) userId correction =
      .ok (patch now catId updateId userId correction statuses) :=
  bind_eq_ok.mpr ⟨statuses, hparsed, bind_eq_ok.mpr ⟨(), hmoderated, rfl⟩⟩

theorem assign_eq : (patch now catId updateId userId correction statuses).row.assign u =
    correctedRow now correction u := by
  cases hclear : correction.clearNeedsHelp <;>
    simp [patch, Store.CorrectOwnUpdateParams.row, CorrectOrdinaryUpdateParams.assign,
      correctedRow, hclear]

/-- The statuses that are sent are the ones the row carries afterwards. -/
theorem carries_corrected (t : Tables) :
    (∃ s ∈ (corrected now updateId correction statuses t).updateStatuses,
      s.updateId = updateId) ↔
    (if correction.statuses.isSome then !(orderStatuses statuses).isEmpty
      else carriesStatus updateId t.updateStatuses) = true := by
  cases hsent : correction.statuses.isSome with
  | false => simp [corrected, hsent, carriesStatus]
  | true =>
    simp only [corrected, hsent, if_true, Bool.not_eq_true', ← Bool.not_eq_true,
      List.isEmpty_iff]
    constructor
    · rintro ⟨s, hs, hid⟩ hempty
      simp only [hempty, List.map_nil, List.append_nil, mem_deleteWhere] at hs
      simp [hid] at hs
    · intro hne
      obtain ⟨status, hstatus⟩ := List.exists_mem_of_ne_nil _ hne
      exact ⟨{ updateId, status }, List.mem_append_right _ (List.mem_map.mpr ⟨status, hstatus, rfl⟩),
        rfl⟩

theorem matches_iff :
    (patch now catId updateId userId correction statuses).row.matches
        (carriesStatus updateId db.tables.updateStatuses) u = true ↔
      u.id = updateId ∧ Correctable now catId userId u ∧
        HasContent (corrected now updateId correction statuses db.tables)
          (correctedRow now correction u) := by
  have hhelp : (correctedRow now correction u).needsHelp =
      (u.needsHelp && !correction.clearNeedsHelp) := by
    cases hclear : correction.clearNeedsHelp <;> simp [correctedRow, hclear]
  have hcontent : u.id = updateId →
      (HasContent (corrected now updateId correction statuses db.tables)
        (correctedRow now correction u) ↔
      ((if correction.statuses.isSome then !(orderStatuses statuses).isEmpty
        else carriesStatus updateId db.tables.updateStatuses) ||
        (u.needsHelp && !correction.clearNeedsHelp)) = true) := by
    intro hid
    rw [Bool.or_eq_true, ← @carries_corrected now, ← hhelp, HasContent]
    simp only [correctedRow, hid]
  have hmatches : (patch now catId updateId userId correction statuses).row.matches
      (carriesStatus updateId db.tables.updateStatuses) u =
      (u.id == updateId && u.catId == catId && u.authorUserId == some userId &&
        u.kind == .ordinary && u.deletedAt.isNone &&
        decide (stored now - updateCorrectionWindow < u.createdAt) &&
        ((if correction.statuses.isSome then !(orderStatuses statuses).isEmpty
          else carriesStatus updateId db.tables.updateStatuses) ||
          (u.needsHelp && !correction.clearNeedsHelp))) := rfl
  rw [hmatches]
  simp only [Bool.and_eq_true, beq_iff_eq, decide_eq_true_eq, windowStart_lt_iff,
    Option.isNone_iff_eq_none]
  constructor
  · rintro ⟨⟨⟨⟨⟨⟨hid, hcat⟩, hauthor⟩, hkind⟩, hlive⟩, hwindow⟩, hrest⟩
    exact ⟨hid, ⟨hcat, hkind, hauthor, hlive, hwindow⟩, (hcontent hid).mpr hrest⟩
  · rintro ⟨hid, ⟨hcat, hkind, hauthor, hlive, hwindow⟩, hrest⟩
    exact ⟨⟨⟨⟨⟨⟨hid, hcat⟩, hauthor⟩, hkind⟩, hlive⟩, hwindow⟩, (hcontent hid).mp hrest⟩

theorem correctedRows_valid {t : Tables} (ht : Valid t) :
    Valid { t with
      updates := updateWhere (fun u => u.id == updateId) (correctedRow now correction) t.updates } := by
  apply rewritten_valid ht
  · intro u
    rfl
  · intro u hu
    have hfields := ht.holds .updatesNeedsHelpFieldsCk u hu
    cases hclear : correction.clearNeedsHelp with
    | true => exact .inl (by simp [correctedRow, hclear])
    | false => simpa [correctedRow, hclear] using hfields

theorem correctOwnUpdate_eq_ok (hnodup : statuses.Nodup) (hu : u ∈ db.tables.updates)
    (hid : u.id = updateId) (hopen : Correctable now catId userId u)
    (hcontent : HasContent (corrected now updateId correction statuses db.tables)
      (correctedRow now correction u)) :
    ∃ r db', Store.correctOwnUpdate (patch now catId updateId userId correction statuses) db =
        .ok (r, db') ∧
      db'.tables = corrected now updateId correction statuses db.tables := by
  have hadmits := matches_iff.mpr ⟨hid, hopen, hcontent⟩
  have hsame : ∀ v, (patch now catId updateId userId correction statuses).row.matches
      (carriesStatus updateId db.tables.updateStatuses) v = true → v.id = u.id :=
    fun v hv => (matches_iff.mp hv).1.trans hid.symm
  have hassign : (patch now catId updateId userId correction statuses).row.assign =
      correctedRow now correction := by
    funext v
    exact assign_eq
  have hrows : updateWhere ((patch now catId updateId userId correction statuses).row.matches
      (carriesStatus updateId db.tables.updateStatuses)) (correctedRow now correction)
        db.tables.updates =
      updateWhere (fun u => u.id == updateId) (correctedRow now correction) db.tables.updates := by
    rw [updateWhere_eq hu hadmits hsame, hid]
  have hvalid := @correctedRows_valid now updateId correction _ db.valid
  have hcorrect : correctOrdinaryUpdate (patch now catId updateId userId correction statuses).row db =
      .ok (correctedRow now correction u, ⟨_, hvalid⟩) := by
    refine bind_eq_ok.mpr ⟨u, one_eq_ok_of_mem hu hadmits hsame, ?_⟩
    refine bind_eq_ok.mpr ⟨⟨_, hvalid⟩, ?_, ?_⟩
    · apply write_eq_ok.mpr
      rw [hassign]
      exact congrArg (fun rows => { db.tables with updates := rows }) hrows.symm
    · rw [hassign]
      rfl
  cases hsent : correction.statuses.isSome with
  | false =>
    refine ⟨(correctedRow now correction u, listUpdateStatuses updateId ⟨_, hvalid⟩),
      ⟨_, hvalid⟩, bind_eq_ok.mpr ⟨_, hcorrect, ?_⟩, ?_⟩
    · exact if_neg (by simp [patch, hsent])
    · simp [corrected, hsent]
  | true =>
    have hrow : ∃ v ∈ (⟨_, hvalid⟩ : Database).tables.updates, v.id = updateId :=
      ⟨_, mem_updateWhere.mpr ⟨u, hu, rfl⟩, by simp [hid, correctedRow]⟩
    obtain ⟨db', hreplace, ht⟩ := replaceStatuses_eq hrow (orderStatuses_nodup hnodup)
    refine ⟨(correctedRow now correction u, orderStatuses statuses), db',
      bind_eq_ok.mpr ⟨_, hcorrect, ?_⟩, ?_⟩
    · refine (if_pos (by simp [patch, hsent])).trans ?_
      exact bind_eq_ok.mpr ⟨db', hreplace, rfl⟩
    · rw [ht]
      simp [corrected, hsent]

theorem correctOwnUpdate_eq_noRows
    (h : ¬ ∃ u ∈ db.tables.updates, u.id = updateId ∧ Correctable now catId userId u ∧
      HasContent (corrected now updateId correction statuses db.tables)
        (correctedRow now correction u)) :
    Store.correctOwnUpdate (patch now catId updateId userId correction statuses) db =
      .error .noRows := by
  refine bind_eq_error.mpr (.inl (bind_eq_error.mpr (.inl (one_eq_noRows_of_forall ?_))))
  intro u hu
  apply Bool.eq_false_iff.mpr
  exact fun hadmits => h ⟨u, hu, matches_iff.mp hadmits⟩

theorem corrected_statuses {t : Tables} {id : UUID} (hid : id ≠ updateId) :
    (corrected now updateId correction statuses t).updateStatuses.filter
        (fun s => s.updateId == id) = t.updateStatuses.filter fun s => s.updateId == id := by
  cases hsent : correction.statuses.isSome with
  | false => simp [corrected, hsent]
  | true =>
    have hkept : ∀ s ∈ t.updateStatuses, (s.updateId == id && !(s.updateId == updateId)) =
        (s.updateId == id) := by
      intro s _
      by_cases hs : s.updateId = id <;> simp [hs, hid]
    have hnone : ((orderStatuses statuses).map fun status =>
        ({ updateId, status } : UpdateStatus)).filter (fun s => s.updateId == id) = [] := by
      apply List.filter_eq_nil_iff.mpr
      intro s hs
      obtain ⟨status, -, rfl⟩ := List.mem_map.mp hs
      simpa using Ne.symm hid
    simp only [corrected, hsent, if_true, List.filter_append, hnone, List.append_nil, deleteWhere,
      List.filter_filter]
    exact List.filter_congr hkept

/-- The answer without the body of the response. -/
def answer {α : Type} (out : Except Error α × World) : Except Error Unit × World :=
  (out.1.map fun _ => (), out.2)

theorem correction_decides (hparsed : correction.parsed = .ok statuses)
    (hmoderated : correction.moderate env = .ok ()) :
    Decides now updateId
      (fun u => Correctable now catId userId u ∧
        HasContent (corrected now updateId correction statuses w.db.tables)
          (correctedRow now correction u))
      (corrected now updateId correction statuses)
      (correctionRefusals now catId updateId userId w.db.tables
        (corrected now updateId correction statuses w.db.tables)) w
      (answer (correctOwnUpdate (reading env now) (some catId) (some updateId) userId correction
        w)) := by
  have hprepared := @prepareCorrection_eq _ now catId updateId userId _ _ hparsed hmoderated
  by_cases hrow : ∃ u ∈ w.db.tables.updates, u.id = updateId ∧ Correctable now catId userId u ∧
      HasContent (corrected now updateId correction statuses w.db.tables)
        (correctedRow now correction u)
  · obtain ⟨u, hu, hid, hopen, hcontent⟩ := id hrow
    obtain ⟨⟨row, shown⟩, db', hcorrect, ht⟩ :=
      correctOwnUpdate_eq_ok (parsed_nodup hparsed) hu hid hopen hcontent
    have hout : answer (correctOwnUpdate (reading env now) (some catId) (some updateId) userId
        correction w) = (.ok (), { w with db := db' }) := by
      simp only [correctOwnUpdate, hprepared, hcorrect]
      rfl
    rw [hout]
    refine ⟨fun _ => ⟨rfl, ht, rfl, rfl⟩, fun h => absurd hrow h, ?_, ?_⟩
    · refine nothing_revived (f := correctedRow now correction) (fun _ => rfl) (fun _ h => h)
        (congrArg Tables.updates ht)
    · refine closed_kept (correctable_of_mem hu hid hopen) (congrArg Tables.updates ht) ?_
      intro id hne
      rw [congrArg Tables.updateStatuses ht]
      exact corrected_statuses hne
  · have hcorrect := correctOwnUpdate_eq_noRows hrow
    have hout : answer (correctOwnUpdate (reading env now) (some catId) (some updateId) userId
        correction w) =
        ((resolveByReading catId updateId userId (now - correctionWindowNanos) true w.db).bind
          fun _ => .error .updateNotFound, w) := by
      rw [← resolve_eq]
      simp only [correctOwnUpdate, hprepared, hcorrect]
      simp only [patch]
      cases resolveCorrectionFailure catId updateId userId (stored now - updateCorrectionWindow)
        true w.db <;> rfl
    rw [hout]
    refine ⟨fun h => absurd h hrow, fun _ => ⟨rfl, ?_⟩, fun u hu hlive => ⟨u, hu, rfl, hlive⟩,
      fun u hu _ => ⟨hu, rfl⟩⟩
    refine @resolve_first _ _ _ _ _ _ (fun r => r.bind fun _ => .error .updateNotFound) _
      (fun _ => rfl) fun u hu hid hopen => ?_
    refine .inl ⟨fun hfound => hrow ⟨u, hu, hid, hopen, ?_⟩, ?_⟩
    · obtain ⟨v, hv, hvid, -, -, hcontent⟩ := hfound
      obtain ⟨q, hq, rfl⟩ := mem_updateWhere.mp hv
      have hqid : q.id = updateId := by
        by_contra hne
        simp [hne] at hvid
      have heq : q = u := (w.db.valid.holds .updatesPkey).eq_of_key_eq hq hu
        (congrArg some (hqid.trans hid.symm)) (by simp)
      simpa [hqid, heq, hid] using hcontent
    · rw [resolve_found hu hid hopen.cat hopen.kind]
      simp [hopen.author, hopen.live, hopen.window, Except.bind]

end Correction

theorem FirstApplicable.exists_mem {α : Type} {reasons : List (Prop × α)} {a : α}
    (h : FirstApplicable reasons a) : ∃ r ∈ reasons, r.2 = a := by
  induction reasons with
  | nil => cases h
  | cons r reasons ih =>
    rcases h with ⟨-, rfl⟩ | ⟨-, h⟩
    · exact ⟨r, List.mem_cons_self, rfl⟩
    · obtain ⟨q, hq, heq⟩ := ih h
      exact ⟨q, List.mem_cons_of_mem _ hq, heq⟩

/-- None of the reasons against a correction is answered with success. -/
theorem correctionRefusals_error {now : ℤ} {catId updateId userId : UUID} {t t' : Tables}
    {a : Except Error Unit}
    (h : FirstApplicable (correctionRefusals now catId updateId userId t t') a) :
    a.isOk = false := by
  obtain ⟨r, hr, rfl⟩ := h.exists_mem
  simp only [correctionRefusals, refusals, List.cons_append, List.nil_append, List.mem_cons,
    List.not_mem_nil, or_false] at hr
  rcases hr with rfl | rfl | rfl | rfl | rfl <;> rfl

/-- Whatever the state and the clock, a correction and a deletion are carried out precisely
under their conditions, exactly as asked, and are otherwise refused for the first reason. -/
theorem corrections_decide (env : Env) (now : ℤ) (catId updateId userId : UUID) (w : World) :
    (∀ correction statuses, correction.parsed = .ok statuses → correction.moderate env = .ok () →
      let row := fun u => Correctable now catId userId u ∧
        HasContent (corrected now updateId correction statuses w.db.tables)
          (correctedRow now correction u)
      let out := answer
        (correctOwnUpdate (reading env now) (some catId) (some updateId) userId correction w)
      (out.1.isOk = true ↔ ∃ u ∈ w.db.tables.updates, u.id = updateId ∧ row u) ∧
      Decides now updateId row (corrected now updateId correction statuses)
        (correctionRefusals now catId updateId userId w.db.tables
          (corrected now updateId correction statuses w.db.tables)) w out) ∧
    Decides now updateId
      (fun u => Correctable now catId userId u ∧ ¬ IsCover w.db.tables u)
      (softDeleted now updateId) (deletionRefusals now catId updateId userId w.db.tables) w
      (CatServices.deleteOwnUpdate (reading env now) (some catId) (some updateId) userId w) := by
  refine ⟨fun correction statuses hparsed hmoderated => ?_, deletion_decides env now catId updateId
    userId w⟩
  have hdecides := @correction_decides _ w now catId updateId userId _ _ hparsed hmoderated
  refine ⟨⟨fun hok => ?_, fun hrow => ?_⟩, hdecides⟩
  · by_contra hrow
    have hfailed := correctionRefusals_error (hdecides.refuses hrow).2
    rw [hfailed] at hok
    cases hok
  · rw [(hdecides.performs hrow).1]
    rfl

/-- One update of an account on a cat. -/
def seenUpdate : World where
  db := ⟨{
    users := [{ id := 2, phone := "+905321234567", phoneVerifiedAt := 0 }]
    cats := [{ id := 1, name := none, area := ⟨41, 29⟩, createdAt := 0 }]
    updates := [{ id := 3, catId := 1, createdAt := 5, seq := 1, authorUserId := some 2 }]
    updateStatuses := [{ updateId := 3, status := .seen }], updatesSeq := 2 }, by decide⟩

theorem corrections_decide_seen :
    (answer (correctOwnUpdate (reading (Backend.plainEnv 0) 6000) (some 1) (some 3) 2
      { statuses := some ["fed"] } seenUpdate)).1 = .ok () := by
  have hdecides := (corrections_decide (Backend.plainEnv 0) 6000 1 3 2 seenUpdate).1
    { statuses := some ["fed"] } [.fed] (by decide) (by decide)
  refine (hdecides.2.performs ⟨_, List.mem_singleton.mpr rfl, rfl, ⟨rfl, rfl, rfl, rfl, ?_⟩, ?_⟩).1
  · decide
  · exact .inl ⟨⟨3, .fed⟩, by decide, rfl⟩

end Tekir.Corrections
