import Tekir.Freshness
import Tekir.WriteResponses
import Tekir.ResendCooldown

/-!
# The detail of a cat on screen beside the server's

`prependUpdate` rebuilds the detail from the one on screen and the entry of a new update, and
`reconcileAfterHelpRemoval` rebuilds it without its alert when the re-fetch fails. Both leave
fields out, so the screen follows the server only for a cat without an owner and a status.
-/
namespace Tekir.DetailView
open Machine Table Schema Statements AccountQueries CatQueries UpdateQueries Environment
  CatServices Backend Integrity ServiceEffects UpdateCreation ArchiveEffects
open WriteResponses (Call respond)

/-- The client reads neither category. -/
structure ActiveAlert where
  comment : Option String := none
  createdAt : Instant
  expiresAt : Instant
  deriving DecidableEq

structure CatDetail where
  id : UUID
  name : String
  area : Point
  areaLabel : Option String
  primaryPhoto : Option String
  createdAt : Instant
  lastUpdateAt : Option Instant
  lastSeenAt : Option Instant := none
  lastFedAt : Option Instant := none
  lastWaterAt : Option Instant := none
  activeAlert : Option ActiveAlert := none
  mediaCount : ℕ := 0
  isOwner : Bool := false
  ownerUserId : Option UUID := none
  deriving DecidableEq

structure CatUpdateEntry where
  id : UUID
  needsHelp : Bool := false
  statuses : List Status
  comment : Option String
  createdAt : Instant
  needsHelpExpiresAt : Option Instant := none
  needsHelpActive : Option Bool := none
  authorIsMe : Bool := false
  authorUserId : Option UUID := none
  correctionExpiresAt : Option Instant := none
  authorDisplayName : Option String := none
  photoUrl : Option String := none
  mediaContentType : Option ContentType := none
  mediaMuted : Option Bool := none
  deriving DecidableEq

def ActiveAlert.fromJson (a : CatServices.ActiveAlert) : ActiveAlert where
  comment := a.comment
  createdAt := a.createdAt
  expiresAt := a.expiresAt

def CatDetail.fromJson (d : CatServices.CatDetail) : CatDetail where
  id := d.id
  name := d.name
  area := d.area
  areaLabel := d.areaLabel
  primaryPhoto := d.primaryPhoto
  createdAt := d.createdAt
  lastUpdateAt := d.lastUpdateAt
  lastSeenAt := d.lastSeenAt
  lastFedAt := d.lastFedAt
  lastWaterAt := d.lastWaterAt
  activeAlert := d.activeAlert.map ActiveAlert.fromJson
  mediaCount := d.mediaCount
  isOwner := d.isOwner
  ownerUserId := d.ownerUserId

def CatUpdateEntry.fromJson (r : CatUpdate) : CatUpdateEntry where
  id := r.id
  needsHelp := r.needsHelp
  statuses := r.statuses
  comment := r.comment
  createdAt := r.createdAt
  needsHelpExpiresAt := r.needsHelpExpiresAt
  needsHelpActive := r.needsHelpActive
  authorIsMe := r.authorIsMe
  authorUserId := r.authorUserId
  correctionExpiresAt := r.correctionExpiresAt
  authorDisplayName := r.authorDisplayName
  photoUrl := r.photoUrl
  mediaContentType := r.mediaContentType
  mediaMuted := r.mediaMuted

structure CatDetailState where
  detail : Option CatDetail := none
  updates : List CatUpdateEntry := []

/-- The alert that the entry stands for. -/
def CatUpdateEntry.alert (entry : CatUpdateEntry) : Option ActiveAlert :=
  match entry.needsHelp, entry.needsHelpExpiresAt with
  | true, some expiresAt => some { comment := entry.comment, createdAt := entry.createdAt, expiresAt }
  | _, _ => none

/-- A field that is not passed on falls back to its default. -/
def CatDetail.withNewest (detail : CatDetail) (entry : CatUpdateEntry) : CatDetail where
  id := detail.id
  name := detail.name
  area := detail.area
  areaLabel := detail.areaLabel
  primaryPhoto := detail.primaryPhoto
  createdAt := detail.createdAt
  lastUpdateAt := some entry.createdAt
  activeAlert := entry.alert.or detail.activeAlert
  mediaCount := detail.mediaCount
  isOwner := detail.isOwner

def prependUpdate (entry : CatUpdateEntry) (s : CatDetailState) : CatDetailState :=
  match s.detail with
  | none => s
  | some detail =>
    if s.updates.any fun u => u.id == entry.id then s
    else { s with updates := entry :: s.updates, detail := some (detail.withNewest entry) }

def CatDetail.withoutAlert (detail : CatDetail) : CatDetail where
  id := detail.id
  name := detail.name
  area := detail.area
  areaLabel := detail.areaLabel
  primaryPhoto := detail.primaryPhoto
  createdAt := detail.createdAt
  lastUpdateAt := detail.lastUpdateAt
  activeAlert := none
  mediaCount := detail.mediaCount
  isOwner := detail.isOwner

/-- `fetched` is what the re-fetch answers, and `s` the state by then. -/
def reconcileAfterHelpRemoval (removedMarkCreatedAt : Instant) (fetched : Option CatDetail)
    (called s : CatDetailState) : CatDetailState :=
  if called.detail.isNone then s
  else
    match fetched with
    | some fresh => { s with detail := some fresh }
    | none =>
      match s.detail with
      | none => s
      | some detail =>
        match detail.activeAlert with
        | none => s
        | some alert =>
          if alert.createdAt = removedMarkCreatedAt then
            { s with detail := some detail.withoutAlert }
          else s

/-- The call creates an update on the cat. -/
def Creates (call : Call) (catId : UUID) : Prop :=
  match call with
  | .createOrdinaryUpdate req => req.catId = some catId
  | .createNeedsHelpUpdate id _ _ _ _ => id = some catId
  | .correctOwnUpdate .. => False

/-- The medium that the call attaches. -/
def attached : Call → Option UUID
  | .createOrdinaryUpdate req => req.mediaId.join
  | _ => none

/-- Nothing to lose: no owner, and no status was ever seen. -/
structure Bare (detail : CatDetail) : Prop where
  owner : detail.ownerUserId = none
  seen : detail.lastSeenAt = none
  fed : detail.lastFedAt = none
  water : detail.lastWaterAt = none

/-- The detail that a new entry leaves on screen is the server's. -/
structure MirrorsNew (clock : Instant) (catId : UUID) (detail : CatDetail) (entry : CatUpdateEntry)
    (media : Option UUID) (t : Tables) : Prop where
  bare : Bare detail
  statuses : entry.statuses = []
  latest : ∀ l ∈ detail.lastUpdateAt, l ≤ entry.createdAt
  gallery : ∀ m ∈ media, ∃ cm ∈ t.catMedia, cm.catId = catId ∧ cm.mediaId = m
  help : ∀ alert ∈ entry.alert, clock < alert.expiresAt ∧
    ∀ u ∈ t.updates, u.catId = catId → u.needsHelp = true → u.deletedAt = none →
      u.createdAt ≤ entry.createdAt

/-- So is the one that a repeated entry leaves. -/
structure MirrorsOld (detail : CatDetail) (entry : CatUpdateEntry) : Prop where
  bare : Bare detail
  latest : detail.lastUpdateAt = some entry.createdAt
  help : ∀ alert ∈ entry.alert, detail.activeAlert = some alert

/-- A repeated entry that is on screen changes nothing. -/
def Mirrors (clock : Instant) (catId : UUID) (detail : CatDetail) (shown : List CatUpdateEntry)
    (entry : CatUpdateEntry) (media : Option UUID) (t : Tables) : Prop :=
  if ∃ u ∈ t.updates, u.id = entry.id then
    (∃ u ∈ shown, u.id = entry.id) ∨ MirrorsOld detail entry
  else MirrorsNew clock catId detail entry media t

/-- The detail on screen is what the viewer is shown of the cat. -/
def Shows (clock : Instant) (catId viewer : UUID) (db : Database) (s : CatDetailState) : Prop :=
  ∃ d, getCatDetail clock catId (some viewer) db = .ok d ∧ s.detail = some (.fromJson d)

/-- Every field but the alert is as before. -/
def KeepsOthers (s s' : CatDetailState) : Prop :=
  s'.detail.map (fun d => { d with activeAlert := none }) =
    s.detail.map fun d => { d with activeAlert := none }

section Newest

variable {db : Database} {catId : UUID} {p : Update → Bool} {u n : Update}

theorem newestFirst_iff {a b : Update} : newestFirst a b = true ↔
    b.createdAt < a.createdAt ∨ a.createdAt = b.createdAt ∧ b.seq ≤ a.seq := by
  simp [newestFirst]

theorem newestFirst_total (a b : Update) : newestFirst a b = true ∨ newestFirst b a = true := by
  simp only [newestFirst_iff]
  rcases lt_trichotomy b.createdAt a.createdAt with hlt | heq | hlt
  · exact .inl (.inl hlt)
  · rcases Nat.le_total b.seq a.seq with hle | hle
    · exact .inl (.inr ⟨heq.symm, hle⟩)
    · exact .inr (.inr ⟨heq, hle⟩)
  · exact .inr (.inl hlt)

theorem newestFirst_trans (a b c : Update) (hab : newestFirst a b = true)
    (hbc : newestFirst b c = true) : newestFirst a c = true := by
  simp only [newestFirst_iff] at hab hbc ⊢
  rcases hab with hab | ⟨hab, hseqab⟩
  · rcases hbc with hbc | ⟨hbc, -⟩
    · exact .inl (Int.lt_trans hbc hab)
    · exact .inl (hbc ▸ hab)
  · rcases hbc with hbc | ⟨hbc, hseqbc⟩
    · exact .inl (hab ▸ hbc)
    · exact .inr ⟨hab.trans hbc, hseqbc.trans hseqab⟩

theorem newestUpdate_eq_none : newestUpdate catId p db = none ↔
    ∀ u ∈ db.tables.updates, u.catId = catId → p u = true → u.deletedAt ≠ none := by
  have hperm := List.perm_insertionSort (fun a b => newestFirst a b = true)
    (db.tables.updates.filter fun u => u.catId == catId && p u && u.deletedAt.isNone)
  rw [newestUpdate, List.head?_eq_none_iff, orderBy, ← List.length_eq_zero_iff, hperm.length_eq,
    List.length_eq_zero_iff, List.filter_eq_nil_iff]
  simp only [Bool.and_eq_true, beq_iff_eq, Option.isNone_iff_eq_none, not_and, and_imp, ne_eq]

/-- The newest one is live on the cat, and no other comes before it. -/
theorem newestUpdate_spec (h : newestUpdate catId p db = some n) :
    (n ∈ db.tables.updates ∧ n.catId = catId ∧ p n = true ∧ n.deletedAt = none) ∧
    ∀ u ∈ db.tables.updates, u.catId = catId → p u = true → u.deletedAt = none →
      newestFirst n u = true := by
  have hmem := List.mem_of_mem_head? (Option.mem_def.mpr h)
  obtain ⟨hn, hmatch⟩ := List.mem_filter.mp (mem_orderBy.mp hmem)
  simp only [Bool.and_eq_true, beq_iff_eq, Option.isNone_iff_eq_none] at hmatch
  refine ⟨⟨hn, hmatch.1.1, hmatch.1.2, hmatch.2⟩, fun u hu hcat hp hlive => ?_⟩
  have hrow : u ∈ db.tables.updates.filter fun u => u.catId == catId && p u && u.deletedAt.isNone :=
    List.mem_filter.mpr ⟨hu, by simp [hcat, hp, hlive]⟩
  obtain ⟨first, hfirst, hbefore⟩ := ResendCooldown.exists_head_orderBy newestFirst newestFirst_total
    newestFirst_trans hrow
  obtain rfl : first = n := Option.some.inj (hfirst.symm.trans h)
  exact hbefore

end Newest

section Creation

variable {cmId catId viewer : UUID} {clock : Instant} {arg : Store.CreateOrdinaryUpdateParams}
  {db db' : Database} {d : CatServices.CatDetail}

/-- Every number drawn so far is below the next one. -/
def Numbered (t : Tables) : Prop :=
  ∀ u ∈ t.updates, u.seq < t.updatesSeq

theorem one_map {α β : Type} {f : α → β} {rows : List α} {r : α} (h : one rows = .ok r) :
    one (rows.map f) = .ok (f r) := by
  cases rows with
  | nil => cases h
  | cons q qs =>
    cases h
    rfl

/-- The row of the cat, with a later time of the last update. -/
theorem touched_cat {c : Cat} (h : Created cmId arg db.tables db'.tables) (hon : arg.catId = catId)
    (hc : one (db.tables.cats.filter fun c => c.id == catId && visible (some viewer) db c) = .ok c) :
    one (db'.tables.cats.filter fun c => c.id == catId && visible (some viewer) db' c) =
      .ok { c with lastUpdateAt := greatest c.lastUpdateAt arg.createdAt } := by
  have hid : c.id = arg.catId := by
    have hmem := (List.mem_filter.mp (one_eq_ok hc)).2
    simp only [Bool.and_eq_true, beq_iff_eq] at hmem
    rw [hmem.1, hon]
  have hvisible : ∀ q : Cat, visible (some viewer) db' q = visible (some viewer) db q := by
    intro q
    unfold visible blocks
    rw [h.blocks]
  have hsame : (fun q : Cat => q.id == catId && visible (some viewer) db' q) ∘
      (fun q => if q.id == arg.catId then
        { q with lastUpdateAt := greatest q.lastUpdateAt arg.createdAt } else q) =
      fun q => q.id == catId && visible (some viewer) db q := by
    funext q
    simp only [Function.comp_apply, hvisible]
    split <;> rfl
  rw [h.cats, touched, updateWhere, List.filter_map, hsame, one_map hc]
  simp [hid]

/-- What the detail shows after a creation on the cat. -/
theorem detail_created (h : Created cmId arg db.tables db'.tables) (hon : arg.catId = catId)
    (hd : getCatDetail clock catId (some viewer) db = .ok d) :
    getCatDetail clock catId (some viewer) db' = .ok { d with
      lastUpdateAt := greatest d.lastUpdateAt arg.createdAt
      lastSeenAt := (newestWithStatus catId .seen db').map Update.createdAt
      lastFedAt := (newestWithStatus catId .fed db').map Update.createdAt
      lastWaterAt := (newestWithStatus catId .waterProvided db').map Update.createdAt
      activeAlert := deriveActiveAlert clock (newestUpdate catId (fun u => u.needsHelp) db')
      mediaCount := countCatMedia catId db' } := by
  unfold getCatDetail at hd ⊢
  split at hd
  · cases hd
  · cases hd
  · rename_i row hrow
    obtain ⟨c, hc, hrest⟩ := bind_eq_ok.mp hrow
    have hid : c.id = catId := by
      have hmem := (List.mem_filter.mp (one_eq_ok hc)).2
      simp only [Bool.and_eq_true, beq_iff_eq] at hmem
      exact hmem.1
    have hafter : getCatByID catId (some viewer) db' = .ok _ :=
      bind_eq_ok.mpr ⟨_, touched_cat h hon hc, rfl⟩
    have hphoto : photoUrl { c with lastUpdateAt := greatest c.lastUpdateAt arg.createdAt } db' =
        photoUrl c db := by
      unfold photoUrl
      rw [h.media]
    subst hid
    rw [hafter, hphoto]
    cases hrest
    cases hd
    rfl

/-- A status that was never seen stays so precisely if the new update does not carry it. -/
theorem status_none_iff {status : Status} (h : Created cmId arg db.tables db'.tables)
    (hon : arg.catId = catId) (hfresh : FreshId arg.id db.tables) :
    newestWithStatus catId status db' = none ↔
      newestWithStatus catId status db = none ∧ status ∉ arg.statuses := by
  simp only [newestWithStatus, newestUpdate_eq_none, h.updates, h.statuses]
  have hold : ∀ u ∈ db.tables.updates, ((db.tables.updateStatuses ++
      arg.statuses.map fun status => ({ updateId := arg.id, status } : UpdateStatus)).any fun s =>
        s.updateId == u.id && s.status == status) =
      db.tables.updateStatuses.any fun s => s.updateId == u.id && s.status == status := by
    intro u hu
    have hne : (arg.id == u.id) = false := by simpa using (hfresh u hu).symm
    rw [List.any_append, List.any_map]
    simp [Function.comp_def, hne]
  have hnew : ((db.tables.updateStatuses ++
      arg.statuses.map fun status => ({ updateId := arg.id, status } : UpdateStatus)).any fun s =>
        s.updateId == arg.id && s.status == status) = true ↔ status ∈ arg.statuses := by
    have hnone : (db.tables.updateStatuses.any fun s =>
        s.updateId == arg.id && s.status == status) = false := by
      apply List.any_eq_false.mpr
      intro s hs
      simp [no_statuses hfresh s hs]
    rw [List.any_append, hnone, List.any_map]
    simp [Function.comp_def]
  constructor
  · intro hnone
    constructor
    · intro u hu hcat hcarries
      exact hnone u (List.mem_append_left _ hu) hcat (by rw [hold u hu, hcarries])
    · intro hmem
      exact hnone _ (List.mem_append_right _ (List.mem_singleton.mpr rfl)) hon (hnew.mpr hmem) rfl
  · intro ⟨hnone, hmem⟩ u hu hcat hcarries
    rcases List.mem_append.mp hu with hu | hu
    · rw [hold u hu] at hcarries
      exact hnone u hu hcat hcarries
    · rw [List.mem_singleton.mp hu] at hcarries
      exact absurd (hnew.mp hcarries) hmem

/-- An update that asks for no help leaves the alert alone. -/
theorem help_other (h : Created cmId arg db.tables db'.tables) (hhelp : arg.needsHelp = false) :
    newestUpdate catId (fun u => u.needsHelp) db' = newestUpdate catId (fun u => u.needsHelp) db := by
  unfold newestUpdate
  rw [h.updates, List.filter_append, List.filter_singleton]
  simp [hhelp]

/-- A new help mark is the alert precisely if it is active and no later one is there. -/
theorem help_iff {expiresAt : Instant} (h : Created cmId arg db.tables db'.tables)
    (hon : arg.catId = catId) (hnumbered : Numbered db.tables) (hhelp : arg.needsHelp = true)
    (hexpires : arg.needsHelpExpiresAt = some expiresAt) :
    (deriveActiveAlert clock (newestUpdate catId (fun u => u.needsHelp) db')).map
        ActiveAlert.fromJson =
      some { comment := arg.comment, createdAt := arg.createdAt, expiresAt } ↔
    clock < expiresAt ∧ ∀ u ∈ db.tables.updates, u.catId = catId → u.needsHelp = true →
      u.deletedAt = none → u.createdAt ≤ arg.createdAt := by
  have hnew : arg.row.insert db.tables.updatesSeq ∈ db'.tables.updates := by
    rw [h.updates]
    exact List.mem_append_right _ (List.mem_singleton.mpr rfl)
  cases hnewest : newestUpdate catId (fun u => u.needsHelp) db' with
  | none => exact absurd rfl (newestUpdate_eq_none.mp hnewest _ hnew hon hhelp)
  | some n =>
    obtain ⟨⟨hn, hcat, hnhelp, hlive⟩, hfirst⟩ := newestUpdate_spec hnewest
    have hbefore := hfirst _ hnew hon hhelp rfl
    -- at the same instant the new mark has the larger number
    have hsame : n.createdAt ≤ arg.createdAt → n = arg.row.insert db.tables.updatesSeq := by
      intro hle
      rw [h.updates] at hn
      rcases List.mem_append.mp hn with hn | hn
      · have hseq := hnumbered n hn
        rcases newestFirst_iff.mp hbefore with hlt | ⟨-, hge⟩
        · exact absurd (lt_of_lt_of_le hlt hle) (lt_irrefl _)
        · exact absurd (lt_of_lt_of_le hseq hge) (lt_irrefl _)
      · exact List.mem_singleton.mp hn
    have halert : n = arg.row.insert db.tables.updatesSeq →
        (deriveActiveAlert clock (some n)).map ActiveAlert.fromJson =
          if clock < expiresAt then
            some { comment := arg.comment, createdAt := arg.createdAt, expiresAt }
          else none := by
      intro hn
      rw [hn]
      simp only [deriveActiveAlert, Option.bind_eq_bind, Option.bind_some]
      have hrow : (arg.row.insert db.tables.updatesSeq).needsHelpExpiresAt = some expiresAt := hexpires
      rw [hrow, Option.bind_some]
      split <;> rfl
    constructor
    · intro hshown
      have htime : n.createdAt = arg.createdAt := by
        obtain ⟨a, ha, hfrom⟩ := Option.map_eq_some_iff.mp hshown
        obtain ⟨x, -, ha⟩ := Option.bind_eq_some_iff.mp ha
        split at ha
        · cases ha
          exact congrArg ActiveAlert.createdAt hfrom
        · cases ha
      rw [halert (hsame htime.le)] at hshown
      split at hshown
      · rename_i hactive
        refine ⟨hactive, fun u hu hucat huhelp hulive => ?_⟩
        have hle := hfirst u (h.updates ▸ List.mem_append_left _ hu) hucat huhelp hulive
        rcases newestFirst_iff.mp hle with hlt | ⟨heq, -⟩
        · exact htime ▸ hlt.le
        · exact (heq.symm.trans htime).le
      · cases hshown
    · intro ⟨hactive, hlater⟩
      have hle : n.createdAt ≤ arg.createdAt := by
        rw [h.updates] at hn
        rcases List.mem_append.mp hn with hn | hn
        · exact hlater n hn hcat hnhelp hlive
        · rw [List.mem_singleton.mp hn]
          exact le_refl _
      rw [halert (hsame hle), if_pos hactive]

/-- The count stays precisely if the gallery has the medium already. -/
theorem count_eq_iff (h : Created cmId arg db.tables db'.tables) (hon : arg.catId = catId) :
    countCatMedia catId db' = countCatMedia catId db ↔
      ∀ m ∈ arg.mediaId, ∃ cm ∈ db.tables.catMedia, cm.catId = catId ∧ cm.mediaId = m := by
  unfold countCatMedia
  rw [h.gallery, joined]
  cases hmedia : arg.mediaId with
  | none => simp
  | some m =>
    dsimp only
    split
    · rename_i hany
      obtain ⟨cm, hcm, hmatch⟩ := List.any_eq_true.mp hany
      simp only [Bool.and_eq_true, beq_iff_eq] at hmatch
      simp only [Option.mem_def, Option.some.injEq, forall_eq', true_iff]
      exact ⟨cm, hcm, hmatch.1.trans hon, hmatch.2⟩
    · rename_i hany
      have hnone := List.any_eq_false.mp (Bool.eq_false_iff.mpr hany)
      rw [List.filter_append, List.filter_singleton, List.length_append]
      simp only [hon, beq_self_eq_true, cond_true, List.length_singleton]
      constructor
      · intro heq
        omega
      · intro hin
        obtain ⟨cm, hcm, hcat, hid⟩ := hin m rfl
        have hdiffers := hnone cm hcm
        simp [hcat, hid, hon] at hdiffers

end Creation

section Calls

variable {env : Env} {w w' : World} {call : Call} {catId : UUID} {r : CatUpdate} {db : Database}

/-- The answer repeats what was written. -/
structure Answers (arg : Store.CreateOrdinaryUpdateParams) (r : CatUpdate) : Prop where
  id : r.id = arg.id
  needsHelp : r.needsHelp = arg.needsHelp
  statuses : r.statuses = arg.statuses
  comment : r.comment = arg.comment
  createdAt : r.createdAt = arg.createdAt
  expires : r.needsHelpExpiresAt = arg.needsHelpExpiresAt
  mark : arg.needsHelp = true → arg.needsHelpExpiresAt ≠ none

theorem resolved_id {mediaId : Option (Option UUID)} {author : UUID} {media : Option Medium}
    (h : resolveOwnMedia mediaId author db = .ok media) : media.map Medium.id = mediaId.join := by
  unfold resolveOwnMedia at h
  split at h
  · cases h
    rfl
  · cases h
  · split at h
    · cases h
    · cases h
    · rename_i m hget
      split at h
      · cases h
        have hid := (List.mem_filter.mp (one_eq_ok hget)).2
        exact congrArg some (beq_iff_eq.mp hid)
      · cases h

theorem fetched_row {userId : UUID} {key : String}
    (h : fetchIdempotentOrdinaryUpdate env userId key db = .ok r) :
    ∃ u ∈ db.tables.updates, u.id = r.id := by
  obtain ⟨row, hrow, h⟩ := bind_eq_ok.mp h
  obtain ⟨name, -, h⟩ := bind_eq_ok.mp h
  refine ⟨row, (List.mem_filter.mp (one_eq_ok hrow)).1, ?_⟩
  cases h
  split <;> rfl

theorem ordinary_answers {req : OrdinaryUpdateRequest} {statuses : List Status}
    {media : Option Medium}
    (h : ordinaryUpdateResult env req (orderStatuses statuses) media (env.uuid 0) db = .ok r) :
    Answers (ordinaryParams env req catId statuses media) r := by
  obtain ⟨name, -, h⟩ := bind_eq_ok.mp h
  cases h
  cases hhelp : req.needsHelp <;>
    constructor <;> simp [ordinaryParams, CatUpdate.withMedia, CatUpdate.withHelp, hhelp]

theorem needsHelp_answers {userId : UUID} {deviceId : Option UUID} {c : Category}
    {comment : Option String} (h : needsHelpResult env userId comment c (env.uuid 0) db = .ok r) :
    Answers (needsHelpParams env catId userId deviceId c comment) r := by
  obtain ⟨name, -, h⟩ := bind_eq_ok.mp h
  cases h
  constructor <;> simp [needsHelpParams]

/-- A creation answers with an update that is there already, or with the one it writes. -/
theorem creation_cases (h : respond env call w = (.ok r, w')) (hcall : Creates call catId) :
    (w' = w ∧ ∃ u ∈ w.db.tables.updates, u.id = r.id) ∨
    ∃ arg, arg.catId = catId ∧ arg.mediaId = attached call ∧ Written env call.author arg w w' ∧
      Answers arg r := by
  cases call with
  | createOrdinaryUpdate req =>
    rcases createOrdinaryUpdate_cases h with ⟨rfl, key, -, hfetch⟩ |
      ⟨cat, statuses, media, hcat, hmedia, hwritten, hresult⟩
    · exact .inl ⟨rfl, fetched_row hfetch⟩
    · obtain rfl : cat = catId := Option.some.inj (hcat.symm.trans hcall)
      exact .inr ⟨_, rfl, resolved_id hmedia, hwritten, ordinary_answers hresult⟩
  | createNeedsHelpUpdate id userId deviceId category comment =>
    obtain ⟨cat, c, hcat, hwritten, hresult⟩ := createNeedsHelpUpdate_cases h
    obtain rfl : cat = catId := Option.some.inj (hcat.symm.trans hcall)
    exact .inr ⟨_, rfl, rfl, hwritten, needsHelp_answers hresult⟩
  | correctOwnUpdate => exact hcall.elim

end Calls

section Mirroring

variable {env : Env} {w w' : World} {call : Call} {catId viewer cmId : UUID} {r : CatUpdate}
  {db db' : Database} {clock : Instant} {d : CatServices.CatDetail} {s : CatDetailState}
  {arg : Store.CreateOrdinaryUpdateParams} {entry : CatUpdateEntry}

theorem activeAlert_eq (h : getCatDetail clock catId (some viewer) db = .ok d) :
    d.activeAlert = deriveActiveAlert clock (newestUpdate catId (fun u => u.needsHelp) db) := by
  unfold getCatDetail at h
  split at h
  · cases h
  · cases h
  · rename_i row hrow
    obtain ⟨c, hc, hrest⟩ := bind_eq_ok.mp hrow
    have hmem := (List.mem_filter.mp (one_eq_ok hc)).2
    simp only [Bool.and_eq_true, beq_iff_eq] at hmem
    cases hrest
    cases h
    rw [hmem.1]

theorem times_eq (h : getCatDetail clock catId (some viewer) db = .ok d) :
    d.lastSeenAt = (newestWithStatus catId .seen db).map Update.createdAt ∧
    d.lastFedAt = (newestWithStatus catId .fed db).map Update.createdAt ∧
    d.lastWaterAt = (newestWithStatus catId .waterProvided db).map Update.createdAt ∧
    d.mediaCount = countCatMedia catId db := by
  obtain ⟨c, -, -, -, -, hseen, hfed, hwater⟩ := Freshness.getCatDetail_eq_ok h
  refine ⟨hseen, hfed, hwater, ?_⟩
  unfold getCatDetail at h
  split at h
  · cases h
  · cases h
  · cases h
    rfl

theorem greatest_eq_iff {last : Option Instant} {at' : Instant} :
    some at' = greatest last at' ↔ ∀ l ∈ last, l ≤ at' := by
  cases last with
  | none => simp [greatest]
  | some l => simp [greatest]

/-- The alert on screen after a new entry, beside the server's. -/
theorem alert_eq_iff (h : Created cmId arg db.tables db'.tables) (hon : arg.catId = catId)
    (hnumbered : Numbered db.tables) (hanswers : Answers arg r)
    (hd : getCatDetail clock catId (some viewer) db = .ok d) :
    (CatUpdateEntry.fromJson r).alert.or (d.activeAlert.map ActiveAlert.fromJson) =
      (deriveActiveAlert clock (newestUpdate catId (fun u => u.needsHelp) db')).map
        ActiveAlert.fromJson ↔
    ∀ alert ∈ (CatUpdateEntry.fromJson r).alert, clock < alert.expiresAt ∧
      ∀ u ∈ db.tables.updates, u.catId = catId → u.needsHelp = true → u.deletedAt = none →
        u.createdAt ≤ r.createdAt := by
  cases hhelp : arg.needsHelp with
  | false =>
    have hnone : (CatUpdateEntry.fromJson r).alert = none := by
      simp [CatUpdateEntry.alert, CatUpdateEntry.fromJson, hanswers.needsHelp, hhelp]
    rw [hnone, help_other h hhelp, activeAlert_eq hd]
    simp
  | true =>
    obtain ⟨expiresAt, hexpires⟩ := Option.ne_none_iff_exists'.mp (hanswers.mark hhelp)
    have hsome : (CatUpdateEntry.fromJson r).alert =
        some { comment := arg.comment, createdAt := arg.createdAt, expiresAt } := by
      simp [CatUpdateEntry.alert, CatUpdateEntry.fromJson, hanswers.needsHelp, hhelp,
        hanswers.expires, hexpires, hanswers.comment, hanswers.createdAt]
    rw [hsome, Option.some_or, eq_comm, help_iff h hon hnumbered hhelp hexpires, hanswers.createdAt]
    simp

/-- The detail that a new entry leaves on screen is the server's precisely if it mirrors it. -/
theorem withNewest_eq_iff (h : Created cmId arg db.tables db'.tables) (hon : arg.catId = catId)
    (hfresh : FreshId arg.id db.tables) (hnumbered : Numbered db.tables) (hanswers : Answers arg r)
    (hd : getCatDetail clock catId (some viewer) db = .ok d) :
    (∃ d', getCatDetail clock catId (some viewer) db' = .ok d' ∧
      (CatDetail.fromJson d).withNewest (.fromJson r) = .fromJson d') ↔
    MirrorsNew clock catId (.fromJson d) (.fromJson r) arg.mediaId db.tables := by
  obtain ⟨hseen, hfed, hwater, hcount⟩ := times_eq hd
  have hstatus : ∀ status, none = (newestWithStatus catId status db').map Update.createdAt ↔
      newestWithStatus catId status db = none ∧ status ∉ r.statuses := by
    intro status
    rw [eq_comm, Option.map_eq_none_iff, status_none_iff h hon hfresh, hanswers.statuses]
  have hstatuses : r.statuses = [] ↔ Status.seen ∉ r.statuses ∧ Status.fed ∉ r.statuses ∧
      Status.waterProvided ∉ r.statuses := by
    rw [List.eq_nil_iff_forall_not_mem]
    constructor
    · intro hnone
      exact ⟨hnone _, hnone _, hnone _⟩
    · intro ⟨hs, hf, hw⟩ status
      cases status <;> assumption
  rw [detail_created h hon hd]
  simp only [Except.ok.injEq, exists_eq_left', CatDetail.withNewest, CatDetail.fromJson,
    CatDetail.mk.injEq, true_and]
  rw [alert_eq_iff h hon hnumbered hanswers hd, hstatus, hstatus, hstatus,
    show (CatUpdateEntry.fromJson r).createdAt = arg.createdAt from hanswers.createdAt,
    greatest_eq_iff, hcount, eq_comm (b := countCatMedia catId db'), count_eq_iff h hon]
  constructor
  · intro ⟨hlatest, ⟨hs, hns⟩, ⟨hf, hnf⟩, ⟨hw, hnw⟩, hhelp, hgallery, howner⟩
    refine ⟨⟨howner.symm, ?_, ?_, ?_⟩, hstatuses.mpr ⟨hns, hnf, hnw⟩, ?_, hgallery, hhelp⟩
    · exact hseen.trans (by rw [hs]; rfl)
    · exact hfed.trans (by rw [hf]; rfl)
    · exact hwater.trans (by rw [hw]; rfl)
    · intro l hl
      exact (hlatest l hl).trans hanswers.createdAt.ge
  · intro hm
    obtain ⟨hns, hnf, hnw⟩ := hstatuses.mp hm.statuses
    have hs : newestWithStatus catId .seen db = none :=
      Option.map_eq_none_iff.mp (hseen.symm.trans hm.bare.seen)
    have hf : newestWithStatus catId .fed db = none :=
      Option.map_eq_none_iff.mp (hfed.symm.trans hm.bare.fed)
    have hw : newestWithStatus catId .waterProvided db = none :=
      Option.map_eq_none_iff.mp (hwater.symm.trans hm.bare.water)
    refine ⟨fun l hl => ?_, ⟨hs, hns⟩, ⟨hf, hnf⟩, ⟨hw, hnw⟩, hm.help, hm.gallery,
      hm.bare.owner.symm⟩
    exact (hm.latest l hl).trans hanswers.createdAt.le

/-- A repeated entry leaves the detail as it is precisely if it mirrors it. -/
theorem withNewest_eq_self_iff {detail : CatDetail} :
    detail.withNewest entry = detail ↔ MirrorsOld detail entry := by
  have halert : entry.alert.or detail.activeAlert = detail.activeAlert ↔
      ∀ alert ∈ entry.alert, detail.activeAlert = some alert := by
    cases entry.alert with
    | none => simp
    | some a => simp [eq_comm]
  obtain ⟨id, name, area, areaLabel, primaryPhoto, createdAt, lastUpdateAt, lastSeenAt, lastFedAt,
    lastWaterAt, activeAlert, mediaCount, isOwner, ownerUserId⟩ := detail
  simp only [CatDetail.withNewest, CatDetail.mk.injEq, true_and] at halert ⊢
  rw [halert]
  constructor
  · intro ⟨hlatest, hseen, hfed, hwater, hhelp, howner⟩
    exact ⟨⟨howner.symm, hseen.symm, hfed.symm, hwater.symm⟩, hlatest.symm, hhelp⟩
  · intro hm
    exact ⟨hm.latest.symm, hm.bare.seen.symm, hm.bare.fed.symm, hm.bare.water.symm, hm.help,
      hm.bare.owner.symm⟩

theorem withoutAlert_keeps_iff {detail : CatDetail} :
    { detail.withoutAlert with activeAlert := none } = { detail with activeAlert := none } ↔
      Bare detail := by
  simp only [CatDetail.withoutAlert, CatDetail.mk.injEq, true_and]
  constructor
  · intro ⟨hseen, hfed, hwater, howner⟩
    exact ⟨howner.symm, hseen.symm, hfed.symm, hwater.symm⟩
  · intro hbare
    exact ⟨hbare.seen.symm, hbare.fed.symm, hbare.water.symm, hbare.owner.symm⟩

/-- The detail without its alert keeps the other fields precisely if there are none to lose. -/
theorem reconcile_keeps_iff (removedMarkCreatedAt : Instant) (called s : CatDetailState) :
    KeepsOthers s (reconcileAfterHelpRemoval removedMarkCreatedAt none called s) ↔
      (called.detail.isSome = true → ∀ detail ∈ s.detail, ∀ alert ∈ detail.activeAlert,
        alert.createdAt = removedMarkCreatedAt → Bare detail) := by
  unfold reconcileAfterHelpRemoval KeepsOthers
  cases hcalled : called.detail with
  | none => simp
  | some _ =>
    simp only [Option.isNone_some, Bool.false_eq_true, if_false, Option.isSome_some, forall_const]
    cases hdetail : s.detail with
    | none => simp [hdetail]
    | some detail =>
      dsimp only
      cases halert : detail.activeAlert with
      | none => simp [hdetail, halert]
      | some alert =>
        dsimp only
        split
        · rename_i hremoved
          rw [Option.map_some, Option.map_some, Option.some.injEq, withoutAlert_keeps_iff]
          simp [halert, hremoved]
        · rename_i hother
          simp [hdetail, halert, hother]

end Mirroring

section Runs

variable {cfg : Config} {env : Env} {w w' : World} {call : Call} {catId : UUID} {r : CatUpdate}
  {clock : Instant} {s : CatDetailState}

/-- Before the first account, the sequence is past the numbers it handed out. -/
def Start (w : World) : Prop :=
  Genesis w ∧ Numbered w.db.tables

theorem reachable_numbered (h : Reachable (next cfg) Start w) : Numbered w.db.tables := by
  refine (Reachable.induct (I := fun w => Linked w.db.tables ∧ Numbered w.db.tables) ?_ ?_ h).2
  · intro w ⟨hgenesis, hnumbered⟩
    exact ⟨genesis_linked hgenesis, hnumbered⟩
  · intro w a w' ⟨hl, hnumbered⟩ hstep
    obtain ⟨hkey, rfl⟩ := next_eq_some.mp hstep
    refine ⟨serve_linked hkey hl, fun v' hv' => ?_⟩
    obtain ⟨hseq, hrows⟩ := @serve_rows cfg w a hl
    rcases hrows v' hv' with ⟨v, hv, hkept⟩ | ⟨hnew, -, hlt⟩
    · rw [hkept.seq]
      exact (hnumbered v hv).trans_le hseq
    · rw [hnew]
      exact hlt

theorem shows_prepend {d : CatServices.CatDetail} {entry : CatUpdateEntry} {viewer : UUID}
    {db' : Database} (hs : s.detail = some (.fromJson d)) (hnew : ∀ u ∈ s.updates, u.id ≠ entry.id) :
    Shows clock catId viewer db' (prependUpdate entry s) ↔
      ∃ d', getCatDetail clock catId (some viewer) db' = .ok d' ∧
        (CatDetail.fromJson d).withNewest entry = .fromJson d' := by
  have hany : (s.updates.any fun u => u.id == entry.id) = false := by
    apply List.any_eq_false.mpr
    intro u hu
    simpa using hnew u hu
  simp [Shows, prependUpdate, hs, hany]

/-- After every creation by the viewer of a detail, the screen is the server's precisely if the
entry mirrors it; and a failed re-fetch keeps all fields but the alert precisely if the
detail whose alert it drops has neither an owner nor a status. -/
theorem detail_follows_iff (h : Reachable (next cfg) Start w) (hcall : Creates call catId)
    (hrespond : respond env call w = (.ok r, w'))
    (hfresh : FreshId (env.uuid 0) w.db.tables ∧ ∀ u ∈ s.updates, u.id ≠ env.uuid 0)
    (hshows : Shows clock catId call.author w.db s) :
    (Shows clock catId call.author w'.db (prependUpdate (.fromJson r) s) ↔
      ∀ detail ∈ s.detail, Mirrors clock catId detail s.updates (.fromJson r) (attached call)
        w.db.tables) ∧
    ∀ removedMarkCreatedAt called s,
      KeepsOthers s (reconcileAfterHelpRemoval removedMarkCreatedAt none called s) ↔
        (called.detail.isSome = true → ∀ detail ∈ s.detail, ∀ alert ∈ detail.activeAlert,
          alert.createdAt = removedMarkCreatedAt → Bare detail) := by
  refine ⟨?_, reconcile_keeps_iff⟩
  obtain ⟨d, hd, hs⟩ := hshows
  simp only [hs, Option.mem_def, Option.some.injEq, forall_eq']
  unfold Mirrors
  rcases creation_cases hrespond hcall with ⟨rfl, hrepeated⟩ |
    ⟨arg, hon, hmedia, hwritten, hanswers⟩
  · have hrow : ∃ u ∈ w'.db.tables.updates, u.id = (CatUpdateEntry.fromJson r).id := hrepeated
    rw [if_pos hrow]
    by_cases hshown : ∃ u ∈ s.updates, u.id = (CatUpdateEntry.fromJson r).id
    · have hany : (s.updates.any fun u => u.id == (CatUpdateEntry.fromJson r).id) = true := by
        simpa using hshown
      refine iff_of_true ⟨d, hd, ?_⟩ (.inl hshown)
      simp [prependUpdate, hs, hany]
    · rw [shows_prepend hs fun u hu hid => hshown ⟨u, hu, hid⟩, hd]
      simp only [Except.ok.injEq, exists_eq_left', hshown, false_or]
      exact withNewest_eq_self_iff
  · have hid : r.id = env.uuid 0 := hanswers.id.trans hwritten.id
    have hnone : ¬ ∃ u ∈ w.db.tables.updates, u.id = (CatUpdateEntry.fromJson r).id := by
      rintro ⟨u, hu, hsame⟩
      exact hfresh.1 u hu (hsame.trans hid)
    rw [if_neg hnone, shows_prepend hs fun u hu hsame => hfresh.2 u hu (hsame.trans hid), ← hmedia]
    exact withNewest_eq_iff (hwritten.created hfresh.1) hon (hwritten.id ▸ hfresh.1)
      (reachable_numbered h) hanswers hd

end Runs

instance (detail : CatDetail) : Decidable (Bare detail) :=
  decidable_of_iff (detail.ownerUserId = none ∧ detail.lastSeenAt = none ∧
      detail.lastFedAt = none ∧ detail.lastWaterAt = none)
    ⟨fun ⟨owner, seen, fed, water⟩ => ⟨owner, seen, fed, water⟩,
      fun h => ⟨h.owner, h.seen, h.fed, h.water⟩⟩

instance (clock : Instant) (catId : UUID) (detail : CatDetail) (entry : CatUpdateEntry)
    (media : Option UUID) (t : Tables) :
    Decidable (MirrorsNew clock catId detail entry media t) :=
  decidable_of_iff (Bare detail ∧ entry.statuses = [] ∧
      (∀ l ∈ detail.lastUpdateAt, l ≤ entry.createdAt) ∧
      (∀ m ∈ media, ∃ cm ∈ t.catMedia, cm.catId = catId ∧ cm.mediaId = m) ∧
      ∀ alert ∈ entry.alert, clock < alert.expiresAt ∧ ∀ u ∈ t.updates, u.catId = catId →
        u.needsHelp = true → u.deletedAt = none → u.createdAt ≤ entry.createdAt)
    ⟨fun ⟨bare, statuses, latest, gallery, help⟩ => ⟨bare, statuses, latest, gallery, help⟩,
      fun h => ⟨h.bare, h.statuses, h.latest, h.gallery, h.help⟩⟩

instance (detail : CatDetail) (entry : CatUpdateEntry) : Decidable (MirrorsOld detail entry) :=
  decidable_of_iff (Bare detail ∧ detail.lastUpdateAt = some entry.createdAt ∧
      ∀ alert ∈ entry.alert, detail.activeAlert = some alert)
    ⟨fun ⟨bare, latest, help⟩ => ⟨bare, latest, help⟩, fun h => ⟨h.bare, h.latest, h.help⟩⟩

instance (clock : Instant) (catId : UUID) (detail : CatDetail) (shown : List CatUpdateEntry)
    (entry : CatUpdateEntry) (media : Option UUID) (t : Tables) :
    Decidable (Mirrors clock catId detail shown entry media t) :=
  inferInstanceAs (Decidable (if ∃ u ∈ t.updates, u.id = entry.id then
      (∃ u ∈ shown, u.id = entry.id) ∨ MirrorsOld detail entry
    else MirrorsNew clock catId detail entry media t))

theorem seedWorld_start : Start seedWorld :=
  ⟨seedWorld_genesis, by simp [Numbered, seedWorld]⟩

/-- A call of the fourth second on a detail read right before it. -/
def tested (call : Call) (catId : UUID) (test : CatServices.CatDetail → CatUpdate → World → Bool)
    (w : World) : Bool :=
  match getCatDetail 4 catId (some call.author) w.db, respond (plainEnv 4) call w with
  | .ok d, (.ok r, w') => test d r w'
  | _, _ => false

/-- An account asks for help for a cat that nobody owns. -/
def askHelp : Call :=
  .createOrdinaryUpdate { catId := some 1, userId := 20, statuses := [], needsHelp := true }

theorem detail_follows_help_mark : ∃ w r w' s, Reachable (next plainConfig) Start w ∧
    respond (plainEnv 4) askHelp w = (.ok r, w') ∧ Shows 4 1 20 w.db s ∧
    Shows 4 1 20 w'.db (prependUpdate (.fromJson r) s) := by
  obtain ⟨w, hw, htest⟩ := exists_of_exec_test (next plainConfig) seedWorld WriteResponses.signIn
    (fun w => decide (FreshId ((plainEnv 4).uuid 0) w.db.tables) && tested askHelp 1 (fun d r _ =>
      decide (Mirrors 4 1 (.fromJson d) [] (.fromJson r) (attached askHelp) w.db.tables)) w)
    (by decide +kernel)
  have hreach : Reachable (next plainConfig) Start w := ⟨_, _, seedWorld_start, hw⟩
  rw [Bool.and_eq_true, decide_eq_true_eq] at htest
  obtain ⟨hfresh, htest⟩ := htest
  unfold tested at htest
  split at htest
  · rename_i d r w' hd hrespond
    have hshows : Shows 4 1 askHelp.author w.db { detail := some (.fromJson d) } := ⟨d, hd, rfl⟩
    refine ⟨w, r, w', _, hreach, hrespond, hshows, ?_⟩
    have hcreates : Creates askHelp 1 := rfl
    refine (detail_follows_iff hreach hcreates hrespond ⟨hfresh, by simp⟩ hshows).1.mpr ?_
    intro detail hdetail
    cases hdetail
    exact of_decide_eq_true htest
  · cases htest

/-- An account adds a cat. -/
def ownCat : List Request :=
  WriteResponses.signIn ++ [⟨plainEnv 3, .createCat { userId := 20, area := ⟨41, 29⟩ }⟩]

/-- Its first update forgets the owner and when the cat was seen. -/
theorem detail_forgets_owner : ∃ w r w' s, Reachable (next plainConfig) Start w ∧
    respond (plainEnv 4)
      (.createOrdinaryUpdate { catId := some 31, userId := 20, statuses := ["seen"] }) w =
      (.ok r, w') ∧
    Shows 4 31 20 w.db s ∧ ¬ Shows 4 31 20 w'.db (prependUpdate (.fromJson r) s) := by
  obtain ⟨w, hw, htest⟩ := exists_of_exec_test (next plainConfig) seedWorld ownCat
    (tested (.createOrdinaryUpdate { catId := some 31, userId := 20, statuses := ["seen"] }) 31
      fun d r w' => match getCatDetail 4 31 (some 20) w'.db with
        | .ok d' => (CatDetail.fromJson d).withNewest (.fromJson r) != .fromJson d'
        | .error _ => false)
    (by decide +kernel)
  unfold tested at htest
  split at htest
  · rename_i d r w' hd hrespond
    refine ⟨w, r, w', { detail := some (.fromJson d) }, ⟨_, _, seedWorld_start, hw⟩, hrespond,
      ⟨d, hd, rfl⟩, ?_⟩
    intro ⟨d', hd', hdetail⟩
    simp only [hd', bne_iff_ne, ne_eq] at htest
    exact htest (Option.some.inj hdetail)
  · cases htest

end Tekir.DetailView
