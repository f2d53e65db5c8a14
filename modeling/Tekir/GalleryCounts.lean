import Tekir.Freshness

/-!
# The count of a gallery beside its list

`CountCatMedia` counts every row of the archive, `ListCatMedia` hides a row once every update
that attached its medium is deleted. The two agree in every state of a run precisely if no
update is deleted that was the last one to show its medium.
-/
namespace Tekir.GalleryCounts
open Machine Table Schema Statements AccountQueries CatQueries DeletionQueries Environment
  CatServices Backend Integrity ServiceEffects UpdateCreation ArchiveEffects Freshness

/-- The update attaches the medium of the row to the cat of the row. -/
def Attaches (u : Update) (cm : CatMedium) : Prop :=
  u.mediaId = some cm.mediaId ∧ u.catId = cm.catId

instance (u : Update) (cm : CatMedium) : Decidable (Attaches u cm) :=
  inferInstanceAs (Decidable (_ ∧ _))

/-- Nobody attached the medium, or a live update still does. -/
def Shown (updates : List Update) (cm : CatMedium) : Prop :=
  (∀ u ∈ updates, ¬ Attaches u cm) ∨ ∃ u ∈ updates, Attaches u cm ∧ u.deletedAt = none

instance (updates : List Update) (cm : CatMedium) : Decidable (Shown updates cm) :=
  inferInstanceAs (Decidable ((∀ u ∈ updates, ¬ Attaches u cm) ∨ ∃ u ∈ updates, _ ∧ _))

/-- Every row of a gallery is shown, unless its cat is deleted. -/
def AllShown (t : Tables) : Prop :=
  ∀ c ∈ t.cats, c.status ≠ .deleted → ∀ cm ∈ t.catMedia, cm.catId = c.id → Shown t.updates cm

instance (t : Tables) : Decidable (AllShown t) :=
  inferInstanceAs (Decidable (∀ c ∈ t.cats, c.status ≠ .deleted →
    ∀ cm ∈ t.catMedia, cm.catId = c.id → Shown t.updates cm))

/-- An attached medium is in the gallery. -/
def Filed (t : Tables) : Prop :=
  ∀ u ∈ t.updates, ∀ m, u.mediaId = some m → ∃ cm ∈ t.catMedia, Attaches u cm ∧ cm.mediaId = m

/-- Whoever sees the cat reads the length of the gallery as its count. -/
def CountsMatch (db : Database) : Prop :=
  ∀ clock id caller detail items, getCatDetail clock id caller db = .ok detail →
    CatServices.listCatMedia id caller db = .ok items → detail.mediaCount = items.length

/-- The update that the request deletes on the cat. -/
def deletesOn (r : Request) (db : Database) (catId : UUID) (u : Update) : Bool :=
  match r.op with
  | .deleteOwnUpdate .. => u.catId == catId && removes r db u
  | _ => false

/-- Another live update shows the medium of a deleted one, unless the cat is deleted. -/
def LeavesShown (w : World) (r : Request) : Prop :=
  ∀ c ∈ w.db.tables.cats, c.status ≠ .deleted →
    ∀ u ∈ w.db.tables.updates, deletesOn r w.db c.id u = true → ∀ m ∈ u.mediaId,
      ∃ v ∈ w.db.tables.updates, v.catId = c.id ∧ v.mediaId = some m ∧ v.deletedAt = none ∧
        removes r w.db v = false

instance (w : World) (r : Request) : Decidable (LeavesShown w r) :=
  inferInstanceAs (Decidable (∀ c ∈ w.db.tables.cats, c.status ≠ .deleted →
    ∀ u ∈ w.db.tables.updates, deletesOn r w.db c.id u = true → ∀ m ∈ u.mediaId,
      ∃ v ∈ w.db.tables.updates, _ ∧ _ ∧ _ ∧ _))

section Reads

variable {db : Database}

theorem stillAttached_iff {cm : CatMedium} :
    stillAttached cm db = true ↔ Shown db.tables.updates cm := by
  simp only [stillAttached, Shown, Attaches, Bool.or_eq_true, List.isEmpty_iff,
    List.filter_eq_nil_iff, List.any_eq_true, List.mem_filter, Bool.and_eq_true, beq_iff_eq,
    Option.isNone_iff_eq_none, and_assoc]

/-- The medium and the cat of a row exist. -/
theorem catMediaRow_isSome {cm : CatMedium} (h : cm ∈ db.tables.catMedia) :
    (catMediaRow cm db).isSome = true := by
  obtain ⟨m, hm, hmid⟩ := db.valid.holds .catMediaMediaIdFkey cm h cm.mediaId rfl
  obtain ⟨c, hc, hcid⟩ := db.valid.holds .catMediaCatIdFkey cm h cm.catId rfl
  have hmedium : (db.tables.media.find? fun m => m.id == cm.mediaId).isSome = true :=
    List.find?_isSome.mpr ⟨m, hm, beq_iff_eq.mpr hmid⟩
  have hcat : (db.tables.cats.find? fun c => c.id == cm.catId).isSome = true :=
    List.find?_isSome.mpr ⟨c, hc, beq_iff_eq.mpr hcid⟩
  obtain ⟨m', hm'⟩ := Option.isSome_iff_exists.mp hmedium
  obtain ⟨c', hc'⟩ := Option.isSome_iff_exists.mp hcat
  simp [catMediaRow, hm', hc']

theorem length_filterMap {α β : Type} {f : α → Option β} {rows : List α}
    (h : ∀ r ∈ rows, (f r).isSome = true) : (rows.filterMap f).length = rows.length := by
  induction rows with
  | nil => rfl
  | cons r rows ih =>
    obtain ⟨b, hb⟩ := Option.isSome_iff_exists.mp (h r List.mem_cons_self)
    rw [List.filterMap_cons_some hb, List.length_cons, List.length_cons,
      ih fun q hq => h q (List.mem_cons_of_mem _ hq)]

/-- The list has the rows that are shown. -/
theorem length_listCatMedia (catId : UUID) :
    (CatQueries.listCatMedia catId db).length =
      ((db.tables.catMedia.filter fun cm => cm.catId == catId).filter
        fun cm => stillAttached cm db).length := by
  unfold CatQueries.listCatMedia orderBy
  rw [List.length_insertionSort, length_filterMap, List.filter_filter]
  · simp only [Bool.and_comm]
  · intro cm hcm
    exact catMediaRow_isSome (List.mem_filter.mp hcm).1

theorem count_eq_length_iff (catId : UUID) :
    countCatMedia catId db = (CatQueries.listCatMedia catId db).length ↔
      ∀ cm ∈ db.tables.catMedia, cm.catId = catId → Shown db.tables.updates cm := by
  rw [length_listCatMedia, countCatMedia, eq_comm, List.length_filter_eq_length_iff]
  simp only [List.mem_filter, beq_iff_eq, and_imp, stillAttached_iff]

theorem mediaCount_eq {clock : Instant} {id : UUID} {caller : Option UUID} {detail : CatDetail}
    (h : getCatDetail clock id caller db = .ok detail) : detail.mediaCount = countCatMedia id db := by
  unfold getCatDetail at h
  split at h
  · cases h
  · cases h
  · cases h
    rfl

theorem countsMatch_iff : CountsMatch db ↔ AllShown db.tables := by
  constructor
  · intro h c hc hactive
    obtain ⟨detail, hdetail⟩ := @exists_detail db 0 c hc hactive
    have hexists : catExists c.id none db = true := by
      apply List.any_eq_true.mpr
      exact ⟨c, hc, by simp [visible, blocks, hactive]⟩
    have hlist : CatServices.listCatMedia c.id none db =
        .ok ((CatQueries.listCatMedia c.id db).map toCatMediaItem) := if_pos hexists
    have hcount := h 0 c.id none detail _ hdetail hlist
    rw [mediaCount_eq hdetail, List.length_map] at hcount
    exact (count_eq_length_iff c.id).mp hcount
  · intro h clock id caller detail items hdetail hlist
    obtain ⟨c, hc, rfl, hactive, -⟩ := getCatDetail_eq_ok hdetail
    unfold CatServices.listCatMedia at hlist
    split at hlist
    · cases hlist
      rw [mediaCount_eq hdetail, List.length_map]
      exact (count_eq_length_iff c.id).mpr (h c hc hactive)
    · cases hlist

end Reads

section Steps

variable {cfg : Config} {w w' : World} {r : Request} {t t' : Tables} {us us' : List Update}
  {cm : CatMedium} {u : Update}

/-- Only the medium, the cat and the deletion of the updates count. -/
theorem shown_map {g : Update → Update} (hmedia : ∀ u, (g u).mediaId = u.mediaId)
    (hcat : ∀ u, (g u).catId = u.catId) (hdeleted : ∀ u, (g u).deletedAt = u.deletedAt) :
    Shown (us.map g) cm ↔ Shown us cm := by
  simp only [Shown, Attaches, List.mem_map, exists_exists_and_eq_and, forall_exists_index, and_imp,
    forall_apply_eq_imp_iff₂, hmedia, hcat, hdeleted]

theorem shown_faces (h : us'.map face = us.map face) : Shown us' cm ↔ Shown us cm := by
  have hface : ∀ us, Shown (us.map face) cm ↔ Shown us cm :=
    fun us => shown_map (fun _ => rfl) (fun _ => rfl) fun _ => rfl
  rw [← hface us', h, hface us]

/-- No update that attaches something is new, and the gallery stays. -/
theorem filed_of_mem (hfiled : Filed t) (hgallery : t'.catMedia = t.catMedia)
    (hupdates : ∀ u' ∈ t'.updates, ∃ u ∈ t.updates, u.mediaId = u'.mediaId ∧ u.catId = u'.catId) :
    Filed t' := by
  intro u' hu' m hm
  obtain ⟨u, hu, hsameMedia, hsameCat⟩ := hupdates u' hu'
  obtain ⟨cm, hcm, ⟨hmedium, hon⟩, hid⟩ := hfiled u hu m (hsameMedia.trans hm)
  exact ⟨cm, hgallery ▸ hcm, ⟨hsameMedia ▸ hmedium, hsameCat ▸ hon⟩, hid⟩

theorem kept_filed (h : SameFaces t t') (hfiled : Filed t) : Filed t' := by
  refine filed_of_mem hfiled h.catMedia fun u' hu' => ?_
  have hmem : face u' ∈ t.updates.map face := h.updates ▸ List.mem_map.mpr ⟨u', hu', rfl⟩
  obtain ⟨u, hu, heq⟩ := List.mem_map.mp hmem
  have hmedia : (face u).mediaId = (face u').mediaId := by rw [heq]
  have hcat : (face u).catId = (face u').catId := by rw [heq]
  exact ⟨u, hu, hmedia, hcat⟩

theorem kept_shown (h : SameFaces t t') (hshown : AllShown t) : AllShown t' := by
  intro c' hc' hactive cm hcm hon
  obtain ⟨c, hc, hid, hstatus, -⟩ := exists_of_faces h.cats hc'
  rw [h.catMedia] at hcm
  rw [shown_faces h.updates]
  exact hshown c hc (hstatus ▸ hactive) cm hcm (hon.trans hid.symm)

/-- A new cat has its photo, which no update carries. -/
theorem catCreated_shown {cat : Cat} {photo : CatMedium} {db db' : Database}
    (h : CatCreated cat photo db.tables db'.tables) (hshown : AllShown db.tables) :
    AllShown db'.tables := by
  intro c hc hactive cm hcm hon
  rw [h.catMedia] at hcm
  rw [h.updates]
  rcases List.mem_append.mp hcm with hcm | hcm
  · rw [h.cats] at hc
    rcases List.mem_append.mp hc with hc | hc
    · exact hshown c hc hactive cm hcm hon
    · obtain rfl := List.mem_singleton.mp hc
      have hkey := db'.valid.holds .catsPkey
      simp only [Constraint.Holds, h.cats] at hkey
      obtain ⟨c', hc', hid⟩ := db.valid.holds .catMediaCatIdFkey cm hcm cm.catId rfl
      have hne := (uniqueOn_append_singleton.mp hkey).2 c' hc'
      simp [hid, hon] at hne
  · obtain rfl := List.mem_singleton.mp hcm
    exact .inl fun u hu hattaches => h.unused u hu hattaches.1

theorem mem_joined {cmId : UUID} {arg : Store.CreateOrdinaryUpdateParams} {rows : List CatMedium}
    (h : cm ∈ joined cmId arg rows) :
    cm ∈ rows ∨ arg.mediaId = some cm.mediaId ∧ arg.catId = cm.catId := by
  unfold joined at h
  split at h
  · exact .inl h
  · rename_i hmedia
    split at h
    · exact .inl h
    · rcases List.mem_append.mp h with h | h
      · exact .inl h
      · obtain rfl := List.mem_singleton.mp h
        exact .inr ⟨hmedia, rfl⟩

theorem exists_joined {cmId : UUID} {arg : Store.CreateOrdinaryUpdateParams}
    {rows : List CatMedium} {m : UUID} (h : arg.mediaId = some m) :
    ∃ cm ∈ joined cmId arg rows, arg.catId = cm.catId ∧ cm.mediaId = m := by
  unfold joined
  rw [h]
  dsimp only
  split
  · rename_i hany
    obtain ⟨cm, hcm, heq⟩ := List.any_eq_true.mp hany
    simp only [Bool.and_eq_true, beq_iff_eq] at heq
    exact ⟨cm, hcm, heq.1.symm, heq.2⟩
  · exact ⟨_, List.mem_append_right _ (List.mem_singleton.mpr rfl), rfl, rfl⟩

theorem subset_joined {cmId : UUID} {arg : Store.CreateOrdinaryUpdateParams}
    {rows : List CatMedium} (h : cm ∈ rows) : cm ∈ joined cmId arg rows := by
  unfold joined
  split
  · exact h
  · split
    · exact h
    · exact List.mem_append_left _ h

/-- What a new update attaches is shown, and it is live. -/
theorem created_shown {cmId : UUID} {arg : Store.CreateOrdinaryUpdateParams}
    (h : Created cmId arg t t') (hshown : AllShown t) : AllShown t' := by
  intro c' hc' hactive cm hcm hon
  rw [h.gallery] at hcm
  rw [h.updates]
  by_cases hnew : Attaches (arg.row.insert t.updatesSeq) cm
  · exact .inr ⟨_, List.mem_append_right _ (List.mem_singleton.mpr rfl), hnew, rfl⟩
  · rcases mem_joined hcm with hcm | hattached
    · rw [h.cats] at hc'
      obtain ⟨c, hc, heq⟩ := mem_updateWhere.mp hc'
      have hsame : c.id = c'.id ∧ c.status = c'.status := by
        rw [← heq]
        split <;> exact ⟨rfl, rfl⟩
      rcases hshown c hc (hsame.2 ▸ hactive) cm hcm (hon.trans hsame.1.symm) with hnone | hlive
      · refine .inl fun u hu => ?_
        rcases List.mem_append.mp hu with hu | hu
        · exact hnone u hu
        · rw [List.mem_singleton.mp hu]
          exact hnew
      · obtain ⟨u, hu, hlive⟩ := hlive
        exact .inr ⟨u, List.mem_append_left _ hu, hlive⟩
    · exact absurd hattached hnew

theorem created_filed {cmId : UUID} {arg : Store.CreateOrdinaryUpdateParams}
    (h : Created cmId arg t t') (hfiled : Filed t) : Filed t' := by
  intro u hu m hm
  rw [h.updates] at hu
  rw [h.gallery]
  rcases List.mem_append.mp hu with hu | hu
  · obtain ⟨cm, hcm, hattaches⟩ := hfiled u hu m hm
    exact ⟨cm, subset_joined hcm, hattaches⟩
  · obtain rfl := List.mem_singleton.mp hu
    obtain ⟨cm, hcm, hon, hid⟩ := exists_joined hm
    exact ⟨cm, hcm, ⟨hid ▸ hm, hon⟩, hid⟩

/-- A claim changes authors only. -/
theorem claimed_shown {deviceId userId : UUID} (h : Claimed deviceId userId t t') :
    Shown t'.updates cm ↔ Shown t.updates cm := by
  rw [h.updates, updateWhere, shown_map]
  all_goals
    intro u
    split <;> rfl

/-- An account takes its media out of the galleries with the updates that carry them. -/
theorem accountDeleted_shown {a : UUID} {db : Database} (hl : Linked db.tables)
    (h : AccountDeleted a db.tables t') (hshown : AllShown db.tables) : AllShown t' := by
  intro c' hc' hactive cm hcm hon
  obtain ⟨c, hc, hid, hstatus, -⟩ := exists_of_faces h.cats hc'
  rw [h.catMedia] at hcm
  obtain ⟨hcm, hstays⟩ := mem_deleteWhere.mp hcm
  rw [Bool.or_eq_false_iff] at hstays
  rw [h.updates]
  rcases hshown c (mem_deleteWhere.mp hc).1 (hstatus ▸ hactive) cm hcm (hon.trans hid.symm) with
    hnone | ⟨u, hu, hattaches, hlive⟩
  · exact .inl fun u hu => hnone u (mem_deleteWhere.mp hu).1
  · refine .inr ⟨u, mem_deleteWhere.mpr ⟨hu, ?_⟩, hattaches, hlive⟩
    obtain ⟨m, hm, hmid⟩ := db.valid.holds .catMediaMediaIdFkey cm hcm cm.mediaId rfl
    have hauthor := hl.mediaByAuthor u hu m hm (hattaches.1.trans (by rw [hmid]))
    have huploader : m.uploadedByUserId ≠ a := by
      intro heq
      have hnone := List.any_eq_false.mp hstays.2 m hm
      simp [hmid, heq] at hnone
    rw [accountUpdate, Bool.or_eq_false_iff, hattaches.2]
    exact ⟨by simpa [hauthor] using huploader, hstays.1⟩

theorem accountDeleted_filed {a : UUID} {db : Database} (hl : Linked db.tables)
    (h : AccountDeleted a db.tables t') (hfiled : Filed db.tables) : Filed t' := by
  intro u hu m hm
  rw [h.updates] at hu
  obtain ⟨hu, hstays⟩ := mem_deleteWhere.mp hu
  rw [accountUpdate, Bool.or_eq_false_iff] at hstays
  obtain ⟨cm, hcm, hattaches, hid⟩ := hfiled u hu m hm
  refine ⟨cm, ?_, hattaches, hid⟩
  rw [h.catMedia]
  refine mem_deleteWhere.mpr ⟨hcm, ?_⟩
  rw [Bool.or_eq_false_iff, ← hattaches.2]
  refine ⟨hstays.2, List.any_eq_false.mpr fun q hq hown => ?_⟩
  simp only [Bool.and_eq_true, beq_iff_eq] at hown
  have hauthor := hl.mediaByAuthor u hu q hq (hattaches.1.trans (by rw [hown.1]))
  rw [hauthor, hown.2] at hstays
  simp at hstays

/-- A deletion empties no shown row precisely if every medium it takes off is still shown. -/
theorem updateDeleted_shown_iff {p : Update → Bool} {now : Instant}
    (h : UpdateDeleted p now t t') (hfiled : Filed t) (hshown : AllShown t) :
    AllShown t' ↔ ∀ c ∈ t.cats, c.status ≠ .deleted → ∀ u ∈ t.updates,
      (u.catId == c.id && p u) = true → ∀ m ∈ u.mediaId, ∃ v ∈ t.updates, v.catId = c.id ∧
        v.mediaId = some m ∧ v.deletedAt = none ∧ p v = false := by
  constructor
  · intro hafter c hc hactive u hu hdeletes m hm
    rw [Bool.and_eq_true, beq_iff_eq] at hdeletes
    obtain ⟨cm, hcm, hattaches, hid⟩ := hfiled u hu m hm
    have hrow := hafter c (h.cats ▸ hc) hactive cm (h.catMedia ▸ hcm)
      (hattaches.2.symm.trans hdeletes.1)
    rw [h.updates] at hrow
    rcases hrow with hnone | ⟨v', hv', hattaches', hlive⟩
    · refine absurd ?_ (hnone _ (mem_updateWhere.mpr ⟨u, hu, rfl⟩))
      rw [if_pos hdeletes.2]
      exact hattaches
    · obtain ⟨v, hv, rfl⟩ := mem_updateWhere.mp hv'
      split at hlive
      · cases hlive
      · rename_i hp
        rw [if_neg hp] at hattaches'
        refine ⟨v, hv, ?_, hid ▸ hattaches'.1, hlive, Bool.eq_false_iff.mpr hp⟩
        exact hattaches'.2.trans (hattaches.2.symm.trans hdeletes.1)
  · intro hspared c hc hactive cm hcm hon
    rw [h.cats] at hc
    rw [h.catMedia] at hcm
    rw [h.updates]
    rcases hshown c hc hactive cm hcm hon with hnone | ⟨u, hu, hattaches, hlive⟩
    · refine .inl fun v' hv' => ?_
      obtain ⟨v, hv, rfl⟩ := mem_updateWhere.mp hv'
      have hv := hnone v hv
      split <;> exact hv
    · cases hp : p u with
      | false =>
        refine .inr ⟨u, mem_updateWhere.mpr ⟨u, hu, ?_⟩, hattaches, hlive⟩
        simp [hp]
      | true =>
        obtain ⟨v, hv, hcat, hmedia, hvlive, hkept⟩ := hspared c hc hactive u hu
          (by simp [hp, hattaches.2, hon]) cm.mediaId hattaches.1
        refine .inr ⟨v, mem_updateWhere.mpr ⟨v, hv, ?_⟩, ⟨hmedia, hcat.trans hon.symm⟩, hvlive⟩
        simp [hkept]

theorem leavesShown_of_op (h : ∀ catId u, deletesOn r w.db catId u = false) : LeavesShown w r := by
  intro c _ _ u _ hu
  rw [h] at hu
  cases hu

theorem deletesOn_of_removes (h : ∀ u, removes r w.db u = false) (catId : UUID) (u : Update) :
    deletesOn r w.db catId u = false := by
  unfold deletesOn
  split
  · rw [h u, Bool.and_false]
  · rfl

theorem step_shown_iff (hl : Linked w.db.tables) (hfiled : Filed w.db.tables)
    (hshown : AllShown w.db.tables) (hstep : freshNext cfg w r = some w') :
    AllShown w'.db.tables ↔ LeavesShown w r := by
  obtain ⟨hid, -, rfl⟩ := freshNext_eq_some.mp hstep
  cases @serve_effect cfg _ r hl with
  | kept hr h =>
    exact iff_of_true (kept_shown h hshown) (leavesShown_of_op (deletesOn_of_removes hr))
  | catCreated hr cat photo h =>
    exact iff_of_true (catCreated_shown h hshown) (leavesShown_of_op (deletesOn_of_removes hr))
  | updateCreated hr userId arg h =>
    exact iff_of_true (created_shown (h.created hid) hshown) (leavesShown_of_op (deletesOn_of_removes hr))
  | claimed hr deviceId userId h =>
    refine iff_of_true (fun c hc hactive cm hcm hon => ?_)
      (leavesShown_of_op (deletesOn_of_removes hr))
    rw [h.cats] at hc
    rw [h.catMedia] at hcm
    exact (claimed_shown h).mpr (hshown c hc hactive cm hcm hon)
  | catDeleted hr p h =>
    refine iff_of_true (fun c' hc' hactive cm hcm hon => ?_)
      (leavesShown_of_op (deletesOn_of_removes hr))
    rw [h.cats] at hc'
    rw [h.catMedia] at hcm
    rw [h.updates]
    obtain ⟨c, hc, rfl⟩ := mem_updateWhere.mp hc'
    split at hactive
    · exact absurd rfl hactive
    · rename_i hp
      rw [if_neg hp] at hon
      exact hshown c hc hactive cm hcm hon
  | updateDeleted catId updateId userId hop h =>
    rw [updateDeleted_shown_iff h hfiled hshown]
    unfold LeavesShown deletesOn
    rw [hop]
  | accountDeleted a hop hr h =>
    refine iff_of_true (accountDeleted_shown hl h hshown) (leavesShown_of_op fun catId u => ?_)
    simp [deletesOn, hop]

/-- Attached media stay in the gallery whatever is asked. -/
theorem step_filed (hl : Linked w.db.tables) (hfiled : Filed w.db.tables)
    (hstep : freshNext cfg w r = some w') : Filed w'.db.tables := by
  obtain ⟨hid, -, rfl⟩ := freshNext_eq_some.mp hstep
  cases @serve_effect cfg _ r hl with
  | kept hr h => exact kept_filed h hfiled
  | catCreated hr cat photo h =>
    intro u hu m hm
    obtain ⟨cm, hcm, hattaches⟩ := hfiled u (h.updates ▸ hu) m hm
    exact ⟨cm, h.catMedia ▸ List.mem_append_left _ hcm, hattaches⟩
  | updateCreated hr userId arg h => exact created_filed (h.created hid) hfiled
  | claimed hr deviceId userId h =>
    refine filed_of_mem hfiled h.catMedia fun u' hu' => ?_
    rw [h.updates] at hu'
    obtain ⟨u, hu, rfl⟩ := mem_updateWhere.mp hu'
    refine ⟨u, hu, ?_⟩
    split <;> exact ⟨rfl, rfl⟩
  | catDeleted hr p h =>
    intro u hu m hm
    rw [h.catMedia]
    exact hfiled u (h.updates ▸ hu) m hm
  | updateDeleted catId updateId userId hop h =>
    refine filed_of_mem hfiled h.catMedia fun u' hu' => ?_
    rw [h.updates] at hu'
    obtain ⟨u, hu, rfl⟩ := mem_updateWhere.mp hu'
    refine ⟨u, hu, ?_⟩
    split <;> exact ⟨rfl, rfl⟩
  | accountDeleted a hop hr h => exact accountDeleted_filed hl h hfiled

/-- The count is the length of the gallery in every state of a run precisely if every deleted
update that carried a medium leaves its cat a live one that carries it too. -/
theorem counts_match_iff_left_shown (hw : Genesis w) (rs : List Request) :
    Always (freshNext cfg) (fun w => CountsMatch w.db) w rs ↔
      Each (freshNext cfg) LeavesShown w rs := by
  refine always_iff_each (J := fun w => Linked w.db.tables ∧ Filed w.db.tables) ?_ ?_
    ⟨genesis_linked hw, ?_⟩ (countsMatch_iff.mpr ?_)
  · intro s a t ⟨hl, hfiled⟩ hstep
    exact ⟨next_linked hl hstep, step_filed hl hfiled hstep⟩
  · intro s a t ⟨hl, hfiled⟩ hmatch hstep
    rw [countsMatch_iff]
    exact step_shown_iff hl hfiled (countsMatch_iff.mp hmatch) hstep
  · intro u hu m hm
    obtain ⟨q, hq, -⟩ := w.db.valid.holds .updatesMediaIdFkey u hu m hm
    rw [hw.media] at hq
    cases hq
  · intro c _ _ cm hcm _
    obtain ⟨q, hq, -⟩ := w.db.valid.holds .catMediaMediaIdFkey cm hcm cm.mediaId rfl
    rw [hw.media] at hq
    cases hq

end Steps

instance (db : Database) : Decidable (CountsMatch db) :=
  decidable_of_iff (AllShown db.tables) countsMatch_iff.symm

/-- An account attaches one photo to two updates on its cat. -/
def sharedPhoto : List Request :=
  firstUpdate ++
    [⟨plainEnv 5, .upload 20 none none false⟩,
     ⟨plainEnv 6, .createOrdinaryUpdate
       { catId := some 31, userId := 20, statuses := ["seen"], mediaId := some (some 50) }⟩,
     ⟨plainEnv 7, .createOrdinaryUpdate
       { catId := some 31, userId := 20, statuses := ["fed"], mediaId := some (some 50) }⟩]

/-- One of the two updates is deleted. -/
theorem counts_match_shared_photo : Always (freshNext plainConfig) (fun w => CountsMatch w.db)
    emptyWorld (sharedPhoto ++ [⟨plainEnv 8, .deleteOwnUpdate (some 31) (some 60) 20⟩]) :=
  (counts_match_iff_left_shown emptyWorld_genesis _).mpr (by decide +kernel)

/-- Both are deleted: the photo still counts. -/
theorem count_exceeds_gallery : ¬ Always (freshNext plainConfig) (fun w => CountsMatch w.db)
    emptyWorld (sharedPhoto ++
      [⟨plainEnv 8, .deleteOwnUpdate (some 31) (some 60) 20⟩,
       ⟨plainEnv 9, .deleteOwnUpdate (some 31) (some 70) 20⟩]) :=
  not_always_of_test (by decide +kernel)

end Tekir.GalleryCounts
