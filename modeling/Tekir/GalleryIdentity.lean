import Tekir.Backend

/-!
# The identifier of a gallery entry

`ListCatMedia` answers with the identifier of the `cat_media` row, while the cover
and the report endpoints look a medium up by the identifier of its `media` row. As
the two are generated independently, no listed entry is ever accepted.
-/
namespace Tekir.GalleryIdentity
open Machine Table Schema Statements CatQueries Environment CatServices SocialServices Backend

/-- No archive row and no media row share an identifier. -/
def IdsApart (db : Database) : Prop :=
  ∀ cm ∈ db.tables.catMedia, ∀ m ∈ db.tables.media, cm.id ≠ m.id

instance (db : Database) : Decidable (IdsApart db) :=
  inferInstanceAs (Decidable (∀ cm ∈ db.tables.catMedia, ∀ m ∈ db.tables.media, cm.id ≠ m.id))

def isImage : ContentType → Bool
  | .imageJpeg | .imagePng => true
  | .videoMp4 | .videoQuicktime => false

/-- The item as the cat's list shows it to a viewer. -/
def Listed (cat : UUID) (viewer : Option UUID) (i : CatMediaItem) (w : World) : Prop :=
  ∃ items, CatServices.listCatMedia cat viewer w.db = .ok items ∧ i ∈ items

/-- Promoting the item succeeds, and then the list marks that item and no other as the cover. -/
def CoverWorks (env : Env) (cat owner : UUID) (i : CatMediaItem) (w : World) : Prop :=
  ∃ detail w' items, setCoverPhoto env cat owner (some i.id) w = (.ok detail, w') ∧
    CatServices.listCatMedia cat (some owner) w'.db = .ok items ∧
    ∀ j ∈ items, j.isCover = true ↔ j.id = i.id

/-- A report against the item is accepted and names the media row the item shows. -/
def ReportWorks (env : Env) (reporter cat : UUID) (reason : String) (note : Option String)
    (i : CatMediaItem) (w : World) : Prop :=
  ∃ report w', createReport env reporter "media" (some i.id) reason note w = (.ok report, w') ∧
    ∃ cm ∈ w.db.tables.catMedia, cm.id = i.id ∧ cm.catId = cat ∧ report.targetId = cm.mediaId

variable {w : World} {cat : UUID} {viewer : Option UUID} {i : CatMediaItem}

/-- A listed item carries the identifier of an archive row. -/
private theorem listed_archive_row (hi : Listed cat viewer i w) :
    ∃ cm ∈ w.db.tables.catMedia, cm.id = i.id := by
  obtain ⟨items, hlist, hi⟩ := hi
  unfold CatServices.listCatMedia at hlist
  split at hlist
  · cases hlist
    obtain ⟨r, hr, rfl⟩ := List.mem_map.mp hi
    obtain ⟨cm, hcm, hid, -, -⟩ := mem_listCatMedia hr
    exact ⟨cm, hcm, hid⟩
  · cases hlist

/-- No media row has the identifier of a listed item. -/
private theorem listed_not_medium (hapart : IdsApart w.db) (hi : Listed cat viewer i w) :
    ∀ m ∈ w.db.tables.media, m.id ≠ i.id := by
  intro m hm heq
  obtain ⟨cm, hcm, hid⟩ := listed_archive_row hi
  exact hapart cm hcm m hm (hid.trans heq.symm)

private theorem getMediaByID_listed (hapart : IdsApart w.db) (hi : Listed cat viewer i w) :
    getMediaByID i.id w.db = .error .noRows := by
  refine one_eq_noRows.mpr (List.filter_eq_nil_iff.mpr fun m hm => ?_)
  simpa using listed_not_medium hapart hi m hm

/-- An archive row refers to a media row, so none refers to a listed item. -/
private theorem getCatMedia_listed (hapart : IdsApart w.db) (hi : Listed cat viewer i w)
    (c : UUID) : getCatMediaByCatAndMedia c i.id w.db = .error .noRows := by
  refine one_eq_noRows.mpr (List.filter_eq_nil_iff.mpr fun cm hcm => ?_)
  obtain ⟨m, hm, hid⟩ := w.db.valid.holds .catMediaMediaIdFkey cm hcm cm.mediaId rfl
  have hne := listed_not_medium hapart hi m hm
  simp only [Bool.and_eq_true, beq_iff_eq, not_and]
  intro _ hmedia
  exact hne (hid.trans hmedia)

/-- The owner is told that the entry is not in the gallery. -/
theorem setCoverPhoto_listed (hapart : IdsApart w.db) (hi : Listed cat viewer i w) (env : Env)
    {owner : UUID} {row : CatRow} (howner : ownedCat cat owner w.db = .ok row) :
    setCoverPhoto env cat owner (some i.id) w = (.error .mediaNotInGallery, w) := by
  simp [setCoverPhoto, howner, getCatMedia_listed hapart hi]

/-- A well-formed report is told that its target does not exist. -/
theorem createReport_listed (hapart : IdsApart w.db) (hi : Listed cat viewer i w) (env : Env)
    (reporter : UUID) {reason : String} {note : Option String} {r : Reason}
    (hreason : reportReason reason = some r)
    (hnote : r ≠ .other ∨ note.elim "" trimSpace ≠ "") :
    createReport env reporter "media" (some i.id) reason note w =
      (.error .reportTargetNotFound, w) := by
  have hprep : prepareReport env reporter "media" (some i.id) reason note w.db =
      .error .reportTargetNotFound := by
    have hn : ¬ (r = .other ∧ note.elim "" trimSpace = "") := by tauto
    simp [prepareReport, reportTargetType, hreason, hn, targetExists,
      getMediaByID_listed hapart hi, Except.isOk, Except.toBool]
  simp [createReport, hprep]

private theorem not_coverWorks (hapart : IdsApart w.db) (hi : Listed cat viewer i w) (env : Env)
    (c owner : UUID) : ¬ CoverWorks env c owner i w := by
  rintro ⟨detail, w', items, hset, -⟩
  cases howner : ownedCat c owner w.db with
  | error e => simp [setCoverPhoto, howner] at hset
  | ok row => simp [setCoverPhoto, howner, getCatMedia_listed hapart hi] at hset

/-- In no state is a listed entry accepted: neither by the cover endpoint, for any account,
nor by a well-formed report of any account. -/
theorem listed_entry_never_accepted (hapart : IdsApart w.db) (hi : Listed cat viewer i w) :
    (∀ env owner, ¬ CoverWorks env cat owner i w) ∧
    ∀ env reporter reason note r, reportReason reason = some r →
      (r ≠ .other ∨ note.elim "" trimSpace ≠ "") →
        ¬ ReportWorks env reporter cat reason note i w := by
  refine ⟨fun env owner => not_coverWorks hapart hi env cat owner, ?_⟩
  rintro env reporter reason note r hreason hnote ⟨report, w', hcreate, -⟩
  rw [createReport_listed hapart hi env reporter hreason hnote] at hcreate
  cases hcreate

/-- An account adds a cat with its photo. -/
def catWithPhoto : List Request :=
  [⟨plainEnv 1, .register "ios" none⟩,
   ⟨plainEnv 2, .verifyOTP "5551112233" "" 10⟩,
   ⟨plainEnv 3, .createCat { userId := 20, area := ⟨41, 29⟩ }⟩]

/-- The archive entry of a new cat's photo. -/
def photoEntry : CatMediaItem :=
  { id := 32, url := "", contentType := .imageJpeg, muted := true, isCover := true
    createdAt := 3, uploaderDisplayName := none, uploaderUserId := 20 }

private theorem catWithPhoto_run : ∃ w, Reaches plainConfig w ∧ IdsApart w.db ∧
    (ownedCat 31 20 w.db).isOk = true ∧ Listed 31 (some 20) photoEntry w := by
  obtain ⟨w, hreach, hp⟩ := exists_reaches_of_test plainConfig seedWorld_genesis
    catWithPhoto
    (fun w => decide (IdsApart w.db) && (ownedCat 31 20 w.db).isOk &&
      match CatServices.listCatMedia 31 (some 20) w.db with
      | .ok items => decide (photoEntry ∈ items)
      | .error _ => false) (by decide +kernel)
  simp only [Bool.and_eq_true, decide_eq_true_eq] at hp
  obtain ⟨⟨hapart, howner⟩, hlist⟩ := hp
  refine ⟨w, hreach, hapart, howner, ?_⟩
  split at hlist
  · rename_i items hitems
    exact ⟨items, hitems, by simpa using hlist⟩
  · cases hlist

/-- The owner of a cat with one photo can neither promote nor report the entry it is shown. -/
theorem photo_entry_rejected : ∃ w, Reaches plainConfig w ∧ IdsApart w.db ∧
    (ownedCat 31 20 w.db).isOk = true ∧ Listed 31 (some 20) photoEntry w ∧
    isImage photoEntry.contentType = true ∧
    ¬ CoverWorks (plainEnv 4) 31 20 photoEntry w ∧
    ¬ ReportWorks (plainEnv 4) 20 31 "spam" none photoEntry w := by
  obtain ⟨w, hreach, hapart, howner, hi⟩ := catWithPhoto_run
  refine ⟨w, hreach, hapart, howner, hi, rfl, not_coverWorks hapart hi _ _ _, ?_⟩
  rintro ⟨report, w', hcreate, -⟩
  rw [createReport_listed hapart hi _ _ (r := .spam) rfl (.inl (by decide))] at hcreate
  cases hcreate

theorem photo_entry_never_accepted : ∃ w, Reaches plainConfig w ∧
    ∀ env owner, ¬ CoverWorks env 31 owner photoEntry w := by
  obtain ⟨w, hreach, hapart, -, hi⟩ := catWithPhoto_run
  exact ⟨w, hreach, (listed_entry_never_accepted hapart hi).1⟩

end Tekir.GalleryIdentity
