import Tekir.DeletionLeftovers
import Tekir.UpdateCreation

/-!
# What one request does to the archive

The updates, the cats and the galleries under every request of the backend: most leave them
alone up to the columns that show no history, and each of the others does one thing.
Identifiers of updates are drawn afresh.
-/
namespace Tekir.ArchiveEffects
open Machine Table Schema Statements AccountQueries CatQueries UpdateQueries DeletionQueries
  Environment AccountServices CatServices SocialServices Backend Integrity ServiceEffects
  UpdateCreation

variable {cfg : Config} {env : Env} {w : World}

structure Untouched (t t' : Tables) : Prop where
  updates : t'.updates = t.updates
  cats : t'.cats = t.cats
  catMedia : t'.catMedia = t.catMedia
  seq : t'.updatesSeq = t.updatesSeq

/-- The update without what a correction may change. -/
def face (u : Update) : Update :=
  { u with comment := none, needsHelp := false, needsHelpCategory := none
           needsHelpExpiresAt := none, updatedAt := none }

/-- The cat without its name and its cover. -/
def catFace (c : Cat) : Cat :=
  { c with name := none, primaryPhotoId := none }

structure SameFaces (t t' : Tables) : Prop where
  updates : t'.updates.map face = t.updates.map face
  cats : t'.cats.map catFace = t.cats.map catFace
  catMedia : t'.catMedia = t.catMedia
  seq : t'.updatesSeq = t.updatesSeq

/-- The deletion a request asks for. -/
def ownDeletion (env : Env) (catId updateId userId : UUID) : DeleteOwnUpdateParams :=
  { deletedAt := env.clock, id := updateId, catId, authorUserId := userId
    windowStart := env.clock - updateCorrectionWindow }

/-- The request takes the update off the timeline. -/
def removes (r : Request) (db : Database) (u : Update) : Bool :=
  match r.op with
  | .deleteOwnUpdate (some catId) (some updateId) userId =>
    Corrections.admits (ownDeletion r.env catId updateId userId) db u
  | .deleteAccount userId =>
    (db.tables.users.any fun v => v.id == userId) && accountUpdate userId db.tables.cats u
  | _ => false

/-- A new cat, and the photo it was created with. -/
structure CatCreated (cat : Cat) (photo : CatMedium) (t t' : Tables) : Prop where
  updates : t'.updates = t.updates
  cats : t'.cats = t.cats ++ [cat]
  catMedia : t'.catMedia = t.catMedia ++ [photo]
  seq : t'.updatesSeq = t.updatesSeq
  never : cat.lastUpdateAt = none
  ofCat : photo.catId = cat.id
  unused : ∀ u ∈ t.updates, u.mediaId ≠ some photo.mediaId

structure Claimed (deviceId userId : UUID) (t t' : Tables) : Prop where
  updates : t'.updates =
    updateWhere (fun u => u.authorDeviceId == some deviceId && u.authorUserId.isNone)
      (fun u => { u with authorUserId := some userId }) t.updates
  cats : t'.cats = t.cats
  catMedia : t'.catMedia = t.catMedia
  seq : t'.updatesSeq = t.updatesSeq

structure CatDeleted (p : Cat → Bool) (t t' : Tables) : Prop where
  updates : t'.updates = t.updates
  cats : t'.cats = updateWhere p (fun c => { c with status := .deleted }) t.cats
  catMedia : t'.catMedia = t.catMedia
  seq : t'.updatesSeq = t.updatesSeq

structure UpdateDeleted (p : Update → Bool) (now : Instant) (t t' : Tables) : Prop where
  updates : t'.updates = updateWhere p (fun u => { u with deletedAt := some now }) t.updates
  cats : t'.cats = t.cats
  catMedia : t'.catMedia = t.catMedia
  seq : t'.updatesSeq = t.updatesSeq

structure AccountDeleted (a : UUID) (t t' : Tables) : Prop where
  updates : t'.updates = deleteWhere (accountUpdate a t.cats) t.updates
  cats : t'.cats.map catFace = (deleteWhere (ownCat a) t.cats).map catFace
  catMedia : t'.catMedia =
    deleteWhere (fun cm => onOwnCat a t.cats cm.catId || ofOwnMedia a t.media cm.mediaId) t.catMedia
  seq : t'.updatesSeq = t.updatesSeq

inductive Effect (r : Request) (w w' : World) : Prop
  | kept (hr : ∀ u, removes r w.db u = false) (h : SameFaces w.db.tables w'.db.tables)
  | catCreated (hr : ∀ u, removes r w.db u = false) (cat : Cat) (photo : CatMedium)
      (h : CatCreated cat photo w.db.tables w'.db.tables)
  | updateCreated (hr : ∀ u, removes r w.db u = false) (userId : UUID)
      (arg : Store.CreateOrdinaryUpdateParams) (h : Written r.env userId arg w w')
  | claimed (hr : ∀ u, removes r w.db u = false) (deviceId userId : UUID)
      (h : Claimed deviceId userId w.db.tables w'.db.tables)
  | catDeleted (hr : ∀ u, removes r w.db u = false) (p : Cat → Bool)
      (h : CatDeleted p w.db.tables w'.db.tables)
  | updateDeleted (catId updateId userId : UUID)
      (hop : r.op = .deleteOwnUpdate (some catId) (some updateId) userId)
      (h : UpdateDeleted (removes r w.db) r.env.clock w.db.tables w'.db.tables)
  | accountDeleted (a : UUID) (hop : r.op = .deleteAccount a)
      (hr : removes r w.db = accountUpdate a w.db.tables.cats)
      (h : AccountDeleted a w.db.tables w'.db.tables)

/-- No update gains or loses a status. -/
def SameStatuses (t t' : Tables) : Prop :=
  t'.updateStatuses = t.updateStatuses

/-- Statements that send word of the archive, or keep a medium nothing shows yet, stay in the
relation. -/
structure Outward (R : Tables → Tables → Prop) : Prop where
  refl : ∀ t, R t t
  trans : ∀ {t t' t''}, R t t' → R t' t'' → R t t''
  media : ∀ t rows, R t { t with media := rows }
  devices : ∀ t rows, R t { t with devices := rows }
  notifications : ∀ t rows, R t { t with notifications := rows }
  outbox : ∀ t rows, R t { t with notificationOutbox := rows }

/-- Identifiers of updates never repeat. -/
def freshNext (cfg : Config) (w : World) (r : Request) : Option World :=
  if FreshId (r.env.uuid 0) w.db.tables then next cfg w r else none

theorem freshNext_eq_some {w' : World} {r : Request} : freshNext cfg w r = some w' ↔
    FreshId (r.env.uuid 0) w.db.tables ∧ FreshKey r.env.objectKey w ∧ serve cfg r w = w' := by
  unfold freshNext
  split
  · simp_all [next_eq_some]
  · simp_all

section Untouched

variable {db db' : Database} {t t' t'' : Tables}

theorem Untouched.refl (t : Tables) : Untouched t t :=
  ⟨rfl, rfl, rfl, rfl⟩

theorem Untouched.trans (h : Untouched t t') (h' : Untouched t' t'') : Untouched t t'' :=
  ⟨h'.updates.trans h.updates, h'.cats.trans h.cats, h'.catMedia.trans h.catMedia,
    h'.seq.trans h.seq⟩

theorem Untouched.faces (h : Untouched t t') : SameFaces t t' :=
  ⟨by rw [h.updates], by rw [h.cats], h.catMedia, h.seq⟩

theorem SameFaces.refl (t : Tables) : SameFaces t t :=
  (Untouched.refl t).faces

theorem untouched_aside : AsideOperations.Aside Untouched where
  refl := .refl
  trans := .trans
  users := fun _ _ => ⟨rfl, rfl, rfl, rfl⟩
  otpCodes := fun _ _ => ⟨rfl, rfl, rfl, rfl⟩
  refreshTokens := fun _ _ => ⟨rfl, rfl, rfl, rfl⟩
  follows := fun _ _ => ⟨rfl, rfl, rfl, rfl⟩
  reports := fun _ _ => ⟨rfl, rfl, rfl, rfl⟩
  userBlocks := fun _ _ => ⟨rfl, rfl, rfl, rfl⟩
  newDevice := fun _ _ _ => ⟨rfl, rfl, rfl, rfl⟩
  devices := fun _ _ _ _ => ⟨rfl, rfl, rfl, rfl⟩
  notifications := fun _ _ _ _ => ⟨rfl, rfl, rfl, rfl⟩

theorem untouched_outward : Outward Untouched where
  refl := .refl
  trans := .trans
  media := fun _ _ => ⟨rfl, rfl, rfl, rfl⟩
  devices := fun _ _ => ⟨rfl, rfl, rfl, rfl⟩
  notifications := fun _ _ => ⟨rfl, rfl, rfl, rfl⟩
  outbox := fun _ _ => ⟨rfl, rfl, rfl, rfl⟩

theorem statuses_aside : AsideOperations.Aside SameStatuses where
  refl := fun _ => rfl
  trans := fun h h' => h'.trans h
  users := fun _ _ => rfl
  otpCodes := fun _ _ => rfl
  refreshTokens := fun _ _ => rfl
  follows := fun _ _ => rfl
  reports := fun _ _ => rfl
  userBlocks := fun _ _ => rfl
  newDevice := fun _ _ _ => rfl
  devices := fun _ _ _ _ => rfl
  notifications := fun _ _ _ _ => rfl

theorem statuses_outward : Outward SameStatuses where
  refl := fun _ => rfl
  trans := fun h h' => h'.trans h
  media := fun _ _ => rfl
  devices := fun _ _ => rfl
  notifications := fun _ _ => rfl
  outbox := fun _ _ => rfl

/-- A statement on the updates or the cats that leaves their faces alone. -/
theorem faces_updates {p : Update → Bool} {f : Update → Update} (hf : ∀ u, face (f u) = face u) :
    SameFaces t { t with updates := updateWhere p f t.updates } :=
  ⟨map_updateWhere hf _, rfl, rfl, rfl⟩

theorem faces_cats {p : Cat → Bool} {f : Cat → Cat} (hf : ∀ c, catFace (f c) = catFace c) :
    SameFaces t { t with cats := updateWhere p f t.cats } :=
  ⟨rfl, map_updateWhere hf _, rfl, rfl⟩

end Untouched

section Writes

variable {db db' : Database}

theorem setCoverPhoto_faces {id caller : UUID} {mediaId : Option UUID} :
    SameFaces w.db.tables (setCoverPhoto env id caller mediaId w).2.db.tables ∧
      SameStatuses w.db.tables (setCoverPhoto env id caller mediaId w).2.db.tables := by
  unfold setCoverPhoto
  split
  · exact ⟨.refl _, rfl⟩
  · exact ⟨.refl _, rfl⟩
  · split
    · exact ⟨.refl _, rfl⟩
    · exact ⟨.refl _, rfl⟩
    · split
      · exact ⟨.refl _, rfl⟩
      · rename_i h
        simp only [write_eq_ok.mp h]
        exact ⟨faces_cats fun _ => rfl, rfl⟩

theorem renameCat_faces {id caller : UUID} {name : String} :
    SameFaces w.db.tables (renameCat env id caller name w).2.db.tables ∧
      SameStatuses w.db.tables (renameCat env id caller name w).2.db.tables := by
  unfold renameCat
  split
  · exact ⟨.refl _, rfl⟩
  · split
    · exact ⟨.refl _, rfl⟩
    · rename_i h
      simp only [write_eq_ok.mp h]
      exact ⟨faces_cats fun _ => rfl, rfl⟩

theorem replaceStatuses_untouched {id : UUID} {statuses : List Status}
    (h : Store.replaceStatuses id statuses db = .ok db') : Untouched db.tables db'.tables := by
  obtain ⟨db₁, hwrite, h⟩ := bind_eq_ok.mp h
  obtain ⟨rows, ht⟩ := statuses_tables h
  rw [ht, write_eq_ok.mp hwrite]
  exact ⟨rfl, rfl, rfl, rfl⟩

theorem correctOwnUpdate_faces {catId updateId : Option UUID} {userId : UUID}
    {correction : UpdateCorrection} :
    SameFaces w.db.tables
      (CatServices.correctOwnUpdate env catId updateId userId correction w).2.db.tables := by
  unfold CatServices.correctOwnUpdate
  split
  · exact .refl _
  · split
    · rename_i row statuses db' h
      obtain ⟨⟨row', db₁⟩, hcorrect, h⟩ := bind_eq_ok.mp h
      obtain ⟨old, -, hcorrect⟩ := bind_eq_ok.mp hcorrect
      obtain ⟨db₂, hwrite, hcorrect⟩ := bind_eq_ok.mp hcorrect
      cases hcorrect
      have hfaces : SameFaces w.db.tables db₁.tables := by
        rw [write_eq_ok.mp hwrite]
        exact faces_updates fun _ => rfl
      dsimp only at h
      split at h
      · obtain ⟨db₃, hreplace, h⟩ := bind_eq_ok.mp h
        cases h
        have hsame := replaceStatuses_untouched hreplace
        exact ⟨hsame.updates ▸ hfaces.updates, hsame.cats ▸ hfaces.cats,
          hsame.catMedia.trans hfaces.catMedia, hsame.seq.trans hfaces.seq⟩
      · cases h
        exact hfaces
    · split <;> exact .refl _
    · exact .refl _

theorem createOrdinaryUpdate_written {req : OrdinaryUpdateRequest} :
    (CatServices.createOrdinaryUpdate env req w).2.db = w.db ∨
      ∃ catId statuses media, Written env req.userId (ordinaryParams env req catId statuses media) w
        (CatServices.createOrdinaryUpdate env req w).2 := by
  unfold CatServices.createOrdinaryUpdate
  split
  · exact .inl rfl
  · split
    · exact .inl rfl
    · split
      · exact .inl rfl
      · rename_i hprepare
        obtain ⟨statuses, hnodup, hvisible, -, rfl⟩ := prepareOrdinaryUpdate_eq_ok hprepare
        split
        · exact .inl rfl
        · rename_i hwrite
          obtain rfl := store_id hwrite
          exact .inr ⟨_, _, _, hwrite, rfl, rfl, hvisible, rfl, rfl,
            Corrections.orderStatuses_nodup hnodup⟩
    · exact .inl rfl

theorem createOrdinaryUpdate_db {req : OrdinaryUpdateRequest} :
    (CatServices.createOrdinaryUpdate env req w).2.db = w.db ∨
      ∃ arg, Written env req.userId arg w (CatServices.createOrdinaryUpdate env req w).2 :=
  createOrdinaryUpdate_written.imp_right fun ⟨_, _, _, h⟩ => ⟨_, h⟩

theorem createNeedsHelpUpdate_written {catId : Option UUID} {userId : UUID}
    {deviceId : Option UUID} {category : String} {comment : Option String} :
    (createNeedsHelpUpdate env catId userId deviceId category comment w).2.db = w.db ∨
      ∃ cat c, Written env userId (needsHelpParams env cat userId deviceId c comment) w
        (createNeedsHelpUpdate env catId userId deviceId category comment w).2 := by
  unfold createNeedsHelpUpdate
  split
  · exact .inl rfl
  · rename_i hprepare
    obtain ⟨cat, -, hvisible, rfl⟩ := prepareNeedsHelpUpdate_eq_ok hprepare
    split
    · exact .inl rfl
    · rename_i hwrite
      obtain rfl := store_id hwrite
      exact .inr ⟨_, _, hwrite, rfl, rfl, hvisible, rfl, rfl, List.nodup_nil⟩

theorem createNeedsHelpUpdate_db {catId : Option UUID} {userId : UUID} {deviceId : Option UUID}
    {category : String} {comment : Option String} :
    (createNeedsHelpUpdate env catId userId deviceId category comment w).2.db = w.db ∨
      ∃ arg, Written env userId arg w
        (createNeedsHelpUpdate env catId userId deviceId category comment w).2 :=
  createNeedsHelpUpdate_written.imp_right fun ⟨_, _, h⟩ => ⟨_, h⟩

theorem createCat_row {arg : CreateCatParams} {now : Instant} {c : Cat}
    (h : createCat arg now db = .ok (c, db')) :
    c.id = arg.id ∧ c.name = arg.name ∧ c.lastUpdateAt = none ∧ c.createdAt = now ∧
      db'.tables = { db.tables with cats := db.tables.cats ++ [c] } := by
  unfold createCat at h
  dsimp only at h
  split at h
  · cases h
  · obtain ⟨db₁, hwrite, h⟩ := bind_eq_ok.mp h
    cases h
    exact ⟨rfl, rfl, rfl, rfl, write_eq_ok.mp hwrite⟩

theorem createCatMedia_row {id catId mediaId : UUID} {at' : Instant} {cm : CatMedium}
    (h : createCatMedia id catId mediaId at' db = .ok (cm, db')) :
    cm = { id, catId, mediaId, createdAt := at' } ∧
      db'.tables = { db.tables with catMedia := db.tables.catMedia ++ [cm] } := by
  unfold createCatMedia at h
  dsimp only at h
  split at h
  · cases h
  · obtain ⟨db₁, hwrite, h⟩ := bind_eq_ok.mp h
    cases h
    exact ⟨rfl, write_eq_ok.mp hwrite⟩

/-- No update carries a medium that did not exist. -/
theorem unused_media {row r : Medium} (h : createMedia row db = .ok (r, db')) :
    ∀ u ∈ db.tables.updates, u.mediaId ≠ some r.id := by
  obtain ⟨rfl, ht⟩ := createMedia_tables h
  have hpkey := db'.valid.holds .mediaPkey
  rw [ht] at hpkey
  intro u hu hmedia
  obtain ⟨m, hm, hid⟩ := db.valid.holds .updatesMediaIdFkey u hu r.id hmedia
  have hne := (uniqueOn_append_singleton.mp hpkey).2 m hm
  simp [hid] at hne

/-- A cat is created with its photo, or not at all. -/
theorem create_effect {req : CreateRequest} :
    SameStatuses w.db.tables (create cfg env req w).2.db.tables ∧
      (Untouched w.db.tables (create cfg env req w).2.db.tables ∨
        ∃ cat photo, cat.createdAt = env.now ∧
          CatCreated cat photo w.db.tables (create cfg env req w).2.db.tables) := by
  unfold create
  split
  · exact ⟨rfl, .inl (.refl _)⟩
  · split
    · exact ⟨rfl, .inl (.refl _)⟩
    · exact ⟨rfl, .inl (.refl _)⟩
    · dsimp only
      split
      · simp only [recoverFromCreateCatFailure, deleteObject_db]
        exact ⟨rfl, .inl (.refl _)⟩
      · rename_i h
        obtain ⟨⟨m, db₁⟩, hmedia, h⟩ := bind_eq_ok.mp h
        obtain ⟨⟨c, db₂⟩, hcat, h⟩ := bind_eq_ok.mp h
        obtain ⟨⟨cm, db₃⟩, hphoto, h⟩ := bind_eq_ok.mp h
        cases h
        obtain ⟨rfl, ht₁⟩ := createMedia_tables hmedia
        obtain ⟨hid, -, hnever, hnow, ht₂⟩ := createCat_row hcat
        obtain ⟨rfl, ht₃⟩ := createCatMedia_row hphoto
        rw [ht₂, ht₁] at ht₃
        refine ⟨?_, .inr ⟨c, ⟨env.uuid 2, c.id, env.uuid 0, c.createdAt⟩, hnow, ?_, ?_, ?_, ?_,
          hnever, rfl, unused_media hmedia⟩⟩
        · rw [SameStatuses, ht₃]
        · rw [ht₃]
        · rw [ht₃]
        · rw [ht₃]
        · rw [ht₃]
  · exact ⟨rfl, .inl (.refl _)⟩

end Writes

section Outward

variable {R : Tables → Tables → Prop} {s : Dispatch} {row : NotificationQueries.ClaimedRow}

theorem upload_outward (hR : Outward R) {userId : UUID} {deviceId : Option UUID}
    {key : Option String} {muted : Bool} :
    R w.db.tables (upload env userId deviceId key muted w).2.db.tables := by
  unfold upload
  split
  · exact hR.refl _
  · split
    · exact hR.refl _
    · exact hR.refl _
    · dsimp only
      split
      · simp only [recoverFromCreateFailure, deleteObject_db]
        exact hR.refl _
      · rename_i h
        simp only [(createMedia_tables h).2]
        exact hR.media _ _
  · exact hR.refl _

theorem push_outward (hR : Outward R) (msg : PushMessage) :
    R s.db.tables (s.push env msg).2.db.tables := by
  unfold Dispatch.push
  dsimp only
  split
  · split
    · exact hR.refl _
    · rename_i h
      rw [write_eq_ok.mp h]
      exact hR.devices _ _
  · exact hR.refl _

theorem createNotification_outward (hR : Outward R) {id deviceId catId updateId : UUID}
    {now : Instant} {db db' : Database} {n : Notification}
    (h : NotificationQueries.createNotification id deviceId catId updateId now db = .ok (n, db')) :
    R db.tables db'.tables := by
  obtain ⟨-, -, ht⟩ := NotificationQueries.createNotification_spec h
  rw [ht]
  exact hR.notifications _ _

theorem deliver_outward (hR : Outward R) {rec : NotificationQueries.Recipient} :
    R s.db.tables (s.deliver env row rec).2.db.tables := by
  unfold Dispatch.deliver
  split
  · exact hR.refl _
  · exact hR.refl _
  · rename_i h
    have hd := createNotification_outward hR h
    dsimp only
    split
    · exact hd
    · split
      · exact hd
      · refine hR.trans hd ?_
        exact push_outward (s := { s with db := _, drawn := s.drawn + 1 }) hR _

theorem markProcessed_outward (hR : Outward R) :
    R s.db.tables (s.markProcessed env row).2.db.tables := by
  unfold Dispatch.markProcessed
  split
  · exact hR.refl _
  · rename_i h
    rw [write_eq_ok.mp h]
    exact hR.outbox _ _

theorem dispatchRow_outward (hR : Outward R) :
    R s.db.tables (dispatchRow env row s).2.db.tables := by
  have hsend : R s.db.tables (dispatchNeedsHelp env row s).2.db.tables := by
    refine forEach_induct (I := fun s' : Dispatch => R s.db.tables s'.db.tables) ?_ (hR.refl _)
    exact fun rec _ s' hs' => hR.trans hs' (deliver_outward hR)
  unfold dispatchRow
  split
  · split
    · rename_i h
      rw [h] at hsend
      exact hsend
    · rename_i h
      rw [h] at hsend
      exact hR.trans hsend (markProcessed_outward hR)
  · exact markProcessed_outward hR

theorem dispatchPending_outward (hR : Outward R) :
    R w.db.tables (dispatchPending cfg env w).2.db.tables := by
  have hbatch : R w.db.tables (forEach (dispatchRow env)
      (NotificationQueries.claimNotificationOutboxBatch cfg.batchSize w.db) { db := w.db }).2.db.tables := by
    refine forEach_induct (I := fun s : Dispatch => R w.db.tables s.db.tables) ?_ (hR.refl _)
    exact fun row _ s hs => hR.trans hs (dispatchRow_outward hR)
  unfold dispatchPending
  dsimp only
  split
  · rename_i h
    rw [h] at hbatch
    exact hbatch
  · exact hR.refl _

end Outward

section Deletions

theorem deleteCat_effect {id caller : UUID} :
    SameStatuses w.db.tables (deleteCat id caller w).2.db.tables ∧
      ∃ p, CatDeleted p w.db.tables (deleteCat id caller w).2.db.tables := by
  have none : CatDeleted (fun _ => false) w.db.tables w.db.tables :=
    ⟨rfl, (updateWhere_eq_self fun _ _ => rfl).symm, rfl, rfl⟩
  unfold deleteCat
  split
  · rename_i h
    obtain ⟨row, -, h⟩ := bind_eq_ok.mp h
    obtain ⟨db₁, hwrite, h⟩ := bind_eq_ok.mp h
    cases h
    have ht := write_eq_ok.mp hwrite
    exact ⟨(congrArg Tables.updateStatuses ht :),
      fun c => c.id == id && c.createdByUserId == some caller && c.status != .deleted,
      (congrArg Tables.updates ht :), (congrArg Tables.cats ht :), (congrArg Tables.catMedia ht :),
      (congrArg Tables.updatesSeq ht :)⟩
  · exact ⟨rfl, _, none⟩
  · exact ⟨rfl, _, none⟩

/-- The deleting statement rewrites the rows it admits, whether or not there is one. -/
theorem deleteOwnUpdate_effect {catId updateId userId : UUID} :
    SameStatuses w.db.tables
        (CatServices.deleteOwnUpdate env (some catId) (some updateId) userId w).2.db.tables ∧
      UpdateDeleted (Corrections.admits (ownDeletion env catId updateId userId) w.db) env.clock
        w.db.tables
        (CatServices.deleteOwnUpdate env (some catId) (some updateId) userId w).2.db.tables := by
  cases hdelete : UpdateQueries.deleteOwnUpdate (ownDeletion env catId updateId userId) w.db with
  | ok r =>
    obtain ⟨row, db'⟩ := r
    have hout : (CatServices.deleteOwnUpdate env (some catId) (some updateId) userId w).2.db =
        db' := by
      simp only [ownDeletion] at hdelete
      simp only [CatServices.deleteOwnUpdate, hdelete]
    obtain ⟨old, -, hdelete⟩ := bind_eq_ok.mp hdelete
    obtain ⟨db₁, hwrite, hdelete⟩ := bind_eq_ok.mp hdelete
    cases hdelete
    have ht := write_eq_ok.mp hwrite
    rw [hout]
    exact ⟨(congrArg Tables.updateStatuses ht :), (congrArg Tables.updates ht :), (congrArg Tables.cats ht :), (congrArg Tables.catMedia ht :),
      (congrArg Tables.updatesSeq ht :)⟩
  | error e =>
    have hout : (CatServices.deleteOwnUpdate env (some catId) (some updateId) userId w).2 = w := by
      simp only [ownDeletion] at hdelete
      simp only [CatServices.deleteOwnUpdate, hdelete]
      split
      · contradiction
      · rfl
      · rfl
    rw [hout]
    refine ⟨rfl, ?_, rfl, rfl, rfl⟩
    -- the statement itself cannot fail, so there was no row to rewrite
    rcases bind_eq_error.mp hdelete with hone | ⟨row, -, hwrite⟩
    · refine (updateWhere_eq_self fun u hu => ?_).symm
      cases hrows : w.db.tables.updates.filter
          (Corrections.admits (ownDeletion env catId updateId userId) w.db) with
      | nil => exact Bool.eq_false_iff.mpr (List.filter_eq_nil_iff.mp hrows u hu)
      | cons r rs =>
        have hok : one (w.db.tables.updates.filter
            (Corrections.admits (ownDeletion env catId updateId userId) w.db)) = .ok r := by
          rw [hrows]
          rfl
        cases hok.symm.trans hone
    · rcases bind_eq_error.mp hwrite with hwrite | ⟨_, -, hpure⟩
      · obtain ⟨c, -, hc⟩ := write_eq_error hwrite
        refine absurd (Valid.holds ?_ c) hc
        apply Corrections.rewritten_valid w.db.valid
        · intro u
          rfl
        · exact w.db.valid.holds .updatesNeedsHelpFieldsCk
      · cases hpure

/-- Clearing covers shows in no face, and moves no cat to another owner. -/
theorem cats_cleared {a : UUID} {t : Tables} :
    (deleteWhere (ownCat a) (clearCoversReferencingAccountMedia a t).cats).map catFace =
      (deleteWhere (ownCat a) t.cats).map catFace := by
  unfold clearCoversReferencingAccountMedia deleteWhere updateWhere
  induction t.cats with
  | nil => rfl
  | cons c cats ih =>
    have hface : catFace (if c.primaryPhotoId.any (ofOwnMedia a t.media) = true then
        { c with primaryPhotoId := none } else c) = catFace c := by
      split <;> rfl
    have hown : ownCat a (if c.primaryPhotoId.any (ofOwnMedia a t.media) = true then
        { c with primaryPhotoId := none } else c) = ownCat a c := by
      split <;> rfl
    simp only [List.map_cons, List.filter_cons, hown]
    cases ownCat a c
    · simpa [hface] using ih
    · simpa using ih

theorem catMedia_cleared {a : UUID} {t : Tables} :
    (deleteAccountCatMedia a (clearCoversReferencingAccountMedia a t)).catMedia =
      deleteWhere (fun cm => onOwnCat a t.cats cm.catId || ofOwnMedia a t.media cm.mediaId)
        t.catMedia := by
  unfold deleteAccountCatMedia
  simp only [DeletionSafety.onOwnCat_clearCovers]
  rfl

theorem deleteAccount_effect {a : UUID} (hl : Linked w.db.tables) :
    ((w.db.tables.users.any fun v => v.id == a) = false ∧
      Untouched w.db.tables (AccountServices.delete env a w).2.db.tables ∧
      SameStatuses w.db.tables (AccountServices.delete env a w).2.db.tables) ∨
    ((w.db.tables.users.any fun v => v.id == a) = true ∧
      AccountDeleted a w.db.tables (AccountServices.delete env a w).2.db.tables ∧
      (AccountServices.delete env a w).2.db.tables.updateStatuses =
        (deleteAccountUpdateStatuses a w.db.tables).updateStatuses) := by
  cases huser : w.db.tables.users.any fun v => v.id == a with
  | false =>
    have hget : getUserByID a w.db = .error .noRows := by
      apply one_eq_noRows.mpr
      apply List.filter_eq_nil_iff.mpr
      exact List.any_eq_false.mp huser
    refine .inl ⟨rfl, ?_⟩
    simp only [AccountServices.delete, hget]
    exact ⟨.refl _, rfl⟩
  | true =>
    have hget : ∃ user, getUserByID a w.db = .ok user := by
      unfold getUserByID
      cases hrows : w.db.tables.users.filter fun u => u.id == a with
      | nil =>
        have hnone := List.filter_eq_nil_iff.mp hrows
        obtain ⟨user, hmem, hid⟩ := List.any_eq_true.mp huser
        exact absurd hid (hnone user hmem)
      | cons user users => exact ⟨user, rfl⟩
    obtain ⟨user, hget⟩ := hget
    obtain ⟨db', hdelete, ht⟩ :=
      DeletionSafety.deleteAccount_succeeds env.now a user.phone hl
    refine .inr ⟨rfl, ?_⟩
    simp only [AccountServices.delete, hget, hdelete, deleteObjects_db, ht]
    exact ⟨⟨rfl, cats_cleared, catMedia_cleared, rfl⟩, rfl⟩

/-- A verified number's session claims what the device contributed. -/
theorem sessionForVerifiedPhone_claims {phone : String} {deviceId : UUID} {now : Instant}
    {db db' : Database} {session : Session}
    (h : sessionForVerifiedPhone cfg env phone deviceId now db = .ok (session, db')) :
    SameStatuses db.tables db'.tables ∧ Claimed deviceId session.userId db.tables db'.tables := by
  obtain ⟨⟨⟨user, isNew⟩, db₁⟩, hresolve, h⟩ := bind_eq_ok.mp h
  obtain ⟨db₂, hlink, h⟩ := bind_eq_ok.mp h
  obtain ⟨⟨s, db₃⟩, hissue, h⟩ := bind_eq_ok.mp h
  cases h
  have hresolved : Untouched db.tables db₁.tables ∧ SameStatuses db.tables db₁.tables := by
    unfold resolveOrCreateUser at hresolve
    split at hresolve
    · cases hresolve
      exact ⟨.refl _, rfl⟩
    · split at hresolve
      · rename_i hcreate
        cases hresolve
        obtain ⟨db₄, hwrite, hcreate⟩ := bind_eq_ok.mp hcreate
        cases hcreate
        rw [write_eq_ok.mp hwrite]
        exact ⟨⟨rfl, rfl, rfl, rfl⟩, rfl⟩
      · cases hresolve
    · cases hresolve
  have hissued := AsideOperations.issue_aside untouched_aside hissue
  have hclaim : Claimed deviceId user.id db₁.tables db₂.tables ∧
      SameStatuses db₁.tables db₂.tables := by
    obtain ⟨device, -, -, ⟨-, ht⟩ | ⟨-, ht⟩⟩ := linkDevice_cases hlink
    · rw [ht]
      exact ⟨⟨rfl, rfl, rfl, rfl⟩, rfl⟩
    · rw [ht]
      exact ⟨⟨rfl, rfl, rfl, rfl⟩, rfl⟩
  have huser : s.userId = user.id := by
    obtain ⟨db₄, -, hissue⟩ := bind_eq_ok.mp hissue
    cases hissue
    rfl
  refine ⟨(AsideOperations.issue_aside statuses_aside hissue).trans
    (hclaim.2.trans hresolved.2), ?_, ?_, ?_, ?_⟩
  · rw [hissued.updates, hclaim.1.updates, hresolved.1.updates, huser]
  · rw [hissued.cats, hclaim.1.cats, hresolved.1.cats]
  · rw [hissued.catMedia, hclaim.1.catMedia, hresolved.1.catMedia]
  · rw [hissued.seq, hclaim.1.seq, hresolved.1.seq]

theorem asAlreadyConsumed_eq_ok {α : Type} {x : Except Error α} {a : α}
    (h : asAlreadyConsumed x = .ok a) : x = .ok a := by
  unfold asAlreadyConsumed at h
  split at h
  · cases h
  · exact h

/-- A verification claims the device's contributions for the account it signs in, or leaves the
archive alone. -/
theorem verifyOTP_effect {phone code : String} {deviceId : UUID} :
    SameStatuses w.db.tables (verifyOTP cfg env phone code deviceId w).2.db.tables ∧
      (Untouched w.db.tables (verifyOTP cfg env phone code deviceId w).2.db.tables ∨
        ∃ session, (verifyOTP cfg env phone code deviceId w).1 = .ok session ∧
          Claimed deviceId session.userId w.db.tables
            (verifyOTP cfg env phone code deviceId w).2.db.tables) := by
  unfold verifyOTP
  split
  · exact ⟨rfl, .inl (.refl _)⟩
  · split
    · exact ⟨rfl, .inl (.refl _)⟩
    · cases hsession : sessionForVerifiedPhone _ _ _ _ _ _ with
      | error e => exact ⟨rfl, .inl (.refl _)⟩
      | ok opened =>
        obtain ⟨hsame, hclaim⟩ := sessionForVerifiedPhone_claims hsession
        exact ⟨hsame, .inr ⟨opened.1, rfl, hclaim⟩⟩
  · split
    · exact ⟨rfl, .inl (.refl _)⟩
    · split
      · cases hopened : asAlreadyConsumed (consumeAndOpen _ _ _ _ _ _ _) with
        | error e => exact ⟨rfl, .inl (.refl _)⟩
        | ok opened =>
          obtain ⟨⟨_, db₁⟩, hconsume, hsession⟩ := bind_eq_ok.mp (asAlreadyConsumed_eq_ok hopened)
          obtain ⟨codes, ht⟩ := consumeOtpCodeIfValid_effect hconsume
          obtain ⟨hsame, hclaim⟩ := sessionForVerifiedPhone_claims hsession
          rw [ht] at hsame hclaim
          exact ⟨hsame, .inr ⟨opened.1, rfl, hclaim.updates, hclaim.cats, hclaim.catMedia,
            hclaim.seq⟩⟩
      · split
        · exact ⟨rfl, .inl (.refl _)⟩
        · rename_i hinc
          rw [write_eq_ok.mp hinc]
          exact ⟨rfl, .inl ⟨rfl, rfl, rfl, rfl⟩⟩

end Deletions

/-- Every request does one thing to the archive. -/
theorem serve_effect {r : Request} (hl : Linked w.db.tables) : Effect r w (serve cfg r w) := by
  obtain ⟨env, op⟩ := r
  by_cases haside : AsideOperations.isAside op = true
  · refine .kept (fun u => ?_) (AsideOperations.serve_aside untouched_aside haside).faces
    cases op <;> trivial
  · have created : ∀ {op : Op} {userId : UUID} {w' : World},
        (∀ u, removes ⟨env, op⟩ w.db u = false) →
        (w'.db = w.db ∨ ∃ arg, Written env userId arg w w') →
          Effect ⟨env, op⟩ w w' := by
      intro op userId w' hr h
      rcases h with hsame | ⟨arg, hwritten⟩
      · refine .kept hr ?_
        rw [hsame]
        exact .refl _
      · exact .updateCreated hr userId arg hwritten
    cases op <;> try exact absurd rfl haside
    case verifyOTP phone code deviceId =>
      rcases (@verifyOTP_effect cfg env w phone code deviceId).2 with h | ⟨session, -, h⟩
      · exact .kept (fun _ => rfl) h.faces
      · exact .claimed (fun _ => rfl) deviceId session.userId h
    case createCat req =>
      rcases (@create_effect cfg env w req).2 with h | ⟨cat, photo, -, h⟩
      · exact .kept (fun _ => rfl) h.faces
      · exact .catCreated (fun _ => rfl) cat photo h
    case upload => exact .kept (fun _ => rfl) (upload_outward untouched_outward).faces
    case createOrdinaryUpdate => exact created (fun _ => rfl) createOrdinaryUpdate_db
    case createNeedsHelpUpdate => exact created (fun _ => rfl) createNeedsHelpUpdate_db
    case correctOwnUpdate => exact .kept (fun _ => rfl) correctOwnUpdate_faces
    case deleteOwnUpdate catId updateId userId =>
      cases catId with
      | none => exact .kept (fun _ => rfl) (.refl _)
      | some catId =>
        cases updateId with
        | none => exact .kept (fun _ => rfl) (.refl _)
        | some updateId => exact .updateDeleted catId updateId userId rfl deleteOwnUpdate_effect.2
    case setCoverPhoto => exact .kept (fun _ => rfl) setCoverPhoto_faces.1
    case renameCat => exact .kept (fun _ => rfl) renameCat_faces.1
    case deleteCat id caller =>
      obtain ⟨p, h⟩ := (@deleteCat_effect w id caller).2
      exact .catDeleted (fun _ => rfl) p h
    case dispatchPending => exact .kept (fun _ => rfl) (dispatchPending_outward untouched_outward).faces
    case deleteAccount a =>
      rcases @deleteAccount_effect env w a hl with ⟨hnone, h, -⟩ | ⟨huser, h, -⟩
      · refine .kept (fun u => ?_) h.faces
        simp [removes, hnone]
      · refine .accountDeleted a rfl ?_ h
        funext u
        simp [removes, huser]

section Rows

variable {r : Request} {db db' : Database}

/-- What every row keeps: its number, and as long as it has no author, also its key. -/
structure Kept (v v' : Update) : Prop where
  seq : v'.seq = v.seq
  unauthored : v'.authorUserId = none →
    v.authorUserId = none ∧ v.idempotencyKey = v'.idempotencyKey

/-- Only the first statement of the transaction writes updates. -/
theorem store_updates {cmId outId id : UUID} {now : Instant}
    {arg : Store.CreateOrdinaryUpdateParams}
    (h : Store.createOrdinaryUpdate cmId outId now arg db = .ok (id, db')) :
    ∃ db₁, createUpdate arg.row db = .ok (id, db₁) ∧ db'.tables.updates = db₁.tables.updates ∧
      db'.tables.updatesSeq = db₁.tables.updatesSeq := by
  obtain ⟨⟨id', db₁⟩, hcreate, h⟩ := bind_eq_ok.mp h
  obtain ⟨db₂, hstatuses, h⟩ := bind_eq_ok.mp h
  obtain ⟨db₃, hlast, h⟩ := bind_eq_ok.mp h
  obtain ⟨db₄, hgallery, h⟩ := bind_eq_ok.mp h
  obtain ⟨db₅, houtbox, h⟩ := bind_eq_ok.mp h
  cases h
  obtain ⟨statuses, ht₂⟩ := statuses_tables hstatuses
  have ht₃ := write_eq_ok.mp hlast
  obtain ⟨links, ht₄⟩ := linkGallery_tables hgallery
  have ht₅ := write_eq_ok.mp houtbox
  refine ⟨db₁, hcreate, ?_⟩
  rw [ht₅, ht₄, ht₃, ht₂]
  exact ⟨rfl, rfl⟩

theorem store_rows {cmId outId id : UUID} {now : Instant} {arg : Store.CreateOrdinaryUpdateParams}
    (h : Store.createOrdinaryUpdate cmId outId now arg db = .ok (id, db')) :
    db'.tables.updatesSeq = db.tables.updatesSeq + 1 ∧
    ∀ v' ∈ db'.tables.updates, (∃ v ∈ db.tables.updates, Kept v v') ∨
      v'.seq = db.tables.updatesSeq ∧ v'.authorUserId ≠ none := by
  obtain ⟨db₁, hcreate, hupdates, hseq⟩ := store_updates h
  rw [hupdates, hseq]
  obtain ⟨-, ⟨-, ht₁⟩ | ⟨-, ht₁⟩⟩ := createUpdate_cases hcreate
  · rw [ht₁]
    refine ⟨rfl, fun v' hv' => .inl ?_⟩
    obtain ⟨v, hv, rfl⟩ := mem_updateWhere.mp hv'
    refine ⟨v, hv, ?_⟩
    split
    · exact ⟨rfl, fun hnone => by cases hnone⟩
    · exact ⟨rfl, fun hnone => ⟨hnone, rfl⟩⟩
  · rw [ht₁]
    refine ⟨rfl, fun v' hv' => ?_⟩
    rcases List.mem_append.mp hv' with hv' | hv'
    · exact .inl ⟨v', hv', rfl, fun hnone => ⟨hnone, rfl⟩⟩
    · rw [List.mem_singleton.mp hv']
      refine .inr ⟨rfl, fun hnone => ?_⟩
      cases hnone

theorem kept_updateWhere {p : Update → Bool} {f : Update → Update} {us : List Update} {v' : Update}
    (h : v' ∈ updateWhere p f us) (hf : ∀ v, Kept v (f v)) : ∃ v ∈ us, Kept v v' := by
  obtain ⟨v, hv, rfl⟩ := mem_updateWhere.mp h
  refine ⟨v, hv, ?_⟩
  split
  · exact hf v
  · exact ⟨rfl, fun hnone => ⟨hnone, rfl⟩⟩

/-- Numbers are drawn in order, and a row is new with its number and its author or was there. -/
theorem serve_rows (hl : Linked w.db.tables) :
    w.db.tables.updatesSeq ≤ (serve cfg r w).db.tables.updatesSeq ∧
    ∀ v' ∈ (serve cfg r w).db.tables.updates, (∃ v ∈ w.db.tables.updates, Kept v v') ∨
      v'.seq = w.db.tables.updatesSeq ∧ v'.authorUserId ≠ none ∧
        w.db.tables.updatesSeq < (serve cfg r w).db.tables.updatesSeq := by
  have same : ∀ v' ∈ w.db.tables.updates, ∃ v ∈ w.db.tables.updates, Kept v v' :=
    fun v' hv' => ⟨v', hv', rfl, fun hnone => ⟨hnone, rfl⟩⟩
  cases @serve_effect cfg w r hl with
  | kept hr h =>
    refine ⟨h.seq.ge, fun v' hv' => .inl ?_⟩
    have hmem : face v' ∈ w.db.tables.updates.map face :=
      h.updates ▸ List.mem_map.mpr ⟨v', hv', rfl⟩
    obtain ⟨v, hv, heq⟩ := List.mem_map.mp hmem
    have hseq : (face v').seq = (face v).seq := by rw [heq]
    have hauthor : (face v).authorUserId = (face v').authorUserId := by rw [heq]
    have hkey : (face v).idempotencyKey = (face v').idempotencyKey := by rw [heq]
    exact ⟨v, hv, hseq, fun hnone => ⟨hauthor.trans hnone, hkey⟩⟩
  | catCreated hr cat photo h =>
    exact ⟨h.seq.ge, fun v' hv' => .inl (same v' (h.updates ▸ hv'))⟩
  | updateCreated hr userId arg h =>
    obtain ⟨hseq, hrows⟩ := store_rows h.commits
    have hlt : w.db.tables.updatesSeq < (serve cfg r w).db.tables.updatesSeq := by
      rw [hseq]
      exact Nat.lt_succ_self _
    refine ⟨hlt.le, fun v' hv' => ?_⟩
    rcases hrows v' hv' with hold | ⟨hnew, hauthor⟩
    · exact .inl hold
    · exact .inr ⟨hnew, hauthor, hlt⟩
  | claimed hr deviceId userId h =>
    refine ⟨h.seq.ge, fun v' hv' => .inl ?_⟩
    rw [h.updates] at hv'
    exact kept_updateWhere hv' fun v => ⟨rfl, fun hnone => by cases hnone⟩
  | catDeleted hr p h => exact ⟨h.seq.ge, fun v' hv' => .inl (same v' (h.updates ▸ hv'))⟩
  | updateDeleted catId updateId userId hop h =>
    refine ⟨h.seq.ge, fun v' hv' => .inl ?_⟩
    rw [h.updates] at hv'
    exact kept_updateWhere hv' fun v => ⟨rfl, fun hnone => ⟨hnone, rfl⟩⟩
  | accountDeleted a hop hr h =>
    refine ⟨h.seq.ge, fun v' hv' => .inl ?_⟩
    rw [h.updates] at hv'
    exact same v' (mem_deleteWhere.mp hv').1

end Rows

end Tekir.ArchiveEffects
