import Tekir.Corrections

/-!
# What the creation of an update leaves

The transaction of an update under a fresh identifier, table by table, and what a
successful call of the service was: an earlier update under the same key, or this one.
-/
namespace Tekir.UpdateCreation
open Table Schema Statements AccountQueries CatQueries UpdateQueries Environment CatServices
open Store (CreateOrdinaryUpdateParams)

variable {db db' : Database} {arg : CreateOrdinaryUpdateParams} {cmId outId : UUID} {now : Instant}

/-- The gallery after an update: an attached medium joins it unless it is there already. -/
def joined (cmId : UUID) (arg : CreateOrdinaryUpdateParams) (rows : List CatMedium) :
    List CatMedium :=
  match arg.mediaId with
  | none => rows
  | some mediaId =>
    if rows.any fun m => m.catId == arg.catId && m.mediaId == mediaId then rows
    else rows ++ [{ id := cmId, catId := arg.catId, mediaId, createdAt := arg.createdAt }]

/-- The cats after an update. -/
def touched (arg : CreateOrdinaryUpdateParams) (cats : List Cat) : List Cat :=
  updateWhere (fun c => c.id == arg.catId)
    (fun c => { c with lastUpdateAt := greatest c.lastUpdateAt arg.createdAt }) cats

/-- No update has the identifier yet. -/
def FreshId (id : UUID) (t : Tables) : Prop :=
  ∀ u ∈ t.updates, u.id ≠ id

instance (id : UUID) (t : Tables) : Decidable (FreshId id t) :=
  inferInstanceAs (Decidable (∀ u ∈ t.updates, u.id ≠ id))

/-- The update itself, its statuses, the cat's freshness and the gallery; the accounts, the
media and the blocks stay. -/
structure Created (cmId : UUID) (arg : CreateOrdinaryUpdateParams) (t t' : Tables) : Prop where
  updates : t'.updates = t.updates ++ [arg.row.insert t.updatesSeq]
  statuses : t'.updateStatuses =
    t.updateStatuses ++ arg.statuses.map fun status => { updateId := arg.id, status }
  cats : t'.cats = touched arg t.cats
  gallery : t'.catMedia = joined cmId arg t.catMedia
  users : t'.users = t.users
  media : t'.media = t.media
  blocks : t'.userBlocks = t.userBlocks

section Inserted

variable (arg) (seq : ℕ)

@[simp] theorem insert_id : (arg.row.insert seq).id = arg.id := rfl

@[simp] theorem insert_catId : (arg.row.insert seq).catId = arg.catId := rfl

@[simp] theorem insert_createdAt : (arg.row.insert seq).createdAt = arg.createdAt := rfl

@[simp] theorem insert_deletedAt : (arg.row.insert seq).deletedAt = none := rfl

@[simp] theorem insert_mediaId : (arg.row.insert seq).mediaId = arg.mediaId := rfl

@[simp] theorem insert_author :
    (arg.row.insert seq).authorUserId = some arg.authorUserId := rfl

@[simp] theorem insert_needsHelp : (arg.row.insert seq).needsHelp = arg.needsHelp := rfl

end Inserted

theorem linkGallery_gallery (h : Store.linkGallery cmId arg db = .ok db') :
    db'.tables = { db.tables with catMedia := joined cmId arg db.tables.catMedia } := by
  unfold Store.linkGallery at h
  unfold joined
  cases hmedia : arg.mediaId with
  | none =>
    rw [hmedia] at h
    cases h
    rfl
  | some mediaId =>
    rw [hmedia] at h
    change Store.unlessNoRows db (createCatMedia cmId arg.catId mediaId arg.createdAt db) = _ at h
    cases hany : db.tables.catMedia.any fun m => m.catId == arg.catId && m.mediaId == mediaId with
    | true =>
      simp only [Store.unlessNoRows, createCatMedia, hany, if_true] at h
      cases h
      simp [hany]
    | false =>
      cases hcreate : createCatMedia cmId arg.catId mediaId arg.createdAt db with
      | ok created =>
        rw [hcreate] at h
        cases h
        simp only [createCatMedia, hany, Bool.false_eq_true, if_false] at hcreate
        obtain ⟨db₁, hwrite, hcreate⟩ := bind_eq_ok.mp hcreate
        cases hcreate
        rw [write_eq_ok.mp hwrite]
        simp [hany]
      | error e =>
        rw [hcreate] at h
        simp only [createCatMedia, hany, Bool.false_eq_true, if_false] at hcreate
        rcases bind_eq_error.mp hcreate with hwrite | ⟨_, -, hpure⟩
        · obtain ⟨c, hc, -⟩ := write_eq_error hwrite
          cases hc
          cases h
        · cases hpure

/-- Nothing carries the identifier of an update that is not there. -/
theorem no_statuses (hfresh : FreshId arg.id db.tables) :
    ∀ s ∈ db.tables.updateStatuses, s.updateId ≠ arg.id := by
  intro s hs hid
  obtain ⟨u, hu, huid⟩ := db.valid.holds .updateStatusesUpdateIdFkey s hs s.updateId rfl
  exact hfresh u hu (huid.trans hid)

theorem createUpdate_fresh {id : UUID} (hfresh : FreshId arg.id db.tables)
    (h : createUpdate arg.row db = .ok (id, db')) :
    id = arg.id ∧ db'.tables = { db.tables with
      updates := db.tables.updates ++ [arg.row.insert db.tables.updatesSeq]
      updatesSeq := db.tables.updatesSeq + 1 } := by
  obtain ⟨hid, ⟨⟨u, hu, huid⟩, -⟩ | ⟨-, ht⟩⟩ := ServiceEffects.createUpdate_cases h
  · exact absurd huid (hfresh u hu)
  · exact ⟨hid, ht⟩

/-- The transaction under a fresh identifier, with statuses that are all different. -/
theorem createOrdinaryUpdate_created {id : UUID} (hfresh : FreshId arg.id db.tables)
    (hnodup : arg.statuses.Nodup)
    (h : Store.createOrdinaryUpdate cmId outId now arg db = .ok (id, db')) :
    id = arg.id ∧ Created cmId arg db.tables db'.tables := by
  obtain ⟨⟨id', db₁⟩, hcreate, h⟩ := bind_eq_ok.mp h
  obtain ⟨db₂, hstatuses, h⟩ := bind_eq_ok.mp h
  obtain ⟨db₃, hlast, h⟩ := bind_eq_ok.mp h
  obtain ⟨db₄, hgallery, h⟩ := bind_eq_ok.mp h
  obtain ⟨db₅, houtbox, h⟩ := bind_eq_ok.mp h
  cases h
  obtain ⟨rfl, ht₁⟩ := createUpdate_fresh hfresh hcreate
  have hnew : ∀ s ∈ db₁.tables.updateStatuses, s.updateId = arg.id → s.status ∉ arg.statuses := by
    intro s hs hid
    rw [ht₁] at hs
    exact absurd hid (no_statuses hfresh s hs)
  have hrow : ∃ u ∈ db₁.tables.updates, u.id = arg.id := by
    rw [ht₁]
    exact ⟨_, List.mem_append_right _ (List.mem_singleton.mpr rfl), rfl⟩
  obtain ⟨db₂', hfold, ht₂⟩ := Corrections.createStatuses_eq hrow hnodup hnew
  obtain rfl : db₂' = db₂ := Except.ok.inj (hfold.symm.trans hstatuses)
  have ht₃ := write_eq_ok.mp hlast
  have ht₄ := linkGallery_gallery hgallery
  have ht₅ := write_eq_ok.mp houtbox
  have ht : db'.tables = { db.tables with
      updates := db.tables.updates ++ [arg.row.insert db.tables.updatesSeq]
      updatesSeq := db.tables.updatesSeq + 1
      updateStatuses := db.tables.updateStatuses ++
        arg.statuses.map fun status => { updateId := arg.id, status }
      cats := touched arg db.tables.cats
      catMedia := joined cmId arg db.tables.catMedia
      notificationOutbox := db'.tables.notificationOutbox } := by
    rw [ht₅, ht₄, ht₃, ht₂, ht₁]
    rfl
  refine ⟨rfl, ?_⟩
  rw [ht]
  exact ⟨rfl, rfl, rfl, rfl, rfl, rfl, rfl⟩

section Services

variable {env : Env} {req : OrdinaryUpdateRequest} {catId : UUID} {media : Option Medium}
  {w w' : World} {r : CatUpdate}

/-- The parameters of the write, once everything is checked. -/
def ordinaryParams (env : Env) (req : OrdinaryUpdateRequest) (catId : UUID)
    (statuses : List Status) (media : Option Medium) : CreateOrdinaryUpdateParams :=
  { id := env.uuid 0, catId, authorDeviceId := req.deviceId, authorUserId := req.userId
    comment := req.comment, createdAt := env.clock, statuses := orderStatuses statuses
    idempotencyKey := req.idempotencyKey, needsHelp := req.needsHelp
    needsHelpExpiresAt := if req.needsHelp then some (needsHelpExpiresAt env.clock) else none
    mediaId := media.map Medium.id }

theorem prepareOrdinaryUpdate_eq_ok
    (h : prepareOrdinaryUpdate env req catId db = .ok (arg, media)) :
    ∃ statuses, statuses.Nodup ∧ catExists catId (some req.userId) db = true ∧
      resolveOwnMedia req.mediaId req.userId db = .ok media ∧
      arg = ordinaryParams env req catId statuses media := by
  obtain ⟨statuses, hstatuses, h⟩ := bind_eq_ok.mp h
  obtain ⟨_, -, h⟩ := bind_eq_ok.mp h
  obtain ⟨_, -, h⟩ := bind_eq_ok.mp h
  split at h
  · rename_i hcat
    obtain ⟨media', hmedia, h⟩ := bind_eq_ok.mp h
    cases h
    exact ⟨statuses, Corrections.validateStatusSet_nodup hstatuses, hcat, hmedia, rfl⟩
  · cases h

/-- What a call of the compatibility endpoint writes. -/
def needsHelpParams (env : Env) (catId userId : UUID) (deviceId : Option UUID) (c : Category)
    (comment : Option String) : CreateOrdinaryUpdateParams :=
  { id := env.uuid 0, catId, authorDeviceId := deviceId, authorUserId := userId, comment
    createdAt := env.clock, statuses := [], needsHelp := true, needsHelpCategory := some c
    needsHelpExpiresAt := some (needsHelpExpiresAt env.clock) }

theorem prepareNeedsHelpUpdate_eq_ok {catId : Option UUID} {userId : UUID} {deviceId : Option UUID}
    {category : String} {comment : Option String} {c : Category}
    (h : prepareNeedsHelpUpdate env catId userId deviceId category comment db = .ok (arg, c)) :
    ∃ cat, catId = some cat ∧ catExists cat (some userId) db = true ∧
      arg = needsHelpParams env cat userId deviceId c comment := by
  unfold prepareNeedsHelpUpdate at h
  split at h
  · cases h
  · cases h
  · rename_i cat _ _
    obtain ⟨_, -, h⟩ := bind_eq_ok.mp h
    obtain ⟨_, -, h⟩ := bind_eq_ok.mp h
    split at h
    · rename_i hcat
      cases h
      exact ⟨cat, rfl, hcat, rfl⟩
    · cases h

/-- A call that writes a new update, up to its answer. -/
structure Written (env : Env) (userId : UUID) (arg : CreateOrdinaryUpdateParams) (w w' : World) :
    Prop where
  commits : Store.createOrdinaryUpdate (env.uuid 1) (env.uuid 2) env.now arg w.db =
    .ok (arg.id, w'.db)
  objects : w'.objects = w.objects
  author : arg.authorUserId = userId
  visible : catExists arg.catId (some userId) w.db = true
  createdAt : arg.createdAt = env.clock
  id : arg.id = env.uuid 0
  nodup : arg.statuses.Nodup

theorem store_id {id : UUID} (h : Store.createOrdinaryUpdate cmId outId now arg db = .ok (id, db')) :
    id = arg.id := by
  obtain ⟨⟨id', db₁⟩, hcreate, h⟩ := bind_eq_ok.mp h
  obtain ⟨db₂, -, h⟩ := bind_eq_ok.mp h
  obtain ⟨db₃, -, h⟩ := bind_eq_ok.mp h
  obtain ⟨db₄, -, h⟩ := bind_eq_ok.mp h
  obtain ⟨db₅, -, h⟩ := bind_eq_ok.mp h
  cases h
  exact (ServiceEffects.createUpdate_cases hcreate).1

/-- A call answers with the update an earlier one wrote under its key, or writes one. -/
theorem createOrdinaryUpdate_cases
    (h : CatServices.createOrdinaryUpdate env req w = (.ok r, w')) :
    (w' = w ∧ ∃ key, req.idempotencyKey = some key ∧
      fetchIdempotentOrdinaryUpdate env req.userId key w.db = .ok r) ∨
    ∃ catId statuses media, req.catId = some catId ∧
      resolveOwnMedia req.mediaId req.userId w.db = .ok media ∧
      Written env req.userId (ordinaryParams env req catId statuses media) w w' ∧
      ordinaryUpdateResult env req (orderStatuses statuses) media (env.uuid 0) w'.db = .ok r := by
  have hearlier : earlierUpdate env req w.db = .ok r → w' = w →
      (w' = w ∧ ∃ key, req.idempotencyKey = some key ∧
        fetchIdempotentOrdinaryUpdate env req.userId key w.db = .ok r) := by
    intro hfetch heq
    unfold earlierUpdate at hfetch
    split at hfetch
    · cases hfetch
    · rename_i key hkey
      exact ⟨heq, key, hkey, hfetch⟩
  unfold CatServices.createOrdinaryUpdate at h
  split at h
  · cases h
  · rename_i catId hcatId
    split at h
    · rename_i existing hexisting
      cases h
      exact .inl (hearlier hexisting rfl)
    · split at h
      · cases h
      · rename_i params media hprepare
        obtain ⟨statuses, hnodup, hvisible, hmedia, rfl⟩ := prepareOrdinaryUpdate_eq_ok hprepare
        split at h
        · rename_i e hfailed
          obtain ⟨hrecover, hw⟩ := Prod.mk.inj h
          unfold recoverOrdinaryUpdate at hrecover
          split at hrecover
          · split at hrecover
            · rename_i hfetch
              cases hrecover
              exact .inl (hearlier hfetch hw.symm)
            · cases hrecover
          · cases hrecover
        · rename_i id db' hwrite
          obtain ⟨hresult, rfl⟩ := Prod.mk.inj h
          obtain rfl := store_id hwrite
          exact .inr ⟨catId, statuses, media, hcatId, hmedia,
            ⟨hwrite, rfl, rfl, hvisible, rfl, rfl, Corrections.orderStatuses_nodup hnodup⟩, hresult⟩
    · cases h

theorem createNeedsHelpUpdate_cases {catId : Option UUID} {userId : UUID} {deviceId : Option UUID}
    {category : String} {comment : Option String}
    (h : createNeedsHelpUpdate env catId userId deviceId category comment w = (.ok r, w')) :
    ∃ cat c, catId = some cat ∧
      Written env userId (needsHelpParams env cat userId deviceId c comment) w w' ∧
      needsHelpResult env userId comment c (env.uuid 0) w'.db = .ok r := by
  unfold createNeedsHelpUpdate at h
  split at h
  · cases h
  · rename_i params c hprepare
    obtain ⟨cat, hcat, hvisible, rfl⟩ := prepareNeedsHelpUpdate_eq_ok hprepare
    split at h
    · cases h
    · rename_i id db' hwrite
      obtain ⟨hresult, rfl⟩ := Prod.mk.inj h
      obtain rfl := store_id hwrite
      exact ⟨cat, c, hcat, ⟨hwrite, rfl, rfl, hvisible, rfl, rfl, List.nodup_nil⟩, hresult⟩

theorem Written.created {userId : UUID} (h : Written env userId arg w w')
    (hfresh : FreshId (env.uuid 0) w.db.tables) :
    Created (env.uuid 1) arg w.db.tables w'.db.tables := by
  rw [← h.id] at hfresh
  exact (createOrdinaryUpdate_created hfresh h.nodup h.commits).2

end Services

end Tekir.UpdateCreation
