import Mathlib.Data.String.Basic
import Tekir.UpdateCreation
import Tekir.DiscoverPages
import Tekir.HelpMarkEligibility

/-!
# The answers of the writes beside the timeline

An update is answered by the call that creates, repeats or corrects it, and listed by
`ListCatUpdates`. No write fills the author's identifier, which the list always does; a
new ordinary update agrees with its entry in everything else.
-/
namespace Tekir.WriteResponses
open Table Schema Statements AccountQueries CatQueries UpdateQueries ReadQueries Environment
  CatServices ReadServices UpdateCreation

/-- The calls that answer with an update. A repeated creation is one under its key. -/
inductive Call
  | createOrdinaryUpdate (req : OrdinaryUpdateRequest)
  | createNeedsHelpUpdate (catId : Option UUID) (userId : UUID) (deviceId : Option UUID)
      (category : String) (comment : Option String)
  | correctOwnUpdate (catId updateId : Option UUID) (userId : UUID) (correction : UpdateCorrection)

def Call.author : Call → UUID
  | .createOrdinaryUpdate req => req.userId
  | .createNeedsHelpUpdate _ userId _ _ _ => userId
  | .correctOwnUpdate _ _ userId _ => userId

def respond (env : Env) (call : Call) (w : World) : Except Error CatUpdate × World :=
  match call with
  | .createOrdinaryUpdate req => CatServices.createOrdinaryUpdate env req w
  | .createNeedsHelpUpdate catId userId deviceId category comment =>
    CatServices.createNeedsHelpUpdate env catId userId deviceId category comment w
  | .correctOwnUpdate catId updateId userId correction =>
    CatServices.correctOwnUpdate env catId updateId userId correction w

/-- The fields that `ListCatUpdates` fills. -/
structure Agrees (r item : CatUpdate) : Prop where
  kind : r.kind = item.kind
  statuses : r.statuses = item.statuses
  comment : r.comment = item.comment
  createdAt : r.createdAt = item.createdAt
  authorUserId : r.authorUserId = item.authorUserId
  authorDisplayName : r.authorDisplayName = item.authorDisplayName
  photoUrl : r.photoUrl = item.photoUrl
  mediaContentType : r.mediaContentType = item.mediaContentType
  mediaMuted : r.mediaMuted = item.mediaMuted
  needsHelp : r.needsHelp = item.needsHelp
  needsHelpCategory : r.needsHelpCategory = item.needsHelpCategory
  needsHelpCategoryLabel : r.needsHelpCategoryLabel = item.needsHelpCategoryLabel
  needsHelpExpiresAt : r.needsHelpExpiresAt = item.needsHelpExpiresAt
  needsHelpActive : r.needsHelpActive = item.needsHelpActive
  authorIsMe : r.authorIsMe = item.authorIsMe
  correctionExpiresAt : r.correctionExpiresAt = item.correctionExpiresAt

/-- Some page of some cat's timeline, as the account reads it, has the entry. -/
def Shows (read : Reading) (clock : Instant) (viewer : UUID) (db : Database) (item : CatUpdate) :
    Prop :=
  ∃ catId cursor limit page,
    ReadServices.listCatUpdates read clock catId cursor limit (some viewer) db = .ok page ∧
      item ∈ page.items

section Entries

variable {read : Reading} {clock : Instant} {viewer : UUID} {db : Database} {item : CatUpdate}

theorem mem_updatesPage {caller : Option UUID} {limit : ℕ} {rows : List UpdateRow}
    (h : item ∈ (updatesPage read clock caller limit rows).items) :
    ∃ row ∈ rows, item = toCatUpdate clock caller row := by
  unfold updatesPage at h
  split at h
  · obtain ⟨row, hrow, rfl⟩ := List.mem_map.mp h
    exact ⟨row, List.mem_of_mem_take hrow, rfl⟩
  · obtain ⟨row, hrow, rfl⟩ := List.mem_map.mp h
    exact ⟨row, hrow, rfl⟩

/-- An entry is a live row of the table. -/
theorem Shows.exists_row (h : Shows read clock viewer db item) :
    ∃ u ∈ db.tables.updates, u.deletedAt = none ∧
      item = toCatUpdate clock (some viewer) (updateRow db u) := by
  obtain ⟨catId, cursor, limit, page, hlist, hitem⟩ := h
  obtain ⟨pageSize, -, hlist⟩ := bind_eq_ok.mp hlist
  obtain ⟨before, -, hlist⟩ := bind_eq_ok.mp hlist
  split at hlist
  · cases hlist
    obtain ⟨row, hrow, rfl⟩ := mem_updatesPage hitem
    obtain ⟨u, hu, rfl⟩ := List.mem_map.mp hrow
    have hmem := List.mem_filter.mp (mem_orderBy.mp (List.mem_of_mem_take hu))
    simp only [Bool.and_eq_true, Option.isNone_iff_eq_none] at hmem
    exact ⟨u, hmem.1, hmem.2.1.2, rfl⟩
  · cases hlist

end Entries

section Authors

variable {env : Env} {w w' : World} {r : CatUpdate} {arg : Store.CreateOrdinaryUpdateParams}

/-- The row a creation leaves, whether or not the identifier was in use. -/
theorem author_of_written {userId : UUID} (h : Written env userId arg w w') :
    ∀ u ∈ w'.db.tables.updates, u.id = env.uuid 0 → u.authorUserId = some userId := by
  intro u hu hid
  obtain ⟨⟨id', db₁⟩, hcreate, hrest⟩ := bind_eq_ok.mp h.commits
  obtain ⟨db₂, hstatuses, hrest⟩ := bind_eq_ok.mp hrest
  obtain ⟨db₃, hlast, hrest⟩ := bind_eq_ok.mp hrest
  obtain ⟨db₄, hgallery, hrest⟩ := bind_eq_ok.mp hrest
  obtain ⟨db₅, houtbox, hrest⟩ := bind_eq_ok.mp hrest
  obtain ⟨-, hdb⟩ := Prod.mk.inj (Except.ok.inj hrest)
  have hrows : w'.db.tables.updates = db₁.tables.updates := by
    obtain ⟨statuses, ht₂⟩ := ServiceEffects.statuses_tables hstatuses
    rw [← hdb, write_eq_ok.mp houtbox, linkGallery_gallery hgallery, write_eq_ok.mp hlast, ht₂]
  rw [hrows] at hu
  rw [← h.id] at hid
  obtain ⟨-, ⟨-, ht₁⟩ | ⟨hnew, ht₁⟩⟩ := ServiceEffects.createUpdate_cases hcreate
  · rw [ht₁] at hu
    obtain ⟨v, hv, rfl⟩ := mem_updateWhere.mp hu
    have hvid : v.id = arg.id := by
      by_contra hne
      simp only [Store.CreateOrdinaryUpdateParams.row, beq_iff_eq, hne, if_false] at hid
    simp [Store.CreateOrdinaryUpdateParams.row, CreateUpdateParams.assign, hvid, h.author]
  · rw [ht₁] at hu
    rcases List.mem_append.mp hu with hu | hu
    · exact absurd hid (hnew u hu)
    · rw [List.mem_singleton.mp hu]
      exact congrArg some h.author

theorem fetched_author {userId : UUID} {key : String} {db : Database}
    (h : fetchIdempotentOrdinaryUpdate env userId key db = .ok r) :
    r.authorUserId = none ∧
      ∀ u ∈ db.tables.updates, u.id = r.id → u.authorUserId = some userId := by
  obtain ⟨row, hrow, h⟩ := bind_eq_ok.mp h
  obtain ⟨name, -, h⟩ := bind_eq_ok.mp h
  obtain ⟨hmem, hkey⟩ := List.mem_filter.mp (one_eq_ok hrow)
  simp only [Bool.and_eq_true, beq_iff_eq] at hkey
  have hr : r.authorUserId = none ∧ r.id = row.id := by
    cases h
    split <;> exact ⟨rfl, rfl⟩
  refine ⟨hr.1, fun u hu hid => ?_⟩
  have heq : u = row := (db.valid.holds .updatesPkey).eq_of_key_eq hu hmem
    (congrArg some (hid.trans hr.2)) (by simp)
  rw [heq]
  exact hkey.1.1

theorem ordinaryResult_author {req : OrdinaryUpdateRequest} {statuses : List Status}
    {media : Option Medium} {id : UUID} {db : Database}
    (h : ordinaryUpdateResult env req statuses media id db = .ok r) :
    r.authorUserId = none ∧ r.id = id := by
  obtain ⟨name, -, h⟩ := bind_eq_ok.mp h
  cases h
  split <;> exact ⟨rfl, rfl⟩

theorem needsHelpResult_author {userId id : UUID} {comment : Option String} {c : Category}
    {db : Database} (h : needsHelpResult env userId comment c id db = .ok r) :
    r.authorUserId = none ∧ r.id = id := by
  obtain ⟨name, -, h⟩ := bind_eq_ok.mp h
  cases h
  exact ⟨rfl, rfl⟩

theorem correctionResult_author {row : Update} {statuses : List Status} :
    (correctionResult env row statuses).authorUserId = none ∧
      (correctionResult env row statuses).id = row.id := by
  unfold correctionResult
  dsimp only
  split <;> exact ⟨rfl, rfl⟩

theorem corrected_author {catId updateId : Option UUID} {userId : UUID}
    {correction : UpdateCorrection}
    (h : CatServices.correctOwnUpdate env catId updateId userId correction w = (.ok r, w')) :
    r.authorUserId = none ∧
      ∀ u ∈ w'.db.tables.updates, u.id = r.id → u.authorUserId = some userId := by
  unfold CatServices.correctOwnUpdate at h
  split at h
  · cases h
  · rename_i params hprepare
    split at h
    · rename_i row statuses db' hstore
      obtain ⟨hr, rfl⟩ := Prod.mk.inj h
      cases hr
      have hauthor : params.authorUserId = userId := by
        unfold prepareCorrection at hprepare
        split at hprepare
        · cases hprepare
        · cases hprepare
        · obtain ⟨_, -, hprepare⟩ := bind_eq_ok.mp hprepare
          obtain ⟨_, -, hprepare⟩ := bind_eq_ok.mp hprepare
          cases hprepare
          rfl
      refine ⟨correctionResult_author.1, fun u hu hid => ?_⟩
      rw [correctionResult_author.2] at hid
      have hquiet := ServiceEffects.store_correctOwnUpdate_quiet hstore
      obtain ⟨v, hv, hlinks⟩ := hquiet.inherits.updates u hu
      obtain ⟨⟨row', db₁⟩, hcorrect, hrest⟩ := bind_eq_ok.mp hstore
      obtain ⟨old, hold, hcorrect⟩ := bind_eq_ok.mp hcorrect
      obtain ⟨_, -, hcorrect⟩ := bind_eq_ok.mp hcorrect
      obtain ⟨hmem, hmatch⟩ := List.mem_filter.mp (one_eq_ok hold)
      have hrow : row'.id = old.id := by
        cases hcorrect
        rfl
      have hsame : row = row' := by
        dsimp only at hrest
        split at hrest
        · obtain ⟨_, -, hrest⟩ := bind_eq_ok.mp hrest
          cases hrest
          rfl
        · cases hrest
          rfl
      simp only [CorrectOrdinaryUpdateParams.matches, Bool.and_eq_true, beq_iff_eq] at hmatch
      simp only [Integrity.updateLinks, Prod.mk.injEq] at hlinks
      have heq : v = old := (w.db.valid.holds .updatesPkey).eq_of_key_eq hv hmem
        (congrArg some (hlinks.1.trans (hid.trans (hsame ▸ hrow)))) (by simp)
      rw [← hlinks.2.2.2, heq, hmatch.1.1.1.1.2]
      exact congrArg some hauthor
    · split at h <;> cases h
    · cases h

/-- An answer never names its author, and the row it is about always has one. -/
theorem respond_author {call : Call} (h : respond env call w = (.ok r, w')) :
    r.authorUserId = none ∧
      ∀ u ∈ w'.db.tables.updates, u.id = r.id → u.authorUserId = some call.author := by
  cases call with
  | createOrdinaryUpdate req =>
    rcases createOrdinaryUpdate_cases h with ⟨rfl, key, -, hfetch⟩ |
      ⟨catId, statuses, media, -, -, hwritten, hresult⟩
    · exact fetched_author hfetch
    · obtain ⟨hr, hid⟩ := ordinaryResult_author hresult
      rw [hid]
      exact ⟨hr, author_of_written hwritten⟩
  | createNeedsHelpUpdate catId userId deviceId category comment =>
    obtain ⟨cat, c, -, hwritten, hresult⟩ := createNeedsHelpUpdate_cases h
    obtain ⟨hr, hid⟩ := needsHelpResult_author hresult
    rw [hid]
    exact ⟨hr, author_of_written hwritten⟩
  | correctOwnUpdate catId updateId userId correction => exact corrected_author h

end Authors

section Created

variable {read : Reading} {env : Env} {w w' : World} {req : OrdinaryUpdateRequest} {catId : UUID}
  {statuses : List Status} {media : Option Medium} {r : CatUpdate}

theorem orderStatuses_idem (statuses : List Status) :
    orderStatuses (orderStatuses statuses) = orderStatuses statuses := by
  have : Std.Total fun a b : Status => decide (statusText a ≤ statusText b) = true :=
    ⟨fun a b => by simpa using le_total (statusText a) (statusText b)⟩
  have : IsTrans Status fun a b => decide (statusText a ≤ statusText b) = true :=
    ⟨fun a b c hab hbc => by
      simp only [decide_eq_true_eq] at hab hbc ⊢
      exact hab.trans hbc⟩
  exact (List.pairwise_insertionSort _ _).insertionSort_eq

theorem find?_eq_of_filter {α : Type} {p q : α → Bool} {rows : List α} {a : α}
    (hpq : ∀ r, p r = q r) (h : one (rows.filter q) = .ok a) : rows.find? p = some a := by
  rw [funext hpq, ← List.head?_filter]
  cases hrows : rows.filter q with
  | nil =>
    rw [hrows] at h
    cases h
  | cons r rs =>
    rw [hrows] at h
    cases h
    rfl

theorem displayName_find {id : UUID} {db : Database} {name : Option String}
    (h : authorDisplayNameFor id db = .ok name) :
    (db.tables.users.find? fun a => id == a.id).bind User.displayName = name := by
  obtain ⟨user, huser, hname⟩ := bind_eq_ok.mp h
  cases hname
  rw [find?_eq_of_filter (fun a => BEq.comm) huser]
  rfl

theorem resolveOwnMedia_find {mediaId : Option (Option UUID)} {author : UUID} {db : Database}
    (h : resolveOwnMedia mediaId author db = .ok media) :
    (db.tables.media.find? fun m => media.map Medium.id == some m.id) = media := by
  cases media with
  | none => simp
  | some m =>
    obtain ⟨hm, -⟩ := ServiceEffects.resolveOwnMedia_own h m rfl
    obtain ⟨m', hm'⟩ : ∃ m', (db.tables.media.find? fun q => (some m).map Medium.id == some q.id) =
        some m' := by
      apply Option.isSome_iff_exists.mp
      exact List.find?_isSome.mpr ⟨m, hm, by simp⟩
    have hid : m.id = m'.id := by simpa using List.find?_some hm'
    rw [hm', (db.valid.holds .mediaPkey).eq_of_key_eq (List.mem_of_find?_eq_some hm') hm
      (congrArg some hid.symm) (by simp)]

/-- The statuses of a new update are the ones it was created with. -/
theorem created_statuses {cmId : UUID} {arg : Store.CreateOrdinaryUpdateParams} {db db' : Database}
    (hcreated : Created cmId arg db.tables db'.tables) (hfresh : FreshId arg.id db.tables) :
    listUpdateStatuses arg.id db' = orderStatuses arg.statuses := by
  have hold : db.tables.updateStatuses.filter (fun s => s.updateId == arg.id) = [] := by
    apply List.filter_eq_nil_iff.mpr
    intro s hs
    simpa using no_statuses hfresh s hs
  simp only [listUpdateStatuses, hcreated.statuses, List.filter_append, hold, List.nil_append]
  congr 1
  induction arg.statuses with
  | nil => rfl
  | cons status statuses ih =>
    simpa using ih

/-- The one row under the new identifier. -/
theorem created_row {cmId : UUID} {arg : Store.CreateOrdinaryUpdateParams} {db db' : Database}
    (hcreated : Created cmId arg db.tables db'.tables) (hfresh : FreshId arg.id db.tables)
    {u : Update} (hu : u ∈ db'.tables.updates) (hid : u.id = arg.id) :
    u = arg.row.insert db.tables.updatesSeq := by
  rw [hcreated.updates] at hu
  rcases List.mem_append.mp hu with hu | hu
  · exact absurd hid (hfresh u hu)
  · exact List.mem_singleton.mp hu

/-- A new ordinary update is answered as it is listed, but for the author's identifier. -/
theorem created_entry
    (hwritten : Written env req.userId (ordinaryParams env req catId statuses media) w w')
    (hmedia : resolveOwnMedia req.mediaId req.userId w.db = .ok media)
    (hresult : ordinaryUpdateResult env req (orderStatuses statuses) media (env.uuid 0) w'.db = .ok r)
    (hfresh : FreshId (env.uuid 0) w.db.tables) :
    ∀ item, Shows read env.clock req.userId w'.db item → item.id = r.id →
      item = { r with authorUserId := some req.userId } := by
  intro item hitem hid
  obtain ⟨u, hu, -, rfl⟩ := hitem.exists_row
  have hcreated := hwritten.created hfresh
  rw [(ordinaryResult_author hresult).2] at hid
  obtain rfl := created_row hcreated hfresh hu hid
  obtain ⟨name, hname, hresult⟩ := bind_eq_ok.mp hresult
  have hshown := created_statuses hcreated hfresh
  simp only [ordinaryParams] at hshown
  rw [orderStatuses_idem] at hshown
  have hmedium := resolveOwnMedia_find hmedia
  rw [← hcreated.media] at hmedium
  have hauthor := displayName_find hname
  have hactive : env.clock < needsHelpExpiresAt env.clock :=
    HelpMarkEligibility.lt_needsHelpExpiresAt env.clock
  cases hresult
  cases hhelp : req.needsHelp <;>
    simp [toCatUpdate, updateRow, ordinaryParams, Store.CreateOrdinaryUpdateParams.row,
      CreateUpdateParams.insert, CreateUpdateParams.assign, CatUpdate.withMedia, CatUpdate.withHelp,
      hshown, hmedium, hauthor, hhelp, hactive]

/-- The answer of the compatibility endpoint leaves out who wrote the update and for how long
it can be corrected, and nothing else. -/
theorem needsHelp_entry {userId : UUID} {deviceId : Option UUID} {c : Category}
    {comment : Option String}
    (hwritten : Written env userId (needsHelpParams env catId userId deviceId c comment) w w')
    (hresult : needsHelpResult env userId comment c (env.uuid 0) w'.db = .ok r)
    (hfresh : FreshId (env.uuid 0) w.db.tables) :
    ∀ item, Shows read env.clock userId w'.db item → item.id = r.id →
      item = { r with
        authorUserId := some userId, authorIsMe := true
        correctionExpiresAt := some (r.createdAt + updateCorrectionWindow) } := by
  intro item hitem hid
  obtain ⟨u, hu, -, rfl⟩ := hitem.exists_row
  have hcreated := hwritten.created hfresh
  rw [(needsHelpResult_author hresult).2] at hid
  obtain rfl := created_row hcreated hfresh hu hid
  obtain ⟨name, hname, hresult⟩ := bind_eq_ok.mp hresult
  have hshown := created_statuses hcreated hfresh
  simp only [needsHelpParams, orderStatuses, orderBy, List.insertionSort_nil] at hshown
  have hauthor := displayName_find hname
  have hactive : env.clock < needsHelpExpiresAt env.clock :=
    HelpMarkEligibility.lt_needsHelpExpiresAt env.clock
  cases hresult
  simp [toCatUpdate, updateRow, needsHelpParams, Store.CreateOrdinaryUpdateParams.row,
    CreateUpdateParams.insert, CreateUpdateParams.assign, wireUpdateKind, alertCategory, hshown,
    hauthor, hactive]

end Created

/-- In every state, no answer of a write agrees with the entry that the author is shown for
the update right afterwards: the entry names the author, the answer does not. -/
theorem responses_never_agree (read : Reading) {env : Env} {call : Call} {w w' : World}
    {r : CatUpdate} (h : respond env call w = (.ok r, w')) :
    r.authorUserId = none ∧
    (∀ item, Shows read env.clock call.author w'.db item → item.id = r.id →
      item.authorUserId = some call.author) ∧
    ¬ ∃ item, Shows read env.clock call.author w'.db item ∧ item.id = r.id ∧ Agrees r item := by
  obtain ⟨hr, hrows⟩ := respond_author h
  have hentries : ∀ item, Shows read env.clock call.author w'.db item → item.id = r.id →
      item.authorUserId = some call.author := by
    intro item hitem hid
    obtain ⟨u, hu, -, rfl⟩ := hitem.exists_row
    exact hrows u hu hid
  refine ⟨hr, hentries, ?_⟩
  rintro ⟨item, hitem, hid, hagrees⟩
  have hauthor := hentries item hitem hid
  rw [← hagrees.authorUserId, hr] at hauthor
  cases hauthor

/-- An account signs in on a new device. -/
def signIn : List Backend.Request :=
  [⟨Backend.plainEnv 1, .register "ios" none⟩,
   ⟨Backend.plainEnv 2, .verifyOTP "5551112233" "" 10⟩]

def seen : Call :=
  .createOrdinaryUpdate { catId := some 1, userId := 20, statuses := ["seen"] }

theorem responses_never_agree_seen : ∃ w r w', Backend.Reaches Backend.plainConfig w ∧
    respond (Backend.plainEnv 3) seen w = (.ok r, w') ∧ r.authorUserId = none ∧
    ¬ ∃ item, Shows DiscoverPages.plainReading 3 20 w'.db item ∧ item.id = r.id ∧
      Agrees r item := by
  obtain ⟨w, hreach, hp⟩ := Backend.exists_reaches_of_test Backend.plainConfig
    Backend.seedWorld_genesis signIn
    (fun w => (respond (Backend.plainEnv 3) seen w).1.isOk) (by decide +kernel)
  cases h : respond (Backend.plainEnv 3) seen w with
  | mk r w' =>
    rw [h] at hp
    cases r with
    | error e => cases hp
    | ok r =>
      obtain ⟨hr, -, hnone⟩ := responses_never_agree DiscoverPages.plainReading h
      exact ⟨w, r, w', hreach, h, hr, hnone⟩

/-- The new update is listed under its author's identifier and answered without one. -/
theorem answer_without_author : ∃ w r w' item, Backend.Reaches Backend.plainConfig w ∧
    respond (Backend.plainEnv 3) seen w = (.ok r, w') ∧
    Shows DiscoverPages.plainReading 3 20 w'.db item ∧ item.id = r.id ∧ ¬ Agrees r item := by
  obtain ⟨w, hreach, hp⟩ := Backend.exists_reaches_of_test Backend.plainConfig
    Backend.seedWorld_genesis signIn
    (fun w =>
      match respond (Backend.plainEnv 3) seen w with
      | (.ok r, w') =>
        match ReadServices.listCatUpdates DiscoverPages.plainReading 3 1 none 0 (some 20) w'.db with
        | .ok page => page.items.any fun item =>
            item.id == r.id && item.authorUserId != r.authorUserId
        | .error _ => false
      | (.error _, _) => false) (by decide +kernel)
  split at hp
  · rename_i r w' h
    split at hp
    · rename_i page hpage
      obtain ⟨item, hitem, hdiffers⟩ := List.any_eq_true.mp hp
      simp only [Bool.and_eq_true, beq_iff_eq, bne_iff_ne, ne_eq] at hdiffers
      exact ⟨w, r, w', item, hreach, h, ⟨1, none, 0, page, hpage, hitem⟩, hdiffers.1,
        fun hagrees => hdiffers.2 hagrees.authorUserId.symm⟩
    · cases hp
  · cases hp

end Tekir.WriteResponses
