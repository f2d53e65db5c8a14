import Tekir.ContentCalls

/-!
# The statements of the content calls

Which statements each content call asks, whatever they answer: those that read, and those
that write with the values of the call's request and its draws.
-/
namespace Tekir.ContentUses
open Table Schema Statements UpdateQueries NotificationQueries Environment ContentWrites
  ContentQueries ContentCalls Programs
open CatServices (CreateRequest OrdinaryUpdateRequest UpdateCorrection prepareCorrection)
open ReadServices (Reading)
open ReadQueries (Bounds)

/-- The statements that write which a call asks, with what they write. -/
def Writes (cfg : Config) : Op → Query → Prop
  | .createCat env req, .createMedia row =>
    ∃ contentType url, env.process = .ok contentType ∧ row = coverMedium env req contentType url
  | .createCat env req, .createCat arg _ =>
    arg = { newCat env req with primaryPhotoId := some (env.uuid 0) }
  | .createCat env _, .createCatMedia id catId mediaId _ =>
    id = env.uuid 2 ∧ catId = env.uuid 1 ∧ mediaId = env.uuid 0
  | .createCat _ _, .putObject _ | .createCat _ _, .deleteObject _ => True
  | .upload env userId deviceId key muted, .createMedia row =>
    ∃ contentType url, row = uploadedMedium env userId deviceId key muted contentType url
  | .upload _ _ _ _ _, .putObject _ | .upload _ _ _ _ _, .deleteObject _ => True
  | .createOrdinaryUpdate env req, q => ∃ catId statuses media, req.catId = some catId ∧
    checkOrdinaryUpdate env req = .ok statuses ∧
      Stores env (ordinaryUpdateParams env req catId statuses media) q
  | .createNeedsHelpUpdate env catId userId deviceId _ comment, q => ∃ id c, catId = some id ∧
    Stores env (needsHelpParams env id userId deviceId c comment) q
  | .correctOwnUpdate env catId updateId userId correction, q => ∃ params,
    prepareCorrection env catId updateId userId correction = .ok params ∧ Corrects params q
  | .deleteOwnUpdate env catId updateId userId, q => ∃ cat update, catId = some cat ∧
    updateId = some update ∧ q = .deleteOwnUpdate (deleteParams env cat update userId)
  | .setCoverPhoto _ catId _ mediaId, q => ∃ m, mediaId = some m ∧ q = .setCatCoverPhoto m catId
  | .renameCat _ catId _ _, q => ∃ name, q = .updateCatName name catId
  | .deleteCat catId caller, q => q = .softDeleteCat catId caller
  | .follow catId userId deviceId, q => ∃ cat, catId = some cat ∧ q = .createFollow userId deviceId cat
  | .unfollow catId userId, q => ∃ cat, catId = some cat ∧ q = .deleteFollow userId cat
  | .report _ _ _ _ _ _, .createReport _ => True
  | .block blocker blocked, q => ∃ id, blocked = some id ∧ q = .createBlock blocker id
  | .unblock blocker blocked, q => ∃ id, blocked = some id ∧ q = .deleteBlock blocker id
  | .dispatchPending _ skipped, .claimNotificationOutboxBatch skipped' rowLimit =>
    skipped' = skipped ∧ rowLimit = cfg.batchSize
  | .dispatchPending _ _, .createNotification _ _ _ _ _
  | .dispatchPending _ _, .clearDevicePushToken _ _
  | .dispatchPending _ _, .markNotificationOutboxProcessed _ _ => True
  | .markRead _ userId _, .markNotificationRead _ _ userId' => userId' = userId
  | .deleteAccount env userId, .deleteAccount _ userId' _ now => userId' = userId ∧ now = env.now
  | .deleteAccount _ _, .deleteObject _ => True
  | _, _ => False
where
  /-- `Store.CreateOrdinaryUpdate`. -/
  Stores (env : Env) (arg : Store.CreateOrdinaryUpdateParams) : Query → Prop
    | .createUpdate arg' => arg' = arg.row
    | .createUpdateStatus updateId status => updateId = arg.id ∧ status ∈ arg.statuses
    | .updateCatLastUpdateAt at' catId => at' = arg.createdAt ∧ catId = arg.catId
    | .createCatMedia id catId mediaId createdAt => id = env.uuid 1 ∧ catId = arg.catId ∧
      arg.mediaId = some mediaId ∧ createdAt = arg.createdAt
    | .createNotificationOutbox id updateId now =>
      id = env.uuid 2 ∧ updateId = arg.id ∧ now = env.now
    | _ => False
  /-- `Store.CorrectOwnUpdate`. -/
  Corrects (params : Store.CorrectOwnUpdateParams) : Query → Prop
    | .correctOrdinaryUpdate arg => arg = params.row
    | .replaceUpdateStatuses updateId => updateId = params.id
    | .createUpdateStatus updateId status => updateId = params.id ∧ status ∈ params.statuses
    | _ => False

/-- A call asks these writing statements, and reads. -/
def Asks (cfg : Config) (o : Op) (q : Query) : Prop :=
  q.Reads = true ∨ Writes cfg o q

def Emits (cfg : Config) (o : Op) (w : Write) : Prop :=
  ∃ q : Query, Writes cfg o q ∧ q.Emits w

section Uses

variable {P : Query → Prop} {α : Type}

theorem readOnce_uses {q : Query} (hq : P q) : (readOnce q).Uses P :=
  ⟨hq, fun _ => trivial⟩

theorem writeOnce_uses {q : Query} (hq : P q) : (writeOnce q).Uses P :=
  Prog.uses_transaction (Prog.plain_query hq).uses

theorem ask_uses {q : Query} (hq : P q) : (ask q).Uses P :=
  (Prog.plain_query hq).uses

theorem orElse_uses {missing : Error} {p : Script α} (hp : p.Uses P) : (orElse missing p).Uses P := by
  refine Prog.uses_bind hp fun r => ?_
  split <;> trivial

theorem reply_uses {f : α → Answer} {p : Script α} (hp : p.Uses P) : (reply f p).Uses P :=
  Prog.uses_andThen hp fun _ => trivial

/-- A check that fails ends the call. -/
theorem check_uses {β : Type} {x : Except Error α} {f : α → Script β}
    (hf : ∀ a, x = .ok a → (f a).Uses P) : ((check x).andThen f).Uses P := by
  cases x with
  | error e => trivial
  | ok a => exact hf a rfl

theorem deleteObject_uses {env : Env} {key : String} (hq : P (.deleteObject key)) :
    (deleteObject env key).Uses P := by
  unfold deleteObject
  split
  · exact Prog.uses_bind (writeOnce_uses hq) fun _ => trivial
  · trivial

end Uses

section Programs

variable {P : Query → Prop} (hP : ∀ q : Query, q.Reads = true → P q)
include hP

theorem getCatDetail_uses (clock : Instant) (id : UUID) (caller : Option UUID) :
    (getCatDetail clock id caller).Uses P := by
  refine Prog.uses_andThen (orElse_uses (readOnce_uses (hP _ rfl))) fun row => ?_
  exact Prog.uses_andThen (readOnce_uses (hP _ rfl)) fun _ => trivial

theorem requireCat_uses (id : UUID) (viewer : Option UUID) : (requireCat id viewer).Uses P :=
  Prog.uses_andThen (readOnce_uses (hP _ rfl)) fun _ => trivial

theorem listCatMedia_uses (id : UUID) (caller : Option UUID) : (listCatMedia id caller).Uses P := by
  refine Prog.uses_andThen (requireCat_uses hP id caller) fun _ => ?_
  exact Prog.uses_andThen (readOnce_uses (hP _ rfl)) fun _ => trivial

theorem listNearby_uses (clock : Instant) (bounds : Bounds) (caller : Option UUID) :
    (listNearby clock bounds caller).Uses P := by
  refine Prog.uses_andThen trivial fun _ => ?_
  exact Prog.uses_andThen (readOnce_uses (hP _ rfl)) fun _ => trivial

theorem listNearbyDuplicates_uses (point : Point) (caller : Option UUID) :
    (listNearbyDuplicates point caller).Uses P := by
  unfold listNearbyDuplicates
  split
  · exact Prog.uses_andThen (readOnce_uses (hP _ rfl)) fun _ => trivial
  · trivial

theorem listDiscover_uses (read : Reading) (clock : Instant) (filter : String) (point : Point)
    (cursor : Option String) (limit : ℤ) (caller : Option UUID) :
    (listDiscover read clock filter point cursor limit caller).Uses P := by
  unfold listDiscover
  split
  · trivial
  · split
    · refine Prog.uses_andThen trivial fun limit => Prog.uses_andThen trivial fun after => ?_
      exact Prog.uses_andThen (readOnce_uses (hP _ rfl)) fun _ => trivial
    · trivial

theorem listFollows_uses (clock : Instant) (userId : UUID) : (listFollows clock userId).Uses P :=
  Prog.uses_andThen (readOnce_uses (hP _ rfl)) fun _ => trivial

theorem listCatUpdates_uses (read : Reading) (clock : Instant) (catId : UUID)
    (cursor : Option String) (limit : ℤ) (caller : Option UUID) :
    (listCatUpdates read clock catId cursor limit caller).Uses P := by
  refine Prog.uses_andThen trivial fun limit => Prog.uses_andThen trivial fun before => ?_
  refine Prog.uses_andThen (requireCat_uses hP catId caller) fun _ => ?_
  exact Prog.uses_andThen (readOnce_uses (hP _ rfl)) fun _ => trivial

theorem ownedCat_uses (id caller : UUID) : (ownedCat id caller).Uses P :=
  Prog.uses_andThen (orElse_uses (readOnce_uses (hP _ rfl))) fun _ => trivial

theorem setCoverPhoto_uses (env : Env) (id caller : UUID) (mediaId : Option UUID)
    (hset : ∀ m, mediaId = some m → P (.setCatCoverPhoto m id)) :
    (setCoverPhoto env id caller mediaId).Uses P := by
  refine Prog.uses_andThen (ownedCat_uses hP id caller) fun _ => ?_
  cases mediaId with
  | none => trivial
  | some m =>
    refine Prog.uses_andThen (orElse_uses (readOnce_uses (hP _ rfl))) fun _ => ?_
    refine Prog.uses_andThen (writeOnce_uses (hset m rfl)) fun _ => ?_
    exact getCatDetail_uses hP env.clock id (some caller)

theorem renameCat_uses (env : Env) (id caller : UUID) (name : String)
    (hname : ∀ trimmed, P (.updateCatName trimmed id)) : (renameCat env id caller name).Uses P := by
  refine Prog.uses_andThen (ownedCat_uses hP id caller) fun _ => ?_
  refine Prog.uses_andThen trivial fun trimmed => ?_
  refine Prog.uses_andThen (writeOnce_uses (hname trimmed)) fun _ => ?_
  exact getCatDetail_uses hP env.clock id (some caller)

theorem deleteCat_uses (id caller : UUID) (hdelete : P (.softDeleteCat id caller)) :
    (deleteCat id caller).Uses P := by
  refine Prog.uses_bind (writeOnce_uses hdelete) fun r => ?_
  split
  · trivial
  · exact Prog.uses_andThen (orElse_uses (readOnce_uses (hP _ rfl))) fun _ => trivial
  · trivial

theorem authorDisplayNameFor_uses (userId : UUID) : (authorDisplayNameFor userId).Uses P :=
  Prog.uses_andThen (readOnce_uses (hP _ rfl)) fun _ => trivial

theorem earlierUpdate_uses (env : Env) (req : OrdinaryUpdateRequest) :
    (earlierUpdate env req).Uses P := by
  unfold earlierUpdate
  split
  · trivial
  · refine Prog.uses_andThen (readOnce_uses (hP _ rfl)) fun _ => ?_
    exact Prog.uses_andThen (authorDisplayNameFor_uses hP _) fun _ => trivial

theorem recoverOrdinaryUpdate_uses (env : Env) (req : OrdinaryUpdateRequest) (e : Error) :
    (recoverOrdinaryUpdate env req e).Uses P := by
  unfold recoverOrdinaryUpdate
  split
  · refine Prog.uses_bind (earlierUpdate_uses hP env req) fun r => ?_
    split <;> trivial
  · trivial

theorem resolveOwnMedia_uses (mediaId : Option (Option UUID)) (userId : UUID) :
    (resolveOwnMedia mediaId userId).Uses P := by
  unfold resolveOwnMedia
  split
  · trivial
  · trivial
  · exact Prog.uses_andThen (orElse_uses (readOnce_uses (hP _ rfl))) fun _ => trivial

theorem prepareOrdinaryUpdate_uses (env : Env) (req : OrdinaryUpdateRequest) (catId : UUID) :
    (prepareOrdinaryUpdate env req catId).Uses P := by
  refine Prog.uses_andThen trivial fun statuses => ?_
  refine Prog.uses_andThen (requireCat_uses hP catId _) fun _ => ?_
  exact Prog.uses_andThen (resolveOwnMedia_uses hP req.mediaId req.userId) fun _ => trivial

theorem resolveCorrectionFailure_uses (catId updateId userId : UUID) (windowStart : Instant)
    (correction : Bool) :
    (resolveCorrectionFailure catId updateId userId windowStart correction).Uses P :=
  Prog.uses_andThen (orElse_uses (readOnce_uses (hP _ rfl))) fun _ => trivial

omit hP in
theorem createStatuses_uses {updateId : UUID} {statuses : List Status}
    (hstatus : ∀ status ∈ statuses, P (.createUpdateStatus updateId status)) :
    (createStatuses updateId statuses).Uses P := by
  induction statuses with
  | nil => trivial
  | cons status left ih =>
    refine Prog.uses_andThen (ask_uses (hstatus status List.mem_cons_self)) fun _ => ?_
    exact ih fun status' h => hstatus status' (List.mem_cons_of_mem _ h)

theorem correctOwnUpdate_uses (env : Env) (catId updateId : Option UUID) (userId : UUID)
    (correction : UpdateCorrection)
    (hwrites : ∀ params q, prepareCorrection env catId updateId userId correction = .ok params →
      Writes.Corrects params q → P q) :
    (correctOwnUpdate env catId updateId userId correction).Uses P := by
  refine check_uses fun params hprepare => ?_
  have hq : ∀ q, Writes.Corrects params q → P q := fun q => hwrites params q hprepare
  refine Prog.uses_bind (Prog.uses_transaction ?_) fun r => ?_
  · refine Prog.uses_andThen (ask_uses (hq (.correctOrdinaryUpdate params.row) rfl)) fun row => ?_
    split
    · refine Prog.uses_andThen (ask_uses (hq (.replaceUpdateStatuses params.id) rfl)) fun _ => ?_
      refine Prog.uses_andThen (createStatuses_uses fun status h => ?_) fun _ => trivial
      exact hq (.createUpdateStatus params.id status) ⟨rfl, h⟩
    · exact Prog.uses_andThen (ask_uses (hP (.listUpdateStatuses params.id) rfl)) fun _ => trivial
  · split
    · trivial
    · exact Prog.uses_andThen (resolveCorrectionFailure_uses hP _ _ _ _ _) fun _ => trivial
    · trivial

theorem deleteOwnUpdate_uses (env : Env) (catId updateId : Option UUID) (userId : UUID)
    (hdelete : ∀ cat update, catId = some cat → updateId = some update →
      P (.deleteOwnUpdate (deleteParams env cat update userId))) :
    (deleteOwnUpdate env catId updateId userId).Uses P := by
  unfold ContentCalls.deleteOwnUpdate
  split
  · trivial
  · trivial
  · refine Prog.uses_bind (writeOnce_uses (hdelete _ _ rfl rfl)) fun r => ?_
    split
    · trivial
    · exact resolveCorrectionFailure_uses hP _ _ _ _ _
    · trivial

theorem earlierCat_uses (env : Env) (req : CreateRequest) : (earlierCat env req).Uses P := by
  unfold earlierCat
  split
  · trivial
  · refine Prog.uses_andThen (readOnce_uses (hP _ rfl)) fun existing => ?_
    exact getCatDetail_uses hP env.clock existing.id _

theorem prepareCreate_uses (env : Env) (req : CreateRequest) : (prepareCreate env req).Uses P := by
  unfold prepareCreate
  split
  · trivial
  · split
    · trivial
    · refine Prog.uses_andThen ?_ fun _ => trivial
      unfold checkDuplicates
      split
      · trivial
      · exact Prog.uses_andThen (readOnce_uses (hP _ rfl)) fun _ => trivial

theorem earlierMedia_uses (userId : UUID) (key : Option String) : (earlierMedia userId key).Uses P := by
  unfold earlierMedia
  split
  · trivial
  · exact Prog.uses_andThen (readOnce_uses (hP _ rfl)) fun _ => trivial

omit hP in
theorem putObject_uses {env : Env} (hput : P (.putObject env.objectKey)) : (putObject env).Uses P := by
  refine Prog.uses_andThen trivial fun url => ?_
  exact Prog.uses_andThen (writeOnce_uses hput) fun _ => trivial

theorem follow_uses (catId : Option UUID) (userId : UUID) (deviceId : Option UUID)
    (hfollow : ∀ cat, catId = some cat → P (.createFollow userId deviceId cat)) :
    (follow catId userId deviceId).Uses P := by
  cases catId with
  | none => trivial
  | some cat =>
    exact Prog.uses_andThen (requireCat_uses hP cat _) fun _ => writeOnce_uses (hfollow cat rfl)

theorem unfollow_uses (catId : Option UUID) (userId : UUID)
    (hunfollow : ∀ cat, catId = some cat → P (.deleteFollow userId cat)) :
    (unfollow catId userId).Uses P := by
  cases catId with
  | none => trivial
  | some cat =>
    exact Prog.uses_andThen (requireCat_uses hP cat _) fun _ => writeOnce_uses (hunfollow cat rfl)

theorem createReport_uses (env : Env) (reporter : UUID) (targetType : String)
    (targetId : Option UUID) (reason : String) (note : Option String)
    (hreport : ∀ row, P (.createReport row)) :
    (createReport env reporter targetType targetId reason note).Uses P := by
  refine Prog.uses_andThen trivial fun row => ?_
  refine Prog.uses_andThen ?_ fun there => ?_
  · unfold targetExists
    split
    · exact readOnce_uses (hP _ rfl)
    · exact readOnce_uses (hP _ rfl)
    · refine Prog.uses_bind (readOnce_uses (hP _ rfl)) fun r => ?_
      split <;> trivial
  · split
    · refine Prog.uses_bind (writeOnce_uses (hreport row)) fun r => ?_
      split
      · trivial
      · exact readOnce_uses (hP _ rfl)
      · trivial
    · trivial

theorem block_uses (blocker : UUID) (blocked : Option UUID)
    (hblock : ∀ id, blocked = some id → P (.createBlock blocker id)) :
    (block blocker blocked).Uses P := by
  cases blocked with
  | none => trivial
  | some id =>
    unfold block
    dsimp only
    split
    · trivial
    · refine Prog.uses_andThen (orElse_uses (readOnce_uses (hP _ rfl))) fun _ => ?_
      exact writeOnce_uses (hblock id rfl)

omit hP in
theorem unblock_uses (blocker : UUID) (blocked : Option UUID)
    (hunblock : ∀ id, blocked = some id → P (.deleteBlock blocker id)) :
    (unblock blocker blocked).Uses P := by
  cases blocked with
  | none => trivial
  | some id =>
    unfold unblock
    dsimp only
    split
    · trivial
    · exact writeOnce_uses (hunblock id rfl)

omit hP in
theorem markRead_uses (env : Env) (userId : UUID) (id : Option UUID)
    (hread : ∀ n, P (.markNotificationRead env.clock n userId)) :
    (markRead env userId id).Uses P := by
  unfold markRead
  split
  · trivial
  · exact writeOnce_uses (hread _)

theorem deliverAll_uses (env : Env) (row : ClaimedRow)
    (hnotify : ∀ id deviceId, P (.createNotification id deviceId row.catId row.updateId env.now))
    (hclear : ∀ deviceId token, P (.clearDevicePushToken deviceId token))
    (recs : List Recipient) (drawn : ℕ) : (deliverAll env row recs drawn).Uses P := by
  induction recs generalizing drawn with
  | nil => trivial
  | cons rec left ih =>
    refine Prog.uses_andThen ?_ fun _ => ih (drawn + 1)
    refine Prog.uses_bind (ask_uses (hnotify _ _)) fun r => ?_
    split
    · trivial
    · trivial
    · split
      · trivial
      · split
        · trivial
        · refine Prog.uses_andThen (ask_uses (hP _ rfl)) fun _ => ?_
          split
          · exact ask_uses (hclear _ _)
          · trivial
          · trivial

theorem dispatchRows_uses (env : Env)
    (hnotify : ∀ id deviceId catId updateId, P (.createNotification id deviceId catId updateId env.now))
    (hclear : ∀ deviceId token, P (.clearDevicePushToken deviceId token))
    (hmark : ∀ at' id, P (.markNotificationOutboxProcessed at' id)) (rows : List ClaimedRow)
    (drawn : ℕ) : (dispatchRows env rows drawn).Uses P := by
  induction rows generalizing drawn with
  | nil => trivial
  | cons row left ih =>
    refine Prog.uses_andThen ?_ fun drawn => ih drawn
    refine Prog.uses_andThen ?_ fun _ => Prog.uses_andThen (ask_uses (hmark _ _)) fun _ => trivial
    split
    · refine Prog.uses_andThen (ask_uses (hP _ rfl)) fun recs => ?_
      exact deliverAll_uses hP env row (fun _ _ => hnotify _ _ _ _) hclear recs drawn
    · trivial

omit hP in
theorem runSteps_uses {userId : UUID} {phone : String} {now : Instant}
    (hstep : ∀ step, P (.deleteAccount step userId phone now)) (steps : List DeletionStep) :
    (runSteps userId phone now steps).Uses P := by
  induction steps with
  | nil => trivial
  | cons step left ih => exact Prog.uses_andThen (ask_uses (hstep step)) fun _ => ih

omit hP in
theorem deleteObjects_uses {env : Env} (hdelete : ∀ key, P (.deleteObject key)) (keys : List String) :
    (deleteObjects env keys).Uses P := by
  induction keys with
  | nil => trivial
  | cons key left ih => exact Prog.uses_andThen (deleteObject_uses (hdelete key)) fun _ => ih

theorem deleteAccount_uses (env : Env) (userId : UUID)
    (hstep : ∀ step phone, P (.deleteAccount step userId phone env.now))
    (hdelete : ∀ key, P (.deleteObject key)) : (deleteAccount env userId).Uses P := by
  refine Prog.uses_bind (readOnce_uses (hP _ rfl)) fun r => ?_
  split
  · trivial
  · trivial
  · refine Prog.uses_andThen (Prog.uses_transaction ?_) fun keys => deleteObjects_uses hdelete keys
    refine Prog.uses_andThen (ask_uses (hP _ rfl)) fun _ => ?_
    exact Prog.uses_andThen (runSteps_uses (fun step => hstep step _) deletionSteps) fun _ => trivial

end Programs

end Tekir.ContentUses
