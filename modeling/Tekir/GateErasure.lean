import Tekir.ModerationGate

/-!
# The gated calls without the bytes

With the bytes left out, what the gated services answer and what they leave behind is what the
backend answers and leaves behind.
-/
namespace Tekir.GateErasure
open Machine Table Schema Statements AccountQueries CatQueries UpdateQueries Environment
  MediaProcessing ArchiveEffects ModerationGate
open CatServices hiding renameCat createOrdinaryUpdate createNeedsHelpUpdate correctOwnUpdate create
  upload
open VideoDuration (ProcessedMedia)

variable {α ρ β : Type} {wiring : Wiring} {out : Outside} {s : State}

/-- The environment of the services that know no bytes. -/
def envFor (out : Outside) (processed : Except Error ProcessedMedia) : Env :=
  { out.env with
    process := processed.map fun m => storedAs m.contentType
    moderateImage := processed >>= verdict out }

/-- The request of the services that know no bytes. -/
def withPhoto (req : CreateRequest) (photo : List UInt8) : CreateRequest :=
  { req with photo := !photo.isEmpty }

/-- The state of the services that know no bytes. -/
def erase (s : State) : World :=
  { db := s.db, objects := s.objects.map Object.key }

def erased (r : Except Error α × State) : Except Error α × World :=
  (r.1, erase r.2)

@[simp] theorem erase_db : (erase s).db = s.db := rfl

theorem erased_renameCat (id caller : UUID) (name : String) :
    erased ((renameCat out id caller name).run s) =
      CatServices.renameCat out.env id caller name (erase s) := by
  obtain ⟨new, hrun, -⟩ := reviews_rename out id caller name s.db s
  unfold renameCat CatServices.renameCat
  rw [run_bind, run_get]
  dsimp only
  rw [run_bind, hrun, erase_db]
  cases prepareRename out.env id caller name s.db with
  | error e => rfl
  | ok trimmed =>
    dsimp only
    rw [run_bind, run_lift]
    cases updateCatName trimmed id s.db with
    | error e => rfl
    | ok db => rfl

theorem erased_createOrdinaryUpdate (req : OrdinaryUpdateRequest) :
    erased ((createOrdinaryUpdate out req).run s) =
      CatServices.createOrdinaryUpdate out.env req (erase s) := by
  unfold createOrdinaryUpdate CatServices.createOrdinaryUpdate
  cases req.catId with
  | none => rfl
  | some catId =>
    obtain ⟨new, hrun, -⟩ := reviews_ordinaryUpdate out req catId s.db s
    dsimp only
    rw [run_bind, run_get, erase_db]
    dsimp only
    cases earlierUpdate out.env req s.db with
    | ok existing => rfl
    | error e =>
      cases e with
      | noRows =>
        dsimp only
        rw [run_bind, hrun]
        cases prepareOrdinaryUpdate out.env req catId s.db with
        | error e => rfl
        | ok r =>
          dsimp only
          cases Store.createOrdinaryUpdate (out.env.uuid 1) (out.env.uuid 2) out.env.now r.1
              s.db with
          | error e => rfl
          | ok written => rfl
      | _ => rfl

theorem erased_createNeedsHelpUpdate (catId : Option UUID) (userId : UUID) (deviceId : Option UUID)
    (category : String) (comment : Option String) :
    erased ((createNeedsHelpUpdate out catId userId deviceId category comment).run s) =
      CatServices.createNeedsHelpUpdate out.env catId userId deviceId category comment
        (erase s) := by
  obtain ⟨new, hrun, -⟩ :=
    reviews_needsHelpUpdate out catId userId deviceId category comment s.db s
  unfold createNeedsHelpUpdate CatServices.createNeedsHelpUpdate
  rw [run_bind, run_get]
  dsimp only
  rw [run_bind, hrun, erase_db]
  cases prepareNeedsHelpUpdate out.env catId userId deviceId category comment s.db with
  | error e => rfl
  | ok r =>
    dsimp only
    rw [run_bind, run_lift]
    cases Store.createOrdinaryUpdate (out.env.uuid 1) (out.env.uuid 2) out.env.now r.1 s.db with
    | error e => rfl
    | ok written => rfl

theorem erased_correctOwnUpdate (catId updateId : Option UUID) (userId : UUID)
    (correction : UpdateCorrection) :
    erased ((correctOwnUpdate out catId updateId userId correction).run s) =
      CatServices.correctOwnUpdate out.env catId updateId userId correction (erase s) := by
  obtain ⟨new, hrun, -⟩ := reviews_correction out catId updateId userId correction s
  unfold correctOwnUpdate CatServices.correctOwnUpdate
  rw [run_bind, run_get]
  dsimp only
  rw [run_bind, hrun, erase_db]
  cases prepareCorrection out.env catId updateId userId correction with
  | error e => rfl
  | ok params =>
    dsimp only
    cases Store.correctOwnUpdate params s.db with
    | ok r => rfl
    | error e =>
      cases e with
      | noRows =>
        dsimp only
        rw [run_bind, run_lift]
        cases resolveCorrectionFailure params.catId params.id userId params.windowStart true
            s.db with
        | error e => rfl
        | ok u => rfl
      | _ => rfl

/-- Where the generated key is fresh, the objects are the keys of the services that know no
bytes. -/
theorem erased_publish (hfresh : out.env.objectKey ∉ s.objects.map Object.key)
    {m : ProcessedMedia} {write : String → Except Error (ρ × Database)}
    {recover : Error → Except Error β} {answer : String → ρ → β} :
    erased ((publish out m write recover answer).run s) =
      match out.env.put with
      | .error e => (.error e, erase s)
      | .ok url =>
        match write url with
        | .error e => (recover e,
            { erase s with objects := (erase s).objects ++ [out.env.objectKey] }.deleteObject
              out.env out.env.objectKey)
        | .ok (row, db) => (.ok (answer url row),
            { erase s with objects := (erase s).objects ++ [out.env.objectKey], db }) := by
  have hkept : s.objects.filter (fun o => o.key != out.env.objectKey) = s.objects := by
    refine List.filter_eq_self.mpr fun o ho => ?_
    have hne : o.key ≠ out.env.objectKey := fun h => hfresh (List.mem_map.mpr ⟨o, ho, h⟩)
    simpa using hne
  have hput : (publish out m write recover answer).run s = match out.env.put with
      | .error e => (.error e, s)
      | .ok url => match write url with
        | .error e => (recover e,
            ((deleteObject out out.env.objectKey).run
              { s with objects := s.objects ++ [object out m] }).2)
        | .ok (row, db) =>
          (.ok (answer url row), { s with objects := s.objects ++ [object out m], db }) := by
    unfold publish
    rw [run_bind, run_put, hkept]
    cases out.env.put with
    | error e => rfl
    | ok url =>
      dsimp only
      cases write url <;> rfl
  rw [hput]
  cases out.env.put with
  | error e => rfl
  | ok url =>
    dsimp only
    cases write url with
    | error e =>
      dsimp only
      rw [run_deleteObject]
      unfold World.deleteObject
      split
      · simp [erased, erase, object, List.filter_map, Function.comp_def]
      · simp [erased, erase, object]
    | ok r => simp [erased, erase, object]

/-- The checks agree, but for the bytes. -/
theorem prepareCreate_erased (req : CreateRequest) (photo : List UInt8) (db : Database) :
    prepareCreate wiring.toConfig
        (envFor out (process wiring.codecs wiring.catsPipeline photo)) (withPhoto req photo) db =
      (checkCreate wiring req photo db >>= fun m =>
        (allowed (verdict out m) >>= fun _ => CatServices.moderateOptionalText out.env req.name) >>=
          fun _ => .ok m).map fun m => storedAs m.contentType := by
  unfold prepareCreate checkCreate
  change (if !withinIstanbul req.area then _ else if !!photo.isEmpty then _ else
    if !req.confirmedNew && !(duplicateCandidates wiring.toConfig req db).isEmpty then _ else _) = _
  rw [Bool.not_not]
  split
  · rfl
  · split
    · rfl
    · split
      · rfl
      · change ((process wiring.codecs wiring.catsPipeline photo).map _ >>= fun _ =>
          (allowed (process wiring.codecs wiring.catsPipeline photo >>= verdict out) >>= fun _ =>
            CatServices.moderateOptionalText out.env req.name) >>= fun _ => _) = _
        cases process wiring.codecs wiring.catsPipeline photo with
        | error e => rfl
        | ok m =>
          change ((allowed (verdict out m) >>= fun _ => _) >>= fun _ => _) =
            Except.map _ ((allowed (verdict out m) >>= fun _ => _) >>= fun _ => _)
          cases allowed (verdict out m) with
          | error e => rfl
          | ok u =>
            change (CatServices.moderateOptionalText out.env req.name >>= fun _ => _) =
              Except.map _ (CatServices.moderateOptionalText out.env req.name >>= fun _ => _)
            cases CatServices.moderateOptionalText out.env req.name with
            | error e => rfl
            | ok u => rfl

theorem erased_create (hfresh : out.env.objectKey ∉ s.objects.map Object.key)
    (req : CreateRequest) (photo : List UInt8) :
    erased ((create wiring out req photo).run s) =
      CatServices.create wiring.toConfig
        (envFor out (process wiring.codecs wiring.catsPipeline photo)) (withPhoto req photo)
        (erase s) := by
  obtain ⟨new, hrun, -⟩ := reviews_create wiring out req photo s.db s
  have hearlier : earlierCat (envFor out (process wiring.codecs wiring.catsPipeline photo))
      (withPhoto req photo) s.db = earlierCat out.env req s.db := rfl
  unfold create CatServices.create
  rw [run_bind, run_get, erase_db, hearlier, prepareCreate_erased]
  dsimp only
  cases earlierCat out.env req s.db with
  | ok existing => rfl
  | error e =>
    cases e with
    | noRows =>
      dsimp only
      rw [run_bind, hrun]
      generalize (checkCreate wiring req photo s.db >>= fun m => _) = v
      cases v with
      | error e => rfl
      | ok m =>
        refine (erased_publish (s := { s with events := s.events ++ new }) hfresh).trans ?_
        dsimp only [envFor, withPhoto, Except.map]
        cases out.env.put with
        | error e => rfl
        | ok url =>
          dsimp only [erase_db]
          generalize Store.createCatWithMedia _ _ _ _ _ = written
          cases written with
          | error e => rfl
          | ok r => rfl
    | _ => rfl

theorem prepareUpload_erased (raw : List UInt8) :
    prepareUpload (envFor out (process wiring.codecs wiring.mediaPipeline raw)) =
      (process wiring.codecs wiring.mediaPipeline raw >>= fun m =>
        allowed (verdict out m) >>= fun _ => .ok m).map fun m => storedAs m.contentType := by
  change ((process wiring.codecs wiring.mediaPipeline raw).map _ >>= fun _ =>
    allowed (process wiring.codecs wiring.mediaPipeline raw >>= verdict out) >>= fun _ => _) = _
  cases process wiring.codecs wiring.mediaPipeline raw with
  | error e => rfl
  | ok m =>
    change (allowed (verdict out m) >>= fun _ => _) =
      Except.map _ (allowed (verdict out m) >>= fun _ => _)
    cases allowed (verdict out m) with
    | error e => rfl
    | ok u => rfl

theorem erased_upload (hfresh : out.env.objectKey ∉ s.objects.map Object.key) (userId : UUID)
    (deviceId : Option UUID) (idempotencyKey : Option String) (muted : Bool) (raw : List UInt8) :
    erased ((upload wiring out userId deviceId idempotencyKey muted raw).run s) =
      CatServices.upload (envFor out (process wiring.codecs wiring.mediaPipeline raw)) userId
        deviceId idempotencyKey muted (erase s) := by
  obtain ⟨new, hrun, -⟩ := reviews_upload wiring out raw s
  unfold upload CatServices.upload
  rw [run_bind, run_get, erase_db, prepareUpload_erased]
  dsimp only
  cases earlierMedia userId idempotencyKey s.db with
  | ok existing => rfl
  | error e =>
    cases e with
    | noRows =>
      dsimp only
      rw [run_bind, hrun]
      generalize (process wiring.codecs wiring.mediaPipeline raw >>= fun m => _) = v
      cases v with
      | error e => rfl
      | ok m =>
        refine (erased_publish (s := { s with events := s.events ++ new }) hfresh).trans ?_
        dsimp only [envFor, Except.map]
        cases out.env.put with
        | error e => rfl
        | ok url =>
          dsimp only [erase_db]
          generalize createMedia _ _ = written
          cases written with
          | error e => rfl
          | ok r => rfl
    | _ => rfl

/-- The same call, made of the services that know no bytes. -/
def eraseRequest (wiring : Wiring) (r : Request) : Backend.Request :=
  match r.op with
  | .create req photo =>
    ⟨envFor r.out (process wiring.codecs wiring.catsPipeline photo),
      .createCat (withPhoto req photo)⟩
  | .renameCat id caller name => ⟨r.out.env, .renameCat id caller name⟩
  | .createOrdinaryUpdate req => ⟨r.out.env, .createOrdinaryUpdate req⟩
  | .createNeedsHelpUpdate catId userId deviceId category comment =>
    ⟨r.out.env, .createNeedsHelpUpdate catId userId deviceId category comment⟩
  | .correctOwnUpdate catId updateId userId correction =>
    ⟨r.out.env, .correctOwnUpdate catId updateId userId correction⟩
  | .upload userId deviceId idempotencyKey muted raw =>
    ⟨envFor r.out (process wiring.codecs wiring.mediaPipeline raw),
      .upload userId deviceId idempotencyKey muted⟩

/-- A call with a fresh key is the backend's, but for the bytes. -/
theorem serve_erases {r : Request} (hfresh : r.out.env.objectKey ∉ s.objects.map Object.key) :
    erase (serve wiring r s) = Backend.serve wiring.toConfig (eraseRequest wiring r) (erase s) := by
  obtain ⟨out, op⟩ := r
  cases op with
  | create req photo => exact congrArg Prod.snd (erased_create hfresh req photo)
  | renameCat id caller name => exact congrArg Prod.snd (erased_renameCat id caller name)
  | createOrdinaryUpdate req => exact congrArg Prod.snd (erased_createOrdinaryUpdate req)
  | createNeedsHelpUpdate catId userId deviceId category comment =>
    exact congrArg Prod.snd
      (erased_createNeedsHelpUpdate catId userId deviceId category comment)
  | correctOwnUpdate catId updateId userId correction =>
    exact congrArg Prod.snd (erased_correctOwnUpdate catId updateId userId correction)
  | upload userId deviceId idempotencyKey muted raw =>
    exact congrArg Prod.snd (erased_upload hfresh userId deviceId idempotencyKey muted raw)

end Tekir.GateErasure
