import Tekir.ContentUses
import Tekir.ContentRuns
import Tekir.ProgramTraces

/-!
# What content calls are told before they write

A call asks for a write only after a read has answered that it may: the cat is there, the
medium is the author's own, the device is one of the recipients. What a listing returns is
what its statement answered.
-/
namespace Tekir.ContentGates
open Table Schema Statements AccountQueries CatQueries UpdateQueries NotificationQueries
  Environment ReadQueries ContentWrites ContentQueries ContentCalls ContentUses ContentRuns Programs
  Interleaving Contracts Dialects
open Prog (Traced traced_bind traced_andThen traced_read traced_query traced_transaction)
open CatServices (CreateRequest OrdinaryUpdateRequest CatDetail)
open ReadServices (Reading CatMarker DuplicateCandidate discoverPage toCatMarker toDiscoverCat
  discoverFilter pageLimit)

abbrev Fact := Asked Query Query.Row Error

/-- The cats that an answer shows to be there. A list of followed cats does not: its statement
says nothing about their status. -/
def shows : Fact → List UUID
  | ⟨.catExists id _, .ok true⟩ => [id]
  | ⟨.getCatByID id _, .ok row⟩ => [id, row.id]
  | ⟨.createCat _ _, .ok row⟩ => [row.id]
  | ⟨.listCatsInBounds _ _, .ok rows⟩ => rows.map MarkerRow.id
  | ⟨.listNearbyCatsForDuplicateCheck _ _, .ok rows⟩ => rows.map fun r => r.1.id
  | ⟨.discover _ _ _ _ _ _, .ok rows⟩ => rows.map fun r => r.id
  | _ => []

def SawCat (id : UUID) (trace : List Fact) : Prop :=
  ∃ x ∈ trace, id ∈ shows x

/-- The cat that a statement writes to, or writes a row for. -/
def target : Query → Option UUID
  | .createUpdate arg => some arg.catId
  | .createFollow _ _ catId | .deleteFollow _ catId | .setCatCoverPhoto _ catId
  | .updateCatName _ catId | .updateCatLastUpdateAt _ catId | .createCatMedia _ catId _ _ =>
    some catId
  | .createReport row => if row.targetType = .cat then some row.targetId else none
  | _ => none

/-- What else has been answered before a statement that writes. -/
def Entitled (trace : List Fact) : Query → Prop
  | .createUpdate arg => ∀ id, arg.mediaId = some id → ∃ id' row,
    ⟨.getMediaByID id', .ok row⟩ ∈ trace ∧ row.id = id ∧
      arg.authorUserId = some row.uploadedByUserId
  | .setCatCoverPhoto mediaId catId =>
    ∃ row, ⟨.getCatMediaByCatAndMedia catId mediaId, .ok row⟩ ∈ trace
  | .createNotification _ deviceId catId updateId _ => ∃ skipped limit rows recipients,
    ⟨.claimNotificationOutboxBatch skipped limit, .ok rows⟩ ∈ trace ∧ ∃ row ∈ rows,
      row.needsHelp = true ∧ row.needsHelpEligible = true ∧ row.catId = catId ∧
        row.updateId = updateId ∧
          ⟨.listNeedsHelpRecipientDevices row.catId row.authorUserId, .ok recipients⟩ ∈ trace ∧
            ∃ rec ∈ recipients, rec.deviceId = deviceId
  | _ => True

def Told (trace : List Fact) (q : Query) : Prop :=
  (∀ id, target q = some id → SawCat id trace) ∧ Entitled trace q

theorem SawCat.mono {trace trace' : List Fact} {id : UUID} (h : trace ⊆ trace')
    (hcat : SawCat id trace) : SawCat id trace' := by
  obtain ⟨x, hx, hid⟩ := hcat
  exact ⟨x, h hx, hid⟩

theorem Told.mono {trace trace' : List Fact} (h : trace ⊆ trace') {q : Query} (hq : Told trace q) :
    Told trace' q := by
  refine ⟨fun id hid => (hq.1 id hid).mono h, ?_⟩
  have hentitled := hq.2
  cases q with
  | createUpdate arg =>
    intro id hid
    obtain ⟨id', row, hrow, howner⟩ := hentitled id hid
    exact ⟨id', row, h hrow, howner⟩
  | setCatCoverPhoto mediaId catId =>
    obtain ⟨row, hrow⟩ := hentitled
    exact ⟨row, h hrow⟩
  | createNotification id deviceId catId updateId now =>
    obtain ⟨skipped, limit, rows, recipients, hrows, row, hrow, hneeds, heligible, hcat, hupdate,
      hrecipients, hrec⟩ := hentitled
    exact ⟨skipped, limit, rows, recipients, h hrows, row, hrow, hneeds, heligible, hcat, hupdate,
      h hrecipients, hrec⟩
  | _ => trivial

/-- The statements that a call must not ask unprepared. -/
def gated : Query → Bool
  | .createNotification _ _ _ _ _ => true
  | q => (target q).isSome

theorem told_of_plain {trace : List Fact} {q : Query} (hq : gated q = false) : Told trace q := by
  have htarget : target q = none := by
    cases q <;> first | rfl | simpa [gated] using hq
  constructor
  · intro id hid
    rw [htarget] at hid
    cases hid
  · cases q <;> trivial

theorem plain_of_reads {q : Query} (hq : q.Reads = true) : gated q = false := by
  cases q <;> first | rfl | cases hq

theorem told_of_reads {trace : List Fact} {q : Query} (hq : q.Reads = true) : Told trace q :=
  told_of_plain (plain_of_reads hq)

/-- A statement about a cat that is there, with nothing else to be told. -/
theorem told_of_target {trace : List Fact} {q : Query} {id : UUID} (hq : target q = some id)
    (hcat : SawCat id trace) (hentitled : Entitled trace q) : Told trace q :=
  ⟨fun _ hid => Option.some.inj (hq.symm.trans hid) ▸ hcat, hentitled⟩

/-- The cats that the result of a call shows. -/
def shown : Op → Except Error Answer → List UUID
  | .listNearby _ _ _, .ok (.markers markers) => markers.map CatMarker.id
  | .listNearbyDuplicates _ _, .ok (.candidates candidates) => candidates.map DuplicateCandidate.id
  | .listDiscover _ _ _ _ _ _, .ok (.discovered page) => page.items.map fun c => c.id
  | .getCatDetail _ _ _, .ok (.cat detail) | .createCat _ _, .ok (.cat detail)
  | .setCoverPhoto _ _ _ _, .ok (.cat detail) | .renameCat _ _ _ _, .ok (.cat detail) =>
    [detail.id]
  | .listCatUpdates _ id _ _ _, .ok (.updates _) => [id]
  | .listCatMedia id _, .ok (.gallery _) => [id]
  | _, _ => []

/-- What every call is told, and whose cats its result shows. -/
def gates : Contract Write Query Query.Row Error Op (Except Error Answer) where
  asks _ l q := Told l.trace q
  returns o l r := ∀ id ∈ shown o r, SawCat id l.trace

section Rules

variable {α β : Type} {post : List Fact → α → Prop} {q : Query} {trace : List Fact}

/-- Every write of this part is told. -/
abbrev Tells (post : List Fact → α → Prop) (p : Prog Query Query.Row Error α) (trace : List Fact) :
    Prop :=
  p.Traced Told post trace

/-- A part whose writes are told from the start, whatever its statements answer. -/
theorem tells_of_uses {p : Prog Query Query.Row Error α} (hp : p.Uses (Told trace))
    (hpost : ∀ trace' a, trace ⊆ trace' → post trace' a) : Tells post p trace :=
  Prog.traced_of_uses (fun _ _ hsub hq => hq.mono hsub) hp hpost

/-- A part that asks no gated statement. -/
theorem tells_of_plain {p : Prog Query Query.Row Error α} (hp : p.Uses fun q => gated q = false)
    (hpost : ∀ trace' a, trace ⊆ trace' → post trace' a) : Tells post p trace :=
  tells_of_uses (hp.mono fun _ => told_of_plain) hpost

/-- One statement, and the rest with its row. -/
theorem tells_next {q : Query} {p : Script q.Row} {f : q.Row → Script β}
    {post : List Fact → Except Error β → Prop}
    (hp : Tells (fun t r => trace ⊆ t ∧ ⟨q, r⟩ ∈ t) p trace)
    (h : ∀ t a, trace ⊆ t → ⟨q, .ok a⟩ ∈ t → Tells post (f a) t)
    (herror : ∀ t e, trace ⊆ t → post t (.error e)) : Tells post (p.andThen f) trace := by
  refine traced_andThen (hp.mono fun t r _ hr => ⟨fun a ha => ?_, fun e _ => herror t e hr.1⟩)
  exact h t a hr.1 (ha ▸ hr.2)

theorem tells_readOnce (hq : q.Reads = true) :
    Tells (fun t r => trace ⊆ t ∧ ⟨q, r⟩ ∈ t) (readOnce q) trace :=
  traced_read (told_of_reads hq) fun r => ⟨List.subset_append_left _ _, by simp⟩

theorem tells_ask (hq : Told trace q) :
    Tells (fun t r => trace ⊆ t ∧ ⟨q, r⟩ ∈ t) (ask q) trace :=
  traced_query hq fun r => ⟨List.subset_append_left _ _, by simp⟩

theorem tells_writeOnce (hq : Told trace q)
    {post : List Fact → Except Error q.Row → Prop} (h : ∀ t r, trace ⊆ t → post t r) :
    Tells post (writeOnce q) trace :=
  tells_of_uses (writeOnce_uses hq) h

/-- A row that is missing is an error of the service. -/
theorem tells_orElse {missing : Error} (hq : q.Reads = true) :
    Tells (fun t r => trace ⊆ t ∧ ∀ a, r = .ok a → ⟨q, .ok a⟩ ∈ t) (orElse missing (readOnce q))
      trace := by
  refine traced_bind.mpr ((tells_readOnce hq).mono fun t r _ hr => ?_)
  split
  · exact ⟨hr.1, nofun⟩
  · exact ⟨hr.1, fun a ha => ha ▸ hr.2⟩

theorem tells_orElse_andThen {missing : Error} {f : q.Row → Script β}
    {post : List Fact → Except Error β → Prop} (hq : q.Reads = true)
    (h : ∀ t a, trace ⊆ t → ⟨q, .ok a⟩ ∈ t → Tells post (f a) t)
    (herror : ∀ t e, trace ⊆ t → post t (.error e)) :
    Tells post ((orElse missing (readOnce q)).andThen f) trace := by
  refine traced_andThen ((tells_orElse hq).mono fun t r _ hr => ⟨fun a ha => ?_, fun e _ => ?_⟩)
  · exact h t a hr.1 (hr.2 a ha)
  · exact herror t e hr.1

theorem tells_check {x : Except Error α} {f : α → Script β}
    {post : List Fact → Except Error β → Prop} (h : ∀ a, x = .ok a → Tells post (f a) trace)
    (herror : ∀ e, x = .error e → post trace (.error e)) :
    Tells post ((check x).andThen f) trace := by
  cases x with
  | error e => exact herror e rfl
  | ok a => exact h a rfl

theorem tells_reply {f : α → Answer} {p : Script α}
    {post : List Fact → Except Error Answer → Prop}
    (h : Tells (fun t r => (∀ a, r = .ok a → post t (.ok (f a))) ∧
      ∀ e, r = .error e → post t (.error e)) p trace) : Tells post (reply f p) trace :=
  traced_andThen h

theorem tells_requireCat {id : UUID} {viewer : Option UUID} {f : Unit → Script β}
    {post : List Fact → Except Error β → Prop}
    (h : ∀ t, trace ⊆ t → SawCat id t → Tells post (f ()) t)
    (herror : ∀ t e, trace ⊆ t → post t (.error e)) :
    Tells post ((requireCat id viewer).andThen f) trace := by
  unfold requireCat
  rw [Prog.andThen_assoc]
  refine tells_next (tells_readOnce rfl) (fun t there hsub hmem => ?_) herror
  cases there with
  | true => exact h t hsub ⟨_, hmem, List.mem_singleton.mpr rfl⟩
  | false => exact herror t _ hsub

end Rules

section Calls

variable {trace : List Fact} {α : Type}

/-- What a part ends with, if it ends with a value. -/
def Finds (P : α → List Fact → Prop) (t : List Fact) (r : Except Error α) : Prop :=
  ∀ a, r = .ok a → P a t

theorem finds_ok {P : α → List Fact → Prop} {t : List Fact} {a : α} (h : P a t) :
    Finds P t (.ok a) := by
  intro a' ha
  cases ha
  exact h

theorem finds_error {P : α → List Fact → Prop} (t : List Fact) (e : Error) :
    Finds P t (.error e) := by
  intro a ha
  cases ha

theorem getCatDetail_tells (clock : Instant) (id : UUID) (caller : Option UUID) :
    Tells (Finds fun detail t => SawCat detail.id t) (getCatDetail clock id caller)
      trace := by
  refine tells_orElse_andThen rfl (fun t row _ hrow => ?_) fun t e _ => finds_error t e
  refine tells_next (tells_readOnce rfl) (fun t' count hsub _ => finds_ok ?_)
    fun t e _ => finds_error t e
  exact ⟨_, hsub hrow, List.mem_cons_of_mem _ (List.mem_singleton.mpr rfl)⟩

theorem listNearby_tells (clock : Instant) (bounds : Bounds) (caller : Option UUID) :
    Tells (Finds fun markers t => ∀ id ∈ markers.map CatMarker.id, SawCat id t)
      (listNearby clock bounds caller) trace := by
  refine tells_check (fun _ _ => ?_) fun e _ => finds_error _ e
  refine tells_next (tells_readOnce rfl) (fun t rows _ hrows => finds_ok fun id hid => ?_)
    fun t e _ => finds_error t e
  refine ⟨_, hrows, ?_⟩
  simpa [shows, toCatMarker] using hid

theorem listNearbyDuplicates_tells (point : Point) (caller : Option UUID) :
    Tells (Finds fun found t => ∀ id ∈ found.map DuplicateCandidate.id, SawCat id t)
      (listNearbyDuplicates point caller) trace := by
  unfold ContentCalls.listNearbyDuplicates
  split
  · refine tells_next (tells_readOnce rfl) (fun t rows _ hrows => finds_ok fun id hid => ?_)
      fun t e _ => finds_error t e
    refine ⟨_, hrows, ?_⟩
    simpa [shows] using hid
  · exact finds_error _ _

theorem mem_discoverPage {read : Reading} {clock : Instant} {limit : ℕ} {rows : List DistanceRow}
    {id : UUID} (h : id ∈ (discoverPage read clock limit rows).items.map fun c => c.id) :
    id ∈ rows.map fun r => r.id := by
  unfold discoverPage at h
  split at h
  · obtain ⟨c, hc, rfl⟩ := List.mem_map.mp h
    obtain ⟨r, hr, rfl⟩ := List.mem_map.mp hc
    exact List.mem_map.mpr ⟨r, List.mem_of_mem_take hr, rfl⟩
  · obtain ⟨c, hc, rfl⟩ := List.mem_map.mp h
    obtain ⟨r, hr, rfl⟩ := List.mem_map.mp hc
    exact List.mem_map.mpr ⟨r, hr, rfl⟩

theorem listDiscover_tells (read : Reading) (clock : Instant) (filter : String) (point : Point)
    (cursor : Option String) (limit : ℤ) (caller : Option UUID) :
    Tells (Finds fun page t => ∀ id ∈ page.items.map (fun c => c.id), SawCat id t)
      (listDiscover read clock filter point cursor limit caller) trace := by
  unfold ContentCalls.listDiscover
  split
  · exact finds_error _ _
  · split
    · refine tells_check (fun limit _ => tells_check (fun after _ => ?_) fun e _ => finds_error _ e)
        fun e _ => finds_error _ e
      refine tells_next (tells_readOnce rfl) (fun t rows _ hrows => finds_ok fun id hid => ?_)
        fun t e _ => finds_error t e
      exact ⟨_, hrows, mem_discoverPage hid⟩
    · exact finds_error _ _

theorem listCatUpdates_tells (read : Reading) (clock : Instant) (catId : UUID)
    (cursor : Option String) (limit : ℤ) (caller : Option UUID) :
    Tells (Finds fun _ t => SawCat catId t)
      (listCatUpdates read clock catId cursor limit caller) trace := by
  refine tells_check (fun limit _ => tells_check (fun before _ => ?_) fun e _ => finds_error _ e)
    fun e _ => finds_error _ e
  refine tells_requireCat (fun t _ hcat => ?_) fun t e _ => finds_error t e
  exact tells_next (tells_readOnce rfl) (fun t' _ hsub _ => finds_ok (hcat.mono hsub)) fun t e _ => finds_error t e

theorem listCatMedia_tells (catId : UUID) (caller : Option UUID) :
    Tells (Finds fun _ t => SawCat catId t) (listCatMedia catId caller) trace := by
  refine tells_requireCat (fun t _ hcat => ?_) fun t e _ => finds_error t e
  exact tells_next (tells_readOnce rfl) (fun t' _ hsub _ => finds_ok (hcat.mono hsub)) fun t e _ => finds_error t e

/-- The owner's cat has been seen. -/
theorem tells_ownedCat {id caller : UUID} {β : Type} {f : CatRow → Script β}
    {post : List Fact → Except Error β → Prop}
    (h : ∀ t row, trace ⊆ t → SawCat id t → Tells post (f row) t)
    (herror : ∀ t e, trace ⊆ t → post t (.error e)) :
    Tells post ((ownedCat id caller).andThen f) trace := by
  unfold ownedCat
  rw [Prog.andThen_assoc]
  refine tells_orElse_andThen rfl (fun t row hsub hrow => ?_) herror
  split
  · exact h t row hsub ⟨_, hrow, List.mem_cons_self⟩
  · exact herror t _ hsub

theorem setCoverPhoto_tells (env : Env) (id caller : UUID) (mediaId : Option UUID) :
    Tells (Finds fun detail t => SawCat detail.id t)
      (setCoverPhoto env id caller mediaId) trace := by
  refine tells_ownedCat (fun t _ _ hcat => ?_) fun t e _ => finds_error t e
  cases mediaId with
  | none => exact finds_error _ _
  | some m =>
    refine tells_orElse_andThen rfl (fun t' entry hsub hentry => ?_) fun t e _ => finds_error t e
    have htold : Told t' (.setCatCoverPhoto m id) :=
      told_of_target rfl (hcat.mono hsub) ⟨entry, hentry⟩
    refine traced_andThen (tells_writeOnce htold fun t r _ => ⟨fun _ _ => ?_, fun e _ => finds_error t e⟩)
    exact getCatDetail_tells env.clock id (some caller)

theorem renameCat_tells (env : Env) (id caller : UUID) (name : String) :
    Tells (Finds fun detail t => SawCat detail.id t)
      (renameCat env id caller name) trace := by
  refine tells_ownedCat (fun t _ _ hcat => ?_) fun t e _ => finds_error t e
  refine tells_check (fun trimmed _ => ?_) fun e _ => finds_error _ e
  have htold : Told t (.updateCatName trimmed id) := told_of_target rfl hcat trivial
  refine traced_andThen (tells_writeOnce htold fun t r _ => ⟨fun _ _ => ?_, fun e _ => finds_error t e⟩)
  exact getCatDetail_tells env.clock id (some caller)

/-- What a transaction finds it has found when it is committed. -/
theorem tells_transaction {P : α → List Fact → Prop} {p : Script α} (h : Tells (Finds P) p trace) :
    Tells (Finds P) (transaction p) trace := by
  refine traced_transaction (h.mono fun t r _ hr => ⟨fun a ha => ?_, fun e _ => finds_error t e⟩)
  exact ⟨finds_ok (hr a ha), finds_error t _⟩

/-- A cat that has been created is there. -/
theorem storeCat_tells (env : Env) (media : Medium) (cat : CreateCatParams) :
    Tells (Finds fun row t => SawCat row.id t) (storeCat env media cat) trace := by
  refine tells_transaction (tells_next (tells_ask (told_of_plain rfl)) (fun t m _ _ => ?_)
    fun t e _ => finds_error t e)
  refine tells_next (tells_ask (told_of_plain rfl)) (fun t' row _ hrow => ?_)
    fun t e _ => finds_error t e
  have hcat : SawCat row.id t' := ⟨_, hrow, List.mem_singleton.mpr rfl⟩
  have htold : Told t' (.createCatMedia (env.uuid 2) row.id m.id row.createdAt) :=
    told_of_target rfl hcat trivial
  exact tells_next (tells_ask htold) (fun t'' _ hsub _ => finds_ok (hcat.mono hsub))
    fun t e _ => finds_error t e

theorem earlierCat_tells (env : Env) (req : CreateRequest) :
    Tells (Finds fun detail t => SawCat detail.id t) (earlierCat env req) trace := by
  unfold earlierCat
  split
  · exact finds_error _ _
  · refine tells_next (tells_readOnce rfl) (fun t existing _ _ => ?_) fun t e _ => finds_error t e
    exact getCatDetail_tells env.clock existing.id (some req.userId)

theorem recoverFromCreateCatFailure_tells (env : Env) (req : CreateRequest) (e : Error) :
    Tells (Finds fun detail t => SawCat detail.id t) (recoverFromCreateCatFailure env req e)
      trace := by
  have hearlier : Tells (Finds fun detail t => SawCat detail.id t)
      (if e = .noRows ∧ req.idempotencyKey.isSome then earlierCat env req else .ret (.error e))
      trace := by
    split
    · exact earlierCat_tells env req
    · exact finds_error _ _
  refine traced_bind.mpr (hearlier.mono fun t r _ hr => traced_bind.mpr ?_)
  refine tells_of_plain (deleteObject_uses rfl) fun t' _ hsub detail hdetail => ?_
  exact (hr detail hdetail).mono hsub

theorem create_tells (env : Env) (req : CreateRequest) :
    Tells (Finds fun detail t => SawCat detail.id t) (create env req) trace := by
  refine traced_bind.mpr ((earlierCat_tells env req).mono fun t r _ hr => ?_)
  split
  · exact hr
  · refine traced_andThen (tells_of_plain (prepareCreate_uses (fun _ => plain_of_reads) env req)
      fun t r _ => ⟨fun contentType _ => ?_, fun e _ => finds_error _ e⟩)
    refine traced_andThen (tells_of_plain (putObject_uses rfl) fun t r _ => ⟨fun url _ => ?_,
      fun e _ => finds_error _ e⟩)
    refine traced_bind.mpr ((storeCat_tells env _ _).mono fun t r _ hrow => ?_)
    split
    · exact recoverFromCreateCatFailure_tells env req _
    · exact finds_ok (hrow _ rfl)
  · exact hr

theorem upload_uses (env : Env) (userId : UUID) (deviceId : Option UUID) (key : Option String)
    (muted : Bool) : (upload env userId deviceId key muted).Uses fun q => gated q = false := by
  refine Prog.uses_bind (earlierMedia_uses (fun _ => plain_of_reads) userId key) fun r => ?_
  split
  · trivial
  · refine Prog.uses_andThen trivial fun contentType => ?_
    refine Prog.uses_andThen (putObject_uses rfl) fun url => ?_
    refine Prog.uses_bind (writeOnce_uses rfl) fun r => ?_
    split
    · refine Prog.uses_bind ?_ fun result => ?_
      · split
        · exact earlierMedia_uses (fun _ => plain_of_reads) userId key
        · trivial
      · exact Prog.uses_bind (deleteObject_uses rfl) fun _ => trivial
    · trivial
  · trivial

/-- The update is told of; the rest of its transaction needs no more. -/
theorem storeOrdinaryUpdate_uses {env : Env} {arg : Store.CreateOrdinaryUpdateParams}
    (hcat : SawCat arg.catId trace) (h : Told trace (.createUpdate arg.row)) :
    (storeOrdinaryUpdate env arg).Uses (Told trace) := by
  have hplain : ∀ {q : Query}, gated q = false → Told trace q := told_of_plain
  refine Prog.uses_transaction (Prog.uses_andThen (ask_uses h) fun id => ?_)
  refine Prog.uses_andThen (createStatuses_uses fun _ _ => hplain rfl) fun _ => ?_
  refine Prog.uses_andThen (ask_uses (told_of_target rfl hcat trivial)) fun _ => ?_
  refine Prog.uses_andThen ?_ fun _ => ?_
  · unfold linkGallery
    split
    · trivial
    · refine Prog.uses_bind (ask_uses (told_of_target rfl hcat trivial)) fun r => ?_
      split <;> trivial
  · exact Prog.uses_andThen (ask_uses (hplain rfl)) fun _ => trivial

/-- An attached medium is the author's own. -/
theorem tells_resolveOwnMedia {mediaId : Option (Option UUID)} {author : UUID} {β : Type}
    {f : Option Medium → Script β} {post : List Fact → Except Error β → Prop}
    (h : ∀ t media, trace ⊆ t → (∀ m, media = some m → ∃ id,
      ⟨.getMediaByID id, .ok m⟩ ∈ t ∧ m.uploadedByUserId = author) → Tells post (f media) t)
    (herror : ∀ t e, trace ⊆ t → post t (.error e)) :
    Tells post ((resolveOwnMedia mediaId author).andThen f) trace := by
  unfold resolveOwnMedia
  split
  · exact h _ none (List.Subset.refl _) nofun
  · exact herror _ _ (List.Subset.refl _)
  · rename_i id
    rw [Prog.andThen_assoc]
    refine tells_orElse_andThen rfl (fun t m hsub hm => ?_) herror
    split
    · rename_i howner
      refine h t (some m) hsub fun m' hm' => ?_
      cases hm'
      exact ⟨id, hm, howner⟩
    · exact herror t _ hsub

theorem prepareOrdinaryUpdate_tells {env : Env} {req : OrdinaryUpdateRequest} {catId : UUID} :
    Tells (Finds fun prepared t => SawCat prepared.1.catId t ∧ Told t (.createUpdate prepared.1.row))
      (prepareOrdinaryUpdate env req catId) trace := by
  refine tells_check (fun statuses _ => ?_) fun e _ => finds_error _ e
  refine tells_requireCat (fun t _ hcat => ?_) fun t e _ => finds_error t e
  refine tells_resolveOwnMedia (fun t' media hsub hmedia => ?_) fun t e _ => finds_error t e
  have hcat' : SawCat catId t' := hcat.mono hsub
  refine finds_ok ⟨hcat', told_of_target rfl hcat' fun id hid => ?_⟩
  obtain ⟨m, hm, rfl⟩ := Option.map_eq_some_iff.mp hid
  obtain ⟨id', hmem, howner⟩ := hmedia m hm
  exact ⟨id', m, hmem, rfl, congrArg some howner.symm⟩

theorem createOrdinaryUpdate_tells (env : Env) (req : OrdinaryUpdateRequest) :
    Tells (fun _ _ => True) (ContentCalls.createOrdinaryUpdate env req) trace := by
  have hreads : ∀ {t : List Fact} (q : Query), q.Reads = true → Told t q := fun _ => told_of_reads
  unfold ContentCalls.createOrdinaryUpdate
  split
  · trivial
  · refine traced_bind.mpr (tells_of_uses (earlierUpdate_uses hreads env req) fun t r _ => ?_)
    split
    · trivial
    · refine traced_andThen (prepareOrdinaryUpdate_tells.mono fun t r _ hr =>
        ⟨fun prepared hprepared => ?_, fun _ _ => trivial⟩)
      obtain ⟨hcat, htold⟩ := hr prepared hprepared
      refine tells_of_uses (Prog.uses_bind (storeOrdinaryUpdate_uses hcat htold) fun r => ?_)
        fun _ _ _ => trivial
      split
      · exact recoverOrdinaryUpdate_uses hreads env req _
      · exact Prog.uses_andThen (authorDisplayNameFor_uses hreads _) fun _ => trivial
    · trivial

theorem createNeedsHelpUpdate_tells (env : Env) (catId : Option UUID) (userId : UUID)
    (deviceId : Option UUID) (category : String) (comment : Option String) :
    Tells (fun _ _ => True)
      (ContentCalls.createNeedsHelpUpdate env catId userId deviceId category comment) trace := by
  refine tells_check (fun found _ => ?_) fun _ _ => trivial
  refine tells_requireCat (fun t _ hcat => ?_) fun _ _ _ => trivial
  have htold : Told t
      (.createUpdate (needsHelpParams env found.1 userId deviceId found.2 comment).row) :=
    told_of_target rfl hcat fun id hid => by cases hid
  refine tells_of_uses (Prog.uses_andThen (storeOrdinaryUpdate_uses hcat htold) fun id => ?_)
    fun _ _ _ => trivial
  exact Prog.uses_andThen (authorDisplayNameFor_uses (fun _ => told_of_reads) _) fun _ => trivial

theorem follow_tells (catId : Option UUID) (userId : UUID) (deviceId : Option UUID) :
    Tells (fun _ _ => True) (follow catId userId deviceId) trace := by
  cases catId with
  | none => trivial
  | some cat =>
    refine tells_requireCat (fun t _ hcat => ?_) fun _ _ _ => trivial
    have htold : Told t (.createFollow userId deviceId cat) := told_of_target rfl hcat trivial
    exact tells_writeOnce htold fun _ _ _ => trivial

theorem unfollow_tells (catId : Option UUID) (userId : UUID) :
    Tells (fun _ _ => True) (unfollow catId userId) trace := by
  cases catId with
  | none => trivial
  | some cat =>
    refine tells_requireCat (fun t _ hcat => ?_) fun _ _ _ => trivial
    have htold : Told t (.deleteFollow userId cat) := told_of_target rfl hcat trivial
    exact tells_writeOnce htold fun _ _ _ => trivial

/-- A target that is there has been seen, if it is a cat. -/
theorem targetExists_tells (targetType : TargetType) (targetId reporter : UUID) :
    Tells (Finds fun there t => there = true → targetType = .cat → SawCat targetId t)
      (targetExists targetType targetId reporter) trace := by
  cases targetType with
  | cat =>
    refine (tells_readOnce rfl).mono fun t r _ hr there hthere h _ => ?_
    subst h hthere
    exact ⟨_, hr.2, List.mem_singleton.mpr rfl⟩
  | update => exact tells_of_plain (readOnce_uses rfl) fun _ _ _ _ _ _ => nofun
  | media =>
    refine tells_of_plain (Prog.uses_bind (readOnce_uses rfl) fun r => ?_) fun _ _ _ _ _ _ => nofun
    split <;> trivial

theorem createReport_tells (env : Env) (reporter : UUID) (targetType : String)
    (targetId : Option UUID) (reason : String) (note : Option String) :
    Tells (fun _ _ => True) (createReport env reporter targetType targetId reason note) trace := by
  refine tells_check (fun row _ => ?_) fun _ _ => trivial
  refine traced_andThen ((targetExists_tells row.targetType row.targetId reporter).mono
    fun t r _ hr => ⟨fun there hthere => ?_, fun _ _ => trivial⟩)
  split
  · rename_i h
    have htold : Told t (.createReport row) := by
      refine ⟨fun id hid => ?_, trivial⟩
      simp only [target] at hid
      split at hid
      · cases hid
        exact hr there hthere h (by assumption)
      · cases hid
    refine traced_bind.mpr (tells_writeOnce htold fun t' r _ => ?_)
    split
    · trivial
    · exact tells_of_uses (readOnce_uses (told_of_reads rfl)) fun _ _ _ => trivial
    · trivial
  · trivial

/-- Two parts of which nothing is said. -/
theorem tells_then {β : Type} {p : Script α} {f : α → Script β} (hp : Tells (fun _ _ => True) p trace)
    (hf : ∀ t a, trace ⊆ t → Tells (fun _ _ => True) (f a) t) :
    Tells (fun _ _ => True) (p.andThen f) trace :=
  traced_andThen (hp.mono fun t _ hsub _ => ⟨fun a _ => hf t a hsub, fun _ _ => trivial⟩)

/-- The row is one that the call has claimed. -/
def Claimed (row : ClaimedRow) (t : List Fact) : Prop :=
  ∃ skipped limit rows, ⟨.claimNotificationOutboxBatch skipped limit, .ok rows⟩ ∈ t ∧ row ∈ rows

/-- Dispatch writes to the inboxes of those it has listed. -/
theorem deliverAll_uses {env : Env} {row : ClaimedRow} {recipients : List Recipient}
    (h : ∀ rec ∈ recipients, ∀ id,
      Told trace (.createNotification id rec.deviceId row.catId row.updateId env.now))
    (drawn : ℕ) : (deliverAll env row recipients drawn).Uses (Told trace) := by
  induction recipients generalizing drawn with
  | nil => trivial
  | cons rec left ih =>
    refine Prog.uses_andThen ?_ fun _ =>
      ih (fun r hr => h r (List.mem_cons_of_mem _ hr)) (drawn + 1)
    refine Prog.uses_bind (ask_uses (h rec List.mem_cons_self _)) fun r => ?_
    split
    · trivial
    · trivial
    · split
      · trivial
      · split
        · trivial
        · refine Prog.uses_andThen (ask_uses (told_of_plain rfl)) fun _ => ?_
          split
          · exact ask_uses (told_of_plain rfl)
          · trivial
          · trivial

theorem dispatchNeedsHelp_tells {env : Env} {row : ClaimedRow} (hrow : Claimed row trace)
    (hneeds : row.needsHelp = true) (heligible : row.needsHelpEligible = true) (drawn : ℕ) :
    Tells (fun _ _ => True) (dispatchNeedsHelp env row drawn) trace := by
  refine tells_next (tells_ask (told_of_reads rfl)) (fun t recipients hsub hmem => ?_)
    fun _ _ _ => trivial
  obtain ⟨skipped, limit, rows, hrows, hin⟩ := hrow
  refine tells_of_uses (deliverAll_uses (fun rec hrec id => ⟨nofun, ?_⟩) drawn) fun _ _ _ => trivial
  exact ⟨skipped, limit, rows, recipients, hsub hrows, row, hin, hneeds, heligible, rfl, rfl, hmem,
    rec, hrec, rfl⟩

theorem dispatchRows_tells {env : Env} (rows : List ClaimedRow) (drawn : ℕ)
    (hrows : ∀ row ∈ rows, Claimed row trace) :
    Tells (fun _ _ => True) (dispatchRows env rows drawn) trace := by
  induction rows generalizing drawn trace with
  | nil => trivial
  | cons row left ih =>
    refine tells_then (tells_then ?_ fun t drawn _ => ?_) fun t drawn hsub => ih drawn fun row' hrow' => ?_
    · split
      · rename_i hneeds
        rw [Bool.and_eq_true] at hneeds
        exact dispatchNeedsHelp_tells (hrows row List.mem_cons_self) hneeds.1 hneeds.2 drawn
      · trivial
    · exact tells_of_plain (Prog.uses_andThen (ask_uses rfl) fun _ => trivial) fun _ _ _ => trivial
    · obtain ⟨skipped, limit, rows, hmem, hin⟩ := hrows row' (List.mem_cons_of_mem _ hrow')
      exact ⟨skipped, limit, rows, hsub hmem, hin⟩

theorem dispatchPending_tells (cfg : Config) (env : Env) (skipped : List UUID) :
    Tells (fun _ _ => True) (dispatchPending cfg env skipped) trace := by
  have hbody : Tells (fun _ _ => True)
      ((ask (.claimNotificationOutboxBatch skipped cfg.batchSize)).andThen fun rows =>
        (dispatchRows env rows 0).andThen fun _ => .ret (.ok rows.length)) trace := by
    refine tells_next (tells_ask (told_of_plain rfl)) (fun t rows _ hmem => ?_) fun _ _ _ => trivial
    refine tells_then (dispatchRows_tells rows 0 fun row hrow => ?_) fun _ _ _ => trivial
    exact ⟨_, _, rows, hmem, hrow⟩
  exact traced_transaction (hbody.mono fun _ _ _ _ => ⟨fun _ _ => ⟨trivial, trivial⟩, fun _ _ => trivial⟩)

end Calls

section Met

variable {cfg : Config} {read : Reading} {given : List UUID} {o : Op} {α : Type} {f : α → Answer}
  {p : Script α}

theorem shown_error (o : Op) (e : Error) : shown o (.error e) = [] := by
  cases o <;> rfl

/-- A call whose result shows what it has found. -/
theorem meets_finds {P : α → List Fact → Prop} (hp : Tells (Finds P) p [])
    (ho : ∀ a t, P a t → ∀ id ∈ shown o (.ok (f a)), SawCat id t) :
    (reply f p).Meets (system cfg read given) (gates.asks o) (gates.commits o) (gates.returns o)
      {} := by
  have htells : Tells (fun t r => ∀ id ∈ shown o r, SawCat id t) (reply f p) [] := by
    refine tells_reply (hp.mono fun t r _ hr => ⟨fun a ha => ho a t (hr a ha), fun e _ => ?_⟩)
    simp [shown_error]
  exact Traced.meets (l := {}) htells

/-- A call whose result shows no cats. -/
theorem meets_silent (hp : Tells (fun _ _ => True) p []) (ho : ∀ a, shown o (.ok (f a)) = []) :
    (reply f p).Meets (system cfg read given) (gates.asks o) (gates.commits o) (gates.returns o)
      {} := by
  refine meets_finds (P := fun _ _ => True) (hp.mono fun _ _ _ _ _ _ => trivial) fun a t _ => ?_
  simp [ho a]

/-- A call that asks no gated statement, and whose result shows no cats. -/
theorem meets_plain (hp : p.Uses fun q => gated q = false) (ho : ∀ a, shown o (.ok (f a)) = []) :
    (reply f p).Meets (system cfg read given) (gates.asks o) (gates.commits o) (gates.returns o)
      {} :=
  meets_silent (tells_of_plain hp fun _ _ _ => trivial) ho

theorem gates_met : gates.Met (system cfg read given) (program cfg read) := by
  have hreads : ∀ q : Query, q.Reads = true → gated q = false := fun _ => plain_of_reads
  have hdetail : ∀ {o : Op} {p : Script CatDetail}, Tells (Finds fun d t => SawCat d.id t) p [] →
      (∀ detail, shown o (.ok (.cat detail)) = [detail.id]) →
      (reply .cat p).Meets (system cfg read given) (gates.asks o) (gates.commits o) (gates.returns o)
        {} := by
    intro o p hp ho
    refine meets_finds hp fun detail t hcat id hid => ?_
    rw [ho detail] at hid
    exact List.mem_singleton.mp hid ▸ hcat
  intro o
  cases o with
  | createCat env req => exact hdetail (create_tells env req) fun _ => rfl
  | upload env userId deviceId key muted =>
    exact meets_plain (upload_uses env userId deviceId key muted) fun _ => rfl
  | createOrdinaryUpdate env req =>
    exact meets_silent (createOrdinaryUpdate_tells env req) fun _ => rfl
  | createNeedsHelpUpdate env catId userId deviceId category comment =>
    exact meets_silent (createNeedsHelpUpdate_tells env catId userId deviceId category comment)
      fun _ => rfl
  | correctOwnUpdate env catId updateId userId correction =>
    refine meets_plain (correctOwnUpdate_uses hreads env catId updateId userId correction ?_)
      fun _ => rfl
    rintro params q - hq
    cases q <;> first | rfl | exact hq.elim
  | deleteOwnUpdate env catId updateId userId =>
    exact meets_plain (deleteOwnUpdate_uses hreads env catId updateId userId fun _ _ _ _ => rfl)
      fun _ => rfl
  | setCoverPhoto env catId caller mediaId =>
    exact hdetail (setCoverPhoto_tells env catId caller mediaId) fun _ => rfl
  | renameCat env catId caller name =>
    exact hdetail (renameCat_tells env catId caller name) fun _ => rfl
  | deleteCat catId caller => exact meets_plain (deleteCat_uses hreads catId caller rfl) fun _ => rfl
  | follow catId userId deviceId =>
    exact meets_silent (follow_tells catId userId deviceId) fun _ => rfl
  | unfollow catId userId => exact meets_silent (unfollow_tells catId userId) fun _ => rfl
  | report env reporter targetType targetId reason note =>
    exact meets_silent (createReport_tells env reporter targetType targetId reason note) fun _ => rfl
  | block blocker blocked =>
    exact meets_plain (block_uses hreads blocker blocked fun _ _ => rfl) fun _ => rfl
  | unblock blocker blocked =>
    exact meets_plain (unblock_uses blocker blocked fun _ _ => rfl) fun _ => rfl
  | dispatchPending env skipped => exact meets_silent (dispatchPending_tells cfg env skipped) fun _ => rfl
  | markRead env userId id => exact meets_plain (markRead_uses env userId id fun _ => rfl) fun _ => rfl
  | deleteAccount env userId =>
    exact meets_plain (deleteAccount_uses hreads env userId (fun _ _ => rfl) fun _ => rfl) fun _ => rfl
  | listNearby clock bounds caller =>
    exact meets_finds (listNearby_tells clock bounds caller) fun _ _ => id
  | listNearbyDuplicates point caller =>
    exact meets_finds (listNearbyDuplicates_tells point caller) fun _ _ => id
  | listDiscover clock filter point cursor limit caller =>
    exact meets_finds (listDiscover_tells read clock filter point cursor limit caller) fun _ _ => id
  | getCatDetail clock catId caller =>
    exact hdetail (getCatDetail_tells clock catId caller) fun _ => rfl
  | listCatUpdates clock catId cursor limit caller =>
    refine meets_finds (listCatUpdates_tells read clock catId cursor limit caller)
      fun _ t hcat id hid => ?_
    exact List.mem_singleton.mp hid ▸ hcat
  | listCatMedia catId caller =>
    refine meets_finds (listCatMedia_tells catId caller) fun _ t hcat id hid => ?_
    exact List.mem_singleton.mp hid ▸ hcat
  | listFollows clock userId =>
    refine meets_plain (listFollows_uses hreads clock userId) fun _ => rfl

end Met

end Tekir.ContentGates
