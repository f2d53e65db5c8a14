import Tekir.ContentCalls
import Tekir.Contracts

/-!
# Uploads and new cats

`MediaService.Upload` and `CatsService.Create` side by side, statement by statement. Both
store an object before its rows and delete it again if the rows are not written. What the
rest of the backend commits in between leaves their rows and their objects alone.
-/
namespace Tekir.Creations
open Table Schema Statements AccountQueries CatQueries Environment CatServices ReadServices
  ContentWrites ContentQueries ContentCalls Programs Interleaving Contracts Dialects

inductive Creation
  | upload (env : Env) (userId : UUID) (deviceId : Option UUID) (idempotencyKey : Option String)
      (muted : Bool)
  | cat (env : Env) (req : CreateRequest)

inductive Created
  | media (uploaded : Media)
  | cat (detail : CatDetail)

def program : Creation → Script Created
  | .upload env userId deviceId key muted =>
    (ContentCalls.upload env userId deviceId key muted).andThen fun m => .ret (.ok (.media m))
  | .cat env req => (ContentCalls.create env req).andThen fun c => .ret (.ok (.cat c))

def Creation.env : Creation → Env
  | .upload env _ _ _ _ | .cat env _ => env

def Creation.objectKey (o : Creation) : String :=
  o.env.objectKey

/-- What stays of a cat as long as its row is there. -/
structure SameCat (c c' : Cat) : Prop where
  id : c'.id = c.id
  createdByUserId : c'.createdByUserId = c.createdByUserId
  idempotencyKey : c'.idempotencyKey = c.idempotencyKey

instance (c c' : Cat) : Decidable (SameCat c c') :=
  decidable_of_iff (_ ∧ _ ∧ _) ⟨fun ⟨h₁, h₂, h₃⟩ => ⟨h₁, h₂, h₃⟩, fun ⟨h₁, h₂, h₃⟩ => ⟨h₁, h₂, h₃⟩⟩

theorem sameCat_refl (c : Cat) : SameCat c c :=
  ⟨rfl, rfl, rfl⟩

theorem SameCat.trans {c c' c'' : Cat} (h : SameCat c c') (h' : SameCat c' c'') : SameCat c c'' :=
  ⟨h'.id.trans h.id, h'.createdByUserId.trans h.createdByUserId,
    h'.idempotencyKey.trans h.idempotencyKey⟩

/-- What may be committed in between: no row of a creation goes, none is forged, and no object
with one of the generated keys is touched. -/
structure Beside (keys : List String) (w w' : World) : Prop where
  media : ∀ m ∈ w.db.tables.media, m ∈ w'.db.tables.media
  newMedia : ∀ m ∈ w'.db.tables.media, m ∈ w.db.tables.media ∨
    (m.idempotencyKey = none ∧ m.objectKey ∉ keys)
  cats : ∀ c ∈ w.db.tables.cats, ∃ c' ∈ w'.db.tables.cats, SameCat c c'
  newCats : ∀ c' ∈ w'.db.tables.cats, c'.idempotencyKey = none ∨
    ∃ c ∈ w.db.tables.cats, SameCat c c'
  objects : ∀ key ∈ keys, key ∈ w'.objects ↔ key ∈ w.objects

instance (keys : List String) (w w' : World) : Decidable (Beside keys w w') :=
  decidable_of_iff (_ ∧ _ ∧ _ ∧ _ ∧ _)
    ⟨fun ⟨h₁, h₂, h₃, h₄, h₅⟩ => ⟨h₁, h₂, h₃, h₄, h₅⟩,
      fun h => ⟨h.media, h.newMedia, h.cats, h.newCats, h.objects⟩⟩

/-- Any statement and any commit can be lost. -/
def system (cfg : Config) (read : Reading) (keys : List String) :
    Engine World Write Query Query.Row Error :=
  (dialect cfg read).engine true fun _ w w' => decide (Beside keys w w')

abbrev CreationLocal := Local Write Query Query.Row Error

abbrev Fact := Asked Query Query.Row Error

abbrev CreationCommit := Commit World Write Query Query.Row Error Creation

abbrev CreationDone := Done Write Query Query.Row Error Creation (Except Error Created)

abbrev CreationState (n : ℕ) :=
  State World Write Query Query.Row Error Creation (Except Error Created) n

abbrev CreationAction (n : ℕ) := Action World Creation n

/-- What `CreateMedia` of an upload writes. -/
def Creation.rows : Creation → ContentType → String → List Write
  | .upload env userId deviceId key muted, contentType, url =>
    [.medium (uploadedMedium env userId deviceId key muted contentType url)]
  | .cat env req, contentType, url =>
    [.medium (coverMedium env req contentType url),
     .cat (CreateCatParams.row { newCat env req with primaryPhotoId := some (env.uuid 0) } env.now),
     .catMedium
       { id := env.uuid 2, catId := env.uuid 1, mediaId := env.uuid 0, createdAt := env.now }]

/-- What the call answers that has written its rows. -/
def Creation.answer : Creation → ContentType → String → Created
  | .upload env userId deviceId key muted, contentType, url =>
    .media (toMedia (uploadedMedium env userId deviceId key muted contentType url))
  | .cat env req, _, url =>
    .cat { id := env.uuid 1, name := req.name.getD "", area := req.area, areaLabel := none
           primaryPhoto := some url, createdAt := env.now, lastUpdateAt := none }

/-- The call has read that its key already names what it answers. -/
def Found (trace : List Fact) : Creation → Created → Prop
  | .upload _ userId _ key _, .media m => ∃ k row, key = some k ∧
    ⟨.getMediaByIdempotencyKey userId k, .ok row⟩ ∈ trace ∧ m = toMedia row
  | .cat env req, .cat c => ∃ k row detail mediaCount, req.idempotencyKey = some k ∧
    ⟨.getCatByIdempotencyKey req.userId k, .ok row⟩ ∈ trace ∧
      ⟨.getCatByID row.id (some req.userId), .ok detail⟩ ∈ trace ∧
      c = toCatDetail env.clock (some req.userId) detail mediaCount
  | _, _ => False

/-- What was committed by a call that has given up after its object was stored. -/
def Creation.Removed (o : Creation) (l : CreationLocal) : Prop :=
  l.mine = [[.put o.objectKey], [.erased o.objectKey]] ∨ (l.mine = [[.put o.objectKey]] ∧
    (o.env.deletes o.objectKey = false ∨ ∃ r, ⟨.deleteObject o.objectKey, r⟩ ∈ l.trace))

/-- How a call ends: it has committed nothing, or the object and the rows, or the object, which
it then deletes. -/
def Ended (o : Creation) (l : CreationLocal) (r : Except Error Created) : Prop :=
  (∃ contentType url, l.mine = [[.put o.objectKey], o.rows contentType url] ∧
    r = .ok (o.answer contentType url)) ∨
  ((l.mine = [] ∨ o.Removed l) ∧ ∀ a, r = .ok a → Found l.trace o a)

def contract : Contract Write Query Query.Row Error Creation (Except Error Created) where
  asks _ l q := q.Reads = true → l.writes = []
  commits o l := l.writes = [.put o.objectKey] ∨ l.writes = [.erased o.objectKey] ∨
    ∃ contentType url, l.writes = o.rows contentType url
  returns := Ended

section Rules

variable {cfg : Config} {read : Reading} {keys : List String} {o : Creation} {q : Query}
  {α β : Type} {l : CreationLocal}

/-- A part of the call `o`. -/
abbrev Does (cfg : Config) (read : Reading) (keys : List String) (o : Creation)
    (post : CreationLocal → α → Prop) (p : Prog Query Query.Row Error α) (l : CreationLocal) : Prop :=
  p.Meets (system cfg read keys) (contract.asks o) (contract.commits o) post l

/-- No transaction is open, these batches are committed, and these answers are known. -/
structure Stands (mine : List (List Write)) (trace : List Fact) (l : CreationLocal) : Prop where
  writes : l.writes = []
  mine : l.mine = mine
  trace : trace ⊆ l.trace

theorem stands_self (hl : l.writes = []) : Stands l.mine l.trace l :=
  ⟨hl, rfl, List.Subset.refl _⟩

variable {mine : List (List Write)} {trace : List Fact}

theorem Stands.trans {l' : CreationLocal} (h : Stands mine trace l) (h' : Stands l.mine l.trace l') :
    Stands mine trace l' :=
  ⟨h'.writes, h'.mine.trans h.mine, List.Subset.trans h.trace h'.trace⟩

theorem readOnce_does (hl : l.writes = []) :
    Does cfg read keys o (fun l' r => Stands l.mine l.trace l' ∧ ⟨q, r⟩ ∈ l'.trace)
      (readOnce q) l := by
  refine Dialect.meets_read_of (fun _ _ => hl) (fun _ _ a ws _ => ?_) fun e => ?_
  all_goals exact ⟨⟨rfl, rfl, by simp⟩, by simp⟩

theorem does_bind {post : CreationLocal → β → Prop} {post' : CreationLocal → α → Prop}
    {p : Prog Query Query.Row Error α} {f : α → Prog Query Query.Row Error β}
    (hp : Does cfg read keys o post' p l)
    (hf : ∀ l' a, post' l' a → Does cfg read keys o post (f a) l') :
    Does cfg read keys o post (p.bind f) l :=
  Prog.meets_bind.mpr (hp.mono hf)

theorem does_andThen {post : CreationLocal → Except Error β → Prop}
    {post' : CreationLocal → Except Error α → Prop} {p : Script α} {f : α → Script β}
    (hp : Does cfg read keys o post' p l)
    (hok : ∀ l' a, post' l' (.ok a) → Does cfg read keys o post (f a) l')
    (herror : ∀ l' e, post' l' (.error e) → post l' (.error e)) :
    Does cfg read keys o post (p.andThen f) l := by
  refine does_bind hp fun l' r hr => ?_
  cases r with
  | ok a => exact hok l' a hr
  | error e => exact herror l' e hr

/-- A write outside a transaction: it is committed, or nothing is. -/
theorem writeOnce_does {w : Write} (hq : q.Reads = false)
    (hws : ∀ s v a ws, q.run cfg.dwithin read s v = .ok (a, ws) → ws = [w])
    (hcommits : contract.commits o { writes := [w] }) (hl : l.writes = []) :
    Does cfg read keys o (fun l' r => (∃ r', ⟨q, r'⟩ ∈ l'.trace) ∧
        ((∃ e, r = .error e ∧ Stands l.mine l.trace l') ∨
          ∃ s v a, q.run cfg.dwithin read s v = .ok (a, [w]) ∧ r = .ok a ∧
            Stands (l.mine ++ [[w]]) l.trace l'))
      (writeOnce q) l := by
  refine Dialect.meets_auto_of (fun _ hreads => ?_) (fun s v a ws hrun => ?_) (fun r e => ?_)
    fun s v a ws hrun => ?_
  · rw [hq] at hreads
    cases hreads
  · obtain rfl := hws s v a ws hrun
    refine ⟨?_, ⟨.ok a, by simp⟩, .inr ⟨s, v, a, hrun, rfl, rfl, by simp [hl], by simp⟩⟩
    simpa [contract, hl] using hcommits
  · exact ⟨⟨r, by simp⟩, .inl ⟨e, rfl, rfl, rfl, by simp⟩⟩
  · exact ⟨⟨.ok a, by simp⟩, .inl ⟨_, rfl, rfl, rfl, by simp⟩⟩

/-- A write inside a transaction. -/
theorem ask_does {post : CreationLocal → Except Error β → Prop} {f : q.Row → Script β}
    (hq : q.Reads = false)
    (hok : ∀ s v a ws, q.run cfg.dwithin read s v = .ok (a, ws) →
      Does cfg read keys o post (f a) (l.ask (system cfg read keys) q (.ok a) ws))
    (herror : ∀ e, post (l.ask (system cfg read keys) q (.error e) []) (.error e)) :
    Does cfg read keys o post ((ask q).andThen f) l := by
  refine Dialect.meets_ask_andThen (fun _ hreads => ?_) hok herror
  rw [hq] at hreads
  cases hreads

end Rules

section Calls

variable {cfg : Config} {read : Reading} {keys : List String} {o : Creation} {α : Type}
  {l : CreationLocal}

theorem not_ok_of_error {e : Error} {P : α → Prop} : ∀ a, (.error e : Except Error α) = .ok a → P a :=
  nofun

/-- Reads alone: nothing is committed, and `found` holds of what they return. -/
abbrev Finds (cfg : Config) (read : Reading) (keys : List String) (o : Creation)
    (found : List Fact → α → Prop) (p : Script α) (l : CreationLocal) : Prop :=
  Does cfg read keys o (fun l' r => Stands l.mine l.trace l' ∧ ∀ a, r = .ok a → found l'.trace a) p l

theorem earlierMedia_finds (env : Env) (userId : UUID) (deviceId : Option UUID)
    (key : Option String) (muted : Bool) (hl : l.writes = []) :
    Finds cfg read keys o (fun trace m => Found trace (.upload env userId deviceId key muted) (.media m))
      (ContentCalls.earlierMedia userId key) l := by
  unfold ContentCalls.earlierMedia
  split
  · exact ⟨stands_self hl, not_ok_of_error⟩
  · rename_i k
    refine does_andThen (readOnce_does hl) (fun l' row h => ?_) fun l' e h => ⟨h.1, not_ok_of_error⟩
    refine ⟨h.1, fun m hm => ⟨k, row, rfl, h.2, ?_⟩⟩
    cases hm
    rfl

theorem orElse_does (missing : Error) {q : Query} (hl : l.writes = []) :
    Does cfg read keys o (fun l' r => Stands l.mine l.trace l' ∧
        ∀ a, r = .ok a → ⟨q, .ok a⟩ ∈ l'.trace) (orElse missing (readOnce q)) l := by
  refine does_bind (readOnce_does hl) fun l' r h => ?_
  split
  · exact ⟨h.1, not_ok_of_error⟩
  · exact ⟨h.1, fun a ha => ha ▸ h.2⟩

theorem getCatDetail_does (clock : Instant) (id : UUID) (caller : Option UUID) (hl : l.writes = []) :
    Does cfg read keys o (fun l' r => Stands l.mine l.trace l' ∧ ∀ c, r = .ok c →
        ∃ detail mediaCount, ⟨.getCatByID id caller, .ok detail⟩ ∈ l'.trace ∧
          c = toCatDetail clock caller detail mediaCount)
      (ContentCalls.getCatDetail clock id caller) l := by
  unfold ContentCalls.getCatDetail
  refine does_andThen (orElse_does (q := .getCatByID id caller) .catNotFound hl)
    (fun l₁ detail h₁ => ?_) fun l' e h => ⟨h.1, not_ok_of_error⟩
  refine does_andThen (readOnce_does (q := .countCatMedia id) h₁.1.writes)
    (fun l₂ mediaCount h₂ => ?_) fun l' e h => ⟨h₁.1.trans h.1, not_ok_of_error⟩
  refine ⟨h₁.1.trans h₂.1, fun c hc => ⟨detail, mediaCount, h₂.1.trace (h₁.2 detail rfl), ?_⟩⟩
  cases hc
  rfl

theorem earlierCat_finds (env : Env) (req : CreateRequest) (hl : l.writes = []) :
    Finds cfg read keys o (fun trace c => Found trace (.cat env req) (.cat c))
      (ContentCalls.earlierCat env req) l := by
  unfold ContentCalls.earlierCat
  split
  · exact ⟨stands_self hl, not_ok_of_error⟩
  · rename_i k hkey
    refine does_andThen (readOnce_does (q := .getCatByIdempotencyKey req.userId k) hl)
      (fun l₁ row h₁ => ?_) fun l' e h => ⟨h.1, not_ok_of_error⟩
    refine (getCatDetail_does _ _ _ h₁.1.writes).mono fun l₂ r h₂ => ?_
    refine ⟨h₁.1.trans h₂.1, fun c hc => ?_⟩
    obtain ⟨detail, mediaCount, hdetail, rfl⟩ := h₂.2 c hc
    exact ⟨k, row, detail, mediaCount, hkey, h₂.1.trace h₁.2, hdetail, rfl⟩

theorem prepareCreate_finds (env : Env) (req : CreateRequest) (hl : l.writes = []) :
    Finds cfg read keys o (fun _ _ => True) (ContentCalls.prepareCreate env req) l := by
  unfold ContentCalls.prepareCreate
  split
  · exact ⟨stands_self hl, not_ok_of_error⟩
  split
  · exact ⟨stands_self hl, not_ok_of_error⟩
  have hduplicates : Finds cfg read keys o (fun _ _ => True) (checkDuplicates req) l := by
    unfold checkDuplicates
    split
    · exact ⟨stands_self hl, fun _ _ => trivial⟩
    · exact does_andThen (readOnce_does hl) (fun l' rows h => ⟨h.1, fun _ _ => trivial⟩)
        fun l' e h => ⟨h.1, not_ok_of_error⟩
  exact does_andThen hduplicates (fun l' _ h => ⟨h.1, fun _ _ => trivial⟩) fun l' e h => ⟨h.1, not_ok_of_error⟩

/-- The object is stored, or nothing is. -/
theorem putObject_does (hl : l.writes = []) :
    Does cfg read keys o (fun l' r => (∃ e, r = .error e ∧ Stands l.mine l.trace l') ∨
        ∃ url, r = .ok url ∧ Stands (l.mine ++ [[.put o.objectKey]]) l.trace l')
      (ContentCalls.putObject o.env) l := by
  unfold ContentCalls.putObject
  cases o.env.put with
  | error e => exact .inl ⟨e, rfl, stands_self hl⟩
  | ok url =>
    have hput : ∀ s v a ws, (Query.putObject o.env.objectKey).run cfg.dwithin read s v = .ok (a, ws) →
        ws = [.put o.objectKey] := fun s v a ws hrun => (writes_eq_ok.mp hrun).2.1
    change Does cfg read keys o _ ((writeOnce (.putObject o.env.objectKey)).andThen _) l
    refine does_andThen (writeOnce_does rfl hput (.inl rfl) hl) (fun l' _ h => ?_) fun l' e h => ?_
    · obtain ⟨-, ⟨e, he, -⟩ | ⟨-, -, -, -, -, h⟩⟩ := h
      · cases he
      · exact .inr ⟨url, rfl, h⟩
    · obtain ⟨-, ⟨-, -, h⟩ | ⟨-, -, a, -, ha, -⟩⟩ := h
      · exact .inl ⟨e, rfl, h⟩
      · cases ha

/-- The object is deleted, unless the store fails. -/
theorem deleteObject_does (hl : l.writes = []) (hmine : l.mine = [[.put o.objectKey]]) :
    Does cfg read keys o (fun l' _ => o.Removed l' ∧ l.trace ⊆ l'.trace)
      (deleteObject o.env o.objectKey) l := by
  unfold deleteObject
  split
  · have herase : ∀ s v a ws, (Query.deleteObject o.objectKey).run cfg.dwithin read s v = .ok (a, ws) →
        ws = [.erased o.objectKey] := fun s v a ws hrun => (writes_eq_ok.mp hrun).2.1
    refine does_bind (writeOnce_does rfl herase (.inr (.inl rfl)) hl) fun l' r h => ?_
    obtain ⟨hasked, ⟨-, -, h⟩ | ⟨-, -, -, -, -, h⟩⟩ := h
    · exact ⟨.inr ⟨h.mine.trans hmine, .inr hasked⟩, h.trace⟩
    · exact ⟨.inl (by rw [h.mine, hmine]; rfl), h.trace⟩
  · rename_i hdeletes
    exact ⟨.inr ⟨hmine, .inl (by simpa using hdeletes)⟩, List.Subset.refl _⟩

/-- A medium of its own: its row is committed, or nothing is. -/
theorem createMedium_does {env : Env} {userId : UUID} {deviceId : Option UUID} {key : Option String}
    {muted : Bool} (ho : o = .upload env userId deviceId key muted) (contentType : ContentType)
    (url : String) (hl : l.writes = []) :
    Does cfg read keys o (fun l' r => (∃ e, r = .error e ∧ Stands l.mine l.trace l') ∨
        (r = .ok (uploadedMedium env userId deviceId key muted contentType url) ∧
          Stands (l.mine ++ [o.rows contentType url]) l.trace l'))
      (writeOnce (.createMedia (uploadedMedium env userId deviceId key muted contentType url))) l := by
  subst ho
  have hwrites : ∀ s v a ws, (Query.createMedia
      (uploadedMedium env userId deviceId key muted contentType url)).run cfg.dwithin read s v =
        .ok (a, ws) → ws = [.medium (uploadedMedium env userId deviceId key muted contentType url)] :=
    fun s v a ws hrun => (createMedia_eq_ok hrun).2
  refine (writeOnce_does rfl hwrites (.inr (.inr ⟨contentType, url, rfl⟩)) hl).mono fun l' r h => ?_
  obtain ⟨-, ⟨e, he, h⟩ | ⟨s, v, a, hrun, ha, h⟩⟩ := h
  · exact .inl ⟨e, he, h⟩
  · obtain rfl := (createMedia_eq_ok hrun).1
    exact .inr ⟨ha, h⟩

/-- The cat, its medium and the entry of its gallery are committed together, or nothing is. -/
theorem storeCat_does {env : Env} {req : CreateRequest} (ho : o = .cat env req)
    (contentType : ContentType) (url : String) (hl : l.writes = []) :
    Does cfg read keys o (fun l' r => (∃ e, r = .error e ∧ Stands l.mine l.trace l') ∨
        (r = .ok (CreateCatParams.row { newCat env req with primaryPhotoId := some (env.uuid 0) }
            env.now) ∧
          Stands (l.mine ++ [o.rows contentType url]) l.trace l'))
      (ContentCalls.storeCat env (coverMedium env req contentType url) (newCat env req)) l := by
  subst ho
  refine Prog.meets_transaction ?_
  refine ask_does rfl (fun s v medium ws hmedium => ?_) fun e =>
    ⟨not_ok_of_error, fun e' _ => .inl ⟨e', rfl, rfl, rfl, by simp⟩⟩
  obtain ⟨rfl, rfl⟩ := createMedia_eq_ok hmedium
  refine ask_does rfl (fun s v row ws hcat => ?_) fun e =>
    ⟨not_ok_of_error, fun e' _ => .inl ⟨e', rfl, rfl, rfl, by simp⟩⟩
  obtain ⟨rfl, rfl⟩ := createCat_eq_ok hcat
  refine ask_does rfl (fun s v entry ws hentry => ?_) fun e =>
    ⟨not_ok_of_error, fun e' _ => .inl ⟨e', rfl, rfl, rfl, by simp⟩⟩
  obtain ⟨rfl, rfl⟩ := createCatMedia_eq_ok hentry
  refine ⟨fun a ha => ?_, fun e he => by cases he⟩
  cases ha
  refine ⟨fun _ => ⟨.inr (.inr ⟨contentType, url, ?_⟩), .inr ⟨rfl, rfl, ?_, by simp⟩⟩,
    fun _ => .inl ⟨_, rfl, rfl, rfl, by simp⟩⟩
  all_goals simp [hl, Creation.rows, coverMedium, newCat, CreateCatParams.row]

theorem Found.mono {trace trace' : List Fact} (hsub : trace ⊆ trace') {a : Created}
    (h : Found trace o a) : Found trace' o a := by
  cases o with
  | upload env userId deviceId key muted =>
    cases a with
    | media m =>
      obtain ⟨k, row, hkey, hrow, hm⟩ := h
      exact ⟨k, row, hkey, hsub hrow, hm⟩
    | cat c => exact h.elim
  | cat env req =>
    cases a with
    | media m => exact h.elim
    | cat c =>
      obtain ⟨k, row, detail, mediaCount, hkey, hrow, hdetail, hc⟩ := h
      exact ⟨k, row, detail, mediaCount, hkey, hsub hrow, hsub hdetail, hc⟩

/-- The recovery of both services: whatever the look-up returns, the object is deleted. -/
theorem recover_does {wrap : α → Created} {p : Script α}
    (hp : Finds cfg read keys o (fun trace a => Found trace o (wrap a)) p l)
    (hmine : l.mine = [[.put o.objectKey]]) :
    Does cfg read keys o (fun l' r => Ended o l' (r.map wrap))
      (p.bind fun result => (deleteObject o.env o.objectKey).bind fun _ => .ret result) l := by
  refine does_bind hp fun l₁ r h₁ => ?_
  refine does_bind (deleteObject_does h₁.1.writes (h₁.1.mine.trans hmine)) fun l₂ _ h₂ => ?_
  refine .inr ⟨.inr h₂.1, fun a ha => ?_⟩
  cases r with
  | error e => cases ha
  | ok x =>
    cases ha
    exact (h₁.2 x rfl).mono h₂.2

/-- A call that has committed nothing. -/
theorem ended_of_nothing {wrap : α → Created} {r : Except Error α} (hmine : l.mine = [])
    (hr : ∀ a, r = .ok a → Found l.trace o (wrap a)) : Ended o l (r.map wrap) := by
  refine .inr ⟨.inl hmine, fun a ha => ?_⟩
  cases r with
  | error e => cases ha
  | ok x =>
    cases ha
    exact hr x rfl

theorem upload_does (env : Env) (userId : UUID) (deviceId : Option UUID) (key : Option String)
    (muted : Bool) (hl : l.writes = []) (hmine : l.mine = []) :
    Does cfg read keys (.upload env userId deviceId key muted)
      (fun l' r => Ended (.upload env userId deviceId key muted) l' (r.map .media))
      (ContentCalls.upload env userId deviceId key muted) l := by
  refine does_bind (earlierMedia_finds env userId deviceId key muted hl) fun l₁ r h₁ => ?_
  have hmine₁ : l₁.mine = [] := h₁.1.mine.trans hmine
  split
  · exact ended_of_nothing hmine₁ h₁.2
  · cases prepareUpload env with
    | error e => exact ended_of_nothing hmine₁ not_ok_of_error
    | ok contentType =>
      change Does cfg read keys _ _ ((ContentCalls.putObject env).andThen _) l₁
      refine does_andThen (putObject_does h₁.1.writes) (fun l₂ url h₂ => ?_) fun l₂ e h₂ => ?_
      · obtain ⟨e, he, -⟩ | ⟨url', hurl, h₂⟩ := h₂
        · cases he
        · have hmine₂ : l₂.mine = [[.put (Creation.upload env userId deviceId key muted).objectKey]] := by
            rw [h₂.mine, hmine₁]
            rfl
          refine does_bind (createMedium_does rfl contentType url h₂.writes) fun l₃ r h₃ => ?_
          obtain ⟨e, rfl, h₃⟩ | ⟨rfl, h₃⟩ := h₃
          · refine recover_does ?_ (h₃.mine.trans hmine₂)
            split
            · exact earlierMedia_finds env userId deviceId key muted h₃.writes
            · exact ⟨stands_self h₃.writes, not_ok_of_error⟩
          · refine .inl ⟨contentType, url, ?_, rfl⟩
            rw [h₃.mine, hmine₂]
            rfl
      · obtain ⟨-, -, h₂⟩ | ⟨url, hurl, -⟩ := h₂
        · exact ended_of_nothing (h₂.mine.trans hmine₁) not_ok_of_error
        · cases hurl
  · exact ended_of_nothing hmine₁ not_ok_of_error

theorem create_does (env : Env) (req : CreateRequest) (hl : l.writes = []) (hmine : l.mine = []) :
    Does cfg read keys (.cat env req) (fun l' r => Ended (.cat env req) l' (r.map .cat))
      (ContentCalls.create env req) l := by
  refine does_bind (earlierCat_finds env req hl) fun l₁ r h₁ => ?_
  have hmine₁ : l₁.mine = [] := h₁.1.mine.trans hmine
  split
  · exact ended_of_nothing hmine₁ h₁.2
  · refine does_andThen (prepareCreate_finds env req h₁.1.writes) (fun l₂ contentType h₂ => ?_)
      fun l₂ e h₂ => ended_of_nothing (h₂.1.mine.trans hmine₁) not_ok_of_error
    have hmine₂ : l₂.mine = [] := h₂.1.mine.trans hmine₁
    refine does_andThen (putObject_does h₂.1.writes) (fun l₃ url h₃ => ?_) fun l₃ e h₃ => ?_
    · obtain ⟨e, he, -⟩ | ⟨url', hurl, h₃⟩ := h₃
      · cases he
      · have hmine₃ : l₃.mine = [[.put (Creation.cat env req).objectKey]] := by
          rw [h₃.mine, hmine₂]
          rfl
        refine does_bind (storeCat_does rfl contentType url h₃.writes) fun l₄ r h₄ => ?_
        obtain ⟨e, rfl, h₄⟩ | ⟨rfl, h₄⟩ := h₄
        · refine recover_does ?_ (h₄.mine.trans hmine₃)
          split
          · exact earlierCat_finds env req h₄.writes
          · exact ⟨stands_self h₄.writes, not_ok_of_error⟩
        · refine .inl ⟨contentType, url, ?_, rfl⟩
          rw [h₄.mine, hmine₃]
          rfl
    · obtain ⟨-, -, h₃⟩ | ⟨url, hurl, -⟩ := h₃
      · exact ended_of_nothing (h₃.mine.trans hmine₂) not_ok_of_error
      · cases hurl
  · exact ended_of_nothing hmine₁ not_ok_of_error

theorem contract_met : contract.Met (system cfg read keys) program := by
  intro o
  cases o with
  | upload env userId deviceId key muted =>
    refine does_bind (upload_does env userId deviceId key muted rfl rfl) fun l r h => ?_
    cases r <;> exact h
  | cat env req =>
    refine does_bind (create_does env req rfl rfl) fun l r h => ?_
    cases r <;> exact h

end Calls

end Tekir.Creations
