import Tekir.KeyedCats

/-!
# Duplicate candidates of a retried creation

A creation looks its key up and then asks for the cats nearby, in two statements. The cat of an
earlier attempt that is committed in between is one of the candidates the retry is refused
with.
-/
namespace Tekir.OwnDuplicates
open Machine Table Schema Statements CatQueries Environment CatServices ReadServices ContentWrites
  ContentQueries ContentCalls Creations CreationHistory KeyedCats Programs Interleaving Bookkeeping
  Contracts Dialects
open DiscoverPages (plainReading)

abbrev CreationCall := Call World Write Query Query.Row Error Creation (Except Error Created)

/-- The look-up of the key has found nothing, and nothing has been asked since. -/
def missed : List Fact → Bool
  | [⟨.getCatByIdempotencyKey _ _, .error .noRows⟩] => true
  | _ => false

/-- The request is one that `Create` checks against the cats nearby. -/
def checks : Creation → Bool
  | .upload _ _ _ _ _ => false
  | .cat _ req => !req.confirmedNew && withinIstanbul req.area && req.photo

/-- The call is to create the cat that this row is. -/
def retries (row : Cat) : Creation → Bool
  | .upload _ _ _ _ _ => false
  | .cat _ req => row.createdByUserId == some req.userId && row.idempotencyKey.isSome &&
      row.idempotencyKey == req.idempotencyKey

/-- The snapshot for the look-up of the key is taken, that for the cats nearby is not. -/
def between (c : CreationCall) : Bool :=
  checks c.op && if c.snapshot.isSome then c.loc.trace.isEmpty else missed c.loc.trace

def newCat? : Write → Option Cat
  | .cat row => some row
  | _ => none

def commits (c : CreationCall) : Bool :=
  match c.prog with
  | .commit _ => !c.loc.aborted
  | .ret _ | .stmt _ _ | .rollback _ => false

/-- A cat is not committed while another call for it is between its two reads. -/
def Admits {n : ℕ} (s : CreationState n) : CreationAction n → Prop
  | .run i => ∀ c ∈ s.calls i, commits c = true → ∀ w ∈ c.loc.writes, ∀ row ∈ newCat? w,
      ∀ j, ∀ d ∈ s.calls j, retries row d.op = true → between d = false
  | .call _ _ | .fail _ | .others _ => True

instance {n : ℕ} (s : CreationState n) (a : CreationAction n) : Decidable (Admits s a) := by
  cases a <;> unfold Admits <;> infer_instance

/-- Neither the pipeline nor the moderator nor the object store names candidates. -/
structure Impartial (env : Env) : Prop where
  process : ∀ ids, env.process ≠ .error (.duplicateCandidates ids)
  moderateText : ∀ text ids, env.moderateText text ≠ .error (.duplicateCandidates ids)
  moderateImage : ∀ ids, env.moderateImage ≠ .error (.duplicateCandidates ids)
  put : ∀ ids, env.put ≠ .error (.duplicateCandidates ids)

/-- A creation by this account with this key, which only the duplicate query refuses with candidates. -/
def Attempts (userId : UUID) (key : String) (o : Creation) : Prop :=
  Creates userId key o ∧ Impartial o.env

/-- No call has been refused with the cat of its own key. -/
def NotRefused {n : ℕ} (s : CreationState n) : Prop :=
  ∀ d ∈ s.log, ∀ userId key, Attempts userId key d.op → ∀ ids,
    d.result = .error (.duplicateCandidates ids) →
      ∀ c ∈ s.base.db.tables.cats, Keyed userId key c → c.id ∉ ids

/-- The query lists the cats nearby. -/
def Lists : Query → Bool
  | .listNearbyCatsForDuplicateCheck _ _ => true
  | _ => false

/-- The candidates of a refusal are the rows of the duplicate query. -/
def Named (trace : List Fact) (ids : List UUID) : Prop :=
  ∃ point viewer rows, ⟨.listNearbyCatsForDuplicateCheck point viewer, .ok rows⟩ ∈ trace ∧
    ids = rows.map (·.1.id)

/-- A keyed creation looks its key up first and asks for the cats nearby next, if at all. -/
def reads : Contract Write Query Query.Row Error Creation (Except Error Created) where
  asks o l q := ∀ userId key, Attempts userId key o →
    (l.trace = [] → q = .getCatByIdempotencyKey userId key) ∧
      (Lists q = true → missed l.trace = true ∧ checks o = true)
  returns o l r := ∀ userId key, Attempts userId key o →
    ∀ ids, r = .error (.duplicateCandidates ids) → Named l.trace ids

section Calls

variable {cfg : Config} {read : Reading} {keys : List String} {α : Type}

abbrev May (cfg : Config) (read : Reading) : (q : Query) → Except Error q.Row → Prop :=
  (dialect cfg read).Possible

/-- Not a list of candidates. -/
def Plain (e : Error) : Prop :=
  ∀ ids, e ≠ .duplicateCandidates ids

theorem plain_of_fails {q : Query} {e : Error} (h : (dialect cfg read).Fails q e) : Plain e := by
  intro ids he
  rcases h with rfl | ⟨s, v, hrun⟩
  · cases he
  · rcases ofStatement_of_run hrun with rfl | ⟨c, rfl⟩ <;> cases he

/-- No statement lists the cats nearby, and no error is a list of candidates. -/
structure Calm (cfg : Config) (read : Reading) (p : Script α) : Prop where
  uses : p.Uses fun q => Lists q = false
  yields : p.Yields (May cfg read) fun r => ∀ e, r = .error e → Plain e

theorem calm_ret (r : Except Error α) (hr : ∀ e, r = .error e → Plain e) :
    Calm cfg read (.ret r : Script α) :=
  ⟨trivial, hr⟩

theorem calm_ok (a : α) : Calm cfg read (.ret (.ok a) : Script α) :=
  calm_ret _ nofun

theorem calm_readOnce {q : Query} (hq : Lists q = false) : Calm cfg read (readOnce q) :=
  ⟨⟨hq, fun _ => trivial⟩, fun _ hr e he => plain_of_fails (hr e he)⟩

theorem calm_ask {q : Query} (hq : Lists q = false) : Calm cfg read (ask q) :=
  ⟨⟨hq, fun _ => trivial⟩, fun _ hr e he => plain_of_fails (hr e he)⟩

theorem Calm.andThen {β : Type} {p : Script α} {f : α → Script β} (hp : Calm cfg read p)
    (hf : ∀ a, Calm cfg read (f a)) : Calm cfg read (p.andThen f) :=
  ⟨Prog.uses_andThen hp.uses fun a => (hf a).uses, Prog.yields_andThen hp.yields fun a => (hf a).yields⟩

theorem Calm.bind {β : Type} {p : Script α} {f : Except Error α → Script β} (hp : Calm cfg read p)
    (huses : ∀ r, (f r).Uses fun q => Lists q = false)
    (hyields : ∀ r, (∀ e, r = .error e → Plain e) →
      (f r).Yields (May cfg read) fun r => ∀ e, r = .error e → Plain e) :
    Calm cfg read (p.bind f) :=
  ⟨Prog.uses_bind hp.uses huses, Prog.yields_bind hp.yields hyields⟩

theorem Calm.transaction {p : Script α} (hp : Calm cfg read p) :
    Calm cfg read (ContentCalls.transaction p) :=
  ⟨Prog.uses_transaction hp.uses, Prog.yields_transaction nofun hp.yields⟩

theorem calm_writeOnce {q : Query} (hq : Lists q = false) : Calm cfg read (writeOnce q) :=
  (calm_ask hq).transaction

theorem calm_orElse {missing : Error} (hmissing : Plain missing) {p : Script α}
    (hp : Calm cfg read p) : Calm cfg read (orElse missing p) := by
  refine ⟨Prog.uses_bind hp.uses fun r => ?_, Prog.yields_bind hp.yields fun r hr => ?_⟩
  · split <;> trivial
  · split
    · intro e he
      exact Except.error.inj he ▸ hmissing
    · exact hr

theorem calm_getCatDetail (clock : Instant) (id : UUID) (caller : Option UUID) :
    Calm cfg read (getCatDetail clock id caller) :=
  (calm_orElse (by nofun) (calm_readOnce rfl)).andThen fun _ =>
    (calm_readOnce rfl).andThen fun _ => calm_ok _

theorem calm_deleteObject (env : Env) (key : String) : Calm cfg read (deleteObject env key) := by
  unfold deleteObject
  split
  · have hwrite : Calm cfg read (writeOnce (.deleteObject key)) := calm_writeOnce rfl
    exact ⟨Prog.uses_bind hwrite.uses fun _ => trivial, Prog.yields_bind hwrite.yields fun _ _ => nofun⟩
  · exact calm_ok _

theorem calm_earlierCat (env : Env) (req : CreateRequest) :
    Calm cfg read (ContentCalls.earlierCat env req) := by
  unfold ContentCalls.earlierCat
  split
  · exact calm_ret _ (by nofun)
  · exact (calm_readOnce rfl).andThen fun _ => calm_getCatDetail _ _ _

theorem calm_putObject {env : Env} (henv : Impartial env) :
    Calm cfg read (ContentCalls.putObject env) := by
  refine (calm_ret env.put fun e he ids hids => ?_).andThen fun url =>
    (calm_writeOnce rfl).andThen fun _ => calm_ok _
  exact henv.put ids (he.trans (congrArg _ hids))

theorem calm_storeCat (env : Env) (media : Medium) (cat : CreateCatParams) :
    Calm cfg read (ContentCalls.storeCat env media cat) := by
  refine Calm.transaction ?_
  refine (calm_ask rfl).andThen fun _ => ?_
  refine (calm_ask rfl).andThen fun _ => ?_
  exact (calm_ask rfl).andThen fun _ => calm_ok _

theorem recover_uses (cfg : Config) (read : Reading) (env : Env) (req : CreateRequest) (e : Error) :
    (ContentCalls.recoverFromCreateCatFailure env req e).Uses fun q => Lists q = false := by
  unfold ContentCalls.recoverFromCreateCatFailure
  refine Prog.uses_bind ?_ fun r => ?_
  · split
    · have hearlier : Calm cfg read (ContentCalls.earlierCat env req) := calm_earlierCat env req
      exact hearlier.uses
    · trivial
  · have hdelete : Calm cfg read (deleteObject env env.objectKey) := calm_deleteObject _ _
    exact Prog.uses_bind hdelete.uses fun _ => trivial

theorem recover_yields (env : Env) (req : CreateRequest) {e : Error} (he : Plain e) :
    (ContentCalls.recoverFromCreateCatFailure env req e).Yields (May cfg read)
      fun r => ∀ e, r = .error e → Plain e := by
  unfold ContentCalls.recoverFromCreateCatFailure
  refine Prog.yields_bind (?_ : Prog.Yields _ (fun r => ∀ e, r = .error e → Plain e) _) fun r hr => ?_
  · split
    · exact (calm_earlierCat env req).yields
    · exact fun e' he' => Except.error.inj he' ▸ he
  · exact Prog.yields_bind (calm_deleteObject env env.objectKey).yields fun _ _ => hr

/-- A part of the call `o`. -/
abbrev Goes (cfg : Config) (read : Reading) (keys : List String) (o : Creation)
    (post : CreationLocal → α → Prop) (p : Prog Query Query.Row Error α) (l : CreationLocal) : Prop :=
  p.Meets (system cfg read keys) (reads.asks o) (reads.commits o) post l

variable {o : Creation} {l : CreationLocal}

theorem Calm.goes {p : Script α} (hp : Calm cfg read p) (hl : l.trace ≠ []) :
    Goes cfg read keys o (fun l' r => l'.trace ≠ [] ∧ ∀ e, r = .error e → Plain e) p l := by
  refine Prog.Meets.and_yields ?_ hp.yields (fun _ _ _ => Dialect.possible_answer)
    fun _ => Dialect.possible_lost
  refine hp.uses.meets_of_kept (J := fun l => l.trace ≠ []) hl (fun l q r new _ _ _ => by simp)
    (fun l hl => hl) (fun l hl => hl) (fun l q hq hl => ?_) (fun _ _ => trivial) fun l _ hl => hl
  intro userId key _
  exact ⟨fun hnil => absurd hnil hl, fun hlists => by simp [hq] at hlists⟩

theorem ne_nil_of_missed {trace : List Fact} (h : missed trace = true) : trace ≠ [] := by
  rintro rfl
  cases h

theorem not_error_of_ok {a : α} {P : Error → Prop} : ∀ e, (.ok a : Except Error α) = .error e → P e :=
  nofun

/-- A cat that is not there is another error than a key that is not. -/
theorem getCatDetail_yields (clock : Instant) (id : UUID) (caller : Option UUID) :
    (ContentCalls.getCatDetail clock id caller).Yields (May cfg read)
      fun r => ∀ e, r = .error e → e ≠ .noRows := by
  unfold ContentCalls.getCatDetail
  refine Prog.yields_andThen (Prog.yields_bind (?_ : Prog.Yields _ (fun _ => True) _) fun r _ => ?_)
    fun row => ?_
  · exact fun _ _ => trivial
  · split
    · intro e he
      cases he
      exact nofun
    · rename_i hr
      intro e he hnoRows
      exact hr (he.trans (congrArg _ hnoRows))
  · refine Prog.yields_andThen (fun r hr e he hnoRows => ?_) fun _ => not_error_of_ok
    rcases hr e he with hlost | ⟨s, v, hrun⟩
    · exact absurd (hlost.symm.trans hnoRows) nofun
    · cases hrun

/-- What was read before the cat is created. -/
theorem earlierCat_goes {env : Env} {req : CreateRequest} {key : String}
    (hkey : req.idempotencyKey = some key) :
    Goes cfg read keys (.cat env req) (fun l' r => (r = .error .noRows → missed l'.trace = true) ∧
        l'.trace ≠ [] ∧ ∀ e, r = .error e → Plain e) (ContentCalls.earlierCat env req) {} := by
  simp only [ContentCalls.earlierCat, hkey]
  refine Prog.meets_andThen (Dialect.meets_read_fails (fun _ userId' key' hretry => ?_)
    (fun _ _ row ws _ => ⟨fun row' _ => ?_, not_error_of_ok⟩) fun e he => ⟨not_ok_of_error, fun e' he' => ?_⟩)
  · obtain ⟨⟨env', req', he, huser, hkey'⟩, -⟩ := hretry
    cases he
    refine ⟨fun _ => ?_, nofun⟩
    rw [← huser, Option.some.inj (hkey.symm.trans hkey')]
  · have hdetail : Calm cfg read (ContentCalls.getCatDetail env.clock row'.id (some req.userId)) :=
      calm_getCatDetail _ _ _
    refine (Prog.Meets.and_yields (hdetail.goes (by simp)) (getCatDetail_yields _ _ _)
      (fun _ _ _ => Dialect.possible_answer) fun _ => Dialect.possible_lost).mono fun l' r h => ?_
    exact ⟨fun hr => absurd rfl (h.2 _ hr), h.1⟩
  · cases he'
    refine ⟨fun hr => ?_, by simp, fun e' he' => ?_⟩
    · cases hr
      rfl
    · cases he'
      exact plain_of_fails he

theorem plain_processAndModerate {env : Env} (henv : Impartial env) {req : CreateRequest} {e : Error}
    (h : ContentCalls.processAndModerate env req = .error e) : Plain e := by
  intro ids he
  subst he
  have himage : CatServices.moderateImage env ≠ .error (.duplicateCandidates ids) := by
    intro hx
    rcases bind_eq_error.mp hx with hx | ⟨allowed, -, hx⟩
    · exact henv.moderateImage ids hx
    · cases allowed <;> cases hx
  have htext : ∀ text, CatServices.moderateText env text ≠ .error (.duplicateCandidates ids) := by
    intro text hx
    rcases bind_eq_error.mp hx with hx | ⟨allowed, -, hx⟩
    · exact henv.moderateText text ids hx
    · cases allowed <;> cases hx
  rcases bind_eq_error.mp h with h | ⟨contentType, -, h⟩
  · exact henv.process ids h
  rcases bind_eq_error.mp h with h | ⟨-, -, h⟩
  · rcases bind_eq_error.mp h with h | ⟨-, -, h⟩
    · exact himage h
    · unfold moderateOptionalText at h
      split at h
      · cases h
      · split at h
        · cases h
        · exact htext _ h
  · cases h

/-- A refusal names what the duplicate query has returned. -/
abbrev Refuses (l : CreationLocal) (r : Except Error α) : Prop :=
  ∀ ids, r = .error (.duplicateCandidates ids) → Named l.trace ids

theorem prepareCreate_goes {env : Env} {req : CreateRequest} (henv : Impartial env)
    (hl : missed l.trace = true) :
    Goes cfg read keys (.cat env req) (fun l' r => l'.trace ≠ [] ∧ Refuses l' r)
      (ContentCalls.prepareCreate env req) l := by
  have hne : l.trace ≠ [] := ne_nil_of_missed hl
  have hplain : ∀ {l' : CreationLocal} {r : Except Error ContentType}, (∀ e, r = .error e → Plain e) →
      Refuses l' r := fun h ids hr => absurd rfl (h _ hr ids)
  have hcheck : ∀ {l' : CreationLocal}, Refuses l' (ContentCalls.processAndModerate env req) :=
    hplain fun e he => plain_processAndModerate henv he
  unfold ContentCalls.prepareCreate
  split
  · exact ⟨hne, nofun⟩
  split
  · exact ⟨hne, nofun⟩
  rename_i harea hphoto
  unfold checkDuplicates
  split
  · exact ⟨hne, hcheck⟩
  rename_i hnew
  refine Prog.meets_andThen (Prog.meets_andThen ?_)
  refine Dialect.meets_read_fails (fun _ _ _ _ => ⟨fun hnil => absurd hnil hne, fun _ => ⟨hl, ?_⟩⟩)
    (fun _ _ rows ws _ => ⟨fun rows' hrows => ⟨fun _ _ => ⟨by simp, hcheck⟩, fun e he => ?_⟩,
      not_error_of_ok⟩) fun e he => ⟨not_ok_of_error, fun e' he' => ⟨not_ok_of_error, fun e'' he'' => ?_⟩⟩
  · simp only [Bool.not_eq_true', Bool.not_eq_false] at harea hphoto
    simp [checks, hnew, harea, hphoto]
  · refine ⟨by simp, fun ids hids => ?_⟩
    split at he
    · cases he
    · cases he
      cases hids
      cases hrows
      exact ⟨_, _, _, by simp, rfl⟩
  · cases he'
    cases he''
    exact ⟨by simp, fun ids hids => absurd (Except.error.inj hids) (plain_of_fails he ids)⟩

theorem create_goes {env : Env} {req : CreateRequest} {key : String} (henv : Impartial env)
    (hkey : req.idempotencyKey = some key) :
    Goes cfg read keys (.cat env req) (fun l' r => Refuses l' r) (ContentCalls.create env req) {} := by
  have hplain : ∀ {l' : CreationLocal} {r : Except Error CatDetail}, (∀ e, r = .error e → Plain e) →
      Refuses l' r := fun h ids hr => absurd rfl (h _ hr ids)
  refine Prog.meets_bind.mpr ((earlierCat_goes hkey).mono fun l₁ r h₁ => ?_)
  split
  · exact hplain nofun
  · refine Prog.meets_andThen ((prepareCreate_goes henv (h₁.1 rfl)).mono fun l₂ r h₂ =>
      ⟨fun contentType _ => ?_, fun e he ids hids => h₂.2 ids (he.trans (congrArg _ (Except.error.inj hids)))⟩)
    refine (((calm_putObject henv).andThen fun url => (calm_storeCat _ _ _).bind (fun r => ?_)
      fun r hr => ?_).goes h₂.1).mono fun l₃ r h₃ => hplain h₃.2
    · cases r with
      | error e => exact recover_uses cfg read env req e
      | ok row => trivial
    · cases r with
      | error e => exact recover_yields env req (hr e rfl)
      | ok row => exact not_error_of_ok
  · exact hplain h₁.2.2

theorem reads_met : reads.Met (system cfg read keys) program := by
  intro o
  by_cases hretry : ∃ userId key, Attempts userId key o
  · obtain ⟨userId, key, ⟨env, req, rfl, -, hkey⟩, henv⟩ := hretry
    refine Prog.meets_bind.mpr ((create_goes henv hkey).mono fun l r h => ?_)
    cases r with
    | error e =>
      intro _ _ _ ids hids
      exact h ids (congrArg _ (Except.error.inj hids))
    | ok c => exact fun _ _ _ _ => nofun
  · refine Prog.meets_of_forall (fun l q userId key h => ?_) (fun _ => trivial) fun l r userId key h => ?_
    all_goals exact absurd ⟨userId, key, h⟩ hretry

end Calls

section Runs

variable {n : ℕ} {cfg : Config} {read : Reading} {keys : List String} {s s' : CreationState n}
  {a : CreationAction n} {userId : UUID} {key : String} {v w w' : World} {c : CreationCall}

def NoneKeyed (userId : UUID) (key : String) (w : World) : Prop :=
  ∀ c ∈ w.db.tables.cats, ¬ Keyed userId key c

/-- Every cat is still there. -/
def Outlives (v w : World) : Prop :=
  ∀ c ∈ v.db.tables.cats, ∃ c' ∈ w.db.tables.cats, SameCat c c'

theorem outlives_refl : Outlives w w :=
  fun c hc => ⟨c, hc, sameCat_refl c⟩

theorem Outlives.trans (h : Outlives v w) (h' : Outlives w w') : Outlives v w' := by
  intro c hc
  obtain ⟨c₁, hc₁, hsame₁⟩ := h c hc
  obtain ⟨c₂, hc₂, hsame₂⟩ := h' c₁ hc₁
  exact ⟨c₂, hc₂, hsame₁.trans hsame₂⟩

/-- The candidates that were returned are cats that are still there, and not of this key. -/
def Innocent (userId : UUID) (key : String) (w : World) : Fact → Prop
  | ⟨.listNearbyCatsForDuplicateCheck _ _, .ok rows⟩ =>
    ∀ r ∈ rows, ¬ Keyed userId key r.1 ∧ ∃ c ∈ w.db.tables.cats, SameCat r.1 c
  | _ => True

theorem Innocent.later {x : Fact} (h : Innocent userId key w x) (houtlives : Outlives w w') :
    Innocent userId key w' x := by
  obtain ⟨q, r⟩ := x
  cases r with
  | error e => cases q <;> trivial
  | ok rows =>
    cases q with
    | listNearbyCatsForDuplicateCheck point viewer =>
      intro r hr
      obtain ⟨hkeyed, c, hc, hsame⟩ := h r hr
      obtain ⟨c', hc', hsame'⟩ := houtlives c hc
      exact ⟨hkeyed, c', hc', hsame.trans hsame'⟩
    | _ => trivial

/-- What an attempt relies on as long as no cat of its key is committed between its reads. -/
structure Relies (userId : UUID) (key : String) (w : World) (c : CreationCall) : Prop where
  waiting : c.snapshot.isSome = true → ∃ q k, c.prog = .stmt q k
  missed : checks c.op = true → c.snapshot = none → missed c.loc.trace = true →
    NoneKeyed userId key w
  looking : ∀ v, checks c.op = true → c.snapshot = some v → c.loc.trace = [] →
    NoneKeyed userId key v → NoneKeyed userId key w
  listing : ∀ v point viewer k, c.prog = .stmt (.listNearbyCatsForDuplicateCheck point viewer) k →
    c.snapshot = some v → NoneKeyed userId key v ∧ Outlives v w
  listed : ∀ x ∈ c.loc.trace, Innocent userId key w x

theorem Relies.later (h : Relies userId key w c) (houtlives : Outlives w w')
    (hbetween : between c = true → NoneKeyed userId key w → NoneKeyed userId key w') :
    Relies userId key w' c where
  waiting := h.waiting
  missed hchecks hsnapshot hmissed :=
    hbetween (by simp [between, hchecks, hsnapshot, hmissed]) (h.missed hchecks hsnapshot hmissed)
  looking v hchecks hsnapshot htrace hnone :=
    hbetween (by simp [between, hchecks, hsnapshot, htrace])
      (h.looking v hchecks hsnapshot htrace hnone)
  listing v point viewer k hprog hsnapshot :=
    (h.listing v point viewer k hprog hsnapshot).imp_right fun hv => hv.trans houtlives
  listed x hx := (h.listed x hx).later houtlives

/-- The look-up that has found nothing is the first statement. -/
theorem missed_append {trace : List Fact} {x : Fact} (h : missed (trace ++ [x]) = true) :
    trace = [] := by
  unfold missed at h
  split at h
  · rename_i htrace
    exact (List.append_eq_singleton_iff.mp htrace |>.resolve_right (by simp)).1
  · cases h

theorem noRows_of_missed {r : Except Error Cat}
    (h : missed [⟨.getCatByIdempotencyKey userId key, r⟩] = true) : r = .error .noRows := by
  unfold missed at h
  split at h
  · rename_i htrace
    cases htrace
    rfl
  · cases h

structure Inv (cfg : Config) (read : Reading) (keys : List String) (userId : UUID) (key : String)
    (s : CreationState n) : Prop where
  conforms : Conforms (contract.and reads) (system cfg read keys) s
  relies : ∀ i c, s.calls i = some c → Attempts userId key c.op → Relies userId key s.base c
  log : ∀ d ∈ s.log, Attempts userId key d.op → ∀ x ∈ d.loc.trace, Innocent userId key s.base x

/-- A read sees what is committed. -/
theorem Inv.snapshot (h : Inv cfg read keys userId key s) {i : Fin n} (hc : s.calls i = some c)
    {q : Query} {k : Except Error q.Row → Prog Query Query.Row Error (Except Error Created)}
    (hprog : c.prog = .stmt q k) (hlive : c.loc.aborted = false) (hreads : q.Reads = true)
    (hview : view c.loc.writes s.base = some v) : v = s.base := by
  have hmeets := h.conforms.calls i c hc
  rw [hprog] at hmeets
  rw [(hmeets.1 hlive).1.1 hreads, view_nil] at hview
  exact (Option.some.inj hview).symm

theorem Inv.began (h : Inv cfg read keys userId key s) {i : Fin n} (hc : s.calls i = some c)
    {q : Query} {k : Except Error q.Row → Prog Query Query.Row Error (Except Error Created)}
    (hprog : c.prog = .stmt q k) (hlive : c.loc.aborted = false) (hsnapshot : c.snapshot = none)
    (hview : view c.loc.writes s.base = some v) (hop : Attempts userId key c.op) :
    Relies userId key s.base (c.began v) := by
  have hmeets := h.conforms.calls i c hc
  rw [hprog] at hmeets
  obtain ⟨hfirst, hlists⟩ := (hmeets.1 hlive).1.2 userId key hop
  have hrelies := h.relies i c hc hop
  refine ⟨fun _ => ⟨q, k, hprog⟩, nofun, fun v' _ hv' htrace hnone => ?_,
    fun v' point viewer k' hstmt hv' => ?_, hrelies.listed⟩
  · cases hv'
    rw [h.snapshot hc hprog hlive (by rw [hfirst htrace]; rfl) hview] at hnone
    exact hnone
  · cases hv'
    have hq : q = .listNearbyCatsForDuplicateCheck point viewer := by
      rw [show (c.began v).prog = c.prog from rfl, hprog] at hstmt
      exact (Prog.stmt.inj hstmt).1
    subst hq
    obtain ⟨hmissed, hchecks⟩ := hlists rfl
    rw [h.snapshot hc hprog hlive rfl hview]
    exact ⟨hrelies.missed hchecks hsnapshot hmissed, outlives_refl⟩

theorem noneKeyed_of_answer
    (h : (system cfg read keys).answer (.getCatByIdempotencyKey userId key) v w = .error .noRows) :
    NoneKeyed userId key v := by
  intro c hc hkeyed
  have hrow : c ∈ v.db.tables.cats.filter fun c =>
      c.createdByUserId == some userId && c.idempotencyKey == some key := by
    simp [hc, hkeyed.1, hkeyed.2]
  obtain ⟨row, rows, hrows⟩ := List.exists_cons_of_ne_nil (List.ne_nil_of_mem hrow)
  change ((ContentQueries.reads (CatQueries.getCatByIdempotencyKey userId key v.db)).map Prod.fst) = _ at h
  rw [CatQueries.getCatByIdempotencyKey, hrows] at h
  cases h

theorem innocent_of_answer {q : Query} (hlisting : ∀ point viewer,
    q = .listNearbyCatsForDuplicateCheck point viewer → NoneKeyed userId key v ∧ Outlives v w)
    (v' : World) : Innocent userId key w ⟨q, (system cfg read keys).answer q v v'⟩ := by
  cases hr : (system cfg read keys).answer q v v' with
  | error e => cases q <;> trivial
  | ok rows =>
    cases q with
    | listNearbyCatsForDuplicateCheck point viewer =>
      obtain ⟨hnone, houtlives⟩ := hlisting point viewer rfl
      cases hr
      intro r hr
      obtain ⟨c, hc, rfl⟩ := List.mem_map.mp hr
      have hmem : c ∈ v.db.tables.cats := (List.mem_filter.mp (mem_orderBy.mp hc)).1
      exact ⟨hnone c hmem, houtlives c hmem⟩
    | _ => trivial

/-- Nothing is being asked, and these statements have been. -/
theorem relies_of_trace (hsnapshot : c.snapshot = none)
    (hmissed : checks c.op = true → missed c.loc.trace = true → NoneKeyed userId key w)
    (hlisted : ∀ x ∈ c.loc.trace, Innocent userId key w x) : Relies userId key w c where
  waiting hwaits := by simp [hsnapshot] at hwaits
  missed hchecks _ := hmissed hchecks
  looking v _ hv := by simp [hsnapshot] at hv
  listing v point viewer k _ hv := by simp [hsnapshot] at hv
  listed := hlisted

theorem Inv.answered (h : Inv cfg read keys userId key s) {i : Fin n} (hc : s.calls i = some c)
    {q : Query} {k : Except Error q.Row → Prog Query Query.Row Error (Except Error Created)}
    (hprog : c.prog = .stmt q k) (hlive : c.loc.aborted = false) (hsnapshot : c.snapshot = some v)
    (hop : Attempts userId key c.op) :
    Relies userId key s.base (c.asked (system cfg read keys) q k ((system cfg read keys).answer q v w)
      ((system cfg read keys).effect q v w)) := by
  have hmeets := h.conforms.calls i c hc
  rw [hprog] at hmeets
  obtain ⟨hfirst, -⟩ := (hmeets.1 hlive).1.2 userId key hop
  have hrelies := h.relies i c hc hop
  refine relies_of_trace rfl (fun hchecks hmissed => ?_) fun x hx => ?_
  · have hnil := missed_append hmissed
    obtain rfl := hfirst hnil
    rw [Call.asked, Local.ask_trace, hnil] at hmissed
    exact hrelies.looking v hchecks hsnapshot hnil (noneKeyed_of_answer (noRows_of_missed hmissed))
  · rcases List.mem_append.mp hx with hx | hx
    · exact hrelies.listed x hx
    · obtain rfl := List.mem_singleton.mp hx
      refine innocent_of_answer (fun point viewer hq => ?_) w
      subst hq
      exact hrelies.listing v point viewer k hprog hsnapshot

theorem outlives_of_commits {o : Creation} {l : CreationLocal} (hl : contract.commits o l)
    (hview : view l.writes w = some w') : Outlives w w' :=
  fun c hc => ⟨c, (cats_of_commits hl hview).mpr (.inl hc), sameCat_refl c⟩

/-- A cat that is committed is admitted: nobody is between the reads of an attempt at it. -/
theorem noneKeyed_of_admitted {i j : Fin n} {d : CreationCall} (hguard : Admits s (.run i))
    (hc : s.calls i = some c) (hcommits : commits c = true) (hl : contract.commits c.op c.loc)
    (hview : view c.loc.writes s.base = some w)
    (hd : s.calls j = some d) (hop : Attempts userId key d.op) (hbetween : between d = true)
    (hnone : NoneKeyed userId key s.base) : NoneKeyed userId key w := by
  intro row hrow hkeyed
  rcases (cats_of_commits hl hview).mp hrow with hrow | hrow
  · exact hnone row hrow hkeyed
  · obtain ⟨⟨env, req, he, huser, hkey⟩, -⟩ := hop
    have hretries : retries row d.op = true := by
      simp [retries, he, hkeyed.1, hkeyed.2, huser, hkey]
    have hfalse := hguard c hc hcommits _ hrow row rfl j d hd hretries
    rw [hbetween] at hfalse
    cases hfalse

theorem Inv.committed (h : Inv cfg read keys userId key s) {i : Fin n}
    {k : Bool → Prog Query Query.Row Error (Except Error Created)} (hguard : Admits s (.run i))
    (hc : s.calls i = some c) (hprog : c.prog = .commit k) (hlive : c.loc.aborted = false)
    (hview : view c.loc.writes s.base = some w) :
    Outlives s.base w ∧ ∀ j d, s.calls j = some d → Attempts userId key d.op →
      Relies userId key w d := by
  have hmeets := h.conforms.calls i c hc
  rw [hprog] at hmeets
  have hl : contract.commits c.op c.loc := (hmeets.1 hlive).1.1
  have houtlives := outlives_of_commits hl hview
  refine ⟨houtlives, fun j d hd hop => (h.relies j d hd hop).later houtlives fun hbetween hnone => ?_⟩
  exact noneKeyed_of_admitted hguard hc (by simp [commits, hprog, hlive]) hl hview hd hop hbetween hnone

/-- A call that is not asking anything relies on less. -/
theorem Relies.moved (h : Relies userId key w c) {c' : CreationCall} (hop : c'.op = c.op)
    (hsnapshot : c'.snapshot = none) (htrace : c'.loc.trace = c.loc.trace)
    (hprog : ∀ q k, c.prog ≠ .stmt q k) : Relies userId key w c' := by
  refine relies_of_trace hsnapshot (fun hchecks hmissed => ?_) fun x hx => h.listed x (htrace ▸ hx)
  have hnone : c.snapshot = none := by
    by_contra hne
    obtain ⟨q, k, hstmt⟩ := h.waiting (Option.isSome_iff_ne_none.mpr hne)
    exact hprog q k hstmt
  exact h.missed (hop ▸ hchecks) hnone (htrace ▸ hmissed)

theorem Inv.step (h : Inv cfg read keys userId key s) (hguard : Admits s a)
    (hs : Step (system cfg read keys) program s a s') : Inv cfg read keys userId key s' := by
  have hconforms := h.conforms.step (contract_met.and reads_met) hs
  cases hs with
  | called i op idle =>
    refine ⟨hconforms, forall_update (fun _ => relies_of_trace rfl (fun _ hmissed => ?_) fun x hx => ?_)
      fun j _ => h.relies j, h.log⟩
    · cases hmissed
    · cases hx
  | returned i c r hc hprog =>
    refine ⟨hconforms, forall_update_none fun j _ => h.relies j, fun d hd hop => ?_⟩
    rcases List.mem_append.mp hd with hd | hd
    · exact h.log d hd hop
    · obtain rfl := List.mem_singleton.mp hd
      exact (h.relies i c hc hop).listed
  | dropped i c next hc hprog ha =>
    refine ⟨hconforms, forall_update (fun hop => (h.relies i c hc hop).moved rfl rfl rfl ?_) fun j _ =>
      h.relies j, h.log⟩
    rintro q k hstmt
    rcases hprog with hprog | ⟨k', hprog, -⟩ <;> simp [hprog] at hstmt
  | committed i c k b hc hprog hlive hview =>
    obtain ⟨houtlives, hothers⟩ := h.committed hguard hc hprog hlive hview
    refine ⟨hconforms, forall_update (fun hop => (hothers i c hc hop).moved rfl rfl rfl ?_) fun j _ =>
      hothers j, fun d hd hop x hx => (h.log d hd hop x hx).later houtlives⟩
    intro q k' hstmt
    simp [hprog] at hstmt
  | began i c q k b hc hprog hlive hsnapshot hview =>
    have hbegan := fun hop => h.began hc hprog hlive hsnapshot hview hop
    exact ⟨hconforms, forall_update hbegan fun j _ => h.relies j, h.log⟩
  | answered i c q k b₀ b hc hprog hlive hsnapshot hview hfree =>
    exact ⟨hconforms, forall_update (h.answered hc hprog hlive hsnapshot) fun j _ => h.relies j, h.log⟩
  | lost i c q k hc hprog hlost ha =>
    refine ⟨hconforms, forall_update (fun hop => relies_of_trace rfl (fun _ hmissed => ?_)
      fun x hx => ?_) fun j _ => h.relies j, h.log⟩
    · rw [Call.asked, Local.ask_trace, missed_append hmissed] at hmissed
      unfold missed at hmissed
      split at hmissed
      · rename_i htrace
        cases htrace
      · cases hmissed
    · rcases List.mem_append.mp hx with hx | hx
      · exact (h.relies i c hc hop).listed x hx
      · obtain rfl := List.mem_singleton.mp hx
        cases q <;> trivial
  | others b hforeign =>
    have hbeside : Beside keys s.base b := of_decide_eq_true hforeign
    have hnone : NoneKeyed userId key s.base → NoneKeyed userId key b := by
      intro hnone row hrow hkeyed
      rcases hbeside.newCats row hrow with hnil | ⟨c₀, hc₀, hsame⟩
      · cases hkeyed.2.symm.trans hnil
      · exact hnone c₀ hc₀ ⟨hsame.createdByUserId.symm.trans hkeyed.1,
          hsame.idempotencyKey.symm.trans hkeyed.2⟩
    exact ⟨hconforms, fun j d hd hop => (h.relies j d hd hop).later hbeside.cats fun _ => hnone,
      fun d hd hop x hx => (h.log d hd hop x hx).later hbeside.cats⟩

theorem inv_of_idle (hidle : Idle s) : Inv cfg read keys userId key s where
  conforms := ⟨fun i c hc => by simp [hidle.calls i] at hc, by simp [hidle.history],
    by simp [hidle.log]⟩
  relies i c hc := by simp [hidle.calls i] at hc
  log := by simp [hidle.log]

theorem notRefused_of_inv (h : ∀ userId key, Inv cfg read keys userId key s) : NotRefused s := by
  intro d hd userId key hop ids hresult c hc hkeyed hmem
  have hreturns := ((h userId key).conforms.log d hd).2
  obtain ⟨point, viewer, rows, hrows, rfl⟩ := hreturns userId key hop ids hresult
  obtain ⟨r, hr, hid⟩ := List.mem_map.mp hmem
  obtain ⟨hnot, c', hc', hsame⟩ := (h userId key).log d hd hop _ hrows r hr
  have heq : c' = c := (s.base.db.valid.holds .catsPkey).eq_of_key_eq hc' hc
    (congrArg some (hsame.id.trans hid)) (by simp)
  subst heq
  exact hnot ⟨hsame.createdByUserId.symm.trans hkeyed.1, hsame.idempotencyKey.symm.trans hkeyed.2⟩

/-- As long as each commit is admitted, no attempt is refused with the cat of its key, and all that
succeed answer with it. -/
theorem not_refused_by_own_cat {as : List (CreationAction n)} (h : Run cfg read s as s')
    (hguard : Each (step (system cfg read (keysOf (as.filterMap called))) program) Admits s as) :
    Always (step (system cfg read (keysOf (as.filterMap called))) program) NotRefused s as ∧
      ∀ userId key, ∀ d ∈ s'.log, Creates userId key d.op → ∀ a, d.result = .ok a →
        ∃ c ∈ s'.base.db.tables.cats, Keyed userId key c ∧ ∃ detail, a = .cat detail ∧ detail.id = c.id := by
  refine ⟨?_, fun userId key d hd hop a => exists_cat_of_ok h hd hop⟩
  have hinv : Always _ (fun s => ∀ userId key,
      Inv cfg read (keysOf (as.filterMap called)) userId key s) s as :=
    Each.always (fun _ _ _ ht hadmits hstep userId key => (ht userId key).step hadmits (step_cases hstep))
      (fun _ _ => inv_of_idle h.idle) hguard
  exact hinv.mono fun _ ht => notRefused_of_inv ht

end Runs

/-- Every two places are near. -/
def nearConfig : Config :=
  { Backend.plainConfig with dwithin := fun _ _ => true }

/-- The cat is not known to be new. -/
def attempt (k : ℕ) : Creation :=
  .cat (Backend.plainEnv k)
    { userId := 1, area := ⟨41, 29⟩, idempotencyKey := some "key", confirmedNew := false }

/-- One call looks the key up, then the other creates the cat. -/
def overtaken : List (CreationAction 2) :=
  [.call 0 (attempt 1), .call 1 (attempt 2)] ++ List.replicate 3 (.run 0) ++
    List.replicate 17 (.run 1) ++ List.replicate 4 (.run 0)

/-- Both calls have seen that no cat is near before the first one commits its own. -/
def abreast : List (CreationAction 2) :=
  [.call 0 (attempt 1), .call 1 (attempt 2)] ++ List.replicate 6 (.run 0) ++
    List.replicate 6 (.run 1) ++ List.replicate 11 (.run 0) ++ List.replicate 21 (.run 1)

def named : Except Error Created → Option (List UUID)
  | .error (.duplicateCandidates ids) => some ids
  | _ => none

theorem eq_of_named {r : Except Error Created} {ids : List UUID} (h : named r = some ids) :
    r = .error (.duplicateCandidates ids) := by
  unfold named at h
  split at h
  · exact congrArg _ (congrArg _ (Option.some.inj h))
  · cases h

theorem impartial_plainEnv (k : ℕ) : Impartial (Backend.plainEnv k) :=
  ⟨nofun, nofun, nofun, nofun⟩

theorem attempts_attempt (k : ℕ) : Attempts 1 "key" (attempt k) :=
  ⟨⟨_, _, rfl, rfl, rfl⟩, impartial_plainEnv k⟩

theorem refused_when_overtaken : ¬ ∀ as s', Run nearConfig plainReading (oneAccount 2) as s' →
    (∀ o ∈ as.filterMap called, ∃ k, o = attempt k) → NotRefused s' := by
  intro h
  obtain ⟨s', hs', htest⟩ := exists_of_exec_test
    (step (system nearConfig plainReading (keysOf (overtaken.filterMap called))) program)
    (oneAccount 2) overtaken (fun s => (s.log.map fun d => named d.result) == [none, some [21]] &&
      (s.base.db.tables.cats.map fun c => (c.id, c.createdByUserId, c.idempotencyKey)) ==
        [(21, some 1, some "key")]) (by decide +kernel)
  simp only [Bool.and_eq_true, beq_iff_eq] at htest
  obtain ⟨hlog, hcats⟩ := htest
  have hrun : Run nearConfig plainReading (oneAccount 2) overtaken s' :=
    ⟨oneAccount_idle 2, by decide, hs'⟩
  have hcalls : ∀ o ∈ overtaken.filterMap called, ∃ k, o = attempt k := by
    intro o ho
    rcases List.mem_cons.mp ho with rfl | ho
    · exact ⟨1, rfl⟩
    · exact ⟨2, List.mem_singleton.mp ho⟩
  obtain ⟨d, hd, hnamed⟩ : ∃ d ∈ s'.log, named d.result = some [21] :=
    List.mem_map.mp (hlog ▸ List.mem_cons_of_mem _ List.mem_cons_self)
  obtain ⟨c, hc, hrow⟩ : ∃ c ∈ s'.base.db.tables.cats,
      (c.id, c.createdByUserId, c.idempotencyKey) = (21, some 1, some "key") :=
    List.mem_map.mp (hcats ▸ List.mem_cons_self)
  obtain ⟨k, hk⟩ := hcalls d.op (List.mem_of_getElem? (hrun.ruled.listed d hd))
  simp only [Prod.mk.injEq] at hrow
  exact h overtaken s' hrun hcalls d hd 1 "key" (hk ▸ attempts_attempt k) [21] (eq_of_named hnamed) c
    hc ⟨hrow.2.1, hrow.2.2⟩ (by simp [hrow.1])

theorem not_refused_abreast : ∃ s', Run nearConfig plainReading (oneAccount 2) abreast s' ∧
    (s'.log.map fun d => d.result.isOk) = [true, true] ∧
    Always (step (system nearConfig plainReading (keysOf (abreast.filterMap called))) program)
      NotRefused (oneAccount 2) abreast := by
  obtain ⟨s', hs', hresults⟩ := exists_of_exec_test
    (step (system nearConfig plainReading (keysOf (abreast.filterMap called))) program)
    (oneAccount 2) abreast (fun s => (s.log.map fun d => d.result.isOk) == [true, true])
    (by decide +kernel)
  have hrun : Run nearConfig plainReading (oneAccount 2) abreast s' :=
    ⟨oneAccount_idle 2, by decide, hs'⟩
  exact ⟨s', hrun, beq_iff_eq.mp hresults, (not_refused_by_own_cat hrun (by decide +kernel)).1⟩

end Tekir.OwnDuplicates
