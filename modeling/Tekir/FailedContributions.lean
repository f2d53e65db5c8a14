import Tekir.ContentCalls
import Tekir.Cursors
import Tekir.DiscoverPages
import Tekir.Losses

/-!
# Contributions that fail

`CreateOrdinaryUpdate` and `CreateNeedsHelpUpdate` look things up, write the update in one
transaction, and then look up the display name of its author for the answer. Any statement
or commit of the call can be lost.
-/
namespace Tekir.FailedContributions
open Machine Table Schema Statements UpdateQueries Environment ReadServices ContentWrites ContentQueries
  ContentCalls Programs Interleaving Dialects Losses
open CatServices (OrdinaryUpdateRequest CatUpdate)

inductive Contribution
  | ordinary (env : Env) (req : OrdinaryUpdateRequest)
  | needsHelp (env : Env) (catId : Option UUID) (userId : UUID) (deviceId : Option UUID)
      (category : String) (comment : Option String)

def contribute : Contribution → Script CatUpdate
  | .ordinary env req => createOrdinaryUpdate env req
  | .needsHelp env catId userId deviceId category comment =>
    createNeedsHelpUpdate env catId userId deviceId category comment

/-- The call has the database to itself. -/
def engine (cfg : Config) (read : Reading) : Engine World Write Query Query.Row Error :=
  (dialect cfg read).engine true fun _ _ _ => false

/-- The tables that a contribution writes are as they were. -/
structure Untouched (w w' : World) : Prop where
  updates : w'.db.tables.updates = w.db.tables.updates
  updateStatuses : w'.db.tables.updateStatuses = w.db.tables.updateStatuses
  catMedia : w'.db.tables.catMedia = w.db.tables.catMedia
  notificationOutbox : w'.db.tables.notificationOutbox = w.db.tables.notificationOutbox
  cats : w'.db.tables.cats = w.db.tables.cats

instance (w w' : World) : Decidable (Untouched w w') :=
  decidable_of_iff (_ ∧ _ ∧ _ ∧ _ ∧ _)
    ⟨fun ⟨h₁, h₂, h₃, h₄, h₅⟩ => ⟨h₁, h₂, h₃, h₄, h₅⟩,
      fun h => ⟨h.updates, h.updateStatuses, h.catMedia, h.notificationOutbox, h.cats⟩⟩

theorem untouched_refl (w : World) : Untouched w w :=
  ⟨rfl, rfl, rfl, rfl, rfl⟩

/-- What a call returns that loses the statements and commits of `lost`, and the world it
leaves. -/
def outcome (cfg : Config) (read : Reading) (c : Contribution) (lost : ℕ → Bool) (w : World) :
    Option (Except Error CatUpdate × World) :=
  (lossy (engine cfg read) (contribute c) lost {} w).map fun x => (x.1, x.2.2)

/-- With nothing lost, the call posts its update. -/
def Posts (cfg : Config) (read : Reading) (c : Contribution) (w : World) : Prop :=
  ∃ r w', outcome cfg read c (fun _ => false) w = some (r, w') ∧ ¬ Untouched w w'

/-- The number of statements and commits of the call if none is lost. -/
def statements (cfg : Config) (read : Reading) (c : Contribution) (w : World) : ℕ :=
  asked (engine cfg read) (contribute c) {} w

section Calls

variable {cfg : Config} {read : Reading} {w : World} {l : Local Write Query Query.Row Error}
  {q : Query}

/-- The writes of a contribution. -/
def Query.Contributes : Query → Prop
  | .createUpdate _ | .createUpdateStatus _ _ | .updateCatLastUpdateAt _ _
  | .createCatMedia _ _ _ _ | .createNotificationOutbox _ _ _ => True
  | _ => False

def KeepsUsers (l : Local Write Query Query.Row Error) : Prop :=
  ∀ w ∈ l.writes, ∀ t, (w.apply t).users = t.users

theorem keepsUsers_of_nil (hl : l.writes = []) : KeepsUsers l := by
  intro w hw
  rw [hl] at hw
  cases hw

theorem KeepsUsers.ask (h : KeepsUsers l) (hq : Query.Contributes q) {r : Except Error q.Row}
    (v : World) :
    KeepsUsers (l.ask (engine cfg read) q r ((engine cfg read).effect q v v)) := by
  intro w hw t
  rcases List.mem_append.mp hw with hw | hw
  · exact h w hw t
  · obtain ⟨a, hrun⟩ := Dialect.mem_effect hw
    have hemits := emits_of_run hrun hw
    cases q with
    | createUpdate arg => rcases hemits with rfl | rfl <;> rfl
    | createUpdateStatus | updateCatLastUpdateAt | createCatMedia =>
      cases hemits
      rfl
    | createNotificationOutbox =>
      obtain ⟨t', rfl⟩ := hemits
      rfl
    | _ => exact hq.elim

theorem users_of_view (h : KeepsUsers l) {w' : World} (hview : view l.writes w = some w') :
    w'.db.tables.users = w.db.tables.users := by
  rw [tables_of_view hview]
  exact applyAll_frame Tables.users h _

/-- The author's account is there. -/
def HasAccount (userId : UUID) (t : Tables) : Prop :=
  ∃ u ∈ t.users, u.id = userId

theorem getUserByID_of_hasAccount (cfg : Config) (read : Reading) {userId : UUID} (h : HasAccount userId w.db.tables) :
    ∃ user, (engine cfg read).answer (.getUserByID userId) w w = .ok user := by
  obtain ⟨u, hu, hid⟩ := h
  have hmem : u ∈ w.db.tables.users.filter fun u => u.id == userId :=
    List.mem_filter.mpr ⟨hu, beq_iff_eq.mpr hid⟩
  cases hrows : w.db.tables.users.filter fun u => u.id == userId with
  | nil => simp [hrows] at hmem
  | cons user rest =>
    refine ⟨user, ?_⟩
    simp [engine, Dialect.engine, Dialect.answer, dialect, Query.run, reads, AccountQueries.getUserByID,
      hrows, Except.map]

theorem hasAccount_of_createUpdate {arg : CreateUpdateParams} {userId id : UUID}
    (hauthor : arg.authorUserId = some userId)
    (h : (engine cfg read).answer (.createUpdate arg) w w = .ok id) :
    HasAccount userId w.db.tables := by
  have hrun := Dialect.answer_eq_ok.mp h
  have hcreated : ∃ db : Database, ∃ u ∈ db.tables.updates, u.authorUserId = some userId ∧
      db.tables.users = w.db.tables.users := by
    simp only [dialect, Query.run, ContentQueries.createUpdate] at hrun
    split at hrun
    · rename_i hany
      obtain ⟨-, -, db, hdb⟩ := writes_eq_ok.mp hrun
      obtain ⟨u, hu, hid⟩ := List.any_eq_true.mp hany
      have htables := write_eq_ok.mp hdb
      refine ⟨db, arg.assign u, ?_, hauthor, by rw [htables]; rfl⟩
      rw [htables]
      exact mem_updateWhere.mpr ⟨u, hu, by rw [if_pos hid]⟩
    · obtain ⟨-, -, db, hdb⟩ := writes_eq_ok.mp hrun
      have htables := write_eq_ok.mp hdb
      refine ⟨db, arg.insert w.db.tables.updatesSeq, ?_, hauthor, by rw [htables]; rfl⟩
      rw [htables]
      exact List.mem_append_right _ (List.mem_singleton.mpr rfl)
  obtain ⟨db, u, hu, huser, husers⟩ := hcreated
  obtain ⟨account, haccount, hid⟩ := db.valid.holds .updatesAuthorUserIdFkey u hu userId huser
  exact ⟨account, husers ▸ haccount, hid⟩

section Parts

variable {α : Type}

/-- A part of the call before the transaction. -/
abbrev LooksUp (cfg : Config) (read : Reading) (w : World) (p : Script α)
    (l : Local Write Query Query.Row Error) : Prop :=
  Leads (engine cfg read) w (fun l _ => l.writes = []) p l

theorem readOnce_looksUp (hl : l.writes = []) : LooksUp cfg read w (readOnce q) l :=
  leads_read hl rfl

theorem orElse_looksUp (missing : Error) (hl : l.writes = []) :
    LooksUp cfg read w (orElse missing (readOnce q)) l := by
  refine (readOnce_looksUp hl).bind rfl fun l r hl => ?_
  split <;> exact hl

theorem LooksUp.andThen {β : Type} {p : Script α} {f : α → Script β} (hp : LooksUp cfg read w p l)
    (hf : ∀ l a, l.writes = [] → LooksUp cfg read w (f a) l) :
    LooksUp cfg read w (p.andThen f) l :=
  Leads.andThen hp (fun l a hl => hf l a hl) fun _ _ hl => hl

theorem requireCat_looksUp (id : UUID) (viewer : Option UUID) (hl : l.writes = []) :
    LooksUp cfg read w (requireCat id viewer) l :=
  (readOnce_looksUp hl).andThen fun _ _ hl => hl

theorem resolveOwnMedia_looksUp (mediaId : Option (Option UUID)) (userId : UUID)
    (hl : l.writes = []) : LooksUp cfg read w (resolveOwnMedia mediaId userId) l := by
  unfold resolveOwnMedia
  split
  · exact hl
  · exact hl
  · exact (orElse_looksUp _ hl).andThen fun _ _ hl => hl

theorem fetchIdempotent_looksUp (env : Env) (userId : UUID) (key : String) (hl : l.writes = []) :
    LooksUp cfg read w (fetchIdempotentOrdinaryUpdate env userId key) l :=
  (readOnce_looksUp hl).andThen fun _ _ hl => LooksUp.andThen
    ((readOnce_looksUp hl).andThen fun _ _ hl => hl) fun _ _ hl => hl

theorem earlierUpdate_looksUp (env : Env) (req : OrdinaryUpdateRequest) (hl : l.writes = []) :
    LooksUp cfg read w (earlierUpdate env req) l := by
  unfold earlierUpdate
  split
  · exact hl
  · exact fetchIdempotent_looksUp env _ _ hl

theorem earlierUpdate_silent (env : Env) (req : OrdinaryUpdateRequest) :
    Silent (earlierUpdate env req) := by
  unfold earlierUpdate
  split
  · trivial
  · exact silent_andThen silent_read fun _ =>
      silent_andThen (silent_andThen silent_read fun _ => trivial) fun _ => trivial

theorem recoverOrdinaryUpdate_silent (env : Env) (req : OrdinaryUpdateRequest) (e : Error) :
    Silent (recoverOrdinaryUpdate env req e) := by
  unfold recoverOrdinaryUpdate
  split
  · refine silent_bind (earlierUpdate_silent env req) fun r => ?_
    cases r <;> trivial
  · trivial

/-- A part of the transaction after its first statement. -/
abbrev Adds (cfg : Config) (read : Reading) (w : World) (p : Script α)
    (l : Local Write Query Query.Row Error) : Prop :=
  Leads (engine cfg read) w (fun l _ => KeepsUsers l) p l

theorem ask_adds (hq : Query.Contributes q) (hl : KeepsUsers l) : Adds cfg read w (ask q) l :=
  leads_query fun v _ => hl.ask hq v

theorem Adds.andThen {β : Type} {p : Script α} {f : α → Script β} (hp : Adds cfg read w p l)
    (hf : ∀ l a, KeepsUsers l → Adds cfg read w (f a) l) : Adds cfg read w (p.andThen f) l :=
  Leads.andThen hp (fun l a hl => hf l a hl) fun _ _ hl => hl

theorem createStatuses_adds (id : UUID) (statuses : List Status) (hl : KeepsUsers l) :
    Adds cfg read w (createStatuses id statuses) l := by
  induction statuses generalizing l with
  | nil => exact hl
  | cons status left ih =>
    have hq : Query.Contributes (.createUpdateStatus id status) := trivial
    exact (ask_adds hq hl).andThen fun _ _ hl => ih hl

theorem linkGallery_adds (id : UUID) (arg : Store.CreateOrdinaryUpdateParams)
    (hl : KeepsUsers l) : Adds cfg read w (ContentCalls.linkGallery id arg) l := by
  unfold ContentCalls.linkGallery
  split
  · exact hl
  · rename_i mediaId _
    have hq : Query.Contributes (.createCatMedia id arg.catId mediaId arg.createdAt) := trivial
    refine (ask_adds hq hl).bind rfl fun l r hl => ?_
    split <;> exact hl

/-- Once the update is created its author is known to have an account. -/
theorem store_leads (env : Env) (arg : Store.CreateOrdinaryUpdateParams) (hl : l.writes = []) :
    Leads (engine cfg read) w (fun l r => KeepsUsers l ∧
        ∀ id, r = .ok id → HasAccount arg.authorUserId w.db.tables)
      ((ask (.createUpdate arg.row)).andThen fun id =>
        (createStatuses id arg.statuses).andThen fun _ =>
        (ask (.updateCatLastUpdateAt arg.createdAt arg.catId)).andThen fun _ =>
        (ContentCalls.linkGallery (env.uuid 1) arg).andThen fun _ =>
        (ask (.createNotificationOutbox (env.uuid 2) id env.now)).andThen fun _ =>
        .ret (.ok id)) l := by
  have hcreate : Leads (engine cfg read) w (fun l r => KeepsUsers l ∧
      ∀ id, r = .ok id → HasAccount arg.authorUserId w.db.tables) (ask (.createUpdate arg.row)) l := by
    refine leads_query fun v hv => ⟨(keepsUsers_of_nil hl).ask (q := .createUpdate arg.row) trivial v,
      fun id hid => ?_⟩
    rw [hl, (engine cfg read).view_nil] at hv
    cases hv
    exact hasAccount_of_createUpdate rfl hid
  refine hcreate.andThen (fun l id hl => ?_) fun l e hl => ⟨hl.1, by simp⟩
  refine Leads.mono ?_ fun l r hr => ⟨hr, fun _ _ => hl.2 id rfl⟩
  refine Adds.andThen (createStatuses_adds id arg.statuses hl.1) fun l _ hl => ?_
  refine Adds.andThen (ask_adds (q := .updateCatLastUpdateAt _ _) trivial hl) fun l _ hl => ?_
  refine Adds.andThen (linkGallery_adds _ arg hl) fun l _ hl => ?_
  exact Adds.andThen (ask_adds (q := .createNotificationOutbox _ _ _) trivial hl) fun l _ hl => hl

/-- Whatever follows the transaction looks up the author's name first and has it. -/
theorem storeOrdinaryUpdate_commitsOnce (env : Env) (arg : Store.CreateOrdinaryUpdateParams)
    (hl : l.writes = []) {f : Except Error UUID → Script α} (herror : ∀ e, Silent (f (.error e)))
    (answer : UUID → Option String → α)
    (hok : ∀ id, f (.ok id) = (authorDisplayNameFor arg.authorUserId).andThen fun name =>
      .ret (.ok (answer id name))) :
    CommitsOnce (engine cfg read) w ((storeOrdinaryUpdate env arg).bind f) l := by
  refine (store_leads env arg hl).commitsOnce_transaction herror fun l id w' hpost hview => ?_
  have haccount : HasAccount arg.authorUserId w'.db.tables := by
    obtain ⟨u, hu, hid⟩ := hpost.2 id rfl
    exact ⟨u, (users_of_view hpost.1 hview).symm ▸ hu, hid⟩
  obtain ⟨user, huser⟩ := getUserByID_of_hasAccount cfg read haccount
  rw [hok id]
  exact ⟨_, _, rfl, trivial, user, huser, trivial⟩

end Parts

theorem storeAndAnswer_commitsOnce (env : Env) (req : OrdinaryUpdateRequest) {catId : UUID}
    {statuses : List Status} {media media' : Option Medium} (hl : l.writes = []) :
    CommitsOnce (engine cfg read) w
      (storeAndAnswer env req (ordinaryUpdateParams env req catId statuses media) media') l :=
  storeOrdinaryUpdate_commitsOnce env _ hl (recoverOrdinaryUpdate_silent env req) _ fun _ => rfl

theorem prepareOrdinaryUpdate_leads (env : Env) (req : OrdinaryUpdateRequest) (catId : UUID)
    (hl : l.writes = []) :
    Leads (engine cfg read) w (fun l r => l.writes = [] ∧ ∀ prepared, r = .ok prepared →
        ∃ statuses, prepared.1 = ordinaryUpdateParams env req catId statuses prepared.2)
      (prepareOrdinaryUpdate env req catId) l := by
  have hcheck : LooksUp cfg read w (check (checkOrdinaryUpdate env req)) l := hl
  refine Leads.andThen hcheck (fun l statuses hl => ?_) fun l e hl => ⟨hl, by simp⟩
  refine Leads.andThen (requireCat_looksUp _ _ hl) (fun l _ hl => ?_) fun l e hl => ⟨hl, by simp⟩
  refine Leads.andThen (resolveOwnMedia_looksUp _ _ hl) (fun l media hl => ?_)
    fun l e hl => ⟨hl, by simp⟩
  refine ⟨hl, fun prepared hprepared => ⟨statuses, ?_⟩⟩
  cases hprepared
  rfl

theorem createOrdinaryUpdate_commitsOnce (env : Env) (req : OrdinaryUpdateRequest)
    (hl : l.writes = []) :
    CommitsOnce (engine cfg read) w (ContentCalls.createOrdinaryUpdate env req) l := by
  unfold ContentCalls.createOrdinaryUpdate
  split
  · trivial
  · rename_i catId _
    refine (earlierUpdate_looksUp env req hl).commitsOnce trivial fun l r hl => ?_
    split
    · trivial
    · refine (prepareOrdinaryUpdate_leads env req catId hl).commitsOnce_andThen
        fun l prepared hl => ?_
      obtain ⟨statuses, hprepared⟩ := hl.2 prepared rfl
      rw [hprepared]
      exact storeAndAnswer_commitsOnce env req hl.1
    · trivial

theorem createNeedsHelpUpdate_commitsOnce (env : Env) (catId : Option UUID) (userId : UUID)
    (deviceId : Option UUID) (category : String) (comment : Option String) (hl : l.writes = []) :
    CommitsOnce (engine cfg read) w
      (ContentCalls.createNeedsHelpUpdate env catId userId deviceId category comment) l := by
  have hcheck : LooksUp cfg read w (check (checkNeedsHelpUpdate env catId category comment)) l := hl
  refine hcheck.commitsOnce_andThen fun l found hl => ?_
  refine (requireCat_looksUp _ _ hl).commitsOnce_andThen fun l _ hl => ?_
  exact storeOrdinaryUpdate_commitsOnce env _ hl (fun _ => trivial) _ fun _ => rfl

theorem contribute_commitsOnce (c : Contribution) (hl : l.writes = []) :
    CommitsOnce (engine cfg read) w (contribute c) l := by
  cases c with
  | ordinary env req => exact createOrdinaryUpdate_commitsOnce env req hl
  | needsHelp env catId userId deviceId category comment =>
    exact createNeedsHelpUpdate_commitsOnce env catId userId deviceId category comment hl

theorem exists_view_effect {ws : List Write} {v : World} (hview : view ws w = some v) (q : Query) :
    ∃ v', view (ws ++ (engine cfg read).effect q v v) w = some v' := by
  have hvalid : Valid (applyAll ((engine cfg read).effect q v v) v.db.tables) := by
    simp only [engine, Dialect.engine, Dialect.effect]
    split
    · rename_i a ws hrun
      exact valid_of_run hrun
    · exact v.db.valid
  rw [tables_of_view hview, ← applyAll_append] at hvalid
  exact ⟨_, dif_pos hvalid⟩

theorem exists_outcome (c : Contribution) (lost : ℕ → Bool) :
    ∃ r w', outcome cfg read c lost w = some (r, w') := by
  obtain ⟨x, hx⟩ : ∃ x, lossy (engine cfg read) (contribute c) lost {} w = some x :=
    exists_lossy (fun _ _ _ q hview => exists_view_effect hview q) (view_nil w)
  exact ⟨_, _, by rw [outcome, hx]; rfl⟩

/-- The outcome is that of a run of the backend in which no other call is open. -/
theorem exists_exec_outcome {n : ℕ}
    {s : State World Write Query Query.Row Error Contribution (Except Error CatUpdate) n}
    (hnone : ∀ j, s.calls j = none) (i : Fin n) {c : Contribution} {lost : ℕ → Bool}
    {r : Except Error CatUpdate} {w' : World}
    (h : outcome cfg read c lost s.base = some (r, w')) :
    ∃ as s', exec (step (engine cfg read) contribute) s as = some s' ∧ s'.base = w' ∧
      ∃ d, s'.log = s.log ++ [d] ∧ d.op = c ∧ d.result = r := by
  obtain ⟨⟨_, l, _⟩, hrun, hx⟩ := Option.map_eq_some_iff.mp h
  cases hx
  have hcalled : step (engine cfg read) contribute s (.call i c) =
      some { s with
        calls := Function.update s.calls i (some (s.first contribute c))
        tickets := s.tickets + 1 } := by
    simp [step, hnone i]
  have hlone : Lone { s with
      calls := Function.update s.calls i (some (s.first contribute c))
      tickets := s.tickets + 1 } i (s.first contribute c) (contribute c) {} s.base :=
    ⟨by simp, rfl, rfl, rfl, rfl, fun j hj => by simp [Function.update_of_ne hj, hnone j]⟩
  obtain ⟨as, s', has, hbase, -, hlog⟩ := exists_exec_lossy contribute rfl hlone hrun
  exact ⟨.call i c :: as, s', by simp [hcalled, has], hbase, _, hlog, rfl, rfl⟩

/-- The call fails without a trace, whichever of its statements and commits are lost, unless
with nothing lost it posts its update and what it loses is only the last look-up, that of its
author's name after the commit. -/
theorem untouched_iff (c : Contribution) (lost : ℕ → Bool) :
    (∃ r w', outcome cfg read c lost w = some (r, w')) ∧
      ((∀ e w', outcome cfg read c lost w = some (.error e, w') → Untouched w w') ↔
        ¬ (Posts cfg read c w ∧ LosesLast lost (statements cfg read c w))) := by
  have honce : CommitsOnce (engine cfg read) w (contribute c) {} := contribute_commitsOnce c rfl
  have h : FailsChanged (engine cfg read) (fun w' => ¬ Untouched w w') (contribute c) lost {} w ↔ _ :=
    honce.failsChanged_iff (not_not_intro (untouched_refl w))
  have hposts : Changes (engine cfg read) (fun w' => ¬ Untouched w w') (contribute c) {} w ↔
      Posts cfg read c w := by
    simp only [Changes, Posts, outcome, lossy_none, Option.map_eq_some_iff, Prod.exists, Prod.mk.injEq]
    constructor
    · rintro ⟨r, l, w', hrun, hchanged⟩
      exact ⟨r, w', ⟨r, l, w', hrun, rfl, rfl⟩, hchanged⟩
    · rintro ⟨r, w', ⟨_, l, _, hrun, rfl, rfl⟩, hchanged⟩
      exact ⟨_, l, _, hrun, hchanged⟩
  rw [hposts] at h
  refine ⟨exists_outcome c lost, ?_⟩
  rw [statements, ← h]
  simp only [FailsChanged, outcome, Option.map_eq_some_iff, Prod.exists, Prod.mk.injEq, not_exists,
    not_and, not_not]
  constructor
  · exact fun hall e l w' hrun => hall e w' ⟨_, l, w', hrun, rfl, rfl⟩
  · rintro hall e w' ⟨r, l, w'', hrun, rfl, rfl⟩
    exact hall e l w'' hrun

end Calls

/-- One account and one cat. -/
def oneCat : World where
  db := ⟨{
    users := [{ id := 1, phone := "+905551112233", phoneVerifiedAt := 0 }]
    cats := [{ id := 1, name := none, area := ⟨41, 29⟩, createdAt := 0 }] }, by decide⟩

def helpCall (k : ℕ) : Contribution :=
  .needsHelp (Backend.plainEnv k) (some 1) 1 none "trapped" none

def callAt (c : Contribution) (lost : ℕ → Bool) (w : World) :
    Option (Except Error CatUpdate × World) :=
  outcome Backend.plainConfig (Cursors.reading Cursors.numerals DiscoverPages.coarse) c lost w

/-- The look-up of the author's name fails, after the update is stored; whoever tries again
posts a second one. -/
theorem help_posted_twice : ∃ e w₁ answer w₂,
    callAt (helpCall 1) (· == 5) oneCat = some (.error e, w₁) ∧ ¬ Untouched oneCat w₁ ∧
      callAt (helpCall 2) (fun _ => false) w₁ = some (.ok answer, w₂) ∧
      w₂.db.tables.updates.map (fun u => (u.id, u.authorUserId, u.needsHelp)) =
        [(10, some 1, true), (20, some 1, true)] := by
  have htest : (callAt (helpCall 1) (· == 5) oneCat).any (fun x =>
      x.1.toOption.isNone && !decide (Untouched oneCat x.2) &&
        (callAt (helpCall 2) (fun _ => false) x.2).any fun y =>
          y.1.toOption.isSome &&
            y.2.db.tables.updates.map (fun u => (u.id, u.authorUserId, u.needsHelp)) ==
              [(10, some 1, true), (20, some 1, true)]) = true := by decide +kernel
  obtain ⟨⟨r, w₁⟩, hfirst, htest⟩ := Option.any_eq_true .. |>.mp htest
  simp only [Bool.and_eq_true, Bool.not_eq_true', decide_eq_false_iff_not] at htest
  obtain ⟨⟨hfails, hchanged⟩, hretry⟩ := htest
  obtain ⟨⟨r', w₂⟩, hsecond, hretry⟩ := Option.any_eq_true .. |>.mp hretry
  simp only [Bool.and_eq_true, beq_iff_eq] at hretry
  cases r with
  | ok a => cases hfails
  | error e =>
    cases r' with
    | error e => cases hretry.1
    | ok answer => exact ⟨e, w₁, answer, w₂, hfirst, hchanged, hsecond, hretry.2⟩

end Tekir.FailedContributions
