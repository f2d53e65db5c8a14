import Tekir.ContentUses
import Tekir.Contracts

/-!
# Runs of content calls

Which writes a content call makes, and what holds in every run of content calls: each
identifier that a call draws is first seen in what that call has committed, and a cat's
owner and a medium's uploader are who created them. Logins and the other account calls
commit in between.
-/
namespace Tekir.ContentRuns
open Machine Table Schema Statements UpdateQueries NotificationQueries Environment ContentWrites
  ContentQueries ContentCalls ContentUses Programs Interleaving Bookkeeping Contracts Dialects
open CatServices (CreateRequest OrdinaryUpdateRequest)
open ReadServices (Reading)

/-- A login gives an update an author if it had none. -/
def claimed (u u' : Update) : Bool :=
  u' == u || (u.authorUserId.isNone && u' == { u with authorUserId := u'.authorUserId })

/-- What an account call may commit. No new account gets an identifier of `given`. -/
structure Aside (given : List UUID) (t t' : Tables) : Prop where
  cats : t'.cats = t.cats
  media : t'.media = t.media
  catMedia : t'.catMedia = t.catMedia
  updates : List.Forall₂ (fun u u' => claimed u u' = true) t.updates t'.updates
  updateStatuses : t'.updateStatuses = t.updateStatuses
  notificationOutbox : t'.notificationOutbox = t.notificationOutbox
  notifications : t'.notifications = t.notifications
  reports : t'.reports = t.reports
  userBlocks : t'.userBlocks = t.userBlocks
  follows : ∀ f ∈ t'.follows, ∃ g ∈ t.follows, g.catId = f.catId ∧ (g = f ∨ g.userId = none)
  users : ∀ u ∈ t'.users, u.id ∈ given → ∃ v ∈ t.users, v.id = u.id

instance (given : List UUID) (t t' : Tables) : Decidable (Aside given t t') :=
  decidable_of_iff
    (t'.cats = t.cats ∧ t'.media = t.media ∧ t'.catMedia = t.catMedia ∧
      List.Forall₂ (fun u u' => claimed u u' = true) t.updates t'.updates ∧ t'.updateStatuses = t.updateStatuses ∧
      t'.notificationOutbox = t.notificationOutbox ∧ t'.notifications = t.notifications ∧
      t'.reports = t.reports ∧ t'.userBlocks = t.userBlocks ∧
      (∀ f ∈ t'.follows, ∃ g ∈ t.follows, g.catId = f.catId ∧ (g = f ∨ g.userId = none)) ∧
      ∀ u ∈ t'.users, u.id ∈ given → ∃ v ∈ t.users, v.id = u.id)
    ⟨fun ⟨h₁, h₂, h₃, h₄, h₅, h₆, h₇, h₈, h₉, h₁₀, h₁₁⟩ =>
        ⟨h₁, h₂, h₃, h₄, h₅, h₆, h₇, h₈, h₉, h₁₀, h₁₁⟩,
      fun h => ⟨h.cats, h.media, h.catMedia, h.updates, h.updateStatuses,
        h.notificationOutbox, h.notifications, h.reports, h.userBlocks, h.follows, h.users⟩⟩

/-- Account calls commit in between, and any statement or commit can be lost. -/
def system (cfg : Config) (read : Reading) (given : List UUID) :
    Engine World Write Query Query.Row Error :=
  (dialect cfg read).engine true fun _ w w' => decide (Aside given w.db.tables w'.db.tables)

abbrev ContentLocal := Local Write Query Query.Row Error

abbrev ContentCommit := Commit World Write Query Query.Row Error Op

abbrev ContentDone := Done Write Query Query.Row Error Op (Except Error Answer)

abbrev ContentState (n : ℕ) := State World Write Query Query.Row Error Op (Except Error Answer) n

abbrev ContentAction (n : ℕ) := Action World Op n

/-- The tables whose rows get a generated identifier that others refer to. -/
inductive Kind | cats | media | updates | outbox
  deriving DecidableEq

/-- The identifier of this kind that a call draws. -/
def Kind.drawn : Kind → Op → Option UUID
  | .cats, .createCat env _ => some (env.uuid 1)
  | .media, .createCat env _ => some (env.uuid 0)
  | .media, .upload env _ _ _ _ => some (env.uuid 0)
  | .updates, .createOrdinaryUpdate env _ => some (env.uuid 0)
  | .updates, .createNeedsHelpUpdate env _ _ _ _ _ => some (env.uuid 0)
  | .outbox, .createOrdinaryUpdate env _ => some (env.uuid 2)
  | .outbox, .createNeedsHelpUpdate env _ _ _ _ _ => some (env.uuid 2)
  | _, _ => none

def Kind.ids : Kind → Tables → List UUID
  | .cats, t => t.cats.map Cat.id
  | .media, t => t.media.map Medium.id
  | .updates, t => t.updates.map Update.id
  | .outbox, t => t.notificationOutbox.map NotificationOutbox.id

/-- The identifiers of the rows a write creates. -/
def Kind.born : Kind → Write → List UUID
  | .cats, .cat row => [row.id]
  | .media, .medium row => [row.id]
  | .updates, .update arg => [arg.id]
  | .outbox, .outbox rows => rows.map NotificationOutbox.id
  | _, _ => []

/-- The query creates rows of this kind. -/
def Kind.creates : Kind → Query → Bool
  | .cats, .createCat _ _ => true
  | .media, .createMedia _ => true
  | .updates, .createUpdate _ => true
  | .outbox, .createNotificationOutbox _ _ _ => true
  | _, _ => false

/-- The identifiers that the calls draw are new and different. -/
def Fresh (ops : List Op) (t : Tables) : Prop :=
  ∀ k : Kind, (ops.filterMap k.drawn).Nodup ∧ ∀ x ∈ ops.filterMap k.drawn, x ∉ k.ids t

theorem eq_of_nodup_filterMap {α β : Type} {f : α → Option β} {as : List α}
    (h : (as.filterMap f).Nodup) {i j : ℕ} {a a' : α} {b : β} (hi : as[i]? = some a)
    (hj : as[j]? = some a') (ha : f a = some b) (ha' : f a' = some b) : i = j := by
  induction as generalizing i j with
  | nil => simp at hi
  | cons x as ih =>
    have hmem : ∀ {k : ℕ} {y : α}, as[k]? = some y → f y = some b → b ∈ as.filterMap f :=
      fun hk hy => List.mem_filterMap.mpr ⟨_, List.mem_of_getElem? hk, hy⟩
    have htail : (as.filterMap f).Nodup := by
      cases hx : f x with
      | none => rwa [List.filterMap_cons_none hx] at h
      | some c =>
        rw [List.filterMap_cons_some hx] at h
        exact (List.nodup_cons.mp h).2
    have hhead : f x = some b → b ∉ as.filterMap f := fun hx => by
      rw [List.filterMap_cons_some hx] at h
      exact (List.nodup_cons.mp h).1
    cases i with
    | zero =>
      obtain rfl : x = a := by simpa using hi
      cases j with
      | zero => rfl
      | succ j => exact absurd (hmem (by simpa using hj) ha') (hhead ha)
    | succ i =>
      cases j with
      | zero =>
        obtain rfl : x = a' := by simpa using hj
        exact absurd (hmem (by simpa using hi) ha) (hhead ha')
      | succ j => exact congrArg Nat.succ (ih htail (by simpa using hi) (by simpa using hj))

section Fresh

variable {ops : List Op} {t₀ : Tables}

/-- An identifier is drawn by one call. -/
theorem Fresh.ticket_eq (h : Fresh ops t₀) {k : Kind} {i j : ℕ} {o o' : Op} {x : UUID}
    (hi : ops[i]? = some o) (hj : ops[j]? = some o') (hx : k.drawn o = some x)
    (hx' : k.drawn o' = some x) : i = j :=
  eq_of_nodup_filterMap (h k).1 hi hj hx hx'

theorem Fresh.not_mem (h : Fresh ops t₀) {k : Kind} {o : Op} {x : UUID} (ho : o ∈ ops)
    (hx : k.drawn o = some x) : x ∉ k.ids t₀ :=
  (h k).2 x (List.mem_filterMap.mpr ⟨o, ho, hx⟩)

end Fresh

/-- The rows of a kind after a write are those before it and those it creates. -/
theorem ids_apply {k : Kind} {w : Write} {t : Tables} {x : UUID}
    (h : x ∈ k.ids (w.apply t)) : x ∈ k.ids t ∨ x ∈ k.born w := by
  cases k with
  | cats =>
    obtain ⟨c', hc', rfl⟩ := List.mem_map.mp h
    rcases mem_cats_apply hc' with rfl | ⟨c, hc, heq⟩
    · exact .inr (List.mem_singleton.mpr rfl)
    · exact .inl (List.mem_map.mpr ⟨c, hc, by rw [heq]⟩)
  | media =>
    obtain ⟨m, hm, rfl⟩ := List.mem_map.mp h
    rcases mem_media_apply hm with rfl | hm
    · exact .inr (List.mem_singleton.mpr rfl)
    · exact .inl (List.mem_map.mpr ⟨m, hm, rfl⟩)
  | updates =>
    obtain ⟨u', hu', rfl⟩ := List.mem_map.mp h
    rcases mem_updates_apply hu' with ⟨arg, rfl, rfl⟩ | ⟨arg, rfl, hid, u, hu, hu'⟩ | ⟨u, hu, heq⟩
    · exact .inr (List.mem_singleton.mpr rfl)
    · exact .inl (List.mem_map.mpr ⟨u, hu, hu'.trans hid.symm⟩)
    · exact .inl (List.mem_map.mpr ⟨u, hu, by rw [heq]⟩)
  | outbox =>
    obtain ⟨o', ho', rfl⟩ := List.mem_map.mp h
    rcases mem_outbox_apply ho' with ⟨rows, rfl, hrow⟩ | ⟨o, ho, heq⟩
    · exact .inr (List.mem_map.mpr ⟨o', hrow, rfl⟩)
    · exact .inl (List.mem_map.mpr ⟨o, ho, by rw [heq]⟩)

/-- No row of this kind has been created yet. -/
def Unborn (k : Kind) (l : ContentLocal) : Prop :=
  ∀ ws ∈ l.writes :: l.mine, ∀ w ∈ ws, k.born w = []

/-- Each call draws its rows once. -/
def contract (cfg : Config) : Contract Write Query Query.Row Error Op (Except Error Answer) where
  asks o l q := Asks cfg o q ∧ ∀ k : Kind, k.creates q = true → Unborn k l

section Met

variable {cfg : Config} {read : Reading} {given : List UUID} {o : Op} {q : Query} {α : Type}

/-- A statement of the call that creates no row. -/
def Plainly (cfg : Config) (o : Op) (q : Query) : Prop :=
  Asks cfg o q ∧ ∀ k : Kind, k.creates q = false

theorem plainly_of_reads (hq : q.Reads = true) : Plainly cfg o q :=
  ⟨.inl hq, fun k => by cases k <;> cases q <;> first | rfl | cases hq⟩

theorem born_of_emits {k : Kind} (hq : k.creates q = false) {w : Write} (hw : q.Emits w) :
    k.born w = [] := by
  cases q with
  | createUpdate arg =>
    rcases hw with rfl | rfl
    · cases k <;> first | rfl | cases hq
    · cases k <;> rfl
  | replaceUpdateStatuses updateId =>
    obtain ⟨rows, rfl, -⟩ := hw
    cases k <;> rfl
  | createNotificationOutbox id updateId now =>
    obtain ⟨t, rfl⟩ := hw
    cases k <;> first | rfl | cases hq
  | claimNotificationOutboxBatch skipped rowLimit =>
    obtain ⟨ids, rfl⟩ := hw
    cases k <;> rfl
  | markNotificationRead at' id userId =>
    obtain ⟨ids, rfl⟩ := hw
    cases k <;> rfl
  | deleteAccount step userId phone now =>
    obtain ⟨s, t, rfl⟩ := hw
    cases k <;> rfl
  | createCat | createMedia =>
    cases hw
    cases k <;> first | rfl | cases hq
  | _ => first | exact hw.elim | (cases hw; cases k <;> rfl)

theorem emits_of_effect {s v : World} {w : Write}
    (hw : w ∈ (system cfg read given).effect q s v) : q.Emits w := by
  obtain ⟨a, hrun⟩ := Dialect.mem_effect hw
  exact emits_of_run hrun hw

theorem Unborn.drop {k : Kind} {l : ContentLocal} (h : Unborn k l) : Unborn k l.drop := by
  intro ws hws
  rcases List.mem_cons.mp hws with rfl | hws
  · simp
  · exact h ws (List.mem_cons_of_mem _ hws)

theorem Unborn.publish {k : Kind} {l : ContentLocal} (h : Unborn k l) : Unborn k l.publish := by
  intro ws hws
  rcases List.mem_cons.mp hws with rfl | hws
  · simp
  · rcases List.mem_append.mp hws with hws | hws
    · exact h ws (List.mem_cons_of_mem _ hws)
    · obtain rfl := List.mem_singleton.mp hws
      exact h _ List.mem_cons_self

theorem Unborn.ask {k : Kind} {l : ContentLocal} (h : Unborn k l) {r : Except Error q.Row}
    {new : List Write} (hq : k.creates q = false) (hnew : ∀ w ∈ new, q.Emits w) :
    Unborn k (l.ask (system cfg read given) q r new) := by
  intro ws hws w hw
  rcases List.mem_cons.mp hws with rfl | hws
  · rcases List.mem_append.mp hw with hw | hw
    · exact h _ List.mem_cons_self w hw
    · exact born_of_emits hq (hnew w hw)
  · exact h ws (List.mem_cons_of_mem _ hws) w hw

/-- No row of these kinds has been created yet. -/
def Without (S : Kind → Prop) (l : ContentLocal) : Prop :=
  ∀ k, S k → Unborn k l

theorem without_start (S : Kind → Prop) : Without S {} := by
  intro k _ ws hws w hw
  obtain rfl : ws = [] := by simpa using hws
  cases hw

/-- Statements that create no row keep it so. -/
theorem meets_without {S : Kind → Prop} {p : Script α} (hp : p.Uses (Plainly cfg o))
    {l : ContentLocal} (hl : Without S l) : p.Meets (system cfg read given) ((contract cfg).asks o)
      (fun _ => True) (fun l _ => Without S l) l := by
  refine hp.meets_of_kept hl (fun l q r new hq hl hnew k hk => ?_)
    (fun l hl k hk => (hl k hk).drop) (fun l hl k hk => (hl k hk).publish) (fun l q hq hl => ?_)
    (fun _ _ => trivial) fun _ _ hl => hl
  · refine (hl k hk).ask (hq.2 k) fun w hw => ?_
    obtain ⟨b₀, b, hw⟩ := hnew w hw
    exact emits_of_effect hw
  · refine ⟨hq.1, fun k hk => ?_⟩
    rw [hq.2 k] at hk
    cases hk

theorem meets_plainly {p : Script α} (hp : p.Uses (Plainly cfg o)) {l : ContentLocal} :
    p.Meets (system cfg read given) ((contract cfg).asks o) (fun _ => True) (fun _ _ => True) l := by
  refine hp.meets (fun l q hq => ⟨hq.1, fun k hk => ?_⟩) (fun _ => trivial) fun _ _ => trivial
  rw [hq.2 k] at hk
  cases hk

/-- A part that creates no row, and the rest. -/
theorem meets_then {S : Kind → Prop} {β : Type} {p : Script α} {f : Except Error α → Script β}
    (hp : p.Uses (Plainly cfg o)) {l : ContentLocal} (hl : Without S l)
    (hf : ∀ l r, Without S l → (f r).Meets (system cfg read given) ((contract cfg).asks o)
      (fun _ => True) (fun _ _ => True) l) :
    (p.bind f).Meets (system cfg read given) ((contract cfg).asks o) (fun _ => True)
      (fun _ _ => True) l :=
  Prog.meets_bind.mpr ((meets_without hp hl).mono hf)

theorem meets_andThen {S : Kind → Prop} {β : Type} {p : Script α} {f : α → Script β}
    (hp : p.Uses (Plainly cfg o)) {l : ContentLocal} (hl : Without S l)
    (hf : ∀ l a, Without S l → (f a).Meets (system cfg read given) ((contract cfg).asks o)
      (fun _ => True) (fun _ _ => True) l) :
    (p.andThen f).Meets (system cfg read given) ((contract cfg).asks o) (fun _ => True)
      (fun _ _ => True) l :=
  meets_then hp hl fun l r hl => by
    cases r with
    | ok a => exact hf l a hl
    | error e => trivial

theorem meets_check {β : Type} {x : Except Error α} {f : α → Script β} {l : ContentLocal}
    (hf : ∀ a, x = .ok a → (f a).Meets (system cfg read given) ((contract cfg).asks o)
      (fun _ => True) (fun _ _ => True) l) :
    ((check x).andThen f).Meets (system cfg read given) ((contract cfg).asks o) (fun _ => True)
      (fun _ _ => True) l := by
  cases x with
  | error e => trivial
  | ok a => exact hf a rfl

/-- A part that creates no row and ends with what the rest needs. -/
theorem meets_prepared {S : Kind → Prop} {β : Type} {T : α → Prop} {p : Script α}
    {f : α → Script β} (hp : p.Uses (Plainly cfg o)) {l : ContentLocal} (hl : Without S l)
    (hends : p.Ends fun r => ∀ a, r = .ok a → T a)
    (hf : ∀ l a, T a → Without S l → (f a).Meets (system cfg read given) ((contract cfg).asks o)
      (fun _ => True) (fun _ _ => True) l) :
    (p.andThen f).Meets (system cfg read given) ((contract cfg).asks o) (fun _ => True)
      (fun _ _ => True) l := by
  refine Prog.meets_bind.mpr (((meets_without hp hl).and_ends hends).mono fun l r hr => ?_)
  cases r with
  | ok a => exact hf l a (hr.2 a rfl) hr.1
  | error e => trivial

/-- What follows a part that creates rows creates none. -/
theorem meets_last {β : Type} {p : Script α} {f : Except Error α → Script β} {l : ContentLocal}
    (hp : p.Meets (system cfg read given) ((contract cfg).asks o) (fun _ => True)
      (fun _ _ => True) l) (hf : ∀ r, (f r).Uses (Plainly cfg o)) :
    (p.bind f).Meets (system cfg read given) ((contract cfg).asks o) (fun _ => True)
      (fun _ _ => True) l :=
  Prog.meets_bind.mpr (hp.mono fun _ r _ => meets_plainly (hf r))

/-- A statement that creates rows of one kind, and the rest of its transaction. -/
theorem meets_create (S S' : Kind → Prop) {f : q.Row → Script α} {l : ContentLocal}
    (hl : Without S l) (hasks : Writes cfg o q) (hkinds : ∀ k, k.creates q = true → S k)
    (hrest : ∀ k, S' k → S k ∧ k.creates q = false)
    (hf : ∀ s v a ws, q.run cfg.dwithin read s v = .ok (a, ws) → ∀ l, Without S' l →
      (f a).Meets (system cfg read given) ((contract cfg).asks o) (fun _ => True)
        (fun _ _ => True) l) :
    ((ask q).andThen f).Meets (system cfg read given) ((contract cfg).asks o) (fun _ => True)
      (fun _ _ => True) l := by
  refine Dialect.meets_ask_andThen (fun _ => ⟨.inr hasks, fun k hk => hl k (hkinds k hk)⟩)
    (fun s v a ws hrun => hf s v a ws hrun _ fun k hk => ?_) fun _ => trivial
  exact (hl k (hrest k hk).1).ask (hrest k hk).2 fun w hw => emits_of_run hrun hw

theorem meets_transaction {p : Script α} {l : ContentLocal}
    (hp : p.Meets (system cfg read given) ((contract cfg).asks o) (fun _ => True)
      (fun _ _ => True) l) :
    (transaction p).Meets (system cfg read given) ((contract cfg).asks o) (fun _ => True)
      (fun _ _ => True) l :=
  Prog.meets_transaction (hp.mono fun _ _ _ =>
    ⟨fun _ _ => ⟨fun _ => ⟨trivial, trivial⟩, fun _ => trivial⟩, fun _ _ => trivial⟩)

end Met

section Creations

variable {cfg : Config} {read : Reading} {given : List UUID} {o : Op}

theorem storeOrdinaryUpdate_meets {env : Env} {arg : Store.CreateOrdinaryUpdateParams}
    (hstores : ∀ q, Writes.Stores env arg q → Writes cfg o q) {l : ContentLocal}
    (hl : Without (fun _ => True) l) :
    (storeOrdinaryUpdate env arg).Meets (system cfg read given) ((contract cfg).asks o)
      (fun _ => True) (fun _ _ => True) l := by
  have hplain : ∀ q, Writes.Stores env arg q → (∀ k : Kind, k.creates q = false) →
      Plainly cfg o q := fun q hq hk => ⟨.inr (hstores q hq), hk⟩
  refine meets_transaction (meets_create (fun _ => True) (· = .outbox) hl (hstores (.createUpdate arg.row) rfl)
    (fun _ _ => trivial) (by rintro k rfl; exact ⟨trivial, rfl⟩) fun s v a ws hrun l hl => ?_)
  obtain rfl : a = arg.id := (createUpdate_eq_ok hrun).1
  refine meets_andThen (createStatuses_uses fun status hs => ?_) hl fun l _ hl => ?_
  · exact hplain (.createUpdateStatus arg.id status) ⟨rfl, hs⟩ fun k => by cases k <;> rfl
  refine meets_andThen (ask_uses ?_) hl fun l _ hl => ?_
  · exact hplain (.updateCatLastUpdateAt arg.createdAt arg.catId) ⟨rfl, rfl⟩ fun k => by cases k <;> rfl
  refine meets_andThen ?_ hl fun l _ hl => ?_
  · unfold linkGallery
    split
    · trivial
    · rename_i mediaId hmedia
      refine Prog.uses_bind (ask_uses (hplain (.createCatMedia _ _ _ _) ⟨rfl, rfl, hmedia, rfl⟩
        fun k => by cases k <;> rfl)) fun r => ?_
      split <;> trivial
  refine meets_create (· = .outbox) (fun _ => False) hl
    (hstores (.createNotificationOutbox _ _ _) ⟨rfl, rfl, rfl⟩) ?_ (fun _ h => h.elim)
    fun _ _ _ _ _ _ _ => trivial
  intro k hk
  cases k <;> first | rfl | cases hk

theorem createOrdinaryUpdate_meets (env : Env) (req : OrdinaryUpdateRequest) :
    (ContentCalls.createOrdinaryUpdate env req).Meets (system cfg read given)
      ((contract cfg).asks (.createOrdinaryUpdate env req)) (fun _ => True) (fun _ _ => True) {} := by
  have hreads : ∀ q : Query, q.Reads = true → Plainly cfg (.createOrdinaryUpdate env req) q :=
    fun q => plainly_of_reads
  unfold ContentCalls.createOrdinaryUpdate
  split
  · trivial
  · rename_i catId hcat
    refine meets_then (earlierUpdate_uses hreads env req) (without_start fun _ => True)
      fun l r hl => ?_
    split
    · trivial
    · unfold prepareOrdinaryUpdate
      rw [Prog.andThen_assoc]
      refine meets_check fun statuses hstatuses => ?_
      rw [Prog.andThen_assoc]
      refine meets_andThen (requireCat_uses hreads catId _) hl fun l _ hl => ?_
      rw [Prog.andThen_assoc]
      refine meets_andThen (resolveOwnMedia_uses hreads _ _) hl fun l media hl => ?_
      change ((storeOrdinaryUpdate env (ordinaryUpdateParams env req catId statuses media)).bind
        _).Meets _ _ _ _ _
      refine meets_last (storeOrdinaryUpdate_meets (fun q hq => ?_) hl) fun r => ?_
      · exact ⟨catId, statuses, media, hcat, hstatuses, hq⟩
      · split
        · exact recoverOrdinaryUpdate_uses hreads env req _
        · exact Prog.uses_andThen (authorDisplayNameFor_uses hreads _) fun _ => trivial
    · trivial

theorem createNeedsHelpUpdate_meets (env : Env) (catId : Option UUID) (userId : UUID)
    (deviceId : Option UUID) (category : String) (comment : Option String) :
    (ContentCalls.createNeedsHelpUpdate env catId userId deviceId category comment).Meets
      (system cfg read given)
      ((contract cfg).asks (.createNeedsHelpUpdate env catId userId deviceId category comment))
      (fun _ => True) (fun _ _ => True) {} := by
  have hreads : ∀ q : Query, q.Reads = true →
      Plainly cfg (.createNeedsHelpUpdate env catId userId deviceId category comment) q :=
    fun q => plainly_of_reads
  refine meets_check fun found hfound => ?_
  have hcat : catId = some found.1 := by
    unfold checkNeedsHelpUpdate at hfound
    split at hfound
    · cases hfound
    · cases hfound
    · simp only [bind_eq_ok] at hfound
      obtain ⟨-, -, -, -, hfound⟩ := hfound
      cases hfound
      rfl
  refine meets_andThen (requireCat_uses hreads _ _) (without_start fun _ => True) fun l _ hl => ?_
  refine meets_last (storeOrdinaryUpdate_meets (fun q hq => ?_) hl) fun r => ?_
  · exact ⟨found.1, found.2, hcat, hq⟩
  · cases r with
    | error e => trivial
    | ok id => exact Prog.uses_andThen (authorDisplayNameFor_uses hreads _) fun _ => trivial

/-- The medium of a new cat has the type that the pipeline found. -/
theorem prepareCreate_ends (env : Env) (req : CreateRequest) :
    (prepareCreate env req).Ends fun r =>
      ∀ contentType, r = .ok contentType → env.process = .ok contentType := by
  have hprocess : ∀ contentType, processAndModerate env req = .ok contentType →
      env.process = .ok contentType := by
    intro contentType h
    obtain ⟨found, hfound, h⟩ := bind_eq_ok.mp h
    obtain ⟨-, -, h⟩ := bind_eq_ok.mp h
    cases h
    exact hfound
  unfold prepareCreate
  split
  · exact fun _ h => by cases h
  · split
    · exact fun _ h => by cases h
    · refine Prog.ends_bind fun r => ?_
      cases r with
      | ok _ => exact hprocess
      | error e => exact fun _ h => by cases h

theorem create_meets (env : Env) (req : CreateRequest) :
    (ContentCalls.create env req).Meets (system cfg read given)
      ((contract cfg).asks (.createCat env req)) (fun _ => True) (fun _ _ => True) {} := by
  have hreads : ∀ q : Query, q.Reads = true → Plainly cfg (.createCat env req) q :=
    fun q => plainly_of_reads
  have hobject : Plainly cfg (.createCat env req) (.putObject env.objectKey) ∧
      Plainly cfg (.createCat env req) (.deleteObject env.objectKey) :=
    ⟨⟨.inr trivial, fun k => by cases k <;> rfl⟩, .inr trivial, fun k => by cases k <;> rfl⟩
  refine meets_then (earlierCat_uses hreads env req) (without_start fun _ => True) fun l r hl => ?_
  split
  · trivial
  · refine meets_prepared (prepareCreate_uses hreads env req) hl (prepareCreate_ends env req)
      fun l contentType hprocess hl => ?_
    refine meets_andThen (putObject_uses hobject.1) hl fun l url hl => ?_
    refine meets_last (meets_transaction ?_) fun r => ?_
    · have hmedium : Writes cfg (.createCat env req)
          (.createMedia (coverMedium env req contentType url)) := ⟨contentType, url, hprocess, rfl⟩
      refine meets_create (fun _ => True) (· = .cats) hl hmedium (fun _ _ => trivial)
        (by rintro k rfl; exact ⟨trivial, rfl⟩) fun s v media ws hrun l hl => ?_
      obtain rfl := (createMedia_eq_ok hrun).1
      have hcat : Writes cfg (.createCat env req)
          (.createCat { newCat env req with primaryPhotoId := some (env.uuid 0) } env.now) := rfl
      refine meets_create (· = .cats) (fun _ => False) hl hcat ?_ (fun _ h => h.elim)
        fun s v row ws hrun l hl => ?_
      · intro k hk
        cases k <;> first | rfl | cases hk
      obtain rfl := (createCat_eq_ok hrun).1
      have hlink : Plainly cfg (.createCat env req)
          (.createCatMedia (env.uuid 2) (env.uuid 1) (env.uuid 0) env.now) :=
        ⟨.inr ⟨rfl, rfl, rfl⟩, fun k => by cases k <;> rfl⟩
      exact meets_andThen (ask_uses hlink) hl fun _ _ _ => trivial
    · split
      · refine Prog.uses_bind ?_ fun result => ?_
        · split
          · exact earlierCat_uses hreads env req
          · trivial
        · exact Prog.uses_bind (deleteObject_uses hobject.2) fun _ => trivial
      · trivial
  · trivial

theorem upload_meets (env : Env) (userId : UUID) (deviceId : Option UUID) (key : Option String)
    (muted : Bool) :
    (ContentCalls.upload env userId deviceId key muted).Meets (system cfg read given)
      ((contract cfg).asks (.upload env userId deviceId key muted)) (fun _ => True)
      (fun _ _ => True) {} := by
  have hreads : ∀ q : Query, q.Reads = true → Plainly cfg (.upload env userId deviceId key muted) q :=
    fun q => plainly_of_reads
  have hobject : Plainly cfg (.upload env userId deviceId key muted) (.putObject env.objectKey) ∧
      Plainly cfg (.upload env userId deviceId key muted) (.deleteObject env.objectKey) :=
    ⟨⟨.inr trivial, fun k => by cases k <;> rfl⟩, .inr trivial, fun k => by cases k <;> rfl⟩
  refine meets_then (earlierMedia_uses hreads userId key) (without_start fun _ => True)
    fun l r hl => ?_
  split
  · trivial
  · refine meets_check fun contentType _ => ?_
    refine meets_andThen (putObject_uses hobject.1) hl fun l url hl => ?_
    refine meets_last (meets_transaction ?_) fun r => ?_
    · have hmedium : Asks cfg (.upload env userId deviceId key muted)
          (.createMedia (uploadedMedium env userId deviceId key muted contentType url)) :=
        .inr ⟨contentType, url, rfl⟩
      exact Dialect.meets_ask (fun _ => ⟨hmedium, fun k _ => hl k trivial⟩)
        (fun _ _ _ _ _ => trivial) fun _ => trivial
    · split
      · refine Prog.uses_bind ?_ fun result => ?_
        · split
          · exact earlierMedia_uses hreads userId key
          · trivial
        · exact Prog.uses_bind (deleteObject_uses hobject.2) fun _ => trivial
      · trivial
  · trivial

end Creations

variable {cfg : Config} {read : Reading} {given : List UUID}

theorem meets_reply {o : Op} {α : Type} {f : α → Answer} {p : Script α}
    (hp : p.Meets (system cfg read given) ((contract cfg).asks o) (fun _ => True)
      (fun _ _ => True) {}) :
    (reply f p).Meets (system cfg read given) ((contract cfg).asks o) (fun _ => True)
      (fun _ _ => True) {} :=
  meets_last hp fun r => by cases r <;> trivial

theorem contract_met : (contract cfg).Met (system cfg read given) (program cfg read) := by
  intro o
  have hreads : ∀ q : Query, q.Reads = true → Plainly cfg o q := fun q => plainly_of_reads
  cases o with
  | createCat env req => exact meets_reply (create_meets env req)
  | upload env userId deviceId key muted => exact meets_reply (upload_meets env userId deviceId key muted)
  | createOrdinaryUpdate env req => exact meets_reply (createOrdinaryUpdate_meets env req)
  | createNeedsHelpUpdate env catId userId deviceId category comment =>
    exact meets_reply (createNeedsHelpUpdate_meets env catId userId deviceId category comment)
  | correctOwnUpdate env catId updateId userId correction =>
    refine meets_plainly (reply_uses (correctOwnUpdate_uses hreads env catId updateId userId correction
      fun params q hparams hq => ⟨.inr ⟨params, hparams, hq⟩, fun k => ?_⟩))
    cases q <;> first | exact hq.elim | (cases k <;> rfl)
  | deleteOwnUpdate env catId updateId userId =>
    exact meets_plainly (reply_uses (deleteOwnUpdate_uses hreads env catId updateId userId
      fun cat update hcat hupdate => ⟨.inr ⟨cat, update, hcat, hupdate, rfl⟩,
        fun k => by cases k <;> rfl⟩))
  | setCoverPhoto env catId caller mediaId =>
    exact meets_plainly (reply_uses (setCoverPhoto_uses hreads env catId caller mediaId
      fun m hm => ⟨.inr ⟨m, hm, rfl⟩, fun k => by cases k <;> rfl⟩))
  | renameCat env catId caller name =>
    exact meets_plainly (reply_uses (renameCat_uses hreads env catId caller name
      fun trimmed => ⟨.inr ⟨trimmed, rfl⟩, fun k => by cases k <;> rfl⟩))
  | deleteCat catId caller =>
    exact meets_plainly (reply_uses (deleteCat_uses hreads catId caller
      ⟨.inr rfl, fun k => by cases k <;> rfl⟩))
  | follow catId userId deviceId =>
    exact meets_plainly (reply_uses (follow_uses hreads catId userId deviceId
      fun cat hcat => ⟨.inr ⟨cat, hcat, rfl⟩, fun k => by cases k <;> rfl⟩))
  | unfollow catId userId =>
    exact meets_plainly (reply_uses (unfollow_uses hreads catId userId
      fun cat hcat => ⟨.inr ⟨cat, hcat, rfl⟩, fun k => by cases k <;> rfl⟩))
  | report env reporter targetType targetId reason note =>
    exact meets_plainly (reply_uses (createReport_uses hreads env reporter targetType targetId reason
      note fun row => ⟨.inr trivial, fun k => by cases k <;> rfl⟩))
  | block blocker blocked =>
    exact meets_plainly (reply_uses (block_uses hreads blocker blocked
      fun id hid => ⟨.inr ⟨id, hid, rfl⟩, fun k => by cases k <;> rfl⟩))
  | unblock blocker blocked =>
    exact meets_plainly (reply_uses (unblock_uses (P := Plainly cfg (.unblock blocker blocked))
      blocker blocked
      fun id hid => ⟨.inr ⟨id, hid, rfl⟩, fun k => by cases k <;> rfl⟩))
  | dispatchPending env skipped =>
    refine meets_plainly (reply_uses (Prog.uses_transaction ?_))
    refine Prog.uses_andThen (ask_uses ⟨.inr ⟨rfl, rfl⟩, fun k => by cases k <;> rfl⟩) fun rows => ?_
    refine Prog.uses_andThen (dispatchRows_uses hreads env ?_ ?_ ?_ rows 0) fun _ => trivial
    · exact fun _ _ _ _ => ⟨.inr trivial, fun k => by cases k <;> rfl⟩
    · exact fun _ _ => ⟨.inr trivial, fun k => by cases k <;> rfl⟩
    · exact fun _ _ => ⟨.inr trivial, fun k => by cases k <;> rfl⟩
  | markRead env userId id =>
    exact meets_plainly (reply_uses (markRead_uses (P := Plainly cfg (.markRead env userId id))
      env userId id
      fun n => ⟨.inr rfl, fun k => by cases k <;> rfl⟩))
  | deleteAccount env userId =>
    exact meets_plainly (reply_uses (deleteAccount_uses hreads env userId
      (fun step phone => ⟨.inr ⟨rfl, rfl⟩, fun k => by cases k <;> rfl⟩)
      fun key => ⟨.inr trivial, fun k => by cases k <;> rfl⟩))
  | listNearby clock bounds caller =>
    exact meets_plainly (reply_uses (listNearby_uses hreads clock bounds caller))
  | listNearbyDuplicates point caller =>
    exact meets_plainly (reply_uses (listNearbyDuplicates_uses hreads point caller))
  | listDiscover clock filter point cursor limit caller =>
    exact meets_plainly (reply_uses (listDiscover_uses hreads read clock filter point cursor limit
      caller))
  | getCatDetail clock catId caller =>
    exact meets_plainly (reply_uses (getCatDetail_uses hreads clock catId caller))
  | listCatUpdates clock catId cursor limit caller =>
    exact meets_plainly (reply_uses (listCatUpdates_uses hreads read clock catId cursor limit caller))
  | listCatMedia catId caller => exact meets_plainly (reply_uses (listCatMedia_uses hreads catId caller))
  | listFollows clock userId => exact meets_plainly (reply_uses (listFollows_uses hreads clock userId))

end Tekir.ContentRuns
