import Tekir.ContentRuns

/-!
# What the history of a run says of its rows

No identifier is born twice: one that a call draws is first seen in what that call has
committed, and a row that is gone stays gone. What a row cannot change is then the same
in every database that the run goes through.
-/
namespace Tekir.ContentHistory
open Machine Table Schema Statements UpdateQueries NotificationQueries Environment ContentWrites
  ContentQueries ContentCalls ContentUses ContentRuns Programs Interleaving Bookkeeping Contracts
  Dialects
open CatServices (CreateRequest OrdinaryUpdateRequest)
open ReadServices (Reading)

/-- The run has gone through these tables. -/
def Past (h : List ContentCommit) (b : World) (T : Tables) : Prop :=
  T = b.db.tables ∨ ∃ c ∈ h, T = c.base.db.tables ∨ T = c.next.db.tables

section Past

variable {h : List ContentCommit} {b : World} {c : ContentCommit} {T : Tables}

theorem past_now : Past h b b.db.tables :=
  .inl rfl

theorem Past.later (hT : Past h c.base T) : Past (h ++ [c]) c.next T := by
  rcases hT with rfl | ⟨d, hd, hT⟩
  · exact .inr ⟨c, List.mem_append_right _ (List.mem_singleton.mpr rfl), .inl rfl⟩
  · exact .inr ⟨d, List.mem_append_left _ hd, hT⟩

theorem past_append : Past (h ++ [c]) c.next T ↔ Past h c.base T ∨ T = c.next.db.tables := by
  constructor
  · rintro (rfl | ⟨d, hd, hT⟩)
    · exact .inr rfl
    · rcases List.mem_append.mp hd with hd | hd
      · exact .inl (.inr ⟨d, hd, hT⟩)
      · obtain rfl := List.mem_singleton.mp hd
        exact hT.imp .inl id
  · rintro (hT | rfl)
    · exact hT.later
    · exact past_now

theorem past_of_mem (hc : c ∈ h) : Past h b c.base.db.tables ∧ Past h b c.next.db.tables :=
  ⟨.inr ⟨c, hc, .inl rfl⟩, .inr ⟨c, hc, .inr rfl⟩⟩

end Past

variable {cfg : Config} {read : Reading} {given : List UUID} {ops : List Op}

theorem aside_of_foreign {ws : List Write} {w w' : World}
    (h : (system cfg read given).foreign ws w w' = true) : Aside given w.db.tables w'.db.tables :=
  of_decide_eq_true h

/-- Account calls create no rows of these kinds and remove none. -/
theorem ids_of_aside {t t' : Tables} (h : Aside given t t') (k : Kind) : k.ids t' = k.ids t := by
  cases k with
  | cats => exact congrArg (List.map Cat.id) h.cats
  | media => exact congrArg (List.map Medium.id) h.media
  | outbox => exact congrArg (List.map NotificationOutbox.id) h.notificationOutbox
  | updates =>
    have hupdates := h.updates
    simp only [Kind.ids]
    generalize t.updates = us at hupdates ⊢
    generalize t'.updates = us' at hupdates ⊢
    induction hupdates with
    | nil => rfl
    | @cons u u' us us' hu _ ih =>
      have hid : u'.id = u.id := by
        simp only [claimed, Bool.or_eq_true, Bool.and_eq_true, beq_iff_eq] at hu
        rcases hu with rfl | ⟨-, hu⟩
        · rfl
        · rw [hu]
      simp only [List.map_cons, hid, ih]

/-- `Store.CreateOrdinaryUpdate` draws an update and an outbox row. -/
theorem drawn_of_stores {k : Kind} {env : Env} {arg : Store.CreateOrdinaryUpdateParams} {q : Query}
    {w : Write} {x : UUID} (hq : Writes.Stores env arg q) (harg : arg.id = env.uuid 0)
    (hw : q.Emits w) (hx : x ∈ k.born w) :
    (k = .updates ∧ x = env.uuid 0) ∨ (k = .outbox ∧ x = env.uuid 2) := by
  cases q with
  | createUpdate arg' =>
    cases hq
    rcases hw with rfl | rfl
    · cases k with
      | updates => exact .inl ⟨rfl, (List.mem_singleton.mp hx).trans harg⟩
      | _ => cases hx
    · cases k <;> cases hx
  | createNotificationOutbox id updateId now =>
    obtain ⟨t, rfl⟩ := hw
    cases k with
    | outbox =>
      obtain ⟨row, hrow, rfl⟩ := List.mem_map.mp hx
      obtain ⟨u, -, rfl⟩ := List.mem_map.mp hrow
      exact .inr ⟨rfl, hq.1⟩
    | _ => cases hx
  | createUpdateStatus | updateCatLastUpdateAt | createCatMedia =>
    cases hw
    cases k <;> cases hx
  | _ => exact hq.elim

/-- What a call writes has the identifiers that it draws. -/
theorem drawn_of_born {k : Kind} {o : Op} {w : Write} {x : UUID} (hw : Emits cfg o w)
    (hx : x ∈ k.born w) : k.drawn o = some x := by
  obtain ⟨q, hq, hw⟩ := hw
  have hplain : (∀ k : Kind, k.creates q = false) → k.drawn o = some x := fun hq => by
    rw [born_of_emits (hq k) hw] at hx
    cases hx
  cases o with
  | createOrdinaryUpdate env req =>
    obtain ⟨catId, statuses, media, -, -, hq⟩ := hq
    rcases drawn_of_stores hq rfl hw hx with ⟨rfl, rfl⟩ | ⟨rfl, rfl⟩ <;> rfl
  | createNeedsHelpUpdate env catId userId deviceId category comment =>
    obtain ⟨id, c, -, hq⟩ := hq
    rcases drawn_of_stores hq rfl hw hx with ⟨rfl, rfl⟩ | ⟨rfl, rfl⟩ <;> rfl
  | createCat env req =>
    cases q with
    | createMedia row =>
      obtain ⟨contentType, url, -, rfl⟩ := hq
      cases hw
      cases k <;> first | (rw [List.mem_singleton.mp hx]; rfl) | cases hx
    | createCat arg now =>
      obtain rfl := hq
      cases hw
      cases k <;> first | (rw [List.mem_singleton.mp hx]; rfl) | cases hx
    | createCatMedia | putObject | deleteObject => exact hplain fun k => by cases k <;> rfl
    | _ => exact hq.elim
  | upload env userId deviceId key muted =>
    cases q with
    | createMedia row =>
      obtain ⟨contentType, url, rfl⟩ := hq
      cases hw
      cases k <;> first | (rw [List.mem_singleton.mp hx]; rfl) | cases hx
    | putObject | deleteObject => exact hplain fun k => by cases k <;> rfl
    | _ => exact hq.elim
  | correctOwnUpdate env catId updateId userId correction =>
    obtain ⟨params, -, hq⟩ := hq
    cases q <;> first | exact hq.elim | exact hplain fun k => by cases k <;> rfl
  | deleteOwnUpdate env catId updateId userId =>
    obtain ⟨cat, update, -, -, rfl⟩ := hq
    exact hplain fun k => by cases k <;> rfl
  | setCoverPhoto env catId caller mediaId =>
    obtain ⟨m, -, rfl⟩ := hq
    exact hplain fun k => by cases k <;> rfl
  | renameCat env catId caller name =>
    obtain ⟨name, rfl⟩ := hq
    exact hplain fun k => by cases k <;> rfl
  | deleteCat catId caller =>
    obtain rfl := hq
    exact hplain fun k => by cases k <;> rfl
  | follow catId userId deviceId =>
    obtain ⟨cat, -, rfl⟩ := hq
    exact hplain fun k => by cases k <;> rfl
  | unfollow catId userId =>
    obtain ⟨cat, -, rfl⟩ := hq
    exact hplain fun k => by cases k <;> rfl
  | block blocker blocked | unblock blocker blocked =>
    obtain ⟨id, -, rfl⟩ := hq
    exact hplain fun k => by cases k <;> rfl
  | report | dispatchPending | markRead | deleteAccount =>
    cases q <;> first | exact hq.elim | exact hplain fun k => by cases k <;> rfl
  | _ => exact hq.elim

/-- Rows of each kind are created in one transaction of the call. -/
def Once (l : ContentLocal) : Prop :=
  ∀ k : Kind, (∃ w ∈ l.writes, k.born w ≠ []) → ∀ ws ∈ l.mine, ∀ w ∈ ws, k.born w = []

/-- Each drawn identifier is first seen in what its call has committed. -/
def Seen (ops : List Op) (h : List ContentCommit) (b : World) : Prop :=
  ∀ (k : Kind) (t : ℕ) (o : Op) (x : UUID), ops[t]? = some o → k.drawn o = some x →
    (∃ T, Past h b T ∧ x ∈ k.ids T) → ∃ ws ∈ batches h t, ∃ w ∈ ws, x ∈ k.born w

/-- What a call may do at any time, as far as identifiers go. -/
structure Drawing (cfg : Config) (t : ℕ) (o : Op) (h : List ContentCommit) (l : ContentLocal) :
    Prop where
  mine : batches h t = l.mine
  emits : ∀ w ∈ l.writes, Emits cfg o w
  once : Once l

section Drawing

theorem emits_of_asks {o : Op} {q : Query} (hq : Asks cfg o q) {s v : World} {w : Write}
    (hw : w ∈ (system cfg read given).effect q s v) : Emits cfg o w := by
  rcases hq with hq | hq
  · obtain ⟨a, hrun⟩ := Dialect.mem_effect hw
    have hnil : (system cfg read given).effect q s v = [] := reads_of_run hq hrun
    rw [hnil] at hw
    cases hw
  · exact ⟨q, hq, emits_of_effect hw⟩

theorem once_of_nil {l : ContentLocal} (h : l.writes = []) : Once l := by
  rintro k ⟨w, hw, -⟩
  rw [h] at hw
  cases hw

theorem Once.ask {l : ContentLocal} (h : Once l) {q : Query}
    (hq : ∀ k : Kind, k.creates q = true → Unborn k l) {r : Except Error q.Row} {new : List Write}
    (hnew : ∀ w ∈ new, q.Emits w) : Once (l.ask (system cfg read given) q r new) := by
  rintro k ⟨w, hw, hborn⟩
  rcases List.mem_append.mp hw with hw | hw
  · exact h k ⟨w, hw, hborn⟩
  · cases hcreates : k.creates q with
    | false => exact absurd (born_of_emits hcreates (hnew w hw)) hborn
    | true => exact fun ws hws => hq k hcreates ws (List.mem_cons_of_mem _ hws)

theorem lawful_drawing : Lawful ops (contract cfg) (system cfg read given) (fun _ _ => True)
    (fun t o h _ _ l => Drawing cfg t o h l) := by
  have hrule : Rule ops (contract cfg) (system cfg read given) (fun _ _ => True)
      (fun t _ h _ _ l => batches h t = l.mine) (fun _ _ => True)
      (fun _ o _ _ _ l => (∀ w ∈ l.writes, Emits cfg o w) ∧ Once l) := by
    refine Rule.of_local (J := fun _ o l => (∀ w ∈ l.writes, Emits cfg o w) ∧ Once l) ?_ ?_ ?_ ?_ ?_
    · intro t o
      exact ⟨fun w hw => (List.not_mem_nil hw).elim, once_of_nil rfl⟩
    · intro t o h b l q v₀ v _ _ _ hJ _ _ hasks
      refine ⟨fun w hw => ?_, hJ.2.ask hasks.2 fun w hw => emits_of_effect hw⟩
      rcases List.mem_append.mp hw with hw | hw
      · exact hJ.1 w hw
      · exact emits_of_asks hasks.1 hw
    · intro t o l q hJ
      refine ⟨fun w hw => hJ.1 w (by simpa using hw), fun k hk => hJ.2 k ?_⟩
      simpa using hk
    · intro t o l hJ
      exact ⟨fun w hw => (List.not_mem_nil hw).elim, once_of_nil rfl⟩
    · intro t o l hJ
      exact ⟨fun w hw => (List.not_mem_nil hw).elim, once_of_nil rfl⟩
  refine (hrule.and (lawful_mine ops)).congr (fun _ _ => by simp) fun t o h b s l => ?_
  exact ⟨fun ⟨h₁, h₂, h₃⟩ => ⟨h₁, h₂, h₃⟩, fun h => ⟨h.mine, h.emits, h.once⟩⟩

end Drawing

section Seen

/-- What a transaction creates was not there before. -/
theorem Seen.unseen {h : List ContentCommit} {b : World} (hseen : Seen ops h b) {t : ℕ} {o : Op}
    {l : ContentLocal} (ho : ops[t]? = some o) (hl : Drawing cfg t o h l) {k : Kind} {x : UUID}
    {w : Write} (hw : w ∈ l.writes) (hx : x ∈ k.born w) {T : Tables} (hT : Past h b T) :
    x ∉ k.ids T := by
  intro hmem
  obtain ⟨ws, hws, w', hw', hx'⟩ := hseen k t o x ho (drawn_of_born (hl.emits w hw) hx) ⟨T, hT, hmem⟩
  rw [hl.mine] at hws
  rw [hl.once k ⟨w, hw, List.ne_nil_of_mem hx⟩ ws hws w' hw'] at hx'
  cases hx'

theorem ids_applyAll {k : Kind} {ws : List Write} {T : Tables} {x : UUID}
    (hx : x ∈ k.ids (applyAll ws T)) : x ∈ k.ids T ∨ ∃ w ∈ ws, x ∈ k.born w := by
  induction ws generalizing T with
  | nil => exact .inl hx
  | cons w ws ih =>
    rcases ih hx with hx | ⟨w', hw', hx⟩
    · exact (ids_apply hx).imp_right fun hx => ⟨w, List.mem_cons_self, hx⟩
    · exact .inr ⟨w', List.mem_cons_of_mem _ hw', hx⟩

/-- A row that is gone stays gone. -/
theorem Seen.ids_of_view {h : List ContentCommit} {b b' : World} (hseen : Seen ops h b) {t : ℕ}
    {o : Op} {l : ContentLocal} (ho : ops[t]? = some o) (hl : Drawing cfg t o h l)
    (hview : view l.writes b = some b') {k : Kind} {x : UUID} {T : Tables} (hT : Past h b T)
    (hx : x ∈ k.ids T) (hx' : x ∈ k.ids b'.db.tables) : x ∈ k.ids b.db.tables := by
  rw [tables_of_view hview] at hx'
  rcases ids_applyAll hx' with hx' | ⟨w, hw, hborn⟩
  · exact hx'
  · exact absurd hx (hseen.unseen ho hl hw hborn hT)

variable {t₀ : Tables}

theorem lawful_seen (hfresh : Fresh ops t₀) : Lawful ops (contract cfg) (system cfg read given)
    (Seen ops) (fun t o h _ _ l => Drawing cfg t o h l) := by
  have hrule : Rule ops (contract cfg) (system cfg read given) (fun _ _ => True)
      (fun t o h _ _ l => Drawing cfg t o h l) (Seen ops) (fun _ _ _ _ _ _ => True) := by
    refine Rule.of_invariant ?_ ?_
    · intro t o h b s l b' ho _ hseen hl _ hview k t' o' x ho' hx hpast
      have hbatches : ∀ ws ∈ batches h t', ws ∈ batches
          (h ++ [{ author := some (t, o), loc := l, base := b, next := b' }]) t' := fun ws hws => by
        rw [batches_append_own]
        exact List.mem_append_left _ hws
      have hold : (∃ T, Past h b T ∧ x ∈ k.ids T) → ∃ ws ∈ batches
          (h ++ [{ author := some (t, o), loc := l, base := b, next := b' }]) t',
          ∃ w ∈ ws, x ∈ k.born w := fun hT => by
        obtain ⟨ws, hws, hw⟩ := hseen k t' o' x ho' hx hT
        exact ⟨ws, hbatches ws hws, hw⟩
      obtain ⟨T, hT, hxT⟩ := hpast
      rcases past_append.mp hT with hT | rfl
      · exact hold ⟨T, hT, hxT⟩
      · rw [tables_of_view hview] at hxT
        rcases ids_applyAll hxT with hxT | ⟨w, hw, hborn⟩
        · exact hold ⟨_, past_now, hxT⟩
        · obtain rfl : t = t' := hfresh.ticket_eq ho ho' (drawn_of_born (hl.emits w hw) hborn) hx
          refine ⟨l.writes, ?_, w, hw, hborn⟩
          rw [batches_append_own]
          simp
    · intro ws h b b' _ hseen hforeign k t o x ho hx hpast
      obtain ⟨T, hT, hxT⟩ := hpast
      have hold : ∃ T, Past h b T ∧ x ∈ k.ids T := by
        rcases past_append.mp hT with hT | rfl
        · exact ⟨T, hT, hxT⟩
        · rw [ids_of_aside (aside_of_foreign hforeign) k] at hxT
          exact ⟨_, past_now, hxT⟩
      obtain ⟨ws, hws, hw⟩ := hseen k t o x ho hx hold
      refine ⟨ws, ?_, hw⟩
      rw [batches_append_others]
      exact hws
  exact (hrule.and lawful_drawing).congr (fun _ _ => by simp) fun _ _ _ _ _ _ => by simp

theorem seen_start {b : World} (hfresh : Fresh ops b.db.tables) : Seen ops [] b := by
  rintro k t o x ho hx ⟨T, rfl | ⟨c, hc, -⟩, hmem⟩
  · exact absurd hmem (hfresh.not_mem (List.mem_of_getElem? ho) hx)
  · cases hc

end Seen

/-- What a call may do, knowing that no identifier is born twice. -/
structure Plain (cfg : Config) (t : ℕ) (o : Op) (h : List ContentCommit) (l : ContentLocal) : Prop
    extends Drawing cfg t o h l where
  new : ∀ arg, .reassigned arg ∉ l.writes

variable (cfg read given) in
/-- The `on conflict (id) do update` of a creation never takes place. -/
theorem lawful_plain {t₀ : Tables} (hfresh : Fresh ops t₀) : Lawful ops (contract cfg)
    (system cfg read given) (Seen ops) (fun t o h _ _ l => Plain cfg t o h l) := by
  have hrule : Rule ops (contract cfg) (system cfg read given) (Seen ops)
      (fun t o h _ _ l => Drawing cfg t o h l) (fun _ _ => True)
      (fun _ _ _ _ _ l => ∀ arg, .reassigned arg ∉ l.writes) := by
    refine Rule.of_local
      (J := fun _ _ (l : ContentLocal) => ∀ arg, Write.reassigned arg ∉ l.writes) ?_ ?_ ?_ ?_ ?_
    · intro t o arg hw
      cases hw
    · intro t o h b l q v₀ v ho hseen hl hJ _ hview hasks arg hw
      rcases List.mem_append.mp hw with hw | hw
      · exact hJ arg hw
      obtain ⟨a, hrun⟩ := Dialect.mem_effect hw
      have hemits := emits_of_run hrun hw
      cases q with
      | createUpdate arg' =>
        obtain rfl : arg = arg' := by
          rcases hemits with hemits | hemits <;> cases hemits
          rfl
        have hcreated : arg.id ∈ v.db.tables.updates.map Update.id := by
          rcases (createUpdate_eq_ok hrun).2 with ⟨hws, -⟩ | ⟨-, hmem⟩
          · have hw' : Write.reassigned arg ∈ [Write.update arg] := hws ▸ hw
            cases List.mem_singleton.mp hw'
          · exact hmem
        have hdrawn : Kind.drawn .updates o = some arg.id :=
          drawn_of_born (k := .updates) (w := .update arg)
            ⟨_, hasks.1.resolve_left (by simp [Query.Reads]), .inl rfl⟩ (List.mem_singleton.mpr rfl)
        have hunborn : Unborn .updates l := hasks.2 .updates rfl
        rw [tables_of_view hview] at hcreated
        rcases ids_applyAll (k := .updates) hcreated with hmem | ⟨w, hw, hborn⟩
        · obtain ⟨ws, hws, w, hw, hborn⟩ := hseen _ t o _ ho hdrawn ⟨_, past_now, hmem⟩
          rw [hl.mine] at hws
          rw [hunborn ws (List.mem_cons_of_mem _ hws) w hw] at hborn
          cases hborn
        · rw [hunborn l.writes List.mem_cons_self w hw] at hborn
          cases hborn
      | createNotificationOutbox | claimNotificationOutboxBatch | markNotificationRead =>
        obtain ⟨_, hemits⟩ := hemits
        cases hemits
      | replaceUpdateStatuses =>
        obtain ⟨_, hemits, -⟩ := hemits
        cases hemits
      | deleteAccount =>
        obtain ⟨_, _, hemits⟩ := hemits
        cases hemits
      | _ => first | exact hemits.elim | cases hemits
    · intro t o l q hJ arg hw
      exact hJ arg (by simpa using hw)
    · intro t o l hJ arg hw
      cases hw
    · intro t o l hJ arg hw
      cases hw
  refine (hrule.and (lawful_seen hfresh)).congr (fun _ _ => by simp) fun t o h b s l => ?_
  exact ⟨fun ⟨h₁, h₂⟩ => ⟨h₁, h₂⟩, fun h => ⟨h.toDrawing, h.new⟩⟩

section Keeps

/-- A table, and what its rows keep of themselves. -/
structure Keeper (ρ : Type) where
  kind : Kind
  rows : Tables → List ρ
  id : ρ → UUID
  keeps : ρ → ρ → Prop
  ids : ∀ T, kind.ids T = (rows T).map id
  refl : ∀ r, keeps r r
  trans : ∀ r r' r'', keeps r r' → keeps r' r'' → keeps r r''
  unique : ∀ T, Valid T → UniqueOn (fun r => some (id r)) (rows T)
  write : ∀ w T r', (∀ arg, w ≠ .reassigned arg) → r' ∈ rows (w.apply T) →
    id r' ∈ kind.born w ∨ ∃ r ∈ rows T, id r = id r' ∧ keeps r r'
  aside : ∀ given T T' r', Aside given T T' → r' ∈ rows T' → ∃ r ∈ rows T, id r = id r' ∧ keeps r r'

variable {ρ : Type} (keeper : Keeper ρ)

/-- Rows of the past are the rows of now with the same identifier. -/
def Keeper.Kept (h : List ContentCommit) (b : World) : Prop :=
  ∀ T, Past h b T → ∀ r ∈ keeper.rows T, ∀ r' ∈ keeper.rows b.db.tables, keeper.id r = keeper.id r' →
    keeper.keeps r r'

variable {keeper}

theorem Keeper.applyAll {ws : List Write} (hws : ∀ arg, .reassigned arg ∉ ws) {T : Tables} {r' : ρ}
    (hr' : r' ∈ keeper.rows (applyAll ws T)) : (∃ w ∈ ws, keeper.id r' ∈ keeper.kind.born w) ∨
      ∃ r ∈ keeper.rows T, keeper.id r = keeper.id r' ∧ keeper.keeps r r' := by
  induction ws generalizing T with
  | nil => exact .inr ⟨r', hr', rfl, keeper.refl r'⟩
  | cons w ws ih =>
    rcases ih (fun arg harg => hws arg (List.mem_cons_of_mem _ harg)) hr' with ⟨w', hw', hborn⟩ | hold
    · exact .inl ⟨w', List.mem_cons_of_mem _ hw', hborn⟩
    · obtain ⟨r, hr, hid, hkeeps⟩ := hold
      have hnew : ∀ arg, w ≠ .reassigned arg := fun arg heq => hws arg (heq ▸ List.mem_cons_self)
      rcases keeper.write w T r hnew hr with hborn | ⟨r₀, hr₀, hid₀, hkeeps₀⟩
      · exact .inl ⟨w, List.mem_cons_self, hid ▸ hborn⟩
      · exact .inr ⟨r₀, hr₀, hid₀.trans hid, keeper.trans _ _ _ hkeeps₀ hkeeps⟩

variable (keeper) in
theorem Keeper.rule {P : List ContentCommit → World → Prop}
    {Q' : ℕ → Op → List ContentCommit → World → Option World → ContentLocal → Prop}
    {C : Contract Write Query Query.Row Error Op (Except Error Answer)}
    (hP : ∀ h b, P h b → Seen ops h b) (hQ : ∀ t o h b s l, Q' t o h b s l → Plain cfg t o h l) :
    Rule ops C (system cfg read given) P Q' keeper.Kept (fun _ _ _ _ _ _ => True) := by
  have hmem : ∀ {T : Tables} {r : ρ}, r ∈ keeper.rows T → keeper.id r ∈ keeper.kind.ids T :=
    fun hr => by
      rw [keeper.ids]
      exact List.mem_map_of_mem hr
  have hsame : ∀ {b : World} {r r' : ρ}, r ∈ keeper.rows b.db.tables → r' ∈ keeper.rows b.db.tables →
      keeper.id r = keeper.id r' → keeper.keeps r r' := fun {b r r'} hr hr' hid => by
    obtain rfl := (keeper.unique _ b.db.valid).eq_of_key_eq hr hr' (congrArg some hid) (by simp)
    exact keeper.refl r
  refine Rule.of_invariant ?_ ?_
  · intro t o h b s l b' ho hp hkept hq _ hview T hT r hr r' hr' hid
    rcases past_append.mp hT with hT | rfl
    · have hl := hQ t o h b s l hq
      rw [tables_of_view hview] at hr'
      rcases keeper.applyAll hl.new hr' with ⟨w, hw, hborn⟩ | ⟨r₀, hr₀, hid₀, hkeeps⟩
      · exact absurd (hid ▸ hmem hr) ((hP h b hp).unseen ho hl.toDrawing hw hborn hT)
      · exact keeper.trans _ _ _ (hkept T hT r hr r₀ hr₀ (hid.trans hid₀.symm)) hkeeps
    · exact hsame hr hr' hid
  · intro ws h b b' _ hkept hforeign T hT r hr r' hr' hid
    rcases past_append.mp hT with hT | rfl
    · obtain ⟨r₀, hr₀, hid₀, hkeeps⟩ := keeper.aside given _ _ r' (aside_of_foreign hforeign) hr'
      exact keeper.trans _ _ _ (hkept T hT r hr r₀ hr₀ (hid.trans hid₀.symm)) hkeeps
    · exact hsame hr hr' hid

theorem Keeper.start {b : World} : keeper.Kept [] b := by
  rintro T (rfl | ⟨c, hc, -⟩) r hr r' hr' hid
  · obtain rfl := (keeper.unique _ b.db.valid).eq_of_key_eq hr hr' (congrArg some hid) (by simp)
    exact keeper.refl r
  · cases hc

/-- Ownership and deletion of a cat are for good. -/
def cats : Keeper Cat where
  kind := .cats
  rows := Tables.cats
  id := Cat.id
  keeps c c' := c'.createdByUserId = c.createdByUserId ∧ c'.createdAt = c.createdAt ∧
    (c.status = .deleted → c'.status = .deleted)
  ids _ := rfl
  refl _ := ⟨rfl, rfl, id⟩
  trans _ _ _ h h' := ⟨h'.1.trans h.1, h'.2.1.trans h.2.1, h'.2.2 ∘ h.2.2⟩
  unique _ hT := hT.holds .catsPkey
  write w T c' _ h := by
    cases w with
    | cat row =>
      rcases List.mem_append.mp h with h | h
      · exact .inr ⟨c', h, rfl, rfl, rfl, id⟩
      · exact .inl (by rw [List.mem_singleton.mp h]; exact List.mem_singleton.mpr rfl)
    | touched catId at' | cover catId mediaId | named catId name =>
      obtain ⟨c, hc, rfl⟩ := mem_updateWhere.mp h
      refine .inr ⟨c, hc, ?_⟩
      split <;> exact ⟨rfl, rfl, rfl, id⟩
    | retired catId =>
      obtain ⟨c, hc, rfl⟩ := mem_updateWhere.mp h
      refine .inr ⟨c, hc, ?_⟩
      split
      · exact ⟨rfl, rfl, rfl, fun _ => rfl⟩
      · exact ⟨rfl, rfl, rfl, id⟩
    | purged rows at' =>
      obtain ⟨c, hc, rfl⟩ := mem_updateWhere.mp h
      refine .inr ⟨c, (mem_deleteWhere.mp hc).1, ?_⟩
      split <;> exact ⟨rfl, rfl, rfl, id⟩
    | _ => exact .inr ⟨c', h, rfl, rfl, rfl, id⟩
  aside _ _ _ c' h hc' := ⟨c', h.cats ▸ hc', rfl, rfl, rfl, id⟩

/-- A medium never changes. -/
def media : Keeper Medium where
  kind := .media
  rows := Tables.media
  id := Medium.id
  keeps m m' := m' = m
  ids _ := rfl
  refl _ := rfl
  trans _ _ _ h h' := h'.trans h
  unique _ hT := hT.holds .mediaPkey
  write w T m _ h := by
    rcases mem_media_apply h with rfl | h
    · exact .inl (List.mem_singleton.mpr rfl)
    · exact .inr ⟨m, h, rfl, rfl⟩
  aside _ _ _ m h hm := ⟨m, h.media ▸ hm, rfl, rfl⟩

theorem exists_of_forall₂ {α β : Type} {r : α → β → Prop} {as : List α} {bs : List β}
    (h : List.Forall₂ r as bs) {b : β} (hb : b ∈ bs) : ∃ a ∈ as, r a b := by
  induction h with
  | nil => cases hb
  | @cons a b' as bs hr _ ih =>
    rcases List.mem_cons.mp hb with rfl | hb
    · exact ⟨a, List.mem_cons_self, hr⟩
    · obtain ⟨a', ha', hr'⟩ := ih hb
      exact ⟨a', List.mem_cons_of_mem _ ha', hr'⟩

/-- What an update says of itself. An author it gets at a login stays. -/
structure SameUpdate (u u' : Update) : Prop where
  catId : u'.catId = u.catId
  mediaId : u'.mediaId = u.mediaId
  kind : u'.kind = u.kind
  createdAt : u'.createdAt = u.createdAt
  idempotencyKey : u'.idempotencyKey = u.idempotencyKey
  author : ∀ a, u.authorUserId = some a → u'.authorUserId = some a

def updates : Keeper Update where
  kind := .updates
  rows := Tables.updates
  id := Update.id
  keeps := SameUpdate
  ids _ := rfl
  refl _ := ⟨rfl, rfl, rfl, rfl, rfl, fun _ => id⟩
  trans _ _ _ h h' := ⟨h'.1.trans h.1, h'.2.trans h.2, h'.3.trans h.3, h'.4.trans h.4, h'.5.trans h.5,
    fun a => h'.6 a ∘ h.6 a⟩
  unique _ hT := hT.holds .updatesPkey
  write w T u' hw h := by
    rcases mem_updates_apply h with ⟨arg, rfl, rfl⟩ | ⟨arg, rfl, -⟩ | ⟨u, hu, heq⟩
    · exact .inl (List.mem_singleton.mpr rfl)
    · exact absurd rfl (hw arg)
    · rw [heq]
      exact .inr ⟨u, hu, rfl, rfl, rfl, rfl, rfl, rfl, fun _ => id⟩
  aside _ _ _ u' h hu' := by
    obtain ⟨u, hu, hclaimed⟩ := exists_of_forall₂ h.updates hu'
    refine ⟨u, hu, ?_⟩
    simp only [claimed, Bool.or_eq_true, Bool.and_eq_true, beq_iff_eq] at hclaimed
    rcases hclaimed with rfl | ⟨hnone, heq⟩
    · exact ⟨rfl, rfl, rfl, rfl, rfl, rfl, fun _ => id⟩
    · rw [heq]
      refine ⟨rfl, rfl, rfl, rfl, rfl, rfl, fun a ha => ?_⟩
      rw [ha] at hnone
      cases hnone

def outbox : Keeper NotificationOutbox where
  kind := .outbox
  rows := Tables.notificationOutbox
  id := NotificationOutbox.id
  keeps o o' := o'.updateId = o.updateId ∧ o'.catId = o.catId ∧
    o'.needsHelpEligible = o.needsHelpEligible
  ids _ := rfl
  refl _ := ⟨rfl, rfl, rfl⟩
  trans _ _ _ h h' := ⟨h'.1.trans h.1, h'.2.1.trans h.2.1, h'.2.2.trans h.2.2⟩
  unique _ hT := hT.holds .notificationOutboxPkey
  write w T o' _ h := by
    rcases mem_outbox_apply h with ⟨rows, rfl, ho'⟩ | ⟨o, ho, heq⟩
    · exact .inl (List.mem_map_of_mem ho')
    · rw [heq]
      exact .inr ⟨o, ho, rfl, rfl, rfl, rfl⟩
  aside _ _ _ o h ho := ⟨o, h.notificationOutbox ▸ ho, rfl, rfl, rfl, rfl⟩

end Keeps

/-- What the history of a run says of the rows of now. -/
structure Remembers (ops : List Op) (h : List ContentCommit) (b : World) : Prop where
  seen : Seen ops h b
  cats : cats.Kept h b
  media : media.Kept h b
  updates : updates.Kept h b
  outbox : outbox.Kept h b

theorem lawful_history {t₀ : Tables} (hfresh : Fresh ops t₀) : Lawful ops (contract cfg)
    (system cfg read given) (Remembers ops) (fun t o h _ _ l => Plain cfg t o h l) := by
  have hcats := (cats.rule (fun _ _ hP => hP)
    fun _ _ _ _ _ _ hQ => hQ).and (lawful_plain cfg read given hfresh)
  have hmedia := (media.rule (fun _ _ hP => hP.1)
    fun _ _ _ _ _ _ hQ => hQ.1).and hcats
  have hupdates := (updates.rule (fun _ _ hP => hP.1.1)
    fun _ _ _ _ _ _ hQ => hQ.1.1).and hmedia
  have houtbox := (outbox.rule (fun _ _ hP => hP.1.1.1)
    fun _ _ _ _ _ _ hQ => hQ.1.1.1).and hupdates
  refine houtbox.congr (fun h b => ?_) fun _ _ _ _ _ _ => by simp
  exact ⟨fun ⟨⟨⟨⟨h₁, h₂⟩, h₃⟩, h₄⟩, h₅⟩ => ⟨h₁, h₂, h₃, h₄, h₅⟩,
    fun h => ⟨⟨⟨⟨h.seen, h.cats⟩, h.media⟩, h.updates⟩, h.outbox⟩⟩

theorem remembers_start {b : World} (hfresh : Fresh ops b.db.tables) : Remembers ops [] b :=
  ⟨seen_start hfresh, Keeper.start, Keeper.start, Keeper.start, Keeper.start⟩

end Tekir.ContentHistory
