import Tekir.ContentGates
import Tekir.ContentHistory
import Tekir.DiscoverPages
import Tekir.LaterCalls

/-!
# Attachments are the author's own

`resolveOwnMedia` reads the medium in one transaction and the update is stored in another.
In between media and accounts may be deleted and identifiers drawn; still the medium of a
stored update is one that its author has uploaded.
-/
namespace Tekir.Attachments
open Machine Table Schema Statements UpdateQueries Environment ContentWrites ContentQueries
  ContentCalls ContentUses ContentRuns ContentGates ContentHistory Programs Interleaving Bookkeeping
  Contracts Dialects
open ReadServices (Reading)

/-- The medium of an update has been uploaded by its author. -/
def OwnMedia (t : Tables) : Prop :=
  ∀ u ∈ t.updates, ∀ m ∈ t.media, u.mediaId = some m.id → u.authorUserId = some m.uploadedByUserId

instance (t : Tables) : Decidable (OwnMedia t) :=
  inferInstanceAs (Decidable (∀ u ∈ t.updates, ∀ m ∈ t.media, _ → _))

/-- The run has gone through a database with this medium. -/
def Stored (h : List ContentCommit) (b : World) (m : Medium) : Prop :=
  ∃ T, Past h b T ∧ m ∈ T.media

/-- A medium that a call has read was stored before, or is one it draws itself. -/
def Found (o : Op) (h : List ContentCommit) (b : World) (m : Medium) : Prop :=
  Stored h b m ∨ Kind.media.drawn o = some m.id

/-- The update names no medium, or one that its author has uploaded. -/
def Attaches (h : List ContentCommit) (b : World) (arg : CreateUpdateParams) : Prop :=
  ∀ id, arg.mediaId = some id → ∃ m, Stored h b m ∧ m.id = id ∧
    arg.authorUserId = some m.uploadedByUserId

/-- What a call knows of media, and the updates that it is about to commit. -/
structure Knows (o : Op) (h : List ContentCommit) (b : World) (s : Option World)
    (l : ContentLocal) : Prop where
  snapshot : ∀ v ∈ s, ∀ m ∈ v.db.tables.media, Found o h b m
  trace : ∀ id row, ⟨.getMediaByID id, .ok row⟩ ∈ l.trace → Found o h b row
  writes : ∀ arg, .update arg ∈ l.writes → Attaches h b arg

section Knows

variable {cfg : Config} {read : Reading} {given : List UUID} {ops : List Op} {t : ℕ} {o : Op}
  {h : List ContentCommit} {b v : World} {s : Option World} {l : ContentLocal} {c : ContentCommit}
  {m : Medium}

theorem Stored.later (hm : Stored h c.base m) : Stored (h ++ [c]) c.next m := by
  obtain ⟨T, hT, hmem⟩ := hm
  exact ⟨T, hT.later, hmem⟩

theorem Found.later (hm : Found o h c.base m) : Found o (h ++ [c]) c.next m :=
  hm.imp_left Stored.later

theorem Knows.later (hK : Knows o h c.base s l) : Knows o (h ++ [c]) c.next s l := by
  refine ⟨fun v hv m hm => (hK.snapshot v hv m hm).later, fun id row hx => (hK.trace id row hx).later,
    fun arg harg id hid => ?_⟩
  obtain ⟨m, hm, hmid, howner⟩ := hK.writes arg harg id hid
  exact ⟨m, hm.later, hmid, howner⟩

theorem mem_media_applyAll {ws : List Write} {T : Tables} (hm : m ∈ (applyAll ws T).media) :
    .medium m ∈ ws ∨ m ∈ T.media := by
  induction ws generalizing T with
  | nil => exact .inr hm
  | cons w ws ih =>
    rcases ih hm with hm | hm
    · exact .inl (List.mem_cons_of_mem _ hm)
    · exact (mem_media_apply hm).imp_left fun hw => List.mem_cons.mpr (.inl hw.symm)

/-- A call that draws a medium stores no update. -/
theorem not_drawn_of_update {arg : CreateUpdateParams} (hw : Emits cfg o (.update arg)) :
    Kind.media.drawn o = none := by
  have hdrawn : Kind.updates.drawn o = some arg.id :=
    drawn_of_born (k := .updates) hw (List.mem_singleton.mpr rfl)
  cases o <;> first | rfl | cases hdrawn

/-- A statement that stores an update. -/
theorem eq_of_emits_update {q : Query} {arg : CreateUpdateParams} (hw : q.Emits (.update arg)) :
    q = .createUpdate arg := by
  cases q with
  | createUpdate arg' =>
    rcases hw with hw | hw
    · cases hw
      rfl
    · cases hw
  | createNotificationOutbox | claimNotificationOutboxBatch | markNotificationRead =>
    obtain ⟨_, hw⟩ := hw
    cases hw
  | replaceUpdateStatuses =>
    obtain ⟨_, hw, -⟩ := hw
    cases hw
  | deleteAccount =>
    obtain ⟨_, _, hw⟩ := hw
    cases hw
  | _ => first | exact hw.elim | cases hw

theorem found_of_answer {v₀ : World} (hs : ∀ m ∈ v₀.db.tables.media, Found o h b m) {id : UUID}
    {row : Medium} (hr : (system cfg read given).answer (.getMediaByID id) v₀ v = .ok row) :
    Found o h b row := by
  have hrun : (Query.getMediaByID id).run cfg.dwithin read v₀ v = .ok (row, _) :=
    Dialect.answer_eq_ok.mp hr
  obtain ⟨hrow, -⟩ := reads_eq_ok.mp hrun
  exact hs row (List.mem_filter.mp (one_eq_ok hrow)).1

variable (cfg read given) in
theorem rule_knows : Rule ops ((contract cfg).and gates) (system cfg read given) (Remembers ops)
    (fun t o h _ _ l => Plain cfg t o h l) (fun _ _ => True)
    (fun _ o h b s l => Knows o h b s l) := by
  refine Rule.of_growing ?_ ?_ ?_ ?_ ?_ fun _ _ _ _ _ _ hK => hK.later
  · intro t o h b
    refine ⟨fun v hv => ?_, fun id row hx => ?_, fun arg harg => ?_⟩
    · cases hv
    · cases hx
    · cases harg
  · intro t o h b l v _ _ hl hK hview
    refine ⟨fun v' hv' m hm => ?_, hK.trace, hK.writes⟩
    cases hv'
    rw [tables_of_view hview] at hm
    rcases mem_media_applyAll hm with hm | hm
    · exact .inr (drawn_of_born (k := .media) (hl.emits _ hm) (List.mem_singleton.mpr rfl))
    · exact .inl ⟨_, past_now, hm⟩
  · intro t o h b l q v₀ v ho _ hl hK hview hasks
    refine ⟨fun v hv => ?_, fun id row hx => ?_, fun arg harg => ?_⟩
    · cases hv
    · rcases List.mem_append.mp hx with hx | hx
      · exact hK.trace id row hx
      · have hfact := List.mem_singleton.mp hx
        injection hfact with hq hr
        subst hq
        exact found_of_answer (hK.snapshot v₀ rfl) (eq_of_heq hr).symm
    · rcases List.mem_append.mp harg with harg | harg
      · exact hK.writes arg harg
      · have hemits : Emits cfg o (.update arg) := emits_of_asks hasks.1.1 harg
        obtain rfl := eq_of_emits_update (emits_of_effect harg)
        intro id hid
        obtain ⟨id', row, hrow, rfl, howner⟩ := hasks.2.2 id hid
        rcases hK.trace id' row hrow with hstored | hdrawn
        · exact ⟨row, hstored, rfl, howner⟩
        · rw [not_drawn_of_update hemits] at hdrawn
          cases hdrawn
  · intro t o h b s l q hK
    refine ⟨fun v hv => ?_, fun id row hx => ?_, fun arg harg => ?_⟩
    · cases hv
    · rcases List.mem_append.mp hx with hx | hx
      · exact hK.trace id row hx
      · have hfact := List.mem_singleton.mp hx
        injection hfact with hq hr
        subst hq
        cases eq_of_heq hr
    · rw [Local.ask_writes, List.append_nil] at harg
      exact hK.writes arg harg
  · intro t o h b s l l' hK htrace hwrites
    refine ⟨fun v hv => ?_, fun id row hx => hK.trace id row (htrace ▸ hx), fun arg harg => ?_⟩
    · cases hv
    · rw [hwrites] at harg
      cases harg

end Knows

section Kept

variable {cfg : Config} {read : Reading} {given : List UUID} {ops : List Op} {t : ℕ} {o : Op}
  {h : List ContentCommit} {b b' : World} {l : ContentLocal}

/-- An update in a transaction's result was there before, or is one that it stores. -/
theorem mem_updates_applyAll {ws : List Write} (hws : ∀ arg, .reassigned arg ∉ ws) {T : Tables}
    {u : Update} (hu : u ∈ (applyAll ws T).updates) :
    (∃ arg, .update arg ∈ ws ∧ u.mediaId = arg.mediaId ∧ u.authorUserId = arg.authorUserId) ∨
      ∃ u₀ ∈ T.updates, u.mediaId = u₀.mediaId ∧ u.authorUserId = u₀.authorUserId := by
  induction ws generalizing T with
  | nil => exact .inr ⟨u, hu, rfl, rfl⟩
  | cons w ws ih =>
    rcases ih (fun arg harg => hws arg (List.mem_cons_of_mem _ harg)) hu with
      ⟨arg, harg, hfields⟩ | ⟨u₁, hu₁, hmedia, hauthor⟩
    · exact .inl ⟨arg, List.mem_cons_of_mem _ harg, hfields⟩
    · rcases mem_updates_apply hu₁ with ⟨arg, rfl, rfl⟩ | ⟨arg, rfl, -⟩ | ⟨u₀, hu₀, heq⟩
      · exact .inl ⟨arg, List.mem_cons_self, hmedia, hauthor⟩
      · exact absurd List.mem_cons_self (hws arg)
      · rw [heq] at hmedia hauthor
        exact .inr ⟨u₀, hu₀, hmedia, hauthor⟩

/-- What a transaction stores next to what is stored already. -/
theorem ownMedia_of_view (hP : Remembers ops h b) (ho : ops[t]? = some o) (hl : Plain cfg t o h l)
    (hK : ∀ arg, .update arg ∈ l.writes → Attaches h b arg) (hI : OwnMedia b.db.tables)
    (hview : view l.writes b = some b') : OwnMedia b'.db.tables := by
  have hunseen : ∀ {m : Medium} {T : Tables}, .medium m ∈ l.writes → Past h b T →
      m.id ∉ T.media.map Medium.id := fun hm hT =>
    hP.seen.unseen (k := .media) ho hl.toDrawing hm (List.mem_singleton.mpr rfl) hT
  intro u hu m hm hmedia
  rw [tables_of_view hview] at hu hm
  rcases mem_updates_applyAll hl.new hu with ⟨arg, harg, hid, hauthor⟩ | ⟨u₀, hu₀, hid, hauthor⟩
  · obtain ⟨m₀, ⟨T, hT, hm₀⟩, hmid, howner⟩ := hK arg harg m.id (hid ▸ hmedia)
    rw [hauthor, howner]
    rcases mem_media_applyAll hm with hm | hm
    · exact absurd (hmid ▸ List.mem_map_of_mem hm₀) (hunseen hm hT)
    · have hsame : m = m₀ := hP.media T hT m₀ hm₀ m hm hmid
      rw [hsame]
  · rw [hid] at hmedia
    rw [hauthor]
    rcases mem_media_applyAll hm with hm | hm
    · obtain ⟨m₀, hm₀, hmid⟩ := b.db.valid.holds .updatesMediaIdFkey u₀ hu₀ m.id hmedia
      exact absurd (hmid ▸ List.mem_map_of_mem hm₀) (hunseen hm past_now)
    · exact hI u₀ hu₀ m hm hmedia

/-- A login takes over updates that have no author, and those have no medium. -/
theorem ownMedia_of_aside {T T' : Tables} (h : Aside given T T') (hI : OwnMedia T) : OwnMedia T' := by
  intro u' hu' m hm hmedia
  obtain ⟨u, hu, hclaimed⟩ := exists_of_forall₂ h.updates hu'
  rw [h.media] at hm
  simp only [claimed, Bool.or_eq_true, Bool.and_eq_true, beq_iff_eq] at hclaimed
  rcases hclaimed with rfl | ⟨hnone, heq⟩
  · exact hI u' hu m hm hmedia
  · rw [heq] at hmedia
    rw [hI u hu m hm hmedia] at hnone
    cases hnone

theorem lawful_ownMedia {t₀ : Tables} (hfresh : Fresh ops t₀) :
    Lawful ops ((contract cfg).and gates) (system cfg read given)
      (fun h b => (Remembers ops h b ∧ True) ∧ OwnMedia b.db.tables)
      (fun t o h b s l => (Plain cfg t o h l ∧ Knows o h b s l) ∧ True) := by
  refine Rule.and (Rule.of_invariant ?_ ?_)
    ((rule_knows cfg read given).and (Lawful.and_contract (lawful_history hfresh)))
  · intro t o h b s l b' ho hP hI hQ _ hview
    exact ownMedia_of_view hP.1 ho hQ.1 hQ.2.writes hI hview
  · intro ws h b b' _ hI hforeign
    exact ownMedia_of_aside (aside_of_foreign hforeign) hI

end Kept

/-- Whatever the interleaving, and whichever statements and commits are lost. -/
theorem attachments_are_own {cfg : Config} {read : Reading} {given : List UUID} {n : ℕ}
    {s s' : ContentState n} {as : List (ContentAction n)} (hidle : Idle s)
    (hfresh : Fresh (as.filterMap called) s.base.db.tables) (hown : OwnMedia s.base.db.tables)
    (h : exec (step (system cfg read given) (program cfg read)) s as = some s') :
    OwnMedia s'.base.db.tables :=
  ((lawful_ownMedia hfresh).exec (contract_met.and gates_met) hidle
    ⟨⟨remembers_start hfresh, trivial⟩, hown⟩ h).base.2

/-- Two accounts and a cat. -/
def twoAccounts : ContentState 2 where
  base := {
    db := ⟨{
      users := [{ id := 1, phone := "+905551112255", phoneVerifiedAt := 0 },
        { id := 2, phone := "+905551112266", phoneVerifiedAt := 0 }]
      cats := [{ id := 7, name := none, area := ⟨41, 29⟩, createdAt := 0 }] }, by decide⟩ }

def sighting (k author : ℕ) : Op :=
  .createOrdinaryUpdate (Backend.plainEnv k)
    { catId := some 7, userId := author, deviceId := none, statuses := ["seen"], needsHelp := false
      comment := none, mediaId := some (some 10), idempotencyKey := none }

/-- Both accounts attach the first one's upload. -/
def sightings : List (ContentAction 2) :=
  .call 0 (.upload (Backend.plainEnv 1) 1 none none false) :: List.replicate 7 (.run 0) ++
    [.call 0 (sighting 2 1), .call 1 (sighting 3 2)] ++ List.replicate 7 (.run 1) ++
      List.replicate 21 (.run 0)

theorem attachments_are_own_sightings : ∃ s', exec (step
    (system Backend.plainConfig DiscoverPages.plainReading [])
    (program Backend.plainConfig DiscoverPages.plainReading)) twoAccounts sightings = some s' ∧
    s'.log.map (fun d => d.result.isOk) = [true, false, true] ∧
    s'.base.db.tables.updates.map Update.mediaId = [some 10] ∧ OwnMedia s'.base.db.tables := by
  obtain ⟨s', hs', htest⟩ := exists_of_exec_test (step
    (system Backend.plainConfig DiscoverPages.plainReading [])
    (program Backend.plainConfig DiscoverPages.plainReading)) twoAccounts sightings
    (fun s => s.log.map (fun d => d.result.isOk) == [true, false, true] &&
      s.base.db.tables.updates.map Update.mediaId == [some 10]) (by decide +kernel)
  simp only [Bool.and_eq_true, beq_iff_eq] at htest
  have hidle : Idle twoAccounts := ⟨fun _ => rfl, rfl, rfl, rfl⟩
  exact ⟨s', hs', htest.1, htest.2,
    attachments_are_own hidle (fun k => by cases k <;> decide) (by decide) hs'⟩

end Tekir.Attachments
