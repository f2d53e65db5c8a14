import Tekir.ContentGates
import Tekir.ContentHistory
import Tekir.DiscoverPages
import Tekir.LaterCalls

/-!
# An outbox row is processed once

Any number of workers dispatch at the same time, each in a transaction that claims its
batch `for update skip locked`. A row that one of them holds nobody else changes, and a
row that has been processed stays so: no two commits process the same row.
-/
namespace Tekir.ProcessedOnce
open Machine Table Schema Statements NotificationQueries Environment ContentWrites ContentQueries
  ContentCalls ContentUses ContentRuns ContentHistory Programs Interleaving Bookkeeping Contracts
  Dialects
open ReadServices (Reading)
open Prog (plain_andThen plain_bind plain_query)

/-- A row is claimed at the start of a transaction and processed in the same one. -/
def Claims (l : ContentLocal) : Query → Prop
  | .claimNotificationOutboxBatch _ _ => l.writes = []
  | .markNotificationOutboxProcessed _ id => ∃ ids, .claimed ids ∈ l.writes ∧ id ∈ ids
  | _ => True

def claiming : Contract Write Query Query.Row Error Op (Except Error Answer) where
  asks _ l q := Claims l q

section Met

variable {cfg : Config} {read : Reading} {given : List UUID} {o : Op} {q : Query}

/-- The statements of a dispatch between its claim and its commit. -/
def Within (ids : List UUID) : Query → Prop
  | .claimNotificationOutboxBatch _ _ => False
  | .markNotificationOutboxProcessed _ id => id ∈ ids
  | _ => True

theorem deliverAll_plain {ids : List UUID} (env : Env) (row : ClaimedRow) (recs : List Recipient)
    (drawn : ℕ) : (deliverAll env row recs drawn).Plain (Within ids) := by
  induction recs generalizing drawn with
  | nil => trivial
  | cons rec left ih =>
    refine plain_andThen (plain_bind (plain_query trivial) fun r => ?_) fun _ => ih (drawn + 1)
    split
    · trivial
    · trivial
    · split
      · trivial
      · split
        · trivial
        · refine plain_andThen (plain_query trivial) fun _ => ?_
          split
          · exact plain_query trivial
          · trivial
          · trivial

theorem dispatchRows_plain {ids : List UUID} (env : Env) (rows : List ClaimedRow) (drawn : ℕ)
    (hrows : ∀ row ∈ rows, row.id ∈ ids) : (dispatchRows env rows drawn).Plain (Within ids) := by
  induction rows generalizing drawn with
  | nil => trivial
  | cons row left ih =>
    refine plain_andThen (plain_andThen ?_ fun drawn => ?_) fun drawn =>
      ih drawn fun row' hrow' => hrows row' (List.mem_cons_of_mem _ hrow')
    · split
      · exact plain_andThen (plain_query trivial) fun recs => deliverAll_plain env row recs drawn
      · trivial
    · have hmark : Within ids (.markNotificationOutboxProcessed env.clock row.id) :=
        hrows row List.mem_cons_self
      exact plain_andThen (plain_query hmark) fun _ => trivial

theorem claims_of_within {ids : List UUID} {l : ContentLocal} (hids : .claimed ids ∈ l.writes)
    (hq : Within ids q) : Claims l q := by
  cases q with
  | claimNotificationOutboxBatch => exact hq.elim
  | markNotificationOutboxProcessed at' id => exact ⟨ids, hids, hq⟩
  | _ => trivial

theorem dispatchPending_meets (env : Env) (skipped : List UUID) :
    (reply .dispatched (dispatchPending cfg env skipped)).Meets (system cfg read given)
      (fun l q => Claims l q) (fun _ => True) (fun _ _ => True) {} := by
  refine Prog.meets_andThen (Prog.meets_transaction (Prog.meets_bind.mpr ?_))
  refine Prog.meets_query.mpr ⟨fun _ => ⟨rfl, fun b₀ b => ?_⟩, fun _ => ?_⟩
  · have hclaimed : Write.claimed ((claimBatch skipped cfg.batchSize b₀ b).map ClaimedRow.id) ∈
        (system cfg read given).effect (.claimNotificationOutboxBatch skipped cfg.batchSize) b₀ b :=
      List.mem_singleton.mpr rfl
    have hrows : ((dispatchRows env (claimBatch skipped cfg.batchSize b₀ b) 0).andThen fun _ =>
        (.ret (.ok (claimBatch skipped cfg.batchSize b₀ b).length) : Script ℕ)).Plain
          (Within ((claimBatch skipped cfg.batchSize b₀ b).map ClaimedRow.id)) :=
      plain_andThen (dispatchRows_plain env _ 0 fun row hrow => List.mem_map_of_mem hrow)
        fun _ => trivial
    refine hrows.meets (fun l' q hq hgrows => ?_) fun l' a _ => ?_
    · exact claims_of_within (hgrows.writes.subset hclaimed) hq
    · exact ⟨fun a _ => ⟨fun _ => ⟨trivial, fun _ _ => trivial, fun _ _ => trivial⟩, fun _ =>
        ⟨fun _ _ => trivial, fun _ _ => trivial⟩⟩, fun e _ => ⟨fun _ _ => trivial, fun _ _ => trivial⟩⟩
  · exact ⟨nofun, fun e _ => ⟨fun _ _ => trivial, fun _ _ => trivial⟩⟩

/-- The statements that a dispatch has to itself. -/
def claims : Query → Bool
  | .claimNotificationOutboxBatch _ _ | .markNotificationOutboxProcessed _ _ => true
  | _ => false

/-- Only dispatches claim and process rows. -/
theorem not_claims (hq : Writes cfg o q) (ho : ∀ env skipped, o ≠ .dispatchPending env skipped) :
    claims q = false := by
  cases o with
  | createOrdinaryUpdate =>
    obtain ⟨_, _, _, -, -, hq⟩ := hq
    cases q <;> first | rfl | exact hq.elim
  | createNeedsHelpUpdate =>
    obtain ⟨_, _, -, hq⟩ := hq
    cases q <;> first | rfl | exact hq.elim
  | correctOwnUpdate =>
    obtain ⟨_, -, hq⟩ := hq
    cases q <;> first | rfl | exact hq.elim
  | deleteOwnUpdate =>
    obtain ⟨_, _, -, -, rfl⟩ := hq
    rfl
  | setCoverPhoto | follow | unfollow | block | unblock =>
    obtain ⟨_, -, rfl⟩ := hq
    rfl
  | renameCat =>
    obtain ⟨_, rfl⟩ := hq
    rfl
  | deleteCat =>
    obtain rfl := hq
    rfl
  | dispatchPending env skipped => exact absurd rfl (ho env skipped)
  | _ => cases q <;> first | rfl | exact hq.elim

theorem claims_of_asks {l : ContentLocal} (hq : Asks cfg o q)
    (ho : ∀ env skipped, o ≠ .dispatchPending env skipped) : Claims l q := by
  have hnot : claims q = false := by
    rcases hq with hq | hq
    · cases q <;> first | rfl | cases hq
    · exact not_claims hq ho
  cases q <;> trivial

theorem claiming_met : claiming.Met (system cfg read given) (program cfg read) := by
  intro o
  by_cases ho : ∃ env skipped, o = .dispatchPending env skipped
  · obtain ⟨env, skipped, rfl⟩ := ho
    exact dispatchPending_meets env skipped
  · have hmet : (contract cfg).Met (system cfg read given) (program cfg read) := contract_met
    exact (hmet o).mono_asks fun l q hq =>
      claims_of_asks hq.1 fun env skipped h => ho ⟨env, skipped, h⟩

end Met

/-- The row is there and has not been processed. -/
def Waits (id : UUID) (t : Tables) : Prop :=
  ∃ o ∈ t.notificationOutbox, o.id = id ∧ o.processedAt = none

/-- The row has been processed, or is gone. -/
def Settled (id : UUID) (t : Tables) : Prop :=
  ∀ o ∈ t.notificationOutbox, o.id = id → o.processedAt.isSome = true

/-- A row that has been processed stays so. -/
def processed : Keeper NotificationOutbox where
  kind := .outbox
  rows := Tables.notificationOutbox
  id := NotificationOutbox.id
  keeps o o' := o.processedAt.isSome = true → o'.processedAt.isSome = true
  ids := outbox.ids
  refl _ := id
  trans _ _ _ h h' := h' ∘ h
  unique := outbox.unique
  write w T o' _ h := by
    cases w with
    | outbox rows =>
      rcases List.mem_append.mp h with h | h
      · exact .inr ⟨o', h, rfl, id⟩
      · exact .inl (List.mem_map_of_mem h)
    | processed id at' =>
      obtain ⟨o, ho, rfl⟩ := mem_updateWhere.mp h
      refine .inr ⟨o, ho, ?_⟩
      split
      · exact ⟨rfl, fun _ => rfl⟩
      · exact ⟨rfl, fun h => h⟩
    | purged rows at' => exact .inr ⟨o', (mem_deleteWhere.mp h).1, rfl, id⟩
    | _ => exact .inr ⟨o', h, rfl, id⟩
  aside _ _ _ o h ho := ⟨o, h.notificationOutbox ▸ ho, rfl, id⟩

section Rows

variable {id : UUID} {at' : Instant} {ws : List Write} {T : Tables}

/-- What somebody else commits next to a claim leaves the claimed rows alone. -/
theorem waits_apply {w : Write} {ids : List UUID} (hclash : clash w (.claimed ids) = false)
    (hid : id ∈ ids) (h : Waits id T) : Waits id (w.apply T) := by
  obtain ⟨o, ho, rfl, hnone⟩ := h
  have hlocks : .outbox o.id ∉ w.locks := by
    intro hmem
    have hany : (w.locks.any fun l => (Write.claimed ids).locks.contains l) = true := by
      refine List.any_eq_true.mpr ⟨_, hmem, ?_⟩
      simpa [Write.locks] using hid
    simp only [clash, Bool.or_eq_false_iff] at hclash
    rw [hclash.1.1] at hany
    cases hany
  cases w with
  | outbox rows => exact ⟨o, List.mem_append_left _ ho, rfl, hnone⟩
  | processed id' at' =>
    have hne : o.id ≠ id' := fun h => hlocks (List.mem_singleton.mpr (congrArg Lock.outbox h))
    refine ⟨o, mem_updateWhere.mpr ⟨o, ho, ?_⟩, rfl, hnone⟩
    rw [if_neg (by simpa using hne)]
  | purged rows at' =>
    refine ⟨o, mem_deleteWhere.mpr ⟨ho, ?_⟩, rfl, hnone⟩
    simp only [List.contains_eq_mem, decide_eq_false_iff_not]
    intro hmem
    refine hlocks ?_
    simp only [Write.locks, List.mem_append]
    repeat' first | exact .inr (List.mem_map_of_mem hmem) | apply Or.inl
  | _ => exact ⟨o, ho, rfl, hnone⟩

theorem waits_applyAll {ids : List UUID} (hclash : ∀ w ∈ ws, clash w (.claimed ids) = false)
    (hid : id ∈ ids) (h : Waits id T) : Waits id (applyAll ws T) := by
  induction ws generalizing T with
  | nil => exact h
  | cons w ws ih =>
    refine ih (fun w' hw' => hclash w' (List.mem_cons_of_mem _ hw')) ?_
    exact waits_apply (hclash w List.mem_cons_self) hid h

/-- A transaction that processes a row leaves it so, unless it creates it. -/
theorem settled_applyAll (hws : ∀ arg, .reassigned arg ∉ ws) (h : .processed id at' ∈ ws)
    (hborn : ∀ w ∈ ws, id ∉ Kind.outbox.born w) : Settled id (applyAll ws T) := by
  intro o ho hid
  obtain ⟨before, after, rfl⟩ := List.append_of_mem h
  rw [applyAll_append, applyAll_cons] at ho
  have hrow : o ∈ processed.rows (applyAll after (Write.apply (.processed id at') (applyAll before T))) :=
    ho
  rcases Keeper.applyAll (fun arg harg => hws arg (by simp [harg])) hrow with
    ⟨w, hw, hmem⟩ | ⟨o₀, ho₀, hid₀, hkeeps⟩
  · exact absurd (hid ▸ hmem) (hborn w (by simp [hw]))
  · refine hkeeps ?_
    have hsame : o₀.id = id := Eq.trans hid₀ hid
    obtain ⟨o₁, ho₁, rfl⟩ := mem_updateWhere.mp ho₀
    split
    · rfl
    · rename_i hne
      split at hsame
      · rename_i heq
        exact absurd heq hne
      · exact absurd (beq_iff_eq.mpr hsame) hne

theorem settled_of_view {b b' : World} (hws : ∀ arg, .reassigned arg ∉ ws)
    (hview : view ws b = some b') (hborn : ∀ w ∈ ws, id ∉ Kind.outbox.born w)
    (h : Settled id b.db.tables) : Settled id b'.db.tables := by
  intro o ho hid
  rw [tables_of_view hview] at ho
  have hrow : o ∈ processed.rows (applyAll ws b.db.tables) := ho
  rcases Keeper.applyAll hws hrow with ⟨w, hw, hmem⟩ | ⟨o₀, ho₀, hid₀, hkeeps⟩
  · exact absurd (hid ▸ hmem) (hborn w hw)
  · exact hkeeps (h o₀ ho₀ (Eq.trans hid₀ hid))

end Rows

/-- What an open transaction has claimed still waits; it processes nothing else. -/
structure Holds (b : World) (l : ContentLocal) : Prop where
  waits : ∀ ids, .claimed ids ∈ l.writes → ∀ id ∈ ids, Waits id b.db.tables
  processes : ∀ id at', .processed id at' ∈ l.writes → ∃ ids, .claimed ids ∈ l.writes ∧ id ∈ ids

/-- Each row is processed by one commit at most; that commit found it waiting. -/
structure Once (h : List ContentCommit) (b : World) : Prop where
  once : h.Pairwise fun c c' => ∀ id at' at'', .processed id at' ∈ c.writes →
    .processed id at'' ∉ c'.writes
  found : ∀ c ∈ h, ∀ id at', .processed id at' ∈ c.writes → Waits id c.base.db.tables
  settled : ∀ c ∈ h, ∀ id at', .processed id at' ∈ c.writes → Settled id b.db.tables

section Rule

variable {cfg : Config} {read : Reading} {given : List UUID} {ops : List Op} {t : ℕ} {o : Op}
  {h : List ContentCommit} {b b' v v₀ : World} {l : ContentLocal}

theorem holds_of_nil (hl : l.writes = []) : Holds b l := by
  constructor
  · intro ids hids
    rw [hl] at hids
    cases hids
  · intro id at' hid
    rw [hl] at hid
    cases hid

theorem emits_claimed {q : Query} {ids : List UUID} (hw : q.Emits (.claimed ids)) :
    ∃ skipped limit, q = .claimNotificationOutboxBatch skipped limit := by
  cases q with
  | claimNotificationOutboxBatch skipped limit => exact ⟨skipped, limit, rfl⟩
  | createUpdate arg => rcases hw with hw | hw <;> cases hw
  | createNotificationOutbox | markNotificationRead =>
    obtain ⟨_, hw⟩ := hw
    cases hw
  | replaceUpdateStatuses =>
    obtain ⟨_, hw, -⟩ := hw
    cases hw
  | deleteAccount =>
    obtain ⟨_, _, hw⟩ := hw
    cases hw
  | _ => first | exact hw.elim | cases hw

theorem emits_processed {q : Query} {id : UUID} {at' : Instant} (hw : q.Emits (.processed id at')) :
    q = .markNotificationOutboxProcessed at' id := by
  cases q with
  | markNotificationOutboxProcessed at'' id' =>
    cases hw
    rfl
  | createUpdate arg => rcases hw with hw | hw <;> cases hw
  | createNotificationOutbox | markNotificationRead | claimNotificationOutboxBatch =>
    obtain ⟨_, hw⟩ := hw
    cases hw
  | replaceUpdateStatuses =>
    obtain ⟨_, hw, -⟩ := hw
    cases hw
  | deleteAccount =>
    obtain ⟨_, _, hw⟩ := hw
    cases hw
  | _ => first | exact hw.elim | cases hw

/-- A batch is claimed from rows that wait. -/
theorem waits_of_claimed {skipped ids : List UUID} {limit : ℕ} {id : UUID}
    (hids : .claimed ids ∈ (system cfg read given).effect
      (.claimNotificationOutboxBatch skipped limit) v₀ v) (hid : id ∈ ids) :
    Waits id v.db.tables := by
  obtain rfl := Write.claimed.inj (List.mem_singleton.mp hids)
  obtain ⟨r, hr, rfl⟩ := List.mem_map.mp hid
  obtain ⟨-, hany⟩ := List.mem_filter.mp hr
  obtain ⟨o, ho, hrow⟩ := List.any_eq_true.mp hany
  rw [Bool.and_eq_true, beq_iff_eq, Option.isNone_iff_eq_none] at hrow
  exact ⟨o, ho, hrow⟩

theorem Holds.ask {q : Query} (hl : Holds b l) (hview : view l.writes b = some v)
    (hasks : Claims l q) : Holds b (l.ask (system cfg read given) q
      ((system cfg read given).answer q v₀ v) ((system cfg read given).effect q v₀ v)) := by
  constructor
  · intro ids hids id hid
    rcases List.mem_append.mp hids with hids | hids
    · exact hl.waits ids hids id hid
    · obtain ⟨skipped, limit, rfl⟩ := emits_claimed (emits_of_effect hids)
      have hnil : l.writes = [] := hasks
      rw [hnil, view_nil, Option.some.injEq] at hview
      rw [hview]
      exact waits_of_claimed hids hid
  · intro id at' hid
    rcases List.mem_append.mp hid with hid | hid
    · obtain ⟨ids, hids, hmem⟩ := hl.processes id at' hid
      exact ⟨ids, List.mem_append_left _ hids, hmem⟩
    · obtain rfl := emits_processed (emits_of_effect hid)
      obtain ⟨ids, hids, hmem⟩ := hasks
      exact ⟨ids, List.mem_append_left _ hids, hmem⟩

/-- What a call is about to process waits. -/
theorem Holds.waiting (hl : Holds b l) {id : UUID} {at' : Instant}
    (h : .processed id at' ∈ l.writes) : Waits id b.db.tables := by
  obtain ⟨ids, hids, hid⟩ := hl.processes id at' h
  exact hl.waits ids hids id hid

/-- A row that has waited or been processed is not created again. -/
theorem not_born (hP : Remembers ops h b) (ho : ops[t]? = some o) (hl : Plain cfg t o h l)
    {id : UUID} {T : Tables} (hT : Past h b T) (hwaits : Waits id T) :
    ∀ w ∈ l.writes, id ∉ Kind.outbox.born w := by
  obtain ⟨row, hrow, rfl, -⟩ := hwaits
  intro w hw hborn
  exact hP.seen.unseen (k := .outbox) ho hl.toDrawing hw hborn hT (List.mem_map_of_mem hrow)

theorem Once.append {a : ℕ × Op} (hI : Once h b) (hP : Remembers ops h b) (ho : ops[t]? = some o)
    (hl : Plain cfg t o h l) (hholds : Holds b l) (hview : view l.writes b = some b') :
    Once (h ++ [{ author := some a, loc := l, base := b, next := b' }]) b' := by
  refine ⟨List.pairwise_append.mpr ⟨hI.once, List.pairwise_singleton _ _, ?_⟩, fun c hc id at' hid => ?_,
    fun c hc id at' hid => ?_⟩
  · intro c hc c' hc' id at' at'' hid hid'
    obtain rfl := List.mem_singleton.mp hc'
    obtain ⟨row, hrow, hrowid, hnone⟩ := hholds.waiting hid'
    have hsettled := hI.settled c hc id at' hid row hrow hrowid
    rw [hnone] at hsettled
    cases hsettled
  · rcases List.mem_append.mp hc with hc | hc
    · exact hI.found c hc id at' hid
    · obtain rfl := List.mem_singleton.mp hc
      exact hholds.waiting hid
  · rcases List.mem_append.mp hc with hc | hc
    · exact settled_of_view hl.new hview
        (not_born hP ho hl (past_of_mem hc).1 (hI.found c hc id at' hid)) (hI.settled c hc id at' hid)
    · obtain rfl := List.mem_singleton.mp hc
      rw [tables_of_view hview]
      exact settled_applyAll hl.new hid (not_born hP ho hl past_now (hholds.waiting hid))

theorem Once.foreign (hI : Once h b) (haside : Aside given b.db.tables b'.db.tables) :
    Once (h ++ [{ author := none, base := b, next := b' }]) b' := by
  have hlast : ∀ {w : Write}, w ∉ ({ author := none, base := b, next := b' } : ContentCommit).writes :=
    fun hw => by cases hw
  refine ⟨List.pairwise_append.mpr ⟨hI.once, List.pairwise_singleton _ _, ?_⟩, fun c hc id at' hid => ?_,
    fun c hc id at' hid => ?_⟩
  · intro c _ c' hc' id at' at'' _ hid'
    obtain rfl := List.mem_singleton.mp hc'
    exact hlast hid'
  · rcases List.mem_append.mp hc with hc | hc
    · exact hI.found c hc id at' hid
    · obtain rfl := List.mem_singleton.mp hc
      exact absurd hid hlast
  · rcases List.mem_append.mp hc with hc | hc
    · intro row hrow
      rw [haside.notificationOutbox] at hrow
      exact hI.settled c hc id at' hid row hrow
    · obtain rfl := List.mem_singleton.mp hc
      exact absurd hid hlast

variable (cfg read given) in
theorem rule_once : Rule ops ((contract cfg).and claiming) (system cfg read given) (Remembers ops)
    (fun t o h _ _ l => Plain cfg t o h l) Once (fun _ _ _ b _ l => Holds b l) where
  start _ _ _ _ _ _ _ _ := holds_of_nil rfl
  began _ _ _ _ _ _ _ _ _ _ hK _ := hK
  answered _ _ _ _ _ _ _ _ _ _ _ _ hK _ hview hasks := hK.ask hview hasks.2
  lost t o h b s l q hK := by
    refine ⟨fun ids hids => hK.waits ids (by simpa using hids), fun id at' hid => ?_⟩
    simpa using hK.processes id at' (by simpa using hid)
  dropped _ _ _ _ _ _ _ := holds_of_nil rfl
  kept _ _ _ _ _ _ _ ho hP hI hQ hK _ hview := hI.append hP ho hQ hK hview
  published _ _ _ _ _ _ _ _ _ _ _ _ _ _ := holds_of_nil rfl
  stable t o h b s l b' t' o' s' l' _ _ _ _ _ _ _ _ hview _ hK' hapart := by
    refine ⟨fun ids hids id hid => ?_, hK'.processes⟩
    rw [tables_of_view hview]
    exact waits_applyAll (fun w hw => hapart w hw _ hids) hid (hK'.waits ids hids id hid)
  foreign _ _ _ _ _ hI hforeign := hI.foreign (aside_of_foreign hforeign)
  foreign_stable ws h b b' t o s l _ _ _ _ hK hforeign _ := by
    refine ⟨fun ids hids id hid => ?_, hK.processes⟩
    obtain ⟨row, hrow, hrest⟩ := hK.waits ids hids id hid
    exact ⟨row, (aside_of_foreign hforeign).notificationOutbox ▸ hrow, hrest⟩

end Rule

/-- Whatever the interleaving, and whichever statements and commits are lost. -/
theorem processed_once {cfg : Config} {read : Reading} {given : List UUID} {n : ℕ}
    {s s' : ContentState n} {as : List (ContentAction n)} (hidle : Idle s)
    (hfresh : Fresh (as.filterMap called) s.base.db.tables)
    (h : exec (step (system cfg read given) (program cfg read)) s as = some s') :
    Once s'.history s'.base := by
  have hlawful := (rule_once cfg read given).and (Lawful.and_contract (lawful_history hfresh))
  have hstart : Once [] s.base := ⟨List.Pairwise.nil, by simp, by simp⟩
  exact (hlawful.exec (contract_met.and claiming_met) hidle ⟨remembers_start hfresh, hstart⟩ h).base.2

/-- A cat with an update that is to be dispatched. -/
def oneUpdate : ContentState 2 where
  base := {
    db := ⟨{
      cats := [{ id := 7, name := none, area := ⟨41, 29⟩, createdAt := 0 }]
      updates := [{ id := 4, catId := 7, createdAt := 0, seq := 0 }]
      notificationOutbox := [{ id := 5, updateId := 4, catId := 7, createdAt := 0 }] }, by decide⟩ }

/-- The second worker skips what the first one holds; the first one tries again. -/
def workers : List (ContentAction 2) :=
  [.call 0 (.dispatchPending (Backend.plainEnv 1) []), .run 0, .run 0,
    .call 1 (.dispatchPending (Backend.plainEnv 2) [5])] ++ List.replicate 4 (.run 1) ++
    List.replicate 4 (.run 0) ++
    .call 0 (.dispatchPending (Backend.plainEnv 3) []) :: List.replicate 4 (.run 0)

def processedCount : Except Error Answer → Option ℕ
  | .ok (.dispatched processed) => some processed
  | _ => none

theorem processed_once_workers : ∃ s', exec (step
    (system Backend.plainConfig DiscoverPages.plainReading [])
    (program Backend.plainConfig DiscoverPages.plainReading)) oneUpdate workers = some s' ∧
    s'.log.map (fun d => processedCount d.result) = [some 0, some 1, some 0] ∧
    Once s'.history s'.base := by
  obtain ⟨s', hs', htest⟩ := exists_of_exec_test (step
    (system Backend.plainConfig DiscoverPages.plainReading [])
    (program Backend.plainConfig DiscoverPages.plainReading)) oneUpdate workers
    (fun s => s.log.map (fun d => processedCount d.result) == [some 0, some 1, some 0])
    (by decide +kernel)
  have hidle : Idle oneUpdate := ⟨fun _ => rfl, rfl, rfl, rfl⟩
  exact ⟨s', hs', beq_iff_eq.mp htest, processed_once hidle (fun k => by cases k <;> decide) hs'⟩

end Tekir.ProcessedOnce
