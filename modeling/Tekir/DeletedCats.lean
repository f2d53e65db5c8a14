import Tekir.ContentGates
import Tekir.ContentHistory
import Tekir.DiscoverPages
import Tekir.LaterCalls

/-!
# A deleted cat stays out

Once the deletion of a cat has been committed, its row never comes back to life. A call
that starts later finds no trace of it on the map, in the lists, in its own page, history
or gallery, and writes nothing to it: no update, follow, cover, name or report. Calls that
were under way may still do so, and so may two statements that do not look at the status:
the list of followed cats and the recipients of a help mark.
-/
namespace Tekir.DeletedCats
open Machine Table Schema Statements CatQueries ReadQueries UpdateQueries Environment ContentWrites
  ContentQueries ContentCalls ContentUses ContentRuns ContentGates ContentHistory Programs
  Interleaving Bookkeeping Contracts Dialects
open ReadServices (Reading DiscoverFilter discoverRows)

/-- No row of the cat is alive. -/
def Gone (cat : UUID) (w : World) : Prop :=
  ∀ c ∈ w.db.tables.cats, c.id = cat → c.status = .deleted

/-- The run has seen the cat's row deleted. -/
def Dead (cat : UUID) (h : List ContentCommit) (b : World) : Prop :=
  ∃ T, Past h b T ∧ ∃ c ∈ T.cats, c.id = cat ∧ c.status = .deleted

/-- The write concerns the cat. -/
def Onto (cat : UUID) : Write → Prop
  | .cat row => row.id = cat
  | .update arg | .reassigned arg => arg.catId = cat
  | .follow row => row.catId = cat
  | .catMedium row => row.catId = cat
  | .unfollowed _ catId | .cover catId _ | .named catId _ | .touched catId _ => catId = cat
  | .report row => row.targetType = .cat ∧ row.targetId = cat
  | _ => False

section Snapshot

variable {cfg : Config} {read : Reading} {given : List UUID} {cat : UUID} {s v : World}

theorem not_visible {viewer : Option UUID} {c : Cat} (hgone : Gone cat s)
    (hc : c ∈ s.db.tables.cats) (hid : c.id = cat) : visible viewer s.db c = false := by
  simp [visible, hgone c hc hid]

theorem not_listed {viewer : Option UUID} {c : Cat} (hgone : Gone cat s)
    (hc : c ∈ s.db.tables.cats) (hid : c.id = cat) : listed viewer s.db c = false := by
  simp [listed, hgone c hc hid]

theorem mem_orderBy_filter {α : Type} {r : α → α → Bool} {p : α → Bool} {as : List α} {a : α}
    (h : a ∈ orderBy r (as.filter p)) : a ∈ as ∧ p a = true := by
  rw [mem_orderBy] at h
  exact List.mem_filter.mp h

theorem candidates_ne {geo : Geometry} {point : Point} {viewer : Option UUID} {r : DistanceRow}
    (hgone : Gone cat s) (h : r ∈ candidates geo point viewer s.db) : r.id ≠ cat := by
  obtain ⟨c, hc, rfl⟩ := List.mem_map.mp h
  obtain ⟨hc, hlisted⟩ := List.mem_filter.mp hc
  intro hid
  rw [not_listed hgone hc hid] at hlisted
  cases hlisted

theorem discoverRows_ne {filter : DiscoverFilter} {point : Point} {now : Instant}
    {after : Option (ℚ≥0 × UUID)} {rowLimit : ℕ} {viewer : Option UUID} {r : DistanceRow}
    (hgone : Gone cat s)
    (h : r ∈ discoverRows read filter point now after rowLimit viewer s.db) :
    r.id ≠ cat := by
  cases filter with
  | nearby => exact candidates_ne hgone (mem_orderBy_filter (List.mem_of_mem_take h)).1
  | needsHelp => exact candidates_ne hgone (mem_orderBy_filter (List.mem_of_mem_take h)).1

theorem shows_error (q : Query) (e : Error) : shows ⟨q, .error e⟩ = [] := by
  cases q <;> rfl

/-- A statement whose snapshot has no living row of the cat does not show it. -/
theorem not_shows {q : Query} (hgone : Gone cat s)
    (hnew : ∀ arg now, q = .createCat arg now → arg.id ≠ cat) :
    cat ∉ shows ⟨q, (system cfg read given).answer q s v⟩ := by
  intro hmem
  cases hr : (system cfg read given).answer q s v with
  | error e => simp [hr, shows_error] at hmem
  | ok a =>
    rw [hr] at hmem
    have hrun : q.run cfg.dwithin read s v = .ok (a, _) := Dialect.answer_eq_ok.mp hr
    cases q with
    | catExists id viewer =>
      obtain ⟨ha, -⟩ := reads_eq_ok.mp hrun
      cases a with
      | false => cases hmem
      | true =>
        obtain rfl := List.mem_singleton.mp hmem
        obtain ⟨c, hc, hcat⟩ := List.any_eq_true.mp (Except.ok.inj ha)
        rw [Bool.and_eq_true, beq_iff_eq] at hcat
        simp [not_visible hgone hc hcat.1] at hcat
    | getCatByID id viewer =>
      obtain ⟨ha, -⟩ := reads_eq_ok.mp hrun
      simp only [getCatByID, bind_eq_ok] at ha
      obtain ⟨c, hc, ha⟩ := ha
      obtain ⟨hc, hcat⟩ := List.mem_filter.mp (one_eq_ok hc)
      rw [Bool.and_eq_true, beq_iff_eq] at hcat
      have hid : c.id = cat := by
        cases ha
        simp only [shows, List.mem_cons, List.not_mem_nil, or_false] at hmem
        rcases hmem with rfl | rfl
        · exact hcat.1
        · rfl
      simp [not_visible hgone hc hid] at hcat
    | createCat arg now =>
      obtain ⟨rfl, -⟩ := createCat_eq_ok hrun
      exact hnew arg now rfl (List.mem_singleton.mp hmem).symm
    | listCatsInBounds bounds viewer =>
      obtain ⟨ha, -⟩ := reads_eq_ok.mp hrun
      cases ha
      obtain ⟨r, hr, hid⟩ := List.mem_map.mp hmem
      obtain ⟨c, hc, rfl⟩ := List.mem_map.mp hr
      obtain ⟨hc, hp⟩ := mem_orderBy_filter hc
      simp [not_listed hgone hc hid] at hp
    | listNearbyCatsForDuplicateCheck point viewer =>
      obtain ⟨ha, -⟩ := reads_eq_ok.mp hrun
      cases ha
      obtain ⟨r, hr, hid⟩ := List.mem_map.mp hmem
      obtain ⟨c, hc, rfl⟩ := List.mem_map.mp hr
      obtain ⟨hc, hp⟩ := mem_orderBy_filter hc
      simp [hgone c hc hid] at hp
    | discover filter point now after rowLimit viewer =>
      obtain ⟨ha, -⟩ := reads_eq_ok.mp hrun
      cases ha
      obtain ⟨r, hr, hid⟩ := List.mem_map.mp hmem
      exact discoverRows_ne hgone hr hid
    | _ => cases hmem

end Snapshot

section Rule

variable {cfg : Config} {read : Reading} {given : List UUID} {ops : List Op} {cat : UUID}
  {h : List ContentCommit} {b v : World} {t : ℕ} {o : Op} {l : ContentLocal}

theorem Dead.later {c : ContentCommit} (hdead : Dead cat h c.base) : Dead cat (h ++ [c]) c.next := by
  obtain ⟨T, hT, hcat⟩ := hdead
  exact ⟨T, hT.later, hcat⟩

theorem Dead.gone (hdead : Dead cat h b) (hcats : cats.Kept h b) : Gone cat b := by
  intro c hc hid
  obtain ⟨T, hT, c₀, hc₀, hid₀, hdeleted⟩ := hdead
  exact (hcats T hT c₀ hc₀ c hc (hid₀.trans hid.symm)).2.2 hdeleted

/-- A write that creates the cat's row has drawn its identifier. -/
theorem ne_of_emits {w : Write} (hdrawn : Kind.cats.drawn o ≠ some cat) (hw : Emits cfg o w)
    {row : Cat} (hrow : w = .cat row) : row.id ≠ cat := by
  rintro rfl
  exact hdrawn (drawn_of_born (k := .cats) hw (by rw [hrow]; exact List.mem_singleton.mpr rfl))

/-- What a transaction sees has no living row of the cat, unless it created one. -/
theorem gone_of_view (hgone : Gone cat b) (hl : Plain cfg t o h l)
    (hdrawn : Kind.cats.drawn o ≠ some cat) (hview : view l.writes b = some v) : Gone cat v := by
  intro c hc hid
  rw [tables_of_view hview] at hc
  have hrow : c ∈ cats.rows (applyAll l.writes b.db.tables) := hc
  rcases Keeper.applyAll hl.new hrow with ⟨w, hw, hborn⟩ | ⟨c₀, hc₀, hid₀, hkeeps⟩
  · have hborn' : c.id ∈ Kind.cats.born w := hborn
    exact absurd (hid ▸ drawn_of_born (hl.emits w hw) hborn') hdrawn
  · exact hkeeps.2.2 (hgone c₀ hc₀ (Eq.trans hid₀ hid))

/-- The statement names the cat that it writes to. -/
theorem target_of_emits {q : Query} {w : Write} (hw : q.Emits w) (honto : Onto cat w)
    (hnew : ∀ row, w = .cat row → row.id ≠ cat) : target q = some cat := by
  cases q with
  | createCat arg now =>
    cases hw
    exact absurd honto (hnew _ rfl)
  | createUpdate arg =>
    rcases hw with rfl | rfl
    · exact congrArg some honto
    · exact congrArg some honto
  | createReport row =>
    cases hw
    simp [target, honto.1, honto.2]
  | createFollow | deleteFollow | setCatCoverPhoto | updateCatName | updateCatLastUpdateAt
  | createCatMedia =>
    cases hw
    exact congrArg some honto
  | createNotificationOutbox | claimNotificationOutboxBatch | markNotificationRead =>
    obtain ⟨_, rfl⟩ := hw
    exact honto.elim
  | replaceUpdateStatuses =>
    obtain ⟨_, rfl, -⟩ := hw
    exact honto.elim
  | deleteAccount =>
    obtain ⟨_, _, rfl⟩ := hw
    exact honto.elim
  | softDeleteCat | createMedia | createUpdateStatus | correctOrdinaryUpdate | deleteOwnUpdate
  | createBlock | deleteBlock | createNotification | clearDevicePushToken
  | markNotificationOutboxProcessed | putObject | deleteObject =>
    cases hw
    exact honto.elim
  | _ => exact hw.elim

/-- The cat is dead, and no call that started at `floor` or later has written to it. -/
structure Buried (cat : UUID) (floor : ℕ) (h : List ContentCommit) (b : World) : Prop where
  dead : Dead cat h b
  untouched : ∀ c ∈ h, ∀ a ∈ c.author, floor ≤ a.1 → ∀ w ∈ c.writes, ¬ Onto cat w

/-- The call has found no trace of the cat and writes nothing to it. -/
structure Blind (cat : UUID) (s : Option World) (l : ContentLocal) : Prop where
  snapshot : ∀ v ∈ s, Gone cat v
  trace : ∀ x ∈ l.trace, cat ∉ shows x
  writes : ∀ w ∈ l.writes, ¬ Onto cat w

theorem blind_start : Blind cat none ({} : ContentLocal) := by
  refine ⟨fun v hv => ?_, fun x hx => ?_, fun w hw => ?_⟩
  · cases hv
  · cases hx
  · cases hw

/-- What a transaction leaves behind when it ends. -/
theorem Blind.closed {s : Option World} {l' : ContentLocal} (hblind : Blind cat s l)
    (htrace : l'.trace = l.trace) (hwrites : l'.writes = []) : Blind cat none l' := by
  refine ⟨fun v hv => ?_, htrace ▸ hblind.trace, fun w hw => ?_⟩
  · cases hv
  · rw [hwrites] at hw
    cases hw

theorem Blind.lost {s : Option World} (hblind : Blind cat s l) (q : Query) :
    Blind cat none (l.ask (system cfg read given) q (.error (system cfg read given).lost) []) := by
  refine ⟨fun v hv => ?_, fun x hx => ?_, fun w hw => ?_⟩
  · cases hv
  · rcases List.mem_append.mp hx with hx | hx
    · exact hblind.trace x hx
    · obtain rfl := List.mem_singleton.mp hx
      simp [shows_error]
  · rw [Local.ask_writes, List.append_nil] at hw
    exact hblind.writes w hw

/-- A call that has found no trace of the cat is told nothing that lets it write to it. -/
theorem Blind.ask {s : Option World} {v₀ : World} {q : Query} (hblind : Blind cat s l)
    (hs : Gone cat v₀) (hdrawn : Kind.cats.drawn o ≠ some cat)
    (hasks : ((contract cfg).and gates).asks o l q) :
    Blind cat none (l.ask (system cfg read given) q ((system cfg read given).answer q v₀ v)
      ((system cfg read given).effect q v₀ v)) := by
  have hborn : ∀ w ∈ (system cfg read given).effect q v₀ v, ∀ row, w = .cat row → row.id ≠ cat :=
    fun w hw row => ne_of_emits hdrawn (emits_of_asks hasks.1.1 hw)
  refine ⟨fun v hv => ?_, fun x hx => ?_, fun w hw honto => ?_⟩
  · cases hv
  · rcases List.mem_append.mp hx with hx | hx
    · exact hblind.trace x hx
    · obtain rfl := List.mem_singleton.mp hx
      refine not_shows hs fun arg now hq => ?_
      subst hq
      have hemits : Emits cfg o (.cat (CreateCatParams.row arg now)) :=
        ⟨_, hasks.1.1.resolve_left nofun, rfl⟩
      exact ne_of_emits hdrawn hemits rfl
  · rcases List.mem_append.mp hw with hw | hw
    · exact hblind.writes w hw honto
    · have htarget := target_of_emits (emits_of_effect hw) honto (hborn w hw)
      obtain ⟨x, hx, hshows⟩ := hasks.2.1 cat htarget
      exact hblind.trace x hx hshows

variable (cfg read given) in
theorem rule_buried {floor : ℕ}
    (hdrawn : ∀ t o, ops[t]? = some o → floor ≤ t → Kind.cats.drawn o ≠ some cat) :
    Rule ops ((contract cfg).and gates) (system cfg read given) (Remembers ops)
      (fun t o h _ _ l => Plain cfg t o h l) (Buried cat floor)
      (fun t _ _ _ s l => floor ≤ t → Blind cat s l) where
  start _ _ _ _ _ _ _ _ _ := blind_start
  began t o h b l v ho hP hI hl hK hview hfloor := by
    refine ⟨fun v' hv' => ?_, (hK hfloor).trace, (hK hfloor).writes⟩
    cases hv'
    exact gone_of_view (hI.dead.gone hP.cats) hl (hdrawn t o ho hfloor) hview
  answered t o h b l q v₀ v ho _ _ _ hK _ _ hasks hfloor :=
    (hK hfloor).ask ((hK hfloor).snapshot v₀ rfl) (hdrawn t o ho hfloor) hasks
  lost t o h b s l q hK hfloor := (hK hfloor).lost q
  dropped t o h b s l hK hfloor := (hK hfloor).closed rfl rfl
  kept t o h b s l b' ho _ hI _ hK _ _ := by
    refine ⟨hI.dead.later, fun c hc a ha hfloor => ?_⟩
    rcases List.mem_append.mp hc with hc | hc
    · exact hI.untouched c hc a ha hfloor
    · obtain rfl := List.mem_singleton.mp hc
      cases ha
      exact (hK hfloor).writes
  published t o h b s l b' _ _ _ _ hK _ _ hfloor := (hK hfloor).closed rfl rfl
  stable _ _ _ _ _ _ _ _ _ _ _ _ _ _ _ _ _ _ _ _ _ hK' _ := hK'
  foreign ws h b b' _ hI _ := by
    refine ⟨hI.dead.later, fun c hc a ha hfloor => ?_⟩
    rcases List.mem_append.mp hc with hc | hc
    · exact hI.untouched c hc a ha hfloor
    · obtain rfl := List.mem_singleton.mp hc
      cases ha
  foreign_stable _ _ _ _ _ _ _ _ _ _ _ _ hK _ _ := hK

end Rule

section Run

variable {cfg : Config} {read : Reading} {given : List UUID} {cat : UUID} {n : ℕ}
  {s s₁ s' : ContentState n} {as₁ as₂ : List (ContentAction n)}

/-- The cat's row is there, marked as deleted. -/
def Retired (cat : UUID) (w : World) : Prop :=
  ∃ c ∈ w.db.tables.cats, c.id = cat ∧ c.status = .deleted

/-- The cat is out of everything that calls from `floor` on answer and write. -/
structure StaysOut (cat : UUID) (floor : ℕ) (s : ContentState n) : Prop where
  rows : Gone cat s.base
  results : ∀ d ∈ s.log, floor ≤ d.ticket → cat ∉ shown d.op d.result
  writes : ∀ c ∈ s.history, ∀ a ∈ c.author, floor ≤ a.1 → ∀ w ∈ c.writes, ¬ Onto cat w

/-- An identifier that is taken is not drawn by a call that starts later. -/
theorem not_drawn_later {ops : List Op} (hbooks : Books s₁) (hseen : Seen ops s₁.history s₁.base)
    {c : Cat} (hc : c ∈ s₁.base.db.tables.cats) :
    ∀ t o, ops[t]? = some o → s₁.tickets ≤ t → Kind.cats.drawn o ≠ some c.id := by
  intro t o ho ht hdrawn
  have hids : c.id ∈ Kind.cats.ids s₁.base.db.tables := List.mem_map_of_mem hc
  obtain ⟨ws, hws, -⟩ := hseen .cats t o c.id ho hdrawn ⟨_, past_now, hids⟩
  obtain ⟨e, he, ⟨a, ha, hticket⟩, -⟩ := mem_batches.mp hws
  obtain ⟨e', he', hticket', -⟩ := hbooks.author e he a ha
  have hlt := hbooks.fresh e' he'
  omega

/-- Whatever the interleaving, and whichever statements and commits are lost. -/
theorem deleted_cat_stays_out
    (h : Onward (system cfg read given) (program cfg read) s as₁ s₁ as₂ s')
    (hfresh : Fresh (Onward.all as₁ as₂) s.base.db.tables) (hdeleted : Retired cat s₁.base) :
    StaysOut cat s₁.tickets s' := by
  have hC : ((contract cfg).and gates).Met (system cfg read given) (program cfg read) :=
    contract_met.and gates_met
  have L : Lawful (Onward.all as₁ as₂) ((contract cfg).and gates) (system cfg read given)
      (Remembers (Onward.all as₁ as₂)) (fun t o h _ _ l => Plain cfg t o h l) :=
    Lawful.and_contract (lawful_history hfresh)
  have hgoverned := h.governed hC L (remembers_start hfresh)
  obtain ⟨c, hc, rfl, hstatus⟩ := hdeleted
  have hremembers := hgoverned.base (h.among hgoverned.books)
  have hruled := h.later hC L (remembers_start hfresh)
    (rule_buried cfg read given (not_drawn_later hgoverned.books hremembers.seen hc))
    fun _ => ⟨⟨_, past_now, c, hc, rfl, hstatus⟩, fun e he a ha hfloor => ?_⟩
  · refine ⟨hruled.base.2.dead.gone hruled.base.1.cats, fun d hd hfloor hshown => ?_,
      hruled.base.2.untouched⟩
    obtain ⟨x, hx, hshows⟩ := (hruled.log d hd).2 c.id hshown
    exact ((hruled.done d hd).2 hfloor).trace x hx hshows
  · obtain ⟨e', he', hticket, -⟩ := hgoverned.books.author e he a ha
    have hlt := hgoverned.books.fresh e' he'
    omega

/-- Two accounts, and a cat of the first one. -/
def catOfOne : ContentState 2 where
  base := {
    db := ⟨{
      users := [{ id := 1, phone := "+905551112233", phoneVerifiedAt := 0 },
        { id := 2, phone := "+905551112244", phoneVerifiedAt := 0 }]
      cats := [{ id := 7, name := none, area := ⟨41, 29⟩, createdAt := 0, createdByUserId := some 1 }]
      }, by decide⟩ }

def deletion : List (ContentAction 2) :=
  .call 0 (.deleteCat 7 1) :: List.replicate 4 (.run 0)

/-- Its page and a new follow, abreast. -/
def visits : List (ContentAction 2) :=
  [.call 0 (.getCatDetail 5 7 none), .call 1 (.follow (some 7) 2 none)] ++
    List.replicate 4 (.run 1) ++ List.replicate 4 (.run 0)

theorem deleted_cat_stays_out_abreast : ∃ s₁ s', s₁.tickets = 1 ∧ Retired 7 s₁.base ∧
    Onward (system Backend.plainConfig DiscoverPages.plainReading [])
      (program Backend.plainConfig DiscoverPages.plainReading) catOfOne deletion s₁ visits s' ∧
    s'.log.map (fun d => d.result.isOk) = [true, false, false] ∧ StaysOut 7 s₁.tickets s' := by
  obtain ⟨s₁, h₁, htest₁⟩ := exists_of_exec_test
    (step (system Backend.plainConfig DiscoverPages.plainReading [])
      (program Backend.plainConfig DiscoverPages.plainReading)) catOfOne deletion
    (fun s => s.tickets == 1 && (exec (step (system Backend.plainConfig DiscoverPages.plainReading [])
      (program Backend.plainConfig DiscoverPages.plainReading)) s visits).any (fun s' =>
        s'.log.map (fun d => d.result.isOk) == [true, false, false]) &&
      s.base.db.tables.cats.any fun c => c.id == 7 && c.status == .deleted) (by decide +kernel)
  simp only [Bool.and_eq_true, beq_iff_eq, Option.any_eq_true, List.any_eq_true] at htest₁
  obtain ⟨⟨htickets, s', h₂, hresults⟩, hdeleted⟩ := htest₁
  have honward : Onward (system Backend.plainConfig DiscoverPages.plainReading [])
      (program Backend.plainConfig DiscoverPages.plainReading) catOfOne deletion s₁ visits s' :=
    ⟨⟨fun _ => rfl, rfl, rfl, rfl⟩, h₁, h₂⟩
  exact ⟨s₁, s', htickets, hdeleted, honward, hresults,
    deleted_cat_stays_out honward (fun k => by cases k <;> decide) hdeleted⟩

end Run

end Tekir.DeletedCats
