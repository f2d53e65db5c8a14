import Tekir.Backend
import Tekir.CreationHistory
import Tekir.DiscoverPages

/-!
# New cats under one key

However any number of creations with one idempotency key interleave, there is one cat, it was
committed together with its medium and the entry of its gallery, all answer with it, and a
call that has not created it leaves nothing behind.
-/
namespace Tekir.KeyedCats
open Machine Table Schema Statements CatQueries Environment CatServices ReadServices ContentWrites
  ContentQueries ContentCalls Creations CreationHistory Programs Interleaving Bookkeeping Contracts
open DiscoverPages (plainReading)

/-- The cat of this account and this key. -/
def Keyed (userId : UUID) (key : String) (c : Cat) : Prop :=
  c.createdByUserId = some userId ∧ c.idempotencyKey = some key

/-- A call of `Create` by this account with this key. -/
def Creates (userId : UUID) (key : String) (o : Creation) : Prop :=
  ∃ env req, o = .cat env req ∧ req.userId = userId ∧ req.idempotencyKey = some key

/-- The cat shows a medium that its owner has uploaded, and its gallery has one entry, for it. -/
def Whole (userId : UUID) (t : Tables) (c : Cat) : Prop :=
  ∃ m ∈ t.media, c.primaryPhotoId = some m.id ∧ m.uploadedByUserId = userId ∧
    ∃ x ∈ t.catMedia, x.catId = c.id ∧ x.mediaId = m.id ∧ ∀ y ∈ t.catMedia, y.catId = c.id → y = x

variable {n : ℕ} {cfg : Config} {read : Reading} {s s' : CreationState n}
  {as : List (CreationAction n)} {userId : UUID} {key : String}

/-- What a call commits changes no row, and no object but its own, which is not there any more. -/
def LeavesNothing (s : CreationState n) (d : CreationDone) : Prop :=
  d.op.objectKey ∉ s.base.objects ∧ ∀ e ∈ s.history, By d.ticket e →
    e.next.db.tables = e.base.db.tables ∧
      ∀ name, name ≠ d.op.objectKey → (name ∈ e.next.objects ↔ name ∈ e.base.objects)

/-- The call has committed a cat, and answers with it. -/
def HasCreated (userId : UUID) (key : String) (s : CreationState n) (d : CreationDone) : Prop :=
  ∃ e ∈ s.history, By d.ticket e ∧ ∃ row detail, .cat row ∈ e.writes ∧ Keyed userId key row ∧
    d.result = .ok (.cat detail) ∧ detail.id = row.id

theorem eq_of_keyed {db : Database} {c c' : Cat} (hc : c ∈ db.tables.cats)
    (hc' : c' ∈ db.tables.cats) (hkeyed : Keyed userId key c) (hkeyed' : Keyed userId key c') :
    c = c' := by
  refine (db.valid.holds .catsUserIdempotencyUq).eq_of_key_eq hc hc' ?_ ?_
  · simp [both, hkeyed.1, hkeyed.2, hkeyed'.1, hkeyed'.2]
  · simp [both, hkeyed.1, hkeyed.2]

theorem Keyed.same {c c' : Cat} (h : Keyed userId key c) (hsame : SameCat c c') :
    Keyed userId key c' :=
  ⟨hsame.createdByUserId.trans h.1, hsame.idempotencyKey.trans h.2⟩

/-- A cat is committed whole. -/
theorem whole_of_commits {o : Creation} {l : CreationLocal} (hl : contract.commits o l) {c : Cat}
    (hc : .cat c ∈ l.writes) (hkeyed : Keyed userId key c) {w w' : World}
    (hview : view l.writes w = some w') :
    Creates userId key o ∧ c ∈ w'.db.tables.cats ∧ Whole userId w'.db.tables c ∧
      ∀ c₀ ∈ w.db.tables.cats, c₀.id ≠ c.id := by
  rcases hl with hl | hl | ⟨contentType, url, hl⟩
  · simp [hl] at hc
  · simp [hl] at hc
  cases o with
  | upload env user deviceId k muted => simp [hl, Creation.rows] at hc
  | cat env req =>
    simp only [hl, Creation.rows, List.mem_cons, reduceCtorEq, Write.cat.injEq, List.not_mem_nil,
      or_false, false_or] at hc
    subst hc
    have htables := tables_of_view hview
    simp only [hl, Creation.rows, applyAll_cons, applyAll_nil, Write.apply] at htables
    obtain ⟨howner, hkey⟩ := hkeyed
    have hcats := w'.db.valid.holds .catsPkey
    simp only [Constraint.Holds, htables, uniqueOn_append_singleton] at hcats
    have hnew : ∀ c ∈ w.db.tables.cats, c.id ≠ env.uuid 1 := by
      intro c hc hid
      rcases hcats.2 c hc with hnone | hne
      · cases hnone
      · exact absurd (congrArg some hid) hne
    refine ⟨⟨env, req, rfl, Option.some.inj howner, hkey⟩, by simp [htables], ?_, hnew⟩
    refine ⟨coverMedium env req contentType url, by simp [htables], rfl, Option.some.inj howner,
      { id := env.uuid 2, catId := env.uuid 1, mediaId := env.uuid 0, createdAt := env.now },
      by simp [htables], rfl, rfl, fun y hy hcat => ?_⟩
    rw [htables] at hy
    rcases List.mem_append.mp hy with hy | hy
    -- an earlier entry of the gallery refers to an earlier cat
    · obtain ⟨c, hc, hid⟩ := w.db.valid.holds .catMediaCatIdFkey y hy _ rfl
      exact absurd (hid.trans hcat) (hnew c hc)
    · exact List.mem_singleton.mp hy

/-- A finished call that succeeds answers with the cat of its key. -/
theorem exists_cat_of_ok (h : Run cfg read s as s') {d : CreationDone} (hd : d ∈ s'.log)
    (hop : Creates userId key d.op) {a : Created} (ha : d.result = .ok a) :
    ∃ c ∈ s'.base.db.tables.cats, Keyed userId key c ∧ ∃ detail, a = .cat detail ∧ detail.id = c.id := by
  obtain ⟨env, req, hop, huser, hkey⟩ := hop
  have hreturns : Ended d.op d.loc d.result := h.ruled.log d hd
  rw [hop, ha] at hreturns
  rcases hreturns with ⟨contentType, url, hmine, hanswer⟩ | ⟨-, hfound⟩
  · have hrows : (Creation.cat env req).rows contentType url ∈ d.loc.mine := by simp [hmine]
    obtain ⟨e, he, -, hwrites⟩ := h.exists_commit hd hrows
    obtain ⟨c, hc, hsame⟩ := h.cat_of_committed he
      (show .cat (CreateCatParams.row { newCat env req with primaryPhotoId := some (env.uuid 0) }
        env.now) ∈ e.writes by simp [hwrites, Creation.rows])
    have hrow : Keyed userId key (CreateCatParams.row
        { newCat env req with primaryPhotoId := some (env.uuid 0) } env.now) :=
      ⟨congrArg some huser, hkey⟩
    exact ⟨c, hc, hrow.same hsame, _, Except.ok.inj hanswer, hsame.id.symm⟩
  · have hfound' := hfound a rfl
    cases a with
    | media m => exact hfound'.elim
    | cat detail =>
      obtain ⟨k, row, found, mediaCount, hk, hrow, hdetail, rfl⟩ := hfound'
      have hrecalls := (h.ruled.done d hd).1.recalls
      obtain ⟨v, hv, hmem, howner, hkeyed⟩ := hrecalls _ hrow
      have hid : found.id = row.id := hrecalls _ hdetail
      obtain ⟨c, hc, hsame⟩ := h.ruled.base.stays.cats v hv row hmem
      have hrow' : Keyed userId key row :=
        ⟨howner.trans (congrArg some huser), hkeyed.trans (hk.symm.trans hkey)⟩
      exact ⟨c, hc, hrow'.same hsame, _, rfl, hid.trans hsame.id.symm⟩

/-- A finished call has created the cat, or it leaves nothing. -/
theorem hasCreated_or_leavesNothing (h : Run cfg read s as s') (hdeletes : DeletesSucceed s')
    {d : CreationDone} (hd : d ∈ s'.log) (hop : Creates userId key d.op) :
    HasCreated userId key s' d ∨ LeavesNothing s' d := by
  have hreturns : Ended d.op d.loc d.result := h.ruled.log d hd
  have hobject := h.mem_objects hdeletes hd
  by_cases hcomplete : Complete d.op d.loc
  · left
    obtain ⟨env, req, hop, huser, hkey⟩ := hop
    rw [hop] at hreturns hcomplete
    rcases hreturns with ⟨contentType, url, hmine, hanswer⟩ | ⟨hrest, -⟩
    · have hrows : (Creation.cat env req).rows contentType url ∈ d.loc.mine := by simp [hmine]
      obtain ⟨e, he, ha, hwrites⟩ := h.exists_commit hd hrows
      refine ⟨e, he, ⟨_, ha, rfl⟩, CreateCatParams.row
        { newCat env req with primaryPhotoId := some (env.uuid 0) } env.now, _, ?_,
        ⟨congrArg some huser, hkey⟩, hanswer, rfl⟩
      simp [hwrites, Creation.rows]
    · obtain ⟨contentType, url, hmine⟩ := hcomplete
      rcases hrest with hrest | hrest | ⟨hrest, -⟩
      all_goals
        rw [hmine] at hrest
        simp [Creation.rows] at hrest
  · right
    refine ⟨fun hmem => hcomplete (hobject.mp hmem), fun e he hby => ?_⟩
    have hwrites : e.writes = [.put d.op.objectKey] ∨ e.writes = [.erased d.op.objectKey] := by
      have hmem := (h.mem_mine hd).mpr ⟨e, he, hby, rfl⟩
      rcases hreturns with ⟨contentType, url, hmine, -⟩ | ⟨hmine | hmine | ⟨hmine, -⟩, -⟩
      · exact absurd ⟨contentType, url, hmine⟩ hcomplete
      all_goals
        rw [hmine] at hmem
        simp at hmem
      · exact hmem
      · exact .inl hmem
    have hview := hby.view (h.recorded.happened e he)
    have hcommits : contract.commits d.op e.loc := hwrites.imp_right .inl
    refine ⟨?_, fun name hname => ?_⟩
    · rw [tables_of_view hview]
      rcases hwrites with hwrites | hwrites <;> rw [hwrites] <;> rfl
    · rw [objects_of_view hview]
      exact objects_of_commits hcommits hname _

/-- Whatever the interleaving, and whichever statements, commits, moderations and puts fail. -/
theorem create_idempotent (h : Run cfg read s as s') (userId : UUID) (key : String) :
    (∀ c ∈ s'.base.db.tables.cats, ∀ c' ∈ s'.base.db.tables.cats, Keyed userId key c →
      Keyed userId key c' → c = c') ∧
    (∀ c ∈ s'.base.db.tables.cats, Keyed userId key c →
      (∃ c₀ ∈ s.base.db.tables.cats, SameCat c₀ c) ∨ ∃ e ∈ s'.history, ∃ a ∈ e.author,
        Creates userId key a.2 ∧ ∃ row ∈ e.next.db.tables.cats, SameCat row c ∧
          Whole userId e.next.db.tables row ∧ ∀ c₀ ∈ e.base.db.tables.cats, c₀.id ≠ row.id) ∧
    (∀ d ∈ s'.log, Creates userId key d.op → ∀ a, d.result = .ok a →
      ∃ c ∈ s'.base.db.tables.cats, Keyed userId key c ∧ ∃ detail, a = .cat detail ∧ detail.id = c.id) ∧
    (DeletesSucceed s' → ∀ d ∈ s'.log, Creates userId key d.op →
      HasCreated userId key s' d ∨ LeavesNothing s' d) := by
  refine ⟨fun c hc c' hc' => eq_of_keyed hc hc', fun c hc hkeyed => ?_,
    fun d hd hop a => exists_cat_of_ok h hd hop,
    fun hdeletes d hd => hasCreated_or_leavesNothing h hdeletes hd⟩
  refine (h.committed_cat hc (by simp [hkeyed.2])).imp_right ?_
  rintro ⟨e, he, row, hrow, hsame⟩
  obtain ⟨t, o, ha, hcommits, hview⟩ := h.author he hrow
  have hkeyed' : Keyed userId key row :=
    ⟨hsame.createdByUserId.symm.trans hkeyed.1, hsame.idempotencyKey.symm.trans hkeyed.2⟩
  obtain ⟨hcreates, hmem, hwhole, hnew⟩ := whole_of_commits hcommits hrow hkeyed' hview
  exact ⟨e, he, (t, o), ha, hcreates, row, hmem, hsame, hwhole, hnew⟩

def createCall (k : ℕ) : Creation :=
  .cat (Backend.plainEnv k) { userId := 1, area := ⟨41, 29⟩, idempotencyKey := some "key" }

/-- Both calls store their objects before the first one commits its rows. -/
def racing : List (CreationAction 2) :=
  [.call 0 (createCall 1), .call 1 (createCall 2)] ++ List.replicate 6 (.run 0) ++
    List.replicate 6 (.run 1) ++ List.replicate 8 (.run 0) ++ List.replicate 18 (.run 1)

theorem create_idempotent_racing : ∃ s', Run Backend.plainConfig plainReading (oneAccount 2) racing s' ∧
    (s'.base.db.tables.cats.map fun c => (c.id, c.primaryPhotoId)) = [(11, some 10)] ∧
    s'.base.objects = ["1"] ∧ (s'.log.map fun d => d.result.isOk) = [true, true] ∧
    ∀ d ∈ s'.log, Creates 1 "key" d.op → HasCreated 1 "key" s' d ∨ LeavesNothing s' d := by
  obtain ⟨s', hs', htest⟩ := exists_of_exec_test
    (step (system Backend.plainConfig plainReading (keysOf (racing.filterMap called))) program)
    (oneAccount 2) racing (fun s => decide (DeletesSucceed s) &&
      (s.base.db.tables.cats.map fun c => (c.id, c.primaryPhotoId)) == [(11, some 10)] &&
      s.base.objects == ["1"] && (s.log.map fun d => d.result.isOk) == [true, true]) (by decide +kernel)
  simp only [Bool.and_eq_true, decide_eq_true_eq, beq_iff_eq] at htest
  obtain ⟨⟨⟨hdeletes, hcats⟩, hobjects⟩, hresults⟩ := htest
  have hrun : Run Backend.plainConfig plainReading (oneAccount 2) racing s' :=
    ⟨oneAccount_idle 2, by decide, hs'⟩
  exact ⟨s', hrun, hcats, hobjects, hresults, (create_idempotent hrun 1 "key").2.2.2 hdeletes⟩

end Tekir.KeyedCats
