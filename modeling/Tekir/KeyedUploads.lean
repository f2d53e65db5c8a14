import Tekir.Backend
import Tekir.CreationHistory
import Tekir.DiscoverPages

/-!
# Uploads under one key

However any number of uploads with one idempotency key interleave, they leave one row, all
answer with it, and of the objects they have stored only the one of that row remains.
-/
namespace Tekir.KeyedUploads
open Machine Table Schema Statements Environment CatServices ReadServices ContentWrites
  ContentQueries ContentCalls Creations CreationHistory Programs Interleaving Bookkeeping Contracts
open DiscoverPages (plainReading)

/-- The row of this account and this key. -/
def Keyed (userId : UUID) (key : String) (m : Medium) : Prop :=
  m.uploadedByUserId = userId ∧ m.idempotencyKey = some key

/-- A call of `Upload` by this account with this key. -/
def Uploads (userId : UUID) (key : String) (o : Creation) : Prop :=
  ∃ env deviceId muted, o = .upload env userId deviceId (some key) muted

variable {n : ℕ}

/-- An upload of this account with this key has stored an object under this name. -/
def PutBy (userId : UUID) (key : String) (s : CreationState n) (name : String) : Prop :=
  ∃ c ∈ s.history, ∃ a ∈ c.author, Uploads userId key a.2 ∧ .put name ∈ c.writes

variable {cfg : Config} {read : Reading} {s s' : CreationState n} {as : List (CreationAction n)}
  {userId : UUID} {key : String}

theorem eq_of_keyed {db : Database} {m m' : Medium} (hm : m ∈ db.tables.media)
    (hm' : m' ∈ db.tables.media) (hkeyed : Keyed userId key m) (hkeyed' : Keyed userId key m') :
    m = m' := by
  refine (db.valid.holds .mediaUserIdempotencyUq).eq_of_key_eq hm hm' ?_ ?_
  · simp [both, hkeyed.1, hkeyed.2, hkeyed'.1, hkeyed'.2]
  · simp [both, hkeyed.2]

/-- A keyed medium that a creation commits is that of an upload. -/
theorem uploads_of_commits {o : Creation} {l : CreationLocal} (hl : contract.commits o l)
    {m : Medium} (hm : .medium m ∈ l.writes) (hkeyed : Keyed userId key m) :
    Uploads userId key o := by
  obtain ⟨-, contentType, url, hrows⟩ := objectKey_of_commits hl hm
  rw [hrows] at hm
  obtain ⟨hupload, hkey⟩ := hkeyed
  cases o with
  | upload env user deviceId k muted =>
    obtain rfl := Write.medium.inj (List.mem_singleton.mp hm)
    cases hupload
    cases hkey
    exact ⟨env, deviceId, muted, rfl⟩
  | cat env req =>
    simp only [Creation.rows, List.mem_cons, Write.medium.injEq, reduceCtorEq, List.not_mem_nil,
      or_false] at hm
    rw [hm] at hkey
    cases hkey

/-- A call stores objects under its own key only. -/
theorem name_of_commits {o : Creation} {l : CreationLocal} (hl : contract.commits o l) {name : String}
    (hput : .put name ∈ l.writes) : name = o.objectKey := by
  rcases hl with hl | hl | ⟨contentType, url, hl⟩
  · rw [hl] at hput
    exact Write.put.inj (List.mem_singleton.mp hput)
  · simp [hl] at hput
  · cases o <;> simp [hl, Creation.rows] at hput

/-- A finished upload that succeeds answers with the row of its key. -/
theorem exists_row_of_ok (h : Run cfg read s as s') {d : CreationDone} (hd : d ∈ s'.log)
    (hop : Uploads userId key d.op) {a : Created} (ha : d.result = .ok a) :
    ∃ row ∈ s'.base.db.tables.media, Keyed userId key row ∧ a = .media (toMedia row) := by
  obtain ⟨env, deviceId, muted, hop⟩ := hop
  have hreturns : Ended d.op d.loc d.result := h.ruled.log d hd
  rw [hop, ha] at hreturns
  rcases hreturns with ⟨contentType, url, hmine, hanswer⟩ | ⟨-, hfound⟩
  · have hrows : (Creation.upload env userId deviceId (some key) muted).rows contentType url ∈
        d.loc.mine := by simp [hmine]
    obtain ⟨c, hc, -, hwrites⟩ := h.exists_commit hd hrows
    refine ⟨uploadedMedium env userId deviceId (some key) muted contentType url,
      h.media_of_committed hc (by rw [hwrites]; exact List.mem_singleton.mpr rfl), ⟨rfl, rfl⟩, ?_⟩
    exact Except.ok.inj hanswer
  · have hfound' := hfound a rfl
    cases a with
    | cat c => exact hfound'.elim
    | media m =>
      obtain ⟨k, row, hkey, hrow, rfl⟩ := hfound'
      cases hkey
      obtain ⟨v, hv, hmem, hkeyed⟩ := (h.ruled.done d hd).1.recalls _ hrow
      exact ⟨row, h.ruled.base.stays.media v hv row hmem, hkeyed, rfl⟩

/-- Whatever the interleaving, and whichever statements, commits, moderations and puts fail. -/
theorem upload_idempotent (h : Run cfg read s as s') (userId : UUID) (key : String) :
    (∀ m ∈ s'.base.db.tables.media, ∀ m' ∈ s'.base.db.tables.media, Keyed userId key m →
      Keyed userId key m' → m = m') ∧
    (∀ d ∈ s'.log, Uploads userId key d.op → ∀ a, d.result = .ok a →
      ∃ row ∈ s'.base.db.tables.media, Keyed userId key row ∧ a = .media (toMedia row)) ∧
    ((∀ i, s'.calls i = none) → DeletesSucceed s' → ∀ name,
      (PutBy userId key s' name ∧ name ∈ s'.base.objects) ↔
        ∃ row ∈ s'.base.db.tables.media, Keyed userId key row ∧ row ∉ s.base.db.tables.media ∧
          row.objectKey = name) := by
  refine ⟨fun m hm m' hm' => eq_of_keyed hm hm', fun d hd hop a => exists_row_of_ok h hd hop, ?_⟩
  intro hnone hdeletes name
  constructor
  · rintro ⟨⟨c, hc, ⟨t, o⟩, ha, hop, hput⟩, hobject⟩
    obtain rfl : name = o.objectKey := name_of_commits (h.ruled.history c hc (t, o) ha) hput
    obtain ⟨d, hd, rfl, rfl, -⟩ := h.exists_done hnone hc ha
    obtain ⟨contentType, url, hmine⟩ := (h.mem_objects hdeletes hd).mp hobject
    obtain ⟨env, deviceId, muted, hop⟩ : Uploads userId key d.op := hop
    obtain ⟨c', hc', -, hwrites⟩ := h.exists_commit hd
      (show Creation.rows d.op contentType url ∈ d.loc.mine by simp [hmine])
    have hname : (uploadedMedium env userId deviceId (some key) muted contentType url).objectKey =
        Creation.objectKey d.op := by
      rw [hop]
      rfl
    have hrow : .medium (uploadedMedium env userId deviceId (some key) muted contentType url) ∈
        c'.writes := by
      rw [hwrites, hop]
      exact List.mem_singleton.mpr rfl
    refine ⟨_, h.media_of_committed hc' hrow, ⟨rfl, rfl⟩, fun hold => ?_, hname⟩
    exact h.fresh.media d.op (List.mem_of_getElem? (h.ruled.listed d hd)) _ hold hname
  · rintro ⟨row, hrow, hkeyed, hnew, rfl⟩
    obtain ⟨c, hc, hmedium⟩ := h.committed_of_new hrow hnew (by simp [hkeyed.2])
    obtain ⟨t, o, ha, hcommits, -⟩ := h.author hc hmedium
    obtain ⟨hname, -⟩ := objectKey_of_commits hcommits hmedium
    obtain ⟨d, hd, rfl, rfl, hmine⟩ := h.exists_done hnone hc ha
    have hcomplete : Complete d.op d.loc := complete_of_mem (h.ruled.log d hd) hmine hmedium
    obtain ⟨contentType, url, hmine⟩ := hcomplete
    obtain ⟨c', hc', ha', hwrites⟩ := h.exists_commit hd
      (show [.put (Creation.objectKey d.op)] ∈ d.loc.mine by simp [hmine])
    rw [hname]
    refine ⟨⟨c', hc', _, ha', uploads_of_commits hcommits hmedium hkeyed, by simp [hwrites]⟩, ?_⟩
    exact (h.mem_objects hdeletes hd).mpr ⟨contentType, url, hmine⟩

def uploadCall (k : ℕ) : Creation :=
  .upload (Backend.plainEnv k) 1 none (some "key") false

/-- Both calls store their objects before the first one commits its row. -/
def racing : List (CreationAction 2) :=
  [.call 0 (uploadCall 1), .call 1 (uploadCall 2)] ++ List.replicate 6 (.run 0) ++
    List.replicate 6 (.run 1) ++ List.replicate 4 (.run 0) ++ List.replicate 10 (.run 1)

theorem upload_idempotent_racing : ∃ s', Run Backend.plainConfig plainReading (oneAccount 2) racing s' ∧
    s'.base.objects = ["1"] ∧ (s'.log.map fun d => d.result.isOk) = [true, true] ∧
    ∀ name, (PutBy 1 "key" s' name ∧ name ∈ s'.base.objects) ↔
      ∃ row ∈ s'.base.db.tables.media, Keyed 1 "key" row ∧
        row ∉ (oneAccount 2).base.db.tables.media ∧ row.objectKey = name := by
  obtain ⟨s', hs', htest⟩ := exists_of_exec_test
    (step (system Backend.plainConfig plainReading (keysOf (racing.filterMap called))) program)
    (oneAccount 2) racing (fun s => decide (DeletesSucceed s) && decide (∀ i, (s.calls i).isNone) &&
      s.base.objects == ["1"] && (s.log.map fun d => d.result.isOk) == [true, true]) (by decide +kernel)
  simp only [Bool.and_eq_true, decide_eq_true_eq, beq_iff_eq, Option.isNone_iff_eq_none] at htest
  obtain ⟨⟨⟨hdeletes, hnone⟩, hobjects⟩, hresults⟩ := htest
  have hrun : Run Backend.plainConfig plainReading (oneAccount 2) racing s' :=
    ⟨oneAccount_idle 2, by decide, hs'⟩
  exact ⟨s', hrun, hobjects, hresults, (upload_idempotent hrun 1 "key").2.2 hnone hdeletes⟩

end Tekir.KeyedUploads
