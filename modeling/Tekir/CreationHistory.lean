import Tekir.Creations

/-!
# What the history of creations says of rows and objects

The rows that creations commit stay. An object with a generated key is there if the call
that drew the key has stored it and not deleted it, and a medium that bears the key is the
one that this call has committed.
-/
namespace Tekir.CreationHistory
open Machine Table Schema Statements CatQueries Environment CatServices ReadServices ContentWrites
  ContentQueries ContentCalls Creations Programs Interleaving Bookkeeping Contracts Dialects

/-- The generated keys are new and different. -/
structure FreshKeys (ops : List Creation) (w : World) : Prop where
  distinct : (ops.map Creation.objectKey).Nodup
  objects : ∀ o ∈ ops, o.objectKey ∉ w.objects
  media : ∀ o ∈ ops, ∀ m ∈ w.db.tables.media, m.objectKey ≠ o.objectKey

instance (ops : List Creation) (w : World) : Decidable (FreshKeys ops w) :=
  decidable_of_iff (_ ∧ _ ∧ _)
    ⟨fun ⟨h₁, h₂, h₃⟩ => ⟨h₁, h₂, h₃⟩, fun h => ⟨h.distinct, h.objects, h.media⟩⟩

/-- A key is drawn by one call. -/
theorem ticket_eq {ops : List Creation} (h : (ops.map Creation.objectKey).Nodup) {t t' : ℕ}
    {o o' : Creation} (ho : ops[t]? = some o) (ho' : ops[t']? = some o')
    (hkey : o.objectKey = o'.objectKey) : t = t' := by
  obtain ⟨hlt, -⟩ := List.getElem?_eq_some_iff.mp ho
  refine (List.getElem?_inj (by simpa using hlt) h).mp ?_
  simp [ho, ho', hkey]

/-- The objects that are there after these batches if none was there before. -/
def stored (batches : List (List Write)) : List String :=
  batches.flatten.foldl (fun objects w => w.store objects) []

section Objects

variable {w : Write} {ws : List Write} {objects objects' : List String} {key : String}

theorem mem_store_congr (h : key ∈ objects ↔ key ∈ objects') :
    key ∈ w.store objects ↔ key ∈ w.store objects' := by
  cases w <;> simp [Write.store, h]

theorem mem_storeAll_congr (h : key ∈ objects ↔ key ∈ objects') :
    key ∈ ws.foldl (fun objects w => w.store objects) objects ↔
      key ∈ ws.foldl (fun objects w => w.store objects) objects' := by
  induction ws generalizing objects objects' with
  | nil => exact h
  | cons w ws ih => exact ih (mem_store_congr h)

end Objects

section Commits

variable {o : Creation} {l : CreationLocal} {w w' : World}

/-- The tables after a commit are those before it with the new rows. -/
theorem media_of_commits (hl : contract.commits o l) (hview : view l.writes w = some w') {m : Medium} :
    m ∈ w'.db.tables.media ↔ m ∈ w.db.tables.media ∨ .medium m ∈ l.writes := by
  rw [tables_of_view hview]
  rcases hl with hl | hl | ⟨contentType, url, hl⟩
  · simp [hl, Write.apply]
  · simp [hl, Write.apply]
  · cases o <;> simp [hl, Creation.rows, Write.apply]

theorem cats_of_commits (hl : contract.commits o l) (hview : view l.writes w = some w') {c : Cat} :
    c ∈ w'.db.tables.cats ↔ c ∈ w.db.tables.cats ∨ .cat c ∈ l.writes := by
  rw [tables_of_view hview]
  rcases hl with hl | hl | ⟨contentType, url, hl⟩
  · simp [hl, Write.apply]
  · simp [hl, Write.apply]
  · cases o <;> simp [hl, Creation.rows, Write.apply]

/-- A call touches no object but its own. -/
theorem objects_of_commits (hl : contract.commits o l) {key : String} (hkey : key ≠ o.objectKey)
    (objects : List String) :
    key ∈ l.writes.foldl (fun objects w => w.store objects) objects ↔ key ∈ objects := by
  rcases hl with hl | hl | ⟨contentType, url, hl⟩
  · simp [hl, Write.store, hkey]
  · simp [hl, Write.store, hkey]
  · cases o <;> simp [hl, Creation.rows, Write.store]

/-- A medium that a call commits bears its key. -/
theorem objectKey_of_commits (hl : contract.commits o l) {m : Medium} (hm : .medium m ∈ l.writes) :
    m.objectKey = o.objectKey ∧ ∃ contentType url, l.writes = o.rows contentType url := by
  rcases hl with hl | hl | ⟨contentType, url, hl⟩
  · simp [hl] at hm
  · simp [hl] at hm
  · refine ⟨?_, contentType, url, hl⟩
    cases o <;> simp [hl, Creation.rows, uploadedMedium, coverMedium] at hm <;> rw [hm] <;> rfl

end Commits

section Laws

variable {cfg : Config} {read : Reading} {ops : List Creation}

abbrev keysOf (ops : List Creation) : List String :=
  ops.map Creation.objectKey

theorem beside_of_foreign {ws : List Write} {w w' : World}
    (h : (system cfg read (keysOf ops)).foreign ws w w' = true) : Beside (keysOf ops) w w' :=
  of_decide_eq_true h

/-- Rows of the past are there now. -/
structure Stays (h : List CreationCommit) (w : World) : Prop where
  media : ∀ v, Passed h w v → ∀ m ∈ v.db.tables.media, m ∈ w.db.tables.media
  cats : ∀ v, Passed h w v → ∀ c ∈ v.db.tables.cats, ∃ c' ∈ w.db.tables.cats, SameCat c c'

/-- Each object is where its own call has left it. -/
def Placed (ops : List Creation) (h : List CreationCommit) (w : World) : Prop :=
  ∀ (t : ℕ) (o : Creation), ops[t]? = some o →
    (o.objectKey ∈ w.objects ↔ o.objectKey ∈ stored (batches h t))

/-- A medium of now was there at the start, or a call has committed it, or it is none of ours. -/
def Sourced (ops : List Creation) (w₀ : World) (h : List CreationCommit) (w : World) : Prop :=
  ∀ m ∈ w.db.tables.media, m ∈ w₀.db.tables.media ∨ (∃ c ∈ h, .medium m ∈ c.writes) ∨
    (m.idempotencyKey = none ∧ m.objectKey ∉ keysOf ops)

/-- A keyed cat of now was there at the start, or a call has committed it. -/
def Bred (w₀ : World) (h : List CreationCommit) (w : World) : Prop :=
  ∀ c ∈ w.db.tables.cats, c.idempotencyKey = none ∨ (∃ c₀ ∈ w₀.db.tables.cats, SameCat c₀ c) ∨
    ∃ e ∈ h, ∃ row, .cat row ∈ e.writes ∧ SameCat row c

variable {P : List CreationCommit → World → Prop}
  {Q' : ℕ → Creation → List CreationCommit → World → Option World → CreationLocal → Prop}

theorem stays_rule : Rule ops contract (system cfg read (keysOf ops)) P Q' Stays
    (fun _ _ _ _ _ _ => True) := by
  refine Rule.of_invariant ?_ ?_
  · intro t o h w s l w' _ _ hI _ hcommits hview
    refine ⟨fun v hv m hm => ?_, fun v hv c hc => ?_⟩
    · rcases passed_append.mp hv with hv | rfl
      · exact (media_of_commits hcommits hview).mpr (.inl (hI.media v hv m hm))
      · exact hm
    · rcases passed_append.mp hv with hv | rfl
      · obtain ⟨c', hc', hsame⟩ := hI.cats v hv c hc
        exact ⟨c', (cats_of_commits hcommits hview).mpr (.inl hc'), hsame⟩
      · exact ⟨c, hc, sameCat_refl c⟩
  · intro ws h w w' _ hI hforeign
    have hbeside := beside_of_foreign hforeign
    refine ⟨fun v hv m hm => ?_, fun v hv c hc => ?_⟩
    · rcases passed_append.mp hv with hv | rfl
      · exact hbeside.media m (hI.media v hv m hm)
      · exact hm
    · rcases passed_append.mp hv with hv | rfl
      · obtain ⟨c', hc', hsame⟩ := hI.cats v hv c hc
        obtain ⟨c'', hc'', hsame'⟩ := hbeside.cats c' hc'
        exact ⟨c'', hc'', hsame.trans hsame'⟩
      · exact ⟨c, hc, sameCat_refl c⟩

theorem placed_rule (hdistinct : (ops.map Creation.objectKey).Nodup) :
    Rule ops contract (system cfg read (keysOf ops)) P Q' (Placed ops)
      (fun _ _ _ _ _ _ => True) := by
  refine Rule.of_invariant ?_ ?_
  · intro t o h w s l w' ho _ hI _ hcommits hview t' o' ho'
    rw [objects_of_view hview, batches_append_own]
    by_cases ht : t = t'
    · subst ht
      obtain rfl : o = o' := Option.some.inj (ho.symm.trans ho')
      rw [if_pos rfl, stored, List.flatten_append, List.foldl_append, List.flatten_singleton]
      exact mem_storeAll_congr (hI t o ho)
    · have hkey : o'.objectKey ≠ o.objectKey := fun hkey =>
        ht (ticket_eq hdistinct ho ho' hkey.symm)
      rw [if_neg ht, List.append_nil, objects_of_commits hcommits hkey]
      exact hI t' o' ho'
  · intro ws h w w' _ hI hforeign t o ho
    rw [batches_append_others]
    refine ((beside_of_foreign hforeign).objects _ ?_).trans (hI t o ho)
    exact List.mem_map_of_mem (List.mem_of_getElem? ho)

theorem sourced_rule (w₀ : World) : Rule ops contract (system cfg read (keysOf ops)) P Q'
    (Sourced ops w₀) (fun _ _ _ _ _ _ => True) := by
  have hlater : ∀ {h : List CreationCommit} {w : World} {m : Medium} (c : CreationCommit),
      Sourced ops w₀ h w → m ∈ w.db.tables.media → m ∈ w₀.db.tables.media ∨
        (∃ d ∈ h ++ [c], .medium m ∈ d.writes) ∨ (m.idempotencyKey = none ∧ m.objectKey ∉ keysOf ops) := by
    intro h w m c hI hm
    rcases hI m hm with hm | ⟨d, hd, hm⟩ | hm
    · exact .inl hm
    · exact .inr (.inl ⟨d, List.mem_append_left _ hd, hm⟩)
    · exact .inr (.inr hm)
  refine Rule.of_invariant ?_ ?_
  · intro t o h w s l w' _ _ hI _ hcommits hview m hm
    rcases (media_of_commits hcommits hview).mp hm with hm | hm
    · exact hlater _ hI hm
    · exact .inr (.inl ⟨_, List.mem_append_right _ (List.mem_singleton.mpr rfl), hm⟩)
  · intro ws h w w' _ hI hforeign m hm
    rcases (beside_of_foreign hforeign).newMedia m hm with hm | hm
    · exact hlater _ hI hm
    · exact .inr (.inr hm)

theorem bred_rule (w₀ : World) : Rule ops contract (system cfg read (keysOf ops)) P Q' (Bred w₀)
    (fun _ _ _ _ _ _ => True) := by
  have hlater : ∀ {h : List CreationCommit} {w : World} {c c' : Cat} (e : CreationCommit),
      Bred w₀ h w → c ∈ w.db.tables.cats → SameCat c c' → c'.idempotencyKey = none ∨
        (∃ c₀ ∈ w₀.db.tables.cats, SameCat c₀ c') ∨
          ∃ d ∈ h ++ [e], ∃ row, .cat row ∈ d.writes ∧ SameCat row c' := by
    intro h w c c' e hI hc hsame
    rcases hI c hc with hnone | ⟨c₀, hc₀, hsame₀⟩ | ⟨d, hd, row, hrow, hsame₀⟩
    · exact .inl (hsame.idempotencyKey.trans hnone)
    · exact .inr (.inl ⟨c₀, hc₀, hsame₀.trans hsame⟩)
    · exact .inr (.inr ⟨d, List.mem_append_left _ hd, row, hrow, hsame₀.trans hsame⟩)
  refine Rule.of_invariant ?_ ?_
  · intro t o h w s l w' _ _ hI _ hcommits hview c hc
    rcases (cats_of_commits hcommits hview).mp hc with hc | hc
    · exact hlater _ hI hc (sameCat_refl c)
    · exact .inr (.inr ⟨_, List.mem_append_right _ (List.mem_singleton.mpr rfl), c, hc, sameCat_refl c⟩)
  · intro ws h w w' _ hI hforeign c' hc'
    rcases (beside_of_foreign hforeign).newCats c' hc' with hnone | ⟨c, hc, hsame⟩
    · exact .inl hnone
    · exact hlater _ hI hc hsame

theorem snapshot_rule : Rule ops contract (system cfg read (keysOf ops)) P Q' (fun _ _ => True)
    (fun _ _ h w s l => ∀ v ∈ s, l.writes = [] → Passed h w v) := by
  refine Rule.of_snapshot (J := fun _ _ h w l v => l.writes = [] → Passed h w v)
    (fun t o h w l v _ _ _ hview hl => ?_) fun t o h c l v hv hl => (hv hl).later
  rw [hl, Engine.view_nil] at hview
  cases hview
  exact passed_now

/-- What the answers of a call say of databases that the run has gone through. -/
def Recalls (h : List CreationCommit) (w : World) : Fact → Prop
  | ⟨.getMediaByIdempotencyKey userId key, .ok row⟩ => ∃ v, Passed h w v ∧
    row ∈ v.db.tables.media ∧ row.uploadedByUserId = userId ∧ row.idempotencyKey = some key
  | ⟨.getCatByIdempotencyKey userId key, .ok row⟩ => ∃ v, Passed h w v ∧
    row ∈ v.db.tables.cats ∧ row.createdByUserId = some userId ∧ row.idempotencyKey = some key
  | ⟨.getCatByID id _, .ok row⟩ => row.id = id
  | _ => True

theorem Recalls.later {h : List CreationCommit} {c : CreationCommit} {x : Fact}
    (hx : Recalls h c.base x) : Recalls (h ++ [c]) c.next x := by
  obtain ⟨q, r⟩ := x
  cases r with
  | error e => cases q <;> trivial
  | ok row =>
    cases q with
    | getMediaByIdempotencyKey | getCatByIdempotencyKey =>
      obtain ⟨v, hv, hrow⟩ := hx
      exact ⟨v, hv.later, hrow⟩
    | getCatByID => exact hx
    | _ => trivial

theorem recalls_answer {h : List CreationCommit} {w v₀ v : World} {q : Query}
    (hsnapshot : q.Reads = true → Passed h w v₀) :
    Recalls h w ⟨q, (system cfg read (keysOf ops)).answer q v₀ v⟩ := by
  cases hr : (system cfg read (keysOf ops)).answer q v₀ v with
  | error e => cases q <;> trivial
  | ok row =>
    have hrun : q.run cfg.dwithin read v₀ v = .ok (row, _) := Dialect.answer_eq_ok.mp hr
    cases q with
    | getMediaByIdempotencyKey userId key =>
      have hrow := List.mem_filter.mp (one_eq_ok (reads_eq_ok.mp hrun).1)
      simp only [Bool.and_eq_true, beq_iff_eq] at hrow
      exact ⟨v₀, hsnapshot rfl, hrow⟩
    | getCatByIdempotencyKey userId key =>
      have hrow := List.mem_filter.mp (one_eq_ok (reads_eq_ok.mp hrun).1)
      simp only [Bool.and_eq_true, beq_iff_eq] at hrow
      exact ⟨v₀, hsnapshot rfl, hrow⟩
    | getCatByID id viewer =>
      obtain ⟨c, hc, hrow⟩ := bind_eq_ok.mp (reads_eq_ok.mp hrun).1
      have hid := (List.mem_filter.mp (one_eq_ok hc)).2
      simp only [Bool.and_eq_true, beq_iff_eq] at hid
      cases hrow
      exact hid.1
    | _ => trivial

theorem trace_rule (hQ : ∀ t o h w s l, Q' t o h w s l → ∀ v ∈ s, l.writes = [] → Passed h w v) :
    Rule ops contract (system cfg read (keysOf ops)) P Q' (fun _ _ => True)
      (fun _ _ h w _ l => ∀ x ∈ l.trace, Recalls h w x) := by
  refine Rule.of_trace (J := fun _ _ h w x => Recalls h w x) ?_ ?_ ?_
  · intro t o h w l q v₀ v _ _ hq _ _ hasks
    exact recalls_answer fun hreads => hQ t o h w _ l hq v₀ rfl (hasks hreads)
  · intro t o h w q
    cases q <;> trivial
  · exact fun t o h c x hx => hx.later

/-- What the history of a run says of the world it has led to. -/
structure Knows (ops : List Creation) (w₀ : World) (h : List CreationCommit) (w : World) : Prop where
  stays : Stays h w
  placed : Placed ops h w
  sourced : Sourced ops w₀ h w
  bred : Bred w₀ h w

/-- What it says of a call. -/
structure Relies (t : ℕ) (h : List CreationCommit) (w : World) (l : CreationLocal) : Prop where
  mine : batches h t = l.mine
  recalls : ∀ x ∈ l.trace, Recalls h w x

end Laws

theorem lawful_creations {cfg : Config} {read : Reading} {ops : List Creation} (w₀ : World)
    (hdistinct : (ops.map Creation.objectKey).Nodup) :
    Lawful ops contract (system cfg read (keysOf ops)) (Knows ops w₀)
      (fun t _ h w s l => Relies t h w l ∧ ∀ v ∈ s, l.writes = [] → Passed h w v) := by
  have hstays := stays_rule.and (lawful_mine (C := contract) (E := system cfg read (keysOf ops)) ops)
  have hplaced := (placed_rule hdistinct).and hstays
  have hsourced := (sourced_rule w₀).and hplaced
  have hbred := (bred_rule w₀).and hsourced
  have hsnapshot := snapshot_rule.and hbred
  have htrace := (trace_rule fun _ _ _ _ _ _ hQ => hQ.2).and hsnapshot
  refine htrace.congr (fun h w => ?_) fun t o h w s l => ?_
  · exact ⟨fun hI => ⟨hI.1.1.1.1.1.2, hI.1.1.1.1.2, hI.1.1.1.2, hI.1.1.2⟩,
      fun hI => ⟨⟨⟨⟨⟨⟨trivial, hI.stays⟩, hI.placed⟩, hI.sourced⟩, hI.bred⟩, trivial⟩, trivial⟩⟩
  · exact ⟨fun hK => ⟨⟨hK.1.1.1.1.1.1, hK.2⟩, hK.1.2⟩,
      fun hK => ⟨⟨⟨⟨⟨⟨hK.1.mine, trivial⟩, trivial⟩, trivial⟩, trivial⟩, hK.2⟩, hK.1.recalls⟩⟩

theorem knows_start {ops : List Creation} {w : World} (hfresh : FreshKeys ops w) : Knows ops w [] w := by
  refine ⟨⟨fun v hv m hm => ?_, fun v hv c hc => ?_⟩, fun t o ho => ?_, fun m hm => .inl hm,
    fun c hc => .inr (.inl ⟨c, hc, sameCat_refl c⟩)⟩
  · rcases hv with rfl | ⟨c, hc, -⟩
    · exact hm
    · cases hc
  · rcases hv with rfl | ⟨c', hc', -⟩
    · exact ⟨c, hc, sameCat_refl c⟩
    · cases hc'
  · exact iff_of_false (hfresh.objects o (List.mem_of_getElem? ho)) List.not_mem_nil

section Runs

variable {cfg : Config} {read : Reading} {n : ℕ} {s s' : CreationState n}
  {as : List (CreationAction n)}

/-- A run of creations with fresh keys, and everything that is known of where it leads. -/
structure Run (cfg : Config) (read : Reading) (s : CreationState n) (as : List (CreationAction n))
    (s' : CreationState n) : Prop where
  idle : Idle s
  fresh : FreshKeys (as.filterMap called) s.base
  leads : exec (step (system cfg read (keysOf (as.filterMap called))) program) s as = some s'

variable (h : Run cfg read s as s')

include h

theorem Run.ruled : Ruled (as.filterMap called) contract (system cfg read (keysOf (as.filterMap called)))
    (Knows (as.filterMap called) s.base)
    (fun t _ h w s l => Relies t h w l ∧ ∀ v ∈ s, l.writes = [] → Passed h w v) s' :=
  Lawful.exec contract_met h.idle (lawful_creations s.base h.fresh.distinct) (knows_start h.fresh) h.leads

theorem Run.recorded :
    Recorded (system cfg read (keysOf (as.filterMap called))) s.base s' :=
  Recorded.exec h.idle h.leads

/-- Whatever writes something is a call. -/
theorem Run.author {c : CreationCommit} (hc : c ∈ s'.history) {w : Write} (hw : w ∈ c.writes) :
    ∃ t o, c.author = some (t, o) ∧ contract.commits o c.loc ∧ view c.writes c.base = some c.next := by
  rcases h.recorded.happened c hc with ⟨hsome, hview⟩ | ⟨-, hnil, -⟩
  · obtain ⟨⟨t, o⟩, ha⟩ := Option.isSome_iff_exists.mp hsome
    exact ⟨t, o, ha, h.ruled.history c hc (t, o) ha, hview⟩
  · rw [hnil] at hw
    cases hw

theorem Run.media_of_committed {c : CreationCommit} (hc : c ∈ s'.history) {m : Medium}
    (hm : .medium m ∈ c.writes) : m ∈ s'.base.db.tables.media := by
  obtain ⟨t, o, -, hcommits, hview⟩ := h.author hc hm
  refine h.ruled.base.stays.media c.next (.inr ⟨c, hc, .inr rfl⟩) m ?_
  exact (media_of_commits hcommits hview).mpr (.inr hm)

theorem Run.cat_of_committed {c : CreationCommit} (hc : c ∈ s'.history) {row : Cat}
    (hrow : .cat row ∈ c.writes) : ∃ c' ∈ s'.base.db.tables.cats, SameCat row c' := by
  obtain ⟨t, o, -, hcommits, hview⟩ := h.author hc hrow
  refine h.ruled.base.stays.cats c.next (.inr ⟨c, hc, .inr rfl⟩) row ?_
  exact (cats_of_commits hcommits hview).mpr (.inr hrow)

/-- The batches of a finished call are in the history. -/
theorem Run.mem_mine {d : CreationDone} (hd : d ∈ s'.log) {ws : List Write} :
    ws ∈ d.loc.mine ↔ ∃ c ∈ s'.history, By d.ticket c ∧ c.writes = ws :=
  h.ruled.books.mem_mine hd

/-- A batch of a finished call is a commit in its name. -/
theorem Run.exists_commit {d : CreationDone} (hd : d ∈ s'.log) {ws : List Write}
    (hws : ws ∈ d.loc.mine) :
    ∃ c ∈ s'.history, c.author = some (d.ticket, d.op) ∧ c.writes = ws := by
  obtain ⟨c, hc, ⟨⟨t, o⟩, ha, rfl⟩, hwrites⟩ := (h.mem_mine hd).mp hws
  have hop := h.ruled.among c hc (d.ticket, o) ha
  rw [h.ruled.listed d hd] at hop
  cases hop
  exact ⟨c, hc, ha, hwrites⟩

/-- The call that has made a commit has returned by the time that all have. -/
theorem Run.exists_done (hnone : ∀ i, s'.calls i = none) {c : CreationCommit} (hc : c ∈ s'.history)
    {t : ℕ} {o : Creation} (ha : c.author = some (t, o)) :
    ∃ d ∈ s'.log, d.ticket = t ∧ d.op = o ∧ c.writes ∈ d.loc.mine := by
  obtain ⟨e, ⟨i, d, hd, -⟩ | ⟨d, hd, rfl⟩, ht, ho⟩ := h.ruled.books.author c hc (t, o) ha
  · simp [hnone i] at hd
  · exact ⟨d, hd, ht, ho, (h.mem_mine hd).mpr ⟨c, hc, ⟨(t, o), ha, ht.symm⟩, rfl⟩⟩

/-- A keyed cat is of the start, or a call has committed it. -/
theorem Run.committed_cat {c : Cat} (hc : c ∈ s'.base.db.tables.cats) (hkey : c.idempotencyKey ≠ none) :
    (∃ c₀ ∈ s.base.db.tables.cats, SameCat c₀ c) ∨
      ∃ e ∈ s'.history, ∃ row, .cat row ∈ e.writes ∧ SameCat row c :=
  (h.ruled.base.bred c hc).resolve_left hkey

/-- A new medium with a key, and the call that has committed it. -/
theorem Run.committed_of_new {m : Medium} (hm : m ∈ s'.base.db.tables.media)
    (hnew : m ∉ s.base.db.tables.media) (hkey : m.idempotencyKey ≠ none) :
    ∃ c ∈ s'.history, .medium m ∈ c.writes := by
  rcases h.ruled.base.sourced m hm with hold | hc | ⟨hnone, -⟩
  · exact absurd hold hnew
  · exact hc
  · exact absurd hnone hkey

end Runs

def asksDelete (name : String) : Fact → Bool
  | ⟨.deleteObject k, _⟩ => k == name
  | _ => false

def erases (name : String) : List Write → Bool
  | [.erased k] => k == name
  | _ => false

/-- The object store carries out every delete that the finished calls have asked for. -/
def DeletesSucceed {n : ℕ} (s : CreationState n) : Prop :=
  ∀ d ∈ s.log, d.op.env.deletes d.op.objectKey = true ∧
    (d.loc.trace.any (asksDelete d.op.objectKey) = true →
      d.loc.mine.any (erases d.op.objectKey) = true)

instance {n : ℕ} (s : CreationState n) : Decidable (DeletesSucceed s) :=
  inferInstanceAs (Decidable (∀ d ∈ s.log, _ ∧ (_ → _)))

/-- The call has stored its object and its rows. -/
def Complete (o : Creation) (l : CreationLocal) : Prop :=
  ∃ contentType url, l.mine = [[.put o.objectKey], o.rows contentType url]

/-- A call that has committed a medium has stored its object and its rows. -/
theorem complete_of_mem {o : Creation} {l : CreationLocal} {r : Except Error Created} (h : Ended o l r)
    {ws : List Write} (hws : ws ∈ l.mine) {m : Medium} (hm : .medium m ∈ ws) : Complete o l := by
  rcases h with ⟨contentType, url, hmine, -⟩ | ⟨hmine | hmine | ⟨hmine, -⟩, -⟩
  · exact ⟨contentType, url, hmine⟩
  all_goals
    rw [hmine] at hws
    simp only [List.mem_cons, List.not_mem_nil, or_false] at hws
  · rcases hws with rfl | rfl <;> simp at hm
  · simp [hws] at hm

/-- What a finished call leaves in the object store. -/
theorem Run.mem_objects {cfg : Config} {read : Reading} {n : ℕ} {s s' : CreationState n}
    {as : List (CreationAction n)} (h : Run cfg read s as s') (hdeletes : DeletesSucceed s')
    {d : CreationDone} (hd : d ∈ s'.log) :
    d.op.objectKey ∈ s'.base.objects ↔ Complete d.op d.loc := by
  have hmine : batches s'.history d.ticket = d.loc.mine := (h.ruled.done d hd).1.mine
  rw [h.ruled.base.placed d.ticket d.op (h.ruled.listed d hd), hmine]
  have hreturns : Ended d.op d.loc d.result := h.ruled.log d hd
  rcases hreturns with ⟨contentType, url, hrows, -⟩ | ⟨hnothing | hremoved | ⟨hput, hasked⟩, -⟩
  · refine iff_of_true ?_ ⟨contentType, url, hrows⟩
    rw [hrows]
    cases hop : d.op <;> simp [stored, Creation.rows, Write.store]
  · refine iff_of_false ?_ fun hcomplete => ?_
    · simp [hnothing, stored]
    · obtain ⟨contentType, url, hrows⟩ := hcomplete
      simp [hnothing] at hrows
  · refine iff_of_false ?_ fun hcomplete => ?_
    · simp [hremoved, stored, Write.store]
    · obtain ⟨contentType, url, hrows⟩ := hcomplete
      rw [hremoved] at hrows
      cases hop : d.op <;> simp [hop, Creation.rows] at hrows
  · obtain ⟨hcarries, herased⟩ := hdeletes d hd
    rcases hasked with hfails | ⟨r, hr⟩
    · simp [hcarries] at hfails
    · have hmem := herased (List.any_eq_true.mpr ⟨_, hr, by simp [asksDelete]⟩)
      simp [hput, erases] at hmem

/-- One account, and nothing stored. -/
def oneAccount (n : ℕ) : CreationState n where
  base := {
    db := ⟨{ users := [{ id := 1, phone := "+905551112233", phoneVerifiedAt := 0 }] }, by decide⟩ }

theorem oneAccount_idle (n : ℕ) : Idle (oneAccount n) :=
  ⟨fun _ => rfl, rfl, rfl, rfl⟩

end Tekir.CreationHistory
