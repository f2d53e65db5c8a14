import Tekir.DispatchWorkers

/-!
# A call of `DispatchPending` is the run of one worker

`SocialServices.dispatchPending` performs a whole batch at once; the workers perform it
statement by statement. When no other worker has a transaction open, one worker can follow
the call to its end and then commits or fails as the call does.
-/
namespace Tekir.DispatchSimulation
open Machine Table Schema Statements AccountQueries NotificationQueries Environment SocialServices
  DispatchWorkers

variable {n : ℕ} {cfg : Config} {w w' : Worker} {i : Fin n} {db : Database}
  {sent₀ : List PushMessage} {env : Env} {d : Dispatch} {row : ClaimedRow} {rec : Recipient}
  {left : List Recipient} {pending : List ClaimedRow}

/-- The `i`-th worker is the only one with a transaction. -/
def alone (i : Fin n) (db : Database) (sent₀ : List PushMessage) (w : Worker) : State n where
  db := db
  workers := Function.update (fun _ => none) i (some w)
  sent := sent₀ ++ w.sent

/-- The draws that are left after the first `drawn` identifiers. -/
def drawsFrom (drawn : ℕ) (env : Env) : Env :=
  { env with uuid := fun k => env.uuid (drawn + k) }

/-- The worker gets from `w` to `w'` by running. -/
def Runs (cfg : Config) (i : Fin n) (db : Database) (sent₀ : List PushMessage) (w w' : Worker) :
    Prop :=
  ∃ envs : List Env,
    exec (step cfg) (alone i db sent₀ w) (envs.map (.run i)) = some (alone i db sent₀ w')

theorem Runs.refl (w : Worker) : Runs cfg i db sent₀ w w :=
  ⟨[], rfl⟩

theorem Runs.trans {w₁ w₂ w₃ : Worker} (h : Runs cfg i db sent₀ w₁ w₂)
    (h' : Runs cfg i db sent₀ w₂ w₃) : Runs cfg i db sent₀ w₁ w₃ := by
  obtain ⟨envs, henvs⟩ := h
  obtain ⟨envs', henvs'⟩ := h'
  refine ⟨envs ++ envs', ?_⟩
  rw [List.map_append, exec_append, henvs]
  exact henvs'

/-- The worker sees the tables of the transaction and has pushed what it has pushed. -/
structure Tracks (db : Database) (d : Dispatch) (w : Worker) : Prop where
  view : w.view db.tables = d.db.tables
  sent : w.sent = d.sent

theorem Tracks.database (h : Tracks db d w) : w.database db.tables = some d.db := by
  have hvalid : Valid (w.view db.tables) := h.view ▸ d.db.valid
  rw [Worker.database, dif_pos hvalid]
  exact congrArg some (Database.ext h.view)

theorem Tracks.runs (h : Tracks db d w) (hw : w.advance env d.db = some w') :
    Runs cfg i db sent₀ w w' := by
  obtain ⟨new, hnew⟩ := advance_advances hw
  refine ⟨[env], ?_⟩
  simp [exec, step, alone, h.database, hw, hnew.sent, List.append_assoc]

/-- A statement that succeeds is one more write. -/
theorem Tracks.write (h : Tracks db d w) {e : Write} {db' : Database}
    (hdb : db'.tables = e.apply d.db.tables) (drawn : ℕ) (stage : Stage) :
    Tracks db { d with db := db', drawn } { w with writes := w.writes ++ [e], stage } where
  view := by
    rw [Worker.view, List.foldl_append, hdb, ← h.view]
    rfl
  sent := h.sent

/-- The worker can follow the call to its result, and is at `stage` if the call goes on. -/
def Carried (cfg : Config) (i : Fin n) (db : Database) (sent₀ : List PushMessage) (w : Worker)
    (r : Except Error Unit × Dispatch) (stage : Stage) : Prop :=
  ∃ w', Runs cfg i db sent₀ w w' ∧ Tracks db r.2 w' ∧ (r.1 = .ok () → w'.stage = stage)

theorem Carried.of_runs {r : Except Error Unit × Dispatch} {stage : Stage}
    (h : Runs cfg i db sent₀ w w') (hc : Carried cfg i db sent₀ w' r stage) :
    Carried cfg i db sent₀ w r stage := by
  obtain ⟨w₂, hruns, hrest⟩ := hc
  exact ⟨w₂, h.trans hruns, hrest⟩

/-- An error ends the call where it is. -/
theorem Carried.error (h : Tracks db d w) (e : Error) (stage : Stage) :
    Carried cfg i db sent₀ w (.error e, d) stage :=
  ⟨w, .refl w, h, fun hok => nomatch hok⟩

theorem forEach_carried {α : Type} {f : α → Dispatch → Except Error Unit × Dispatch}
    (stage : List α → Stage)
    (one : ∀ a as d w, Tracks db d w → w.stage = stage (a :: as) →
      Carried cfg i db sent₀ w (f a d) (stage as))
    (as : List α) (h : Tracks db d w) (hstage : w.stage = stage as) :
    Carried cfg i db sent₀ w (forEach f as d) (stage []) := by
  induction as generalizing d w with
  | nil => exact ⟨w, .refl w, h, fun _ => hstage⟩
  | cons a as ih =>
    obtain ⟨w', hruns, htracks, hgoes⟩ := one a as d w h hstage
    rw [forEach]
    split
    · rename_i d' hf
      rw [hf] at htracks hgoes
      exact .of_runs hruns (ih htracks (hgoes rfl))
    · rename_i e d' hf
      rw [hf] at htracks
      exact .of_runs hruns (.error htracks e _)

theorem push_carried {msg : PushMessage} (h : Tracks db d w)
    (hstage : w.stage = .send msg row left pending) :
    Carried cfg i db sent₀ w (d.push env msg) (.recipients row left pending) := by
  let w₁ : Worker :=
    { w with sent := w.sent ++ [msg], stage := .afterSend msg row left pending (env.send msg) }
  let d₁ : Dispatch := { d with sent := d.sent ++ [msg] }
  have hadvance : w.advance env d.db = some w₁ := by
    simp only [Worker.advance, hstage, w₁]
  have htracks : Tracks db d₁ w₁ := ⟨h.view, congrArg (· ++ [msg]) h.sent⟩
  refine .of_runs (h.runs hadvance) ?_
  unfold Dispatch.push
  dsimp only
  split
  · rename_i hsend
    have hretire : w₁.stage = .retire msg row left pending := by
      simp only [w₁, hsend, Stage.afterSend]
    split
    · exact .error htracks _ _
    · rename_i db' hclear
      have hlast : w₁.advance env d₁.db = some
          { w₁ with
            writes := w₁.writes ++ [.token msg.deviceId (some msg.pushToken)]
            stage := .recipients row left pending } := by
        simp only [Worker.advance, hretire, d₁, hclear]
      exact ⟨_, htracks.runs hlast,
        htracks.write (e := .token msg.deviceId (some msg.pushToken)) (write_eq_ok.mp hclear) _ _,
        fun _ => rfl⟩
  · rename_i hsend
    refine ⟨w₁, .refl _, htracks, fun _ => ?_⟩
    cases houtcome : env.send msg with
    | tokenInvalid => exact absurd houtcome hsend
    | delivered => simp only [w₁, houtcome, Stage.afterSend]
    | failed => simp only [w₁, houtcome, Stage.afterSend]

theorem deliver_carried (h : Tracks db d w)
    (hstage : w.stage = .recipients row (rec :: left) pending) :
    Carried cfg i db sent₀ w (Dispatch.deliver env row rec d) (.recipients row left pending) := by
  have hadvance : w.advance (drawsFrom d.drawn env) d.db =
      w.notify (drawsFrom d.drawn env) d.db row rec left pending := by
    simp only [Worker.advance, hstage]
  unfold Worker.notify at hadvance
  unfold Dispatch.deliver
  split
  · rename_i hcreate
    have hnotify : w.advance (drawsFrom d.drawn env) d.db = some
        { w with stage := .recipients row left pending } := by
      rw [hadvance]
      simp only [drawsFrom, Nat.add_zero, hcreate]
    exact ⟨_, h.runs hnotify, ⟨h.view, h.sent⟩, fun _ => rfl⟩
  · exact .error (d := { d with drawn := d.drawn + 1 }) ⟨h.view, h.sent⟩ _ _
  · rename_i inserted db' hcreate
    obtain ⟨-, -, hdb⟩ := createNotification_spec hcreate
    simp only [drawsFrom, Nat.add_zero, hcreate] at hadvance
    dsimp only
    split
    · rename_i htoken
      simp only [htoken] at hadvance
      exact ⟨_, h.runs hadvance, h.write (e := .notification inserted) hdb _ _, fun _ => rfl⟩
    · rename_i token htoken
      simp only [htoken] at hadvance
      split
      · rename_i hempty
        rw [if_pos hempty] at hadvance
        exact ⟨_, h.runs hadvance, h.write (e := .notification inserted) hdb _ _, fun _ => rfl⟩
      · rename_i hempty
        rw [if_neg hempty] at hadvance
        exact .of_runs (h.runs hadvance)
          (push_carried (h.write (e := .notification inserted) hdb _ _) rfl)

theorem dispatchNeedsHelp_carried (h : Tracks db d w)
    (hstage : w.stage = .recipients row
      (listNeedsHelpRecipientDevices row.catId row.authorUserId d.db) pending) :
    Carried cfg i db sent₀ w (dispatchNeedsHelp env row d) (.recipients row [] pending) :=
  forEach_carried (fun left => .recipients row left pending)
    (fun _ _ _ _ => deliver_carried) _ h hstage

theorem markProcessed_carried (h : Tracks db d w)
    (hadvance : w.advance env d.db = w.mark env d.db row pending) :
    Carried cfg i db sent₀ w (d.markProcessed env row) (.rows pending) := by
  unfold Worker.mark at hadvance
  unfold Dispatch.markProcessed
  split
  · exact .error h _ _
  · rename_i db' hmark
    simp only [hmark] at hadvance
    exact ⟨_, h.runs hadvance,
      h.write (e := .processed env.clock row.id) (write_eq_ok.mp hmark) _ _, fun _ => rfl⟩

theorem dispatchRow_carried (h : Tracks db d w) (hstage : w.stage = .rows (row :: pending)) :
    Carried cfg i db sent₀ w (dispatchRow env row d) (.rows pending) := by
  unfold dispatchRow
  split
  · rename_i heligible
    have hlist : w.advance env d.db = some
        { w with
          stage := .recipients row (listNeedsHelpRecipientDevices row.catId row.authorUserId d.db)
            pending } := by
      simp only [Worker.advance, hstage, heligible, if_true]
    obtain ⟨w', hruns, htracks, hgoes⟩ := dispatchNeedsHelp_carried
      (w := { w with
        stage := .recipients row (listNeedsHelpRecipientDevices row.catId row.authorUserId d.db)
          pending }) ⟨h.view, h.sent⟩ rfl
    refine .of_runs ((h.runs hlist).trans hruns) ?_
    split
    · rename_i e d' hdispatch
      rw [hdispatch] at htracks
      exact .error htracks e _
    · rename_i d' hdispatch
      rw [hdispatch] at htracks hgoes
      refine markProcessed_carried htracks ?_
      simp only [Worker.advance, hgoes rfl]
  · rename_i heligible
    refine markProcessed_carried h ?_
    simp only [Worker.advance, hstage, heligible]
    rfl

/-- One call of `DispatchPending`, from any state in which no transaction is open, is a run of
one worker: it leaves the same database and has made the same calls of `Send`. -/
theorem dispatchPending_alone (cfg : Config) (env : Env) (i : Fin n) (world : World) :
    ∃ as : List (Action n), exec (step cfg) ⟨world.db, fun _ => none, world.sent⟩ as =
      some ⟨(dispatchPending cfg env world).2.db, fun _ => none,
        (dispatchPending cfg env world).2.sent⟩ := by
  let rows := claimNotificationOutboxBatch cfg.batchSize world.db
  let idle : State n := ⟨world.db, fun _ => none, world.sent⟩
  let w₀ : Worker := { claimed := rows, stage := .rows rows }
  have hlocked : idle.locked = fun _ => false := by
    funext id
    simp [State.locked, idle]
  have hclaim : step cfg idle (.claim i []) = some (alone i world.db world.sent w₀) := by
    simp [step, alone, w₀, rows, claimNotificationOutboxBatch, hlocked]
    simp [idle]
  have hcarried : Carried cfg i world.db world.sent w₀
      (forEach (dispatchRow env) rows { db := world.db }) (.rows []) :=
    forEach_carried .rows (fun _ _ _ _ => dispatchRow_carried) rows ⟨rfl, rfl⟩ rfl
  obtain ⟨w', ⟨envs, henvs⟩, htracks, hgoes⟩ := hcarried
  have hrun : ∀ a s', step cfg (alone i world.db world.sent w') a = some s' →
      exec (step cfg) idle (.claim i [] :: (envs.map (.run i) ++ [a])) = some s' := by
    intro a s' ha
    rw [exec_cons, hclaim, Option.bind_some, exec_append, henvs, Option.bind_some, exec_cons, ha]
    rfl
  cases hresult : forEach (dispatchRow env) rows { db := world.db } with
  | mk r d' =>
    rw [hresult] at htracks hgoes
    cases r with
    | ok u =>
      have hdispatch : dispatchPending cfg env world =
          (.ok rows.length, { world with db := d'.db, sent := world.sent ++ d'.sent }) := by
        simp only [dispatchPending, rows, hresult]
      refine ⟨_, hrun (.commit i) _ ?_⟩
      have hstage := hgoes rfl
      have hdb := htracks.database
      have hsent := htracks.sent
      obtain ⟨claimed, stage, writes, sent⟩ := w'
      cases hstage
      simpa [step, alone, hdispatch, hdb] using hsent
    | error e =>
      have hdispatch : dispatchPending cfg env world =
          (.error e, { world with sent := world.sent ++ d'.sent }) := by
        simp only [dispatchPending, rows, hresult]
      refine ⟨_, hrun (.fail i) _ ?_⟩
      simp [step, alone, hdispatch, htracks.sent]

/-- So is every sequence of calls. -/
theorem dispatches_alone (cfg : Config) (i : Fin n) (world : World) (envs : List Env) :
    ∃ as : List (Action n), exec (step cfg) ⟨world.db, fun _ => none, world.sent⟩ as =
      some ⟨(envs.foldl (fun w env => (dispatchPending cfg env w).2) world).db, fun _ => none,
        (envs.foldl (fun w env => (dispatchPending cfg env w).2) world).sent⟩ := by
  induction envs generalizing world with
  | nil => exact ⟨[], rfl⟩
  | cons env envs ih =>
    obtain ⟨as, has⟩ := dispatchPending_alone cfg env i world
    obtain ⟨as', has'⟩ := ih (dispatchPending cfg env world).2
    refine ⟨as ++ as', ?_⟩
    rw [exec_append, has]
    exact has'

end Tekir.DispatchSimulation
