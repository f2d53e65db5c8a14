import Tekir.Backend

/-!
# Dispatching with several workers

`n` workers run `DispatchPending` at the same time, statement by statement: each claims
rows no other one holds, inserts an inbox row, calls `Send`, retires a refused token,
marks the row processed, and commits or fails at any point. A transaction's writes are
kept apart until it commits; a call of `Send` has left the process at once. The rest of
the backend may change the database in between.
-/
namespace Tekir.DispatchWorkers
open Machine Table Schema Statements AccountQueries NotificationQueries Environment SocialServices
  Backend

/-- A write of a dispatch transaction. -/
inductive Write
  | notification (row : Notification)
  | token (deviceId : UUID) (pushToken : Option String)
  | processed (at' : Instant) (id : UUID)

def Write.apply : Write → Tables → Tables
  | .notification row => insertNotification row
  | .token deviceId pushToken => clearPushToken deviceId pushToken
  | .processed at' id => processOutbox at' id

/-- Where the loop over the claimed rows and their recipients stands. -/
inductive Stage
  | rows (pending : List ClaimedRow)
  | recipients (row : ClaimedRow) (left : List Recipient) (pending : List ClaimedRow)
  /-- The inbox row is new and its device has a token. -/
  | send (msg : PushMessage) (row : ClaimedRow) (left : List Recipient)
      (pending : List ClaimedRow)
  /-- The token was refused. -/
  | retire (msg : PushMessage) (row : ClaimedRow) (left : List Recipient)
      (pending : List ClaimedRow)

/-- The claimed rows that are not marked processed yet. -/
def Stage.due : Stage → List ClaimedRow
  | .rows pending => pending
  | .recipients row _ pending | .send _ row _ pending | .retire _ row _ pending => row :: pending

/-- What the next statement passes to `Send`. -/
def Stage.call : Stage → List PushMessage
  | .send msg _ _ _ => [msg]
  | .rows _ | .recipients _ _ _ | .retire _ _ _ _ => []

/-- A refused token is retired; any other outcome ends the recipient's turn. -/
def Stage.afterSend (msg : PushMessage) (row : ClaimedRow) (left : List Recipient)
    (pending : List ClaimedRow) : SendOutcome → Stage
  | .tokenInvalid => .retire msg row left pending
  | .delivered | .failed => .recipients row left pending

/-- A dispatch transaction: its writes, and the calls of `Send` it has made. -/
structure Worker where
  claimed : List ClaimedRow
  stage : Stage
  writes : List Write := []
  sent : List PushMessage := []

/-- What the transaction sees: the committed tables and its own writes. -/
def Worker.view (w : Worker) (t : Tables) : Tables :=
  w.writes.foldl (fun t e => e.apply t) t

def Worker.database (w : Worker) (t : Tables) : Option Database :=
  if h : Valid (w.view t) then some ⟨w.view t, h⟩ else none

/-- `MarkNotificationOutboxProcessed`, after which the next row is due. -/
def Worker.mark (env : Env) (view : Database) (row : ClaimedRow) (pending : List ClaimedRow)
    (w : Worker) : Option Worker :=
  match markNotificationOutboxProcessed env.clock row.id view with
  | .ok _ =>
    some { w with writes := w.writes ++ [.processed env.clock row.id], stage := .rows pending }
  | .error _ => none

/-- `CreateNotification` for one recipient; a conflict or a missing token ends its turn. -/
def Worker.notify (env : Env) (view : Database) (row : ClaimedRow) (rec : Recipient)
    (left : List Recipient) (pending : List ClaimedRow) (w : Worker) : Option Worker :=
  match createNotification (env.uuid 0) rec.deviceId row.catId row.updateId env.now view with
  | .error .noRows => some { w with stage := .recipients row left pending }
  | .error _ => none
  | .ok (inserted, _) =>
    let w := { w with writes := w.writes ++ [Write.notification inserted] }
    match rec.pushToken with
    | none => some { w with stage := .recipients row left pending }
    | some token =>
      if token = "" then some { w with stage := .recipients row left pending }
      else
        let msg : PushMessage := { deviceId := rec.deviceId, pushToken := token
                                   catId := row.catId, updateId := row.updateId }
        some { w with stage := .send msg row left pending }

/-- The next statement, or the next call of `Send`. -/
def Worker.advance (env : Env) (view : Database) (w : Worker) : Option Worker :=
  match w.stage with
  | .rows [] => none
  | .rows (row :: pending) =>
    if row.needsHelp && row.needsHelpEligible then
      let recipients := listNeedsHelpRecipientDevices row.catId row.authorUserId view
      some { w with stage := .recipients row recipients pending }
    else w.mark env view row pending
  | .recipients row [] pending => w.mark env view row pending
  | .recipients row (rec :: left) pending => w.notify env view row rec left pending
  | .send msg row left pending =>
    some { w with
      sent := w.sent ++ [msg], stage := .afterSend msg row left pending (env.send msg) }
  | .retire msg row left pending =>
    match clearDevicePushToken msg.deviceId (some msg.pushToken) view with
    | .ok _ =>
      some { w with
        writes := w.writes ++ [.token msg.deviceId (some msg.pushToken)]
        stage := .recipients row left pending }
    | .error _ => none

/-- The committed database, the transactions of the workers, and every call of `Send`. -/
structure State (n : ℕ) where
  db : Database
  workers : Fin n → Option Worker := fun _ => none
  sent : List PushMessage := []

inductive Action (n : ℕ)
  /-- `held` are the outbox rows that other parts of the backend have locked. -/
  | claim (i : Fin n) (held : List UUID)
  | run (i : Fin n) (env : Env)
  | commit (i : Fin n)
  /-- A statement or the commit fails, and the transaction is rolled back. -/
  | fail (i : Fin n)
  /-- Another part of the backend commits. -/
  | others (db : Database)

variable {n : ℕ}

def State.locked (s : State n) (id : UUID) : Bool :=
  (List.finRange n).any fun i => (s.workers i).any fun w => w.claimed.any fun r => r.id == id

/-- Other transactions leave locked outbox rows alone and enqueue fresh updates only. -/
def Foreign (s : State n) (db : Database) : Prop :=
  (∀ o ∈ s.db.tables.notificationOutbox, s.locked o.id = true → o ∈ db.tables.notificationOutbox) ∧
  ∀ o ∈ db.tables.notificationOutbox, o.processedAt = none →
    o ∈ s.db.tables.notificationOutbox ∨ ∀ m ∈ s.sent, m.updateId ≠ o.updateId

instance (s : State n) (db : Database) : Decidable (Foreign s db) :=
  inferInstanceAs (Decidable ((∀ o ∈ _, _ → _) ∧ ∀ o ∈ _, _ → (_ ∨ ∀ m ∈ _, _)))

/-- A statement that fails is not enabled: its transaction can only `fail`. -/
def step (cfg : Config) (s : State n) : Action n → Option (State n)
  | .claim i held =>
    match s.workers i with
    | some _ => none
    | none =>
      let rows := claimUnlocked (fun id => s.locked id || held.contains id) cfg.batchSize s.db
      let worker : Worker := { claimed := rows, stage := .rows rows }
      some { s with workers := Function.update s.workers i (some worker) }
  | .run i env =>
    (s.workers i).bind fun w => (w.database s.db.tables).bind fun view =>
      (w.advance env view).map fun w' =>
        { s with workers := Function.update s.workers i (some w'), sent := s.sent ++ w.stage.call }
  | .commit i =>
    match s.workers i with
    | some ⟨claimed, .rows [], writes, sent⟩ =>
      (Worker.database ⟨claimed, .rows [], writes, sent⟩ s.db.tables).map fun db =>
        { s with db, workers := Function.update s.workers i none }
    | _ => none
  | .fail i => (s.workers i).map fun _ => { s with workers := Function.update s.workers i none }
  | .others db => if Foreign s db then some { s with db } else none

/-- What a push is about. -/
def pair (m : PushMessage) : UUID × UUID :=
  (m.deviceId, m.updateId)

/-- `Send` was called at most once for each device and update. -/
def AtMostOnce (s : State n) : Prop :=
  (s.sent.map pair).Nodup

/-- Only a transaction that has not called `Send` fails. -/
def Admits (s : State n) : Action n → Prop
  | .fail i => ∀ w ∈ s.workers i, w.sent = []
  | .claim _ _ | .run _ _ | .commit _ | .others _ => True

instance (s : State n) : Decidable (AtMostOnce s) :=
  inferInstanceAs (Decidable (s.sent.map pair).Nodup)

instance (s : State n) (a : Action n) : Decidable (Admits s a) := by
  cases a <;> unfold Admits <;> infer_instance

theorem database_eq_some {w : Worker} {t : Tables} {db : Database} (h : w.database t = some db) :
    db.tables = w.view t := by
  unfold Worker.database at h
  split at h
  · cases h
    rfl
  · cases h

variable {cfg : Config} {s s' : State n} {a : Action n} {w w' : Worker} {t : Tables}

section Writes

/-- An unprocessed outbox row is a committed one that was not marked. -/
theorem foldl_outbox (ws : List Write) (t : Tables) :
    ∀ o' ∈ (ws.foldl (fun t e => e.apply t) t).notificationOutbox,
      ∃ o ∈ t.notificationOutbox, o.id = o'.id ∧ o.updateId = o'.updateId ∧
        (o'.processedAt = none → o' = o ∧ ∀ at', Write.processed at' o.id ∉ ws) := by
  induction ws generalizing t with
  | nil =>
    intro o ho
    exact ⟨o, ho, rfl, rfl, fun _ => ⟨rfl, by simp⟩⟩
  | cons e ws ih =>
    intro o' ho'
    obtain ⟨o₁, ho₁, hid, hupdate, hnone⟩ := ih (e.apply t) o' ho'
    cases e with
    | notification row =>
      refine ⟨o₁, ho₁, hid, hupdate, fun h => ⟨(hnone h).1, fun at' hmem => ?_⟩⟩
      exact (hnone h).2 at' (by simpa using hmem)
    | token deviceId pushToken =>
      refine ⟨o₁, ho₁, hid, hupdate, fun h => ⟨(hnone h).1, fun at' hmem => ?_⟩⟩
      exact (hnone h).2 at' (by simpa using hmem)
    | processed at₁ id =>
      obtain ⟨o, ho, rfl⟩ := mem_updateWhere.mp ho₁
      by_cases hmark : o.id = id
      · simp only [hmark, beq_self_eq_true, if_true] at hid hupdate hnone
        refine ⟨o, ho, hmark.trans hid, hupdate, fun h => ?_⟩
        rw [(hnone h).1] at h
        cases h
      · simp only [beq_iff_eq, hmark, if_false] at hid hupdate hnone
        refine ⟨o, ho, hid, hupdate, fun h => ⟨(hnone h).1, fun at' hmem => ?_⟩⟩
        rcases List.mem_cons.mp hmem with heq | hmem
        · cases heq
          exact hmark rfl
        · exact (hnone h).2 at' hmem

/-- A committed row that is not marked is seen as it is. -/
theorem mem_foldl_outbox {ws : List Write} {t : Tables} {o : NotificationOutbox}
    (ho : o ∈ t.notificationOutbox) (hunmarked : ∀ at', Write.processed at' o.id ∉ ws) :
    o ∈ (ws.foldl (fun t e => e.apply t) t).notificationOutbox := by
  induction ws generalizing t with
  | nil => exact ho
  | cons e ws ih =>
    refine ih ?_ fun at' hmem => hunmarked at' (List.mem_cons_of_mem _ hmem)
    cases e with
    | notification row => exact ho
    | token deviceId pushToken => exact ho
    | processed at₁ id =>
      have hne : o.id ≠ id := by
        rintro rfl
        exact hunmarked at₁ List.mem_cons_self
      exact mem_updateWhere.mpr ⟨o, ho, by simp [hne]⟩

theorem mem_foldl_notifications {ws : List Write} {t : Tables} {row : Notification}
    (h : row ∈ t.notifications ∨ Write.notification row ∈ ws) :
    row ∈ (ws.foldl (fun t e => e.apply t) t).notifications := by
  induction ws generalizing t with
  | nil => simpa using h
  | cons e ws ih =>
    refine ih ?_
    rcases h with h | h
    · refine .inl ?_
      cases e with
      | notification row' => exact List.mem_append_left _ h
      | token deviceId pushToken => exact h
      | processed at' id => exact h
    · rcases List.mem_cons.mp h with rfl | h
      · exact .inl (List.mem_append_right _ (List.mem_singleton.mpr rfl))
      · exact .inr h

end Writes

/-- A notification of this pair is among the writes. -/
def Worker.Records (w : Worker) (m : PushMessage) : Prop :=
  ∃ row, Write.notification row ∈ w.writes ∧ (row.deviceId, row.updateId) = pair m

/-- The claimed rows are pending in the committed tables, those not due are marked, and the
calls of `Send`, the next one included, are each recorded and about different pairs. -/
structure Worker.Sound (t : Tables) (w : Worker) : Prop where
  claimed : ∀ r ∈ w.claimed, ∃ o ∈ t.notificationOutbox,
    o.id = r.id ∧ o.updateId = r.updateId ∧ o.processedAt = none
  due : ∀ r ∈ w.stage.due, r ∈ w.claimed
  marked : ∀ r ∈ w.claimed, r ∈ w.stage.due ∨ ∃ at', Write.processed at' r.id ∈ w.writes
  marks : ∀ at' id, Write.processed at' id ∈ w.writes → ∃ r ∈ w.claimed, r.id = id
  covered : ∀ m ∈ w.sent ++ w.stage.call, ∃ r ∈ w.claimed, r.updateId = m.updateId
  recorded : ∀ m ∈ w.sent ++ w.stage.call, w.Records m
  once : ((w.sent ++ w.stage.call).map pair).Nodup

/-- What a statement adds to a transaction that sees `view`. -/
structure Worker.Advances (view : Tables) (w w' : Worker) (new : List Write) : Prop where
  claimed : w'.claimed = w.claimed
  sent : w'.sent = w.sent ++ w.stage.call
  writes : w'.writes = w.writes ++ new
  due : ∀ r ∈ w'.stage.due, r ∈ w.stage.due
  marked : ∀ r ∈ w.stage.due, r ∈ w'.stage.due ∨ ∃ at', Write.processed at' r.id ∈ new
  marks : ∀ at' id, Write.processed at' id ∈ new → ∃ r ∈ w.stage.due, r.id = id
  calls : ∀ m ∈ w'.stage.call, (∃ r ∈ w.stage.due, r.updateId = m.updateId) ∧
    (∃ row, Write.notification row ∈ new ∧ (row.deviceId, row.updateId) = pair m) ∧
    ∀ n ∈ view.notifications, (n.deviceId, n.updateId) ≠ pair m

section Advance

variable {env : Env} {view : Database} {row : ClaimedRow} {rec : Recipient}
  {left : List Recipient} {pending : List ClaimedRow}

theorem afterSend_due {msg : PushMessage} {outcome : SendOutcome} :
    (Stage.afterSend msg row left pending outcome).due = row :: pending := by
  cases outcome <;> rfl

theorem afterSend_call {msg : PushMessage} {outcome : SendOutcome} :
    (Stage.afterSend msg row left pending outcome).call = [] := by
  cases outcome <;> rfl

theorem mark_advances (hdue : w.stage.due = row :: pending) (hcall : w.stage.call = [])
    (h : w.mark env view row pending = some w') :
    ∃ new, w.Advances view.tables w' new := by
  unfold Worker.mark at h
  split at h
  · cases h
    refine ⟨[.processed env.clock row.id], rfl, by simp [hcall], rfl, fun r hr => ?_,
      fun r hr => ?_, fun at' id hmem => ?_, by simp [Stage.call]⟩
    · exact hdue ▸ List.mem_cons_of_mem _ hr
    · rcases List.mem_cons.mp (hdue ▸ hr) with rfl | hr
      · exact .inr ⟨env.clock, List.mem_singleton.mpr rfl⟩
      · exact .inl hr
    · cases List.mem_singleton.mp hmem
      exact ⟨row, hdue ▸ List.mem_cons_self, rfl⟩
  · cases h

/-- A statement after which the same rows are due. -/
theorem Worker.Advances.of_due_eq {new : List Write} (hdue : w'.stage.due = w.stage.due)
    (hcall : w.stage.call = []) (hclaimed : w'.claimed = w.claimed) (hsent : w'.sent = w.sent)
    (hwrites : w'.writes = w.writes ++ new) (hnew : ∀ at' id, Write.processed at' id ∉ new)
    (hquiet : w'.stage.call = []) : w.Advances t w' new where
  claimed := hclaimed
  sent := by rw [hsent, hcall, List.append_nil]
  writes := hwrites
  due := fun r hr => hdue ▸ hr
  marked := fun r hr => .inl (hdue ▸ hr)
  marks := fun at' id hmem => absurd hmem (hnew at' id)
  calls := by simp [hquiet]

theorem notify_advances (hdue : w.stage.due = row :: pending) (hcall : w.stage.call = [])
    (h : w.notify env view row rec left pending = some w') :
    ∃ new, w.Advances view.tables w' new := by
  unfold Worker.notify at h
  split at h
  · cases h
    exact ⟨[], .of_due_eq hdue.symm hcall rfl rfl (by simp) (by simp) rfl⟩
  · cases h
  · rename_i inserted db hcreate
    refine ⟨[.notification inserted], ?_⟩
    split at h
    · cases h
      exact .of_due_eq hdue.symm hcall rfl rfl rfl (by simp) rfl
    · split at h
      · cases h
        exact .of_due_eq hdue.symm hcall rfl rfl rfl (by simp) rfl
      · cases h
        obtain ⟨hfresh, rfl, _⟩ := createNotification_spec hcreate
        refine ⟨rfl, by simp [hcall], rfl, fun r hr => ?_, fun r hr => .inl ?_, by simp,
          fun m hm => ?_⟩
        · rw [hdue]
          exact hr
        · rw [hdue] at hr
          exact hr
        · rw [List.mem_singleton.mp hm]
          refine ⟨⟨row, ?_, rfl⟩, ⟨_, List.mem_singleton.mpr rfl, rfl⟩, hfresh⟩
          rw [hdue]
          exact List.mem_cons_self

theorem advance_advances (h : w.advance env view = some w') :
    ∃ new, w.Advances view.tables w' new := by
  obtain ⟨claimed, stage, writes, sent⟩ := w
  cases stage with
  | rows pending =>
    cases pending with
    | nil => cases h
    | cons row pending =>
      simp only [Worker.advance] at h
      split at h
      · cases h
        exact ⟨[], .of_due_eq rfl rfl rfl rfl (by simp) (by simp) rfl⟩
      · exact mark_advances rfl rfl h
  | recipients row left pending =>
    cases left with
    | nil => exact mark_advances rfl rfl h
    | cons rec left => exact notify_advances rfl rfl h
  | send msg row left pending =>
    cases h
    refine ⟨[], rfl, rfl, by simp, fun r hr => ?_, fun r hr => .inl ?_, by simp,
      by simp [afterSend_call]⟩
    · rw [afterSend_due] at hr
      exact hr
    · rw [afterSend_due]
      exact hr
  | retire msg row left pending =>
    simp only [Worker.advance] at h
    split at h
    · cases h
      exact ⟨_, .of_due_eq rfl rfl rfl rfl rfl (by simp) rfl⟩
    · cases h

theorem nodup_call (stage : Stage) : (stage.call.map pair).Nodup := by
  cases stage <;> simp [Stage.call]

/-- A pair about to be pushed was not pushed before: its inbox row would be seen. -/
theorem Worker.Sound.advance (hs : w.Sound t) {new : List Write}
    (h : w.Advances (w.view t) w' new) : w'.Sound t := by
  have hrecords : ∀ m, w.Records m → w'.Records m := by
    rintro m ⟨row, hrow, hpair⟩
    exact ⟨row, h.writes ▸ List.mem_append_left _ hrow, hpair⟩
  have hmarks : ∀ at' id, Write.processed at' id ∈ w'.writes → ∃ r ∈ w'.claimed, r.id = id := by
    intro at' id hmem
    rw [h.claimed]
    rw [h.writes] at hmem
    rcases List.mem_append.mp hmem with hmem | hmem
    · exact hs.marks at' id hmem
    · obtain ⟨r, hr, rfl⟩ := h.marks at' id hmem
      exact ⟨r, hs.due r hr, rfl⟩
  have hmarked : ∀ r ∈ w'.claimed,
      r ∈ w'.stage.due ∨ ∃ at', Write.processed at' r.id ∈ w'.writes := by
    intro r hr
    rw [h.claimed] at hr
    rw [h.writes]
    rcases hs.marked r hr with hr | ⟨at', hmem⟩
    · rcases h.marked r hr with hr | ⟨at', hmem⟩
      · exact .inl hr
      · exact .inr ⟨at', List.mem_append_right _ hmem⟩
    · exact .inr ⟨at', List.mem_append_left _ hmem⟩
  have hsent : w'.sent ++ w'.stage.call = (w.sent ++ w.stage.call) ++ w'.stage.call := by
    rw [h.sent]
  refine ⟨h.claimed ▸ hs.claimed, fun r hr => ?_, hmarked, hmarks, ?_, ?_, ?_⟩
  · exact h.claimed ▸ hs.due r (h.due r hr)
  · rw [hsent, h.claimed]
    intro m hm
    rcases List.mem_append.mp hm with hm | hm
    · exact hs.covered m hm
    · obtain ⟨⟨r, hr, hupdate⟩, -⟩ := h.calls m hm
      exact ⟨r, hs.due r hr, hupdate⟩
  · rw [hsent]
    intro m hm
    rcases List.mem_append.mp hm with hm | hm
    · exact hrecords m (hs.recorded m hm)
    · obtain ⟨-, ⟨row, hrow, hpair⟩, -⟩ := h.calls m hm
      exact ⟨row, h.writes ▸ List.mem_append_right _ hrow, hpair⟩
  · rw [hsent, List.map_append]
    refine hs.once.append (nodup_call _) fun p hp hp' => ?_
    obtain ⟨m', hm', rfl⟩ := List.mem_map.mp hp
    obtain ⟨m, hm, heq⟩ := List.mem_map.mp hp'
    obtain ⟨row, hrow, hpair⟩ := hs.recorded m' hm'
    obtain ⟨-, -, hfresh⟩ := h.calls m hm
    exact hfresh row (mem_foldl_notifications (.inr hrow)) (hpair.trans heq.symm)

/-- The claimed rows are all that a transaction relies on. -/
theorem Worker.Sound.of_outbox (hs : w.Sound t) {t' : Tables}
    (h : ∀ o ∈ t.notificationOutbox, (∃ r ∈ w.claimed, r.id = o.id) → o ∈ t'.notificationOutbox) :
    w.Sound t' where
  claimed := by
    intro r hr
    obtain ⟨o, ho, hid, hupdate, hnone⟩ := hs.claimed r hr
    exact ⟨o, h o ho ⟨r, hr, hid.symm⟩, hid, hupdate, hnone⟩
  due := hs.due
  marked := hs.marked
  marks := hs.marks
  covered := hs.covered
  recorded := hs.recorded
  once := hs.once

end Advance

section Claim

theorem locked_iff {id : UUID} :
    s.locked id = true ↔ ∃ i w, s.workers i = some w ∧ ∃ r ∈ w.claimed, r.id = id := by
  simp [State.locked, Option.any_eq_true]

/-- A claimed row is a pending outbox row that no transaction holds. -/
theorem mem_claimUnlocked {locked : UUID → Bool} {limit : ℕ} {db : Database} {r : ClaimedRow}
    (h : r ∈ claimUnlocked locked limit db) :
    ∃ o ∈ db.tables.notificationOutbox, o.id = r.id ∧ o.updateId = r.updateId ∧
      o.processedAt = none ∧ locked r.id = false := by
  obtain ⟨o, ho, hrow⟩ := List.mem_filterMap.mp (List.mem_of_mem_take h)
  obtain ⟨ho, hpending⟩ := List.mem_filter.mp (mem_orderBy.mp ho)
  obtain ⟨u, hu, rfl⟩ := Option.map_eq_some_iff.mp hrow
  have hid : u.id = o.updateId := by simpa using List.find?_some hu
  refine ⟨o, ho, rfl, rfl, ?_⟩
  simpa using hpending

theorem claim_sound {locked : UUID → Bool} {limit : ℕ} {db : Database} :
    Worker.Sound db.tables
      { claimed := claimUnlocked locked limit db
        stage := .rows (claimUnlocked locked limit db) } where
  claimed := by
    intro r hr
    obtain ⟨o, ho, hid, hupdate, hnone, -⟩ := mem_claimUnlocked hr
    exact ⟨o, ho, hid, hupdate, hnone⟩
  due := fun r hr => hr
  marked := fun r hr => .inl hr
  marks := by simp
  covered := by simp [Stage.call]
  recorded := by simp [Stage.call]
  once := by simp [Stage.call]

end Claim

/-- The update's outbox row, if it is still there, is processed. -/
def Settled (t : Tables) (m : PushMessage) : Prop :=
  ∀ o ∈ t.notificationOutbox, o.updateId = m.updateId → o.processedAt ≠ none

/-- What every action keeps: the transactions hold different rows. -/
structure Inv (s : State n) : Prop where
  sound : ∀ i w, s.workers i = some w → w.Sound s.db.tables
  apart : ∀ i j w w', i ≠ j → s.workers i = some w → s.workers j = some w' →
    ∀ r ∈ w.claimed, ∀ r' ∈ w'.claimed, r.id ≠ r'.id
  listed : ∀ i w, s.workers i = some w → ∀ m ∈ w.sent, m ∈ s.sent

/-- Every call of `Send` is settled or was made by a transaction that still holds the row. -/
def Accounted (s : State n) : Prop :=
  ∀ m ∈ s.sent, Settled s.db.tables m ∨ ∃ i w, s.workers i = some w ∧ m ∈ w.sent

section Invariant

variable {i j : Fin n}

theorem outbox_eq {db : Database} {o o' : NotificationOutbox}
    (ho : o ∈ db.tables.notificationOutbox) (ho' : o' ∈ db.tables.notificationOutbox)
    (h : o.updateId = o'.updateId) : o = o' :=
  (db.valid.holds .notificationOutboxUpdateIdKey).eq_of_key_eq ho ho' (congrArg some h) (by simp)

theorem Worker.Sound.not_settled (hs : w.Sound t) {m : PushMessage}
    (hm : m ∈ w.sent ++ w.stage.call) : ¬ Settled t m := by
  intro hsettled
  obtain ⟨r, hr, hupdate⟩ := hs.covered m hm
  obtain ⟨o, ho, -, ho', hnone⟩ := hs.claimed r hr
  exact hsettled o ho (ho'.trans hupdate) hnone

/-- `update_id` is unique in the outbox, so one update is claimed by one transaction. -/
theorem Inv.same_worker (hi : Inv s) (hw : s.workers i = some w) (hw' : s.workers j = some w')
    {m m' : PushMessage} (hm : m ∈ w.sent ++ w.stage.call) (hm' : m' ∈ w'.sent ++ w'.stage.call)
    (heq : m.updateId = m'.updateId) : i = j := by
  by_contra hne
  obtain ⟨r, hr, hupdate⟩ := (hi.sound i w hw).covered m hm
  obtain ⟨r', hr', hupdate'⟩ := (hi.sound j w' hw').covered m' hm'
  obtain ⟨o, ho, hid, hou, -⟩ := (hi.sound i w hw).claimed r hr
  obtain ⟨o', ho', hid', hou', -⟩ := (hi.sound j w' hw').claimed r' hr'
  have hsame : o = o' := by
    refine outbox_eq ho ho' ?_
    rw [hou, hou', hupdate, hupdate', heq]
  refine hi.apart i j w w' hne hw hw' r hr r' hr' ?_
  rw [← hid, ← hid', hsame]

/-- What is about to be pushed was not pushed before, by any transaction. -/
theorem Inv.unsent (hi : Inv s) (hacc : Accounted s) (hw : s.workers i = some w)
    {m m' : PushMessage} (hm : m ∈ w.stage.call) (hm' : m' ∈ s.sent) : pair m' ≠ pair m := by
  intro heq
  have hupdate : m.updateId = m'.updateId := congrArg Prod.snd heq.symm
  have hmem : m ∈ w.sent ++ w.stage.call := List.mem_append_right _ hm
  rcases hacc m' hm' with hsettled | ⟨j, w', hw', hsent⟩
  · refine (hi.sound i w hw).not_settled hmem ?_
    rwa [Settled, hupdate]
  · obtain rfl := hi.same_worker hw hw' hmem (List.mem_append_left _ hsent) hupdate
    obtain rfl : w = w' := Option.some.inj (hw.symm.trans hw')
    have honce := (hi.sound i w hw).once
    rw [List.map_append] at honce
    exact List.disjoint_of_nodup_append honce (List.mem_map_of_mem hsent)
      (heq ▸ List.mem_map_of_mem hm)

theorem update_eq_some {f : Fin n → Option Worker} {x : Option Worker}
    (h : Function.update f i x j = some w) : (j = i ∧ x = some w) ∨ (j ≠ i ∧ f j = some w) := by
  by_cases hj : j = i
  · subst hj
    exact .inl ⟨rfl, by simpa using h⟩
  · exact .inr ⟨hj, by simpa [hj] using h⟩

/-- One worker moves: the others stay sound, and what it holds afterwards is its own. -/
theorem Inv.update (hi : Inv s) {x : Option Worker} {db : Database} {sent : List PushMessage}
    (hsound : ∀ w', x = some w' → w'.Sound db.tables)
    (hapart : ∀ w', x = some w' → ∀ r ∈ w'.claimed, ∀ j w, j ≠ i → s.workers j = some w →
      ∀ r' ∈ w.claimed, r.id ≠ r'.id)
    (hlisted : ∀ w', x = some w' → ∀ m ∈ w'.sent, m ∈ sent)
    (hothers : ∀ j w, j ≠ i → s.workers j = some w → w.Sound db.tables)
    (hsent : ∀ m ∈ s.sent, m ∈ sent) :
    Inv { db, workers := Function.update s.workers i x, sent : State n } where
  sound := by
    intro j w hj
    rcases update_eq_some hj with ⟨-, hxw⟩ | ⟨hne, hj⟩
    · exact hsound w hxw
    · exact hothers j w hne hj
  apart := by
    intro j k w w' hne hw hw' r hr r' hr'
    rcases update_eq_some hw with ⟨rfl, hxw⟩ | ⟨hj, hjw⟩ <;>
      rcases update_eq_some hw' with ⟨rfl, hxw'⟩ | ⟨hk, hkw⟩
    · exact absurd rfl hne
    · exact hapart w hxw r hr k w' hk hkw r' hr'
    · exact (hapart w' hxw' r' hr' j w hj hjw r hr).symm
    · exact hi.apart j k w w' hne hjw hkw r hr r' hr'
  listed := by
    intro j w hj m hm
    rcases update_eq_some hj with ⟨-, hxw⟩ | ⟨-, hj⟩
    · exact hlisted w hxw m hm
    · exact hsent m (hi.listed j w hj m hm)

theorem Inv.claim (hi : Inv s) {held : List UUID} {rows : List ClaimedRow} {limit : ℕ}
    (hrows : rows = claimUnlocked (fun id => s.locked id || held.contains id) limit s.db) :
    Inv { s with
      workers := Function.update s.workers i (some { claimed := rows, stage := .rows rows }) } := by
  refine hi.update ?_ ?_ ?_ (fun j w _ hj => hi.sound j w hj) fun m hm => hm
  · rintro w' ⟨⟩
    rw [hrows]
    exact claim_sound
  · rintro w' ⟨⟩ r hr j w _ hj r' hr' heq
    change r ∈ rows at hr
    rw [hrows] at hr
    obtain ⟨o, -, -, -, -, hfree⟩ := mem_claimUnlocked hr
    have hlocked : s.locked r.id = true := locked_iff.mpr ⟨j, w, hj, r', hr', heq.symm⟩
    rw [hlocked] at hfree
    cases hfree
  · rintro w' ⟨⟩ m hm
    cases hm

theorem Inv.run (hi : Inv s) (hw : s.workers i = some w) {new : List Write}
    (h : w.Advances (w.view s.db.tables) w' new) :
    Inv { s with
      workers := Function.update s.workers i (some w'), sent := s.sent ++ w.stage.call } := by
  refine hi.update ?_ ?_ ?_ (fun j w _ hj => hi.sound j w hj)
    fun m hm => List.mem_append_left _ hm
  · rintro w₁ ⟨⟩
    exact (hi.sound i w hw).advance h
  · rintro w₁ ⟨⟩ r hr j w₂ hj hjw r' hr'
    rw [h.claimed] at hr
    exact hi.apart i j w w₂ hj.symm hw hjw r hr r' hr'
  · rintro w₁ ⟨⟩ m hm
    rw [h.sent] at hm
    rcases List.mem_append.mp hm with hm | hm
    · exact List.mem_append_left _ (hi.listed i w hw m hm)
    · exact List.mem_append_right _ hm

theorem Inv.commit (hi : Inv s) (hw : s.workers i = some w) {db : Database}
    (hdb : db.tables = w.view s.db.tables) :
    Inv { s with db, workers := Function.update s.workers i none } := by
  refine hi.update (by simp) (by simp) (by simp) (fun j w₁ hne hj => ?_) fun m hm => hm
  rw [hdb]
  refine (hi.sound j w₁ hj).of_outbox fun o ho ⟨r, hr, hid⟩ => ?_
  refine mem_foldl_outbox ho fun at' hmark => ?_
  obtain ⟨r', hr', hid'⟩ := (hi.sound i w hw).marks at' o.id hmark
  exact hi.apart i j w w₁ hne.symm hw hj r' hr' r hr (hid'.trans hid.symm)

theorem Inv.fail (hi : Inv s) : Inv { s with workers := Function.update s.workers i none } :=
  hi.update (by simp) (by simp) (by simp) (fun j w _ hj => hi.sound j w hj) fun m hm => hm

theorem Inv.others (hi : Inv s) {db : Database} (hforeign : Foreign s db) :
    Inv { s with db } where
  sound := by
    intro j w hj
    refine (hi.sound j w hj).of_outbox fun o ho ⟨r, hr, hid⟩ => ?_
    exact hforeign.1 o ho (locked_iff.mpr ⟨j, w, hj, r, hr, hid⟩)
  apart := hi.apart
  listed := hi.listed

/-- What an action does, with the guards under which it is enabled. -/
theorem step_cases (h : step cfg s a = some s') :
    (∃ i held rows, a = .claim i held ∧ s.workers i = none ∧
      rows = claimUnlocked (fun id => s.locked id || held.contains id) cfg.batchSize s.db ∧
      s' = { s with
        workers := Function.update s.workers i (some { claimed := rows, stage := .rows rows }) }) ∨
    (∃ i env w w' new, a = .run i env ∧ s.workers i = some w ∧
      w.Advances (w.view s.db.tables) w' new ∧
      s' = { s with
        workers := Function.update s.workers i (some w'), sent := s.sent ++ w.stage.call }) ∨
    (∃ i w db, a = .commit i ∧ s.workers i = some w ∧ w.stage.due = [] ∧
      db.tables = w.view s.db.tables ∧
      s' = { s with db, workers := Function.update s.workers i none }) ∨
    (∃ i w, a = .fail i ∧ s.workers i = some w ∧
      s' = { s with workers := Function.update s.workers i none }) ∨
    ∃ db, a = .others db ∧ Foreign s db ∧ s' = { s with db } := by
  cases a with
  | claim i held =>
    simp only [step] at h
    split at h
    · cases h
    · rename_i hw
      cases h
      exact .inl ⟨i, held, _, rfl, hw, rfl, rfl⟩
  | run i env =>
    obtain ⟨w, hw, h⟩ := Option.bind_eq_some_iff.mp h
    obtain ⟨view, hview, h⟩ := Option.bind_eq_some_iff.mp h
    obtain ⟨w', hw', rfl⟩ := Option.map_eq_some_iff.mp h
    obtain ⟨new, hnew⟩ := advance_advances hw'
    rw [database_eq_some hview] at hnew
    exact .inr (.inl ⟨i, env, w, w', new, rfl, hw, hnew, rfl⟩)
  | commit i =>
    simp only [step] at h
    split at h
    · rename_i hw
      obtain ⟨db, hdb, rfl⟩ := Option.map_eq_some_iff.mp h
      exact .inr (.inr (.inl ⟨i, _, db, rfl, hw, rfl, database_eq_some hdb, rfl⟩))
    · cases h
  | fail i =>
    obtain ⟨w, hw, rfl⟩ := Option.map_eq_some_iff.mp h
    exact .inr (.inr (.inr (.inl ⟨i, w, rfl, hw, rfl⟩)))
  | others db =>
    simp only [step] at h
    split at h
    · rename_i hforeign
      cases h
      exact .inr (.inr (.inr (.inr ⟨db, rfl, hforeign, rfl⟩)))
    · cases h

theorem step_inv (hi : Inv s) (h : step cfg s a = some s') : Inv s' := by
  obtain ⟨i, held, rows, rfl, -, hrows, rfl⟩ | ⟨i, env, w, w', new, rfl, hw, hnew, rfl⟩ |
    ⟨i, w, db, rfl, hw, -, hdb, rfl⟩ | ⟨i, w, rfl, -, rfl⟩ | ⟨db, rfl, hforeign, rfl⟩ :=
    step_cases h
  · exact hi.claim hrows
  · exact hi.run hw hnew
  · exact hi.commit hw hdb
  · exact hi.fail
  · exact hi.others hforeign

/-- Only a `run` pushes, and what it pushes is new. -/
theorem step_once (hi : Inv s) (hacc : Accounted s) (honce : AtMostOnce s)
    (h : step cfg s a = some s') : AtMostOnce s' := by
  obtain ⟨i, held, rows, rfl, -, -, rfl⟩ | ⟨i, env, w, w', new, rfl, hw, -, rfl⟩ |
    ⟨i, w, db, rfl, -, -, -, rfl⟩ | ⟨i, w, rfl, -, rfl⟩ | ⟨db, rfl, -, rfl⟩ := step_cases h
  · exact honce
  · rw [AtMostOnce, List.map_append]
    refine List.Nodup.append honce (nodup_call _) fun p hp hp' => ?_
    obtain ⟨m', hm', rfl⟩ := List.mem_map.mp hp
    obtain ⟨m, hm, heq⟩ := List.mem_map.mp hp'
    exact hi.unsent hacc hw hm hm' heq.symm
  · exact honce
  · exact honce
  · exact honce

/-- The commit of a finished batch settles all that was pushed for it. -/
theorem Worker.Sound.settles {db : Database} (hs : w.Sound db.tables) (hdone : w.stage.due = [])
    {m : PushMessage} (hm : m ∈ w.sent) : Settled (w.view db.tables) m := by
  intro o' ho' hupdate' hnone
  obtain ⟨o, ho, -, hupdate, hkept⟩ := foldl_outbox w.writes db.tables o' ho'
  obtain ⟨-, hunmarked⟩ := hkept hnone
  obtain ⟨r, hr, hru⟩ := hs.covered m (List.mem_append_left _ hm)
  obtain ⟨o₁, ho₁, hid, hou, -⟩ := hs.claimed r hr
  have hsame : o = o₁ := by
    refine outbox_eq ho ho₁ ?_
    rw [hupdate, hupdate', hou, hru]
  rcases hs.marked r hr with hdue | ⟨at', hmark⟩
  · rw [hdone] at hdue
    cases hdue
  · refine hunmarked at' ?_
    rwa [hsame, hid]

theorem Settled.view {m : PushMessage} (h : Settled t m) : Settled (w.view t) m := by
  intro o' ho' hupdate' hnone
  obtain ⟨o, ho, -, hupdate, hkept⟩ := foldl_outbox w.writes t o' ho'
  obtain ⟨rfl, -⟩ := hkept hnone
  exact h o' ho hupdate' hnone

/-- A transaction other than the `i`-th keeps what it holds. -/
theorem Accounted.update (hacc : Accounted s) {x : Option Worker} {t : Tables} {m : PushMessage}
    (hm : m ∈ s.sent) (hsettled : Settled s.db.tables m → Settled t m)
    (hx : ∀ w, s.workers i = some w → m ∈ w.sent → Settled t m ∨ ∃ w', x = some w' ∧ m ∈ w'.sent) :
    Settled t m ∨ ∃ j w, Function.update s.workers i x j = some w ∧ m ∈ w.sent := by
  rcases hacc m hm with h | ⟨j, w, hj, hsent⟩
  · exact .inl (hsettled h)
  · by_cases hne : j = i
    · subst hne
      rcases hx w hj hsent with h | ⟨w', rfl, hsent'⟩
      · exact .inl h
      · exact .inr ⟨j, w', by simp, hsent'⟩
    · exact .inr ⟨j, w, by simpa [hne] using hj, hsent⟩

/-- A rollback gives up exactly what its transaction has pushed. -/
theorem fail_accounted_iff (hi : Inv s) (hacc : Accounted s) (hw : s.workers i = some w) :
    Accounted { s with workers := Function.update s.workers i none } ↔ w.sent = [] := by
  constructor
  · intro h
    refine List.eq_nil_iff_forall_not_mem.mpr fun m hm => ?_
    have hmem : m ∈ w.sent ++ w.stage.call := List.mem_append_left _ hm
    rcases h m (hi.listed i w hw m hm) with hsettled | ⟨j, w', hj, hm'⟩
    · exact (hi.sound i w hw).not_settled hmem hsettled
    · rcases update_eq_some hj with ⟨-, hxw⟩ | ⟨hne, hj⟩
      · cases hxw
      · exact hne (hi.same_worker hw hj hmem (List.mem_append_left _ hm') rfl).symm
  · intro hnone m hm
    refine hacc.update hm id fun w' hw' hsent => ?_
    obtain rfl : w = w' := Option.some.inj (hw.symm.trans hw')
    rw [hnone] at hsent
    cases hsent

theorem step_accounted_iff (hi : Inv s) (hacc : Accounted s) (h : step cfg s a = some s') :
    Accounted s' ↔ Admits s a := by
  obtain ⟨i, held, rows, rfl, hw, -, rfl⟩ | ⟨i, env, w, w', new, rfl, hw, hnew, rfl⟩ |
    ⟨i, w, db, rfl, hw, hdone, hdb, rfl⟩ | ⟨i, w, rfl, hw, rfl⟩ | ⟨db, rfl, hforeign, rfl⟩ :=
    step_cases h
  · refine iff_of_true (fun m hm => hacc.update hm id fun w hw' => ?_) trivial
    rw [hw] at hw'
    cases hw'
  · refine iff_of_true (fun m hm => ?_) trivial
    rcases List.mem_append.mp hm with hm | hm
    · refine hacc.update hm id fun w₁ hw₁ hsent => .inr ⟨w', rfl, ?_⟩
      obtain rfl : w = w₁ := Option.some.inj (hw.symm.trans hw₁)
      rw [hnew.sent]
      exact List.mem_append_left _ hsent
    · refine .inr ⟨i, w', by simp, ?_⟩
      rw [hnew.sent]
      exact List.mem_append_right _ hm
  · refine iff_of_true (fun m hm => ?_) trivial
    rw [hdb]
    refine hacc.update hm Settled.view fun w₁ hw₁ hsent => .inl ?_
    obtain rfl : w = w₁ := Option.some.inj (hw.symm.trans hw₁)
    exact (hi.sound i w hw).settles hdone hsent
  · rw [fail_accounted_iff hi hacc hw]
    simp [Admits, hw]
  · refine iff_of_true (fun m hm => ?_) trivial
    rcases hacc m hm with hsettled | hheld
    · refine .inl fun o ho hupdate hnone => ?_
      rcases hforeign.2 o ho hnone with ho | hfresh
      · exact hsettled o ho hupdate hnone
      · exact hfresh m hm hupdate.symm
    · exact .inr hheld

end Invariant

/-- No transaction is open and `Send` was not called yet. -/
def idle (n : ℕ) (db : Database) : State n :=
  { db }

theorem idle_inv {db : Database} : Inv (idle n db) where
  sound := by simp [idle]
  apart := by simp [idle]
  listed := by simp [idle]

theorem idle_accounted {db : Database} : Accounted (idle n db) := by
  simp [idle, Accounted]

/-- No push is ever left without its outbox row held or processed, precisely if no
transaction fails once it has called `Send`. -/
theorem accounted_iff_admitted {db : Database} (as : List (Action n)) :
    Always (step cfg) Accounted (idle n db) as ↔ Each (step cfg) Admits (idle n db) as :=
  always_iff_each (J := Inv) (fun _ _ _ => step_inv) (fun _ _ _ => step_accounted_iff) idle_inv
    idle_accounted

/-- If no transaction fails once it has called `Send`, `Send` is called at most once for each
device and update, whatever the workers, the recipients and the outcomes of `Send`. -/
theorem pushed_once {db : Database} {as : List (Action n)}
    (h : Each (step cfg) Admits (idle n db) as) :
    Always (step cfg) AtMostOnce (idle n db) as := by
  have hkept : Always (step cfg) (fun s => Inv s ∧ Accounted s ∧ AtMostOnce s) (idle n db) as := by
    refine Each.always ?_ ⟨idle_inv, idle_accounted, by simp [idle, AtMostOnce]⟩ h
    intro s a s' ⟨hi, hacc, honce⟩ hadm hstep
    exact ⟨step_inv hi hstep, (step_accounted_iff hi hacc hstep).mpr hadm,
      step_once hi hacc honce hstep⟩
  exact hkept.mono fun s hs => hs.2.2

/-- A pending help update with one follower, whose installation has a token. -/
def pendingPush : Database where
  tables :=
    { users := [{ id := 2, phone := "+905551112233", phoneVerifiedAt := 0 },
        { id := 3, phone := "+905554445566", phoneVerifiedAt := 0 }]
      devices := [{ id := 30, tokenHash := "d", pushToken := some "t", platform := .ios,
                    userId := some 3 }]
      cats := [{ id := 1, name := none, area := ⟨41, 29⟩, createdAt := 0 }]
      updates := [{ id := 10, catId := 1, createdAt := 1, seq := 1, needsHelp := true,
                    needsHelpExpiresAt := some 9, authorUserId := some 2 }]
      follows := [{ userId := some 3, catId := 1 }]
      notificationOutbox := [{ id := 20, updateId := 10, catId := 1, needsHelpEligible := true,
                               createdAt := 2 }]
      updatesSeq := 2 }
  valid := by decide

/-- A worker claims the row, lists the follower, inserts the inbox row and calls `Send`. -/
def pushing (i : Fin 2) (id : UUID) : List (Action 2) :=
  [.claim i [], .run i (plainEnv id), .run i (plainEnv id), .run i (plainEnv id)]

/-- The first worker fails before it has pushed, and the second one takes over. -/
theorem second_worker_takes_over : Always (step plainConfig) AtMostOnce (idle 2 pendingPush)
    ([.claim 0 [], .run 0 (plainEnv 40), .claim 1 [], .fail 0, .commit 1] ++ pushing 1 41 ++
      [.claim 0 [], .run 1 (plainEnv 41), .commit 1, .commit 0, .claim 0 []]) :=
  pushed_once (by decide +kernel)

/-- The first worker fails after it has pushed, and the second one pushes again. -/
theorem second_worker_pushes_again : ¬ Always (step plainConfig) AtMostOnce (idle 2 pendingPush)
    (pushing 0 40 ++ [.fail 0] ++ pushing 1 41) :=
  not_always_of_test (by decide +kernel)

end Tekir.DispatchWorkers
