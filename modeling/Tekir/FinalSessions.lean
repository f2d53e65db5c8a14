import Tekir.SessionService

/-!
# The session that an operation leaves

A logout or a save is in force from its call until the next operation is called; a logout stays in
force while others follow. What the operation in force is to leave, and which cells it has written,
is kept beside the service for the statement only.
-/
namespace Tekir.FinalSessions
open Machine EventLoop SessionService

/-- The cache, or a key of the storage. -/
inductive Cell
  | cached
  | stored (key : Key)
  deriving DecidableEq

inductive Value
  | session (session : Option SessionIdentity)
  | accessToken (accessToken : Option AccessToken)
  | refreshToken (refreshToken : Option String)
  | userId (userId : Option UserId)
  deriving DecidableEq

def value (s : Service) : Cell → Value
  | .cached => .session s.cached
  | .stored .accessToken => .accessToken s.storage.accessToken
  | .stored .refreshToken => .refreshToken s.storage.refreshToken
  | .stored .userId => .userId s.storage.userId

/-- What the cell holds of a session, or of none. -/
def part (session : Option SessionIdentity) : Cell → Value
  | .cached => .session session
  | .stored .accessToken => .accessToken (session.map SessionIdentity.accessToken)
  | .stored .refreshToken => .refreshToken (session.map SessionIdentity.refreshToken)
  | .stored .userId => .userId (session.map SessionIdentity.userId)

/-- With the last key the cache is written. -/
def withCache (key : Key) : List Cell :=
  if key.next = none then [.stored key, .cached] else [.stored key]

/-- The cells that an answer writes, and the session that they are written with. -/
def overwrites (s : Service) : Task → Reply → Option (Option SessionIdentity × List Cell)
  | .readUserId refreshToken, .done =>
    if refreshToken.isSome && s.storage.userId.isSome then none else some (none, [.cached])
  | .persist _ session key, .done => some (some session, withCache key)
  | .clear (.rotation _) key, .done => some (none, withCache key)
  | .clear (.logout _) key, .done => some (none, [.stored key])
  | .logoutReadRefreshToken _, .done => if s.cached.isSome then some (none, [.cached]) else none
  | .logoutReadAccessToken _ _, .done => some (none, [.cached])
  | _, _ => none

/-- The same for a call. -/
def drops (s : Service) : Call → Option (Option SessionIdentity × List Cell)
  | .logout _ => if s.cached.isSome then some (none, [.cached]) else none
  | _ => none

def cells (o : Option (Option SessionIdentity × List Cell)) : List Cell :=
  (o.map Prod.snd).getD []

/-- Whether a logout or a save returns with the answer. -/
def returns : Task → Reply → Bool
  | .persist none _ .userId, .done => true
  | .clear (.logout r) .userId, .done => r.refreshToken.isNone
  | .revoke _, _ => true
  | _, _ => false

structure Client where
  service : Service := {}
  /-- How many operations have come into force. -/
  era : ℕ := 0
  /-- What the operation in force leaves, if it is a logout or a save. -/
  goal : Option (Option SessionIdentity) := none
  /-- What it has written. -/
  written : List Cell := []
  returned : Bool := false
  deriving DecidableEq

/-- A task of the operation that came into force as the `era`-th. -/
structure Waiting where
  era : ℕ
  task : Task
  deriving DecidableEq

def Client.enter (c : Client) (goal : Option (Option SessionIdentity)) : Client :=
  { c with era := c.era + 1, goal, written := [], returned := false }

def entered (c : Client) : Call → Client
  | .restore | .refreshIfExpired _ => c.enter none
  | .save identity => c.enter (some (some identity))
  | .logout _ =>
    if c.goal = some none then c else c.enter (some none)

def begin (c : Client) (i : Call) : Client :=
  { entered c i with written := cells (drops c.service i) ++ (entered c i).written }

def advance (c : Client) (w : Waiting) (r : Reply) : Client :=
  if w.era = c.era then
    { c with
      written := cells (overwrites c.service w.task r) ++ c.written
      returned := c.returned || returns w.task r }
  else c

def handlers : Handlers Client Waiting Call Reply where
  call c i :=
    let c' := begin c i
    let t := call c.service i
    some ({ c' with service := t.1 }, t.2.map (Waiting.mk c'.era))
  resume c w r := (resume c.service w.task r).map fun t =>
    ({ advance c w r with service := t.1 }, t.2.map (Waiting.mk w.era))

def stored (session : Option SessionIdentity) : Storage :=
  ⟨session.map SessionIdentity.accessToken, session.map SessionIdentity.refreshToken,
    session.map SessionIdentity.userId⟩

/-- Once a logout or a save in force has returned, the cache and the keys are as it leaves them. -/
def Final (c : Client) : Prop :=
  ∀ session ∈ c.goal, c.returned = true →
    c.service.cached = session ∧ c.service.storage = stored session

instance : DecidablePred Final := fun c =>
  inferInstanceAs (Decidable (∀ session ∈ c.goal, _ = true → _ ∧ _))

/-- An operation that is not in force any more writes no cell that the one in force has written,
unless with what it holds. -/
def guard : Guard Client Waiting Call Reply where
  answer c w r := w.era ≠ c.era → ∀ o ∈ overwrites c.service w.task r, ∀ cell ∈ o.2,
    cell ∈ c.written → ∀ session ∈ c.goal, part o.1 cell = part session cell

instance (c : Client) (i : Call) : Decidable (guard.call c i) :=
  inferInstanceAs (Decidable True)

instance (c : Client) (w : Waiting) (r : Reply) : Decidable (guard.answer c w r) :=
  inferInstanceAs (Decidable (w.era ≠ c.era → ∀ o ∈ overwrites c.service w.task r, ∀ cell ∈ o.2,
    cell ∈ c.written → ∀ session ∈ c.goal, part o.1 cell = part session cell))

section Values

variable {s : Service} {session : Option SessionIdentity} {cell : Cell} {task : Task} {r : Reply}

/-- What the cells hold after a write. -/
def after (s : Service) (o : Option (Option SessionIdentity × List Cell)) (cell : Cell) : Value :=
  match o with
  | none => value s cell
  | some (session, cells) => if cell ∈ cells then part session cell else value s cell

theorem value_put (key : Key) : value { s with storage := s.storage.put session key } cell =
    after s (some (session, [.stored key])) cell := by
  cases key <;> cases cell with
  | cached => rfl
  | stored key => cases key <;> rfl

theorem value_cached {restoreFuture refreshFuture : Bool} :
    value { s with cached := session, restoreFuture, refreshFuture } cell =
      after s (some (session, [.cached])) cell := by
  cases cell with
  | cached => rfl
  | stored key => cases key <;> rfl

theorem value_futures {restoreFuture refreshFuture : Bool} :
    value { s with restoreFuture, refreshFuture } cell = value s cell := by
  cases cell with
  | cached => rfl
  | stored key => cases key <;> rfl

/-- The last key and the cache are written together. -/
theorem value_last {restoreFuture refreshFuture : Bool} :
    value { s with
      storage := s.storage.put session .userId, cached := session, restoreFuture
      refreshFuture } cell = after s (some (session, withCache .userId)) cell := by
  cases cell with
  | cached => rfl
  | stored key => cases key <;> rfl

theorem value_rotated_last (rotation : Rotation) :
    value (rotated { s with storage := s.storage.put session .userId } session rotation) cell =
      after s (some (session, withCache .userId)) cell := by
  cases rotation <;> exact value_last

theorem value_rotationFailed (rotation : Rotation) :
    value (rotationFailed s rotation) cell = value s cell := by
  cases rotation <;> exact value_futures

theorem resume_value {t : Service × List Task} (h : resume s task r = some t) (cell : Cell) :
    value t.1 cell = after s (overwrites s task r) cell := by
  unfold resume at h
  split at h
  case h_1 | h_5 | h_6 | h_7 | h_11 | h_14 | h_17 | h_18 | h_19 | h_20 | h_21 =>
    cases h
    rfl
  case h_2 =>
    split at h
    case h_1 refreshToken userId huser =>
      cases h
      rw [overwrites, huser]
      rfl
    case h_2 refreshToken _ _ hmissing =>
      cases h
      cases hrefresh : refreshToken with
      | none => exact value_cached
      | some refresh =>
        cases huser : s.storage.userId with
        | none =>
          rw [overwrites, huser]
          exact value_cached
        | some userId => exact (hmissing refresh userId hrefresh huser).elim
  case h_3 | h_4 =>
    cases h
    exact value_rotationFailed .restore
  case h_8 | h_10 | h_13 =>
    cases h
    exact value_rotationFailed _
  case h_9 rotation session key =>
    cases h
    cases key with
    | accessToken => exact value_put .accessToken
    | refreshToken => exact value_put .refreshToken
    | userId =>
      cases rotation with
      | none => exact value_last
      | some rotation => exact value_rotated_last rotation
  case h_12 clearing key =>
    cases h
    cases clearing with
    | rotation rotation =>
      cases key with
      | accessToken => exact value_put .accessToken
      | refreshToken => exact value_put .refreshToken
      | userId => exact value_rotated_last rotation
    | logout revocation => cases key <;> exact value_put _
  case h_15 deviceToken =>
    cases h
    cases hcached : s.cached with
    | none =>
      rw [overwrites, hcached]
      rfl
    | some current =>
      rw [overwrites, hcached]
      exact value_cached
  case h_16 =>
    cases h
    exact value_cached
  case h_22 => cases h

theorem call_value (i : Call) (cell : Cell) :
    value (call s i).1 cell = after s (drops s i) cell := by
  cases i with
  | restore =>
    rw [call]
    split
    · rfl
    · exact value_futures
  | refreshIfExpired now =>
    rw [call]
    split
    · rfl
    · split
      · rfl
      · exact value_futures
  | save identity => rfl
  | logout deviceToken =>
    cases hcached : s.cached with
    | none =>
      rw [call, drops, hcached]
      rfl
    | some current =>
      rw [call, drops, hcached]
      exact value_cached

variable {s' : Service} {o : Option (Option SessionIdentity × List Cell)} {written : List Cell}

/-- The cells hold the session. -/
def Agree (s : Service) (session : Option SessionIdentity) (written : List Cell) : Prop :=
  ∀ cell ∈ written, value s cell = part session cell

/-- What is written with the session holds it. -/
theorem Agree.own (h : Agree s session written) (hvalue : ∀ cell, value s' cell = after s o cell)
    (ho : ∀ u ∈ o, u.1 = session) : Agree s' session (cells o ++ written) := by
  intro cell hcell
  rw [hvalue]
  cases o with
  | none => exact h cell hcell
  | some u =>
    obtain rfl : u.1 = session := ho u rfl
    dsimp only [after]
    split
    · rfl
    case isFalse hcells =>
      exact h cell ((List.mem_append.mp hcell).resolve_left hcells)

/-- Another session that is written where they are the same is as good. -/
theorem Agree.other (h : Agree s session written) (hvalue : ∀ cell, value s' cell = after s o cell)
    (ho : ∀ u ∈ o, ∀ cell ∈ u.2, cell ∈ written → part u.1 cell = part session cell) :
    Agree s' session written := by
  intro cell hcell
  rw [hvalue]
  cases o with
  | none => exact h cell hcell
  | some u =>
    dsimp only [after]
    split
    case isTrue hcells => exact ho u rfl cell hcells hcell
    · exact h cell hcell

theorem Agree.stored (h : Agree s session written) (hall : ∀ cell, cell ∈ written) :
    s.cached = session ∧ s.storage = stored session := by
  have hvalue : ∀ cell, value s cell = part session cell := fun cell => h cell (hall cell)
  refine ⟨Value.session.inj (hvalue .cached), ?_⟩
  have haccess := Value.accessToken.inj (hvalue (.stored .accessToken))
  have hrefresh := Value.refreshToken.inj (hvalue (.stored .refreshToken))
  have huser := Value.userId.inj (hvalue (.stored .userId))
  calc s.storage = ⟨s.storage.accessToken, s.storage.refreshToken, s.storage.userId⟩ := rfl
    _ = FinalSessions.stored session := by rw [haccess, hrefresh, huser]; rfl

end Values

section Stages

variable {s : Service} {session : Option SessionIdentity} {written : List Cell} {task : Task}
  {r : Reply} {t : Service × List Task}

/-- The keys that are written before the key. -/
def before : Key → List Cell
  | .accessToken => []
  | .refreshToken => [.stored .accessToken]
  | .userId => [.stored .accessToken, .stored .refreshToken]

/-- How far the operation is that leaves the session. -/
def Stage (session : Option SessionIdentity) (written : List Cell) : Task → Prop
  | .persist none session' key => session = some session' ∧ ∀ cell ∈ before key, cell ∈ written
  | .clear (.logout _) key =>
    session = none ∧ .cached ∈ written ∧ ∀ cell ∈ before key, cell ∈ written
  | .revoke _ => session = none ∧ ∀ cell, cell ∈ written
  | .logoutReadRefreshToken _ | .logoutReadAccessToken _ _ => session = none
  | _ => False

theorem Stage.mono {written' : List Cell} (hwritten : ∀ cell ∈ written, cell ∈ written')
    (h : Stage session written task) : Stage session written' task := by
  unfold Stage at h ⊢
  split at h
  · exact ⟨h.1, fun cell hcell => hwritten cell (h.2 cell hcell)⟩
  · exact ⟨h.1, hwritten _ h.2.1, fun cell hcell => hwritten cell (h.2.2 cell hcell)⟩
  · exact ⟨h.1, fun cell => hwritten cell (h.2 cell)⟩
  · exact h
  · exact h
  · exact h

/-- The operation writes what it leaves, goes on to its next stage and returns after the last. -/
structure Progress (session : Option SessionIdentity) (written : List Cell)
    (o : Option (Option SessionIdentity × List Cell)) (tasks : List Task) (last : Bool) : Prop where
  writes : ∀ u ∈ o, u.1 = session
  stage : ∀ task ∈ tasks, Stage session (cells o ++ written) task
  last : last = true → ∀ cell, cell ∈ cells o ++ written

theorem mem_all (hcached : .cached ∈ written) (huser : .stored .userId ∈ written)
    (hbefore : ∀ cell ∈ before .userId, cell ∈ written) (cell : Cell) : cell ∈ written := by
  cases cell with
  | cached => exact hcached
  | stored key =>
    cases key with
    | accessToken => exact hbefore _ (.head _)
    | refreshToken => exact hbefore _ (.tail _ (.head _))
    | userId => exact huser

theorem before_next {key key' : Key} (hnext : key.next = some key') {more : List Cell}
    (h : ∀ cell ∈ before key, cell ∈ written) (hkey : .stored key ∈ more) :
    ∀ cell ∈ before key', cell ∈ more ++ written := by
  intro cell hcell
  cases key <;> cases hnext
  · rw [List.mem_singleton.mp hcell]
    exact List.mem_append_left _ hkey
  · rcases List.mem_cons.mp hcell with rfl | hcell
    · exact List.mem_append_right _ (h _ (.head _))
    · rw [List.mem_singleton.mp hcell]
      exact List.mem_append_left _ hkey

theorem persist_progress {session' : SessionIdentity} {key : Key}
    (h : Stage session written (.persist none session' key))
    (hresume : resume s (.persist none session' key) r = some t) :
    Progress session written (overwrites s (.persist none session' key) r) t.2
      (returns (.persist none session' key) r) := by
  obtain ⟨rfl, hbefore⟩ := h
  cases r with
  | tokens _ _ | refused => cases hresume
  | thrown =>
    cases hresume
    exact ⟨nofun, nofun, by cases key <;> nofun⟩
  | done =>
    cases hresume
    have hwrites : ∀ u ∈ some (some session', withCache key), u.1 = some session' :=
      fun u hu => Option.some_inj.mp hu ▸ rfl
    cases hkey : key with
    | accessToken | refreshToken =>
      refine ⟨hkey ▸ hwrites, List.forall_mem_singleton.mpr ⟨rfl, ?_⟩, nofun⟩
      exact before_next rfl (hkey ▸ hbefore) (.head _)
    | userId =>
      refine ⟨hkey ▸ hwrites, nofun, fun _ => mem_all ?_ ?_ ?_⟩
      · exact .tail _ (.head _)
      · exact .head _
      · exact fun cell hcell => List.mem_append_right _ ((hkey ▸ hbefore) cell hcell)

theorem clear_progress {revocation : Revocation} {key : Key}
    (h : Stage session written (.clear (.logout revocation) key))
    (hresume : resume s (.clear (.logout revocation) key) r = some t) :
    Progress session written (overwrites s (.clear (.logout revocation) key) r) t.2
      (returns (.clear (.logout revocation) key) r) := by
  obtain ⟨rfl, hcached, hbefore⟩ := h
  cases r with
  | tokens _ _ | refused => cases hresume
  | thrown =>
    cases hresume
    exact ⟨nofun, nofun, by cases key <;> nofun⟩
  | done =>
    cases hresume
    have hwrites : ∀ u ∈ some ((none : Option SessionIdentity), [Cell.stored key]), u.1 = none :=
      fun u hu => Option.some_inj.mp hu ▸ rfl
    cases hkey : key with
    | accessToken | refreshToken =>
      refine ⟨hkey ▸ hwrites, List.forall_mem_singleton.mpr ⟨rfl, .tail _ hcached, ?_⟩, nofun⟩
      exact before_next rfl (hkey ▸ hbefore) (.head _)
    | userId =>
      have hall : ∀ cell, cell ∈ [Cell.stored .userId] ++ written :=
        mem_all (.tail _ hcached) (.head _) fun cell hcell =>
          List.mem_append_right _ ((hkey ▸ hbefore) cell hcell)
      refine ⟨hkey ▸ hwrites, fun task htask => ?_, fun _ => hall⟩
      change task ∈ if revocation.refreshToken.isSome then [Task.revoke revocation] else [] at htask
      split at htask
      · rw [List.mem_singleton.mp htask]
        exact ⟨rfl, hall⟩
      · cases htask

theorem resume_progress (h : Stage session written task) (hresume : resume s task r = some t) :
    Progress session written (overwrites s task r) t.2 (returns task r) := by
  unfold Stage at h
  split at h
  · exact persist_progress h hresume
  · exact clear_progress h hresume
  · cases r <;> cases hresume <;> exact ⟨nofun, nofun, fun _ => h.2⟩
  case h_4 deviceToken =>
    cases r with
    | tokens _ _ | refused => cases hresume
    | thrown =>
      cases hresume
      exact ⟨nofun, nofun, nofun⟩
    | done =>
      cases hresume
      rw [overwrites]
      cases hcached : s.cached with
      | none => exact ⟨nofun, List.forall_mem_singleton.mpr h, nofun⟩
      | some current =>
        refine ⟨fun u hu => Option.some_inj.mp hu ▸ h.symm, ?_, nofun⟩
        exact List.forall_mem_singleton.mpr ⟨h, .head _, nofun⟩
  case h_5 refreshToken deviceToken =>
    cases r with
    | tokens _ _ | refused => cases hresume
    | thrown =>
      cases hresume
      exact ⟨nofun, nofun, nofun⟩
    | done =>
      cases hresume
      refine ⟨fun u hu => Option.some_inj.mp hu ▸ h.symm, ?_, nofun⟩
      exact List.forall_mem_singleton.mpr ⟨h, .head _, nofun⟩
  case h_6 => exact h.elim

theorem call_progress {revocation : Option String} :
    Progress none written (drops s (.logout revocation)) (call s (.logout revocation)).2 false := by
  rw [drops, call]
  cases s.cached with
  | none => exact ⟨nofun, List.forall_mem_singleton.mpr rfl, nofun⟩
  | some current =>
    refine ⟨fun u hu => Option.some_inj.mp hu ▸ rfl, ?_, nofun⟩
    exact List.forall_mem_singleton.mpr ⟨rfl, .head _, nofun⟩

end Stages

section Invariant

variable {c c' : Client} {w : Waiting} {r : Reply} {i : Call} {t : Client × List Waiting}

structure Sound (c : Client) : Prop where
  agree : ∀ session ∈ c.goal, Agree c.service session c.written
  all : c.goal.isSome = true → c.returned = true → ∀ cell, cell ∈ c.written

/-- What waits for the operation in force is at a stage of it. -/
structure Pending (c : Client) (w : Waiting) : Prop where
  le : w.era ≤ c.era
  stage : w.era = c.era → ∀ session ∈ c.goal, Stage session c.written w.task

theorem Sound.final (h : Sound c) : Final c := by
  intro session hgoal hreturned
  exact (h.agree session hgoal).stored (h.all (Option.isSome_of_mem hgoal) hreturned)

/-- The operation in force goes on. -/
theorem own_keeps {era : ℕ} {s : Service} {tasks : List Task}
    {o : Option (Option SessionIdentity × List Cell)} {last : Bool} (h : Sound c)
    (hvalue : ∀ cell, value s cell = after c.service o cell) (hera : era = c.era)
    (hprogress : ∀ session ∈ c.goal, Progress session c.written o tasks last) :
    Keeps Sound Pending c ({ c with
      service := s, written := cells o ++ c.written, returned := c.returned || last },
      tasks.map (Waiting.mk era)) := by
  refine ⟨⟨fun session hgoal => ?_, fun hsome hreturned cell => ?_⟩, fun w hw => ?_, fun w hw => ?_⟩
  · exact (h.agree session hgoal).own hvalue (hprogress session hgoal).writes
  · obtain ⟨session, hgoal⟩ := Option.isSome_iff_exists.mp hsome
    rcases Bool.or_eq_true_iff.mp hreturned with hreturned | hlast
    · exact List.mem_append_right _ (h.all hsome hreturned cell)
    · exact (hprogress session hgoal).last hlast cell
  · exact ⟨hw.le, fun hera session hgoal =>
      (hw.stage hera session hgoal).mono fun _ => List.mem_append_right _⟩
  · obtain ⟨task, htask, rfl⟩ := List.mem_map.mp hw
    exact ⟨Nat.le_of_eq hera, fun _ session hgoal => (hprogress session hgoal).stage task htask⟩

/-- Another operation comes into force. -/
theorem enter_keeps {goal : Option (Option SessionIdentity)} {s : Service} {tasks : List Task}
    {o : Option (Option SessionIdentity × List Cell)}
    (hvalue : ∀ cell, value s cell = after c.service o cell)
    (hprogress : ∀ session ∈ goal, Progress session [] o tasks false) :
    Keeps Sound Pending c ({ c.enter goal with service := s, written := cells o ++ [] },
      tasks.map (Waiting.mk (c.era + 1))) := by
  refine ⟨⟨fun session hgoal => ?_, nofun⟩, fun w hw => ?_, fun w hw => ?_⟩
  · exact Agree.own (s := c.service) nofun hvalue (hprogress session hgoal).writes
  · exact ⟨Nat.le_succ_of_le hw.le, fun hera =>
      absurd (hera ▸ hw.le) (Nat.not_succ_le_self _)⟩
  · obtain ⟨task, htask, rfl⟩ := List.mem_map.mp hw
    exact ⟨Nat.le_refl _, fun _ session hgoal => (hprogress session hgoal).stage task htask⟩

theorem call_keeps (h : Sound c) (hcall : handlers.call c i = some t) :
    Keeps Sound Pending c t := by
  cases hcall
  have hvalue := call_value (s := c.service) i
  cases i with
  | restore | refreshIfExpired now => exact enter_keeps hvalue nofun
  | save identity =>
    refine enter_keeps hvalue fun session hgoal => ⟨nofun, ?_, nofun⟩
    exact List.forall_mem_singleton.mpr ⟨(Option.some_inj.mp hgoal).symm, nofun⟩
  | logout deviceToken =>
    by_cases hgoal : c.goal = some none
    · have hentered : entered c (.logout deviceToken) = c := if_pos hgoal
      simp only [begin, hentered]
      refine Bool.or_false c.returned ▸ own_keeps h hvalue rfl fun session hsession => ?_
      cases hgoal.symm.trans hsession
      exact call_progress
    · have hentered : entered c (.logout deviceToken) = c.enter (some none) := if_neg hgoal
      simp only [begin, hentered]
      refine enter_keeps hvalue fun session hsession => ?_
      cases hsession
      exact call_progress

theorem resume_keeps (h : Sound c) (hw : Pending c w) (hguard : guard.answer c w r)
    (hresume : handlers.resume c w r = some t) : Keeps Sound Pending c t := by
  obtain ⟨u, hu, rfl⟩ := Option.map_eq_some_iff.mp hresume
  have hvalue := resume_value hu
  by_cases hera : w.era = c.era
  · simp only [advance, if_pos hera]
    exact own_keeps h hvalue hera fun session hgoal =>
      resume_progress (hw.stage hera session hgoal) hu
  · simp only [advance, if_neg hera]
    refine ⟨⟨fun session hgoal => ?_, h.all⟩, fun w hw => ⟨hw.le, hw.stage⟩, fun w' hw' => ?_⟩
    · exact (h.agree session hgoal).other hvalue fun o ho cell hcell hwritten =>
        hguard hera o ho cell hcell hwritten session hgoal
    · obtain ⟨task, -, rfl⟩ := List.mem_map.mp hw'
      exact ⟨hw.le, fun heq => absurd heq hera⟩

end Invariant

/-- In every run of turns that the guard admits, from any storage, what a logout or a save has left
stays until the next operation is called. -/
theorem sessions_final {storage : Storage} {es : List (Event Call Reply)}
    (h : Each handlers.next guard.Admits ⟨{ service := { storage } }, []⟩ es) :
    Always handlers.next (fun l => Final l.state) ⟨{ service := { storage } }, []⟩ es := by
  refine (Held.always (I := Sound) (J := Pending) (fun _ _ _ hc _ => call_keeps hc)
    (fun _ _ _ _ => resume_keeps) ?_ h).mono fun l hl => hl.state.final
  exact ⟨⟨nofun, nofun⟩, nofun⟩

def mine : SessionIdentity := ⟨⟨"mine", some 100⟩, "refresh", "1"⟩

def next : AccessToken := ⟨"next", some 2000⟩

/-- A session is restored, rotated and dropped, and another one is saved while the rotation of the
first has not yet been refused. -/
theorem sessions_final_after_rotation :
    Always handlers.next (fun l => Final l.state)
      ⟨{ service := { storage := stored (some mine) } }, []⟩
      [.call .restore, .answer 0 .done, .answer 0 .done, .answer 0 (.tokens next "refresh"),
        .answer 0 .done, .answer 0 .done, .answer 0 .done, .call (.refreshIfExpired 1990000),
        .call (.save mine), .answer 0 .thrown, .answer 0 .done, .answer 0 .done, .answer 0 .done,
        .call (.logout none), .answer 0 .done, .call (.logout none), .answer 0 .done,
        .answer 0 .done, .answer 0 .refused, .answer 0 .done, .answer 0 .done] :=
  sessions_final (by decide)

/-- A rotation is answered after the logout has returned. -/
theorem session_back_after_logout :
    ¬ Always handlers.next (fun l => Final l.state) ⟨{}, []⟩
      [.call (.save mine), .answer 0 .done, .answer 0 .done, .answer 0 .done,
        .call (.refreshIfExpired 200000), .call (.logout none), .answer 1 .done, .answer 1 .done,
        .answer 1 .done, .answer 1 .done, .answer 0 (.tokens next "refresh"), .answer 0 .done,
        .answer 0 .done, .answer 0 .done] :=
  not_always_of_test (by decide)

end Tekir.FinalSessions
