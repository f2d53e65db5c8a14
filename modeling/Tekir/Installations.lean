import Tekir.EventLoop

/-!
# The installation's identity

`DeviceIdentityService` of the client: the identity that an installation registers for with
`POST /v1/devices`, the two keys of the secure storage, and the future that concurrent calls of
`init` share. The process may end at any moment and start again with what is stored. A write to
the storage that throws has stored nothing.
-/
namespace Tekir.Installations
open EventLoop Machine

structure DeviceIdentity where
  deviceId : String
  deviceToken : String
  deriving DecidableEq

structure Storage where
  deviceId : Option String := none
  deviceToken : Option String := none
  deriving DecidableEq

structure Service where
  cached : Option DeviceIdentity := none
  /-- Whether `_initFuture` is set. -/
  initFuture : Bool := false
  storage : Storage := {}
  deriving DecidableEq

inductive Task
  | readDeviceId
  | readDeviceToken (storedId : Option String)
  /-- `POST /v1/devices` -/
  | register
  | writeDeviceId (identity : DeviceIdentity)
  | writeDeviceToken (identity : DeviceIdentity)
  | deleteDeviceId
  | deleteDeviceToken
  deriving DecidableEq

inductive Call | init | resetFailedInit | invalidate
  deriving DecidableEq

inductive Reply
  | done
  /-- A 2xx answer to the registration, with the members that it has. -/
  | answered (deviceId deviceToken : Option String)
  | thrown
  deriving DecidableEq

/-- The callback of `_loadOrRegister`'s future. -/
def loaded (s : Service) (identity : Option DeviceIdentity) : Service :=
  { s with cached := identity, initFuture := s.initFuture && identity.isSome }

/-- `onError` of `_loadOrRegister`'s future. -/
def failed (s : Service) : Service :=
  { s with initFuture := false }

def call (s : Service) : Call → Service × List Task
  | .init =>
    if s.cached.isSome || s.initFuture then (s, [])
    else ({ s with initFuture := true }, [.readDeviceId])
  | .resetFailedInit => (if s.cached.isNone then failed s else s, [])
  | .invalidate => ({ s with cached := none, initFuture := false }, [.deleteDeviceId])

def resume (s : Service) : Task → Reply → Option (Service × List Task)
  | .readDeviceId, .done => some (s, [.readDeviceToken s.storage.deviceId])
  | .readDeviceToken storedId, .done => some <|
    match storedId, s.storage.deviceToken with
    | some deviceId, some deviceToken => (loaded s (some { deviceId, deviceToken }), [])
    | _, _ => (s, [.register])
  | .register, .answered (some deviceId) (some deviceToken) =>
    some (s, [.writeDeviceId { deviceId, deviceToken }])
  | .register, .answered _ _ => some (loaded s none, [])
  | .writeDeviceId d, .done =>
    some ({ s with storage.deviceId := some d.deviceId }, [.writeDeviceToken d])
  | .writeDeviceToken d, .done =>
    some (loaded { s with storage.deviceToken := some d.deviceToken } (some d), [])
  | .readDeviceId, .thrown | .readDeviceToken _, .thrown | .register, .thrown
  | .writeDeviceId _, .thrown | .writeDeviceToken _, .thrown => some (failed s, [])
  | .deleteDeviceId, .done =>
    some ({ s with storage.deviceId := none }, [.deleteDeviceToken])
  | .deleteDeviceToken, .done => some ({ s with storage.deviceToken := none }, [])
  | .deleteDeviceId, .thrown | .deleteDeviceToken, .thrown => some (s, [])
  | _, _ => none

/-- The service, and what the server has registered for it, the newest first. -/
structure App where
  service : Service := {}
  issued : List DeviceIdentity := []
  deriving DecidableEq

inductive Outcome
  | reply (r : Reply)
  /-- The server registers, and its answer is lost. -/
  | lost (identity : DeviceIdentity)
  deriving DecidableEq

/-- What an answer says that the server has registered. -/
def Reply.registered : Reply → List DeviceIdentity
  | .answered (some deviceId) (some deviceToken) => [{ deviceId, deviceToken }]
  | _ => []

def App.resume (a : App) (task : Task) : Outcome → Option (App × List Task)
  | .reply r => (Installations.resume a.service task r).map fun t =>
      ({ service := t.1, issued := r.registered ++ a.issued }, t.2)
  | .lost identity =>
    if task = .register then
      (Installations.resume a.service task .thrown).map fun t =>
        ({ service := t.1, issued := identity :: a.issued }, t.2)
    else none

def handlers : Handlers App Task Call Outcome where
  call a i :=
    let t := call a.service i
    some ({ a with service := t.1 }, t.2)
  resume := App.resume

inductive Act
  | event (e : Event Call Outcome)
  /-- The process ends and another one starts. The server may still carry out a registration
  that was under way. -/
  | restart (late : Option DeviceIdentity)

def step (l : Loop App Task) : Act → Option (Loop App Task)
  | .event e => handlers.next l e
  | .restart none =>
    some ⟨{ l.state with service := { storage := l.state.service.storage } }, []⟩
  | .restart (some identity) =>
    if Task.register ∈ l.waiting then
      some ⟨{ service := { storage := l.state.service.storage }
              issued := identity :: l.state.issued }, []⟩
    else none

/-- The identity that a task is about to store. -/
def Task.identity : Task → Option DeviceIdentity
  | .writeDeviceId d | .writeDeviceToken d => some d
  | _ => none

section Turns

variable {a a' : App} {task : Task} {r : Outcome} {ws : List Task}

/-- The turns of the operations under way, each with what it leaves and what waits then. -/
inductive Turn (a : App) : Task → Outcome → App → List Task → Prop where
  | readDeviceId :
      Turn a .readDeviceId (.reply .done) a [.readDeviceToken a.service.storage.deviceId]
  | found {deviceId deviceToken} (h : a.service.storage.deviceToken = some deviceToken) :
      Turn a (.readDeviceToken (some deviceId)) (.reply .done)
        { a with service := loaded a.service (some { deviceId, deviceToken }) } []
  | missing {storedId} (h : storedId = none ∨ a.service.storage.deviceToken = none) :
      Turn a (.readDeviceToken storedId) (.reply .done) a [.register]
  | registered (d : DeviceIdentity) :
      Turn a .register (.reply (.answered (some d.deviceId) (some d.deviceToken)))
        { a with issued := d :: a.issued } [.writeDeviceId d]
  | malformed {deviceId deviceToken} (h : deviceId = none ∨ deviceToken = none) :
      Turn a .register (.reply (.answered deviceId deviceToken))
        { a with service := loaded a.service none } []
  | writeDeviceId (d : DeviceIdentity) :
      Turn a (.writeDeviceId d) (.reply .done)
        { a with service := { a.service with storage.deviceId := some d.deviceId } }
        [.writeDeviceToken d]
  | writeDeviceToken (d : DeviceIdentity) :
      Turn a (.writeDeviceToken d) (.reply .done)
        { a with service :=
            loaded { a.service with storage.deviceToken := some d.deviceToken } (some d) } []
  | deleteDeviceId :
      Turn a .deleteDeviceId (.reply .done)
        { a with service := { a.service with storage.deviceId := none } } [.deleteDeviceToken]
  | deleteDeviceToken :
      Turn a .deleteDeviceToken (.reply .done)
        { a with service := { a.service with storage.deviceToken := none } } []
  | fails {task : Task} (h : task ≠ .deleteDeviceId ∧ task ≠ .deleteDeviceToken) :
      Turn a task (.reply .thrown) { a with service := failed a.service } []
  | deletionFails {task : Task} (h : task = .deleteDeviceId ∨ task = .deleteDeviceToken) :
      Turn a task (.reply .thrown) a []
  | lost (d : DeviceIdentity) :
      Turn a .register (.lost d) { service := failed a.service, issued := d :: a.issued } []

theorem turn_of_readDeviceToken {storedId : Option String} {service : Service} {tasks : List Task}
    (hr : resume a.service (.readDeviceToken storedId) .done = some (service, tasks)) :
    Turn a (.readDeviceToken storedId) (.reply .done) { a with service } tasks := by
  cases storedId with
  | none =>
    cases hr
    exact .missing (.inl rfl)
  | some deviceId =>
    cases htoken : a.service.storage.deviceToken with
    | none =>
      simp only [resume, htoken] at hr
      cases hr
      exact .missing (.inr htoken)
    | some deviceToken =>
      simp only [resume, htoken] at hr
      cases hr
      exact .found htoken

theorem turn_of_answered {deviceId deviceToken : Option String} {service : Service}
    {tasks : List Task}
    (hr : resume a.service .register (.answered deviceId deviceToken) = some (service, tasks)) :
    Turn a .register (.reply (.answered deviceId deviceToken))
      { service, issued := (Reply.answered deviceId deviceToken).registered ++ a.issued }
      tasks := by
  cases deviceId with
  | none =>
    cases hr
    exact .malformed (.inl rfl)
  | some deviceId =>
    cases deviceToken with
    | none =>
      cases hr
      exact .malformed (.inr rfl)
    | some deviceToken =>
      cases hr
      exact .registered { deviceId, deviceToken }

theorem turn_of_thrown {service : Service} {tasks : List Task}
    (hr : resume a.service task .thrown = some (service, tasks)) :
    Turn a task (.reply .thrown) { a with service } tasks := by
  cases task with
  | deleteDeviceId =>
    cases hr
    exact .deletionFails (.inl rfl)
  | deleteDeviceToken =>
    cases hr
    exact .deletionFails (.inr rfl)
  | _ =>
    cases hr
    exact .fails (by simp)

theorem turn_of_done {service : Service} {tasks : List Task}
    (hr : resume a.service task .done = some (service, tasks)) :
    Turn a task (.reply .done) { a with service } tasks := by
  cases task with
  | readDeviceId =>
    cases hr
    exact .readDeviceId
  | readDeviceToken storedId => exact turn_of_readDeviceToken hr
  | register => cases hr
  | writeDeviceId d =>
    cases hr
    exact .writeDeviceId d
  | writeDeviceToken d =>
    cases hr
    exact .writeDeviceToken d
  | deleteDeviceId =>
    cases hr
    exact .deleteDeviceId
  | deleteDeviceToken =>
    cases hr
    exact .deleteDeviceToken

theorem turn_of_resume (hr : a.resume task r = some (a', ws)) : Turn a task r a' ws := by
  cases r with
  | lost d =>
    by_cases hregister : task = .register
    · subst hregister
      cases hr
      exact .lost d
    · rw [App.resume, if_neg hregister] at hr
      cases hr
  | reply r =>
    obtain ⟨⟨service, tasks⟩, hresume, hr⟩ := Option.map_eq_some_iff.mp hr
    cases hr
    cases r with
    | done => exact turn_of_done hresume
    | thrown => exact turn_of_thrown hresume
    | answered deviceId deviceToken =>
      cases task with
      | register => exact turn_of_answered hresume
      | _ => cases hresume

end Turns

/-- An option that is not there has every property. -/
theorem forall_mem_of_eq_none {α : Type} {p : α → Prop} {x : Option α} (h : x = none) :
    ∀ y ∈ x, p y := by
  rw [h]
  intro y hy
  cases hy

section Runs

variable {a a' : App} {l l' : Loop App Task} {n : ℕ} {task : Task} {r : Outcome} {act : Act}
  {acts : List Act} {ws : List Task}

/-- Nothing but `init` is called. -/
def Plain : Act → Prop
  | .event (.call i) => i = .init
  | _ => True

def Outcome.loss : Outcome → ℕ
  | .reply .thrown | .lost _ => 1
  | _ => 0

/-- What may cost a registration: an operation that fails, and the end of a process. -/
def loss : Act → ℕ
  | .event (.answer _ r) => r.loss
  | .event (.call _) => 0
  | .restart _ => 1

/-- What waits fits what is stored: as long as a registration is under way no token is. -/
def Fits (a : App) : Task → Prop
  | .readDeviceId => True
  | .readDeviceToken storedId => storedId = a.service.storage.deviceId
  | .register => a.service.storage.deviceToken = none
  | .writeDeviceId d => a.service.storage.deviceToken = none ∧ d ∈ a.issued
  | .writeDeviceToken d => a.service.storage.deviceToken = none ∧ d ∈ a.issued ∧
      a.service.storage.deviceId = some d.deviceId
  | .deleteDeviceId | .deleteDeviceToken => False

/-- An identity that is neither stored whole nor on its way there is lost. -/
def bears (a : App) (waiting : List Task) : Bool :=
  a.service.storage.deviceToken.isSome || waiting.any fun task => task.identity.isSome

/-- One attempt is under way at most; the token that is stored, and the one in use, came with the
identifier beside it. -/
structure Sound (n : ℕ) (l : Loop App Task) : Prop where
  alone : l.waiting = [] ∨ ∃ task, l.waiting = [task] ∧ l.state.service.initFuture = true ∧
    l.state.service.cached = none ∧ Fits l.state task
  stored : ∀ token ∈ l.state.service.storage.deviceToken, ∃ d ∈ l.state.issued,
    d.deviceToken = token ∧ l.state.service.storage.deviceId = some d.deviceId
  cached : ∀ d ∈ l.state.service.cached, l.state.service.storage = ⟨some d.deviceId,
    some d.deviceToken⟩
  count : l.state.issued.length ≤ n + (bears l.state l.waiting).toNat

theorem sound_start : Sound 0 ⟨{}, []⟩ := by
  exact ⟨.inl rfl, forall_mem_of_eq_none rfl, forall_mem_of_eq_none rfl, Nat.le_refl _⟩

theorem Sound.restart (h : Sound n l) :
    Sound (n + 1) ⟨{ l.state with service := { storage := l.state.service.storage } }, []⟩ := by
  refine ⟨.inl rfl, h.stored, forall_mem_of_eq_none rfl, ?_⟩
  have hcount := h.count
  have hle := Bool.toNat_le (bears l.state l.waiting)
  dsimp only
  omega

/-- What waits is alone. -/
theorem Sound.only (h : Sound n l) (hw : task ∈ l.waiting) : l.waiting = [task] := by
  rcases h.alone with hnothing | ⟨task', hwaiting, -⟩
  · rw [hnothing] at hw
    cases hw
  · rw [hwaiting] at hw ⊢
    rw [List.mem_singleton.mp hw]

/-- The attempt that waits alone. -/
theorem Sound.waits (h : Sound n ⟨a, [task]⟩) : a.service.initFuture = true ∧
    a.service.cached = none ∧ Fits a task := by
  rcases h.alone with hnone | ⟨task', heq, hfuture, hcached, hfits⟩
  · cases hnone
  · obtain rfl : task = task' := List.head_eq_of_cons_eq heq
    exact ⟨hfuture, hcached, hfits⟩

/-- While a registration is under way none is stored. -/
theorem Sound.register_count (h : Sound n ⟨a, [.register]⟩) : a.issued.length ≤ n := by
  have hnone : a.service.storage.deviceToken = none := h.waits.2.2
  have hcount := h.count
  simp [bears, hnone, Task.identity] at hcount
  exact hcount

/-- An attempt that fails leaves what is stored. -/
theorem Sound.failed (h : Sound n ⟨a, [task]⟩) :
    Sound (n + 1) ⟨{ a with service := Installations.failed a.service }, []⟩ := by
  refine ⟨.inl rfl, h.stored, h.cached, ?_⟩
  have hcount := h.count
  have hle := Bool.toNat_le (bears a [task])
  dsimp only at hcount ⊢
  omega

theorem readDeviceId_sound (h : Sound n ⟨a, [.readDeviceId]⟩) :
    Sound n ⟨a, [.readDeviceToken a.service.storage.deviceId]⟩ := by
  obtain ⟨hfuture, hcached, -⟩ := h.waits
  exact ⟨.inr ⟨_, rfl, hfuture, hcached, rfl⟩, h.stored, h.cached, h.count⟩

/-- Both keys are stored. -/
theorem load_sound {deviceId deviceToken : String}
    (h : Sound n ⟨a, [.readDeviceToken (some deviceId)]⟩)
    (htoken : a.service.storage.deviceToken = some deviceToken) :
    Sound n ⟨{ a with service := loaded a.service (some { deviceId, deviceToken }) }, []⟩ := by
  have hid : some deviceId = a.service.storage.deviceId := h.waits.2.2
  refine ⟨.inl rfl, h.stored, fun d hd => ?_, ?_⟩
  · cases hd
    change a.service.storage = _
    rw [← htoken, hid]
  · have hcount := h.count
    have hbears : bears { a with service := loaded a.service (some { deviceId, deviceToken }) } [] =
        true := by
      simp [bears, loaded, htoken]
    have hle := Bool.toNat_le (bears a [.readDeviceToken (some deviceId)])
    rw [hbears]
    dsimp only at hcount ⊢
    rw [Bool.toNat_true]
    omega

/-- A key is missing, and so the token is. -/
theorem register_sound {storedId : Option String} (h : Sound n ⟨a, [.readDeviceToken storedId]⟩)
    (hmissing : storedId = none ∨ a.service.storage.deviceToken = none) :
    Sound n ⟨a, [.register]⟩ := by
  obtain ⟨hfuture, hcached, hid⟩ := h.waits
  have hnone : a.service.storage.deviceToken = none := by
    rcases hmissing with hnone | hnone
    · cases htoken : a.service.storage.deviceToken with
      | none => rfl
      | some token =>
        obtain ⟨d, -, -, hstored⟩ := h.stored token htoken
        have hboth : (none : Option String) = some d.deviceId := by
          rw [← hnone, ← hstored]
          exact hid
        cases hboth
    · exact hnone
  exact ⟨.inr ⟨_, rfl, hfuture, hcached, hnone⟩, h.stored, h.cached, h.count⟩

/-- The server has registered the installation. -/
theorem issue_sound {d : DeviceIdentity} (h : Sound n ⟨a, [.register]⟩) :
    Sound n ⟨{ a with issued := d :: a.issued }, [.writeDeviceId d]⟩ := by
  obtain ⟨hfuture, hcached, hnone⟩ := h.waits
  have hcount := h.register_count
  refine ⟨.inr ⟨_, rfl, hfuture, hcached, hnone, by simp⟩, forall_mem_of_eq_none hnone,
    h.cached, ?_⟩
  simp [bears, Task.identity]
  exact hcount

/-- Without an identifier and a token an answer counts for nothing. -/
theorem malformed_sound (h : Sound n ⟨a, [.register]⟩) :
    Sound n ⟨{ a with service := loaded a.service none }, []⟩ :=
  ⟨.inl rfl, h.stored, forall_mem_of_eq_none rfl, Nat.le_add_right_of_le h.register_count⟩

theorem lost_sound {d : DeviceIdentity} {service : Service} (h : Sound n ⟨a, [.register]⟩)
    (hstorage : service.storage = a.service.storage) (hcached : service.cached = none) :
    Sound (n + 1) ⟨{ service, issued := d :: a.issued }, []⟩ := by
  have hnone : a.service.storage.deviceToken = none := h.waits.2.2
  have hcount := h.register_count
  have hstored : service.storage.deviceToken = none := by
    rw [hstorage]
    exact hnone
  refine ⟨.inl rfl, forall_mem_of_eq_none hstored, forall_mem_of_eq_none hcached, ?_⟩
  simp only [List.length_cons]
  omega

theorem writeDeviceId_sound {d : DeviceIdentity} (h : Sound n ⟨a, [.writeDeviceId d]⟩) :
    Sound n ⟨{ a with service := { a.service with storage.deviceId := some d.deviceId } },
      [.writeDeviceToken d]⟩ := by
  obtain ⟨hfuture, hcached, hnone, hissued⟩ := h.waits
  exact ⟨.inr ⟨_, rfl, hfuture, hcached, hnone, hissued, rfl⟩, forall_mem_of_eq_none hnone,
    forall_mem_of_eq_none hcached, h.count⟩

theorem writeDeviceToken_sound {d : DeviceIdentity} (h : Sound n ⟨a, [.writeDeviceToken d]⟩) :
    let stored := { a.service with storage.deviceToken := some d.deviceToken }
    Sound n ⟨{ a with service := loaded stored (some d) }, []⟩ := by
  obtain ⟨-, -, -, hissued, hid⟩ := h.waits
  refine ⟨.inl rfl, fun token ht => ?_, fun d' hd' => ?_, ?_⟩
  · cases ht
    exact ⟨d, hissued, rfl, hid⟩
  · cases hd'
    change Storage.mk a.service.storage.deviceId _ = _
    rw [hid]
  · have hcount := h.count
    have hle := Bool.toNat_le (bears a [.writeDeviceToken d])
    change a.issued.length ≤ n + 1
    dsimp only at hcount
    omega

/-- A turn of an attempt. -/
theorem resume_sound (h : Sound n ⟨a, [task]⟩) (hr : a.resume task r = some (a', ws)) :
    Sound (n + r.loss) ⟨a', ws⟩ := by
  cases turn_of_resume hr with
  | readDeviceId => exact readDeviceId_sound h
  | found htoken => exact load_sound h htoken
  | missing hmissing => exact register_sound h hmissing
  | registered d => exact issue_sound h
  | malformed => exact malformed_sound h
  | writeDeviceId d => exact writeDeviceId_sound h
  | writeDeviceToken d => exact writeDeviceToken_sound h
  | deleteDeviceId => exact h.waits.2.2.elim
  | deleteDeviceToken => exact h.waits.2.2.elim
  | fails => exact h.failed
  | deletionFails hdeletion =>
    rcases hdeletion with rfl | rfl
    · exact h.waits.2.2.elim
    · exact h.waits.2.2.elim
  | lost d => exact lost_sound h rfl h.waits.2.1

theorem init_sound (h : Sound n l) {s : Service} {tasks : List Task}
    (hcall : call l.state.service .init = (s, tasks)) :
    Sound n ⟨{ l.state with service := s }, l.waiting ++ tasks⟩ := by
  unfold call at hcall
  dsimp only at hcall
  split at hcall
  · cases hcall
    rw [List.append_nil]
    exact h
  · next hidle =>
    cases hcall
    rw [Bool.or_eq_true, not_or, Bool.not_eq_true, Option.isSome_eq_false_iff,
      Option.isNone_iff_eq_none] at hidle
    have hnothing : l.waiting = [] := by
      rcases h.alone with hnothing | ⟨task, -, hfuture, -⟩
      · exact hnothing
      · exact (hidle.2 hfuture).elim
    have hcount := h.count
    rw [hnothing] at hcount ⊢
    exact ⟨.inr ⟨_, rfl, rfl, hidle.1, trivial⟩, h.stored, h.cached, hcount⟩

theorem step_sound (h : Sound n l) (hplain : Plain act) (hstep : step l act = some l') :
    Sound (n + loss act) l' := by
  cases act with
  | restart late =>
    cases late with
    | none =>
      cases hstep
      exact h.restart
    | some d =>
      rw [step] at hstep
      split at hstep
      · next hregister =>
        cases hstep
        have halone : Sound n ⟨l.state, [.register]⟩ := h.only hregister ▸ h
        exact lost_sound halone rfl rfl
      · cases hstep
  | event e =>
    cases e with
    | call i =>
      have hnext : handlers.next l (.call i) = some l' := hstep
      obtain ⟨a, ws, hcall, rfl⟩ := Handlers.next_call.mp hnext
      obtain rfl : i = .init := hplain
      cases hcall
      exact init_sound h rfl
    | answer k r =>
      have hnext : handlers.next l (.answer k r) = some l' := hstep
      obtain ⟨w, a, ws, hw, hresume, rfl⟩ := Handlers.next_answer.mp hnext
      have hwaiting := h.only (List.mem_of_getElem? hw)
      have halone : Sound n ⟨l.state, [w]⟩ := hwaiting ▸ h
      rw [hwaiting] at hw ⊢
      cases k with
      | zero => exact resume_sound halone hresume
      | succ k => cases hw

def losses : List Act → ℕ
  | [] => 0
  | act :: acts => loss act + losses acts

theorem run_sound (h : Sound n l) (hplain : ∀ act ∈ acts, Plain act)
    (hrun : exec step l acts = some l') : Sound (n + losses acts) l' := by
  induction acts generalizing n l with
  | nil =>
    cases hrun
    exact h
  | cons act acts ih =>
    obtain ⟨l₁, hstep, hrest⟩ := Option.bind_eq_some_iff.mp hrun
    have hfirst := step_sound h (hplain act List.mem_cons_self) hstep
    have hlast := ih hfirst (fun act' h' => hplain act' (List.mem_cons_of_mem _ h')) hrest
    have hsum : n + loss act + losses acts = n + losses (act :: acts) := by
      rw [losses]
      omega
    exact hsum ▸ hlast

/-- The identity is stored, and no other one can come to be. -/
structure Settled (d : DeviceIdentity) (issued : List DeviceIdentity) (l : Loop App Task) :
    Prop where
  storage : l.state.service.storage = ⟨some d.deviceId, some d.deviceToken⟩
  issued : l.state.issued = issued
  cached : ∀ d' ∈ l.state.service.cached, d' = d

variable {d : DeviceIdentity} {issued : List DeviceIdentity}

/-- Of an attempt only the two reads are left. -/
theorem resume_settled (hs : Settled d issued ⟨a, [task]⟩) (hfits : Fits a task)
    (hr : a.resume task r = some (a', ws)) : Settled d issued ⟨a', ws⟩ := by
  have hstorage : a.service.storage = ⟨some d.deviceId, some d.deviceToken⟩ := hs.storage
  have htoken : a.service.storage.deviceToken ≠ none := by
    rw [hstorage]
    exact Option.some_ne_none _
  cases turn_of_resume hr with
  | readDeviceId => exact ⟨hs.storage, hs.issued, hs.cached⟩
  | @found deviceId deviceToken hstored =>
    refine ⟨hs.storage, hs.issued, fun d' hd' => ?_⟩
    rw [hstorage] at hstored
    rw [Fits, hstorage] at hfits
    cases hstored
    cases hfits
    exact (Option.some.inj hd').symm
  | missing hmissing =>
    rw [Fits, hstorage] at hfits
    rcases hmissing with hmissing | hmissing
    · rw [hmissing] at hfits
      cases hfits
    · exact (htoken hmissing).elim
  | registered d => exact (htoken hfits).elim
  | malformed => exact (htoken hfits).elim
  | writeDeviceId d => exact (htoken hfits.1).elim
  | writeDeviceToken d => exact (htoken hfits.1).elim
  | deleteDeviceId => exact hfits.elim
  | deleteDeviceToken => exact hfits.elim
  | fails => exact ⟨hs.storage, hs.issued, hs.cached⟩
  | deletionFails => exact ⟨hs.storage, hs.issued, hs.cached⟩
  | lost d => exact (htoken hfits).elim

theorem step_settled (h : Sound n l) (hs : Settled d issued l) (hplain : Plain act)
    (hstep : step l act = some l') : Settled d issued l' := by
  cases act with
  | restart late =>
    cases late with
    | none =>
      cases hstep
      exact ⟨hs.storage, hs.issued, forall_mem_of_eq_none rfl⟩
    | some d' =>
      rw [step] at hstep
      split at hstep
      · next hregister =>
        have halone : Sound n ⟨l.state, [.register]⟩ := h.only hregister ▸ h
        have htoken : l.state.service.storage.deviceToken = none := halone.waits.2.2
        rw [hs.storage] at htoken
        cases htoken
      · cases hstep
  | event e =>
    cases e with
    | call i =>
      have hnext : handlers.next l (.call i) = some l' := hstep
      obtain ⟨a, ws, hcall, rfl⟩ := Handlers.next_call.mp hnext
      obtain rfl : i = .init := hplain
      cases hcall
      refine ⟨?_, hs.issued, ?_⟩
      · dsimp only [call]
        split
        · exact hs.storage
        · exact hs.storage
      · dsimp only [call]
        split
        · exact hs.cached
        · exact hs.cached
    | answer k r =>
      have hnext : handlers.next l (.answer k r) = some l' := hstep
      obtain ⟨w, a, ws, hw, hresume, rfl⟩ := Handlers.next_answer.mp hnext
      have hwaiting := h.only (List.mem_of_getElem? hw)
      have halone : Sound n ⟨l.state, [w]⟩ := hwaiting ▸ h
      rw [hwaiting] at hw ⊢
      cases k with
      | zero => exact resume_settled ⟨hs.storage, hs.issued, hs.cached⟩ halone.waits.2.2 hresume
      | succ k => cases hw

theorem run_settled (h : Sound n l) (hs : Settled d issued l) (hplain : ∀ act ∈ acts, Plain act)
    (hrun : exec step l acts = some l') : Settled d issued l' := by
  induction acts generalizing n l with
  | nil =>
    cases hrun
    exact hs
  | cons act acts ih =>
    obtain ⟨l₁, hstep, hrest⟩ := Option.bind_eq_some_iff.mp hrun
    have hact := hplain act List.mem_cons_self
    exact ih (step_sound h hact hstep) (step_settled h hs hact hstep)
      (fun act' h' => hplain act' (List.mem_cons_of_mem _ h')) hrest

/-- However often `init` is called, whatever fails and whenever the process ends: an installation
is registered once, and once more for each failure at most. An identity in use has come from the
server as a whole, and it stays the only one: no later call registers, and none yields another. -/
theorem registered_once {acts' : List Act} (hplain : ∀ act ∈ acts ++ acts', Plain act)
    (hrun : exec step ⟨{}, []⟩ acts = some l) (hrun' : exec step l acts' = some l') :
    l.state.issued.length ≤ losses acts + 1 ∧
      ∀ d ∈ l.state.service.cached, d ∈ l.state.issued ∧ l'.state.issued = l.state.issued ∧
        ∀ d' ∈ l'.state.service.cached, d' = d := by
  have hsound := run_sound sound_start (fun act h => hplain act (List.mem_append_left _ h)) hrun
  have hle := Bool.toNat_le (bears l.state l.waiting)
  have hcount := hsound.count
  refine ⟨by omega, fun d hd => ?_⟩
  have hstorage := hsound.cached d hd
  have hsettled : Settled d l.state.issued l := by
    refine ⟨hstorage, rfl, fun d' hd' => ?_⟩
    exact Option.some.inj (hd'.symm.trans hd)
  obtain ⟨d₀, hissued, htoken, hid⟩ := hsound.stored d.deviceToken (by rw [hstorage]; rfl)
  have heq : d₀ = d := by
    rw [hstorage] at hid
    cases d₀
    cases d
    cases hid
    cases htoken
    rfl
  have hlast := run_settled hsound hsettled (fun act h => hplain act (List.mem_append_right _ h))
    hrun'
  exact ⟨heq ▸ hissued, hlast.issued, hlast.cached⟩

/-- `init` is called twice and the first answer is lost; then the installation is registered. -/
def firstStart : List Act :=
  [.event (.call .init), .event (.call .init), .event (.answer 0 (.reply .done)),
    .event (.answer 0 (.reply .done)), .event (.answer 0 (.lost ⟨"1", "one"⟩)),
    .event (.call .init), .event (.answer 0 (.reply .done)), .event (.answer 0 (.reply .done)),
    .event (.answer 0 (.reply (.answered (some "2") (some "two")))),
    .event (.answer 0 (.reply .done)), .event (.answer 0 (.reply .done))]

/-- The next process reads what is stored, at the second attempt. -/
def secondStart : List Act :=
  [.restart none, .event (.call .init), .event (.answer 0 (.reply .thrown)),
    .event (.call .init), .event (.answer 0 (.reply .done)), .event (.answer 0 (.reply .done))]

theorem starts_plain : ∀ act ∈ firstStart ++ secondStart, Plain act := by
  simp [firstStart, secondStart, Plain]

theorem registered_once_starts : ∃ l l', exec step ⟨{}, []⟩ firstStart = some l ∧
    exec step l secondStart = some l' ∧ l.state.service.cached = some ⟨"2", "two"⟩ ∧
    l'.state.service.cached = some ⟨"2", "two"⟩ ∧ l.state.issued.length ≤ losses firstStart + 1 ∧
    l'.state.issued = l.state.issued := by
  have hfirst : exec step ⟨{}, []⟩ firstStart = some ⟨_, []⟩ := rfl
  have hsecond : exec step ⟨⟨⟨some ⟨"2", "two"⟩, true, ⟨some "2", some "two"⟩⟩,
      [⟨"2", "two"⟩, ⟨"1", "one"⟩]⟩, []⟩ secondStart = some ⟨_, []⟩ := rfl
  have honce := registered_once starts_plain hfirst hsecond
  exact ⟨_, _, hfirst, hsecond, rfl, rfl, honce.1, (honce.2 ⟨"2", "two"⟩ rfl).2.1⟩

end Runs

section Provenance

variable {a a' : App} {l l' : Loop App Task} {task : Task} {r : Outcome} {act : Act}
  {acts : List Act} {ws : List Task} {issued issued' : List DeviceIdentity}

/-- Part of an identity that the server has issued. -/
def Came (issued : List DeviceIdentity) (part : DeviceIdentity → String) (s : String) : Prop :=
  ∃ d ∈ issued, part d = s

theorem Came.mono {part : DeviceIdentity → String} {s : String} (h : Came issued part s)
    (hle : issued ⊆ issued') : Came issued' part s := by
  obtain ⟨d, hd, hs⟩ := h
  exact ⟨d, hle hd, hs⟩

/-- What is stored and what is in use came from the server. -/
structure Known (a : App) : Prop where
  deviceId : ∀ s ∈ a.service.storage.deviceId, Came a.issued DeviceIdentity.deviceId s
  deviceToken : ∀ s ∈ a.service.storage.deviceToken, Came a.issued DeviceIdentity.deviceToken s
  cached : ∀ d ∈ a.service.cached, Came a.issued DeviceIdentity.deviceId d.deviceId ∧
    Came a.issued DeviceIdentity.deviceToken d.deviceToken

def Task.Brings (issued : List DeviceIdentity) : Task → Prop
  | .readDeviceToken storedId => ∀ s ∈ storedId, Came issued DeviceIdentity.deviceId s
  | .writeDeviceId d | .writeDeviceToken d => d ∈ issued
  | _ => True

theorem Task.Brings.mono (h : task.Brings issued) (hle : issued ⊆ issued') :
    task.Brings issued' := by
  cases task with
  | readDeviceToken storedId => exact fun s hs => (h s hs).mono hle
  | writeDeviceId d => exact hle h
  | writeDeviceToken d => exact hle h
  | _ => trivial

theorem known_start : Known {} :=
  ⟨forall_mem_of_eq_none rfl, forall_mem_of_eq_none rfl, forall_mem_of_eq_none rfl⟩

/-- A process that starts knows what is stored. -/
theorem Known.restart (h : Known a) (hle : a.issued ⊆ issued) :
    Known { service := { storage := a.service.storage }, issued } :=
  ⟨fun s hs => (h.deviceId s hs).mono hle, fun s hs => (h.deviceToken s hs).mono hle,
    forall_mem_of_eq_none rfl⟩

/-- What a turn leaves behind: what is known, what waits then, and nothing un-issued. -/
structure Knows (issued : List DeviceIdentity) (t : App × List Task) : Prop where
  known : Known t.1
  brings : ∀ task ∈ t.2, task.Brings t.1.issued
  grows : issued ⊆ t.1.issued

theorem Known.ends (h : Known a) (hle : issued ⊆ a.issued) : Knows issued (a, []) :=
  ⟨h, List.forall_mem_nil _, hle⟩

theorem Known.goes (h : Known a) (hle : issued ⊆ a.issued) (hb : task.Brings a.issued) :
    Knows issued (a, [task]) :=
  ⟨h, List.forall_mem_singleton.mpr hb, hle⟩

theorem Known.failed (h : Known a) :
    Known { a with service := Installations.failed a.service } :=
  ⟨h.deviceId, h.deviceToken, h.cached⟩

theorem found_knows {deviceId deviceToken : String} (h : Known a)
    (hid : Came a.issued DeviceIdentity.deviceId deviceId)
    (htoken : a.service.storage.deviceToken = some deviceToken) :
    Knows a.issued ({ a with service := loaded a.service (some { deviceId, deviceToken }) },
      []) := by
  refine Known.ends ⟨h.deviceId, h.deviceToken, fun d hd => ?_⟩ (List.Subset.refl _)
  cases hd
  exact ⟨hid, h.deviceToken deviceToken htoken⟩

/-- The server issues another identity. -/
theorem Known.issue (h : Known a) (d : DeviceIdentity) :
    Known { a with issued := d :: a.issued } := by
  have hle : a.issued ⊆ d :: a.issued := List.subset_cons_self _ _
  refine ⟨fun s hs => (h.deviceId s hs).mono hle, fun s hs => (h.deviceToken s hs).mono hle,
    fun d' hd' => ?_⟩
  exact ⟨(h.cached d' hd').1.mono hle, (h.cached d' hd').2.mono hle⟩

theorem writeDeviceId_knows {d : DeviceIdentity} (h : Known a) (hd : d ∈ a.issued) :
    Knows a.issued ({ a with service := { a.service with storage.deviceId := some d.deviceId } },
      [.writeDeviceToken d]) := by
  refine Known.goes ⟨fun s hs => ?_, h.deviceToken, h.cached⟩ (List.Subset.refl _) hd
  cases hs
  exact ⟨d, hd, rfl⟩

theorem writeDeviceToken_knows {d : DeviceIdentity} (h : Known a) (hd : d ∈ a.issued) :
    let stored := { a.service with storage.deviceToken := some d.deviceToken }
    Knows a.issued ({ a with service := loaded stored (some d) }, []) := by
  refine Known.ends ⟨h.deviceId, fun s hs => ?_, fun d' hd' => ?_⟩ (List.Subset.refl _)
  · cases hs
    exact ⟨d, hd, rfl⟩
  · cases hd'
    exact ⟨⟨d, hd, rfl⟩, d, hd, rfl⟩

theorem resume_knows (h : Known a) (hb : task.Brings a.issued)
    (hr : a.resume task r = some (a', ws)) : Knows a.issued (a', ws) := by
  have hle : a.issued ⊆ a.issued := List.Subset.refl _
  cases turn_of_resume hr with
  | readDeviceId => exact h.goes hle h.deviceId
  | found htoken => exact found_knows h (hb _ rfl) htoken
  | missing => exact h.goes hle trivial
  | registered d => exact (h.issue d).goes (List.subset_cons_self _ _) List.mem_cons_self
  | malformed => exact Known.ends ⟨h.deviceId, h.deviceToken, forall_mem_of_eq_none rfl⟩ hle
  | writeDeviceId d => exact writeDeviceId_knows h hb
  | writeDeviceToken d => exact writeDeviceToken_knows h hb
  | deleteDeviceId =>
    exact Known.goes ⟨forall_mem_of_eq_none rfl, h.deviceToken, h.cached⟩ hle trivial
  | deleteDeviceToken => exact Known.ends ⟨h.deviceId, forall_mem_of_eq_none rfl, h.cached⟩ hle
  | fails => exact h.failed.ends hle
  | deletionFails => exact h.ends hle
  | lost d => exact (h.issue d).failed.ends (List.subset_cons_self _ _)

theorem call_knows (h : Known a) (i : Call) :
    Knows a.issued ({ a with service := (call a.service i).1 }, (call a.service i).2) := by
  have hle : a.issued ⊆ a.issued := List.Subset.refl _
  cases i with
  | init =>
    dsimp only [call]
    split
    · exact h.ends hle
    · exact Known.goes ⟨h.deviceId, h.deviceToken, h.cached⟩ hle trivial
  | resetFailedInit =>
    dsimp only [call]
    split
    · exact h.failed.ends hle
    · exact h.ends hle
  | invalidate =>
    exact Known.goes ⟨h.deviceId, h.deviceToken, forall_mem_of_eq_none rfl⟩ hle trivial

/-- The loop holds nothing that the server has not issued. -/
structure KnownLoop (l : Loop App Task) : Prop where
  known : Known l.state
  brings : ∀ task ∈ l.waiting, task.Brings l.state.issued

theorem KnownLoop.turn {t : App × List Task} {rest : List Task} (h : KnownLoop l)
    (ht : Knows l.state.issued t) (hrest : rest ⊆ l.waiting) :
    KnownLoop ⟨t.1, rest ++ t.2⟩ := by
  refine ⟨ht.known, fun task htask => ?_⟩
  rcases List.mem_append.mp htask with hold | hnew
  · exact (h.brings task (hrest hold)).mono ht.grows
  · exact ht.brings task hnew

theorem step_known (h : KnownLoop l) (hstep : step l act = some l') : KnownLoop l' := by
  cases act with
  | restart late =>
    cases late with
    | none =>
      cases hstep
      exact ⟨h.known.restart (List.Subset.refl _), List.forall_mem_nil _⟩
    | some d =>
      rw [step] at hstep
      split at hstep
      · cases hstep
        exact ⟨h.known.restart (List.subset_cons_self _ _), List.forall_mem_nil _⟩
      · cases hstep
  | event e =>
    cases e with
    | call i =>
      have hnext : handlers.next l (.call i) = some l' := hstep
      obtain ⟨a, ws, hcall, rfl⟩ := Handlers.next_call.mp hnext
      cases hcall
      exact h.turn (call_knows h.known i) (List.Subset.refl _)
    | answer k r =>
      have hnext : handlers.next l (.answer k r) = some l' := hstep
      obtain ⟨w, a, ws, hw, hresume, rfl⟩ := Handlers.next_answer.mp hnext
      have hbrings := h.brings w (List.mem_of_getElem? hw)
      exact h.turn (resume_knows h.known hbrings hresume) (List.eraseIdx_subset)

theorem run_known (h : KnownLoop l) (hrun : exec step l acts = some l') : KnownLoop l' := by
  induction acts generalizing l with
  | nil =>
    cases hrun
    exact h
  | cons act acts ih =>
    obtain ⟨l₁, hstep, hrest⟩ := Option.bind_eq_some_iff.mp hrun
    exact ih (step_known h hstep) hrest

/-- Whenever `invalidate` and `resetFailedInit` are called besides, what an installation uses has
come from the server, though an identifier may be kept with the token of another registration. -/
theorem cached_issued (hrun : exec step ⟨{}, []⟩ acts = some l) : ∀ d ∈ l.state.service.cached,
    Came l.state.issued DeviceIdentity.deviceId d.deviceId ∧
      Came l.state.issued DeviceIdentity.deviceToken d.deviceToken := by
  have hstart : KnownLoop ⟨{}, []⟩ := ⟨known_start, List.forall_mem_nil _⟩
  exact (run_known hstart hrun).known.cached

/-- Two attempts are under way after `resetFailedInit`, and each stores one of its keys last. -/
def twoAttempts : List Act :=
  [.event (.call .init), .event (.answer 0 (.reply .done)), .event (.answer 0 (.reply .done)),
    .event (.call .resetFailedInit), .event (.call .init), .event (.answer 1 (.reply .done)),
    .event (.answer 1 (.reply .done)),
    .event (.answer 0 (.reply (.answered (some "3") (some "three")))),
    .event (.answer 0 (.reply (.answered (some "4") (some "four")))),
    .event (.answer 0 (.reply .done)), .event (.answer 0 (.reply .done)),
    .event (.answer 0 (.reply .done)), .restart none, .event (.call .init),
    .event (.answer 0 (.reply .done)), .event (.answer 0 (.reply .done))]

/-- The next process uses the identifier of one registration with the token of the other. -/
theorem cached_issued_twoAttempts : ∃ l, exec step ⟨{}, []⟩ twoAttempts = some l ∧
    l.state.service.cached = some ⟨"4", "three"⟩ ∧ ⟨"4", "three"⟩ ∉ l.state.issued ∧
    Came l.state.issued DeviceIdentity.deviceId "4" ∧
    Came l.state.issued DeviceIdentity.deviceToken "three" := by
  have hrun : exec step ⟨{}, []⟩ twoAttempts = some ⟨_, []⟩ := rfl
  have hcame := cached_issued hrun ⟨"4", "three"⟩ rfl
  exact ⟨_, hrun, rfl, by decide, hcame.1, hcame.2⟩

end Provenance

end Tekir.Installations
