import Tekir.Backend
import Tekir.Contracts
import Tekir.Dialects

/-!
# Push tokens, statement by statement

Registrations, `SetPushToken` and the retirement of rejected tokens as programs over the
queries that write `devices.push_token`. No unique index guards the column. The clearing
expression of `SetDevicePushToken` works on the rows that its snapshot holds.
-/
namespace Tekir.DeviceTokens
open Machine Table Schema Statements NotificationQueries Environment AccountServices Programs
  Interleaving Contracts Dialects

inductive Query
  | createDevice (id : UUID) (tokenHash : String) (pushToken : Option String)
      (platform : Platform)
  | setDevicePushToken (pushToken : String) (deviceId : UUID)
  | clearDevicePushToken (deviceId : UUID) (pushToken : String)

@[reducible] def Query.Row : Query → Type
  | .createDevice _ _ _ _ => UUID
  | .setDevicePushToken _ _ => Unit
  | .clearDevicePushToken _ _ => Unit

inductive Write
  | device (row : Device)
  | token (deviceId : UUID) (pushToken : String)
  | cleared (deviceId : UUID) (pushToken : String)
  deriving DecidableEq

def Write.apply : Write → Tables → Tables
  | .device row, t => { t with devices := t.devices ++ [row] }
  | .token deviceId pushToken, t =>
    { t with
      devices := updateWhere (fun d => d.id == deviceId)
        (fun d => { d with pushToken := some pushToken }) t.devices }
  | .cleared deviceId pushToken, t =>
    { t with
      devices := updateWhere (fun d => d.id == deviceId && d.pushToken == some pushToken)
        (fun d => { d with pushToken := none }) t.devices }

def applyAll (ws : List Write) (t : Tables) : Tables :=
  ws.foldl (fun t w => w.apply t) t

def view (ws : List Write) (db : Database) : Option Database :=
  if h : Valid (applyAll ws db.tables) then some ⟨applyAll ws db.tables, h⟩ else none

/-- What a write locks: a row, or the key of the unique index. -/
inductive Lock
  | device (id : UUID)
  | tokenHash (tokenHash : String)
  deriving DecidableEq

def Write.locks : Write → List Lock
  | .device row => [.device row.id, .tokenHash row.tokenHash]
  | .token deviceId _ => [.device deviceId]
  | .cleared deviceId _ => [.device deviceId]

def clash (w w' : Write) : Bool :=
  w.locks.any fun l => w'.locks.contains l

/-- The rows that `cleared` takes the token off, if they are not the device's own. -/
def carries (pushToken : String) (deviceId : UUID) (d : Device) : Bool :=
  d.pushToken == some pushToken && d.id != deviceId

def stored (deviceId : UUID) (t : Tables) : Bool :=
  t.devices.any fun d => d.id == deviceId

def holds (deviceId : UUID) (pushToken : String) (t : Tables) : Bool :=
  t.devices.any fun d => d.id == deviceId && d.pushToken == some pushToken

/-- The rows an update works on are those its snapshot matched, in their newest version and if
that still matches. -/
def Query.run : (q : Query) → Database → Database → Except Error (q.Row × List Write)
  | .createDevice id tokenHash pushToken platform, _, db => do
    let row : Device := { id, tokenHash, pushToken, platform }
    let _ ← db.write (Write.device row).apply
    return (id, [.device row])
  | .setDevicePushToken pushToken deviceId, snapshot, db =>
    let others := db.tables.devices.filter fun d =>
      carries pushToken deviceId d && holds d.id pushToken snapshot.tables
    let own := stored deviceId snapshot.tables && stored deviceId db.tables
    .ok ((), others.map (fun d => .cleared d.id pushToken) ++
      if own then [.token deviceId pushToken] else [])
  | .clearDevicePushToken deviceId pushToken, snapshot, db =>
    .ok ((), if holds deviceId pushToken snapshot.tables && holds deviceId pushToken db.tables then
      [.cleared deviceId pushToken] else [])

theorem clash_symm (w w' : Write) : clash w w' = clash w' w := by
  rw [Bool.eq_iff_iff]
  simp only [clash, List.any_eq_true, List.contains_iff_mem]
  exact ⟨fun ⟨l, h, h'⟩ => ⟨l, h', h⟩, fun ⟨l, h, h'⟩ => ⟨l, h', h⟩⟩

theorem view_nil (db : Database) : view [] db = some db := by
  simp [view, applyAll, db.valid]

theorem tables_of_view {ws : List Write} {db db' : Database} (hview : view ws db = some db') :
    db'.tables = applyAll ws db.tables := by
  unfold view at hview
  split at hview
  · cases hview
    rfl
  · cases hview

theorem lost_aborts : (Error.transactionAborted != Error.noRows) = true := by
  decide

def dialect : Dialect Database Write Query Query.Row Error where
  run := Query.run
  view := view
  clash := clash
  aborts e := e != .noRows
  lost := .transactionAborted
  view_nil := view_nil
  clash_symm := clash_symm
  lost_aborts := lost_aborts

/-- The other operations neither add a device nor write a push token. -/
def aside (_ : List Write) (db db' : Database) : Bool :=
  db'.tables.devices.map (fun d => (d.id, d.pushToken)) ==
    db.tables.devices.map fun d => (d.id, d.pushToken)

def system : Engine Database Write Query Query.Row Error :=
  dialect.engine true aside

abbrev Script (α : Type) := Prog Query Query.Row Error (Except Error α)

def writeOnce (q : Query) : Script q.Row :=
  Prog.auto .transactionAborted q

/-- Returns the identifier and the raw token. -/
def register (cfg : Config) (env : Env) (platform : String) (pushToken : Option String) :
    Script (UUID × String) :=
  match allowedPlatform platform with
  | none => .ret (.error .invalidPlatform)
  | some platform =>
    (writeOnce (.createDevice (env.uuid 0) (hashDeviceToken cfg env.token) pushToken
      platform)).andThen fun id => .ret (.ok (id, env.token))

def setPushToken (deviceId : UUID) (pushToken : String) : Script Unit :=
  let token := trimSpace pushToken
  if token = "" ∨ maxPushTokenLength < token.utf8ByteSize then .ret (.error .invalidPushToken)
  else writeOnce (.setDevicePushToken token deviceId)

/-- The tokens that the push provider has rejected, one after the other. -/
def clearRejected : List (UUID × String) → Script Unit
  | [] => .ret (.ok ())
  | rejected :: left =>
    (Prog.query (.clearDevicePushToken rejected.1 rejected.2)).andThen fun _ => clearRejected left

/-- What a transaction of the dispatcher does to the devices. -/
def retire (rejected : List (UUID × String)) : Script Unit :=
  Prog.transaction .transactionAborted (clearRejected rejected)

inductive Op
  | register (env : Env) (platform : String) (pushToken : Option String)
  | setPushToken (deviceId : UUID) (pushToken : String)
  | retire (rejected : List (UUID × String))

abbrev Reply := Except Error (Option (UUID × String))

def program (cfg : Config) : Op → Script (Option (UUID × String))
  | .register env platform pushToken =>
    (register cfg env platform pushToken).andThen fun device => .ret (.ok (some device))
  | .setPushToken deviceId pushToken =>
    (setPushToken deviceId pushToken).andThen fun _ => .ret (.ok none)
  | .retire rejected => (retire rejected).andThen fun _ => .ret (.ok none)

abbrev DeviceLocal := Local Write Query Query.Row Error

abbrev DeviceCall := Call Database Write Query Query.Row Error Op Reply

abbrev DeviceState (n : ℕ) := State Database Write Query Query.Row Error Op Reply n

abbrev DeviceAction (n : ℕ) := Action Database Op n

/-- No two rows hold one token. -/
def OneRow (t : Tables) : Prop :=
  UniqueOn Device.pushToken t.devices

instance (t : Tables) : Decidable (OneRow t) :=
  inferInstanceAs (Decidable (UniqueOn _ _))

/-- No update is pushed twice to one token. -/
def PushesOnce (db : Database) : Prop :=
  ∀ catId authorUserId,
    UniqueOn Recipient.pushToken (listNeedsHelpRecipientDevices catId authorUserId db)

/-- The device that a write leaves the token with. -/
def Write.gives : Write → Option (UUID × String)
  | .device row => row.pushToken.map fun token => (row.id, token)
  | .token deviceId pushToken => some (deviceId, pushToken)
  | .cleared _ _ => none

def Write.isRow : Write → Bool
  | .device _ => true
  | .token _ _ | .cleared _ _ => false

/-- A statement that waits to give the token to another device and whose snapshot does not show
that this one holds it. -/
def WaitsOver (c : DeviceCall) (deviceId : UUID) (token : String) : Prop :=
  match c.prog, c.snapshot with
  | .stmt (.setDevicePushToken pushToken target) _, some b₀ =>
    pushToken = token ∧ target ≠ deviceId ∧ stored target b₀.tables = true ∧
      holds deviceId token b₀.tables = false
  | _, _ => False

/-- A transaction that has given the token to another device and not yet committed. -/
def HoldsOver (c : DeviceCall) (deviceId : UUID) (token : String) : Prop :=
  ∃ w ∈ c.loc.writes, w.isRow = false ∧ ∃ x ∈ w.gives, x.1 ≠ deviceId ∧ x.2 = token

instance (c : DeviceCall) (deviceId : UUID) (token : String) :
    Decidable (WaitsOver c deviceId token) := by
  unfold WaitsOver
  split <;> infer_instance

instance (c : DeviceCall) (deviceId : UUID) (token : String) :
    Decidable (HoldsOver c deviceId token) :=
  inferInstanceAs (Decidable (∃ w ∈ c.loc.writes, _))

def commits (c : DeviceCall) : Bool :=
  match c.prog with
  | .commit _ => !c.loc.aborted
  | .ret _ | .stmt _ _ | .rollback _ => false

/-- A device is given a token only if no other call is about to give it to another one without
taking it off this one, and a new row only brings a token that no row holds. -/
def Undisputed {n : ℕ} (s : DeviceState n) (i : Fin n) (c : DeviceCall) : Prop :=
  commits c = true → ∀ w ∈ c.loc.writes, ∀ x ∈ w.gives,
    (∀ j, j ≠ i → ∀ d ∈ s.calls j, ¬ WaitsOver d x.1 x.2 ∧ ¬ HoldsOver d x.1 x.2) ∧
      (w.isRow = true → ∀ d ∈ s.base.tables.devices, d.pushToken ≠ some x.2)

instance {n : ℕ} (s : DeviceState n) (i : Fin n) (c : DeviceCall) :
    Decidable (Undisputed s i c) :=
  inferInstanceAs (Decidable (_ → ∀ w ∈ c.loc.writes, ∀ x ∈ w.gives, _ ∧ _))

def Admits {n : ℕ} (s : DeviceState n) : DeviceAction n → Prop
  | .run i => ∀ c ∈ s.calls i, Undisputed s i c
  | .call _ _ | .fail _ | .others _ => True

instance {n : ℕ} (s : DeviceState n) (a : DeviceAction n) : Decidable (Admits s a) := by
  cases a <;> unfold Admits <;> infer_instance

section Rows

variable {t : Tables} {db db' : Database} {i j : UUID} {token : String}

theorem holds_iff : holds i token t = true ↔ ∃ d ∈ t.devices, d.id = i ∧ d.pushToken = some token := by
  simp [holds]

/-- One row for each token: whoever hold it are one device. -/
theorem oneRow_iff : OneRow db.tables ↔ ∀ i j token, holds i token db.tables = true →
    holds j token db.tables = true → i = j := by
  have hpkey : UniqueOn (some ·.id) db.tables.devices := db.valid.holds .devicesPkey
  constructor
  · intro hone i j token hi hj
    obtain ⟨d, hd, rfl, htoken⟩ := holds_iff.mp hi
    obtain ⟨d', hd', rfl, htoken'⟩ := holds_iff.mp hj
    rw [hone.eq_of_key_eq hd hd' (htoken.trans htoken'.symm) (by simp [htoken])]
  · intro hone
    refine hpkey.imp_of_mem fun {d d'} hd hd' hid => ?_
    rw [or_iff_not_imp_left]
    intro htoken heq
    obtain ⟨token, htoken⟩ := Option.ne_none_iff_exists'.mp htoken
    have hsame : d.id = d'.id := hone d.id d'.id token
      (holds_iff.mpr ⟨d, hd, rfl, htoken⟩) (holds_iff.mpr ⟨d', hd', rfl, heq ▸ htoken⟩)
    simp [hsame] at hid

/-- A device that holds a token was given it by the write, or held it before and was not cleared. -/
theorem holds_apply {w : Write} (h : holds i token (w.apply t) = true) :
    (i, token) ∈ w.gives ∨ (holds i token t = true ∧ w ≠ .cleared i token) := by
  obtain ⟨r, hr, rfl, htoken⟩ := holds_iff.mp h
  cases w with
  | device row =>
    rcases List.mem_append.mp hr with hr | hr
    · exact .inr ⟨holds_iff.mpr ⟨r, hr, rfl, htoken⟩, by simp⟩
    · cases List.mem_singleton.mp hr
      exact .inl (by simp [Write.gives, htoken])
  | token deviceId pushToken =>
    obtain ⟨d, hd, rfl⟩ := mem_updateWhere.mp hr
    by_cases hid : d.id = deviceId
    · have hgiven : pushToken = token := by simpa [hid] using htoken
      exact .inl (by simp [Write.gives, hid, hgiven])
    · simp only [beq_iff_eq, hid, if_false] at htoken ⊢
      exact .inr ⟨holds_iff.mpr ⟨d, hd, rfl, htoken⟩, by simp⟩
  | cleared deviceId pushToken =>
    obtain ⟨d, hd, rfl⟩ := mem_updateWhere.mp hr
    by_cases hmatch : (d.id == deviceId && d.pushToken == some pushToken) = true
    · simp [hmatch] at htoken
    · simp only [hmatch, Bool.false_eq_true, if_false] at htoken ⊢
      refine .inr ⟨holds_iff.mpr ⟨d, hd, rfl, htoken⟩, fun hw => hmatch ?_⟩
      cases hw
      simp [htoken]

theorem holds_applyAll {ws : List Write} (h : holds i token (applyAll ws t) = true) :
    (∃ w ∈ ws, (i, token) ∈ w.gives) ∨ (holds i token t = true ∧ .cleared i token ∉ ws) := by
  induction ws generalizing t with
  | nil => exact .inr ⟨h, by simp⟩
  | cons w ws ih =>
    rcases ih h with ⟨w', hw', hgives⟩ | ⟨hheld, hcleared⟩
    · exact .inl ⟨w', List.mem_cons_of_mem _ hw', hgives⟩
    · rcases holds_apply hheld with hgives | ⟨hheld, hne⟩
      · exact .inl ⟨w, List.mem_cons_self, hgives⟩
      · refine .inr ⟨hheld, fun hmem => ?_⟩
        rcases List.mem_cons.mp hmem with heq | hmem
        · exact hne heq.symm
        · exact hcleared hmem

theorem holds_congr (h : db'.tables.devices.map (fun d => (d.id, d.pushToken)) =
    db.tables.devices.map fun d => (d.id, d.pushToken)) :
    holds i token db'.tables = holds i token db.tables := by
  have hany : ∀ T : Tables, holds i token T =
      (T.devices.map fun d => (d.id, d.pushToken)).any fun x => x.1 == i && x.2 == some token := by
    intro T
    simp [holds, List.any_map, Function.comp_def]
  rw [hany, hany, h]

/-- What a recipient is pushed to is the token of its device. -/
theorem pushesOnce_of_oneRow (h : OneRow db.tables) : PushesOnce db := by
  intro catId authorUserId
  have hrow : ∀ r ∈ listNeedsHelpRecipientDevices catId authorUserId db,
      ∃ d ∈ db.tables.devices, d.id = r.deviceId ∧ d.pushToken = r.pushToken := by
    intro r hr
    obtain ⟨f, -, hr⟩ := List.mem_flatMap.mp (List.mem_dedup.mp hr)
    obtain ⟨d, hd, rfl⟩ := List.mem_map.mp hr
    exact ⟨d, (List.mem_filter.mp hd).1, rfl, rfl⟩
  refine (List.nodup_dedup _).imp_of_mem fun {r r'} hr hr' hne => ?_
  rw [or_iff_not_imp_left]
  intro htoken heq
  obtain ⟨d, hd, hid, hpush⟩ := hrow r hr
  obtain ⟨d', hd', hid', hpush'⟩ := hrow r' hr'
  have hsame : d = d' := h.eq_of_key_eq hd hd' (by rw [hpush, hpush', heq]) (by rw [hpush]; exact htoken)
  refine hne ?_
  cases r
  cases r'
  simp_all

end Rows

section Calls

variable {cfg : Config} {n : ℕ} {s s' : DeviceState n} {a : DeviceAction n}

/-- A device is given its token by the first statement of a transaction, and no other one is. -/
def contract : Contract Write Query Query.Row Error Op Reply where
  asks _ l q := ∀ token target, q = .setDevicePushToken token target → l.writes = []
  commits _ l := ∀ w ∈ l.writes, ∀ w' ∈ l.writes, ∀ x ∈ w.gives, ∀ x' ∈ w'.gives, x = x'

theorem run_set {token : String} {target : UUID} {b₀ b : Database} {w : Write}
    (hw : w ∈ system.effect (.setDevicePushToken token target) b₀ b) :
    (∃ i, w = .cleared i token) ∨ (w = .token target token ∧ stored target b₀.tables = true) := by
  simp only [system, Dialect.engine, Dialect.effect, dialect, Query.run, List.mem_append,
    List.mem_map] at hw
  rcases hw with ⟨d, -, rfl⟩ | hw
  · exact .inl ⟨d.id, rfl⟩
  · split at hw
    · rename_i hown
      exact .inr ⟨List.mem_singleton.mp hw, (Bool.and_eq_true _ _ ▸ hown).1⟩
    · cases hw

/-- The rows that held the token all along are cleared. -/
theorem cleared_of_held {token : String} {i target : UUID} {b₀ b : Database} (hne : i ≠ target)
    (hsnapshot : holds i token b₀.tables = true) (hnewest : holds i token b.tables = true) :
    .cleared i token ∈ system.effect (.setDevicePushToken token target) b₀ b := by
  obtain ⟨d, hd, rfl, htoken⟩ := holds_iff.mp hnewest
  refine List.mem_append_left _ (List.mem_map.mpr ⟨d, List.mem_filter.mpr ⟨hd, ?_⟩, rfl⟩)
  simp [carries, htoken, hne, hsnapshot]

theorem run_clear {token : String} {i : UUID} {b₀ b : Database} {w : Write}
    (hw : w ∈ system.effect (.clearDevicePushToken i token) b₀ b) : w = .cleared i token := by
  simp only [system, Dialect.engine, Dialect.effect, dialect, Query.run] at hw
  split at hw
  · exact List.mem_singleton.mp hw
  · cases hw

theorem run_create {id : UUID} {hash : String} {token : Option String} {platform : Platform}
    {b₀ b : Database} {w : Write}
    (hw : w ∈ system.effect (.createDevice id hash token platform) b₀ b) :
    w = .device { id, tokenHash := hash, pushToken := token, platform } := by
  obtain ⟨a, hrun⟩ := Dialect.mem_effect hw
  obtain ⟨db, -, hret⟩ := bind_eq_ok.mp hrun
  have heffect := (Prod.mk.inj (Except.ok.inj hret)).2
  change w ∈ dialect.effect _ b₀ b at hw
  rw [← heffect] at hw
  exact List.mem_singleton.mp hw

/-- One statement gives one device a token at most. -/
theorem gives_unique {q : Query} {b₀ b : Database} {w w' : Write} {x x' : UUID × String}
    (hw : w ∈ system.effect q b₀ b) (hw' : w' ∈ system.effect q b₀ b) (hx : x ∈ w.gives)
    (hx' : x' ∈ w'.gives) : x = x' := by
  cases q with
  | createDevice id hash token platform =>
    rw [run_create hw] at hx
    rw [run_create hw'] at hx'
    exact Option.mem_unique hx hx'
  | setDevicePushToken token target =>
    rcases run_set hw with ⟨i, rfl⟩ | ⟨rfl, -⟩
    · cases hx
    · rcases run_set hw' with ⟨i, rfl⟩ | ⟨rfl, -⟩
      · cases hx'
      · exact Option.mem_unique hx hx'
  | clearDevicePushToken i token =>
    rw [run_clear hw] at hx
    cases hx

theorem writeOnce_meets (o : Op) (q : Query) :
    (writeOnce q).Meets system (contract.asks o) (contract.commits o) (fun _ _ => True) {} := by
  refine Prog.meets_transaction (Prog.meets_query.mpr ⟨fun _ => ⟨fun _ _ _ => rfl, fun b₀ b => ?_⟩,
    fun _ => ⟨fun _ _ => ⟨fun _ => ⟨by simp [contract], trivial⟩, fun _ => trivial⟩,
      fun _ _ => trivial⟩⟩)
  refine ⟨fun _ _ => ⟨fun _ => ⟨fun w hw w' hw' x hx x' hx' => ?_, trivial⟩, fun _ => trivial⟩,
    fun _ _ => trivial⟩
  exact gives_unique (by simpa using hw) (by simpa using hw') hx hx'

def Query.Clears : Query → Prop
  | .clearDevicePushToken _ _ => True
  | .createDevice _ _ _ _ | .setDevicePushToken _ _ => False

theorem clearRejected_uses (rejected : List (UUID × String)) :
    (clearRejected rejected).Uses Query.Clears := by
  induction rejected with
  | nil => trivial
  | cons x left ih => exact Prog.uses_andThen (Prog.plain_query trivial).uses fun _ => ih

theorem retire_meets (o : Op) (rejected : List (UUID × String)) :
    (retire rejected).Meets system (contract.asks o) (contract.commits o) (fun _ _ => True) {} := by
  refine (Prog.uses_transaction (clearRejected_uses rejected)).meets_of_kept
    (J := fun l : DeviceLocal => ∀ w ∈ l.writes, w.gives = none) (by simp)
    (fun l q r new hq hl hnew w hw => ?_) (fun l _ => by simp) (fun l _ => by simp)
    (fun l q hq _ token target he => ?_) (fun l hl w hw w' _ x hx => ?_) fun _ _ _ => trivial
  · rcases List.mem_append.mp hw with hw | hw
    · exact hl w hw
    · obtain ⟨b₀, b, hw⟩ := hnew w hw
      cases q with
      | clearDevicePushToken i token =>
        rw [run_clear hw]
        rfl
      | createDevice => exact hq.elim
      | setDevicePushToken => exact hq.elim
  · subst he
    exact hq.elim
  · simp [hl w hw] at hx

theorem contract_met : contract.Met system (program cfg) := by
  intro o
  have hreply : ∀ {α : Type} {p : Script α} {f : α → Option (UUID × String)},
      p.Meets system (contract.asks o) (contract.commits o) (fun _ _ => True) {} →
      (p.andThen fun x => .ret (.ok (f x))).Meets system (contract.asks o) (contract.commits o)
        (fun _ _ => True) {} := fun hp =>
    Prog.meets_andThen (hp.mono fun _ _ _ => ⟨fun _ _ => trivial, fun _ _ => trivial⟩)
  cases o with
  | register env platform pushToken =>
    refine hreply ?_
    unfold register
    split
    · trivial
    · exact Prog.meets_andThen ((writeOnce_meets _ _).mono fun _ _ _ =>
        ⟨fun _ _ => trivial, fun _ _ => trivial⟩)
  | setPushToken deviceId pushToken =>
    refine hreply ?_
    simp only [setPushToken]
    split
    · trivial
    · exact writeOnce_meets _ _
  | retire rejected => exact hreply (retire_meets _ rejected)

/-- What a call that sets a token relies on: whoever else holds it when it commits held it all
along, so that it has been cleared. -/
structure Relies (b : Database) (c : DeviceCall) : Prop where
  waiting : ∀ token target k b₀, c.prog = .stmt (.setDevicePushToken token target) k →
    c.snapshot = some b₀ → stored target b₀.tables = true →
    ∀ i, i ≠ target → holds i token b.tables = true → holds i token b₀.tables = true
  holding : ∀ target token, .token target token ∈ c.loc.writes →
    ∀ i, i ≠ target → holds i token b.tables = true → .cleared i token ∈ c.loc.writes

structure Inv (s : DeviceState n) : Prop where
  conforms : Conforms contract system s
  one : OneRow s.base.tables
  relies : ∀ i c, s.calls i = some c → Relies s.base c

/-- Nothing is relied on where nothing waits and nothing is held. -/
theorem relies_of_empty {b : Database} {c : DeviceCall} (hsnapshot : c.snapshot = none)
    (hwrites : c.loc.writes = []) : Relies b c where
  waiting token target k b₀ _ h := by simp [hsnapshot] at h
  holding target token h := by simp [hwrites] at h

theorem Relies.mono {b b' : Database} {c : DeviceCall} (h : Relies b c)
    (hnew : ∀ i token, holds i token b'.tables = true → holds i token b.tables = true ∨
      ¬ WaitsOver c i token ∧ ¬ HoldsOver c i token) : Relies b' c where
  waiting token target k b₀ hprog hsnapshot htarget i hne hi := by
    rcases hnew i token hi with hi | ⟨hwaits, -⟩
    · exact h.waiting token target k b₀ hprog hsnapshot htarget i hne hi
    · by_contra hnot
      refine hwaits ?_
      simp only [WaitsOver, hprog, hsnapshot]
      exact ⟨trivial, Ne.symm hne, htarget, Bool.eq_false_iff.mpr hnot⟩
  holding target token hw i hne hi := by
    rcases hnew i token hi with hi | ⟨-, hholds⟩
    · exact h.holding target token hw i hne hi
    · exact absurd ⟨_, hw, rfl, (target, token), rfl, Ne.symm hne, rfl⟩ hholds

theorem Inv.began (h : Inv s) {i : Fin n} {c : DeviceCall} {q : Query}
    {k : Except Error q.Row → Prog Query Query.Row Error Reply} {b : Database}
    (hc : s.calls i = some c) (hprog : c.prog = .stmt q k) (hlive : c.loc.aborted = false)
    (hview : view c.loc.writes s.base = some b) : Relies s.base (c.began b) where
  waiting token target k' b₀ hstmt hsnapshot _ j _ hj := by
    have hmeets := h.conforms.calls i c hc
    rw [hprog] at hmeets
    have hq : q = .setDevicePushToken token target := by
      rw [show (c.began b).prog = c.prog from rfl, hprog] at hstmt
      exact (Prog.stmt.inj hstmt).1
    have hwrites : c.loc.writes = [] := (hmeets.1 hlive).1 token target hq
    rw [hwrites, view_nil] at hview
    cases hview
    cases hsnapshot
    exact hj
  holding := (h.relies i c hc).holding

theorem Inv.answered (h : Inv s) {i : Fin n} {c : DeviceCall} {q : Query}
    {k : Except Error q.Row → Prog Query Query.Row Error Reply} {b₀ b : Database}
    (hc : s.calls i = some c) (hprog : c.prog = .stmt q k) (hlive : c.loc.aborted = false)
    (hsnapshot : c.snapshot = some b₀) (hview : view c.loc.writes s.base = some b) :
    Relies s.base (c.asked system q k (system.answer q b₀ b) (system.effect q b₀ b)) where
  waiting _ _ _ _ _ hnone := by cases hnone
  holding target token hw j hne hj := by
    rcases List.mem_append.mp hw with hw | hw
    · exact List.mem_append_left _ ((h.relies i c hc).holding target token hw j hne hj)
    · refine List.mem_append_right _ ?_
      cases q with
      | createDevice => cases run_create hw
      | clearDevicePushToken => cases run_clear hw
      | setDevicePushToken token' target' =>
        rcases run_set hw with ⟨i', he⟩ | ⟨he, hstored⟩
        · cases he
        · cases he
          have hmeets := h.conforms.calls i c hc
          rw [hprog] at hmeets
          have hwrites : c.loc.writes = [] := (hmeets.1 hlive).1 token target rfl
          rw [hwrites, view_nil] at hview
          cases hview
          exact cleared_of_held hne
            ((h.relies i c hc).waiting token target k b₀ hprog hsnapshot hstored j hne hj) hj

/-- A device that gets a token at a commit is the only one to hold it. -/
theorem Inv.given (h : Inv s) {i : Fin n} {c : DeviceCall} (hc : s.calls i = some c)
    (hcommits : commits c = true) (hguard : Undisputed s i c) {w : Write} (hw : w ∈ c.loc.writes)
    {x : UUID × String} (hx : x ∈ w.gives) {j : UUID}
    (hj : holds j x.2 s.base.tables = true) (hcleared : .cleared j x.2 ∉ c.loc.writes) :
    x.1 = j := by
  cases w with
  | device row =>
    obtain ⟨d, hd, -, htoken⟩ := holds_iff.mp hj
    exact absurd htoken ((hguard hcommits _ hw x hx).2 rfl d hd)
  | token target token =>
    obtain rfl := Option.some.inj hx
    by_contra hne
    exact hcleared ((h.relies i c hc).holding target token hw j (Ne.symm hne) hj)
  | cleared => cases hx

theorem Inv.committed (h : Inv s) {i : Fin n} {c : DeviceCall}
    {k : Bool → Prog Query Query.Row Error Reply} {b : Database} (hc : s.calls i = some c)
    (hprog : c.prog = .commit k) (hlive : c.loc.aborted = false)
    (hview : view c.loc.writes s.base = some b) (hguard : Undisputed s i c) :
    OneRow b.tables ∧ ∀ j, j ≠ i → ∀ d, s.calls j = some d → Relies b d := by
  have hcommits : commits c = true := by simp [commits, hprog, hlive]
  have hsingle : contract.commits c.op c.loc := by
    have hmeets := h.conforms.calls i c hc
    rw [hprog] at hmeets
    exact (hmeets.1 hlive).1
  have hheld : ∀ j token, holds j token b.tables = true → _ := fun j token hj =>
    holds_applyAll (tables_of_view hview ▸ hj)
  constructor
  · refine oneRow_iff.mpr fun j j' token hj hj' => ?_
    rcases hheld j token hj with ⟨w, hw, hx⟩ | ⟨hj, hcleared⟩
    · rcases hheld j' token hj' with ⟨w', hw', hx'⟩ | ⟨hj', hcleared⟩
      · exact congrArg Prod.fst (hsingle w hw w' hw' _ hx _ hx')
      · exact h.given hc hcommits hguard hw hx hj' hcleared
    · rcases hheld j' token hj' with ⟨w', hw', hx'⟩ | ⟨hj', -⟩
      · exact (h.given hc hcommits hguard hw' hx' hj hcleared).symm
      · exact oneRow_iff.mp h.one j j' token hj hj'
  · intro j hne d hd
    refine (h.relies j d hd).mono fun i' token hi' => ?_
    rcases hheld i' token hi' with ⟨w, hw, hx⟩ | ⟨hi', -⟩
    · exact .inr ((hguard hcommits w hw _ hx).1 j hne d hd)
    · exact .inl hi'

theorem Inv.step (h : Inv s) (hguard : Admits s a) (hs : Step system (program cfg) s a s') :
    Inv s' := by
  have hconforms := h.conforms.step contract_met hs
  cases hs with
  | called i op idle =>
    exact ⟨hconforms, h.one, forall_update (relies_of_empty rfl rfl) fun j _ => h.relies j⟩
  | returned i c r hc hprog =>
    exact ⟨hconforms, h.one, forall_update_none fun j _ => h.relies j⟩
  | dropped i c next hc hprog ha =>
    exact ⟨hconforms, h.one, forall_update (relies_of_empty rfl rfl) fun j _ => h.relies j⟩
  | committed i c k b hc hprog hlive hview =>
    obtain ⟨hone, hothers⟩ := h.committed hc hprog hlive hview (hguard c hc)
    exact ⟨hconforms, hone, forall_update (relies_of_empty rfl rfl) hothers⟩
  | began i c q k b hc hprog hlive hsnapshot hview =>
    exact ⟨hconforms, h.one, forall_update (h.began hc hprog hlive hview) fun j _ => h.relies j⟩
  | answered i c q k b₀ b hc hprog hlive hsnapshot hview hfree =>
    exact ⟨hconforms, h.one, forall_update (h.answered hc hprog hlive hsnapshot hview) fun j _ =>
      h.relies j⟩
  | lost i c q k hc hprog hlost ha =>
    refine ⟨hconforms, h.one, forall_update ⟨fun _ _ _ _ _ hnone => (by cases hnone),
      fun target token hw j hne hj => ?_⟩ fun j _ => h.relies j⟩
    rw [Call.asked, Local.ask_writes, List.append_nil] at hw ⊢
    exact (h.relies i c hc).holding target token hw j hne hj
  | others b hforeign =>
    have hsame : ∀ i token, holds i token b.tables = holds i token s.base.tables := fun i token =>
      holds_congr (beq_iff_eq.mp hforeign)
    refine ⟨hconforms, oneRow_iff.mpr fun i j token hi hj => ?_, fun j d hd => ?_⟩
    · exact oneRow_iff.mp h.one i j token (hsame i token ▸ hi) (hsame j token ▸ hj)
    · exact (h.relies j d hd).mono fun i token hi => .inl (hsame i token ▸ hi)

theorem inv_of_idle (hidle : Idle s) (hone : OneRow s.base.tables) : Inv s where
  conforms := ⟨fun i c hc => by simp [hidle.calls i] at hc, by simp [hidle.history],
    by simp [hidle.log]⟩
  one := hone
  relies i c hc := by simp [hidle.calls i] at hc

/-- As long as each commit is admitted, no two committed rows hold one token. -/
theorem one_row_per_token (hidle : Idle s) (hone : OneRow s.base.tables)
    {as : List (DeviceAction n)} (h : Each (step system (program cfg)) Admits s as) :
    Always (step system (program cfg)) (fun s => OneRow s.base.tables ∧ PushesOnce s.base) s as :=
  (Each.always (fun _ _ _ ht hguard hstep => ht.step hguard (step_cases hstep))
    (inv_of_idle hidle hone) h).mono fun _ ht => ⟨ht.one, pushesOnce_of_oneRow ht.one⟩

end Calls

/-- No device yet. -/
def noDevices (n : ℕ) : DeviceState n where
  base := ⟨{}, valid_empty⟩

theorem noDevices_idle (n : ℕ) : Idle (noDevices n) :=
  ⟨fun _ => rfl, rfl, rfl, rfl⟩

/-- An installation that has lost its credential registers again, with the token it had. -/
def registerTwice : List (DeviceAction 1) :=
  .call 0 (.register (Backend.plainEnv 1) "ios" (some "t")) :: List.replicate 4 (.run 0) ++
    .call 0 (.register (Backend.plainEnv 2) "ios" (some "t")) :: List.replicate 4 (.run 0)

theorem two_rows_per_token : ¬ ∀ (cfg : Config) (n : ℕ) (s : DeviceState n), Idle s →
    OneRow s.base.tables → ∀ as, Always (step system (program cfg))
      (fun s => OneRow s.base.tables) s as := by
  intro h
  refine not_always_of_test ?_ (h Backend.plainConfig 1 (noDevices 1) (noDevices_idle 1)
    (by decide) registerTwice)
  decide +kernel

/-- It registers without the token and then sets it, while the token is being retired. -/
def registerThenSet : List (DeviceAction 2) :=
  .call 0 (.register (Backend.plainEnv 1) "ios" (some "t")) :: List.replicate 4 (.run 0) ++
    .call 0 (.register (Backend.plainEnv 2) "ios" none) :: List.replicate 4 (.run 0) ++
    [.call 0 (.setPushToken 20 " t "), .call 1 (.retire [(10, "t")]), .run 0, .run 1, .run 0, .run 0,
     .run 1, .run 1]

theorem one_row_registerThenSet : ∃ s',
    exec (step system (program Backend.plainConfig)) (noDevices 2) registerThenSet = some s' ∧
      s'.base.tables.devices.map (fun d => (d.id, d.pushToken)) = [(10, none), (20, some "t")] ∧
      Always (step system (program Backend.plainConfig))
        (fun s => OneRow s.base.tables ∧ PushesOnce s.base) (noDevices 2) registerThenSet := by
  obtain ⟨s', hs', hdevices⟩ := exists_of_exec_test (step system (program Backend.plainConfig))
    (noDevices 2) registerThenSet
    (fun s => s.base.tables.devices.map (fun d => (d.id, d.pushToken)) ==
      [(10, none), (20, some "t")]) (by decide +kernel)
  exact ⟨s', hs', beq_iff_eq.mp hdevices,
    one_row_per_token (noDevices_idle 2) (by decide) (by decide +kernel)⟩

end Tekir.DeviceTokens
