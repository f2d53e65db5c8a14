import Tekir.CodeSessions

/-!
# Links between devices and accounts

A verification reads the link of its device and then sets it without a condition. Two
verifications of different accounts can both read an unlinked device, and the later
commit takes the link over. The links stay with their accounts precisely if each commit
that sets one finds, in the committed row, none or its own.
-/
namespace Tekir.DeviceLinks
open Machine Table Schema Statements Environment Programs Interleaving Bookkeeping Contracts
  AccountCalls
open AccountServices (asAlreadyConsumed)

/-- The device whose link a write sets or clears. -/
def links : Write → Option UUID
  | .linked deviceId _ | .unlinked deviceId _ => some deviceId
  | _ => none

def target : Write → Option UUID
  | .linked _ userId => some userId
  | _ => none

def relinked (w : Write) (row : Device) : Device :=
  if links w = some row.id then { row with userId := target w } else row

def Linked (t : Tables) (deviceId userId : UUID) : Prop :=
  ∃ row ∈ t.devices, row.id = deviceId ∧ row.userId = some userId

def Known (t : Tables) (deviceId : UUID) : Prop :=
  ∃ row ∈ t.devices, row.id = deviceId

/-- What the rest of the backend may do to devices: register one without a link, change other
columns, and clear the link of an account that is deleted, unless the row is locked. -/
structure LinksAside (held : List Write) (t t' : Tables) : Prop where
  kept : ∀ row ∈ t.devices, ∃ row' ∈ t'.devices, row'.id = row.id ∧
    (row'.userId = row.userId ∨
      (row'.userId = none ∧ (∀ u ∈ t'.users, some u.id ≠ row.userId) ∧
        ∀ w ∈ held, links w ≠ some row.id))
  fresh : ∀ row' ∈ t'.devices, row'.userId = none ∨ ∃ row ∈ t.devices, row.id = row'.id

instance (held : List Write) (t t' : Tables) : Decidable (LinksAside held t t') :=
  decidable_of_iff (_ ∧ _) ⟨fun ⟨h₁, h₂⟩ => ⟨h₁, h₂⟩, fun h => ⟨h.kept, h.fresh⟩⟩

/-- Accounts may be deleted in between. -/
def linkSystem : Engine Database Write Query Query.Row Error :=
  engine true fun held db db' => decide (LinksAside held db.tables db'.tables)

/-- The commit sets the link of the device to the account. -/
def Sets (c : AccountCommit) (deviceId userId : UUID) : Prop :=
  Write.linked deviceId userId ∈ c.writes

/-- The commit unlinks the device from the account, or deletes the account. -/
def Releases (c : AccountCommit) (deviceId userId : UUID) : Prop :=
  Write.unlinked deviceId userId ∈ c.writes ∨
    ((∃ u ∈ c.base.tables.users, u.id = userId) ∧ ∀ u ∈ c.next.tables.users, u.id ≠ userId)

/-- The device was linked to the account, before the run or by a commit, and not released since. -/
def Holder (b₀ : Database) (history : List AccountCommit) (deviceId userId : UUID) : Prop :=
  history.foldl (fun holds c => Sets c deviceId userId ∨ (holds ∧ ¬ Releases c deviceId userId))
    (Linked b₀.tables deviceId userId)

/-- A commit that links a device which an account holds links it to that account. -/
def NeverReassigned (b₀ : Database) (history : List AccountCommit) : Prop :=
  ∀ past c, past ++ [c] <+: history → ∀ deviceId userId userId',
    Holder b₀ past deviceId userId → Sets c deviceId userId' → userId' = userId

/-- The link that the commit overwrites in the committed row is its own, or none. -/
def Admitted (c : AccountCommit) : Prop :=
  ∀ deviceId userId, Sets c deviceId userId → ∀ row ∈ c.base.tables.devices, row.id = deviceId →
    row.userId = none ∨ row.userId = some userId

section Tables

variable {t : Tables} {row : Device} {ws : List Write} {w : Write} {d a : UUID}

@[simp] theorem relinked_id (w : Write) (row : Device) : (relinked w row).id = row.id := by
  unfold relinked
  split <;> rfl

theorem devices_apply (w : Write) (t : Tables) :
    (w.apply t).devices = t.devices.map (relinked w) := by
  have hset : ∀ deviceId user, links w = some deviceId → target w = user →
      updateWhere (fun row => row.id == deviceId)
        (fun row : Device => { row with userId := user }) t.devices =
        t.devices.map (relinked w) := by
    rintro deviceId user hlinks rfl
    refine List.map_congr_left fun row _ => ?_
    by_cases hid : row.id = deviceId
    · simp [relinked, hlinks, hid]
    · simp [relinked, hlinks, hid, Ne.symm hid]
  have hsame : links w = none → t.devices.map (relinked w) = t.devices := fun h => by
    rw [List.map_congr_left (g := id) fun row _ => by simp [relinked, h], List.map_id]
  cases w with
  | linked deviceId userId => exact hset deviceId _ rfl rfl
  | unlinked deviceId userId => exact hset deviceId _ rfl rfl
  | _ => exact (hsame rfl).symm

def relinkedAll (ws : List Write) (row : Device) : Device :=
  ws.foldl (fun row w => relinked w row) row

@[simp] theorem relinkedAll_cons : relinkedAll (w :: ws) row = relinkedAll ws (relinked w row) :=
  rfl

@[simp] theorem relinkedAll_id : (relinkedAll ws row).id = row.id := by
  induction ws generalizing row with
  | nil => rfl
  | cons w ws ih => exact ih.trans (relinked_id w row)

theorem devices_applyAll (ws : List Write) (t : Tables) :
    (applyAll ws t).devices = t.devices.map (relinkedAll ws) := by
  induction ws generalizing t with
  | nil => exact (List.map_id' _).symm
  | cons w ws ih =>
    have h := ih (w.apply t)
    rw [devices_apply, List.map_map] at h
    exact h

/-- A row whose link no write touches stays as it is. -/
theorem relinkedAll_of_not (h : ∀ w ∈ ws, links w ≠ some row.id) : relinkedAll ws row = row := by
  induction ws with
  | nil => rfl
  | cons w ws ih =>
    have hw : relinked w row = row := if_neg (h w List.mem_cons_self)
    rw [relinkedAll_cons, hw]
    exact ih fun w' hw' => h w' (List.mem_cons_of_mem w hw')

theorem devices_of_not_links (h : ∀ w ∈ ws, links w = none) :
    (applyAll ws t).devices = t.devices := by
  rw [devices_applyAll]
  refine (List.map_congr_left fun row _ => ?_).trans (List.map_id _)
  exact relinkedAll_of_not fun w hw => by simp [h w hw]

/-- A transaction touches the link of one device at most, in one way. -/
def OneLink (ws : List Write) : Prop :=
  ∀ w ∈ ws, ∀ w' ∈ ws, links w ≠ none → links w' ≠ none → w = w'

theorem relinkedAll_of_mem (hone : OneLink ws) (hw : w ∈ ws) (hlinks : links w = some row.id) :
    (relinkedAll ws row).userId = target w := by
  induction ws generalizing row with
  | nil => cases hw
  | cons x xs ih =>
    have hone' : OneLink xs := fun y hy z hz =>
      hone y (List.mem_cons_of_mem x hy) z (List.mem_cons_of_mem x hz)
    rw [relinkedAll_cons]
    by_cases hmem : w ∈ xs
    · exact ih hone' hmem (by simpa using hlinks)
    · obtain rfl : w = x := (List.mem_cons.mp hw).resolve_right hmem
      have hrest : ∀ y ∈ xs, links y ≠ some (relinked w row).id := by
        intro y hy hlinks'
        obtain rfl : w = y := hone w hw y (List.mem_cons_of_mem w hy) (by simp [hlinks])
          (by simp [hlinks'])
        exact hmem hy
      rw [relinkedAll_of_not hrest]
      simp [relinked, hlinks]

theorem Known.applyAll (h : Known t d) (ws : List Write) : Known (applyAll ws t) d := by
  obtain ⟨row, hrow, rfl⟩ := h
  refine ⟨relinkedAll ws row, ?_, relinkedAll_id⟩
  rw [devices_applyAll]
  exact List.mem_map_of_mem hrow

/-- A link that is not touched stays. -/
theorem linked_applyAll_of_not (h : ∀ w ∈ ws, links w ≠ some d) :
    Linked (applyAll ws t) d a ↔ Linked t d a := by
  simp only [Linked, devices_applyAll, List.mem_map]
  constructor
  · rintro ⟨-, ⟨row, hrow, rfl⟩, hid, huser⟩
    rw [relinkedAll_id] at hid
    rw [relinkedAll_of_not (by rwa [hid])] at huser
    exact ⟨row, hrow, hid, huser⟩
  · rintro ⟨row, hrow, hid, huser⟩
    refine ⟨row, ⟨row, hrow, relinkedAll_of_not (by rwa [hid])⟩, hid, huser⟩

/-- A link that is touched is what the write makes it. -/
theorem linked_applyAll_of_mem (hone : OneLink ws) (hw : w ∈ ws) (hlinks : links w = some d) :
    Linked (applyAll ws t) d a ↔ Known t d ∧ target w = some a := by
  simp only [Linked, Known, devices_applyAll, List.mem_map]
  constructor
  · rintro ⟨-, ⟨row, hrow, rfl⟩, hid, huser⟩
    rw [relinkedAll_id] at hid
    rw [relinkedAll_of_mem hone hw (hid ▸ hlinks)] at huser
    exact ⟨⟨row, hrow, hid⟩, huser⟩
  · rintro ⟨⟨row, hrow, hid⟩, huser⟩
    refine ⟨_, ⟨row, hrow, rfl⟩, by simpa using hid, ?_⟩
    rw [relinkedAll_of_mem hone hw (hid ▸ hlinks), huser]

variable {db : Database} {a' : UUID}

theorem Linked.eq (h : Linked db.tables d a) (h' : Linked db.tables d a') : a = a' := by
  obtain ⟨row, hrow, hid, huser⟩ := h
  obtain ⟨row', hrow', hid', huser'⟩ := h'
  obtain rfl : row = row' := (db.valid.holds .devicesPkey).eq_of_key_eq hrow hrow'
    (by simp [hid, hid']) (by simp)
  exact Option.some.inj (huser.symm.trans huser')

theorem Linked.exists_user (h : Linked db.tables d a) : ∃ u ∈ db.tables.users, u.id = a := by
  obtain ⟨row, hrow, -, huser⟩ := h
  exact (db.valid.holds .devicesUserIdFkey) row hrow a (by simp [huser])

end Tables

section Contract

open Prog

/-- No link has been touched yet. -/
def NoLink (l : AccountLocal) : Prop :=
  ∀ w ∈ l.writes, links w = none

/-- The call read its device and found this row. -/
def ReadDevice (l : AccountLocal) (deviceId : UUID) (row : Device) : Prop :=
  (⟨.getDeviceByID deviceId, .ok row⟩ : Asked Query Query.Row Error) ∈ l.trace

/-- The call found or created this account. -/
def Resolved (l : AccountLocal) (user : User) : Prop :=
  (∃ phone, (⟨.getUserByPhone phone, .ok user⟩ : Asked Query Query.Row Error) ∈ l.trace) ∨
    ∃ id phone at', (⟨.createUser id phone at', .ok user⟩ : Asked Query Query.Row Error) ∈ l.trace

def Unread (l : AccountLocal) : Prop :=
  ∀ deviceId row, ¬ ReadDevice l deviceId row

/-- A link is set or cleared only by the first such statement of a transaction. -/
def Asks (l : AccountLocal) : Query → Prop
  | .linkDeviceToUser _ _ | .unlinkDeviceFromUser _ _ => NoLink l
  | _ => True

/-- A device read as linked is linked to the account of the call, or the call is refused. -/
def Refuses {α : Type} (deviceId : UUID) (l : AccountLocal) (r : Except Error α) : Prop :=
  ∀ row, ReadDevice l deviceId row → ∀ a ∈ row.userId,
    ∃ user, Resolved l user ∧ (user.id = a ∨ r = .error .deviceLinkedToOtherAccount)

def Returns : Op → AccountLocal → Reply → Prop
  | .verifyOTP _ _ _ deviceId, l, r => Refuses deviceId l r
  | .requestOTP _ _, _, _ | .refresh _ _, _, _ | .revoke _ _, _, _ | .logout _ _ _ _, _, _ => True

def contract : Contract Write Query Query.Row Error Op Reply where
  asks _ := Asks
  returns := Returns

variable {fails : Bool} {foreign : List Write → Database → Database → Bool} {cfg : Config} {env : Env}
  {phone code : String} {deviceId userId : UUID} {l : AccountLocal} {α : Type}

theorem Unread.refuses (h : Unread l) {r : Except Error α} : Refuses deviceId l r :=
  fun row hrow => absurd hrow (h deviceId row)

/-- What holds before the device is read. -/
structure Opening (l : AccountLocal) : Prop where
  noLink : NoLink l
  unread : Unread l

theorem Opening.ask {E : Engine Database Write Query Query.Row Error} (h : Opening l) {q : Query}
    {r : Except Error q.Row} {new : List Write} (hnew : ∀ w ∈ new, links w = none)
    (hq : ∀ d row, (⟨q, r⟩ : Asked Query Query.Row Error) ≠ ⟨.getDeviceByID d, .ok row⟩) :
    Opening (l.ask E q r new) := by
  refine ⟨fun w hw => ?_, fun d row hread => ?_⟩
  · rcases List.mem_append.mp hw with hw | hw
    · exact h.noLink w hw
    · exact hnew w hw
  · rcases List.mem_append.mp hread with hread | hread
    · exact h.unread d row hread
    · exact hq d row (List.mem_singleton.mp hread).symm

theorem Resolved.mono {l' : AccountLocal} {user : User} (h : Resolved l user)
    (htrace : l.trace <+: l'.trace) : Resolved l' user :=
  h.imp (fun ⟨phone, hmem⟩ => ⟨phone, htrace.subset hmem⟩)
    fun ⟨id, phone, at', hmem⟩ => ⟨id, phone, at', htrace.subset hmem⟩

theorem getUserByPhone_meets {post : AccountLocal → Except Error User → Prop}
    (hl : Opening l) (hok : ∀ l' user, Opening l' → Resolved l' user → post l' (.ok user))
    (herror : ∀ l' e, Opening l' → post l' (.error e)) :
    (ask (.getUserByPhone phone)).Meets (engine fails foreign) Asks (fun _ => True) post l := by
  refine meets_ask (fun _ => trivial) (fun b₀ b user ws hrun => ?_) fun e => ?_
  · simp only [Query.run, reads_eq_ok] at hrun
    obtain ⟨-, rfl⟩ := hrun
    refine hok _ user (hl.ask (by simp) (by simp)) (.inl ⟨phone, ?_⟩)
    exact List.mem_append_right _ (List.mem_singleton_self _)
  · exact herror _ e (hl.ask (by simp) (by simp))

theorem createUser_meets {id : UUID} {at' : Instant}
    {post : AccountLocal → Except Error User → Prop}
    (hl : Opening l) (hok : ∀ l' user, Opening l' → Resolved l' user → post l' (.ok user))
    (herror : ∀ l' e, Opening l' → post l' (.error e)) :
    (ask (.createUser id phone at')).Meets (engine fails foreign) Asks (fun _ => True) post l := by
  refine meets_ask (fun _ => trivial) (fun b₀ b user ws hrun => ?_) fun e => ?_
  · simp only [Query.run, writes_eq_ok] at hrun
    obtain ⟨-, rfl, -⟩ := hrun
    refine hok _ user (hl.ask (by simp [links]) (by simp)) (.inr ⟨id, phone, at', ?_⟩)
    exact List.mem_append_right _ (List.mem_singleton_self _)
  · exact herror _ e (hl.ask (by simp) (by simp))

theorem createOrFind_meets {at' : Instant} (hl : Opening l) :
    (createOrFind env phone at').Meets (engine fails foreign) Asks (fun _ => True)
      (fun l r => Opening l ∧ ∀ found, r = .ok found → Resolved l found.1) l := by
  refine meets_bind.mpr (createUser_meets hl (fun l₁ user h₁ hr => ⟨h₁, ?_⟩) fun l₁ e h₁ => ?_)
  · rintro found hfound
    cases hfound
    exact hr
  · simp only
    split
    · refine meets_bind.mpr (getUserByPhone_meets h₁ (fun l₂ user h₂ hr => ⟨h₂, ?_⟩)
        fun l₂ e h₂ => ⟨h₂, by simp⟩)
      rintro found hfound
      cases hfound
      exact hr
    · exact ⟨h₁, by simp⟩

theorem resolveOrCreateUser_meets {at' : Instant} (hl : Opening l) :
    (resolveOrCreateUser env phone at').Meets (engine fails foreign) Asks (fun _ => True)
      (fun l r => Opening l ∧ ∀ found, r = .ok found → Resolved l found.1) l := by
  refine meets_bind.mpr (getUserByPhone_meets hl (fun l₁ user h₁ hr => ⟨h₁, ?_⟩) fun l₁ e h₁ => ?_)
  · rintro found hfound
    cases hfound
    exact hr
  · cases e
    case noRows => exact createOrFind_meets h₁
    all_goals exact ⟨h₁, by simp⟩

/-- Once the device was read, whatever follows keeps what was decided about it. -/
structure Decided (deviceId : UUID) (user : User) (l : AccountLocal) : Prop where
  resolved : Resolved l user
  read : ∀ row, ReadDevice l deviceId row → ∀ a ∈ row.userId, user.id = a

theorem Decided.ask {E : Engine Database Write Query Query.Row Error} {user : User}
    (h : Decided deviceId user l) {q : Query} {r : Except Error q.Row} {new : List Write}
    (hq : ∀ d row, (⟨q, r⟩ : Asked Query Query.Row Error) ≠ ⟨.getDeviceByID d, .ok row⟩) :
    Decided deviceId user (l.ask E q r new) := by
  refine ⟨h.resolved.mono (List.prefix_append _ _), fun row hread a ha => ?_⟩
  rcases List.mem_append.mp hread with hread | hread
  · exact h.read row hread a ha
  · exact absurd (List.mem_singleton.mp hread).symm (hq deviceId row)

theorem Decided.refuses {user : User} (h : Decided deviceId user l) {r : Except Error α} :
    Refuses deviceId l r :=
  fun row hread a ha => ⟨user, h.resolved, .inl (h.read row hread a ha)⟩

/-- Statements that do not read a device keep the decision. -/
theorem Decided.meets {user : User} {p : Script α} {P : Query → Prop} (hp : p.Plain P)
    (hP : ∀ q, P q → (∀ l, Asks l q) ∧ ∀ d, q ≠ .getDeviceByID d) (h : Decided deviceId user l) :
    p.Meets (engine fails foreign) Asks (fun _ => True) (fun l _ => Decided deviceId user l) l := by
  induction p generalizing l with
  | ret a => exact h
  | stmt q next ih =>
    have hnext : ∀ (r : Except Error q.Row) new, Decided deviceId user
        (l.ask (engine fails foreign) q r new) := fun r new => h.ask fun d row heq => by
      cases heq
      exact (hP _ hp.1).2 d rfl
    exact ⟨fun _ => ⟨(hP q hp.1).1 l, fun b₀ b => ih _ (hp.2 _) (hnext _ _)⟩,
      fun _ => ih _ (hp.2 _) (hnext _ _)⟩
  | commit next ih => exact hp.elim
  | rollback next ih => exact hp.elim

/-- The statements after the link was decided. -/
def Follows : Query → Prop
  | .deleteRedundantDeviceFollows _ _ | .backfillFollowsUserID _ _
  | .backfillUpdatesAuthorUserID _ _ | .createRefreshToken _ _ _ _ => True
  | _ => False

theorem follows_spec (q : Query) (hq : Follows q) :
    (∀ l, Asks l q) ∧ ∀ d, q ≠ .getDeviceByID d := by
  cases q <;> simp_all [Follows, Asks]

theorem backfill_meets {user : User} (h : Decided deviceId user l) :
    (backfill deviceId userId).Meets (engine fails foreign) Asks (fun _ => True)
      (fun l _ => Decided deviceId user l) l :=
  h.meets (backfill_plain trivial trivial trivial) follows_spec

theorem linkDevice_meets {user : User} (hl : Opening l) (huser : Resolved l user) :
    (linkDevice deviceId user.id).Meets (engine fails foreign) Asks (fun _ => True)
      (fun l r => (∀ x, r = .ok x → Decided deviceId user l) ∧ Refuses deviceId l r) l := by
  refine meets_ask_andThen (fun _ => trivial) (fun b₀ b row ws hrun => ?_) fun e => ⟨by simp, ?_⟩
  · simp only [Query.run, reads_eq_ok] at hrun
    obtain ⟨-, rfl⟩ := hrun
    have hread : ∀ row', ReadDevice (l.ask (engine fails foreign) (.getDeviceByID deviceId) (.ok row) [])
        deviceId row' → row' = row := by
      intro row' hread
      rcases List.mem_append.mp hread with hread | hread
      · exact absurd hread (hl.unread deviceId row')
      · simpa using List.mem_singleton.mp hread
    have huser' : Resolved (l.ask (engine fails foreign) (.getDeviceByID deviceId) (.ok row) []) user :=
      huser.mono (List.prefix_append _ _)
    have htail : ∀ {l : AccountLocal}, Decided deviceId user l →
        (backfill deviceId user.id).Meets (engine fails foreign) Asks (fun _ => True)
          (fun l r => (∀ x, r = .ok x → Decided deviceId user l) ∧ Refuses deviceId l r) l :=
      fun h => (backfill_meets h).mono fun l r h => ⟨fun _ _ => h, h.refuses⟩
    unfold relink
    cases howner : row.userId with
    | none =>
      have hdecided : ∀ {r : Except Error Unit} {new : List Write}, Decided deviceId user
          ((l.ask (engine fails foreign) (.getDeviceByID deviceId) (.ok row) []).ask (engine fails foreign)
            (.linkDeviceToUser user.id deviceId) r new) := by
        intro r new
        refine Decided.ask ⟨huser', fun row' hrow' a ha => ?_⟩ (by simp)
        rw [hread row' hrow', howner] at ha
        cases ha
      refine meets_ask_andThen (fun _ w hw => ?_) (fun b₀ b a ws hrun => htail hdecided) fun e =>
        ⟨by simp, hdecided.refuses⟩
      exact hl.noLink w (by simpa using hw)
    | some owner =>
      simp only
      split
      · rename_i heq
        refine htail ⟨huser', fun row' hrow' a ha => ?_⟩
        rw [hread row' hrow', howner] at ha
        exact heq.symm.trans (Option.some.inj ha)
      · exact ⟨by simp, fun row' hrow' a ha => ⟨user, huser', .inr rfl⟩⟩
  · intro row hread
    rcases List.mem_append.mp hread with hread | hread
    · exact absurd hread (hl.unread deviceId row)
    · cases List.mem_singleton.mp hread

/-- A call that got this far without a refusal may end in any way. -/
theorem Refuses.of_ok {l' : AccountLocal} {a : α} {β : Type} {r : Except Error β}
    (h : Refuses deviceId l (.ok a)) (htrace : l'.trace = l.trace) : Refuses deviceId l' r := by
  intro row hread x hx
  unfold ReadDevice at hread
  rw [htrace] at hread
  obtain ⟨user, huser, hid⟩ := h row hread x hx
  refine ⟨user, ?_, .inl (hid.resolve_right (by simp))⟩
  unfold Resolved
  rwa [htrace]

/-- An error that is passed on is the same refusal. -/
theorem Refuses.of_error {l' : AccountLocal} {e : Error} {β : Type}
    (h : Refuses deviceId l (.error e : Except Error α)) (htrace : l'.trace = l.trace) :
    Refuses deviceId l' (.error e : Except Error β) := by
  intro row hread x hx
  unfold ReadDevice at hread
  rw [htrace] at hread
  obtain ⟨user, huser, hid⟩ := h row hread x hx
  refine ⟨user, ?_, hid.imp_right fun h => congrArg _ (Except.error.inj h)⟩
  unfold Resolved
  rwa [htrace]

theorem openSession_meets (hl : Opening l) :
    (openSession cfg env phone deviceId).Meets (engine fails foreign) Asks (fun _ => True)
      (Refuses deviceId) l := by
  refine meets_andThen ((resolveOrCreateUser_meets hl).mono fun l₁ r₁ h₁ => ⟨fun found hr => ?_, ?_⟩)
  · refine meets_andThen ((linkDevice_meets h₁.1 (h₁.2 found hr)).mono fun l₂ r₂ h₂ => ⟨?_, ?_⟩)
    · intro x hx
      have hissue : (issue cfg env found.1.id).Meets (engine fails foreign) Asks (fun _ => True)
          (fun l _ => Decided deviceId found.1 l) l₂ :=
        Decided.meets (plain_andThen (plain_query trivial) fun _ => trivial) follows_spec
          (h₂.1 x hx)
      exact meets_andThen (hissue.mono fun l₃ r₃ h₃ =>
        ⟨fun _ _ => h₃.refuses, fun e _ => h₃.refuses⟩)
    · rintro e rfl
      exact h₂.2.of_error rfl
  · exact fun e _ => h₁.1.unread.refuses

theorem withinTx_meets {body : Script α}
    (h : body.Meets (engine fails foreign) Asks (fun _ => True) (Refuses deviceId) l) :
    (withinTx body).Meets (engine fails foreign) Asks (fun _ => True) (Refuses deviceId) l := by
  refine meets_transaction (h.mono fun l₁ r₁ h₁ => ⟨?_, ?_⟩)
  · rintro a rfl
    exact ⟨fun _ => ⟨trivial, h₁.of_ok rfl⟩, fun _ => h₁.of_ok rfl⟩
  · rintro e rfl
    exact h₁.of_error rfl

theorem consumeAndOpen_meets {id : UUID} {hash : String} (hl : Opening l) :
    ((ask (.consumeOtpCodeIfValid env.clock id hash env.clock phone)).andThen fun _ =>
      openSession cfg env phone deviceId).Meets (engine fails foreign) Asks (fun _ => True)
        (Refuses deviceId) l := by
  refine meets_ask_andThen (fun _ => trivial) (fun b₀ b a ws hrun => ?_) fun e => ?_
  · simp only [Query.run, bind_eq_ok, writes_eq_ok] at hrun
    obtain ⟨row₀, -, row, -, -, rfl, -⟩ := hrun
    exact openSession_meets (hl.ask (by simp [links]) (by simp))
  · exact (hl.ask (by simp) (by simp)).unread.refuses

theorem refuses_asAlreadyConsumed {r : Except Error α} (h : Refuses deviceId l r) :
    Refuses deviceId l (asAlreadyConsumed r) := by
  rcases r with e | a
  · cases e
    case noRows =>
      intro row hread x hx
      obtain ⟨user, huser, hid⟩ := h row hread x hx
      exact ⟨user, huser, .inl (hid.resolve_right (by simp))⟩
    all_goals exact h
  · exact h

theorem opening_start : Opening {} :=
  ⟨by simp [NoLink], by simp [Unread, ReadDevice]⟩

theorem verifyOTP_meets : (verifyOTP cfg env phone code deviceId).Meets (engine fails foreign) Asks
    (fun _ => True) (Refuses deviceId) {} := by
  unfold verifyOTP
  split
  · exact opening_start.unread.refuses
  · split
    · exact opening_start.unread.refuses
    · exact withinTx_meets (openSession_meets opening_start)
  · rename_i normal _ _
    refine meets_bind.mpr (meets_readOnce (fun _ => trivial) (fun b₀ b row ws hrun => ?_) fun e => ?_)
    · simp only [Query.run, reads_eq_ok] at hrun
      obtain ⟨-, rfl⟩ := hrun
      have hl : Opening (Local.ask (engine fails foreign) (.getLatestOtpCode normal) (.ok row) [] {}) :=
        opening_start.ask (by simp) (by simp)
      simp only
      split
      · exact hl.unread.refuses
      · unfold checkCode
        split
        · refine meets_bind.mpr ((withinTx_meets (consumeAndOpen_meets ?_)).mono
            fun l r h => refuses_asAlreadyConsumed h)
          exact ⟨by simp [NoLink], hl.unread⟩
        · refine meets_bind.mpr (meets_writeOnce (fun _ => trivial) (fun b₀ b a ws hrun => ?_)
            fun r e => ?_)
          · have hl' : Unread ((Local.ask (engine fails foreign) (.incrementOtpAttempts row.id) (.ok a) ws
                (Local.ask (engine fails foreign) (.getLatestOtpCode normal) (.ok row) [] {}).drop).publish) :=
              fun d row' hread => by simp [ReadDevice] at hread
            exact ⟨trivial, hl'.refuses⟩
          · have hl' : Unread ((Local.ask (engine fails foreign) (.incrementOtpAttempts row.id) r []
                (Local.ask (engine fails foreign) (.getLatestOtpCode normal) (.ok row) [] {}).drop).drop) :=
              fun d row' hread => by simp [ReadDevice] at hread
            exact hl'.refuses
    · have hl : Unread (Local.ask (engine fails foreign) (.getLatestOtpCode normal) (.error e) [] {}) :=
        (opening_start.ask (by simp) (by simp)).unread
      cases e <;> exact Unread.refuses hl

theorem logout_meets {token : String} {device : Option UUID} :
    (logout cfg env userId token device).Meets (engine fails foreign) Asks (fun _ => True)
      (fun _ _ => True) {} := by
  have hrevoke : (revoke cfg env token).Meets (engine fails foreign) Asks (fun _ => True)
      (fun l _ => NoLink l) {} := by
    refine (revoke_uses cfg env token).meets_of_kept (J := NoLink) (by simp [NoLink])
      (fun l q r new hq hl hnew w hw => ?_) (fun l _ => by simp [NoLink])
      (fun l _ => by simp [NoLink]) (fun l q hq _ => ?_) (fun _ _ => trivial) fun l _ h => h
    · rcases List.mem_append.mp hw with hw | hw
      · exact hl w hw
      · obtain ⟨b₀, b, hw⟩ := hnew w hw
        have hemits : q.Emits w := emits_of_mem hw
        cases q <;> cases w <;> first | rfl | exact hq.elim | exact hemits.elim
    · cases q <;> trivial
  refine meets_andThen (hrevoke.mono fun l r hl => ⟨fun _ _ => ?_, fun _ _ => trivial⟩)
  cases device with
  | none => trivial
  | some d =>
    exact meets_bind.mpr (meets_writeOnce (fun _ => hl) (fun _ _ _ _ _ => ⟨trivial, trivial⟩)
      fun _ _ => trivial)

theorem contract_met : contract.Met (engine fails foreign) (program cfg) := by
  intro o
  cases o with
  | verifyOTP env phone code deviceId =>
    refine meets_bind.mpr (verifyOTP_meets.mono fun l r h => ?_)
    rcases r with e | session
    · exact h.of_error rfl
    · exact h.of_ok rfl
  | requestOTP env phone =>
    refine (requestOTP_uses cfg env phone).meets (fun l q hq => ?_) (fun _ => trivial) fun _ _ => trivial
    cases q <;> trivial
  | refresh env token =>
    refine (uses_reply (refresh_uses cfg env token) _).meets
      (fun l q hq => ?_) (fun _ => trivial) fun _ _ => trivial
    cases q <;> trivial
  | revoke env token =>
    refine (uses_reply (revoke_uses cfg env token) _).meets
      (fun l q hq => ?_) (fun _ => trivial) fun _ _ => trivial
    cases q <;> trivial
  | logout env userId token deviceId =>
    exact meets_andThen (logout_meets.mono fun _ _ _ => ⟨fun _ _ => trivial, fun _ _ => trivial⟩)

end Contract

section Law

variable {b₀ db db' : Database} {h : List AccountCommit} {c : AccountCommit} {l l' : AccountLocal}
  {d a : UUID}

/-- What an open transaction knows of the links it has touched. -/
structure Touches (db : Database) (l : AccountLocal) : Prop where
  one : OneLink l.writes
  linked : ∀ d a, Write.linked d a ∈ l.writes → Known db.tables d
  unlinked : ∀ d a, Write.unlinked d a ∈ l.writes → Linked db.tables d a

/-- The statement that touches a link is the first of its transaction. -/
theorem link_of_effect {q : Query} {b b' : Database} {w : Write} (hview : view l.writes db = some b)
    (hasks : Asks l q) (hw : w ∈ effect q b' b) (hlinks : links w ≠ none) :
    NoLink l ∧ effect q b' b = [w] ∧
      ((∃ d a, w = .linked d a ∧ Known db.tables d) ∨
        ∃ d a, w = .unlinked d a ∧ Linked db.tables d a) := by
  have hemits : q.Emits w := emits_of_mem hw
  obtain ⟨x, hrun⟩ := mem_effect hw
  have hdevices : NoLink l → b.tables.devices = db.tables.devices := fun hno =>
    (congrArg Tables.devices (tables_of_view hview)).trans (devices_of_not_links hno)
  cases q with
  | linkDeviceToUser userId id =>
    simp only [Query.run] at hrun
    split at hrun
    · rename_i hany
      simp only [writes_eq_ok] at hrun
      rw [hrun.2.1, List.mem_singleton] at hw
      refine ⟨hasks, hw ▸ hrun.2.1, .inl ⟨id, userId, hw, ?_⟩⟩
      simpa [Known, hdevices hasks] using hany
    · simp only [reads_eq_ok] at hrun
      simp [hrun.2] at hw
  | unlinkDeviceFromUser id userId =>
    simp only [Query.run] at hrun
    split at hrun
    · rename_i hany
      simp only [writes_eq_ok] at hrun
      rw [hrun.2.1, List.mem_singleton] at hw
      refine ⟨hasks, hw ▸ hrun.2.1, .inr ⟨id, userId, hw, ?_⟩⟩
      simpa [Linked, hdevices hasks] using hany
    · simp only [reads_eq_ok] at hrun
      simp [hrun.2] at hw
  | _ => cases w <;> first | exact hemits.elim | exact absurd rfl hlinks

theorem Touches.ask (hK : Touches db l) {q : Query} {r : Except Error q.Row} {b b' : Database}
    (hview : view l.writes db = some b) (hasks : Asks l q) :
    Touches db (l.ask linkSystem q r (effect q b' b)) := by
  by_cases hno : ∀ w ∈ effect q b' b, links w = none
  · refine ⟨?_, fun d a hmem => ?_, fun d a hmem => ?_⟩
    · intro w hw w' hw' hlinks hlinks'
      rcases List.mem_append.mp hw with hw | hw
      · rcases List.mem_append.mp hw' with hw' | hw'
        · exact hK.one w hw w' hw' hlinks hlinks'
        · exact absurd (hno w' hw') hlinks'
      · exact absurd (hno w hw) hlinks
    · rcases List.mem_append.mp hmem with hmem | hmem
      · exact hK.linked d a hmem
      · cases hno _ hmem
    · rcases List.mem_append.mp hmem with hmem | hmem
      · exact hK.unlinked d a hmem
      · cases hno _ hmem
  · obtain ⟨w, hw⟩ := not_forall.mp hno
    obtain ⟨hmem, hlinks⟩ := Classical.not_imp.mp hw
    obtain ⟨hnone, heffect, hfact⟩ := link_of_effect hview hasks hmem hlinks
    rw [heffect]
    have hall : ∀ x ∈ l.writes ++ [w], links x ≠ none → x = w := by
      intro x hx hne
      rcases List.mem_append.mp hx with hx | hx
      · exact absurd (hnone x hx) hne
      · exact List.mem_singleton.mp hx
    refine ⟨fun x hx y hy hxne hyne => (hall x hx hxne).trans (hall y hy hyne).symm, ?_, ?_⟩
    · intro d a hmem'
      have heq := hall _ hmem' (by simp [links])
      rcases hfact with ⟨d', a', rfl, hknown⟩ | ⟨d', a', rfl, hlinked⟩
      · cases heq
        exact hknown
      · cases heq
    · intro d a hmem'
      have heq := hall _ hmem' (by simp [links])
      rcases hfact with ⟨d', a', rfl, hknown⟩ | ⟨d', a', rfl, hlinked⟩
      · cases heq
      · cases heq
        exact hlinked

theorem not_links_of_apart {ws : List Write} {w' : Write} (hlinks : links w' = some d)
    (hapart : ∀ w ∈ ws, clash w w' = false) : ∀ w ∈ ws, links w ≠ some d := by
  intro w hw heq
  have hclash := hapart w hw
  cases w with
  | linked | unlinked =>
    cases w' with
    | linked | unlinked =>
      cases heq
      cases hlinks
      simp [clash, Write.locks] at hclash
    | _ => cases hlinks
  | _ => cases heq

/-- The rows an open transaction has touched are locked. -/
theorem Touches.stable (hK : Touches db l') (hview : view l.writes db = some db')
    (hapart : ∀ w ∈ l.writes, ∀ w' ∈ l'.writes, clash w w' = false) : Touches db' l' := by
  have htables := tables_of_view hview
  refine ⟨hK.one, fun d a hmem => ?_, fun d a hmem => ?_⟩
  · rw [htables]
    exact (hK.linked d a hmem).applyAll _
  · rw [htables, linked_applyAll_of_not (not_links_of_apart rfl fun w hw => hapart w hw _ hmem)]
    exact hK.unlinked d a hmem

theorem LinksAside.known {held : List Write} (h : LinksAside held db.tables db'.tables)
    (hknown : Known db.tables d) : Known db'.tables d := by
  obtain ⟨row, hrow, rfl⟩ := hknown
  obtain ⟨row', hrow', hid, -⟩ := h.kept row hrow
  exact ⟨row', hrow', hid⟩

/-- A link goes with its account, and not while it is locked. -/
theorem LinksAside.linked {held : List Write} (h : LinksAside held db.tables db'.tables)
    (hlinked : Linked db.tables d a) : Linked db'.tables d a ∨
      ((∀ u ∈ db'.tables.users, u.id ≠ a) ∧ ∀ w ∈ held, links w ≠ some d) := by
  obtain ⟨row, hrow, rfl, huser⟩ := hlinked
  obtain ⟨row', hrow', hid, hkept | ⟨-, hgone, hfree⟩⟩ := h.kept row hrow
  · exact .inl ⟨row', hrow', hid, hkept.trans huser⟩
  · refine .inr ⟨fun u hu heq => hgone u hu ?_, hfree⟩
    rw [huser, heq]

theorem LinksAside.of_linked {held : List Write} (h : LinksAside held db.tables db'.tables)
    (hlinked : Linked db'.tables d a) : Linked db.tables d a := by
  obtain ⟨row', hrow', rfl, huser⟩ := hlinked
  rcases h.fresh row' hrow' with hnone | ⟨row, hrow, hid⟩
  · simp [hnone] at huser
  · obtain ⟨row'', hrow'', hid'', hkept⟩ := h.kept row hrow
    obtain rfl : row'' = row' := (db'.valid.holds .devicesPkey).eq_of_key_eq hrow'' hrow'
      (by simp [hid'', hid]) (by simp)
    rcases hkept with hkept | ⟨hnone, -⟩
    · exact ⟨row, hrow, hid, hkept.symm.trans huser⟩
    · simp [hnone] at huser

theorem holder_append : Holder b₀ (h ++ [c]) d a ↔
    Sets c d a ∨ (Holder b₀ h d a ∧ ¬ Releases c d a) := by
  simp [Holder, List.foldl_append]

theorem neverReassigned_append : NeverReassigned b₀ (h ++ [c]) ↔ NeverReassigned b₀ h ∧
    ∀ d a a', Holder b₀ h d a → Sets c d a' → a' = a := by
  constructor
  · intro hnever
    refine ⟨fun past e hpast => hnever past e (hpast.trans (List.prefix_append h [c])), ?_⟩
    exact hnever h c (List.prefix_refl _)
  · rintro ⟨hnever, hlast⟩ past e hpast
    rcases List.prefix_concat_iff.mp hpast with heq | hpast
    · obtain ⟨rfl, hlast'⟩ := List.append_inj' heq rfl
      obtain rfl := List.singleton_inj.mp hlast'
      exact hlast
    · exact hnever past e hpast

/-- The history tells who holds which link: exactly the committed links, as long as every
commit so far was admitted, and in any case at least these. -/
structure Ledger (b₀ : Database) (h : List AccountCommit) (db : Database) : Prop where
  known : ∀ d a, Holder b₀ h d a → Known db.tables d
  held : ∀ d a, Linked db.tables d a → Holder b₀ h d a
  linked : (∀ c ∈ h, Admitted c) → ∀ d a, Holder b₀ h d a → Linked db.tables d a
  exact : NeverReassigned b₀ h ↔ ∀ c ∈ h, Admitted c

/-- In the admitted part of a run the next commit is admitted iff it takes over no link. -/
theorem Ledger.exact_append (hI : Ledger b₀ h db) (hbase : c.base = db) :
    NeverReassigned b₀ (h ++ [c]) ↔ ∀ e ∈ h ++ [c], Admitted e := by
  subst hbase
  rw [neverReassigned_append, hI.exact, List.forall_mem_append, List.forall_mem_singleton]
  refine and_congr_right fun hall => ?_
  constructor
  · intro hlast d a hsets row hrow hid
    cases huser : row.userId with
    | none => exact .inl rfl
    | some a' =>
      have hholds := hI.held d a' ⟨row, hrow, hid, huser⟩
      exact .inr (congrArg some (hlast d a' a hholds hsets).symm)
  · intro hadmitted d a a' hholds hsets
    obtain ⟨row, hrow, hid, huser⟩ := hI.linked hall d a hholds
    rcases hadmitted d a' hsets row hrow hid with hnone | hsome
    · simp [hnone] at huser
    · exact Option.some.inj (hsome.symm.trans huser)

/-- A commit of a call keeps the ledger. -/
theorem Ledger.append (hI : Ledger b₀ h db) (hK : Touches db l)
    (hview : view l.writes db = some db') (author : Option (ℕ × Op)) :
    Ledger b₀ (h ++ [{ author, loc := l, base := db, next := db' }]) db' := by
  have htables := tables_of_view hview
  -- what a touched link was before, and what it is afterwards
  have htouched : ∀ d a, (∃ w ∈ l.writes, links w = some d) → (Linked db'.tables d a ↔
      Write.linked d a ∈ l.writes) := by
    rintro d a ⟨w, hw, hlinks⟩
    rw [htables, linked_applyAll_of_mem hK.one hw hlinks]
    cases w with
    | linked d' a' =>
      cases hlinks
      simp only [target, Option.some.injEq]
      constructor
      · rintro ⟨-, rfl⟩
        exact hw
      · intro hmem
        cases hK.one _ hw _ hmem (by simp [links]) (by simp [links])
        exact ⟨hK.linked d a hmem, rfl⟩
    | unlinked d' a' =>
      cases hlinks
      simp only [target, reduceCtorEq, and_false, false_iff]
      intro hmem
      cases hK.one _ hw _ hmem (by simp [links]) (by simp [links])
    | _ => cases hlinks
  have huntouched : ∀ d a, (¬ ∃ w ∈ l.writes, links w = some d) → (Linked db'.tables d a ↔
      Linked db.tables d a) := by
    intro d a hno
    rw [htables]
    exact linked_applyAll_of_not fun w hw heq => hno ⟨w, hw, heq⟩
  refine ⟨fun d a hholds => ?_, fun d a hlinked => ?_, fun hall d a hholds => ?_,
    hI.exact_append rfl⟩
  · rw [htables]
    rcases holder_append.mp hholds with hsets | ⟨hholds, -⟩
    · exact (hK.linked d a hsets).applyAll _
    · exact (hI.known d a hholds).applyAll _
  · refine holder_append.mpr ?_
    by_cases hmem : ∃ w ∈ l.writes, links w = some d
    · exact .inl ((htouched d a hmem).mp hlinked)
    · refine .inr ⟨hI.held d a ((huntouched d a hmem).mp hlinked), ?_⟩
      rintro (hunlinked | ⟨-, hgone⟩)
      · exact hmem ⟨_, hunlinked, rfl⟩
      · obtain ⟨u, hu, hid⟩ := hlinked.exists_user
        exact hgone u hu hid
  · obtain ⟨hpast, hadmitted⟩ := List.forall_mem_append.mp hall
    have hadmitted := List.forall_mem_singleton.mp hadmitted
    rcases holder_append.mp hholds with hsets | ⟨hholds, hrelease⟩
    · exact (htouched d a ⟨_, hsets, rfl⟩).mpr hsets
    · have hlinked := hI.linked hpast d a hholds
      by_cases hmem : ∃ w ∈ l.writes, links w = some d
      · obtain ⟨w, hw, hlinks⟩ := hmem
        cases w with
        | linked d' a' =>
          cases hlinks
          obtain ⟨row, hrow, hid, huser⟩ := hlinked
          rcases hadmitted d a' hw row hrow hid with hnone | hsome
          · simp [hnone] at huser
          · obtain rfl := Option.some.inj (hsome.symm.trans huser)
            exact (htouched d a' ⟨_, hw, rfl⟩).mpr hw
        | unlinked d' a' =>
          cases hlinks
          obtain rfl := (hK.unlinked d a' hw).eq hlinked
          exact absurd (.inl hw) hrelease
        | _ => cases hlinks
      · exact (huntouched d a hmem).mpr hlinked

/-- What the rest of the backend commits keeps the ledger. -/
theorem Ledger.append_others (hI : Ledger b₀ h db) {held : List Write}
    (haside : LinksAside held db.tables db'.tables) :
    Ledger b₀ (h ++ [{ author := none, base := db, next := db' }]) db' := by
  have hno : ∀ d a, ¬ Sets ({ author := none, base := db, next := db' } : AccountCommit) d a :=
    fun d a => by simp [Sets, Commit.writes]
  refine ⟨fun d a hholds => ?_, fun d a hlinked => ?_, fun hall d a hholds => ?_,
    hI.exact_append rfl⟩
  · obtain ⟨hholds, -⟩ := (holder_append.mp hholds).resolve_left (hno d a)
    exact haside.known (hI.known d a hholds)
  · refine holder_append.mpr (.inr ⟨hI.held d a (haside.of_linked hlinked), ?_⟩)
    rintro (hunlinked | ⟨-, hgone⟩)
    · simp [Commit.writes] at hunlinked
    · obtain ⟨u, hu, hid⟩ := hlinked.exists_user
      exact hgone u hu hid
  · obtain ⟨hholds, hrelease⟩ := (holder_append.mp hholds).resolve_left (hno d a)
    have hlinked := hI.linked (List.forall_mem_append.mp hall).1 d a hholds
    rcases haside.linked hlinked with hlinked' | ⟨hgone, -⟩
    · exact hlinked'
    · exact absurd (.inr ⟨hlinked.exists_user, hgone⟩) hrelease

theorem law (b₀ : Database) :
    Law contract linkSystem (Ledger b₀) (fun _ _ _ db _ l => Touches db l) where
  start t o h b _ _ := ⟨by simp [OneLink], by simp, by simp⟩
  began t o h b l v _ hK _ := hK
  answered t o h b l q v₀ v _ hK _ hview hasks := hK.ask hview hasks
  lost t o h b s l q hK _ := by
    refine ⟨?_, ?_, ?_⟩
    · simpa using hK.one
    · simpa using hK.linked
    · simpa using hK.unlinked
  dropped t o h b s l _ := ⟨by simp [OneLink], by simp, by simp⟩
  kept t o h b s l b' hI hK _ hview := hI.append hK hview _
  published t o h b s l b' _ _ _ _ := ⟨by simp [OneLink], by simp, by simp⟩
  stable t o h b s l b' t' o' s' l' _ _ _ _ hview hK' hapart := hK'.stable hview hapart
  foreign ws h b b' hI hforeign := hI.append_others (of_decide_eq_true hforeign)
  foreign_stable ws h b b' t o s l _ hK hforeign hheld := by
    have haside : LinksAside ws b.tables b'.tables := of_decide_eq_true hforeign
    refine ⟨hK.one, fun d a hmem => haside.known (hK.linked d a hmem), fun d a hmem => ?_⟩
    refine (haside.linked (hK.unlinked d a hmem)).resolve_right fun h => ?_
    exact h.2 _ (hheld _ hmem) rfl

end Law

variable {n : ℕ} {cfg : Config} {s s' : AccountState n} {as : List (AccountAction n)}

/-- A verification that read its device as linked to another account than its own was refused,
and has committed nothing. -/
def Refused (s : AccountState n) : Prop :=
  ∀ done ∈ s.log, ∀ env phone code deviceId, done.op = .verifyOTP env phone code deviceId →
    ∀ row, ReadDevice done.loc deviceId row → ∀ a ∈ row.userId,
      ∃ user, Resolved done.loc user ∧ (user.id ≠ a →
        done.result = .error .deviceLinkedToOtherAccount ∧
          ∀ c ∈ s.history, ¬ By done.ticket c)

theorem ledger_start (db : Database) : Ledger db [] db :=
  ⟨fun _ _ ⟨row, hrow, hid, _⟩ => ⟨row, hrow, hid⟩, fun _ _ h => h, fun _ _ _ h => h,
    by simp [NeverReassigned]⟩

theorem refused (hs : Idle s) (h : exec (step linkSystem (program cfg)) s as = some s') :
    Refused s' := by
  intro done hdone env phone code deviceId hop row hread a ha
  have hreturns := (Conforms.exec contract_met hs h).log done hdone
  have hsettled := (Conforms.exec CodeSessions.contract_met hs h).log done hdone
  simp only [contract, hop, Returns] at hreturns
  obtain ⟨user, huser, hid⟩ := hreturns row hread a ha
  refine ⟨user, huser, fun hne => ?_⟩
  have hresult := hid.resolve_left hne
  refine ⟨hresult, fun c hc hby => ?_⟩
  simp only [CodeSessions.contract, hop, hresult, CodeSessions.Returns] at hsettled
  have hmine : done.loc.mine = [] := by
    rcases hsettled with hmine | ⟨id, -, he⟩
    · exact hmine
    · cases he
  have hmem := ((Books.exec hs h).mem_mine hdone).mpr ⟨c, hc, hby, rfl⟩
  simp [hmine] at hmem

theorem ledger (hs : Idle s) (h : exec (step linkSystem (program cfg)) s as = some s') :
    Ledger s.base s'.history s'.base :=
  (Governed.exec contract_met (law s.base) (.of_idle hs (ledger_start s.base))
    h).base

/-- No link is reassigned and conflicting verifications are refused, precisely if every commit
that sets a link found it free in the committed rows, or its own. -/
theorem links_stay_iff (hs : Idle s) (h : exec (step linkSystem (program cfg)) s as = some s') :
    (NeverReassigned s.base s'.history ∧ Refused s') ↔ ∀ c ∈ s'.history, Admitted c := by
  rw [and_iff_left (refused hs h)]
  exact (ledger hs h).exact

theorem unlinked_valid :
    Valid { devices := [{ id := 7, tokenHash := "d", platform := .ios }] } := by
  decide

/-- One device without a link. -/
def unlinked : AccountState 2 where
  base := ⟨_, unlinked_valid⟩

theorem unlinked_idle : Idle unlinked :=
  ⟨fun _ => rfl, rfl, rfl, rfl⟩

def verifications : List (AccountAction 2) :=
  [.call 0 (.verifyOTP (Backend.plainEnv 1) "5551234567" "" 7),
   .call 1 (.verifyOTP (Backend.plainEnv 2) "5557654321" "" 7)]

/-- The second verification reads its device before the first one commits. -/
def crossing : List (AccountAction 2) :=
  verifications ++ List.replicate 6 (.run 0) ++ List.replicate 6 (.run 1) ++
    List.replicate 12 (.run 0) ++ List.replicate 12 (.run 1)

/-- The second verification starts after the first one has returned. -/
def oneAfterTheOther : List (AccountAction 2) :=
  verifications ++ List.replicate 18 (.run 0) ++ List.replicate 8 (.run 1)

def linkWrites (s : AccountState n) : List (List Write) :=
  s.history.map fun c => c.writes.filter fun w => (links w).isSome

/-- Both verifications return a session, and the device ends up with the later one. -/
theorem crossing_reassigns : ∃ s',
    exec (step linkSystem (program Backend.plainConfig)) unlinked crossing = some s' ∧
      (s'.log.map fun d => d.result.isOk) = [true, true] ∧
      ¬ NeverReassigned unlinked.base s'.history := by
  obtain ⟨s', hs', htest⟩ := exists_of_exec_test (step linkSystem (program Backend.plainConfig))
    unlinked crossing (fun s => (s.log.map fun d => d.result.isOk) == [true, true] &&
      linkWrites s == [[.linked 7 10], [.linked 7 20]]) (by decide +kernel)
  simp only [Bool.and_eq_true, beq_iff_eq, linkWrites] at htest
  obtain ⟨hlog, hlinks⟩ := htest
  refine ⟨s', hs', hlog, fun hnever => ?_⟩
  have hsets : ∀ {c : AccountCommit} {d a : UUID},
      (c.writes.filter fun w => (links w).isSome) = [.linked d a] → Sets c d a := fun h =>
    List.mem_of_mem_filter (h ▸ List.mem_singleton_self _)
  obtain ⟨c, rest, hhistory, hc, hrest⟩ := List.map_eq_cons_iff.mp hlinks
  obtain ⟨c', rest', rfl, hc', hnil⟩ := List.map_eq_cons_iff.mp hrest
  obtain rfl := List.map_eq_nil_iff.mp hnil
  have hholder : Holder unlinked.base ([] ++ [c]) 7 10 := holder_append.mpr (.inl (hsets hc))
  have heq := hnever [c] c' (hhistory ▸ List.prefix_refl _) 7 10 20 hholder (hsets hc')
  cases heq

/-- One after the other, the second verification is refused. -/
theorem refused_one_after_the_other : ∃ s',
    exec (step linkSystem (program Backend.plainConfig)) unlinked oneAfterTheOther = some s' ∧
      (s'.log.map fun d => d.result.isOk) = [true, false] ∧
      ((NeverReassigned unlinked.base s'.history ∧ Refused s') ↔
        ∀ c ∈ s'.history, Admitted c) := by
  obtain ⟨s', hs', htest⟩ := exists_of_exec_test (step linkSystem (program Backend.plainConfig))
    unlinked oneAfterTheOther (fun s => (s.log.map fun d => d.result.isOk) == [true, false])
    (by decide +kernel)
  exact ⟨s', hs', by simpa using htest, links_stay_iff unlinked_idle hs'⟩

end Tekir.DeviceLinks
