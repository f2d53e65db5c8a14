import Mathlib.Data.List.Induction
import Tekir.AccountWrites
import Tekir.Contracts

/-!
# Verifications of one number that race

Every call resolves the account of the number, links its own device and issues a session,
in one transaction. A call that loses the race for the new account runs its second lookup
in an aborted transaction, and one that claims a follow the account has meanwhile got
aborts as well. Without these two, all calls end up with the one account.
-/
namespace Tekir.AccountRace
open Machine Table Schema Statements Environment Programs Interleaving Bookkeeping Contracts
  AccountCalls AccountWrites
open AccountServices (Session)

/-- Nothing is lost, and nobody else writes. -/
def reliable : Engine Database Write Query Query.Row Error :=
  engine false fun _ _ _ => false

/-- The arguments of a call, and what it draws. -/
structure Verification where
  env : Env
  rawPhone : String
  code : String
  deviceId : UUID

def Verification.op (v : Verification) : Op :=
  .verifyOTP v.env v.rawPhone v.code v.deviceId

/-- The device is registered and linked to no account. -/
def Unlinked (t : Tables) (deviceId : UUID) : Prop :=
  (∃ row ∈ t.devices, row.id = deviceId) ∧
    ∀ row ∈ t.devices, row.id = deviceId → row.userId = none

/-- What the call draws is new. -/
structure Fresh (cfg : Config) (t : Tables) (v : Verification) : Prop where
  user : ∀ u ∈ t.users, u.id ≠ v.env.uuid 0
  token : ∀ r ∈ t.refreshTokens, r.id ≠ v.env.uuid 1
  tokenHash : ∀ r ∈ t.refreshTokens, r.tokenHash ≠ hashRefreshToken cfg v.env.token

/-- Two calls present different devices and draw different values. -/
structure Distinct (cfg : Config) (v v' : Verification) : Prop where
  device : v.deviceId ≠ v'.deviceId
  user : v.env.uuid 0 ≠ v'.env.uuid 0
  token : v.env.uuid 1 ≠ v'.env.uuid 1
  tokenHash : hashRefreshToken cfg v.env.token ≠ hashRefreshToken cfg v'.env.token

/-- Verifications of a new number, approved by the provider, from distinct unlinked devices. -/
structure Racing (cfg : Config) (phone : String) (db : Database) (vs : List Verification) :
    Prop where
  newPhone : ∀ u ∈ db.tables.users, u.phone ≠ phone
  normal : ∀ v ∈ vs, normalizePhone v.rawPhone = .ok phone
  approved : ∀ v ∈ vs, ∃ p, v.env.external = some p ∧ p.checkVerification = .ok ()
  unlinked : ∀ v ∈ vs, Unlinked db.tables v.deviceId
  fresh : ∀ v ∈ vs, Fresh cfg db.tables v
  distinct : vs.Pairwise (Distinct cfg)
  /-- Only an update with an author carries an idempotency key. -/
  unkeyed : ∀ u ∈ db.tables.updates, u.authorUserId = none → u.idempotencyKey = none

/-- The call reports a new account. -/
def ReportsNew (d : AccountDone) : Prop :=
  ∃ session, d.result = .ok (some session) ∧ session.isNewAccount = true

/-- All calls opened sessions of the only account with the number, and one reports it as new. -/
def OneAccount {n : ℕ} (phone : String) (s : AccountState n) : Prop :=
  ∃ user, (s.base.tables.users.filter fun u => u.phone == phone) = [user] ∧
    (∀ d ∈ s.log, ∃ session, d.result = .ok (some session) ∧ session.userId = user.id) ∧
    ∃ d ∈ s.log, ReportsNew d ∧ ∀ d' ∈ s.log, ReportsNew d' → d'.ticket = d.ticket

/-- Nothing stands in the way of the statement: the number is not taken yet, and the account
follows none of the cats whose follows it is to claim. -/
def Unhindered (q : Query) (snapshot db : Database) : Prop :=
  match q with
  | .createUser _ phone _ => ∀ u ∈ db.tables.users, u.phone ≠ phone
  | .backfillFollowsUserID userId deviceId =>
    ∀ f ∈ db.tables.follows, unowned deviceId f = true → f ∈ snapshot.tables.follows →
      ∀ g ∈ db.tables.follows, g.userId = some userId → g.catId ≠ f.catId
  | _ => True

/-- The statement that completes in this step is unhindered by what its transaction sees. -/
def Admits {n : ℕ} (s : AccountState n) (a : AccountAction n) : Prop :=
  ∀ i, a = .run i → ∀ c, s.calls i = some c → c.loc.aborted = false → ∀ q k, c.prog = .stmt q k →
    ∀ snapshot, c.snapshot = some snapshot → ∀ db, view c.loc.writes s.base = some db →
      Unhindered q snapshot db

section Contract

open Prog

variable {cfg : Config} {v : Verification} {phone : String} {l l' : AccountLocal}

def Failing (x : Asked Query Query.Row Error) : Prop :=
  reliable.failure x.answer = true

/-- A statement answered as it is for a call that nothing stands in the way of. -/
def Good : Asked Query Query.Row Error → Prop
  | ⟨.getUserByPhone _, r⟩ => (∃ user, r = .ok user) ∨ r = .error .noRows
  | ⟨.getDeviceByID _, r⟩ => ∃ row, r = .ok row ∧ row.userId = none
  | ⟨_, r⟩ => ∃ a, r = .ok a

/-- The account the call works for: created by it, or found. -/
def Knows (phone : String) (l : AccountLocal) (userId : UUID) : Prop :=
  ∃ row : User, row.id = userId ∧ row.phone = phone ∧
    (Write.user row ∈ l.writes ∨
      (⟨.getUserByPhone phone, .ok row⟩ : Asked Query Query.Row Error) ∈ l.trace)

def NoToken (l : AccountLocal) : Prop :=
  ∀ w ∈ l.writes, ∀ row, w ≠ .refreshToken row

/-- What the call asks, in which stage. -/
def Asks (cfg : Config) (phone : String) (v : Verification) (l : AccountLocal) (q : Query) : Prop :=
  l.mine = [] ∧ match q with
  | .getUserByPhone p => p = phone ∧ l.writes = []
  | .createUser id p _ => id = v.env.uuid 0 ∧ p = phone ∧ l.writes = []
  | .getDeviceByID d => d = v.deviceId ∧ ∀ w ∈ l.writes, ∃ row, w = .user row
  | .linkDeviceToUser u d => d = v.deviceId ∧ Knows phone l u
  | .deleteRedundantDeviceFollows _ u => Knows phone l u
  | .backfillFollowsUserID u _ => Knows phone l u
  | .backfillUpdatesAuthorUserID u _ => Knows phone l u
  | .createRefreshToken id u hash _ => id = v.env.uuid 1 ∧
      hash = hashRefreshToken cfg v.env.token ∧ Knows phone l u ∧ NoToken l
  | _ => False

/-- The session is for the account that the one transaction of the call has created or found. -/
structure Opened (phone : String) (v : Verification) (l : AccountLocal) (ws : List Write)
    (session : Session) (row : User) : Prop where
  mine : l.mine = [ws]
  clean : ∀ x ∈ l.trace, ¬ Failing x
  account : row.id = session.userId
  number : row.phone = phone
  isNew : (session.isNewAccount = true ∧ Write.user row ∈ ws ∧ row.id = v.env.uuid 0) ∨
    (session.isNewAccount = false ∧ (∀ row', Write.user row' ∉ ws) ∧
      (⟨.getUserByPhone phone, .ok row⟩ : Asked Query Query.Row Error) ∈ l.trace)

/-- A call that fails has committed nothing, and not all its statements were answered well. -/
def Returns (phone : String) (v : Verification) (l : AccountLocal) : Reply → Prop
  | .ok (some session) => ∃ ws row, Opened phone v l ws session row
  | .ok none => False
  | .error _ => l.mine = [] ∧ ∃ x ∈ l.trace, ¬ Good x

theorem not_good_of_failing {x : Asked Query Query.Row Error} (h : Failing x) : ¬ Good x := by
  obtain ⟨q, r⟩ := x
  unfold Failing at h
  intro hgood
  have hcases : (∃ a, r = .ok a) ∨ r = .error .noRows := by
    cases q with
    | getUserByPhone => exact hgood.imp_left fun ⟨user, h⟩ => ⟨user, h⟩
    | getDeviceByID =>
      obtain ⟨row, hrow, -⟩ := hgood
      exact .inl ⟨row, hrow⟩
    | _ => exact .inl hgood
  rcases hcases with ⟨a, rfl⟩ | rfl
  · cases h
  · cases h

/-- The transaction is aborted precisely if a statement has failed. -/
def Fair (l : AccountLocal) : Prop :=
  l.aborted = true ↔ ∃ x ∈ l.trace, Failing x

theorem Fair.ask (h : Fair l) {q : Query} {r : Except Error q.Row} {new : List Write} :
    Fair (l.ask reliable q r new) := by
  unfold Fair at h ⊢
  simp only [Local.ask_aborted, Local.ask_trace, Bool.or_eq_true, h, List.mem_append,
    List.mem_singleton, or_and_right, exists_or, exists_eq_left]
  rfl

theorem fair_start : Fair {} := by
  simp [Fair]

/-- The one transaction of the call, once its account is resolved. -/
structure Working (phone : String) (v : Verification) (row : User) (isNew : Bool)
    (l : AccountLocal) : Prop where
  fair : Fair l
  mine : l.mine = []
  number : row.phone = phone
  source : (isNew = true ∧ Write.user row ∈ l.writes ∧ row.id = v.env.uuid 0) ∨
    (isNew = false ∧ (∀ row', Write.user row' ∉ l.writes) ∧
      (⟨.getUserByPhone phone, .ok row⟩ : Asked Query Query.Row Error) ∈ l.trace)

variable {row : User} {isNew : Bool}

theorem Working.ask (h : Working phone v row isNew l) {q : Query} {r : Except Error q.Row}
    {new : List Write} (hnew : ∀ row', Write.user row' ∉ new) :
    Working phone v row isNew (l.ask reliable q r new) := by
  refine ⟨h.fair.ask, h.mine, h.number, ?_⟩
  rcases h.source with ⟨hisNew, hmem, hid⟩ | ⟨hisNew, hnone, hread⟩
  · exact .inl ⟨hisNew, List.mem_append_left _ hmem, hid⟩
  · refine .inr ⟨hisNew, fun row' hmem => ?_, List.mem_append_left _ hread⟩
    exact (List.mem_append.mp hmem).elim (hnone row') (hnew row')

theorem Working.knows (h : Working phone v row isNew l) : Knows phone l row.id :=
  ⟨row, rfl, h.number, h.source.imp (fun h => h.2.1) fun h => h.2.2⟩

theorem NoToken.ask (h : NoToken l) {q : Query} {r : Except Error q.Row} {new : List Write}
    (hnew : ∀ row, Write.refreshToken row ∉ new) : NoToken (l.ask reliable q r new) := by
  intro w hw row heq
  rcases List.mem_append.mp hw with hw | hw
  · exact h w hw row heq
  · exact hnew row (heq ▸ hw)

/-- The statement was not answered well. -/
theorem exists_not_good {q : Query} {e : Error} {new : List Write}
    (h : ¬ Good (⟨q, .error e⟩ : Asked Query Query.Row Error)) :
    ∃ x ∈ (l.ask reliable q (.error e) new).trace, ¬ Good x :=
  ⟨_, List.mem_append_right _ (List.mem_singleton_self _), h⟩

/-- What resolving the account comes to. -/
def Resolves (phone : String) (v : Verification) (l : AccountLocal) :
    Except Error (User × Bool) → Prop
  | .ok (row, isNew) => Working phone v row isNew l ∧ NoToken l ∧ ∀ w ∈ l.writes, ∃ row, w = .user row
  | .error _ => l.mine = [] ∧ ∃ x ∈ l.trace, ¬ Good x

/-- Before the account is resolved nothing is written. -/
structure Resolving (l : AccountLocal) : Prop where
  fair : Fair l
  mine : l.mine = []
  writes : l.writes = []

theorem Resolving.found (h : Resolving l) {b : Database}
    (hfound : AccountQueries.getUserByPhone phone b = .ok row) :
    Resolves phone v (l.ask reliable (.getUserByPhone phone) (.ok row) []) (.ok (row, false)) := by
  have hnumber : row.phone = phone := by
    simpa using (List.mem_filter.mp (one_eq_ok hfound)).2
  refine ⟨⟨h.fair.ask, h.mine, hnumber, .inr ⟨rfl, by simp [h.writes], ?_⟩⟩, ?_, ?_⟩
  · exact List.mem_append_right _ (List.mem_singleton_self _)
  · simp [NoToken, h.writes]
  · simp [h.writes]

theorem Resolving.created (h : Resolving l) {at' : Instant} {new : User}
    (hnew : new = { id := v.env.uuid 0, phone, phoneVerifiedAt := at' }) :
    Resolves phone v (l.ask reliable (.createUser (v.env.uuid 0) phone at') (.ok new) [.user new])
      (.ok (new, true)) := by
  refine ⟨⟨h.fair.ask, h.mine, by rw [hnew], .inl ⟨rfl, ?_, by rw [hnew]⟩⟩, ?_, ?_⟩
  · simp
  · simp [NoToken, h.writes]
  · simp [h.writes]

theorem createOrFind_meets {at' : Instant} (h : Resolving l) :
    (createOrFind v.env phone at').Meets reliable (Asks cfg phone v) (fun _ => True)
      (Resolves phone v) l := by
  refine meets_bind.mpr (meets_ask (fun _ => ⟨h.mine, rfl, rfl, h.writes⟩)
    (fun b₀ b new ws hrun => ?_) fun e => ?_)
  · simp only [Query.run, writes_eq_ok] at hrun
    obtain ⟨hnew, rfl, -⟩ := hrun
    rw [← hnew]
    exact h.created hnew
  · have hbad : ∀ {r : Except Error User} {q : Query} {new : List Write} (r' : Except Error q.Row),
        ∃ x ∈ ((l.ask reliable (.createUser (v.env.uuid 0) phone at') (.error e) []).ask reliable q r'
          new).trace, ¬ Good x := fun r' =>
      ⟨⟨.createUser (v.env.uuid 0) phone at', .error e⟩, by simp, by simp [Good]⟩
    simp only
    split
    · rename_i hunique
      refine meets_bind.mpr (meets_ask (fun hlive => ?_) (fun b₀ b found ws hrun => ?_) fun e' => ?_)
      · cases e <;> first | cases hunique | simp [engine, Engine.failure, aborts] at hlive
      · simp only [Query.run, reads_eq_ok] at hrun
        obtain ⟨hfound, rfl⟩ := hrun
        have hl : Resolving (l.ask reliable (.createUser (v.env.uuid 0) phone at') (.error e) []) :=
          ⟨h.fair.ask, h.mine, by simp [h.writes]⟩
        exact hl.found hfound
      · exact ⟨h.mine, hbad (r := .error e') _⟩
    · exact ⟨h.mine, exists_not_good (by simp [Good])⟩

theorem resolveOrCreateUser_meets {at' : Instant} (h : Resolving l) :
    (resolveOrCreateUser v.env phone at').Meets reliable (Asks cfg phone v) (fun _ => True)
      (Resolves phone v) l := by
  refine meets_bind.mpr (meets_ask (fun _ => ⟨h.mine, rfl, h.writes⟩)
    (fun b₀ b row ws hrun => ?_) fun e => ?_)
  · simp only [Query.run, reads_eq_ok] at hrun
    obtain ⟨hfound, rfl⟩ := hrun
    exact h.found hfound
  · have hl : Resolving (l.ask reliable (.getUserByPhone phone) (.error e) []) :=
      ⟨h.fair.ask, h.mine, by simp [h.writes]⟩
    cases e
    case noRows => exact createOrFind_meets hl
    all_goals exact ⟨h.mine, exists_not_good (by simp [Good])⟩

/-- What a statement of the link comes to. -/
def Goes {α : Type} (phone : String) (v : Verification) (row : User) (isNew : Bool)
    (l : AccountLocal) : Except Error α → Prop
  | .ok _ => Working phone v row isNew l ∧ NoToken l
  | .error _ => l.mine = [] ∧ ∃ x ∈ l.trace, ¬ Good x

/-- One more statement for the account. -/
theorem goes_ask {q : Query} (h : Working phone v row isNew l) (htoken : NoToken l)
    (hasks : Asks cfg phone v l q) (hgood : ∀ e, ¬ Good (⟨q, .error e⟩ : Asked Query Query.Row Error))
    (hemits : ∀ w, q.Emits w → (∀ row, w ≠ .user row) ∧ ∀ row, w ≠ .refreshToken row) :
    (ask q).Meets reliable (Asks cfg phone v) (fun _ => True) (Goes phone v row isNew) l := by
  refine meets_query.mpr ⟨fun _ => ⟨hasks, fun b₀ b => ?_⟩, fun hlost => ?_⟩
  · have hnew : ∀ w ∈ reliable.effect q b₀ b, q.Emits w := fun w hw => emits_of_mem hw
    cases hanswer : reliable.answer q b₀ b with
    | ok a =>
      exact ⟨h.ask fun row' hmem => (hemits _ (hnew _ hmem)).1 row' rfl,
        htoken.ask fun row' hmem => (hemits _ (hnew _ hmem)).2 row' rfl⟩
    | error e => exact ⟨h.mine, _, List.mem_append_right _ (List.mem_singleton_self _), hgood e⟩
  · exact ⟨h.mine, _, List.mem_append_right _ (List.mem_singleton_self _), hgood _⟩

theorem backfill_meets (h : Working phone v row isNew l) (htoken : NoToken l) :
    (backfill v.deviceId row.id).Meets reliable (Asks cfg phone v) (fun _ => True)
      (Goes phone v row isNew) l := by
  refine meets_andThen ((goes_ask h htoken ⟨h.mine, h.knows⟩ (by simp [Good]) ?_).mono
    fun l₁ r₁ h₁ => ⟨?_, ?_⟩)
  · intro w hw
    cases w <;> first | exact hw.elim | simp
  · rintro a rfl
    refine meets_andThen ((goes_ask h₁.1 h₁.2 ⟨h₁.1.mine, h₁.1.knows⟩ (by simp [Good]) ?_).mono
      fun l₂ r₂ h₂ => ⟨?_, ?_⟩)
    · intro w hw
      cases w <;> first | exact hw.elim | simp
    · rintro a rfl
      refine goes_ask h₂.1 h₂.2 ⟨h₂.1.mine, h₂.1.knows⟩ (by simp [Good]) ?_
      intro w hw
      cases w <;> first | exact hw.elim | simp
    · rintro e rfl
      exact h₂
  · rintro e rfl
    exact h₁

theorem linkDevice_meets (h : Working phone v row isNew l) (htoken : NoToken l)
    (hwrites : ∀ w ∈ l.writes, ∃ row, w = .user row) :
    (linkDevice v.deviceId row.id).Meets reliable (Asks cfg phone v) (fun _ => True)
      (Goes phone v row isNew) l := by
  refine meets_ask_andThen (fun _ => ⟨h.mine, rfl, hwrites⟩) (fun b₀ b device ws hrun => ?_)
    fun e => ⟨h.mine, exists_not_good (by simp [Good])⟩
  simp only [Query.run, reads_eq_ok] at hrun
  obtain ⟨-, rfl⟩ := hrun
  have h₁ : Working phone v row isNew
      (l.ask reliable (.getDeviceByID v.deviceId) (.ok device) []) := h.ask (by simp)
  have htoken₁ : NoToken (l.ask reliable (.getDeviceByID v.deviceId) (.ok device) []) :=
    htoken.ask (by simp)
  unfold relink
  cases howner : device.userId with
  | none =>
    refine meets_andThen ((goes_ask (q := .linkDeviceToUser row.id v.deviceId) h₁ htoken₁
      ⟨h₁.mine, rfl, h₁.knows⟩ (by simp [Good]) ?_).mono
      fun l₂ r₂ h₂ => ⟨?_, ?_⟩)
    · intro w hw
      cases w <;> first | exact hw.elim | simp
    · rintro a rfl
      exact backfill_meets h₂.1 h₂.2
    · rintro e rfl
      exact h₂
  | some owner =>
    simp only
    split
    · exact backfill_meets h₁ htoken₁
    · refine ⟨h.mine, ⟨.getDeviceByID v.deviceId, .ok device⟩, by simp, ?_⟩
      simp [Good, howner]

/-- What the body of the transaction comes to. -/
def Closing (phone : String) (v : Verification) (l : AccountLocal) : Except Error Session → Prop
  | .ok session => ∃ row, Working phone v row session.isNewAccount l ∧ row.id = session.userId
  | .error _ => l.mine = [] ∧ ∃ x ∈ l.trace, ¬ Good x

theorem openSession_meets (h : Resolving l) :
    (openSession cfg v.env phone v.deviceId).Meets reliable (Asks cfg phone v) (fun _ => True)
      (Closing phone v) l := by
  refine meets_andThen ((resolveOrCreateUser_meets h).mono fun l₁ r₁ h₁ => ⟨?_, ?_⟩)
  · rintro ⟨row, isNew⟩ rfl
    refine meets_andThen ((linkDevice_meets h₁.1 h₁.2.1 h₁.2.2).mono fun l₂ r₂ h₂ => ⟨?_, ?_⟩)
    · rintro a rfl
      refine meets_andThen (meets_ask_andThen
        (fun _ => ⟨h₂.1.mine, rfl, rfl, h₂.1.knows, h₂.2⟩) (fun b₀ b a ws hrun => ?_) fun e => ?_)
      · simp only [Query.run, writes_eq_ok] at hrun
        obtain ⟨-, rfl, -⟩ := hrun
        refine ⟨fun session hsession => ?_, by simp⟩
        cases hsession
        exact ⟨row, h₂.1.ask (by simp), rfl⟩
      · exact ⟨by simp, fun _ _ => ⟨h₂.1.mine, exists_not_good (by simp [Good])⟩⟩
    · rintro e rfl
      exact h₂
  · rintro e rfl
    exact h₁

theorem verifyOTP_meets (hnormal : normalizePhone v.rawPhone = .ok phone)
    (happroved : ∃ p, v.env.external = some p ∧ p.checkVerification = .ok ()) :
    (verifyOTP cfg v.env v.rawPhone v.code v.deviceId).Meets reliable (Asks cfg phone v)
      (fun _ => True) (fun l r => Returns phone v l (r.map some)) {} := by
  obtain ⟨p, hexternal, hcheck⟩ := happroved
  simp only [verifyOTP, hnormal, hexternal, hcheck]
  refine meets_transaction ((openSession_meets ⟨fair_start, rfl, rfl⟩).mono fun l r h => ⟨?_, ?_⟩)
  · rintro session rfl
    obtain ⟨row, hworking, hid⟩ := h
    refine ⟨fun hlive => ⟨trivial, l.writes, row, ?_⟩, fun hlost => ⟨hworking.mine, ?_⟩⟩
    · refine ⟨by simp [hworking.mine], fun x hx hfails => ?_, hid, hworking.number, hworking.source⟩
      simp [hworking.fair.mpr ⟨x, hx, hfails⟩] at hlive
    · have haborted : l.aborted = true := hlost.resolve_left (by simp [reliable, engine])
      obtain ⟨x, hx, hfails⟩ := hworking.fair.mp haborted
      exact ⟨x, hx, not_good_of_failing hfails⟩
  · rintro e rfl
    exact h

theorem op_injective {v v' : Verification} (h : v.op = v'.op) : v = v' := by
  cases v
  cases v'
  simpa [Verification.op] using h

/-- The contract of the racing calls; of other calls nothing is asked. -/
def contract (cfg : Config) (phone : String) (vs : List Verification) :
    Contract Write Query Query.Row Error Op Reply where
  asks o l q := ∀ v ∈ vs, o = v.op → Asks cfg phone v l q
  returns o l r := ∀ v ∈ vs, o = v.op → Returns phone v l r

theorem contract_met {db : Database} {vs : List Verification} (hrace : Racing cfg phone db vs) :
    (contract cfg phone vs).Met reliable (program cfg) := by
  intro o
  by_cases ho : ∃ v ∈ vs, o = v.op
  · obtain ⟨v, hv, rfl⟩ := ho
    have hmeets : (program cfg v.op).Meets reliable (Asks cfg phone v) (fun _ => True)
        (Returns phone v) {} := by
      refine meets_andThen ((verifyOTP_meets (hrace.normal v hv) (hrace.approved v hv)).mono
        fun l r h => ⟨?_, ?_⟩)
      · rintro session rfl
        exact h
      · rintro e rfl
        exact h
    refine (hmeets.mono_asks fun l q hq v' _ heq => ?_).mono fun l r hr v' _ heq => ?_
    · exact op_injective heq ▸ hq
    · exact op_injective heq ▸ hr
  · exact meets_of_forall (fun l q v hv heq => absurd ⟨v, hv, heq⟩ ho) (fun _ => trivial)
      fun l r v hv heq => absurd ⟨v, hv, heq⟩ ho

end Contract

section Facts

variable {cfg : Config} {phone : String} {v : Verification} {db b : Database} {l : AccountLocal}
  {q : Query} {ws : List Write}

/-- The writes of a verification. -/
def Own (cfg : Config) (v : Verification) : Write → Prop
  | .user row => row.id = v.env.uuid 0
  | .linked d _ => d = v.deviceId
  | .refreshToken row => row.id = v.env.uuid 1 ∧ row.tokenHash = hashRefreshToken cfg v.env.token
  | .droppedFollows _ | .claimedFollows _ _ | .claimedUpdates _ _ => True
  | .otpCode _ | .attempt _ | .consumed _ _ | .unlinked _ _ | .revoked _ _ | .rotated _ _ _ => False

theorem own_of_effect {snapshot : Database} (hasks : Asks cfg phone v l q) {w : Write}
    (hw : w ∈ effect q snapshot db) : Own cfg v w := by
  have hemits : q.Emits w := emits_of_mem hw
  obtain ⟨a, hrun⟩ := mem_effect hw
  cases q with
  | createUser id p at' =>
    simp only [Query.run, writes_eq_ok] at hrun
    obtain rfl := List.mem_singleton.mp (hrun.2.1 ▸ hw)
    exact hasks.2.1
  | linkDeviceToUser u d =>
    cases w <;> first | exact hemits.elim | skip
    simp only [Query.run] at hrun
    split at hrun
    · simp only [writes_eq_ok] at hrun
      obtain heq := List.mem_singleton.mp (hrun.2.1 ▸ hw)
      cases heq
      exact hasks.2.1
    · simp only [reads_eq_ok] at hrun
      simp [hrun.2] at hw
  | createRefreshToken id u hash at' =>
    simp only [Query.run, writes_eq_ok] at hrun
    obtain rfl := List.mem_singleton.mp (hrun.2.1 ▸ hw)
    exact ⟨hasks.2.1, hasks.2.2.1⟩
  | deleteRedundantDeviceFollows | backfillFollowsUserID | backfillUpdatesAuthorUserID =>
    cases w <;> first | exact hemits.elim | trivial
  | getUserByPhone | getDeviceByID => cases w <;> exact hemits.elim
  | _ => exact hasks.2.elim

def Unkeyed (t : Tables) : Prop :=
  ∀ u ∈ t.updates, u.authorUserId = none → u.idempotencyKey = none

theorem Unkeyed.applyAll {t : Tables} (h : Unkeyed t) (ws : List Write) :
    Unkeyed (applyAll ws t) := by
  induction ws generalizing t with
  | nil => exact h
  | cons w ws ih =>
    refine ih (t := w.apply t) fun u hu hauthor => ?_
    cases w with
    | claimedUpdates ids userId =>
      obtain ⟨q, hq, rfl⟩ := mem_updateWhere.mp hu
      split at hauthor
      · cases hauthor
      · rename_i hid
        rw [if_neg hid]
        exact h q hq hauthor
    | _ => exact h u hu hauthor

theorem unlinked_applyAll {d : UUID} {t : Tables} (h : Unlinked t d)
    (hws : ∀ w ∈ ws, Own cfg v w) (hlinks : ∀ u, Write.linked d u ∉ ws) :
    Unlinked (applyAll ws t) d := by
  induction ws generalizing t with
  | nil => exact h
  | cons w ws ih =>
    refine ih (t := w.apply t) ?_ (fun w' hw' => hws w' (List.mem_cons_of_mem w hw'))
      fun u hu => hlinks u (List.mem_cons_of_mem w hu)
    have hown := hws w List.mem_cons_self
    cases w with
    | linked d' u =>
      have hne : d' ≠ d := fun heq => hlinks u (heq ▸ List.mem_cons_self)
      obtain ⟨⟨row, hrow, hid⟩, hnone⟩ := h
      refine ⟨⟨row, mem_updateWhere.mpr ⟨row, hrow, ?_⟩, hid⟩, fun row' hrow' hid' => ?_⟩
      · simp [hid, Ne.symm hne]
      · obtain ⟨q, hq, rfl⟩ := mem_updateWhere.mp hrow'
        split at hid'
        · rename_i hq'
          exact absurd ((beq_iff_eq.mp hq').symm.trans hid') hne
        · rename_i hq'
          rw [if_neg hq']
          exact hnone q hq hid'
    | unlinked => exact hown.elim
    | _ => exact h

/-- The account of the call is there. -/
theorem exists_user_of_knows {u : UUID} (hview : view l.writes b = some db)
    (hread : ∀ row, (⟨.getUserByPhone phone, .ok row⟩ : Asked Query Query.Row Error) ∈ l.trace →
      row ∈ b.tables.users) (h : Knows phone l u) : ∃ q ∈ db.tables.users, q.id = u := by
  obtain ⟨row, hid, -, hrow⟩ := h
  refine ⟨row, ?_, hid⟩
  rw [tables_of_view hview, mem_users_applyAll]
  exact hrow.symm.imp_left (hread row)

theorem write_isOk {a : α} {w : Write} (h : Valid (w.apply db.tables)) :
    ∃ x, (writes a w db).map Prod.fst = .ok x :=
  ⟨a, by simp [writes, write_ok h, bind, Except.bind, pure, Except.pure, Except.map]⟩

/-- What an open verification can rely on when a statement of it completes. -/
structure Relies (cfg : Config) (v : Verification) (phone : String) (b db snapshot : Database)
    (l : AccountLocal) : Prop where
  view : view l.writes b = some db
  own : ∀ w ∈ l.writes, Own cfg v w
  read : ∀ row, (⟨.getUserByPhone phone, .ok row⟩ : Asked Query Query.Row Error) ∈ l.trace →
    row ∈ b.tables.users
  fresh : Fresh cfg b.tables v
  unkeyed : Unkeyed b.tables
  device : (∀ w ∈ l.writes, ∃ row, w = .user row) → Unlinked snapshot.tables v.deviceId

theorem getDeviceByID_of_unlinked {d : UUID} (h : Unlinked db.tables d) :
    ∃ row, AccountQueries.getDeviceByID d db = .ok row ∧ row.userId = none := by
  obtain ⟨⟨row, hrow, hid⟩, hnone⟩ := h
  cases hfound : AccountQueries.getDeviceByID d db with
  | ok row' =>
    obtain ⟨hrow', hid'⟩ := List.mem_filter.mp (one_eq_ok hfound)
    exact ⟨row', rfl, hnone row' hrow' (by simpa using hid')⟩
  | error e =>
    have hmem : row ∈ db.tables.devices.filter fun row => row.id == d :=
      List.mem_filter.mpr ⟨hrow, by simpa using hid⟩
    unfold AccountQueries.getDeviceByID at hfound
    cases hrows : db.tables.devices.filter fun row => row.id == d with
    | nil => simp [hrows] at hmem
    | cons r rs => simp [hrows] at hfound

/-- Each statement is answered well unless something stands in its way. -/
theorem good_of_unhindered {snapshot : Database} (h : Relies cfg v phone b db snapshot l)
    (hasks : Asks cfg phone v l q) (hfree : Unhindered q snapshot db) :
    Good ⟨q, answer q snapshot db⟩ := by
  have hdb := tables_of_view h.view
  obtain ⟨-, hasks⟩ := hasks
  cases q with
  | getUserByPhone p =>
    cases hfound : AccountQueries.getUserByPhone p snapshot with
    | ok user => exact .inl ⟨user, by simp [answer, Query.run, hfound, reads, Except.map]⟩
    | error e =>
      have he : e = .noRows := by
        unfold AccountQueries.getUserByPhone at hfound
        cases hrows : snapshot.tables.users.filter fun u => u.phone == p with
        | nil =>
          rw [hrows] at hfound
          exact (Except.error.inj hfound).symm
        | cons r rs => simp [hrows] at hfound
      exact .inr (by simp [answer, Query.run, hfound, reads, Except.map, he])
  | createUser id p at' =>
    obtain ⟨rfl, rfl, hwrites⟩ := hasks
    rw [hwrites] at hdb
    refine write_isOk ((user_valid_iff db.valid fun u hu => ?_).mpr hfree)
    rw [hdb] at hu
    exact h.fresh.user u hu
  | getDeviceByID d =>
    obtain ⟨rfl, hwrites⟩ := hasks
    obtain ⟨row, hfound, hnone⟩ := getDeviceByID_of_unlinked (h.device hwrites)
    exact ⟨row, by simp [answer, Query.run, hfound, reads, Except.map], hnone⟩
  | linkDeviceToUser u d =>
    obtain ⟨rfl, hknows⟩ := hasks
    have hvalid := linked_valid (d := v.deviceId) db.valid (exists_user_of_knows h.view h.read hknows)
    have hanswer : ∃ a, answer (.linkDeviceToUser u v.deviceId) snapshot db = .ok a := by
      simp only [answer, Query.run]
      split
      · exact write_isOk hvalid
      · exact ⟨(), rfl⟩
    exact hanswer
  | deleteRedundantDeviceFollows d u => exact write_isOk (droppedFollows_valid db.valid _)
  | backfillFollowsUserID u d =>
    have hu := exists_user_of_knows h.view h.read hasks
    refine write_isOk ((claimedFollows_valid_iff (d := d) db.valid hu fun f hf => ?_).mpr fun f hf => ?_)
    · simp only [List.mem_filter, Bool.and_eq_true] at hf
      exact ⟨hf.1, hf.2.1⟩
    · simp only [List.mem_filter, Bool.and_eq_true, List.contains_iff_mem] at hf
      exact hfree f hf.1 hf.2.1 hf.2.2
  | backfillUpdatesAuthorUserID u d =>
    have hu := exists_user_of_knows h.view h.read hasks
    refine write_isOk (claimedUpdates_valid db.valid hu fun w hw hid => ?_)
    obtain ⟨x, hx, hxid⟩ := List.mem_map.mp hid
    simp only [List.mem_filter, unauthored, Bool.and_eq_true, Option.isNone_iff_eq_none] at hx
    obtain rfl : x = w := (db.valid.holds .updatesPkey).eq_of_key_eq hx.1 hw (by simp [hxid]) (by simp)
    have hunkeyed : Unkeyed db.tables := hdb ▸ h.unkeyed.applyAll l.writes
    exact hunkeyed x hw hx.2.1.2
  | createRefreshToken id u hash at' =>
    obtain ⟨rfl, rfl, hknows, htoken⟩ := hasks
    have hu := exists_user_of_knows h.view h.read hknows
    have hsame : db.tables.refreshTokens = b.tables.refreshTokens := by
      rw [hdb]
      refine applyAll_frame Tables.refreshTokens fun w hw t => ?_
      have hown := h.own w hw
      cases w with
      | refreshToken row => exact absurd rfl (htoken _ hw row)
      | revoked | rotated => exact hown.elim
      | _ => rfl
    refine write_isOk (refreshToken_valid db.valid hu ?_ ?_)
    · rw [hsame]
      exact h.fresh.token
    · rw [hsame]
      exact h.fresh.tokenHash
  | _ => exact hasks.elim

/-- A statement that something stands in the way of fails. -/
theorem failing_of_hindered {snapshot : Database} (h : ¬ Unhindered q snapshot db) :
    Failing ⟨q, answer q snapshot db⟩ := by
  have hfails : ∀ {α : Type} {a : α} {w : Write}, ¬ Valid (w.apply db.tables) →
      reliable.failure ((writes a w db).map Prod.fst) = true := by
    intro α a w hw
    cases hwrite : db.write w.apply with
    | ok db' => exact absurd (write_eq_ok.mp hwrite ▸ db'.valid) hw
    | error e =>
      obtain ⟨c, rfl, -⟩ := write_eq_error hwrite
      simp [writes, hwrite, bind, Except.bind, Except.map, Engine.failure, reliable, engine, aborts]
  cases q with
  | createUser id p at' =>
    refine hfails fun hvalid => h fun u hu => ?_
    have huniq := (uniqueOn_append_singleton.mp (hvalid.holds .usersPhoneKey)).2 u hu
    simpa using huniq
  | backfillFollowsUserID u d =>
    refine hfails fun hvalid => h fun f hf hunowned hsnapshot => ?_
    have hmem : f ∈ db.tables.follows.filter fun f =>
        unowned d f && snapshot.tables.follows.contains f := by
      simp [hf, hunowned, hsnapshot]
    have hu : ∃ q ∈ db.tables.users, q.id = u := by
      have hclaimed : ({ f with userId := some u } : Follow) ∈ (Write.apply (.claimedFollows
          (db.tables.follows.filter fun f => unowned d f && snapshot.tables.follows.contains f) u)
          db.tables).follows :=
        mem_updateWhere.mpr ⟨f, hf, by simp [hf, hunowned, hsnapshot]⟩
      exact hvalid.holds .followsUserIdFkey _ hclaimed u rfl
    refine (claimedFollows_valid_iff (d := d) db.valid hu fun f hf => ?_).mp hvalid f hmem
    simp only [List.mem_filter, Bool.and_eq_true] at hf
    exact ⟨hf.1, hf.2.1⟩
  | _ => exact absurd trivial h

end Facts

section Law

variable {cfg : Config} {phone : String} {vs : List Verification} {b₀ b b' : Database}
  {h : List AccountCommit} {c : AccountCommit} {l l' : AccountLocal} {v v' : Verification} {t t' : ℕ}

/-- Every commit so far is one of a racing call. -/
def Authored (vs : List Verification) (h : List AccountCommit) : Prop :=
  ∀ c ∈ h, ∀ a ∈ c.author, ∃ v, vs[a.1]? = some v ∧ a.2 = v.op

/-- Accounts come from the start or from a commit, and what the other calls are to write is
still new. -/
structure Track (cfg : Config) (vs : List Verification) (b₀ : Database) (h : List AccountCommit)
    (b : Database) : Prop where
  users : ∀ u ∈ b.tables.users, u ∈ b₀.tables.users ∨ ∃ c ∈ h, Write.user u ∈ c.writes
  kept : ∀ c ∈ h, ∀ u, Write.user u ∈ c.writes → u ∈ b.tables.users
  free : ∀ t v, vs[t]? = some v → (∀ c ∈ h, ¬ By t c) →
    Unlinked b.tables v.deviceId ∧ Fresh cfg b.tables v
  unkeyed : Unkeyed b.tables

/-- What an open call has written and read, and that only a failed statement sets it back. -/
structure Runs (cfg : Config) (phone : String) (v : Verification) (t : ℕ) (h : List AccountCommit)
    (b : Database) (s : Option Database) (l : AccountLocal) : Prop where
  pending : l.mine = [] → ∀ c ∈ h, ¬ By t c
  own : ∀ w ∈ l.writes, Own cfg v w
  read : ∀ row, (⟨.getUserByPhone phone, .ok row⟩ : Asked Query Query.Row Error) ∈ l.trace →
    row ∈ b.tables.users
  snapshot : ∀ v₀ ∈ s, l.mine = [] → (l.writes = [] → v₀.tables.users ⊆ b.tables.users) ∧
    ((∀ w ∈ l.writes, ∃ row, w = .user row) → Unlinked v₀.tables v.deviceId)
  clean : (∀ x ∈ l.trace, Good x) ∨ ∃ x ∈ l.trace, Failing x
  live : l.aborted = true → ∃ x ∈ l.trace, Failing x

theorem Distinct.symm (h : Distinct cfg v v') : Distinct cfg v' v :=
  ⟨h.device.symm, h.user.symm, h.token.symm, h.tokenHash.symm⟩

theorem distinct_of_ne (hvs : vs.Pairwise (Distinct cfg)) (hv : vs[t]? = some v)
    (hv' : vs[t']? = some v') (hne : t ≠ t') : Distinct cfg v v' := by
  obtain ⟨ht, rfl⟩ := List.getElem?_eq_some_iff.mp hv
  obtain ⟨ht', rfl⟩ := List.getElem?_eq_some_iff.mp hv'
  rcases Nat.lt_or_gt_of_ne hne with hlt | hgt
  · exact List.pairwise_iff_getElem.mp hvs t t' ht ht' hlt
  · exact (List.pairwise_iff_getElem.mp hvs t' t ht' ht hgt).symm

/-- What another call commits leaves the draws of this one new and its device unlinked. -/
theorem Fresh.applyAll {ws : List Write} {tb : Tables} (h : Fresh cfg tb v)
    (hd : Distinct cfg v v') (hws : ∀ w ∈ ws, Own cfg v' w) : Fresh cfg (applyAll ws tb) v := by
  induction ws generalizing tb with
  | nil => exact h
  | cons w ws ih =>
    refine ih ?_ fun w' hw' => hws w' (List.mem_cons_of_mem w hw')
    have hown := hws w List.mem_cons_self
    cases w with
    | user row =>
      refine ⟨fun u hu => ?_, h.token, h.tokenHash⟩
      rcases List.mem_append.mp hu with hu | hu
      · exact h.user u hu
      · rw [List.mem_singleton.mp hu]
        exact fun heq => hd.user (heq.symm.trans hown)
    | refreshToken row =>
      refine ⟨h.user, fun r hr => ?_, fun r hr => ?_⟩
      · rcases List.mem_append.mp hr with hr | hr
        · exact h.token r hr
        · rw [List.mem_singleton.mp hr]
          exact fun heq => hd.token (heq.symm.trans hown.1)
      · rcases List.mem_append.mp hr with hr | hr
        · exact h.tokenHash r hr
        · rw [List.mem_singleton.mp hr]
          exact fun heq => hd.tokenHash (heq.symm.trans hown.2)
    | linked | droppedFollows | claimedFollows | claimedUpdates => exact ⟨h.user, h.token, h.tokenHash⟩
    | otpCode | attempt | consumed | unlinked | revoked | rotated => exact hown.elim

theorem Track.append (hvs : vs.Pairwise (Distinct cfg)) (hI : Track cfg vs b₀ h b)
    (hv : vs[t]? = some v) (hown : ∀ w ∈ l.writes, Own cfg v w)
    (hview : view l.writes b = some b') (o : Op) :
    Track cfg vs b₀ (h ++ [{ author := some (t, o), loc := l, base := b, next := b' }]) b' := by
  have htables := tables_of_view hview
  refine ⟨fun u hu => ?_, fun c hc u hu => ?_, fun t' v' hv' hfree => ?_, ?_⟩
  · rw [htables, mem_users_applyAll] at hu
    rcases hu with hu | hu
    · refine (hI.users u hu).imp_right ?_
      rintro ⟨c, hc, hmem⟩
      exact ⟨c, List.mem_append_left _ hc, hmem⟩
    · exact .inr ⟨_, List.mem_append_right _ (List.mem_singleton_self _), hu⟩
  · rw [htables, mem_users_applyAll]
    rcases List.mem_append.mp hc with hc | hc
    · exact .inl (hI.kept c hc u hu)
    · obtain rfl := List.mem_singleton.mp hc
      exact .inr hu
  · have hne : t ≠ t' := by
      rintro rfl
      exact hfree _ (List.mem_append_right _ (List.mem_singleton_self _)) ⟨(t, o), rfl, rfl⟩
    obtain ⟨hunlinked, hfresh⟩ := hI.free t' v' hv' fun c hc => hfree c (List.mem_append_left _ hc)
    have hd := distinct_of_ne hvs hv hv' hne
    rw [htables]
    refine ⟨unlinked_applyAll hunlinked hown fun u hu => ?_, hfresh.applyAll hd.symm hown⟩
    exact hd.device (hown _ hu).symm
  · rw [htables]
    exact hI.unkeyed.applyAll _

theorem Authored.left {h' : List AccountCommit} (hauthored : Authored vs (h ++ h')) : Authored vs h :=
  fun c hc => hauthored c (List.mem_append_left _ hc)

theorem Runs.relies (hI : Track cfg vs b₀ h b) (hv : vs[t]? = some v) {snapshot db : Database}
    (hK : Runs cfg phone v t h b (some snapshot) l) (hview : view l.writes b = some db)
    (hmine : l.mine = []) : Relies cfg v phone b db snapshot l := by
  refine ⟨hview, hK.own, hK.read, (hI.free t v hv (hK.pending hmine)).2, hI.unkeyed, ?_⟩
  exact (hK.snapshot snapshot rfl hmine).2

/-- An answered statement is answered well, or it fails. -/
theorem Runs.answered (hI : Track cfg vs b₀ h b) (hv : vs[t]? = some v) {q : Query}
    {snapshot db : Database} (hK : Runs cfg phone v t h b (some snapshot) l)
    (hlive : l.aborted = false) (hview : view l.writes b = some db) (hasks : Asks cfg phone v l q) :
    Runs cfg phone v t h b none
      (l.ask reliable q (answer q snapshot db) (effect q snapshot db)) := by
  refine ⟨hK.pending, fun w hw => ?_, fun row hread => ?_, by simp, ?_, fun haborted => ?_⟩
  · rcases List.mem_append.mp hw with hw | hw
    · exact hK.own w hw
    · exact own_of_effect hasks hw
  · rcases List.mem_append.mp hread with hread | hread
    · exact hK.read row hread
    · have heq := (List.mem_singleton.mp hread).symm
      cases q with
      | getUserByPhone p =>
        simp only [Asked.mk.injEq, Query.getUserByPhone.injEq] at heq
        obtain ⟨rfl, heq⟩ := heq
        have hfound := answer_eq_ok.mp (eq_of_heq heq)
        simp only [Query.run, reads_eq_ok] at hfound
        have hmem := (List.mem_filter.mp (one_eq_ok hfound.1)).1
        exact (hK.snapshot snapshot rfl hasks.1).1 hasks.2.2 hmem
      | _ => simp at heq
  · by_cases hfree : Unhindered q snapshot db
    · rcases hK.clean with hclean | ⟨x, hx, hfails⟩
      · refine .inl fun x hx => ?_
        rcases List.mem_append.mp hx with hx | hx
        · exact hclean x hx
        · rw [List.mem_singleton.mp hx]
          exact good_of_unhindered (hK.relies hI hv hview hasks.1) hasks hfree
      · exact .inr ⟨x, List.mem_append_left _ hx, hfails⟩
    · exact .inr ⟨_, List.mem_append_right _ (List.mem_singleton_self _),
        failing_of_hindered hfree⟩
  · rw [Local.ask_aborted, hlive, Bool.false_or] at haborted
    exact ⟨_, List.mem_append_right _ (List.mem_singleton_self _), haborted⟩

theorem law (hrace : Racing cfg phone b₀ vs) :
    Law (contract cfg phone vs) reliable (fun h b => Authored vs h → Track cfg vs b₀ h b)
      (fun t o h b s l => Authored vs h → ∀ v, vs[t]? = some v → o = v.op →
        Runs cfg phone v t h b s l) where
  start t o h b ht _ _ v _ _ :=
    ⟨fun _ => ht, by simp, by simp, by simp, by simp, by simp⟩
  began t o h b l v₀ hI hK hview hauthored v hv ho := by
    have hruns := hK hauthored v hv ho
    refine ⟨hruns.pending, hruns.own, hruns.read, fun v₁ hv₁ hmine => ?_, hruns.clean, hruns.live⟩
    obtain rfl := Option.mem_some.mp hv₁
    refine ⟨fun hwrites => ?_, fun hwrites => ?_⟩
    · rw [tables_of_view hview, hwrites]
      exact List.Subset.refl _
    · rw [tables_of_view hview]
      refine unlinked_applyAll ((hI hauthored).free t v hv (hruns.pending hmine)).1 hruns.own ?_
      intro u hu
      obtain ⟨row, hrow⟩ := hwrites _ hu
      cases hrow
  answered t o h b l q v₀ v hI hK hlive hview hasks hauthored x hx ho :=
    (hK hauthored x hx ho).answered (hI hauthored) hx hlive hview
      (hasks x (List.mem_of_getElem? hx) ho)
  lost t o h b s l q hK hlost hauthored v hv ho := by
    have hruns := hK hauthored v hv ho
    obtain ⟨x, hx, hfails⟩ := hruns.live (hlost.resolve_left (by simp [reliable, engine]))
    have hbad : ∃ x ∈ (l.ask reliable q (.error reliable.lost) []).trace, Failing x :=
      ⟨x, List.mem_append_left _ hx, hfails⟩
    refine ⟨hruns.pending, fun w hw => hruns.own w (by simpa using hw), fun row hread => ?_, by simp,
      .inr hbad, fun _ => hbad⟩
    rcases List.mem_append.mp hread with hread | hread
    · exact hruns.read row hread
    · have heq := (List.mem_singleton.mp hread).symm
      cases q with
      | getUserByPhone p =>
        simp only [Asked.mk.injEq, Query.getUserByPhone.injEq] at heq
        obtain ⟨rfl, heq⟩ := heq
        cases eq_of_heq heq
      | _ => simp at heq
  dropped t o h b s l hK hauthored v hv ho := by
    have hruns := hK hauthored v hv ho
    exact ⟨hruns.pending, by simp, hruns.read, by simp, hruns.clean, by simp⟩
  kept t o h b s l b' hI hK _ hview hauthored := by
    obtain ⟨v, hv, ho⟩ := hauthored _ (List.mem_append_right _ (List.mem_singleton_self _)) (t, o) rfl
    exact (hI hauthored.left).append hrace.distinct hv (hK hauthored.left v hv ho).own hview o
  published t o h b s l b' hI hK _ hview hauthored v hv ho := by
    have hruns := hK hauthored.left v hv ho
    refine ⟨by simp, by simp, fun row hread => ?_, by simp, hruns.clean, by simp⟩
    rw [tables_of_view hview, mem_users_applyAll]
    exact .inl (hruns.read row hread)
  stable t o h b s l b' t' o' s' l' hne hI hK _ hview hK' _ hauthored v' hv' ho' := by
    have hruns := hK' hauthored.left v' hv' ho'
    have hsub : b.tables.users ⊆ b'.tables.users := by
      intro u hu
      rw [tables_of_view hview, mem_users_applyAll]
      exact .inl hu
    refine ⟨fun hmine c hc => ?_, hruns.own, fun row hread => hsub (hruns.read row hread),
      fun v₀ hv₀ hmine => ?_, hruns.clean, hruns.live⟩
    · rcases List.mem_append.mp hc with hc | hc
      · exact hruns.pending hmine c hc
      · obtain rfl := List.mem_singleton.mp hc
        rintro ⟨a, ha, rfl⟩
        cases ha
        exact hne rfl
    · obtain ⟨husers, hdevice⟩ := hruns.snapshot v₀ hv₀ hmine
      exact ⟨fun hwrites u hu => hsub (husers hwrites hu), hdevice⟩
  foreign ws h b b' _ hforeign := by simp [reliable, engine] at hforeign
  foreign_stable ws h b b' t o s l _ _ hforeign := by simp [reliable, engine] at hforeign

end Law

section Runs

variable {n : ℕ} {cfg : Config} {phone : String} {vs : List Verification} {s s' : AccountState n}
  {as xs ys : List (AccountAction n)}

/-- No statement of any call has failed. -/
def NoneFailed (s : AccountState n) : Prop :=
  ∀ x, Answered s x → ¬ Failing x

/-- Each call so far is one of the racing ones. -/
def Manned (vs : List Verification) (s : AccountState n) : Prop :=
  ∀ e, Has s e → ∃ v, vs[e.ticket]? = some v ∧ e.op = v.op

theorem manned (hs : Idle s) (hcalls : as.filterMap called = vs.map Verification.op)
    (has : as = xs ++ ys) (h : exec (step reliable (program cfg)) s xs = some s') :
    Manned vs s' := by
  intro e he
  have hop := (Started.exec hs h).op e he
  rw [has, List.filterMap_append] at hcalls
  have hmapped : (vs.map Verification.op)[e.ticket]? = some e.op := by
    rw [← hcalls, List.getElem?_append_left (List.getElem?_eq_some_iff.mp hop).1]
    exact hop
  rw [List.getElem?_map] at hmapped
  obtain ⟨v, hv, hop'⟩ := Option.map_eq_some_iff.mp hmapped
  exact ⟨v, hv, hop'.symm⟩

theorem Manned.authored (h : Manned vs s) (hbooks : Books s) : Authored vs s.history := by
  intro c hc a ha
  obtain ⟨e, he, hticket, hop⟩ := hbooks.author c hc a ha
  rw [← hticket, ← hop]
  exact h e he

theorem track_start (hrace : Racing cfg phone s.base vs) : Track cfg vs s.base [] s.base := by
  refine ⟨fun u hu => .inl hu, by simp, fun t v hv _ => ?_, hrace.unkeyed⟩
  have hmem := List.mem_of_getElem? hv
  exact ⟨hrace.unlinked v hmem, hrace.fresh v hmem⟩

/-- What the contract and the law say of a run of racing calls. -/
abbrev Raced (cfg : Config) (phone : String) (vs : List Verification) (b₀ : Database)
    (s : AccountState n) : Prop :=
  Governed (contract cfg phone vs) reliable (fun h b => Authored vs h → Track cfg vs b₀ h b)
    (fun t o h b s l => Authored vs h → ∀ v, vs[t]? = some v → o = v.op →
      Runs cfg phone v t h b s l) s

theorem raced (hrace : Racing cfg phone s.base vs) (hs : Idle s)
    (h : exec (step reliable (program cfg)) s as = some s') : Raced cfg phone vs s.base s' :=
  Governed.exec (contract_met hrace) (law hrace) (.of_idle hs fun _ => track_start hrace) h

/-- A step whose statement, if one completes, is unhindered makes no statement fail. -/
theorem NoneFailed.step (h : NoneFailed s) {b₀ : Database} {a : AccountAction n}
    (hraced : Raced cfg phone vs b₀ s) (hmanned : Manned vs s) (hadmits : Admits s a)
    (hstep : Interleaving.step reliable (program cfg) s a = some s') : NoneFailed s' := by
  have hauthored := hmanned.authored hraced.books
  have hruns : ∀ i c, s.calls i = some c → ∃ v, vs[c.ticket]? = some v ∧ c.op = v.op ∧
      Runs cfg phone v c.ticket s.history s.base c.snapshot c.loc := by
    intro i c hc
    obtain ⟨v, hv, hop⟩ := hmanned c.toEntry (.inl ⟨i, c, hc, rfl⟩)
    exact ⟨v, hv, hop, hraced.relies i c hc hauthored v hv hop⟩
  intro x hx
  rcases (Answered.step (step_cases hstep)).2 hx with hx | hanswers
  · exact h x hx
  cases hanswers with
  | completes i c q k snapshot db ha hc hprog hlive hsnapshot hview =>
    obtain ⟨v, hv, hop, hruns⟩ := hruns i c hc
    have hasks : Asks cfg phone v c.loc q := by
      have hmeets := hraced.calls i c hc
      rw [hprog] at hmeets
      exact (hmeets.1 hlive).1 v (List.mem_of_getElem? hv) hop
    rw [hsnapshot] at hruns
    have hrelies := hruns.relies (hraced.base hauthored) hv hview hasks.1
    have hgood := good_of_unhindered hrelies hasks
      (hadmits i ha c hc hlive q k hprog snapshot hsnapshot db hview)
    exact fun hfails => not_good_of_failing hfails hgood
  | lost i c q hc hlost =>
    obtain ⟨v, hv, hop, hruns⟩ := hruns i c hc
    obtain ⟨x, hx, hfails⟩ := hruns.live (hlost.resolve_left (by simp [reliable, engine]))
    exact absurd hfails (h x ⟨c.toEntry, .inl ⟨i, c, hc, rfl⟩, hx⟩)

theorem noneFailed_of_each (hrace : Racing cfg phone s.base vs) (hs : Idle s)
    (hcalls : as.filterMap called = vs.map Verification.op)
    (heach : Each (step reliable (program cfg)) Admits s as) (has : as = xs ++ ys)
    (h : exec (step reliable (program cfg)) s xs = some s') : NoneFailed s' := by
  induction xs using List.reverseRecOn generalizing ys s' with
  | nil =>
    cases h
    exact fun x hx => absurd hx (not_answered_of_idle hs x)
  | append_singleton xs a ih =>
    rw [exec_append] at h
    obtain ⟨r, hr, hstep⟩ := Option.bind_eq_some_iff.mp h
    obtain ⟨s'', hstep, hs''⟩ := Option.bind_eq_some_iff.mp hstep
    cases hs''
    have has' : as = xs ++ a :: ys := by simpa using has
    refine (ih has' hr).step (raced hrace hs hr) (manned hs hcalls has' hr) ?_ hstep
    exact Each.at_prefix (has' ▸ heach) hr hstep

/-- A hindered statement leaves a failed one behind. -/
theorem each_of_noneFailed (h : exec (step reliable (program cfg)) s as = some s')
    (hnone : NoneFailed s') : Each (step reliable (program cfg)) Admits s as := by
  refine each_of_final (B := fun s => ∃ x, Answered s x ∧ Failing x) ?_ ?_ h ?_
  · rintro r a t ⟨x, hx, hfails⟩ hstep
    exact ⟨x, (Answered.step (step_cases hstep)).1 hx, hfails⟩
  · intro r a t hnot hstep
    simp only [Admits, not_forall] at hnot
    obtain ⟨i, rfl, c, hc, hlive, q, k, hprog, snapshot, hsnapshot, db, hview, hhindered⟩ := hnot
    rw [put_of_answered hc hprog hlive hsnapshot hview hstep]
    refine ⟨_, ⟨_, .inl ⟨i, _, Function.update_self .., rfl⟩, ?_⟩, failing_of_hindered hhindered⟩
    exact List.mem_append_right _ (List.mem_singleton_self _)
  · rintro ⟨x, hx, hfails⟩
    exact hnone x hx hfails

end Runs

section Outcome

variable {n : ℕ} {cfg : Config} {phone : String} {vs : List Verification} {s s' : AccountState n}
  {as : List (AccountAction n)} {d d' : AccountDone} {b₀ : Database} {u u' : User}

/-- The committed row with the number. -/
def Holds (phone : String) (s : AccountState n) (u : User) : Prop :=
  u ∈ s.base.tables.users ∧ u.phone = phone

theorem Holds.eq (h : Holds phone s u) (h' : Holds phone s u') : u = u' :=
  (s.base.valid.holds .usersPhoneKey).eq_of_key_eq h.1 h'.1 (congrArg some (h.2.trans h'.2.symm))
    (by simp)

theorem Holds.filter_eq (h : Holds phone s u) :
    (s.base.tables.users.filter fun u => u.phone == phone) = [u] := by
  have hlength := (s.base.valid.holds .usersPhoneKey).length_filter_le_one
    (p := fun u => u.phone == phone) (k := phone) fun u' _ hu' => by simpa using hu'
  have hu : u ∈ s.base.tables.users.filter fun u => u.phone == phone := by
    simpa [h.2] using h.1
  obtain ⟨u', hu'⟩ := List.length_eq_one_iff.mp
    (Nat.le_antisymm hlength (List.length_pos_of_mem hu))
  rw [hu'] at hu ⊢
  rw [List.mem_singleton.mp hu]

/-- A call that nothing stood in the way of has opened a session of the account. -/
structure Settled (cfg : Config) (phone : String) (s : AccountState n) (v : Verification)
    (d : AccountDone) (session : Session) (u : User) : Prop where
  result : d.result = .ok (some session)
  holds : Holds phone s u
  account : session.userId = u.id
  created : session.isNewAccount = true ↔ ∃ c ∈ s.history, By d.ticket c ∧ Write.user u ∈ c.writes
  drawn : session.isNewAccount = true → u.id = v.env.uuid 0

theorem settled (hraced : Raced cfg phone vs b₀ s) (hmanned : Manned vs s)
    (hnone : NoneFailed s) (hd : d ∈ s.log) :
    ∃ v session u, vs[d.ticket]? = some v ∧ Settled cfg phone s v d session u := by
  have hhas : Has s d.toEntry := .inr ⟨d, hd, rfl⟩
  obtain ⟨v, hv, hop⟩ := hmanned d.toEntry hhas
  have hauthored := hmanned.authored hraced.books
  have hruns := hraced.done d hd hauthored v hv hop
  have hreturns := hraced.log d hd v (List.mem_of_getElem? hv) hop
  have hgood : ∀ x ∈ d.loc.trace, Good x := by
    refine hruns.clean.resolve_right ?_
    rintro ⟨x, hx, hfails⟩
    exact hnone x ⟨d.toEntry, hhas, hx⟩ hfails
  cases hresult : d.result with
  | error e =>
    rw [hresult] at hreturns
    obtain ⟨-, x, hx, hnot⟩ := hreturns
    exact absurd (hgood x hx) hnot
  | ok reply =>
    rw [hresult] at hreturns
    cases reply with
    | none => exact hreturns.elim
    | some session =>
      obtain ⟨ws, row, hopened⟩ := hreturns
      obtain ⟨c, hc, hby, hws⟩ := (hraced.books.mem_mine hd).mp
        (hopened.mine ▸ List.mem_singleton_self ws)
      have hmine : ∀ c' ∈ s.history, By d.ticket c' → c'.writes = ws := by
        intro c' hc' hby'
        have hmem := (hraced.books.mem_mine hd).mpr ⟨c', hc', hby', rfl⟩
        rw [hopened.mine] at hmem
        exact List.mem_singleton.mp hmem
      have hkept := (hraced.base hauthored).kept
      refine ⟨v, session, row, hv, hresult, ?_, hopened.account.symm, ?_, ?_⟩
      · rcases hopened.isNew with ⟨-, hmem, -⟩ | ⟨-, -, hread⟩
        · exact ⟨hkept c hc row (hws ▸ hmem), hopened.number⟩
        · exact ⟨hruns.read row hread, hopened.number⟩
      · rcases hopened.isNew with ⟨hnew, hmem, -⟩ | ⟨hnew, hnot, -⟩
        · exact ⟨fun _ => ⟨c, hc, hby, hws ▸ hmem⟩, fun _ => hnew⟩
        · refine ⟨fun h => absurd h (by simp [hnew]), ?_⟩
          rintro ⟨c', hc', hby', hmem⟩
          exact absurd (hmine c' hc' hby' ▸ hmem) (hnot row)
      · rcases hopened.isNew with ⟨-, -, hid⟩ | ⟨hnew, -, -⟩
        · exact fun _ => hid
        · exact fun h => absurd h (by simp [hnew])

theorem Settled.reportsNew {v : Verification} {session : Session}
    (h : Settled cfg phone s v d session u) : ReportsNew d ↔ session.isNewAccount = true := by
  simp [ReportsNew, h.result]

/-- When nothing has failed, all calls end with the one account. -/
theorem oneAccount_of_noneFailed (hrace : Racing cfg phone b₀ vs) (hraced : Raced cfg phone vs b₀ s)
    (hrecorded : Recorded reliable b₀ s) (hmanned : Manned vs s) (hnone : NoneFailed s)
    (hdone : ∀ i, s.calls i = none) (hlog : s.log ≠ []) : OneAccount phone s := by
  obtain ⟨d₀, hd₀⟩ := List.exists_mem_of_ne_nil _ hlog
  obtain ⟨v₀, session₀, u, -, hsettled₀⟩ := settled hraced hmanned hnone hd₀
  have hu := hsettled₀.holds
  have hauthored := hmanned.authored hraced.books
  have hone : ∀ d ∈ s.log, ∃ v session, vs[d.ticket]? = some v ∧
      Settled cfg phone s v d session u := by
    intro d hd
    obtain ⟨v, session, u', hv, h⟩ := settled hraced hmanned hnone hd
    exact ⟨v, session, hv, h.holds.eq hu ▸ h⟩
  -- The account was not there before: one of the calls has created it.
  obtain ⟨c, hc, hcreated⟩ := ((hraced.base hauthored).users u hu.1).resolve_left
    fun hold => hrace.newPhone u hold hu.2
  obtain ⟨hauthor, -⟩ := (hrecorded.happened c hc).resolve_right fun h => by
    simp [h.2.1] at hcreated
  obtain ⟨a, ha⟩ := Option.isSome_iff_exists.mp hauthor
  obtain ⟨e, he, hticket, -⟩ := hraced.books.author c hc a ha
  obtain ⟨d, hd, rfl⟩ : ∃ d ∈ s.log, d.toEntry = e := by
    rcases he with ⟨i, c, hc, -⟩ | he
    · simp [hdone i] at hc
    · exact he
  obtain ⟨v, session, hv, hsettled⟩ := hone d hd
  have hnew := hsettled.created.mpr ⟨c, hc, ⟨a, ha, hticket.symm⟩, hcreated⟩
  refine ⟨u, hu.filter_eq, fun d' hd' => ?_, d, hd, hsettled.reportsNew.mpr hnew, fun d' hd' hnew' => ?_⟩
  · obtain ⟨v', session', -, hsettled'⟩ := hone d' hd'
    exact ⟨session', hsettled'.result, hsettled'.account⟩
  · obtain ⟨v', session', hv', hsettled'⟩ := hone d' hd'
    have hdrawn' := hsettled'.drawn (hsettled'.reportsNew.mp hnew')
    by_contra hne
    exact (distinct_of_ne hrace.distinct hv' hv hne).user (hdrawn'.symm.trans (hsettled.drawn hnew))

/-- Calls that have all opened sessions have had no statement fail. -/
theorem noneFailed_of_oneAccount (hraced : Raced cfg phone vs b₀ s) (hmanned : Manned vs s)
    (hdone : ∀ i, s.calls i = none) (hone : OneAccount phone s) : NoneFailed s := by
  rintro x ⟨e, he, hx⟩
  obtain ⟨d, hd, rfl⟩ : ∃ d ∈ s.log, d.toEntry = e := by
    rcases he with ⟨i, c, hc, -⟩ | he
    · simp [hdone i] at hc
    · exact he
  obtain ⟨user, -, hsessions, -⟩ := hone
  obtain ⟨session, hresult, -⟩ := hsessions d hd
  obtain ⟨v, hv, hop⟩ := hmanned d.toEntry he
  have hreturns := hraced.log d hd v (List.mem_of_getElem? hv) hop
  rw [hresult] at hreturns
  obtain ⟨ws, row, hopened⟩ := hreturns
  exact hopened.clean x hx

/-- All calls end with the one account precisely if no statement is hindered. -/
theorem one_account_iff (hrace : Racing cfg phone s.base vs) (hvs : vs ≠ []) (hs : Idle s)
    (hcalls : as.filterMap called = vs.map Verification.op)
    (h : exec (step reliable (program cfg)) s as = some s') (hdone : ∀ i, s'.calls i = none) :
    OneAccount phone s' ↔ Each (step reliable (program cfg)) Admits s as := by
  have hraced := raced hrace hs h
  have hmanned : Manned vs s' := manned hs hcalls (List.append_nil as).symm h
  constructor
  · intro hone
    exact each_of_noneFailed h (noneFailed_of_oneAccount hraced hmanned hdone hone)
  · intro heach
    have hnone : NoneFailed s' := noneFailed_of_each hrace hs hcalls heach (List.append_nil as).symm h
    refine oneAccount_of_noneFailed hrace hraced (Recorded.exec hs h) hmanned hnone hdone ?_
    have hstarted := Started.exec hs h
    have hpos : 0 < s'.tickets := by
      rw [hstarted.tickets, hcalls, List.length_map]
      exact List.length_pos_of_ne_nil hvs
    obtain ⟨e, he, -⟩ := hstarted.has 0 hpos
    rcases he with ⟨i, c, hc, -⟩ | ⟨d, hd, -⟩
    · simp [hdone i] at hc
    · exact List.ne_nil_of_mem hd

end Outcome

/-- Two devices without a link. -/
def twoDevices : AccountState 2 where
  base := ⟨{ devices := [{ id := 7, tokenHash := "d", platform := .ios },
                         { id := 8, tokenHash := "e", platform := .android }] }, by decide⟩

theorem twoDevices_idle : Idle twoDevices :=
  ⟨fun _ => rfl, rfl, rfl, rfl⟩

/-- One number, verified from both devices. -/
def pair : List Verification :=
  [⟨Backend.plainEnv 1, "5551234567", "", 7⟩, ⟨Backend.plainEnv 2, "5551234567", "", 8⟩]

theorem pair_racing : Racing Backend.plainConfig "+905551234567" twoDevices.base pair := by
  refine ⟨by simp [twoDevices], ?_, ?_, ?_, ?_, ?_, by simp [twoDevices]⟩
  · decide
  · simp [pair, Backend.plainEnv]
  · simp [pair, twoDevices, Unlinked]
  · simp only [pair, List.mem_cons, List.not_mem_nil, or_false, forall_eq_or_imp, forall_eq]
    exact ⟨⟨by simp [twoDevices], by simp [twoDevices], by simp [twoDevices]⟩,
      ⟨by simp [twoDevices], by simp [twoDevices], by simp [twoDevices]⟩⟩
  · exact List.pairwise_pair.mpr ⟨by decide, by decide, by decide, by decide⟩

def calls : List (AccountAction 2) :=
  [.call 0 (.verifyOTP (Backend.plainEnv 1) "5551234567" "" 7),
   .call 1 (.verifyOTP (Backend.plainEnv 2) "5551234567" "" 8)]

/-- The second call looks for an account before the first one has committed its own. -/
def crossing : List (AccountAction 2) :=
  calls ++ List.replicate 2 (.run 0) ++ List.replicate 2 (.run 1) ++
    List.replicate 16 (.run 0) ++ List.replicate 5 (.run 1)

def oneAfterTheOther : List (AccountAction 2) :=
  calls ++ List.replicate 18 (.run 0) ++ List.replicate 16 (.run 1)

def idleNow {n : ℕ} (s : AccountState n) : Bool :=
  (List.finRange n).all fun i => (s.calls i).isNone

theorem calls_of_idleNow {n : ℕ} {s : AccountState n} (h : idleNow s = true) (i : Fin n) :
    s.calls i = none := by
  simpa using List.all_eq_true.mp h i (List.mem_finRange i)

/-- The call that creates the account second fails, though an account is there to be found. -/
theorem crossing_fails_one : ∃ s',
    exec (step reliable (program Backend.plainConfig)) twoDevices crossing = some s' ∧
      Racing Backend.plainConfig "+905551234567" twoDevices.base pair ∧
      crossing.filterMap called = pair.map Verification.op ∧ (∀ i, s'.calls i = none) ∧
      ¬ OneAccount "+905551234567" s' := by
  obtain ⟨s', hs', htest⟩ := exists_of_exec_test (step reliable (program Backend.plainConfig))
    twoDevices crossing (fun s => idleNow s && (s.log.map fun d => d.result.isOk) == [true, false])
    (by decide +kernel)
  simp only [Bool.and_eq_true, beq_iff_eq] at htest
  refine ⟨s', hs', pair_racing, rfl, calls_of_idleNow htest.1, ?_⟩
  rintro ⟨user, -, hsessions, -⟩
  have hmem : false ∈ s'.log.map fun d => d.result.isOk := by simp [htest.2]
  obtain ⟨d, hd, hfails⟩ := List.mem_map.mp hmem
  obtain ⟨session, hresult, -⟩ := hsessions d hd
  simp [hresult, Except.isOk, Except.toBool] at hfails

/-- One after the other, both calls open sessions. -/
theorem both_open_one_after_the_other : ∃ s',
    exec (step reliable (program Backend.plainConfig)) twoDevices oneAfterTheOther = some s' ∧
      (s'.log.map fun d => d.result.isOk) = [true, true] ∧
      (OneAccount "+905551234567" s' ↔
        Each (step reliable (program Backend.plainConfig)) Admits twoDevices oneAfterTheOther) := by
  obtain ⟨s', hs', htest⟩ := exists_of_exec_test (step reliable (program Backend.plainConfig))
    twoDevices oneAfterTheOther
    (fun s => idleNow s && (s.log.map fun d => d.result.isOk) == [true, true]) (by decide +kernel)
  simp only [Bool.and_eq_true, beq_iff_eq] at htest
  exact ⟨s', hs', htest.2, one_account_iff pair_racing (by simp [pair]) twoDevices_idle rfl hs'
    (calls_of_idleNow htest.1)⟩

end Tekir.AccountRace
