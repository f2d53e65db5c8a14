import Tekir.Machine
import Tekir.SocialServices

/-!
# The backend

Every write operation of the backend as one action, carried out one after another.
A genesis state is what the migrations before the account tables can leave behind:
unlinked devices, cats nobody owns, device-owned follows, updates without an account.
The one guard is that a generated object key is fresh.
-/
namespace Tekir.Backend
open Machine Table Schema Statements Environment

inductive Op
  | register (platform : String) (pushToken : Option String)
  | setPushToken (deviceId : UUID) (pushToken : String)
  | requestOTP (phone : String)
  | verifyOTP (phone code : String) (deviceId : UUID)
  | setDisplayName (userId : UUID) (displayName : String)
  | refresh (token : String)
  | logout (userId : UUID) (token : String) (deviceId : Option UUID)
  | unlinkDevice (deviceId userId : UUID)
  | block (blocker : UUID) (blocked : Option UUID)
  | unblock (blocker : UUID) (blocked : Option UUID)
  | createCat (req : CatServices.CreateRequest)
  | upload (userId : UUID) (deviceId : Option UUID) (idempotencyKey : Option String)
      (muted : Bool)
  | createOrdinaryUpdate (req : CatServices.OrdinaryUpdateRequest)
  | createNeedsHelpUpdate (catId : Option UUID) (userId : UUID) (deviceId : Option UUID)
      (category : String) (comment : Option String)
  | correctOwnUpdate (catId updateId : Option UUID) (userId : UUID)
      (correction : CatServices.UpdateCorrection)
  | deleteOwnUpdate (catId updateId : Option UUID) (userId : UUID)
  | setCoverPhoto (catId caller : UUID) (mediaId : Option UUID)
  | renameCat (catId caller : UUID) (name : String)
  | deleteCat (catId caller : UUID)
  | follow (catId : Option UUID) (userId : UUID) (deviceId : Option UUID)
  | unfollow (catId : Option UUID) (userId : UUID)
  | report (reporter : UUID) (targetType : String) (targetId : Option UUID) (reason : String)
      (note : Option String)
  | dispatchPending
  | markRead (userId : UUID) (id : Option UUID)
  | deleteAccount (userId : UUID)

/-- An operation and what it draws from outside. -/
structure Request where
  env : Env
  op : Op

def serve (cfg : Config) (r : Request) (w : World) : World :=
  match r.op with
  | .register platform pushToken => (AccountServices.register cfg r.env platform pushToken w).2
  | .setPushToken deviceId pushToken => (AccountServices.setPushToken deviceId pushToken w).2
  | .requestOTP phone => (AccountServices.requestOTP cfg r.env phone w).2
  | .verifyOTP phone code deviceId => (AccountServices.verifyOTP cfg r.env phone code deviceId w).2
  | .setDisplayName userId name => (AccountServices.setDisplayName userId name w).2
  | .refresh token => (AccountServices.refresh cfg r.env token w).2
  | .logout userId token deviceId => (AccountServices.logout cfg r.env userId token deviceId w).2
  | .unlinkDevice deviceId userId => (AccountServices.unlinkDevice deviceId userId w).2
  | .block blocker blocked => (AccountServices.block blocker blocked w).2
  | .unblock blocker blocked => (AccountServices.unblock blocker blocked w).2
  | .createCat req => (CatServices.create cfg r.env req w).2
  | .upload userId deviceId key muted => (CatServices.upload r.env userId deviceId key muted w).2
  | .createOrdinaryUpdate req => (CatServices.createOrdinaryUpdate r.env req w).2
  | .createNeedsHelpUpdate catId userId deviceId category comment =>
      (CatServices.createNeedsHelpUpdate r.env catId userId deviceId category comment w).2
  | .correctOwnUpdate catId updateId userId correction =>
      (CatServices.correctOwnUpdate r.env catId updateId userId correction w).2
  | .deleteOwnUpdate catId updateId userId =>
      (CatServices.deleteOwnUpdate r.env catId updateId userId w).2
  | .setCoverPhoto catId caller mediaId =>
      (CatServices.setCoverPhoto r.env catId caller mediaId w).2
  | .renameCat catId caller name => (CatServices.renameCat r.env catId caller name w).2
  | .deleteCat catId caller => (CatServices.deleteCat catId caller w).2
  | .follow catId userId deviceId => (SocialServices.follow catId userId deviceId w).2
  | .unfollow catId userId => (SocialServices.unfollow catId userId w).2
  | .report reporter targetType targetId reason note =>
      (SocialServices.createReport r.env reporter targetType targetId reason note w).2
  | .dispatchPending => (SocialServices.dispatchPending cfg r.env w).2
  | .markRead userId id => (SocialServices.markRead r.env userId id w).2
  | .deleteAccount userId => (AccountServices.delete r.env userId w).2

/-- A generated object key names no object and no media row yet. -/
def FreshKey (key : String) (w : World) : Prop :=
  key ∉ w.objects ∧ ∀ m ∈ w.db.tables.media, m.objectKey ≠ key

instance (key : String) (w : World) : Decidable (FreshKey key w) :=
  inferInstanceAs (Decidable (_ ∧ _))

def next (cfg : Config) (w : World) (r : Request) : Option World :=
  if FreshKey r.env.objectKey w then some (serve cfg r w) else none

/-- No account has ever existed. The trigger of the time gave an outbox row its update's cat. -/
structure Genesis (w : World) : Prop where
  users : w.db.tables.users = []
  otpCodes : w.db.tables.otpCodes = []
  media : w.db.tables.media = []
  notifications : w.db.tables.notifications = []
  outbox : ∀ o ∈ w.db.tables.notificationOutbox, ∀ u ∈ w.db.tables.updates,
    u.id = o.updateId → u.catId = o.catId
  objects : w.objects = []
  sent : w.sent = []

def Reaches (cfg : Config) (w : World) : Prop :=
  Reachable (next cfg) Genesis w

theorem next_eq_some {cfg : Config} {w w' : World} {r : Request} :
    next cfg w r = some w' ↔ FreshKey r.env.objectKey w ∧ serve cfg r w = w' := by
  unfold next
  split <;> simp_all

/-- A test that succeeds at the end of a run from a genesis state. -/
theorem exists_reaches_of_test (cfg : Config) {w : World} (hw : Genesis w) (rs : List Request)
    (p : World → Bool) (h : (exec (next cfg) w rs).map p = some true) :
    ∃ w', Reaches cfg w' ∧ p w' = true := by
  obtain ⟨w', hw', hp⟩ := exists_of_exec_test (next cfg) w rs p h
  exact ⟨w', ⟨w, rs, hw, hw'⟩, hp⟩

/-- A wiring for concrete runs: the hash is the identity and no two cats are near. -/
def plainConfig : Config where
  otpTTL := 300
  otpMaxAttempts := 5
  resendCooldown := 60
  refreshTokenTTL := 10000
  sha256 := id
  dwithin := fun _ _ => false

/-- The draws of the `k`-th call of a concrete run, whose verification provider approves. -/
def plainEnv (k : ℕ) : Env where
  clock := k
  now := k
  uuid := fun i => 10 * k + i
  token := toString k
  objectKey := toString k
  external := some ⟨.ok (), .ok ()⟩

/-- One cat from before the accounts. -/
def seedWorld : World where
  db := ⟨{ cats := [{ id := 1, name := none, area := ⟨41, 29⟩, createdAt := 0 }] }, by decide⟩

theorem seedWorld_genesis : Genesis seedWorld :=
  ⟨rfl, rfl, rfl, rfl, by simp [seedWorld], rfl, rfl⟩

end Tekir.Backend
