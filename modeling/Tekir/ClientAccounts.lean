import Tekir.SessionService

/-!
# Account-owned state of the client

`NotificationsNotifier`, `ProfileNotifier`, `QuietDayNotifier`, the following tab of
`DiscoverNotifier` and `FollowsNotifier` over one session. `SessionIdentityService` holds the
credentials that requests carry; `sessionProvider` shows a session to the notifiers, which
listen to it or, in the case of `FollowsNotifier`, are built again. Everything fetched keeps
the account that was signed in when its request was issued.
-/
namespace Tekir.ClientAccounts
open Machine EventLoop
open SessionService (AccessToken SessionIdentity UserId)

/-- What a request issued for an account has brought. -/
structure Owned (α : Type) where
  account : UserId
  value : α
  deriving DecidableEq

structure AppNotification where
  id : String
  catId : String
  updateId : String
  read : Bool
  createdAt : ℤ
  deriving DecidableEq

structure Profile where
  displayName : Option String
  deriving DecidableEq

/-- Of a marker, what the notifiers look at. -/
structure CatMarker where
  id : String
  name : String := ""
  deriving DecidableEq

structure NotificationsState where
  items : List (Owned AppNotification) := []
  nextCursor : Option (Owned String) := none
  isLoading : Bool := false
  isLoadingMore : Bool := false
  hasLoadedOnce : Bool := false
  error : Option String := none
  deriving DecidableEq

structure ProfileState where
  profile : Option (Owned Profile) := none
  isLoading : Bool := false
  hasLoadedOnce : Bool := false
  error : Option String := none
  deriving DecidableEq

inductive QuietDayStatus | initial | loading | loaded | unavailable
  deriving DecidableEq

structure QuietDayState where
  status : QuietDayStatus := .initial
  cats : List (Owned CatMarker) := []
  deriving DecidableEq

structure DiscoverFollowingTabState where
  cats : List (Owned CatMarker) := []
  isLoading : Bool := false
  hasLoadedOnce : Bool := false
  error : Option String := none
  deriving DecidableEq

/-- The `AsyncValue` of `FollowsNotifier`; a provider that is built again keeps showing its
value until then. `build` counts the builds, of which only the last may complete. -/
structure FollowsState where
  value : Option (List (Owned String)) := none
  isLoading : Bool := true
  build : ℕ := 0
  deriving DecidableEq

structure Client where
  cached : Option SessionIdentity := none
  /-- The value of `sessionProvider`; `none` while its first restoration is under way. -/
  shown : Option (Option SessionIdentity) := none
  notifications : NotificationsState := {}
  profile : ProfileState := {}
  quietDay : QuietDayState := {}
  following : DiscoverFollowingTabState := {}
  follows : FollowsState := {}
  deriving DecidableEq

namespace Client

/-- `cached?.userId` -/
def signedIn (c : Client) : Option UserId :=
  c.cached.map SessionIdentity.userId

def shownFor (c : Client) : Option UserId :=
  c.shown.join.map SessionIdentity.userId

end Client

inductive Call
  /-- The restoration that `SessionNotifier.build` waits for. -/
  | restored (session : Option SessionIdentity)
  | saved (session : SessionIdentity)
  /-- A rotation for the account that is signed in. -/
  | rotated (accessToken : AccessToken) (refreshToken : String)
  /-- `refreshIfNeeded` shows what is cached. -/
  | refreshed
  | logoutBegan
  | logoutReturned
  | loadNotifications
  | loadMoreNotifications
  | loadProfile
  | loadQuietDay
  | loadFollowing
  | toggle (catId : String)

inductive Waiting
  | notifications (requestedFor : Option UserId)
  | moreNotifications (issuedFor : Option UserId)
  | profile (requestedFor : Option UserId)
  | quietDay (requestedFor : Option UserId)
  | following (requestedFor : Option UserId)
  | followsBuild (build : ℕ) (issuedFor : Option UserId)
  | toggle (issuedFor : Option UserId) (catId : String) (current : List (Owned String))
  deriving DecidableEq

inductive Reply
  | page (items : List AppNotification) (nextCursor : Option String)
  | profile (profile : Profile)
  | cats (cats : List CatMarker)
  | done
  | failed (error : String)
  deriving DecidableEq

section Sessions

/-- `ref.listen` in the four notifiers: another account id empties them. -/
def listened (previous : Option (Option SessionIdentity)) (next : Option SessionIdentity)
    (c : Client) : Client :=
  match previous with
  | none => c
  | some shown =>
    if shown.map SessionIdentity.userId ≠ next.map SessionIdentity.userId then
      { c with notifications := {}, profile := {}, quietDay := {}, following := {} }
    else c

/-- `FollowsNotifier.build`: a guest has nothing to fetch. -/
def buildFollows (session : Option SessionIdentity) (c : Client) : Client × List Waiting :=
  ({ c with follows := { c.follows with isLoading := true, build := c.follows.build + 1 } },
    [.followsBuild (c.follows.build + 1) (session.bind fun _ => c.signedIn)])

/-- `state = AsyncData(next)` in `SessionNotifier`. -/
def publish (next : Option SessionIdentity) (c : Client) : Client × List Waiting :=
  let c' := { listened c.shown next c with shown := some next }
  if c.shown = some next then (c', []) else buildFollows next c'

end Sessions

section Notifiers

def own {α : Type} (account : UserId) (values : List α) : List (Owned α) :=
  values.map (⟨account, ·⟩)

/-- The check after an await: another account's answer is dropped. -/
def ifStill (requestedFor : Option UserId) (write : Client → Client) (c : Client) : Client :=
  if c.signedIn ≠ requestedFor then c else write c

/-- The set that a toggle writes back. -/
def toggled (account : UserId) (catId : String) (current : List (Owned String)) :
    List (Owned String) :=
  if current.any fun o => o.value == catId then current.filter fun o => o.value != catId
  else current ++ [⟨account, catId⟩]

def call (c : Client) : Call → Option (Client × List Waiting)
  | .restored session => some (publish session { c with cached := session })
  | .saved session => some (publish (some session) { c with cached := some session })
  | .rotated accessToken refreshToken =>
    c.cached.map fun s => ({ c with cached := some { s with accessToken, refreshToken } }, [])
  | .refreshed => some (publish c.cached c)
  | .logoutBegan => some ({ c with cached := none }, [])
  | .logoutReturned => some (publish none c)
  | .loadNotifications => some
      ({ c with notifications := { c.notifications with isLoading := true, error := none } },
        [.notifications c.signedIn])
  | .loadMoreNotifications =>
    if c.notifications.nextCursor = none ∨ c.notifications.isLoadingMore then some (c, [])
    else some ({ c with notifications := { c.notifications with isLoadingMore := true } },
      [.moreNotifications c.signedIn])
  | .loadProfile => some
      ({ c with profile := { c.profile with isLoading := true, error := none } },
        [.profile c.signedIn])
  | .loadQuietDay =>
    if c.quietDay.status = .loading ∨ c.quietDay.status = .loaded then some (c, [])
    else some ({ c with quietDay := { status := .loading } }, [.quietDay c.signedIn])
  | .loadFollowing => some
      ({ c with following := { c.following with isLoading := true, error := none } },
        [.following c.signedIn])
  | .toggle catId => some (c, [.toggle c.signedIn catId (c.follows.value.getD [])])

/-- A request without a session is refused, so only an account's request brings data. -/
def resume (c : Client) : Waiting → Reply → Option (Client × List Waiting)
  | .notifications (some a), .page items nextCursor => some (ifStill (some a) (fun c =>
      { c with notifications :=
        { items := own a items, nextCursor := nextCursor.map (⟨a, ·⟩), hasLoadedOnce := true } }) c,
      [])
  | .notifications requestedFor, .failed error => some (ifStill requestedFor (fun c =>
      { c with notifications :=
        { c.notifications with isLoading := false, hasLoadedOnce := true, error := some error } }) c,
      [])
  | .moreNotifications (some a), .page items nextCursor => some
      ({ c with notifications :=
        { c.notifications with
          items := c.notifications.items ++ own a items, nextCursor := nextCursor.map (⟨a, ·⟩)
          isLoadingMore := false } }, [])
  | .moreNotifications _, .failed _ => some
      ({ c with notifications := { c.notifications with isLoadingMore := false } }, [])
  | .profile (some a), .profile profile => some (ifStill (some a) (fun c =>
      { c with profile := { profile := some ⟨a, profile⟩, hasLoadedOnce := true } }) c, [])
  | .profile requestedFor, .failed error => some (ifStill requestedFor (fun c =>
      { c with profile :=
        { c.profile with isLoading := false, hasLoadedOnce := true, error := some error } }) c, [])
  | .quietDay (some a), .cats cats => some (ifStill (some a) (fun c =>
      { c with quietDay := { status := .loaded, cats := own a cats } }) c, [])
  | .quietDay requestedFor, .failed _ => some (ifStill requestedFor (fun c =>
      { c with quietDay := { status := .unavailable } }) c, [])
  | .following (some a), .cats cats => some (ifStill (some a) (fun c =>
      { c with following := { cats := own a cats, hasLoadedOnce := true } }) c, [])
  | .following requestedFor, .failed error => some (ifStill requestedFor (fun c =>
      { c with following :=
        { c.following with isLoading := false, hasLoadedOnce := true, error := some error } }) c, [])
  | .followsBuild build (some a), .cats cats => some
      (if build = c.follows.build then
        { c with follows :=
          { c.follows with value := some (own a (cats.map CatMarker.id).dedup), isLoading := false } }
      else c, [])
  | .followsBuild build none, .done | .followsBuild build _, .failed _ => some
      (if build = c.follows.build then
        { c with follows := { c.follows with value := some [], isLoading := false } }
      else c, [])
  | .toggle (some a) catId current, .done => some
      ({ c with follows :=
        { c.follows with value := some (toggled a catId current), isLoading := false } }, [])
  | .toggle .., .failed _ => some (c, [])
  | _, _ => none

end Notifiers

def handlers : Handlers Client Waiting Call Reply where
  call := call
  resume := resume

/-- The app starts with the first build of the follows, for a session that is not known yet. -/
def start : Loop Client Waiting :=
  ⟨{}, [.followsBuild 0 none]⟩

/-- Signed in, or signed out so recently that it is still shown. -/
def Client.Current (c : Client) (account : UserId) : Prop :=
  c.signedIn = some account ∨ c.shownFor = some account

instance (c : Client) (account : UserId) : Decidable (c.Current account) :=
  inferInstanceAs (Decidable (_ ∨ _))

/-- Whose data the notifiers hold that listen to the session. -/
def Client.listed (c : Client) : List UserId :=
  c.notifications.items.map Owned.account ++ (c.notifications.nextCursor.map Owned.account).toList ++
    (c.profile.profile.map Owned.account).toList ++ c.quietDay.cats.map Owned.account ++
    c.following.cats.map Owned.account

/-- Whose follows are held; those that are being fetched again are not. -/
def Client.followed (c : Client) : List UserId :=
  if c.follows.isLoading then [] else (c.follows.value.getD []).map Owned.account

def Client.accounts (c : Client) : List UserId :=
  c.listed ++ c.followed

/-- The notifiers hold nothing but what was fetched for the current account. -/
def Isolated (c : Client) : Prop :=
  ∀ a ∈ c.accounts, c.Current a

instance : DecidablePred Isolated := fun c =>
  inferInstanceAs (Decidable (∀ a ∈ c.accounts, c.Current a))

/-- The calls that end a session. -/
def ends : Call → Bool
  | .logoutBegan | .restored none => true
  | _ => false

/-- Whose data an answer brings that is written without a check. -/
def unchecked : Waiting → Reply → List UserId
  | .moreNotifications (some a), .page .. => [a]
  | .toggle (some a) catId current, .done => (toggled a catId current).map Owned.account
  | _, _ => []

/-- Further pages and toggles come back to the account they were issued for, and a session that
ends is one that is shown. -/
def guard : Guard Client Waiting Call Reply where
  call c i := ends i = true → c.cached = none ∨ c.shownFor = c.signedIn
  answer c w r := ∀ a ∈ unchecked w r, c.Current a

instance (c : Client) (i : Call) : Decidable (guard.call c i) :=
  inferInstanceAs (Decidable (_ = true → _ ∨ _))

instance (c : Client) (w : Waiting) (r : Reply) : Decidable (guard.answer c w r) :=
  inferInstanceAs (Decidable (∀ a ∈ unchecked w r, c.Current a))

section Invariant

structure Sound (c : Client) : Prop where
  isolated : Isolated c
  restoring : c.shown = none → c.cached = none
  agree : c.signedIn = none ∨ c.shownFor = none ∨ c.signedIn = c.shownFor

/-- A build of the follows that may complete was started for the current account. -/
def Pending (c : Client) : Waiting → Prop
  | .followsBuild build issuedFor =>
    build ≤ c.follows.build ∧ (build = c.follows.build → ∀ a, issuedFor = some a → c.Current a)
  | _ => True

variable {c c' : Client} {a : UserId}

@[simp] theorem mem_accounts : a ∈ c.accounts ↔ a ∈ c.listed ∨ a ∈ c.followed :=
  List.mem_append

theorem mem_listed : a ∈ c.listed ↔ (∃ o ∈ c.notifications.items, o.account = a) ∨
    (∃ o ∈ c.notifications.nextCursor, o.account = a) ∨
    (∃ o ∈ c.profile.profile, o.account = a) ∨ (∃ o ∈ c.quietDay.cats, o.account = a) ∨
    ∃ o ∈ c.following.cats, o.account = a := by
  simp [Client.listed]

theorem mem_followed : a ∈ c.followed ↔
    c.follows.isLoading = false ∧ ∃ o ∈ c.follows.value.getD [], o.account = a := by
  unfold Client.followed
  cases c.follows.isLoading <;> simp

theorem own_account {α : Type} {values : List α} {o : Owned α} (h : o ∈ own a values) :
    o.account = a := by
  obtain ⟨v, -, rfl⟩ := List.mem_map.mp h
  rfl

section Writes

/-! What one notifier's write can add. -/

theorem accounts_notifications {n : NotificationsState}
    (h : a ∈ ({ c with notifications := n } : Client).accounts) :
    a ∈ c.accounts ∨ (∃ o ∈ n.items, o.account = a) ∨ ∃ o ∈ n.nextCursor, o.account = a := by
  rw [mem_accounts, mem_listed] at h ⊢
  grind [Client.followed]

theorem accounts_profile {p : ProfileState} (h : a ∈ ({ c with profile := p } : Client).accounts) :
    a ∈ c.accounts ∨ ∃ o ∈ p.profile, o.account = a := by
  rw [mem_accounts, mem_listed] at h ⊢
  grind [Client.followed]

theorem accounts_quietDay {q : QuietDayState} (h : a ∈ ({ c with quietDay := q } : Client).accounts) :
    a ∈ c.accounts ∨ ∃ o ∈ q.cats, o.account = a := by
  rw [mem_accounts, mem_listed] at h ⊢
  grind [Client.followed]

theorem accounts_following {f : DiscoverFollowingTabState}
    (h : a ∈ ({ c with following := f } : Client).accounts) :
    a ∈ c.accounts ∨ ∃ o ∈ f.cats, o.account = a := by
  rw [mem_accounts, mem_listed] at h ⊢
  grind [Client.followed]

theorem accounts_follows {f : FollowsState} (h : a ∈ ({ c with follows := f } : Client).accounts) :
    a ∈ c.accounts ∨ ∃ o ∈ f.value.getD [], o.account = a := by
  rw [mem_accounts] at h ⊢
  rcases h with h | h
  · exact .inl (.inl h)
  · exact .inr (mem_followed.mp h).2

end Writes

/-- What publishing a session does. -/
structure Published (next : Option SessionIdentity) (c : Client) (t : Client × List Waiting) :
    Prop where
  cached : t.1.cached = c.cached
  shown : t.1.shown = some next
  accounts : ∀ a ∈ t.1.accounts, a ∈ c.accounts ∧
    (c.shown = none ∨ c.shownFor = next.map SessionIdentity.userId)
  builds : (t.2 = [] ∧ t.1.follows = c.follows ∧ c.shown = some next) ∨
    (t.2 = [.followsBuild (c.follows.build + 1) (next.bind fun _ => c.signedIn)] ∧
      t.1.follows.build = c.follows.build + 1)

theorem listened_cached (previous : Option (Option SessionIdentity))
    (next : Option SessionIdentity) (c : Client) : (listened previous next c).cached = c.cached := by
  unfold listened
  split
  · rfl
  · split <;> rfl

theorem listened_follows (previous : Option (Option SessionIdentity))
    (next : Option SessionIdentity) (c : Client) :
    (listened previous next c).follows = c.follows := by
  unfold listened
  split
  · rfl
  · split <;> rfl

/-- What the listeners leave was there before, and the account id is the same. -/
theorem listened_listed {next : Option SessionIdentity} (h : a ∈ (listened c.shown next c).listed) :
    a ∈ c.listed ∧ (c.shown = none ∨ c.shownFor = next.map SessionIdentity.userId) := by
  unfold listened at h
  split at h
  · rename_i hshown
    exact ⟨h, .inl hshown⟩
  · rename_i shown hshown
    split at h
    · simp [Client.listed] at h
    · rename_i heq
      refine ⟨h, .inr ?_⟩
      rw [Client.shownFor, hshown]
      exact not_not.mp heq

theorem publish_spec (next : Option SessionIdentity) (c : Client) :
    Published next c (publish next c) := by
  have hcached := listened_cached c.shown next c
  have hfollows := listened_follows c.shown next c
  unfold publish
  dsimp only
  split
  · rename_i hsame
    refine ⟨hcached, rfl, fun a ha => ?_, .inl ⟨rfl, hfollows, hsame⟩⟩
    have hfor : c.shownFor = next.map SessionIdentity.userId := by rw [Client.shownFor, hsame]; rfl
    rcases mem_accounts.mp ha with ha | ha
    · exact ⟨mem_accounts.mpr (.inl (listened_listed ha).1), .inr hfor⟩
    · rw [Client.followed, hfollows] at ha
      exact ⟨mem_accounts.mpr (.inr ha), .inr hfor⟩
  · refine ⟨hcached, rfl, fun a ha => ?_, .inr ⟨?_, ?_⟩⟩
    · rcases mem_accounts.mp ha with ha | ha
      · have hlisted := listened_listed ha
        exact ⟨mem_accounts.mpr (.inl hlisted.1), hlisted.2⟩
      · simp [Client.followed, buildFollows] at ha
    · simp only [buildFollows, hfollows, Client.signedIn, hcached]
    · simp only [buildFollows, hfollows]

theorem keeps_write {ws : List Waiting} (h : Sound c) (hsigned : c'.signedIn = c.signedIn)
    (hshown : c'.shown = c.shown) (hbuild : c'.follows.build = c.follows.build)
    (haccounts : ∀ a ∈ c'.accounts, a ∈ c.accounts ∨ c.Current a)
    (hnew : ∀ w ∈ ws, Pending c w) : Keeps Sound Pending c (c', ws) := by
  have hfor : c'.shownFor = c.shownFor := by rw [Client.shownFor, hshown, Client.shownFor]
  have hcurrent : ∀ a, c'.Current a ↔ c.Current a := by
    intro a
    rw [Client.Current, hsigned, hfor, Client.Current]
  have hpending : ∀ w, Pending c w → Pending c' w := by
    intro w hw
    cases w with
    | followsBuild build issuedFor =>
      refine ⟨hbuild ▸ hw.1, fun heq a ha => (hcurrent a).mpr (hw.2 (heq.trans hbuild) a ha)⟩
    | _ => trivial
  refine ⟨⟨fun a ha => (hcurrent a).mpr ?_, fun hnone => ?_, ?_⟩, hpending,
    fun w hw => hpending w (hnew w hw)⟩
  · rcases haccounts a ha with ha | ha
    · exact h.isolated a ha
    · exact ha
  · rw [Client.signedIn, Client.signedIn, h.restoring (hshown ▸ hnone)] at hsigned
    exact Option.map_eq_none_iff.mp hsigned
  · rw [hsigned, hfor]
    exact h.agree

theorem ifStill_keeps {requestedFor : Option UserId} {write : Client → Client} (h : Sound c)
    (hsigned : (write c).signedIn = c.signedIn) (hshown : (write c).shown = c.shown)
    (hfollows : (write c).follows.build = c.follows.build)
    (haccounts : ∀ a ∈ (write c).accounts, a ∈ c.accounts ∨ requestedFor = some a) :
    Keeps Sound Pending c (ifStill requestedFor write c, []) := by
  unfold ifStill
  split
  · exact keeps_write h rfl rfl rfl (fun a ha => .inl ha) (by simp)
  · rename_i hstill
    refine keeps_write h hsigned hshown hfollows (fun a ha => ?_) (by simp)
    rcases haccounts a ha with ha | ha
    · exact .inl ha
    · exact .inr (.inl ((not_not.mp hstill).trans ha))

theorem publish_keeps (cached next : Option SessionIdentity) (h : Sound c)
    (hcurrent : ∀ a, c.Current a →
      (c.shown = none ∨ c.shownFor = next.map SessionIdentity.userId) →
        cached.map SessionIdentity.userId = some a ∨ next.map SessionIdentity.userId = some a)
    (hagree : cached.map SessionIdentity.userId = none ∨ next.map SessionIdentity.userId = none ∨
      cached.map SessionIdentity.userId = next.map SessionIdentity.userId) :
    Keeps Sound Pending c (publish next { c with cached }) := by
  have hp := publish_spec next { c with cached }
  have hsigned : (publish next { c with cached }).1.signedIn = cached.map SessionIdentity.userId := by
    rw [Client.signedIn, hp.cached]
  have hfor : (publish next { c with cached }).1.shownFor = next.map SessionIdentity.userId := by
    rw [Client.shownFor, hp.shown]
    rfl
  refine ⟨⟨fun a ha => ?_, ?_, ?_⟩, fun w hw => ?_, fun w hw => ?_⟩
  · rw [Client.Current, hsigned, hfor]
    obtain ⟨hmem, hstill⟩ := hp.accounts a ha
    exact hcurrent a (h.isolated a hmem) hstill
  · intro hnone
    rw [hp.shown] at hnone
    cases hnone
  · rw [hsigned, hfor]
    exact hagree
  · cases w with
    | followsBuild build issuedFor =>
      obtain ⟨hle, hbuild⟩ := hw
      rcases hp.builds with ⟨-, hfollows, hsame⟩ | ⟨-, hnext⟩
      · have hsame' := congrArg FollowsState.build hfollows
        refine ⟨hsame' ▸ hle, fun heq a ha => ?_⟩
        rw [Client.Current, hsigned, hfor]
        refine hcurrent a (hbuild (heq.trans hsame') a ha) (.inr ?_)
        have hshown : c.shown = some next := hsame
        rw [Client.shownFor, hshown]
        rfl
      · -- a build from before may not complete any more
        rw [Pending, hnext]
        exact ⟨Nat.le_succ_of_le hle, fun heq => absurd (heq ▸ hle) (Nat.not_succ_le_self _)⟩
    | _ => trivial
  · rcases hp.builds with ⟨hnew, -, -⟩ | ⟨hnew, hnext⟩
    · rw [hnew] at hw
      cases hw
    · rw [hnew] at hw
      rw [List.mem_singleton.mp hw, Pending, hnext]
      refine ⟨Nat.le_refl _, fun _ a ha => .inl ?_⟩
      obtain ⟨_, -, hsome⟩ := Option.bind_eq_some_iff.mp ha
      exact hsigned.trans hsome

/-- A session is cached and shown in one turn. -/
theorem publish_cached_keeps {session : Option SessionIdentity} (h : Sound c)
    (hguard : session = none → c.cached = none ∨ c.shownFor = c.signedIn) :
    Keeps Sound Pending c (publish session { c with cached := session }) := by
  refine publish_keeps session session h (fun a ha hstill => .inl ?_) (.inr (.inr rfl))
  have hsigned : c.cached = none → c.signedIn ≠ some a := by
    intro hnone
    rw [Client.signedIn, hnone]
    exact nofun
  rcases hstill with hnone | hfor
  · -- nothing could be fetched before the session was known
    rcases ha with ha | ha
    · exact absurd ha (hsigned (h.restoring hnone))
    · rw [Client.shownFor, hnone] at ha
      cases ha
  · rcases ha with ha | ha
    · rcases h.agree with hagree | hagree | hagree
      · rw [hagree] at ha
        cases ha
      · cases session with
        | none =>
          rcases hguard rfl with hcached | heq
          · exact absurd ha (hsigned hcached)
          · rw [hagree, ha] at heq
            cases heq
        | some s =>
          rw [hagree] at hfor
          cases hfor
      · exact hfor.symm.trans (hagree.symm.trans ha)
    · exact hfor.symm.trans ha

theorem publish_none_keeps (h : Sound c) : Keeps Sound Pending c (publish none c) := by
  refine publish_keeps c.cached none h (fun a ha hstill => .inl ?_) (.inr (.inl rfl))
  rcases ha with ha | ha
  · exact ha
  · rcases hstill with hnone | hfor
    · rw [Client.shownFor, hnone] at ha
      cases ha
    · rw [hfor] at ha
      cases ha

theorem call_keeps {i : Call} {t : Client × List Waiting} (h : Sound c) (hguard : guard.call c i)
    (hcall : call c i = some t) : Keeps Sound Pending c t := by
  cases i with
  | restored session =>
    cases hcall
    refine publish_cached_keeps h fun hnone => hguard ?_
    rw [hnone]
    rfl
  | saved session =>
    cases hcall
    exact publish_cached_keeps h nofun
  | rotated accessToken refreshToken =>
    obtain ⟨s, hs, rfl⟩ := Option.map_eq_some_iff.mp hcall
    refine keeps_write h ?_ rfl rfl (fun a ha => .inl ha) (by simp)
    rw [Client.signedIn, Client.signedIn, hs]
    rfl
  | refreshed =>
    cases hcall
    exact publish_cached_keeps h .inl
  | logoutBegan =>
    cases hcall
    have hcurrent : ∀ a, c.Current a → ({ c with cached := none } : Client).Current a := by
      intro a ha
      refine .inr (ha.elim (fun hsigned => ?_) fun hfor => hfor)
      rcases hguard rfl with hnone | heq
      · rw [Client.signedIn, hnone] at hsigned
        cases hsigned
      · exact heq.trans hsigned
    refine ⟨⟨fun a ha => hcurrent a (h.isolated a ha), fun _ => rfl, .inl rfl⟩, fun w hw => ?_, by simp⟩
    cases w with
    | followsBuild build issuedFor => exact ⟨hw.1, fun heq a ha => hcurrent a (hw.2 heq a ha)⟩
    | _ => trivial
  | logoutReturned =>
    cases hcall
    exact publish_none_keeps h
  | loadNotifications | loadProfile | loadFollowing =>
    cases hcall
    refine keeps_write h rfl rfl rfl (fun a ha => .inl ha) fun w hw => ?_
    rw [List.mem_singleton.mp hw]
    trivial
  | loadMoreNotifications =>
    simp only [call] at hcall
    split at hcall
    · cases hcall
      exact keeps_write h rfl rfl rfl (fun a ha => .inl ha) (by simp)
    · cases hcall
      refine keeps_write h rfl rfl rfl (fun a ha => .inl ha) fun w hw => ?_
      rw [List.mem_singleton.mp hw]
      trivial
  | loadQuietDay =>
    simp only [call] at hcall
    split at hcall
    · cases hcall
      exact keeps_write h rfl rfl rfl (fun a ha => .inl ha) (by simp)
    · cases hcall
      refine keeps_write h rfl rfl rfl (fun a ha => .inl ?_) fun w hw => ?_
      · simp only [mem_accounts, mem_listed, mem_followed] at ha ⊢
        grind
      · rw [List.mem_singleton.mp hw]
        trivial
  | toggle catId =>
    cases hcall
    refine keeps_write h rfl rfl rfl (fun a ha => .inl ha) fun w hw => ?_
    rw [List.mem_singleton.mp hw]
    trivial

theorem resume_keeps {w : Waiting} {r : Reply} {t : Client × List Waiting} (h : Sound c)
    (hw : Pending c w) (hguard : guard.answer c w r) (hresume : resume c w r = some t) :
    Keeps Sound Pending c t := by
  unfold resume at hresume
  split at hresume
  case h_1 requestedFor items nextCursor =>
    cases hresume
    refine ifStill_keeps h rfl rfl rfl fun a ha => ?_
    rcases accounts_notifications ha with ha | ⟨o, ho, rfl⟩ | ⟨o, ho, rfl⟩
    · exact .inl ha
    · exact .inr (congrArg some (own_account ho).symm)
    · obtain ⟨_, -, rfl⟩ := Option.map_eq_some_iff.mp ho
      exact .inr rfl
  case h_2 requestedFor error =>
    cases hresume
    refine ifStill_keeps h rfl rfl rfl fun a ha => .inl ?_
    rcases accounts_notifications ha with ha | ha | ha
    · exact ha
    · exact mem_accounts.mpr (.inl (mem_listed.mpr (.inl ha)))
    · exact mem_accounts.mpr (.inl (mem_listed.mpr (.inr (.inl ha))))
  case h_3 issuedFor items nextCursor =>
    cases hresume
    refine keeps_write h rfl rfl rfl (fun a ha => ?_) (by simp)
    rcases accounts_notifications ha with ha | ⟨o, ho, rfl⟩ | ⟨o, ho, rfl⟩
    · exact .inl ha
    · rcases List.mem_append.mp ho with ho | ho
      · exact .inl (mem_accounts.mpr (.inl (mem_listed.mpr (.inl ⟨o, ho, rfl⟩))))
      · rw [own_account ho]
        exact .inr (hguard _ List.mem_cons_self)
    · obtain ⟨_, -, rfl⟩ := Option.map_eq_some_iff.mp ho
      exact .inr (hguard _ List.mem_cons_self)
  case h_4 issuedFor error =>
    cases hresume
    exact keeps_write h rfl rfl rfl (fun a ha => .inl ha) (by simp)
  case h_5 requestedFor profile =>
    cases hresume
    refine ifStill_keeps h rfl rfl rfl fun a ha => ?_
    rcases accounts_profile ha with ha | ⟨o, ho, rfl⟩
    · exact .inl ha
    · cases ho
      exact .inr rfl
  case h_6 requestedFor error =>
    cases hresume
    exact ifStill_keeps h rfl rfl rfl fun a ha => .inl ha
  case h_7 requestedFor cats =>
    cases hresume
    refine ifStill_keeps h rfl rfl rfl fun a ha => ?_
    rcases accounts_quietDay ha with ha | ⟨o, ho, rfl⟩
    · exact .inl ha
    · exact .inr (congrArg some (own_account ho).symm)
  case h_8 requestedFor error =>
    cases hresume
    refine ifStill_keeps h rfl rfl rfl fun a ha => .inl ?_
    rcases accounts_quietDay ha with ha | ⟨o, ho, rfl⟩
    · exact ha
    · cases ho
  case h_9 requestedFor cats =>
    cases hresume
    refine ifStill_keeps h rfl rfl rfl fun a ha => ?_
    rcases accounts_following ha with ha | ⟨o, ho, rfl⟩
    · exact .inl ha
    · exact .inr (congrArg some (own_account ho).symm)
  case h_10 requestedFor error =>
    cases hresume
    exact ifStill_keeps h rfl rfl rfl fun a ha => .inl ha
  case h_11 build issuedFor cats =>
    cases hresume
    split
    · rename_i heq
      refine keeps_write h rfl rfl rfl (fun a ha => ?_) (by simp)
      rcases accounts_follows ha with ha | ⟨o, ho, rfl⟩
      · exact .inl ha
      · rw [own_account ho]
        exact .inr (hw.2 heq _ rfl)
    · exact keeps_write h rfl rfl rfl (fun a ha => .inl ha) (by simp)
  case h_12 build | h_13 build issuedFor error =>
    cases hresume
    split
    · refine keeps_write h rfl rfl rfl (fun a ha => ?_) (by simp)
      rcases accounts_follows ha with ha | ⟨o, ho, rfl⟩
      · exact .inl ha
      · cases ho
    · exact keeps_write h rfl rfl rfl (fun a ha => .inl ha) (by simp)
  case h_14 issuedFor catId current =>
    cases hresume
    refine keeps_write h rfl rfl rfl (fun a ha => ?_) (by simp)
    rcases accounts_follows ha with ha | ⟨o, ho, rfl⟩
    · exact .inl ha
    · exact .inr (hguard _ (List.mem_map.mpr ⟨o, ho, rfl⟩))
  case h_15 =>
    cases hresume
    exact keeps_write h rfl rfl rfl (fun a ha => .inl ha) (by simp)
  case h_16 => cases hresume

end Invariant

def aylin : SessionIdentity := ⟨{ text := "a" }, "r", "aylin"⟩

def notification (id : String) : AppNotification := ⟨id, "cat", "update", false, 0⟩

end Tekir.ClientAccounts
