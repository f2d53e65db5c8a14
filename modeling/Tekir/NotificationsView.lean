import Tekir.EventLoop
import Tekir.HistoryPages
import Tekir.ClientAccounts

/-!
# The inbox on screen

`NotificationsNotifier` over the inboxes of the accounts, whose contents change between the
requests. A request is read by the server once, and answered later. `markRead` writes at an
index that it took before its request, and `loadMore` appends to whatever list is there.
-/
namespace Tekir.NotificationsView
open Machine EventLoop Keyset
open HistoryPages (newestPage defaultNotificationsLimit)
open ClientAccounts (AppNotification)
open SessionService (UserId)
open OrderDual (toDual ofDual)

variable {κ : Type} [LinearOrder κ]

structure NotificationsState (κ : Type) where
  items : List AppNotification := []
  /-- The position that the cursor stands for. -/
  nextCursor : Option κ := none
  isLoading : Bool := false
  isLoadingMore : Bool := false
  hasLoadedOnce : Bool := false
  error : Option String := none

structure Client (κ : Type) where
  view : NotificationsState κ := {}
  /-- `SessionIdentityService.cached?.userId` -/
  cached : Option UserId := none
  /-- The account id of `sessionProvider`; `none` while it is loading. -/
  shown : Option (Option UserId) := none
  inbox : UserId → List AppNotification := fun _ => []
  /-- Whose list is on screen, and what the server read for its pages. -/
  owner : Option UserId := none
  reads : List (Option UserId × List AppNotification) := []
  thrown : Bool := false
  /-- What was marked, and whose flag that changed. -/
  marked : List (String × String) := []

inductive Waiting (κ : Type)
  /-- What the server has read for the account. -/
  | first (requestedFor : Option UserId) (read : Option (List AppNotification))
  | more (issuedFor : Option UserId) (cursor : κ) (read : Option (List AppNotification))
  | mark (id : String) (index : ℕ)

inductive Call
  | load
  | loadMore
  | markRead (id : String)
  | session (next : Option (Option UserId))
  | signedIn (cached : Option UserId)
  /-- On the server: anything may arrive, go away or be read. -/
  | inbox (account : UserId) (rows : List AppNotification)

inductive Reply
  /-- The server reads a page. -/
  | read
  | done
  | failed (error : String)

def ids (items : List AppNotification) : List String :=
  items.map AppNotification.id

/-- The notification without its flag. -/
def face (n : AppNotification) : AppNotification :=
  { n with read := false }

/-- The notifications whose flag differs between two lists. -/
def flipped (before after : List AppNotification) : List String :=
  ((before.zip after).filter fun p => p.1.read != p.2.read).map fun p => p.1.id

namespace Client

def setView (c : Client κ) (view : NotificationsState κ) : Client κ :=
  { c with view }

end Client

section Positions

variable (position : String → κ)

def place (n : AppNotification) : κ :=
  position n.id

def fetch (rows : List AppNotification) (cursor : Option κ) : Page AppNotification κᵒᵈ :=
  newestPage (place position) rows cursor defaultNotificationsLimit

/-- `ref.listen` in `build`: another account id empties the list. -/
def listened (next : Option (Option UserId)) (c : Client κ) : Client κ :=
  match c.shown, next with
  | some previous, some next =>
    if previous ≠ next then { c with view := {}, owner := none, reads := [] } else c
  | _, _ => c

def call (c : Client κ) : Call → Option (Client κ × List (Waiting κ))
  | .load => some
      (c.setView { c.view with isLoading := true, error := none }, [.first c.cached none])
  | .loadMore => some <|
    match c.view.nextCursor with
    | none => (c, [])
    | some cursor =>
      if c.view.isLoadingMore then (c, [])
      else (c.setView { c.view with isLoadingMore := true }, [.more c.cached cursor none])
  | .markRead id => some <|
    match c.view.items.findIdx? fun n => n.id == id with
    | none => (c, [])
    | some index =>
      if (c.view.items[index]?).any AppNotification.read then (c, []) else (c, [.mark id index])
  | .session next => some ({ listened next c with shown := next }, [])
  | .signedIn cached => some ({ c with cached }, [])
  | .inbox account rows =>
    if rows.Pairwise fun a b => position a.id ≠ position b.id then
      some ({ c with inbox := Function.update c.inbox account rows }, [])
    else none

/-- The check after the await of `load`: another account's answer is dropped. -/
def ifStill (requestedFor : Option UserId) (c c' : Client κ) : Client κ × List (Waiting κ) :=
  if c.cached ≠ requestedFor then (c, []) else (c', [])

/-- `updated[index]` throws beyond the end of the list. -/
def markDone (c : Client κ) (id : String) (index : ℕ) : Client κ :=
  match c.view.items[index]? with
  | none => { c with thrown := true }
  | some n =>
    let items := c.view.items.set index { n with read := true }
    { c with
      view := { c.view with items }
      marked := c.marked ++ (flipped c.view.items items).map fun other => (id, other) }

/-- Without an account there is nothing to read. -/
def resume (c : Client κ) : Waiting κ → Reply → Option (Client κ × List (Waiting κ))
  | .first (some a) none, .read => some (c, [.first (some a) (some (c.inbox a))])
  | .first requestedFor (some rows), .done =>
    let page := fetch position rows none
    some (ifStill requestedFor c { c with
      view := { items := page.items, nextCursor := page.next.map ofDual, hasLoadedOnce := true }
      owner := requestedFor, reads := [(requestedFor, rows)] })
  | .first requestedFor _, .failed error => some (ifStill requestedFor c
      (c.setView { c.view with isLoading := false, hasLoadedOnce := true, error := some error }))
  | .more (some a) cursor none, .read => some (c, [.more (some a) cursor (some (c.inbox a))])
  | .more issuedFor cursor (some rows), .done =>
    let page := fetch position rows (some cursor)
    some ({ c with
      view := { c.view with
        items := c.view.items ++ page.items, nextCursor := page.next.map ofDual
        isLoadingMore := false }
      reads := c.reads ++ [(issuedFor, rows)] }, [])
  | .more _ _ _, .failed _ => some (c.setView { c.view with isLoadingMore := false }, [])
  | .mark id index, .done => some (markDone c id index, [])
  | .mark _ _, .failed _ => some (c, [])
  | _, _ => none

def handlers : Handlers (Client κ) (Waiting κ) Call Reply where
  call := call position
  resume := resume position

def start (inbox : UserId → List AppNotification) : Loop (Client κ) (Waiting κ) :=
  ⟨{ inbox }, []⟩

/-- The list holds the pages of the server's reads, one after the other up to the cursor. -/
def Unbroken (c : Client κ) : Prop :=
  match c.reads with
  | [] => c.view.items = [] ∧ c.view.nextCursor = none
  | reads => ∃ pages, Walk (fun n => toDual (place position n)) none
      (reads.map fun read => (read.2, defaultNotificationsLimit)) pages ∧
    c.view.items.map face = (Page.all pages).map face ∧
    c.view.nextCursor = ((pages.getLast?).bind Page.next).map ofDual

/-- No call has thrown, the list is the server's, and what was marked is all that was flipped. -/
structure Consistent (c : Client κ) : Prop where
  calm : c.thrown = false
  nodup : (ids c.view.items).Nodup
  descending : c.view.items.Pairwise fun a b => position b.id < position a.id
  unbroken : Unbroken position c
  single : ∀ read ∈ c.reads, read.1 = c.owner
  own : ∀ m ∈ c.marked, m.2 = m.1

omit [LinearOrder κ] in
/-- A notification that the server has marked, and its index. -/
def marking : Waiting κ → Reply → Option (String × ℕ)
  | .mark id index, .done => some (id, index)
  | _, _ => none

omit [LinearOrder κ] in
/-- A further page that is answered: for whom, and its cursor. -/
def further : Waiting κ → Reply → Option (Option UserId × κ)
  | .more issuedFor cursor (some _), .done => some (issuedFor, cursor)
  | _, _ => none

/-- A marked notification is still at its index, or another one there is read already. A further
page continues the list that is on screen. -/
def guard : Guard (Client κ) (Waiting κ) Call Reply where
  answer c w r :=
    (∀ p ∈ marking w r, (c.view.items[p.2]?).any (fun n => n.id == p.1 || n.read) = true) ∧
    ∀ p ∈ further w r, c.view.nextCursor = some p.2 ∧ c.owner = p.1

instance (c : Client κ) (i : Call) : Decidable (Guard.call guard c i) :=
  inferInstanceAs (Decidable True)

instance (c : Client κ) (w : Waiting κ) (r : Reply) : Decidable (Guard.answer guard c w r) :=
  inferInstanceAs (Decidable ((∀ p ∈ marking w r, _) ∧ ∀ p ∈ further w r, _))

variable {position}

section Flags

variable {before after : List AppNotification} {index : ℕ} {n : AppNotification}

theorem mem_flipped {other : String} (h : other ∈ flipped before after) :
    ∃ (k : ℕ) (a b : AppNotification), before[k]? = some a ∧ after[k]? = some b ∧
      a.read ≠ b.read ∧ a.id = other := by
  obtain ⟨⟨a, b⟩, hp, rfl⟩ := List.mem_map.mp h
  obtain ⟨hp, hne⟩ := List.mem_filter.mp hp
  obtain ⟨k, hk⟩ := List.mem_iff_getElem?.mp hp
  obtain ⟨ha, hb⟩ := List.getElem?_zip_eq_some.mp hk
  exact ⟨k, a, b, ha, hb, by simpa using hne, rfl⟩

/-- Setting one flag changes at most that one, and none that is set already. -/
theorem mem_flipped_set {other : String} (hn : before[index]? = some n)
    (h : other ∈ flipped before (before.set index { n with read := true })) :
    n.read = false ∧ n.id = other := by
  obtain ⟨k, a, b, ha, hb, hne, hid⟩ := mem_flipped h
  by_cases hk : index = k
  · subst hk
    obtain rfl : n = a := Option.some.inj (hn.symm.trans ha)
    obtain ⟨hlt, -⟩ := List.getElem?_eq_some_iff.mp ha
    rw [List.getElem?_set_self hlt] at hb
    cases hb
    exact ⟨by simpa using hne, hid⟩
  · rw [List.getElem?_set_ne hk, ha] at hb
    cases hb
    exact absurd rfl hne

/-- A flag shows in no face. -/
theorem faces_set (hn : before[index]? = some n) :
    (before.set index { n with read := true }).map face = before.map face := by
  rw [List.map_set]
  apply List.ext_getElem?
  intro k
  by_cases hk : index = k
  · subst hk
    obtain ⟨hlt, -⟩ := List.getElem?_eq_some_iff.mp hn
    rw [List.getElem?_set_self (by simpa using hlt), List.getElem?_map, hn]
    rfl
  · rw [List.getElem?_set_ne hk]

theorem ids_faces {items items' : List AppNotification} (h : items.map face = items'.map face) :
    ids items = ids items' := by
  have hids : ∀ items : List AppNotification, (items.map face).map AppNotification.id = ids items := by
    intro items
    rw [List.map_map]
    rfl
  rw [← hids items, h, hids items']

end Flags

section Invariant

variable {c : Client κ} {w : Waiting κ} {r : Reply} {i : Call} {t : Client κ × List (Waiting κ)}

/-- What is consistent, and what the server reads has one place for each notification. -/
structure Sound (position : String → κ) (c : Client κ) : Prop where
  calm : c.thrown = false
  unbroken : Unbroken position c
  single : ∀ read ∈ c.reads, read.1 = c.owner
  own : ∀ m ∈ c.marked, m.2 = m.1
  inbox : ∀ a, Keyed (place position) (c.inbox a)
  reads : ∀ read ∈ c.reads, Keyed (place position) read.2

def Pending (position : String → κ) (_ : Client κ) : Waiting κ → Prop
  | .first _ (some rows) | .more _ _ (some rows) => Keyed (place position) rows
  | _ => True

omit [LinearOrder κ] in
theorem keyed_dual {rows : List AppNotification} (h : Keyed (place position) rows) :
    Keyed (fun n => toDual (place position n)) rows :=
  h.imp fun hne heq => hne (toDual.injective heq)

/-- A list that is unbroken descends, so it holds nothing twice. -/
theorem Sound.consistent (h : Sound position c) : Consistent position c := by
  have hdescending : (ids c.view.items).Pairwise fun a b => position b < position a := by
    have hunbroken := h.unbroken
    unfold Unbroken at hunbroken
    split at hunbroken
    · rw [hunbroken.1]
      exact .nil
    · obtain ⟨pages, hwalk, hfaces, -⟩ := hunbroken
      have hkeyed : ∀ q ∈ c.reads.map fun read => (read.2, defaultNotificationsLimit),
          Keyed (fun n => toDual (place position n)) q.1 := by
        intro q hq
        obtain ⟨read, hread, rfl⟩ := List.mem_map.mp hq
        exact keyed_dual (h.reads read hread)
      rw [ids_faces hfaces]
      apply List.pairwise_map.mpr
      exact (hwalk.increasing hkeyed).1.imp fun hlt => OrderDual.toDual_lt_toDual.mp hlt
  have hnodup : (ids c.view.items).Nodup :=
    hdescending.imp fun hlt heq => ne_of_gt hlt (congrArg position heq)
  exact ⟨h.calm, hnodup, List.pairwise_map.mp hdescending, h.unbroken, h.single, h.own⟩

/-- A turn that leaves the list, its cursor and its reads. -/
theorem keeps_flags {view : NotificationsState κ} {ws : List (Waiting κ)} (h : Sound position c)
    (hitems : view.items = c.view.items) (hcursor : view.nextCursor = c.view.nextCursor)
    (hnew : ∀ w ∈ ws, Pending position c w) :
    Keeps (Sound position) (Pending position) c (c.setView view, ws) := by
  have hunbroken : Unbroken position (c.setView view) := by
    have hunbroken := h.unbroken
    unfold Unbroken at hunbroken ⊢
    dsimp only [Client.setView]
    rw [hitems, hcursor]
    exact hunbroken
  exact ⟨⟨h.calm, hunbroken, h.single, h.own, h.inbox, h.reads⟩, fun w hw => hw, hnew⟩

theorem keeps_same {ws : List (Waiting κ)} (h : Sound position c)
    (hnew : ∀ w ∈ ws, Pending position c w) :
    Keeps (Sound position) (Pending position) c (c, ws) :=
  @keeps_flags _ _ _ c c.view _ h rfl rfl hnew

theorem sound_reset (h : Sound position c) :
    Sound position { c with view := {}, owner := none, reads := [] } :=
  ⟨h.calm, ⟨rfl, rfl⟩, nofun, h.own, h.inbox, nofun⟩

theorem sound_listened (h : Sound position c) (next : Option (Option UserId)) :
    Sound position (listened next c) := by
  unfold listened
  split
  · split
    · exact sound_reset h
    · exact h
  · exact h

theorem call_keeps (h : Sound position c) (hcall : call position c i = some t) :
    Keeps (Sound position) (Pending position) c t := by
  cases i with
  | load =>
    cases hcall
    refine keeps_flags h rfl rfl fun w hw => ?_
    rw [List.mem_singleton.mp hw]
    trivial
  | loadMore =>
    simp only [call] at hcall
    split at hcall
    · cases hcall
      exact keeps_same h nofun
    · split at hcall
      · cases hcall
        exact keeps_same h nofun
      · cases hcall
        refine keeps_flags h rfl rfl fun w hw => ?_
        rw [List.mem_singleton.mp hw]
        trivial
  | markRead id =>
    simp only [call] at hcall
    split at hcall
    · cases hcall
      exact keeps_same h nofun
    · split at hcall
      · cases hcall
        exact keeps_same h nofun
      · cases hcall
        refine keeps_same h fun w hw => ?_
        rw [List.mem_singleton.mp hw]
        trivial
  | session next =>
    cases hcall
    have hlistened := sound_listened h next
    exact ⟨⟨hlistened.calm, hlistened.unbroken, hlistened.single, hlistened.own, hlistened.inbox,
      hlistened.reads⟩, fun w hw => hw, nofun⟩
  | signedIn cached =>
    cases hcall
    exact ⟨⟨h.calm, h.unbroken, h.single, h.own, h.inbox, h.reads⟩, fun w hw => hw, nofun⟩
  | inbox account rows =>
    simp only [call] at hcall
    split at hcall
    · rename_i hrows
      cases hcall
      refine ⟨⟨h.calm, h.unbroken, h.single, h.own, fun a => ?_, h.reads⟩, fun w hw => hw, nofun⟩
      dsimp only
      by_cases ha : a = account
      · subst ha
        rw [Function.update_self]
        exact hrows
      · rw [Function.update_of_ne ha]
        exact h.inbox a
    · cases hcall

/-- An answer to `load` that is not dropped. -/
theorem keeps_ifStill {requestedFor : Option UserId} {c' : Client κ} (h : Sound position c)
    (h' : Sound position c') :
    Keeps (Sound position) (Pending position) c (ifStill requestedFor c c') := by
  unfold ifStill
  split
  · exact keeps_same h nofun
  · exact ⟨h', fun w hw => hw, nofun⟩

/-- The flag of the marked notification, or none, is set. -/
theorem keeps_mark {id : String} {index : ℕ} (h : Sound position c)
    (hthere : (c.view.items[index]?).any (fun n => n.id == id || n.read) = true) :
    Sound position (markDone c id index) := by
  obtain ⟨n, hn, hsame⟩ := (Option.any_eq_true _ _).mp hthere
  rw [Bool.or_eq_true, beq_iff_eq] at hsame
  have hunbroken := h.unbroken
  unfold markDone
  rw [hn]
  refine ⟨h.calm, ?_, h.single, fun m hm => ?_, h.inbox, h.reads⟩
  · unfold Unbroken at hunbroken ⊢
    split at hunbroken
    · rw [hunbroken.1] at hn
      cases hn
    · dsimp only
      rw [faces_set hn]
      exact hunbroken
  · rcases List.mem_append.mp hm with hm | hm
    · exact h.own m hm
    · obtain ⟨other, hother, rfl⟩ := List.mem_map.mp hm
      obtain ⟨hunread, hid⟩ := mem_flipped_set hn hother
      rcases hsame with hsame | hread
      · exact hid.symm.trans hsame
      · rw [hunread] at hread
        cases hread

/-- A page that continues the list. -/
theorem unbroken_append {issuedFor : Option UserId} {cursor : κ} {rows : List AppNotification}
    (h : Unbroken position c)
    (hcursor : c.view.nextCursor = some cursor) :
    Unbroken position { c with
      view := { c.view with
        items := c.view.items ++ (fetch position rows (some cursor)).items
        nextCursor := (fetch position rows (some cursor)).next.map ofDual, isLoadingMore := false }
      reads := c.reads ++ [(issuedFor, rows)] } := by
  unfold Unbroken at h ⊢
  split at h
  · rw [h.2] at hcursor
    cases hcursor
  · rename_i reads hreads
    obtain ⟨pages, hwalk, hfaces, hnext⟩ := h
    have hlast : (pages.getLast?).bind Page.next = some (toDual cursor) := by
      rw [hcursor] at hnext
      obtain ⟨k, hk, hkc⟩ := Option.map_eq_some_iff.mp hnext.symm
      rw [hk, ← hkc]
      rfl
    have hsnoc := hwalk.snoc rows defaultNotificationsLimit hlast
    have hshown : ∃ pages, Walk (fun n => toDual (place position n)) none
        ((c.reads ++ [(issuedFor, rows)]).map fun read => (read.2, defaultNotificationsLimit))
          pages ∧
        (c.view.items ++ (fetch position rows (some cursor)).items).map face =
          (Page.all pages).map face ∧
        (fetch position rows (some cursor)).next.map ofDual =
          ((pages.getLast?).bind Page.next).map ofDual := by
      refine ⟨_, by simpa using hsnoc, ?_, ?_⟩
      · rw [Page.all, List.flatMap_append, List.map_append, List.map_append, hfaces, Page.all]
        simp [fetch, newestPage]
      · simp [fetch, newestPage]
    cases hall : c.reads ++ [(issuedFor, rows)] with
    | nil => simp at hall
    | cons first rest =>
      rw [hall] at hshown
      exact hshown

theorem resume_keeps (h : Sound position c) (hw : Pending position c w)
    (hguard : Guard.answer guard c w r) (hresume : resume position c w r = some t) :
    Keeps (Sound position) (Pending position) c t := by
  obtain ⟨hmarking, hfurther⟩ := hguard
  unfold resume at hresume
  split at hresume
  case h_1 a =>
    cases hresume
    refine keeps_same h fun w hw => ?_
    rw [List.mem_singleton.mp hw]
    exact h.inbox a
  case h_2 requestedFor rows =>
    cases hresume
    refine keeps_ifStill h ⟨h.calm, ⟨_, .one none rows defaultNotificationsLimit, ?_, ?_⟩,
      fun read hread => ?_, h.own, h.inbox, fun read hread => ?_⟩
    · simp [Page.all, fetch, newestPage]
    · simp [fetch, newestPage]
    · rw [List.mem_singleton.mp hread]
    · rw [List.mem_singleton.mp hread]
      exact hw
  case h_3 error =>
    cases hresume
    have hfailed : Keeps (Sound position) (Pending position) c (c.setView { c.view with
        isLoading := false, hasLoadedOnce := true, error := some error }, []) :=
      keeps_flags h rfl rfl (List.forall_mem_nil _)
    exact keeps_ifStill h hfailed.state
  case h_4 a cursor =>
    cases hresume
    refine keeps_same h fun w hw => ?_
    rw [List.mem_singleton.mp hw]
    exact h.inbox a
  case h_5 issuedFor cursor rows =>
    cases hresume
    obtain ⟨hcursor, howner⟩ := hfurther (issuedFor, cursor) rfl
    refine ⟨⟨h.calm, unbroken_append h.unbroken hcursor, fun read hread => ?_, h.own, h.inbox,
      fun read hread => ?_⟩, fun w hw => hw, List.forall_mem_nil _⟩
    · rcases List.mem_append.mp hread with hread | hread
      · exact h.single read hread
      · rw [List.mem_singleton.mp hread]
        exact howner.symm
    · rcases List.mem_append.mp hread with hread | hread
      · exact h.reads read hread
      · rw [List.mem_singleton.mp hread]
        exact hw
  case h_6 =>
    cases hresume
    exact keeps_flags h rfl rfl (List.forall_mem_nil _)
  case h_7 id index =>
    cases hresume
    exact ⟨keeps_mark h (hmarking (id, index) rfl), fun w hw => hw, List.forall_mem_nil _⟩
  case h_8 =>
    cases hresume
    exact keeps_same h (List.forall_mem_nil _)
  case h_9 => cases hresume

end Invariant

/-- In every run of turns that the guard admits, the inbox on screen is consistent throughout. -/
theorem inbox_consistent {inbox : UserId → List AppNotification} {es : List (Event Call Reply)}
    (hinbox : ∀ a, (inbox a).Pairwise fun m n => position m.id ≠ position n.id)
    (h : Each (handlers position).next guard.Admits (start inbox) es) :
    Always (handlers position).next (fun l => Consistent position l.state) (start inbox) es := by
  refine (Held.always (fun _ _ _ hs _ => call_keeps hs) (fun _ _ _ _ => resume_keeps) ?_ h).mono
    fun l hl => hl.state.consistent
  exact ⟨⟨rfl, ⟨rfl, rfl⟩, nofun, nofun, hinbox, nofun⟩, nofun⟩

end Positions

def notification (id : String) : AppNotification := ⟨id, "cat", "update", false, 0⟩

def seat (id : String) : ℕ :=
  id.length

/-- Twenty-one notifications, one more than a page holds. -/
def many : List AppNotification :=
  (List.range 21).map fun k => notification (String.ofList (List.replicate (k + 1) 'n'))

def inboxes (account : UserId) : List AppNotification :=
  if account = "mine" then many else []

theorem inboxes_keyed (account : UserId) :
    (inboxes account).Pairwise fun m n => seat m.id ≠ seat n.id := by
  unfold inboxes
  split
  · decide
  · exact List.Pairwise.nil

/-- The inbox is loaded to its end, and a notification is marked while the first is still unread. -/
theorem consistent_to_the_end : Always (handlers seat).next (fun l => Consistent seat l.state)
    (start inboxes)
    [.call (.signedIn (some "mine")), .call .load, .answer 0 .read, .answer 0 .done,
      .call .loadMore, .call (.markRead "nn"), .answer 0 .read, .answer 1 .done, .answer 0 .done] :=
  inbox_consistent inboxes_keyed (by decide)

/-- Another account signs in before a notification is marked: its index is beyond the list. -/
theorem mark_after_reset : ¬ Always (handlers seat).next (fun l => Consistent seat l.state)
    (start inboxes)
    [.call (.signedIn (some "mine")), .call (.session (some (some "mine"))), .call .load,
      .answer 0 .read, .answer 0 .done, .call (.markRead "nn"),
      .call (.session (some (some "theirs"))), .answer 0 .done] := by
  intro h
  have hcalm := h.mono fun l hl => hl.calm
  revert hcalm
  exact not_always_of_test (by decide)

end Tekir.NotificationsView
