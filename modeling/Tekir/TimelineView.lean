import Tekir.EventLoop
import Tekir.HistoryPages

/-!
# The timeline of a cat on screen

`CatDetailNotifier` over the server's timeline of one cat. An update has its place in the
timeline from its creation on; what is live changes between the requests. A request is read by the
server once, and answered later.
-/
namespace Tekir.TimelineView
open Machine EventLoop Keyset
open HistoryPages (newestPage)
open OrderDual (toDual ofDual)

structure CatUpdateEntry where
  id : String
  comment : Option String := none
  createdAt : ℤ := 0
  needsHelp : Bool := false
  needsHelpExpiresAt : Option ℤ := none
  deriving DecidableEq

structure ActiveAlert where
  comment : Option String
  createdAt : ℤ
  expiresAt : ℤ
  deriving DecidableEq

structure CatDetail where
  lastUpdateAt : ℤ := 0
  activeAlert : Option ActiveAlert := none
  deriving DecidableEq

variable {κ : Type} [LinearOrder κ]

structure CatDetailState (κ : Type) where
  detail : Option CatDetail := none
  updates : List CatUpdateEntry := []
  /-- The position that the cursor stands for. -/
  nextCursor : Option κ := none
  isLoading : Bool := false
  isLoadingMore : Bool := false
  hasLoadedOnce : Bool := false
  notFound : Bool := false
  error : Option String := none

structure Client (κ : Type) where
  view : CatDetailState κ := {}
  /-- The cat's live updates on the server, and the ids of all it has ever had. -/
  live : List CatUpdateEntry
  issued : List String
  /-- What was live when the first page on screen was read. -/
  firstRead : List CatUpdateEntry := []
  removed : List String := []

inductive Waiting (κ : Type)
  | detail
  /-- The first page, and what was live when the server read it. -/
  | firstPage (detail : CatDetail) (read : Option (List CatUpdateEntry))
  | morePage (cursor : κ) (read : Option (List CatUpdateEntry))

inductive Call
  | load
  | loadMoreUpdates
  | prependUpdate (entry : CatUpdateEntry)
  | replaceUpdate (entry : CatUpdateEntry)
  | removeUpdate (updateId : String)
  /-- On the server, by anyone. -/
  | created (entry : CatUpdateEntry)
  | corrected (entry : CatUpdateEntry)
  | deleted (updateId : String)

inductive Reply
  | detail (detail : CatDetail)
  | notFound
  | failed (error : String)
  /-- The server reads a page. -/
  | read
  | done

def ids (entries : List CatUpdateEntry) : List String :=
  entries.map CatUpdateEntry.id

def defaultUpdatesLimit : ℕ := 20

/-- The detail that a created entry leaves; one that asks for help is the cat's newest alert. -/
def CatDetail.withNewest (detail : CatDetail) (entry : CatUpdateEntry) : CatDetail where
  lastUpdateAt := entry.createdAt
  activeAlert :=
    match entry.needsHelp, entry.needsHelpExpiresAt with
    | true, some expiresAt => some ⟨entry.comment, entry.createdAt, expiresAt⟩
    | _, _ => detail.activeAlert

/-- Replaces the first entry with the id. -/
def replaceUpdate (entry : CatUpdateEntry) : List CatUpdateEntry → List CatUpdateEntry
  | [] => []
  | u :: updates => if u.id = entry.id then entry :: updates else u :: replaceUpdate entry updates

section Positions

variable (position : String → κ)

def place (entry : CatUpdateEntry) : κ :=
  position entry.id

def fetchUpdates (live : List CatUpdateEntry) (cursor : Option κ) : Page CatUpdateEntry κᵒᵈ :=
  newestPage (place position) live cursor defaultUpdatesLimit

namespace Client

def setView (c : Client κ) (view : CatDetailState κ) : Client κ :=
  { c with view }

end Client

/-- The server says of an entry that it exists, and of one that is removed that it does not. -/
def call (c : Client κ) : Call → Option (Client κ × List (Waiting κ))
  | .load => some
      (c.setView { c.view with isLoading := true, error := none, notFound := false }, [.detail])
  | .loadMoreUpdates => some <|
    match c.view.nextCursor with
    | none => (c, [])
    | some cursor =>
      if c.view.isLoadingMore then (c, [])
      else (c.setView { c.view with isLoadingMore := true }, [.morePage cursor none])
  | .prependUpdate entry =>
    if entry.id ∉ c.issued then none
    else some <|
      match c.view.detail with
      | none => (c, [])
      | some detail =>
        if entry.id ∈ ids c.view.updates then (c, [])
        else (c.setView { c.view with
          updates := entry :: c.view.updates, detail := some (detail.withNewest entry) }, [])
  | .replaceUpdate entry =>
    some (c.setView { c.view with updates := TimelineView.replaceUpdate entry c.view.updates }, [])
  | .removeUpdate updateId =>
    if updateId ∈ ids c.live then none
    else some ({ c with
      removed := updateId :: c.removed
      view := { c.view with updates := c.view.updates.filter fun u => u.id != updateId } }, [])
  | .created entry =>
    if c.issued.any fun id => id == entry.id || position id == position entry.id then none
    else some ({ c with live := entry :: c.live, issued := entry.id :: c.issued }, [])
  | .corrected entry => some ({ c with live := TimelineView.replaceUpdate entry c.live }, [])
  | .deleted updateId => some ({ c with live := c.live.filter fun u => u.id != updateId }, [])

def resume (c : Client κ) : Waiting κ → Reply → Option (Client κ × List (Waiting κ))
  | .detail, .detail detail => some (c, [.firstPage detail none])
  | .detail, .notFound => some
      (c.setView { c.view with isLoading := false, hasLoadedOnce := true, notFound := true }, [])
  | .detail, .failed error | .firstPage _ _, .failed error => some
      (c.setView { c.view with isLoading := false, hasLoadedOnce := true, error := some error }, [])
  | .firstPage detail none, .read => some (c, [.firstPage detail (some c.live)])
  | .firstPage detail (some live), .done =>
    let page := fetchUpdates position live none
    some ({ c with
      firstRead := live
      view := { detail := some detail, updates := page.items, nextCursor := page.next.map ofDual
                hasLoadedOnce := true } }, [])
  | .morePage cursor none, .read => some (c, [.morePage cursor (some c.live)])
  | .morePage cursor (some live), .done =>
    let page := fetchUpdates position live (some cursor)
    some (c.setView { c.view with
      updates := c.view.updates ++ page.items, nextCursor := page.next.map ofDual
      isLoadingMore := false }, [])
  | .morePage _ _, .failed _ => some (c.setView { c.view with isLoadingMore := false }, [])
  | _, _ => none

def handlers : Handlers (Client κ) (Waiting κ) Call Reply where
  call := call position
  resume := resume position

def start (live : List CatUpdateEntry) : Loop (Client κ) (Waiting κ) :=
  ⟨{ live, issued := ids live }, []⟩

/-- The timeline on screen. The last part says that it has no gap. -/
structure Consistent (c : Client κ) : Prop where
  nodup : (ids c.view.updates).Nodup
  descending : c.view.updates.Pairwise fun a b => position b.id < position a.id
  removed : ∀ u ∈ c.view.updates, u.id ∉ c.removed
  complete : ∀ u ∈ c.firstRead, u.id ∈ ids c.live →
    (∀ k ∈ c.view.nextCursor, k ≤ position u.id) → u.id ∈ ids c.view.updates

instance : DecidablePred (Consistent position) := fun c =>
  decidable_of_iff ((ids c.view.updates).Nodup ∧
    (c.view.updates.Pairwise fun a b => position b.id < position a.id) ∧
    (∀ u ∈ c.view.updates, u.id ∉ c.removed) ∧
    ∀ u ∈ c.firstRead, u.id ∈ ids c.live →
      (∀ k ∈ c.view.nextCursor, k ≤ position u.id) → u.id ∈ ids c.view.updates)
  ⟨fun ⟨h₁, h₂, h₃, h₄⟩ => ⟨h₁, h₂, h₃, h₄⟩, fun h => ⟨h.nodup, h.descending, h.removed, h.complete⟩⟩

/-- Nothing on screen, or left to load, is as new as the position. -/
def Newest (c : Client κ) (k : κ) : Prop :=
  ∀ k' ∈ c.view.updates.map (place position) ++ c.view.nextCursor.toList, k' < k

instance (c : Client κ) (k : κ) : Decidable (Newest position c k) :=
  inferInstanceAs (Decidable (∀ k' ∈ _, k' < k))

/-- The entry that a call puts on screen. -/
def prepended (c : Client κ) : Call → Option CatUpdateEntry
  | .prependUpdate entry =>
    if c.view.detail.isNone || (ids c.view.updates).contains entry.id then none else some entry
  | _ => none

/-- The entries that an answer puts on screen. -/
def brought : Waiting κ → Reply → List CatUpdateEntry
  | .firstPage _ (some live), .done => (fetchUpdates position live none).items
  | .morePage cursor (some live), .done => (fetchUpdates position live (some cursor)).items
  | _, _ => []

/-- A further page that is answered: its cursor and what was live. -/
def further : Waiting κ → Reply → Option (κ × List CatUpdateEntry)
  | .morePage cursor (some live), .done => some (cursor, live)
  | _, _ => none

/-- Nothing comes back on screen that was removed. What is put at the front is the newest. A
further page continues what is on screen, and holds all that the first page left out. -/
def guard : Guard (Client κ) (Waiting κ) Call Reply where
  call c i := ∀ u ∈ prepended c i, u.id ∉ c.removed ∧ Newest position c (place position u)
  answer c w r := (∀ u ∈ brought position w r, u.id ∉ c.removed) ∧
    ∀ p ∈ further w r, c.view.nextCursor = some p.1 ∧
      ∀ u ∈ c.firstRead, u.id ∈ ids c.live → place position u < p.1 → u.id ∈ ids p.2

instance (c : Client κ) (i : Call) : Decidable ((guard position).call c i) :=
  inferInstanceAs (Decidable (∀ u ∈ prepended c i, _))

instance (c : Client κ) (w : Waiting κ) (r : Reply) : Decidable ((guard position).answer c w r) :=
  inferInstanceAs (Decidable (_ ∧ ∀ p ∈ further w r, _))

variable {position}

section Pages

variable {live : List CatUpdateEntry} {cursor : Option κ} {u : CatUpdateEntry}

omit [LinearOrder κ] in
theorem keyed_dual (h : Keyed (place position) live) :
    Keyed (fun u => toDual (place position u)) live :=
  h.imp fun hne heq => hne (toDual.injective heq)

theorem fetch_descending (h : Keyed (place position) live) (cursor : Option κ) :
    (fetchUpdates position live cursor).items.Pairwise fun a b => position b.id < position a.id :=
  items_increasing (cursor.map toDual) defaultUpdatesLimit (keyed_dual h)

theorem mem_fetch (h : Keyed (place position) live)
    (hu : u ∈ (fetchUpdates position live cursor).items) :
    u ∈ live ∧ ∀ k ∈ cursor, position u.id < k := by
  obtain ⟨hlive, hafter⟩ := mem_items (keyed_dual h) hu
  refine ⟨hlive, fun k hk => ?_⟩
  rw [Option.mem_def.mp hk] at hafter
  exact of_decide_eq_true hafter

theorem next_le_fetch (h : Keyed (place position) live) {k : κ}
    (hk : k ∈ (fetchUpdates position live cursor).next.map ofDual)
    (hu : u ∈ (fetchUpdates position live cursor).items) : k ≤ position u.id := by
  obtain ⟨k', hk', rfl⟩ := Option.map_eq_some_iff.mp hk
  exact items_le_next (keyed_dual h) hk' hu

theorem next_before (h : Keyed (place position) live) {k k' : κ}
    (hk : k ∈ (fetchUpdates position live (some k')).next.map ofDual) : k < k' := by
  obtain ⟨last, hnext, rfl⟩ := Option.map_eq_some_iff.mp hk
  obtain ⟨u, hu, rfl⟩ := next_eq_last hnext
  exact (mem_fetch h (List.mem_of_getLast? hu)).2 k' rfl

/-- A page holds all between its cursor and the next. -/
theorem fetch_complete (h : Keyed (place position) live) (hu : u ∈ live)
    (hbefore : ∀ k ∈ cursor, position u.id < k)
    (hnext : ∀ k ∈ (fetchUpdates position live cursor).next.map ofDual, k ≤ position u.id) :
    u ∈ (fetchUpdates position live cursor).items := by
  have hafter : isAfter (fun u => toDual (place position u)) (cursor.map toDual) u = true := by
    cases cursor with
    | none => rfl
    | some k => exact decide_eq_true (hbefore k rfl)
  cases hlast : (fetchUpdates position live cursor).next with
  | none =>
    exact (next_eq_none_iff (keyed_dual h) (by decide)).mp hlast u hu hafter
  | some k =>
    have hmem : u ∈ ordered (fun u => toDual (place position u)) (live.filter
        (isAfter (fun u => toDual (place position u)) (cursor.map toDual))) :=
      mem_ordered.mpr (List.mem_filter.mpr ⟨hu, hafter⟩)
    have hrest : ordered (fun u => toDual (place position u)) (live.filter
          (isAfter (fun u => toDual (place position u)) (cursor.map toDual))) =
        (fetchUpdates position live cursor).items ++ ordered (fun u => toDual (place position u))
          (live.filter (isAfter (fun u => toDual (place position u)) (some k))) :=
      rest_of_next (keyed_dual h) hlast
    rw [hrest] at hmem
    rcases List.mem_append.mp hmem with hmem | hmem
    · exact hmem
    · -- beyond the next cursor
      have hbeyond : position u.id < ofDual k :=
        of_decide_eq_true (List.mem_filter.mp (mem_ordered.mp hmem)).2
      exact absurd (hnext (ofDual k) (by rw [hlast]; rfl)) (not_le_of_gt hbeyond)

end Pages

section Invariant

variable {c : Client κ} {w : Waiting κ} {r : Reply} {i : Call} {t : Client κ × List (Waiting κ)}

structure Sound (position : String → κ) (c : Client κ) : Prop extends Consistent position c where
  below : ∀ k ∈ c.view.nextCursor, ∀ u ∈ c.view.updates, k ≤ position u.id
  keyed : Keyed (place position) c.live
  known : ∀ u ∈ c.live, u.id ∈ c.issued
  read : ∀ u ∈ c.firstRead, u.id ∈ c.issued

/-- What the server has read was its timeline once. -/
def Pending (position : String → κ) (c : Client κ) : Waiting κ → Prop
  | .firstPage _ (some live) | .morePage _ (some live) =>
    Keyed (place position) live ∧ ∀ u ∈ live, u.id ∈ c.issued
  | _ => True

theorem nodup_of_descending {updates : List CatUpdateEntry}
    (h : updates.Pairwise fun a b => position b.id < position a.id) : (ids updates).Nodup := by
  refine List.pairwise_map.mpr (h.imp fun hlt heq => ?_)
  exact absurd (congrArg position heq) (ne_of_gt hlt)

theorem keeps_view {view : CatDetailState κ} {ws : List (Waiting κ)} (h : Sound position c)
    (hdescending : view.updates.Pairwise fun a b => position b.id < position a.id)
    (hremoved : ∀ u ∈ view.updates, u.id ∉ c.removed)
    (hcomplete : ∀ u ∈ c.firstRead, u.id ∈ ids c.live →
      (∀ k ∈ view.nextCursor, k ≤ position u.id) → u.id ∈ ids view.updates)
    (hbelow : ∀ k ∈ view.nextCursor, ∀ u ∈ view.updates, k ≤ position u.id)
    (hnew : ∀ w ∈ ws, Pending position c w) :
    Keeps (Sound position) (Pending position) c (c.setView view, ws) := by
  refine ⟨⟨⟨nodup_of_descending hdescending, hdescending, hremoved, hcomplete⟩, hbelow, h.keyed,
    h.known, h.read⟩, fun w hw => ?_, fun w hw => ?_⟩
  · exact hw
  · exact hnew w hw

/-- A write that leaves the list and its cursor. -/
theorem keeps_flags {view : CatDetailState κ} {ws : List (Waiting κ)} (h : Sound position c)
    (hupdates : view.updates = c.view.updates) (hcursor : view.nextCursor = c.view.nextCursor)
    (hnew : ∀ w ∈ ws, Pending position c w) :
    Keeps (Sound position) (Pending position) c (c.setView view, ws) := by
  refine keeps_view h ?_ ?_ ?_ ?_ hnew <;> rw [hupdates]
  · exact h.descending
  · exact h.removed
  · rw [hcursor]
    exact h.complete
  · rw [hcursor]
    exact h.below

/-- What is live on the server changes, and nothing that was read comes back. -/
theorem keeps_server {live : List CatUpdateEntry} {issued : List String} (h : Sound position c)
    (hkeyed : Keyed (place position) live) (hknown : ∀ u ∈ live, u.id ∈ issued)
    (hissued : ∀ id ∈ c.issued, id ∈ issued)
    (hback : ∀ id ∈ ids live, id ∈ ids c.live ∨ id ∉ c.issued) :
    Keeps (Sound position) (Pending position) c ({ c with live, issued }, []) := by
  refine ⟨⟨⟨h.nodup, h.descending, h.removed, fun u hu hlive => ?_⟩, h.below, hkeyed, hknown,
    fun u hu => hissued _ (h.read u hu)⟩, fun w hw => ?_, nofun⟩
  · rcases hback _ hlive with hlive | hnot
    · exact h.complete u hu hlive
    · exact absurd (h.read u hu) hnot
  · cases w with
    | detail => trivial
    | firstPage detail read | morePage cursor read =>
      cases read with
      | none => trivial
      | some live' => exact ⟨hw.1, fun u hu => hissued _ (hw.2 u hu)⟩

theorem ids_replaceUpdate (entry : CatUpdateEntry) (updates : List CatUpdateEntry) :
    ids (replaceUpdate entry updates) = ids updates := by
  induction updates with
  | nil => rfl
  | cons u updates ih =>
    unfold replaceUpdate
    split
    · rename_i heq
      simp [ids, heq]
    · exact congrArg (u.id :: ·) ih

theorem mem_of_ids {us us' : List CatUpdateEntry} (h : ids us' = ids us) {u : CatUpdateEntry}
    (hu : u ∈ us') : ∃ u' ∈ us, u'.id = u.id := by
  have hin : u.id ∈ ids us := h ▸ List.mem_map_of_mem hu
  exact List.mem_map.mp hin

theorem descending_of_ids {us us' : List CatUpdateEntry} (h : ids us' = ids us)
    (hus : us.Pairwise fun a b => position b.id < position a.id) :
    us'.Pairwise fun a b => position b.id < position a.id := by
  have hids : (ids us).Pairwise fun a b => position b < position a := List.pairwise_map.mpr hus
  rw [← h] at hids
  exact List.pairwise_map.mp hids

omit [LinearOrder κ] in
theorem keyed_of_ids {us us' : List CatUpdateEntry} (h : ids us' = ids us)
    (hus : Keyed (place position) us) : Keyed (place position) us' := by
  have hids : (ids us).Pairwise fun a b => position a ≠ position b := List.pairwise_map.mpr hus
  rw [← h] at hids
  exact (List.pairwise_map (R := fun a b => position a ≠ position b)).mp hids

/-- An entry that is taken off the screen is gone on the server. -/
theorem remove_keeps {updateId : String} (h : Sound position c) (hdead : updateId ∉ ids c.live) :
    Keeps (Sound position) (Pending position) c ({ c with
      removed := updateId :: c.removed
      view := { c.view with updates := c.view.updates.filter fun u => u.id != updateId } }, []) := by
  have hdescending := h.descending.filter fun u => u.id != updateId
  refine ⟨⟨⟨nodup_of_descending hdescending, hdescending, fun u hu => ?_, fun u hu hlive hnext => ?_⟩,
    fun k hk u hu => h.below k hk u (List.mem_of_mem_filter hu), h.keyed, h.known, h.read⟩,
    fun w hw => hw, nofun⟩
  · obtain ⟨hu, hne⟩ := List.mem_filter.mp hu
    refine fun hin => (List.mem_cons.mp hin).elim (fun heq => ?_) (h.removed u hu)
    simp [heq] at hne
  · obtain ⟨u', hu', heq⟩ := List.mem_map.mp (h.complete u hu hlive hnext)
    refine List.mem_map.mpr ⟨u', List.mem_filter.mpr ⟨hu', ?_⟩, heq⟩
    rw [heq]
    exact bne_iff_ne.mpr fun hid => hdead (hid ▸ hlive)

theorem call_keeps (h : Sound position c) (hguard : (guard position).call c i)
    (hcall : call position c i = some t) : Keeps (Sound position) (Pending position) c t := by
  cases i with
  | load =>
    cases hcall
    refine keeps_flags h rfl rfl fun w hw => ?_
    rw [List.mem_singleton.mp hw]
    trivial
  | loadMoreUpdates =>
    simp only [call] at hcall
    split at hcall
    · cases hcall
      exact keeps_flags h rfl rfl nofun
    · split at hcall
      · cases hcall
        exact keeps_flags h rfl rfl nofun
      · cases hcall
        refine keeps_flags h rfl rfl fun w hw => ?_
        rw [List.mem_singleton.mp hw]
        trivial
  | prependUpdate entry =>
    simp only [call] at hcall
    split at hcall
    · cases hcall
    · split at hcall
      · cases hcall
        exact keeps_flags h rfl rfl nofun
      · rename_i hdetail
        split at hcall
        · cases hcall
          exact keeps_flags h rfl rfl nofun
        · rename_i hnot
          cases hcall
          obtain ⟨hremoved, hnewest⟩ := hguard entry (by simp [prepended, hdetail, hnot])
          refine keeps_view h (List.pairwise_cons.mpr ⟨fun u hu => ?_, h.descending⟩) (fun u hu => ?_)
            (fun u hu hlive hnext => List.mem_cons_of_mem _ (h.complete u hu hlive hnext))
            (fun k hk u hu => ?_) nofun
          · exact hnewest _ (List.mem_append_left _ (List.mem_map_of_mem hu))
          · rcases List.mem_cons.mp hu with rfl | hu
            · exact hremoved
            · exact h.removed u hu
          · rcases List.mem_cons.mp hu with rfl | hu
            · exact le_of_lt (hnewest k (List.mem_append_right _ (Option.mem_toList.mpr hk)))
            · exact h.below k hk u hu
  | replaceUpdate entry =>
    cases hcall
    have hids := ids_replaceUpdate entry c.view.updates
    refine keeps_view h ?_ (fun u hu => ?_) ?_ (fun k hk u hu => ?_) nofun
    · exact descending_of_ids hids h.descending
    · obtain ⟨u', hu', heq⟩ := mem_of_ids hids hu
      exact heq ▸ h.removed u' hu'
    · rw [hids]
      exact h.complete
    · obtain ⟨u', hu', heq⟩ := mem_of_ids hids hu
      exact heq ▸ h.below k hk u' hu'
  | removeUpdate updateId =>
    simp only [call] at hcall
    split at hcall
    · cases hcall
    · rename_i hdead
      cases hcall
      exact remove_keeps h hdead
  | created entry =>
    simp only [call] at hcall
    split at hcall
    · cases hcall
    · rename_i hfresh
      cases hcall
      simp only [List.any_eq_true, Bool.or_eq_true, beq_iff_eq, not_exists, not_and, not_or]
        at hfresh
      refine keeps_server h (List.pairwise_cons.mpr ⟨fun u hu heq => ?_, h.keyed⟩) (fun u hu => ?_)
        (fun id hid => List.mem_cons_of_mem _ hid) (fun id hid => ?_)
      · exact (hfresh u.id (h.known u hu)).2 heq.symm
      · rcases List.mem_cons.mp hu with rfl | hu
        · exact List.mem_cons_self
        · exact List.mem_cons_of_mem _ (h.known u hu)
      · rcases List.mem_cons.mp hid with rfl | hid
        · exact .inr fun hin => (hfresh entry.id hin).1 rfl
        · exact .inl hid
  | corrected entry =>
    cases hcall
    have hids := ids_replaceUpdate entry c.live
    refine keeps_server h (keyed_of_ids hids h.keyed) (fun u hu => ?_) (fun id hid => hid)
      (fun id hid => .inl (hids ▸ hid))
    obtain ⟨u', hu', heq⟩ := mem_of_ids hids hu
    exact heq ▸ h.known u' hu'
  | deleted updateId =>
    cases hcall
    refine keeps_server h (h.keyed.filter _) (fun u hu => h.known u (List.mem_of_mem_filter hu))
      (fun id hid => hid) (fun id hid => .inl ?_)
    obtain ⟨u, hu, rfl⟩ := List.mem_map.mp hid
    exact List.mem_map_of_mem (List.mem_of_mem_filter hu)

theorem resume_keeps (h : Sound position c) (hw : Pending position c w)
    (hguard : (guard position).answer c w r) (hresume : resume position c w r = some t) :
    Keeps (Sound position) (Pending position) c t := by
  obtain ⟨hbrought, hfurther⟩ := hguard
  unfold resume at hresume
  split at hresume
  case h_1 detail =>
    cases hresume
    exact keeps_flags h rfl rfl (by simp [Pending])
  case h_2 | h_3 | h_4 =>
    cases hresume
    exact keeps_flags h rfl rfl nofun
  case h_5 detail =>
    cases hresume
    refine keeps_flags h rfl rfl fun w hw => ?_
    rw [List.mem_singleton.mp hw]
    exact ⟨h.keyed, h.known⟩
  case h_6 detail live =>
    cases hresume
    obtain ⟨hkeyed, hknown⟩ := hw
    have hdescending := fetch_descending hkeyed none
    refine ⟨⟨⟨nodup_of_descending hdescending, hdescending, hbrought, fun u hu _ hnext => ?_⟩,
      fun k hk u hu => next_le_fetch hkeyed hk hu, h.keyed, h.known, hknown⟩, fun w hw => hw, nofun⟩
    exact List.mem_map_of_mem (fetch_complete hkeyed hu nofun hnext)
  case h_7 cursor =>
    cases hresume
    refine keeps_flags h rfl rfl fun w hw => ?_
    rw [List.mem_singleton.mp hw]
    exact ⟨h.keyed, h.known⟩
  case h_8 cursor live =>
    cases hresume
    obtain ⟨hkeyed, hknown⟩ := hw
    obtain ⟨hcursor, hall⟩ := hfurther (cursor, live) rfl
    have hbefore : ∀ u ∈ (fetchUpdates position live (some cursor)).items, position u.id < cursor :=
      fun u hu => (mem_fetch hkeyed hu).2 cursor rfl
    refine keeps_view h (List.pairwise_append.mpr ⟨h.descending, fetch_descending hkeyed _, ?_⟩)
      (fun u hu => ?_) (fun u hu hlive hnext => ?_) (fun k hk u hu => ?_) nofun
    · exact fun u hu v hv => lt_of_lt_of_le (hbefore v hv) (h.below cursor hcursor u hu)
    · rcases List.mem_append.mp hu with hu | hu
      · exact h.removed u hu
      · exact hbrought u hu
    · rw [ids, List.map_append, List.mem_append]
      rcases le_or_gt cursor (position u.id) with hle | hlt
      · refine .inl (h.complete u hu hlive fun k hk => ?_)
        rw [hcursor] at hk
        exact (Option.some_inj.mp hk) ▸ hle
      · obtain ⟨v, hv, heq⟩ := List.mem_map.mp (hall u hu hlive hlt)
        rw [← heq] at hlt hnext ⊢
        refine .inr (List.mem_map_of_mem (fetch_complete hkeyed hv (fun k hk => ?_) hnext))
        exact (Option.some_inj.mp hk) ▸ hlt
    · rcases List.mem_append.mp hu with hu | hu
      · exact le_of_lt (lt_of_lt_of_le (next_before hkeyed hk) (h.below cursor hcursor u hu))
      · exact next_le_fetch hkeyed hk hu
  case h_9 =>
    cases hresume
    exact keeps_flags h rfl rfl nofun
  case h_10 => cases hresume

end Invariant

/-- In every run of turns that the guard admits, the timeline on screen is consistent throughout. -/
theorem timeline_consistent {live : List CatUpdateEntry} {es : List (Event Call Reply)}
    (hlive : live.Pairwise fun a b => position a.id ≠ position b.id)
    (h : Each (handlers position).next (guard position).Admits (start live) es) :
    Always (handlers position).next (fun l => Consistent position l.state) (start live) es := by
  refine (Held.always (fun _ _ _ => call_keeps) (fun _ _ _ _ => resume_keeps) ?_ h).mono
    fun l hl => hl.state.toConsistent
  refine ⟨⟨⟨List.nodup_nil, List.Pairwise.nil, nofun, nofun⟩, nofun, hlive, fun u hu => ?_, nofun⟩,
    nofun⟩
  exact List.mem_map_of_mem hu

end Positions

def entry (id : String) : CatUpdateEntry := { id }

def seat (id : String) : ℕ :=
  if id = "old" then 1 else if id = "new" then 2 else 3

/-- The timeline is loaded, an update is published and another deleted while it is on screen. -/
theorem consistent_while_updated : Always (handlers seat).next (fun l => Consistent seat l.state)
    (start [entry "old", entry "new"])
    [.call .load, .answer 0 (.detail {}), .answer 0 .read, .answer 0 .done,
      .call (.created (entry "newest")), .call (.prependUpdate (entry "newest")),
      .call (.deleted "old"), .call (.removeUpdate "old")] :=
  timeline_consistent (by decide) (by decide)

/-- A refresh is under way when an update is deleted; its page brings the update back. -/
theorem removed_update_back : ¬ Always (handlers seat).next (fun l => Consistent seat l.state)
    (start [entry "old", entry "new"])
    [.call .load, .answer 0 (.detail {}), .answer 0 .read, .answer 0 .done,
      .call .load, .answer 0 (.detail {}), .answer 0 .read, .call (.deleted "new"),
      .call (.removeUpdate "new"), .answer 0 .done] :=
  not_always_of_test (by decide)

end Tekir.TimelineView
