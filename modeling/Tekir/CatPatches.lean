import Mathlib.Logic.Function.Basic
import Tekir.DiscoverTabs

/-!
# Deleted and renamed cats on screen

`CatsMapNotifier` and `DiscoverNotifier` over the server's cats, and `CatDetailNotifier.deleteCat`
and `renameCat`, which change both of them in place once the server has answered. `latest`,
`deleted` and `renamed` are kept for the statement only.
-/
namespace Tekir.CatPatches
open Machine EventLoop
open DiscoverTabs (DiscoverCat DiscoverState Position renamed)
open Schema (UUID Point)

structure CatsMapState where
  markers : List DiscoverCat := []
  isLoading : Bool := false
  hasLoadedOnce : Bool := false
  error : Option String := none
  selectedMarker : Option DiscoverCat := none
  attempt : ℕ := 0

namespace CatsMapState

def renameCat (m : CatsMapState) (catId : UUID) (name : String) : CatsMapState :=
  { m with markers := m.markers.map (renamed catId name)
           selectedMarker := m.selectedMarker.map (renamed catId name) }

/-- A cat without a marker changes nothing, also where it is the one that is selected. -/
def removeCat (m : CatsMapState) (catId : UUID) : CatsMapState :=
  if !m.markers.any (·.id == catId) then m
  else { m with markers := m.markers.filter (·.id != catId)
                selectedMarker := m.selectedMarker.filter (·.id != catId) }

end CatsMapState

variable {δ : Type} [LinearOrder δ]

/-- The response of a bounds request, with the changes made since. -/
structure Bounds where
  request : ℕ
  markers : List DiscoverCat
  deriving DecidableEq

structure Client (δ : Type) where
  map : CatsMapState := {}
  /-- `_requestId` -/
  requestId : ℕ := 0
  discover : DiscoverState (Position δ) := {}
  server : List DiscoverCat
  /-- The most recently started bounds request that has succeeded. -/
  latest : Option Bounds := none
  deleted : List UUID := []
  renamed : UUID → Option String := fun _ => none

inductive Call
  | fetchForBounds
  | retryForBounds
  | selectCat (cat : DiscoverCat)
  | clearSelection
  | discover (i : DiscoverTabs.Call)
  | deleteCat (catId : UUID)
  | renameCat (catId : UUID) (name : String)
  /-- Somebody adds a cat. -/
  | created (cat : DiscoverCat)

inductive Waiting (δ : Type)
  | bounds (requestId : ℕ) (markers : Option (List DiscoverCat))
  | discover (w : DiscoverTabs.Waiting δ)
  /-- A deletion or a renaming, and whether the server has carried it out. -/
  | deleting (catId : UUID) (served : Bool)
  | renaming (catId : UUID) (name : String) (served : Bool)

inductive Reply
  /-- The server reads some of its cats. -/
  | read (cats : List DiscoverCat)
  | served
  | done
  | failed (error : String)
  /-- Any other answer to the discover screen. -/
  | resolved (outcome : DiscoverTabs.DiscoverLocationOutcome)

def Bounds.update (f : List DiscoverCat → List DiscoverCat) (b : Bounds) : Bounds :=
  { b with markers := f b.markers }

namespace Client

def entries (c : Client δ) : List DiscoverCat :=
  c.map.markers ++ c.map.selectedMarker.toList ++ c.discover.entries

def deleteCat (c : Client δ) (catId : UUID) : Client δ :=
  { c with
    map := c.map.removeCat catId
    discover := c.discover.removeCat catId
    latest := c.latest.map (Bounds.update (List.filter (·.id != catId)))
    deleted := catId :: c.deleted }

def renameCat (c : Client δ) (catId : UUID) (name : String) : Client δ :=
  { c with
    map := c.map.renameCat catId name
    discover := c.discover.renameCat catId name
    latest := c.latest.map (Bounds.update (List.map (DiscoverTabs.renamed catId name)))
    renamed := Function.update c.renamed catId (some name) }

/-- A bounds request has succeeded. -/
def completed (c : Client δ) (request : ℕ) (markers : List DiscoverCat) : Client δ :=
  if c.latest.all (fun b => decide (b.request ≤ request)) then { c with latest := some ⟨request, markers⟩ }
  else c

end Client

def fetchForBounds (c : Client δ) : Client δ × List (Waiting δ) :=
  ({ c with requestId := c.requestId + 1, map := { c.map with isLoading := true, error := none } },
    [.bounds (c.requestId + 1) none])

def call (c : Client δ) : Call → Option (Client δ × List (Waiting δ))
  | .fetchForBounds => some (fetchForBounds c)
  | .retryForBounds =>
    some (fetchForBounds { c with map := { c.map with attempt := c.map.attempt + 1 } })
  | .selectCat cat =>
    if cat ∈ c.map.markers then some ({ c with map := { c.map with selectedMarker := some cat } }, [])
    else none
  | .clearSelection => some ({ c with map := { c.map with selectedMarker := none } }, [])
  | .discover i =>
    let t := DiscoverTabs.call c.discover i
    some ({ c with discover := t.1 }, t.2.map .discover)
  | .deleteCat catId => some (c, [.deleting catId false])
  | .renameCat catId name => some (c, [.renaming catId name false])
  | .created cat =>
    if c.deleted.contains cat.id || c.server.any (·.id == cat.id) then none
    else some ({ c with server := cat :: c.server }, [])

/-- The same answer, as the discover screen gets it. -/
def Reply.toDiscover : Reply → Option DiscoverTabs.Reply
  | .read cats => some (.read cats)
  | .done => some .done
  | .failed error => some (.failed error)
  | .resolved outcome => some (.resolved outcome)
  | .served => none

/-- The server reads nothing that it does not have. -/
def Reads (server : List DiscoverCat) : Reply → Prop
  | .read cats => ∀ cat ∈ cats, cat ∈ server
  | _ => True

instance (server : List DiscoverCat) : (r : Reply) → Decidable (Reads server r)
  | .read cats => inferInstanceAs (Decidable (∀ cat ∈ cats, cat ∈ server))
  | .served | .done | .failed _ | .resolved _ => isTrue trivial

def resume (distance : Point → UUID → δ) (c : Client δ) :
    Waiting δ → Reply → Option (Client δ × List (Waiting δ))
  | .bounds requestId none, .read cats => some (c, [.bounds requestId (some cats)])
  | .bounds requestId (some markers), .done =>
    let c' := c.completed requestId markers
    some (if requestId ≠ c.requestId then c'
      else { c' with map := { markers, hasLoadedOnce := true, attempt := c.map.attempt } }, [])
  | .bounds requestId _, .failed error => some
      (if requestId ≠ c.requestId then c
      else { c with map :=
        { c.map with isLoading := false, hasLoadedOnce := true, error := some error } }, [])
  | .discover w, r => r.toDiscover.bind fun r => (DiscoverTabs.resume distance c.discover w r).map
      fun t => ({ c with discover := t.1 }, t.2.map .discover)
  | .deleting catId false, .served =>
    some ({ c with server := c.server.filter (·.id != catId) }, [.deleting catId true])
  | .deleting catId true, .done => some (c.deleteCat catId, [])
  | .renaming catId name false, .served =>
    some ({ c with server := c.server.map (renamed catId name) }, [.renaming catId name true])
  | .renaming catId name true, .done => some (c.renameCat catId name, [])
  | .deleting _ _, .failed _ | .renaming _ _ _, .failed _ => some (c, [])
  | _, _ => none

def handlers (distance : Point → UUID → δ) : Handlers (Client δ) (Waiting δ) Call Reply where
  call := call
  resume c w r := if Reads c.server r then resume distance c w r else none

/-- The markers are those of the latest bounds request. No deleted cat is on screen, and every
renamed one has its new name. -/
structure Consistent (c : Client δ) : Prop where
  markers : c.map.markers = (c.latest.map Bounds.markers).getD []
  deleted : ∀ e ∈ c.entries, e.id ∉ c.deleted
  renamed : ∀ e ∈ c.entries, ∀ name ∈ c.renamed e.id, e.name = name

instance : DecidablePred (Consistent : Client δ → Prop) := fun c =>
  decidable_of_iff (c.map.markers = (c.latest.map Bounds.markers).getD [] ∧
    (∀ e ∈ c.entries, e.id ∉ c.deleted) ∧ ∀ e ∈ c.entries, ∀ name ∈ c.renamed e.id, e.name = name)
  ⟨fun ⟨h₁, h₂, h₃⟩ => ⟨h₁, h₂, h₃⟩, fun h => ⟨h.markers, h.deleted, h.renamed⟩⟩

/-- The entries that an answer puts on screen. -/
def brought (c : Client δ) : Waiting δ → Reply → List DiscoverCat
  | .bounds requestId (some markers), .done => if requestId = c.requestId then markers else []
  | .discover w, r => (r.toDiscover.map (DiscoverTabs.brought w)).getD []
  | _, _ => []

/-- A bounds request that succeeds. -/
def succeeded : Waiting δ → Reply → Option ℕ
  | .bounds requestId (some _), .done => some requestId
  | _, _ => none

/-- A cat that is taken off the screen. -/
def removed : Waiting δ → Reply → Option UUID
  | .deleting catId true, .done => some catId
  | _, _ => none

/-- No answer puts a deleted cat or an old name on screen. A bounds request that is not the newest
comes after a newer one, and a cat that is deleted while it is selected has its marker. -/
def guard : Guard (Client δ) (Waiting δ) Call Reply where
  answer c w r :=
    (∀ e ∈ brought c w r, e.id ∉ c.deleted ∧ ∀ name ∈ c.renamed e.id, e.name = name) ∧
    (∀ id ∈ succeeded w r, id = c.requestId ∨ ∃ b ∈ c.latest, id < b.request) ∧
    ∀ id ∈ removed w r, ∀ m ∈ c.map.selectedMarker, m.id = id → ∃ m' ∈ c.map.markers, m'.id = id

instance (c : Client δ) (i : Call) : Decidable (guard.call c i) := isTrue trivial

instance (c : Client δ) (w : Waiting δ) (r : Reply) : Decidable (guard.answer c w r) :=
  inferInstanceAs (Decidable (_ ∧ (∀ id ∈ succeeded w r, _ ∨ ∃ b ∈ c.latest, _) ∧
    ∀ id ∈ removed w r, ∀ m ∈ c.map.selectedMarker, _))

section Invariant

variable {distance : Point → UUID → δ} {c c' : Client δ} {w : Waiting δ} {r : Reply}
  {t : Client δ × List (Waiting δ)}

structure Sound (c : Client δ) : Prop extends Consistent c where
  latest : ∀ b ∈ c.latest, b.request ≤ c.requestId

def Pending (_ : Client δ) (_ : Waiting δ) : Prop :=
  True

omit [LinearOrder δ] in
theorem mem_entries {e : DiscoverCat} : e ∈ c.entries ↔
    e ∈ c.map.markers ∨ e ∈ c.map.selectedMarker ∨ e ∈ c.discover.entries := by
  rw [Client.entries, List.mem_append, List.mem_append, Option.mem_toList, or_assoc]
  exact Iff.rfl

omit [LinearOrder δ] in
/-- A turn that deletes and renames nothing puts only current entries on screen. -/
theorem keeps_entries {ws : List (Waiting δ)} (h : Sound c)
    (hmarkers : c'.map.markers = (c'.latest.map Bounds.markers).getD [])
    (hdeleted : c'.deleted = c.deleted) (hrenamed : c'.renamed = c.renamed)
    (hentries : ∀ e ∈ c'.entries, e ∈ c.entries ∨
      (e.id ∉ c.deleted ∧ ∀ name ∈ c.renamed e.id, e.name = name))
    (hlatest : ∀ b ∈ c'.latest, b.request ≤ c'.requestId) :
    Keeps Sound Pending c (c', ws) := by
  refine ⟨⟨⟨hmarkers, fun e he => ?_, fun e he => ?_⟩, hlatest⟩, fun _ _ => trivial, fun _ _ => trivial⟩
  · rw [hdeleted]
    rcases hentries e he with he | he
    · exact h.deleted e he
    · exact he.1
  · rw [hrenamed]
    rcases hentries e he with he | he
    · exact h.renamed e he
    · exact he.2

omit [LinearOrder δ] in
theorem call_keeps {i : Call} (h : Sound c) (hcall : call c i = some t) : Keeps Sound Pending c t := by
  cases i with
  | fetchForBounds | retryForBounds =>
    cases hcall
    exact keeps_entries h h.markers rfl rfl (fun e he => .inl he)
      fun b hb => Nat.le_succ_of_le (h.latest b hb)
  | selectCat cat =>
    simp only [call] at hcall
    split at hcall
    · rename_i hmarker
      cases hcall
      refine keeps_entries h h.markers rfl rfl (fun e he => .inl ?_) h.latest
      rw [mem_entries] at he ⊢
      rcases he with he | he | he
      · exact .inl he
      · cases he
        exact .inl hmarker
      · exact .inr (.inr he)
    · cases hcall
  | clearSelection =>
    cases hcall
    refine keeps_entries h h.markers rfl rfl (fun e he => .inl ?_) h.latest
    rw [mem_entries] at he ⊢
    rcases he with he | he | he
    · exact .inl he
    · cases he
    · exact .inr (.inr he)
  | discover i =>
    cases hcall
    refine keeps_entries h h.markers rfl rfl (fun e he => .inl ?_) h.latest
    rw [mem_entries] at he ⊢
    rcases he with he | he | he
    · exact .inl he
    · exact .inr (.inl he)
    · exact .inr (.inr (DiscoverTabs.call_entries i he))
  | deleteCat catId | renameCat catId name =>
    cases hcall
    exact keeps_entries h h.markers rfl rfl (fun e he => .inl he) h.latest
  | created cat =>
    simp only [call] at hcall
    split at hcall
    · cases hcall
    · cases hcall
      exact keeps_entries h h.markers rfl rfl (fun e he => .inl he) h.latest

omit [LinearOrder δ] in
theorem mem_mapCats {d : DiscoverState (Position δ)} {f : List DiscoverCat → List DiscoverCat}
    {e : DiscoverCat} (h : e ∈ (d.mapCats f).entries) :
    ∃ cats, e ∈ f cats ∧ ∀ e' ∈ cats, e' ∈ d.entries := by
  rw [DiscoverState.mem_entries] at h
  rcases h with ⟨filter, h⟩ | h
  · refine ⟨(d.tabFor filter).cats, ?_, fun e' he' => DiscoverTabs.mem_entries_tab he'⟩
    cases filter <;> exact h
  · exact ⟨d.following.cats, h, fun e' he' => DiscoverState.mem_entries.mpr (.inr he')⟩

omit [LinearOrder δ] in
/-- What is left on screen of a cat that is deleted: nothing. -/
theorem mem_deleteCat {catId : UUID} {e : DiscoverCat}
    (hselected : ∀ m ∈ c.map.selectedMarker, m.id = catId → ∃ m' ∈ c.map.markers, m'.id = catId)
    (h : e ∈ (c.deleteCat catId).entries) : e ∈ c.entries ∧ e.id ≠ catId := by
  have hmap : e ∈ (c.map.removeCat catId).markers ∨ e ∈ (c.map.removeCat catId).selectedMarker →
      (e ∈ c.map.markers ∨ e ∈ c.map.selectedMarker) ∧ e.id ≠ catId := by
    unfold CatsMapState.removeCat
    split
    · rename_i hnone
      simp only [Bool.not_eq_true', List.any_eq_false, beq_iff_eq] at hnone
      refine fun he => ⟨he, fun hid => ?_⟩
      rcases he with he | he
      · exact hnone e he hid
      · obtain ⟨m, hm, hmid⟩ := hselected e he hid
        exact hnone m hm hmid
    · rintro (he | he)
      · obtain ⟨he, hne⟩ := List.mem_filter.mp he
        exact ⟨.inl he, by simpa using hne⟩
      · obtain ⟨he, hne⟩ := Option.mem_filter_iff.mp he
        exact ⟨.inr he, by simpa using hne⟩
  rw [mem_entries] at h ⊢
  rw [← or_assoc] at h ⊢
  rcases h with h | h
  · obtain ⟨he, hne⟩ := hmap h
    exact ⟨.inl he, hne⟩
  · obtain ⟨cats, he, hcats⟩ := mem_mapCats h
    obtain ⟨he, hne⟩ := List.mem_filter.mp he
    exact ⟨.inr (hcats e he), by simpa using hne⟩

omit [LinearOrder δ] in
theorem mem_renameCat {catId : UUID} {name : String} {e : DiscoverCat}
    (h : e ∈ (c.renameCat catId name).entries) : ∃ e' ∈ c.entries, e = renamed catId name e' := by
  rw [mem_entries] at h
  rcases h with h | h | h
  · obtain ⟨e', he', rfl⟩ := List.mem_map.mp h
    exact ⟨e', mem_entries.mpr (.inl he'), rfl⟩
  · obtain ⟨e', he', rfl⟩ := Option.map_eq_some_iff.mp h
    exact ⟨e', mem_entries.mpr (.inr (.inl he')), rfl⟩
  · obtain ⟨cats, he, hcats⟩ := mem_mapCats h
    obtain ⟨e', he', rfl⟩ := List.mem_map.mp he
    exact ⟨e', mem_entries.mpr (.inr (.inr (hcats e' he'))), rfl⟩

theorem removeCat_markers (m : CatsMapState) (catId : UUID) :
    (m.removeCat catId).markers = m.markers.filter (·.id != catId) := by
  unfold CatsMapState.removeCat
  split
  · rename_i hnone
    refine (List.filter_eq_self.mpr fun e he => ?_).symm
    simp only [Bool.not_eq_true', List.any_eq_false, beq_iff_eq] at hnone
    exact bne_iff_ne.mpr (hnone e he)
  · rfl

theorem markers_update {f : List DiscoverCat → List DiscoverCat} (hnil : f [] = [])
    (latest : Option Bounds) : ((latest.map (Bounds.update f)).map Bounds.markers).getD [] =
      f ((latest.map Bounds.markers).getD []) := by
  cases latest with
  | none => exact hnil.symm
  | some b => rfl

omit [LinearOrder δ] in
theorem latest_update {f : List DiscoverCat → List DiscoverCat} (h : Sound c) :
    ∀ b ∈ c.latest.map (Bounds.update f), b.request ≤ c.requestId := by
  intro b hb
  obtain ⟨b', hb', rfl⟩ := Option.map_eq_some_iff.mp hb
  exact h.latest b' hb'

omit [LinearOrder δ] in
theorem deleteCat_keeps {catId : UUID} (h : Sound c)
    (hselected : ∀ m ∈ c.map.selectedMarker, m.id = catId → ∃ m' ∈ c.map.markers, m'.id = catId) :
    Keeps Sound Pending c (c.deleteCat catId, []) := by
  refine ⟨⟨⟨?_, fun e he => ?_, fun e he => ?_⟩, latest_update h⟩, fun _ _ => trivial, nofun⟩
  · exact (removeCat_markers c.map catId).trans
      ((congrArg _ h.markers).trans (markers_update rfl c.latest).symm)
  · obtain ⟨he, hne⟩ := mem_deleteCat hselected he
    exact fun hin => (List.mem_cons.mp hin).elim hne (h.deleted e he)
  · exact h.renamed e (mem_deleteCat hselected he).1

omit [LinearOrder δ] in
theorem renameCat_keeps {catId : UUID} {name : String} (h : Sound c) :
    Keeps Sound Pending c (c.renameCat catId name, []) := by
  have hid : ∀ e, (renamed catId name e).id = e.id := by
    intro e
    unfold DiscoverTabs.renamed
    split <;> rfl
  refine ⟨⟨⟨?_, fun e he => ?_, fun e he => ?_⟩, latest_update h⟩, fun _ _ => trivial, nofun⟩
  · exact (congrArg _ h.markers).trans (markers_update rfl c.latest).symm
  · obtain ⟨e', he', rfl⟩ := mem_renameCat he
    rw [hid]
    exact h.deleted e' he'
  · obtain ⟨e', he', rfl⟩ := mem_renameCat he
    rw [hid]
    intro n hn
    have hn' : Function.update c.renamed catId (some name) e'.id = some n := hn
    unfold DiscoverTabs.renamed
    by_cases heq : e'.id = catId
    · rw [heq, Function.update_self] at hn'
      rw [if_pos heq]
      exact Option.some_inj.mp hn'
    · rw [Function.update_of_ne heq] at hn'
      rw [if_neg heq]
      exact h.renamed e' he' n hn'

omit [LinearOrder δ] in
/-- A bounds request succeeds: the newest is shown, and another is out of date. -/
theorem bounds_keeps {requestId : ℕ} {markers : List DiscoverCat} (h : Sound c)
    (hbrought : ∀ e ∈ brought c (.bounds requestId (some markers)) .done,
      e.id ∉ c.deleted ∧ ∀ name ∈ c.renamed e.id, e.name = name)
    (hnewest : requestId = c.requestId ∨ ∃ b ∈ c.latest, requestId < b.request) :
    Keeps Sound Pending c
      (if requestId ≠ c.requestId then c.completed requestId markers
      else { c.completed requestId markers with
        map := { markers, hasLoadedOnce := true, attempt := c.map.attempt } }, []) := by
  by_cases heq : requestId = c.requestId
  · subst heq
    have hall : c.latest.all (fun b => decide (b.request ≤ c.requestId)) = true := by
      cases hlatest : c.latest with
      | none => rfl
      | some b => exact decide_eq_true (h.latest b hlatest)
    rw [if_neg (not_not.mpr rfl), Client.completed, if_pos hall]
    refine keeps_entries h rfl rfl rfl (fun e he => ?_) fun b hb => ?_
    · rw [mem_entries] at he
      rcases he with he | he | he
      · exact .inr (hbrought e (by rw [brought, if_pos rfl]; exact he))
      · cases he
      · exact .inl (mem_entries.mpr (.inr (.inr he)))
    · cases hb
      exact Nat.le_refl _
  · have hnot : ¬ c.latest.all (fun b => decide (b.request ≤ requestId)) = true := by
      obtain ⟨b, hb, hlt⟩ := hnewest.resolve_left heq
      rw [Option.mem_def.mp hb]
      exact fun hle => absurd (of_decide_eq_true hle) (Nat.not_le_of_lt hlt)
    rw [if_pos heq, Client.completed, if_neg hnot]
    exact keeps_entries h h.markers rfl rfl (fun e he => .inl he) h.latest

theorem resume_keeps (h : Sound c) (hguard : guard.answer c w r)
    (hresume : resume distance c w r = some t) : Keeps Sound Pending c t := by
  obtain ⟨hbrought, hsucceeded, hremoved⟩ := hguard
  unfold resume at hresume
  split at hresume
  case h_1 | h_5 | h_7 | h_9 | h_10 =>
    cases hresume
    exact keeps_entries h h.markers rfl rfl (fun e he => .inl he) h.latest
  case h_2 requestId markers =>
    cases hresume
    exact bounds_keeps h hbrought (hsucceeded requestId rfl)
  case h_3 requestId markers error =>
    cases hresume
    split
    · exact keeps_entries h h.markers rfl rfl (fun e he => .inl he) h.latest
    · exact keeps_entries h h.markers rfl rfl (fun e he => .inl he) h.latest
  case h_4 w r =>
    obtain ⟨r', hr', hmap⟩ := Option.bind_eq_some_iff.mp hresume
    obtain ⟨u, hu, rfl⟩ := Option.map_eq_some_iff.mp hmap
    refine keeps_entries h h.markers rfl rfl (fun e he => ?_) h.latest
    rw [mem_entries] at he
    rcases he with he | he | he
    · exact .inl (mem_entries.mpr (.inl he))
    · exact .inl (mem_entries.mpr (.inr (.inl he)))
    · rcases DiscoverTabs.resume_entries hu he with he | he
      · exact .inl (mem_entries.mpr (.inr (.inr he)))
      · refine .inr (hbrought e ?_)
        rw [brought, hr']
        exact he
  case h_6 catId =>
    cases hresume
    exact deleteCat_keeps h (hremoved catId rfl)
  case h_8 catId name =>
    cases hresume
    exact renameCat_keeps h
  case h_11 => cases hresume

end Invariant

/-- In every run of turns that the guard admits, the screens are consistent throughout. -/
theorem screens_consistent {distance : Point → UUID → δ} {server : List DiscoverCat}
    {es : List (Event Call Reply)}
    (h : Each (handlers distance).next guard.Admits ⟨{ server }, []⟩ es) :
    Always (handlers distance).next (fun l => Consistent l.state) ⟨{ server }, []⟩ es := by
  refine (Held.always (I := Sound) (J := Pending) (fun _ _ _ hc _ => call_keeps hc)
    (fun c w r t hc _ hguard hresume => ?_) ?_ h).mono fun l hl => hl.state.toConsistent
  · simp only [handlers] at hresume
    split at hresume
    · exact resume_keeps hc hguard hresume
    · cases hresume
  · exact ⟨⟨⟨rfl, nofun, nofun⟩, nofun⟩, nofun⟩

def sameDistance (_ : Point) (_ : UUID) : ℕ := 0

/-- A cat is shown on the map and in the nearby tab, then renamed, then deleted while the map is
loaded again. -/
theorem consistent_after_changes : Always (handlers sameDistance).next
    (fun l => Consistent l.state) ⟨{ server := [⟨1, "Pamuk"⟩, ⟨2, "Duman"⟩] }, []⟩
    [.call .fetchForBounds, .answer 0 (.read [⟨1, "Pamuk"⟩, ⟨2, "Duman"⟩]), .answer 0 .done,
      .call (.selectCat ⟨1, "Pamuk"⟩), .call (.renameCat 1 "Boncuk"), .answer 0 .served,
      .answer 0 .done, .call (.deleteCat 1), .answer 0 .served, .call .retryForBounds,
      .answer 1 (.read [⟨2, "Duman"⟩]), .answer 0 .done, .answer 0 .done] :=
  screens_consistent (by decide +kernel)

/-- The map is loaded again while a cat is deleted; the answer brings its marker back. -/
theorem deleted_cat_back : ¬ Always (handlers sameDistance).next
    (fun l => Consistent l.state) ⟨{ server := [⟨1, "Pamuk"⟩] }, []⟩
    [.call .fetchForBounds, .answer 0 (.read [⟨1, "Pamuk"⟩]), .call (.deleteCat 1),
      .answer 1 .served, .answer 1 .done, .answer 0 .done] :=
  not_always_of_test (by decide +kernel)

end Tekir.CatPatches
