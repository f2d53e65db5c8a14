import Mathlib.Data.Prod.Lex
import Tekir.EventLoop
import Tekir.Keyset
import Tekir.Schema

/-!
# The tabs of the discover screen

`DiscoverNotifier` with its two location tabs and the following tab, within one session. A location
tab resolves a point first and asks for its pages by the distance from there, and by identifier at
the same distance. A cat stays where it is. A request is read by the server once, and answered
later.
-/
namespace Tekir.DiscoverTabs
open EventLoop Keyset
open Schema (UUID Point)

structure DiscoverCat where
  id : UUID
  name : String := ""
  deriving DecidableEq

inductive DiscoverFilter | nearby | needsHelp
  deriving DecidableEq

inductive DiscoverLocationOutcome
  | resolved (position : Point)
  | permissionDenied
  | permissionDeniedForever
  | serviceDisabled
  | unavailable
  | outOfArea
  deriving DecidableEq

/-- Galata tower -/
def istanbulFallback : Point := ⟨410256 / 10000, 289744 / 10000⟩

/-- The point that a tab is queried against. -/
def DiscoverLocationOutcome.anchor : DiscoverLocationOutcome → Point
  | .resolved position => position
  | _ => istanbulFallback

/-- `anchorLat` and `anchorLng` are set together. -/
structure DiscoverLocationTabState (κ : Type) where
  locationOutcome : Option DiscoverLocationOutcome := none
  anchor : Option Point := none
  cats : List DiscoverCat := []
  nextCursor : Option κ := none
  isLoading : Bool := false
  isLoadingMore : Bool := false
  hasLoadedOnce : Bool := false
  error : Option String := none

structure DiscoverFollowingTabState where
  cats : List DiscoverCat := []
  isLoading : Bool := false
  hasLoadedOnce : Bool := false
  error : Option String := none

structure DiscoverState (κ : Type) where
  nearby : DiscoverLocationTabState κ := {}
  needsHelp : DiscoverLocationTabState κ := {}
  following : DiscoverFollowingTabState := {}

namespace DiscoverState

variable {κ : Type}

def tabFor (d : DiscoverState κ) : DiscoverFilter → DiscoverLocationTabState κ
  | .nearby => d.nearby
  | .needsHelp => d.needsHelp

def setTab (d : DiscoverState κ) (filter : DiscoverFilter) (next : DiscoverLocationTabState κ) :
    DiscoverState κ :=
  match filter with
  | .nearby => { d with nearby := next }
  | .needsHelp => { d with needsHelp := next }

theorem tabFor_setTab (d : DiscoverState κ) (filter f : DiscoverFilter)
    (next : DiscoverLocationTabState κ) :
    (d.setTab filter next).tabFor f = if filter = f then next else d.tabFor f := by
  cases filter <;> cases f <;> rfl

@[simp] theorem tabFor_setTab_self (d : DiscoverState κ) (filter : DiscoverFilter)
    (next : DiscoverLocationTabState κ) : (d.setTab filter next).tabFor filter = next := by
  rw [tabFor_setTab, if_pos rfl]

@[simp] theorem setTab_following (d : DiscoverState κ) (filter : DiscoverFilter)
    (next : DiscoverLocationTabState κ) : (d.setTab filter next).following = d.following := by
  cases filter <;> rfl

/-- Every entry on screen, in any of the tabs. -/
def entries (d : DiscoverState κ) : List DiscoverCat :=
  d.nearby.cats ++ d.needsHelp.cats ++ d.following.cats

theorem mem_entries {d : DiscoverState κ} {e : DiscoverCat} : e ∈ d.entries ↔
    (∃ filter, e ∈ (d.tabFor filter).cats) ∨ e ∈ d.following.cats := by
  rw [entries, List.mem_append, List.mem_append]
  constructor
  · rintro ((h | h) | h)
    · exact .inl ⟨.nearby, h⟩
    · exact .inl ⟨.needsHelp, h⟩
    · exact .inr h
  · rintro (⟨filter, h⟩ | h)
    · cases filter with
      | nearby => exact .inl (.inl h)
      | needsHelp => exact .inl (.inr h)
    · exact .inr h

/-- Change the lists of all tabs. -/
def mapCats (d : DiscoverState κ) (f : List DiscoverCat → List DiscoverCat) : DiscoverState κ where
  nearby := { d.nearby with cats := f d.nearby.cats }
  needsHelp := { d.needsHelp with cats := f d.needsHelp.cats }
  following := { d.following with cats := f d.following.cats }

end DiscoverState

def renamed (catId : UUID) (name : String) (cat : DiscoverCat) : DiscoverCat :=
  if cat.id = catId then { cat with name } else cat

def DiscoverState.renameCat {κ : Type} (d : DiscoverState κ) (catId : UUID) (name : String) :
    DiscoverState κ :=
  d.mapCats (List.map (renamed catId name))

def DiscoverState.removeCat {κ : Type} (d : DiscoverState κ) (catId : UUID) : DiscoverState κ :=
  d.mapCats (List.filter fun cat => cat.id != catId)

variable {δ : Type} [LinearOrder δ]

abbrev Position (δ : Type) := δ ×ₗ UUID

inductive Call
  | ensureLoaded (filter : DiscoverFilter)
  | retry (filter : DiscoverFilter)
  | loadMore (filter : DiscoverFilter)
  | loadFollowing

/-- What has been read for a request waits with it. -/
inductive Waiting (δ : Type)
  | resolve (filter : DiscoverFilter)
  | firstPage (filter : DiscoverFilter) (outcome : DiscoverLocationOutcome)
      (page : Option (Page DiscoverCat (Position δ)))
  | morePage (filter : DiscoverFilter) (anchor : Point) (cursor : Position δ)
      (page : Option (Page DiscoverCat (Position δ)))
  | following (cats : Option (List DiscoverCat))

inductive Reply
  | resolved (outcome : DiscoverLocationOutcome)
  /-- The server reads its cats. -/
  | read (cats : List DiscoverCat)
  | done
  | failed (error : String)

def defaultDiscoverLimit : ℕ := 20

section Distances

variable (distance : Point → UUID → δ)

def position (anchor : Point) (cat : DiscoverCat) : Position δ :=
  toLex (distance anchor cat.id, cat.id)

def fetch (anchor : Point) (cursor : Option (Position δ)) (cats : List DiscoverCat) :
    Page DiscoverCat (Position δ) :=
  page (position distance anchor) cats cursor defaultDiscoverLimit

end Distances

/-- `_loadLocationTab` -/
def load (d : DiscoverState (Position δ)) (filter : DiscoverFilter) :
    DiscoverState (Position δ) × List (Waiting δ) :=
  (d.setTab filter { d.tabFor filter with isLoading := true, error := none }, [.resolve filter])

def call (d : DiscoverState (Position δ)) : Call → DiscoverState (Position δ) × List (Waiting δ)
  | .ensureLoaded filter =>
    if (d.tabFor filter).hasLoadedOnce || (d.tabFor filter).isLoading then (d, []) else load d filter
  | .retry filter => load d filter
  | .loadMore filter =>
    match (d.tabFor filter).anchor, (d.tabFor filter).nextCursor with
    | some anchor, some cursor =>
      if (d.tabFor filter).isLoadingMore then (d, [])
      else (d.setTab filter { d.tabFor filter with isLoadingMore := true, error := none },
        [.morePage filter anchor cursor none])
    | _, _ => (d, [])
  | .loadFollowing =>
    ({ d with following := { d.following with isLoading := true, error := none } },
      [.following none])

def resume (distance : Point → UUID → δ) (d : DiscoverState (Position δ)) :
    Waiting δ → Reply → Option (DiscoverState (Position δ) × List (Waiting δ))
  | .resolve filter, .resolved outcome => some (d, [.firstPage filter outcome none])
  | .firstPage filter outcome none, .read cats =>
    if (cats.map DiscoverCat.id).Nodup then
      some (d, [.firstPage filter outcome (some (fetch distance outcome.anchor none cats))])
    else none
  | .firstPage filter outcome (some page), .done => some
      (d.setTab filter
        { locationOutcome := some outcome, anchor := some outcome.anchor, cats := page.items
          nextCursor := page.next, hasLoadedOnce := true }, [])
  | .firstPage filter outcome _, .failed error => some
      (d.setTab filter
        { d.tabFor filter with
          isLoading := false, hasLoadedOnce := true, locationOutcome := some outcome
          anchor := some outcome.anchor, error := some error }, [])
  | .morePage filter anchor cursor none, .read cats =>
    if (cats.map DiscoverCat.id).Nodup then
      some (d, [.morePage filter anchor cursor (some (fetch distance anchor (some cursor) cats))])
    else none
  | .morePage filter _ _ (some page), .done => some
      (d.setTab filter
        { d.tabFor filter with
          isLoadingMore := false, cats := (d.tabFor filter).cats ++ page.items
          nextCursor := page.next }, [])
  | .morePage filter _ _ _, .failed error => some
      (d.setTab filter { d.tabFor filter with isLoadingMore := false, error := some error }, [])
  | .following none, .read cats => some (d, [.following (some cats)])
  | .following (some cats), .done => some ({ d with following := { cats, hasLoadedOnce := true } }, [])
  | .following _, .failed error => some
      ({ d with following :=
        { d.following with isLoading := false, hasLoadedOnce := true, error := some error } }, [])
  | _, _ => none

/-- The entries that an answer puts on screen. -/
def brought : Waiting δ → Reply → List DiscoverCat
  | .firstPage _ _ (some page), .done | .morePage _ _ _ (some page), .done => page.items
  | .following (some cats), .done => cats
  | _, _ => []

section Entries

variable {distance : Point → UUID → δ} {d : DiscoverState (Position δ)} {e : DiscoverCat}

omit [LinearOrder δ] in
theorem entries_setTab {filter : DiscoverFilter} {tab : DiscoverLocationTabState (Position δ)}
    (h : e ∈ (d.setTab filter tab).entries) : e ∈ d.entries ∨ e ∈ tab.cats := by
  rw [DiscoverState.mem_entries] at h ⊢
  rcases h with ⟨f, h⟩ | h
  · rw [DiscoverState.tabFor_setTab] at h
    split at h
    · exact .inr h
    · exact .inl (.inl ⟨f, h⟩)
  · rw [DiscoverState.setTab_following] at h
    exact .inl (.inr h)

omit [LinearOrder δ] in
theorem mem_entries_tab {filter : DiscoverFilter} (h : e ∈ (d.tabFor filter).cats) :
    e ∈ d.entries :=
  DiscoverState.mem_entries.mpr (.inl ⟨filter, h⟩)

omit [LinearOrder δ] in
theorem call_entries (i : Call) (h : e ∈ (call d i).1.entries) : e ∈ d.entries := by
  have hload : ∀ filter, e ∈ (load d filter).1.entries → e ∈ d.entries := by
    intro filter he
    rcases entries_setTab he with he | he
    · exact he
    · exact mem_entries_tab he
  cases i with
  | ensureLoaded filter =>
    simp only [call] at h
    split at h
    · exact h
    · exact hload filter h
  | retry filter => exact hload filter h
  | loadMore filter =>
    simp only [call] at h
    split at h
    · split at h
      · exact h
      · rcases entries_setTab h with h | h
        · exact h
        · exact mem_entries_tab h
    · exact h
  | loadFollowing => exact h

theorem resume_entries {w : Waiting δ} {r : Reply}
    {t : DiscoverState (Position δ) × List (Waiting δ)} (ht : resume distance d w r = some t)
    (h : e ∈ t.1.entries) : e ∈ d.entries ∨ e ∈ brought w r := by
  unfold resume at ht
  split at ht
  case h_1 | h_8 =>
    cases ht
    exact .inl h
  case h_2 | h_5 =>
    split at ht
    · cases ht
      exact .inl h
    · cases ht
  case h_3 =>
    cases ht
    exact entries_setTab h
  case h_4 | h_7 =>
    cases ht
    rcases entries_setTab h with h | h
    · exact .inl h
    · exact .inl (mem_entries_tab h)
  case h_6 =>
    cases ht
    rcases entries_setTab h with h | h
    · exact .inl h
    · rcases List.mem_append.mp h with h | h
      · exact .inl (mem_entries_tab h)
      · exact .inr h
  case h_9 =>
    cases ht
    rw [DiscoverState.mem_entries] at h ⊢
    rcases h with ⟨filter, h⟩ | h
    · refine .inl (.inl ⟨filter, ?_⟩)
      cases filter <;> exact h
    · exact .inr h
  case h_10 =>
    cases ht
    exact .inl h
  case h_11 => cases ht

end Entries

end Tekir.DiscoverTabs
