import Tekir.DiscoverTabs

/-!
# One traversal for each location tab

The responses that a location tab has got, and the list that it shows. `received` is kept for the
statement only.
-/
namespace Tekir.DiscoverTraversal
open Machine EventLoop Keyset DiscoverTabs
open Schema (UUID Point)

variable {δ : Type} [LinearOrder δ]

structure Response (δ : Type) where
  filter : DiscoverFilter
  anchor : Point
  cursor : Option (Position δ)
  page : Page DiscoverCat (Position δ)

structure Client (δ : Type) where
  discover : DiscoverState (Position δ) := {}
  received : List (Response δ) := []

def response : Waiting δ → Reply → Option (Response δ)
  | .firstPage filter outcome (some page), .done => some ⟨filter, outcome.anchor, none, page⟩
  | .morePage filter anchor cursor (some page), .done => some ⟨filter, anchor, some cursor, page⟩
  | _, _ => none

def handlers (distance : Point → UUID → δ) : Handlers (Client δ) (Waiting δ) Call Reply where
  call c i := some ({ c with discover := (call c.discover i).1 }, (call c.discover i).2)
  resume c w r := (resume distance c.discover w r).map fun t =>
    (⟨t.1, c.received ++ (response w r).toList⟩, t.2)

/-- What consecutive pages from an anchor make up, and where they go on. -/
inductive Traversal (received : List (Response δ)) (filter : DiscoverFilter) (anchor : Point) :
    List DiscoverCat → Option (Position δ) → Prop
  | first {page : Page DiscoverCat (Position δ)} (h : ⟨filter, anchor, none, page⟩ ∈ received) :
      Traversal received filter anchor page.items page.next
  | more {cats : List DiscoverCat} {k : Position δ} {page : Page DiscoverCat (Position δ)}
      (hcats : Traversal received filter anchor cats (some k))
      (h : ⟨filter, anchor, some k, page⟩ ∈ received) :
      Traversal received filter anchor (cats ++ page.items) page.next

/-- The list of a tab that has loaded nothing, or the pages of one traversal from its anchor. -/
def Traversed (received : List (Response δ)) (filter : DiscoverFilter)
    (tab : DiscoverLocationTabState (Position δ)) : Prop :=
  (tab.cats = [] ∧ tab.nextCursor = none) ∨
    ∃ anchor ∈ tab.anchor, Traversal received filter anchor tab.cats tab.nextCursor

structure Consistent (c : Client δ) : Prop where
  traversed : ∀ filter, Traversed c.received filter (c.discover.tabFor filter)
  nodup : ∀ filter, ((c.discover.tabFor filter).cats.map DiscoverCat.id).Nodup

/-- A further page that is written: its tab, and where it was asked for. -/
def continued : Waiting δ → Reply → Option (DiscoverFilter × Point × Position δ)
  | .morePage filter anchor cursor (some _), .done => some (filter, anchor, cursor)
  | _, _ => none

/-- A first page that fails: its tab and its anchor. -/
def anchored : Waiting δ → Reply → Option (DiscoverFilter × Point)
  | .firstPage filter outcome _, .failed _ => some (filter, outcome.anchor)
  | _, _ => none

/-- A further page continues what its tab shows, and a first page that fails leaves a list that is
there to its own anchor. -/
def guard : Guard (Client δ) (Waiting δ) Call Reply where
  answer c w r :=
    (∀ p ∈ continued w r, (c.discover.tabFor p.1).anchor = some p.2.1 ∧
      (c.discover.tabFor p.1).nextCursor = some p.2.2) ∧
    ∀ p ∈ anchored w r, (c.discover.tabFor p.1).anchor = some p.2 ∨
      (c.discover.tabFor p.1).cats = [] ∧ (c.discover.tabFor p.1).nextCursor = none

instance (c : Client δ) (i : Call) : Decidable (guard.call c i) := isTrue trivial

instance (c : Client δ) (w : Waiting δ) (r : Reply) : Decidable (guard.answer c w r) :=
  inferInstanceAs (Decidable ((∀ p ∈ continued w r, _) ∧ ∀ p ∈ anchored w r, _))

section Pages

variable {distance : Point → UUID → δ} {received received' : List (Response δ)}
  {filter : DiscoverFilter} {anchor : Point} {cats : List DiscoverCat} {next : Option (Position δ)}

/-- A page that the server may have read. -/
def Served (distance : Point → UUID → δ) (anchor : Point) (cursor : Option (Position δ))
    (page : Page DiscoverCat (Position δ)) : Prop :=
  ∃ cats : List DiscoverCat, (cats.map DiscoverCat.id).Nodup ∧
    page = fetch distance anchor cursor cats

omit [LinearOrder δ] in
theorem keyed_of_nodup (h : (cats.map DiscoverCat.id).Nodup) :
    Keyed (position distance anchor) cats := by
  have hne : cats.Pairwise fun a b => a.id ≠ b.id := List.pairwise_map.mp h
  exact hne.imp fun hid heq => hid (congrArg (fun k => (ofLex k).2) heq)

theorem nodup_of_increasing (h : cats.Pairwise fun a b =>
    position distance anchor a < position distance anchor b) :
    (cats.map DiscoverCat.id).Nodup := by
  refine List.pairwise_map.mpr (h.imp fun hlt heq => ?_)
  rw [position, position, heq] at hlt
  exact lt_irrefl _ hlt

/-- A page lies between its cursor and the next one. -/
structure Between (distance : Point → UUID → δ) (anchor : Point) (cursor : Option (Position δ))
    (page : Page DiscoverCat (Position δ)) : Prop where
  increasing : page.items.Pairwise fun a b => position distance anchor a < position distance anchor b
  after : ∀ k ∈ cursor, ∀ c ∈ page.items, k < position distance anchor c
  upTo : ∀ k ∈ page.next, ∀ c ∈ page.items, position distance anchor c ≤ k
  ahead : ∀ k ∈ cursor, ∀ k' ∈ page.next, k < k'

theorem Served.between {cursor : Option (Position δ)} {page : Page DiscoverCat (Position δ)}
    (h : Served distance anchor cursor page) : Between distance anchor cursor page := by
  obtain ⟨rows, hnodup, rfl⟩ := h
  have hkeyed : Keyed (position distance anchor) rows := keyed_of_nodup hnodup
  have hafter : ∀ k ∈ cursor, ∀ c ∈ (fetch distance anchor cursor rows).items,
      k < position distance anchor c := by
    intro k hk c hc
    obtain ⟨-, hafter⟩ := mem_items hkeyed hc
    rw [Option.mem_def.mp hk] at hafter
    exact of_decide_eq_true hafter
  refine ⟨items_increasing _ _ hkeyed, hafter, fun k hk c hc => items_le_next hkeyed hk hc,
    fun k hk k' hk' => ?_⟩
  obtain ⟨last, hlast, rfl⟩ := next_eq_last hk'
  exact hafter k hk last (List.mem_of_getLast? hlast)

omit [LinearOrder δ] in
theorem Traversal.mono (h : ∀ r ∈ received, r ∈ received')
    (ht : Traversal received filter anchor cats next) :
    Traversal received' filter anchor cats next := by
  induction ht with
  | first hr => exact .first (h _ hr)
  | more _ hr ih => exact .more ih (h _ hr)

omit [LinearOrder δ] in
theorem Traversal.begun (ht : Traversal received filter anchor cats next) :
    ∃ page, (⟨filter, anchor, none, page⟩ : Response δ) ∈ received := by
  induction ht with
  | first hr => exact ⟨_, hr⟩
  | more _ _ ih => exact ih

/-- From page to page the positions increase, up to the next one. -/
theorem Traversal.increasing (h : ∀ r ∈ received, Served distance r.anchor r.cursor r.page)
    (ht : Traversal received filter anchor cats next) :
    (cats.Pairwise fun a b => position distance anchor a < position distance anchor b) ∧
      ∀ k ∈ next, ∀ c ∈ cats, position distance anchor c ≤ k := by
  induction ht with
  | first hr =>
    have hpage := (h _ hr).between
    exact ⟨hpage.increasing, hpage.upTo⟩
  | @more cats k page _ hr ih =>
    have hpage := (h _ hr).between
    refine ⟨List.pairwise_append.mpr ⟨ih.1, hpage.increasing, fun a ha b hb => ?_⟩,
      fun k' hk' c hc => ?_⟩
    · exact lt_of_le_of_lt (ih.2 k rfl a ha) (hpage.after k rfl b hb)
    · rcases List.mem_append.mp hc with hc | hc
      · exact le_trans (ih.2 k rfl c hc) (le_of_lt (hpage.ahead k rfl k' hk'))
      · exact hpage.upTo k' hk' c hc

end Pages

section Invariant

variable {distance : Point → UUID → δ} {c : Client δ} {w : Waiting δ} {r : Reply}

structure Sound (distance : Point → UUID → δ) (c : Client δ) : Prop where
  traversed : ∀ filter, Traversed c.received filter (c.discover.tabFor filter)
  served : ∀ r ∈ c.received, Served distance r.anchor r.cursor r.page

/-- What has been read for a request is a page that it asked for. -/
def Pending (distance : Point → UUID → δ) (_ : Client δ) : Waiting δ → Prop
  | .firstPage _ outcome (some page) => Served distance outcome.anchor none page
  | .morePage _ anchor cursor (some page) => Served distance anchor (some cursor) page
  | _ => True

theorem Sound.consistent (h : Sound distance c) : Consistent c := by
  refine ⟨h.traversed, fun filter => ?_⟩
  rcases h.traversed filter with ⟨hnil, -⟩ | ⟨anchor, -, ht⟩
  · rw [hnil]
    exact List.nodup_nil
  · exact nodup_of_increasing (ht.increasing h.served).1

omit [LinearOrder δ] in
theorem Traversed.mono {received received' : List (Response δ)} {filter : DiscoverFilter}
    {tab : DiscoverLocationTabState (Position δ)} (h : ∀ r ∈ received, r ∈ received')
    (ht : Traversed received filter tab) : Traversed received' filter tab := by
  rcases ht with hnil | ⟨anchor, hanchor, ht⟩
  · exact .inl hnil
  · exact .inr ⟨anchor, hanchor, ht.mono h⟩

/-- One tab is written. -/
theorem keeps_tab {filter : DiscoverFilter} {tab : DiscoverLocationTabState (Position δ)}
    {rs : List (Response δ)} {ws : List (Waiting δ)} (h : Sound distance c)
    (htab : Traversed (c.received ++ rs) filter tab)
    (hserved : ∀ r ∈ rs, Served distance r.anchor r.cursor r.page)
    (hnew : ∀ w ∈ ws, Pending distance c w) :
    Keeps (Sound distance) (Pending distance) c
      (⟨c.discover.setTab filter tab, c.received ++ rs⟩, ws) := by
  refine ⟨⟨fun f => ?_, fun r hr => ?_⟩, fun w hw => hw, hnew⟩
  · rw [DiscoverState.tabFor_setTab]
    split
    · rename_i heq
      exact heq ▸ htab
    · exact (h.traversed f).mono fun r hr => List.mem_append_left rs hr
  · rcases List.mem_append.mp hr with hr | hr
    · exact h.served r hr
    · exact hserved r hr

/-- No list is written. -/
theorem keeps_lists {d : DiscoverState (Position δ)} {ws : List (Waiting δ)} (h : Sound distance c)
    (hd : ∀ filter, Traversed c.received filter (c.discover.tabFor filter) →
      Traversed c.received filter (d.tabFor filter))
    (hnew : ∀ w ∈ ws, Pending distance c w) :
    Keeps (Sound distance) (Pending distance) c (⟨d, c.received⟩, ws) :=
  ⟨⟨fun filter => hd filter (h.traversed filter), h.served⟩, fun _ hw => hw, hnew⟩

theorem keeps_quiet {d : DiscoverState (Position δ)} {rs : List (Response δ)} {ws : List (Waiting δ)}
    (h : Sound distance c) (hrs : rs = [])
    (hd : ∀ filter, Traversed c.received filter (c.discover.tabFor filter) →
      Traversed c.received filter (d.tabFor filter))
    (hnew : ∀ w ∈ ws, Pending distance c w) :
    Keeps (Sound distance) (Pending distance) c (⟨d, c.received ++ rs⟩, ws) := by
  rw [hrs, List.append_nil]
  exact keeps_lists h hd hnew

omit [LinearOrder δ] in
theorem traversed_flags {received : List (Response δ)} {d : DiscoverState (Position δ)}
    {filter : DiscoverFilter} {tab : DiscoverLocationTabState (Position δ)}
    (hcats : tab.cats = (d.tabFor filter).cats) (hnext : tab.nextCursor = (d.tabFor filter).nextCursor)
    (hanchor : tab.anchor = (d.tabFor filter).anchor) (f : DiscoverFilter)
    (ht : Traversed received f (d.tabFor f)) : Traversed received f ((d.setTab filter tab).tabFor f) := by
  rw [DiscoverState.tabFor_setTab]
  split
  · rename_i heq
    subst heq
    unfold Traversed at ht ⊢
    rw [hcats, hnext, hanchor]
    exact ht
  · exact ht

theorem load_keeps (h : Sound distance c) (filter : DiscoverFilter) :
    Keeps (Sound distance) (Pending distance) c
      (⟨(load c.discover filter).1, c.received⟩, (load c.discover filter).2) := by
  refine keeps_lists h (traversed_flags rfl rfl rfl) fun w hw => ?_
  rw [List.mem_singleton.mp hw]
  trivial

theorem call_keeps {i : Call} {t : Client δ × List (Waiting δ)} (h : Sound distance c)
    (hcall : (handlers distance).call c i = some t) :
    Keeps (Sound distance) (Pending distance) c t := by
  cases hcall
  cases i with
  | ensureLoaded filter =>
    simp only [call]
    split
    · exact keeps_lists h (fun _ ht => ht) (List.forall_mem_nil _)
    · exact load_keeps h filter
  | retry filter => exact load_keeps h filter
  | loadMore filter =>
    simp only [call]
    split
    · split
      · exact keeps_lists h (fun _ ht => ht) (List.forall_mem_nil _)
      · refine keeps_lists h (traversed_flags rfl rfl rfl) fun w hw => ?_
        rw [List.mem_singleton.mp hw]
        trivial
    · exact keeps_lists h (fun _ ht => ht) (List.forall_mem_nil _)
  | loadFollowing =>
    refine keeps_lists h (fun filter ht => ?_) fun w hw => ?_
    · cases filter <;> exact ht
    · rw [List.mem_singleton.mp hw]
      trivial

theorem resume_keeps {t : Client δ × List (Waiting δ)} (h : Sound distance c)
    (hw : Pending distance c w) (hguard : guard.answer c w r)
    (hresume : (handlers distance).resume c w r = some t) :
    Keeps (Sound distance) (Pending distance) c t := by
  obtain ⟨hcontinued, hanchored⟩ := hguard
  obtain ⟨u, hu, rfl⟩ := Option.map_eq_some_iff.mp hresume
  unfold resume at hu
  split at hu
  case h_1 filter outcome =>
    cases hu
    refine keeps_quiet h rfl (fun _ ht => ht) fun w hw => ?_
    rw [List.mem_singleton.mp hw]
    trivial
  case h_2 filter outcome cats | h_5 filter anchor cursor cats =>
    split at hu
    · rename_i hnodup
      cases hu
      refine keeps_quiet h rfl (fun _ ht => ht) fun w hw => ?_
      rw [List.mem_singleton.mp hw]
      exact ⟨cats, hnodup, rfl⟩
    · cases hu
  case h_3 filter outcome page =>
    cases hu
    refine keeps_tab h (.inr ⟨outcome.anchor, rfl, .first ?_⟩) (fun r hr => ?_) nofun
    · exact List.mem_append_right _ (List.mem_singleton_self _)
    · rw [List.mem_singleton.mp hr]
      exact hw
  case h_4 filter outcome page error =>
    cases hu
    refine keeps_tab h ?_ (by cases page <;> exact nofun) nofun
    rcases hanchored (filter, outcome.anchor) rfl with hsame | hnil
    · rcases h.traversed filter with hnil | ⟨anchor, hanchor, ht⟩
      · exact .inl hnil
      · rw [hsame] at hanchor
        cases hanchor
        exact .inr ⟨_, rfl, ht.mono fun r hr => List.mem_append_left _ hr⟩
    · exact .inl hnil
  case h_6 filter anchor cursor page =>
    cases hu
    obtain ⟨hanchor, hcursor⟩ := hcontinued (filter, anchor, cursor) rfl
    refine keeps_tab h ?_ (fun r hr => ?_) nofun
    · rcases h.traversed filter with ⟨-, hnone⟩ | ⟨anchor', hanchor', ht⟩
      · rw [hcursor] at hnone
        cases hnone
      · rw [hanchor] at hanchor'
        cases hanchor'
        rw [hcursor] at ht
        refine .inr ⟨anchor, hanchor, .more (ht.mono fun r hr => List.mem_append_left _ hr) ?_⟩
        exact List.mem_append_right _ (List.mem_singleton_self _)
    · rw [List.mem_singleton.mp hr]
      exact hw
  case h_7 filter anchor cursor page error =>
    cases hu
    exact keeps_quiet h (by cases page <;> rfl) (traversed_flags rfl rfl rfl) nofun
  case h_8 cats =>
    cases hu
    refine keeps_quiet h rfl (fun _ ht => ht) fun w hw => ?_
    rw [List.mem_singleton.mp hw]
    trivial
  case h_9 | h_10 =>
    cases hu
    refine keeps_quiet h rfl (fun filter ht => ?_) nofun
    cases filter <;> exact ht
  case h_11 => cases hu

end Invariant

/-- In every run of turns that the guard admits, each location tab shows one traversal throughout. -/
theorem tabs_consistent {distance : Point → UUID → δ} {es : List (Event Call Reply)}
    (h : Each (handlers distance).next guard.Admits ⟨{}, []⟩ es) :
    Always (handlers distance).next (fun l => Consistent l.state) ⟨{}, []⟩ es := by
  refine (Held.always (I := Sound distance) (J := Pending distance)
    (fun _ _ _ hc _ => call_keeps hc) (fun _ _ _ _ => resume_keeps) ?_ h).mono
    fun l hl => hl.state.consistent
  refine ⟨⟨fun filter => .inl ?_, nofun⟩, nofun⟩
  cases filter <;> exact ⟨rfl, rfl⟩

def apart (point : Point) (cat : UUID) : ℕ :=
  if point = istanbulFallback then cat else 10 - cat

/-- Two cats are loaded from the fallback point; a retry fails there. -/
theorem consistent_after_failure : Always (handlers apart).next (fun l => Consistent l.state) ⟨{}, []⟩
    [.call (.ensureLoaded .nearby), .answer 0 (.resolved .unavailable),
      .answer 0 (.read [⟨2, "Pamuk"⟩, ⟨1, "Duman"⟩]), .answer 0 .done,
      .call (.retry .nearby), .answer 0 (.resolved .permissionDenied), .answer 0 (.failed "offline")] :=
  tabs_consistent (by decide +kernel)

/-- What a tab with cats must have got: a response for its own anchor. -/
def Answered (c : Client δ) : Prop :=
  ∀ filter ∈ [DiscoverFilter.nearby, .needsHelp], (c.discover.tabFor filter).cats = [] ∨
    ∃ r ∈ c.received, (c.discover.tabFor filter).anchor = some r.anchor

instance : DecidablePred (Answered : Client δ → Prop) := fun _ =>
  inferInstanceAs (Decidable (∀ filter ∈ [DiscoverFilter.nearby, .needsHelp], _ ∨ _))

omit [LinearOrder δ] in
theorem Consistent.answered {c : Client δ} (h : Consistent c) : Answered c := by
  intro filter _
  rcases h.traversed filter with ⟨hnil, -⟩ | ⟨anchor, hanchor, ht⟩
  · exact .inl hnil
  · obtain ⟨page, hpage⟩ := ht.begun
    exact .inr ⟨_, hpage, hanchor⟩

/-- The position is known when the tab is loaded again and the request fails: the list from the
fallback point is said to be from there. -/
theorem list_of_another_anchor : ¬ Always (handlers apart).next (fun l => Consistent l.state) ⟨{}, []⟩
    [.call (.ensureLoaded .nearby), .answer 0 (.resolved .unavailable),
      .answer 0 (.read [⟨2, "Pamuk"⟩, ⟨1, "Duman"⟩]), .answer 0 .done,
      .call (.retry .nearby), .answer 0 (.resolved (.resolved ⟨41, 29⟩)),
      .answer 0 (.failed "offline")] :=
  fun h => not_always_of_test (P := fun l => Answered l.state) (by decide +kernel)
    (h.mono fun _ hl => hl.answered)

end Tekir.DiscoverTraversal
