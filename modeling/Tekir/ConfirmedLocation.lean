import Tekir.AddCat

/-!
# The location that a new cat is sent with

What the user has confirmed in the add-cat flow, kept beside the flow for the statement only.
-/
namespace Tekir.ConfirmedLocation
open Machine EventLoop AddCat
open Schema (UUID Point)

/-- Where the duplicates on screen are from: the location, and whether `confirmLocation` has found
them rather than `save`. -/
structure Shown where
  location : Point
  confirmed : Bool
  deriving DecidableEq

/-- A request, with what was confirmed when it was sent. -/
structure Sent where
  request : CreateRequest
  checked : Option Point
  continued : Option Point
  deriving DecidableEq

structure Client where
  flow : Flow := {}
  /-- Where the last check was run that has led to the details. -/
  checked : Option Point := none
  shown : Option Shown := none
  /-- The location whose duplicates the user has continued past in this attempt. -/
  continued : Option Point := none
  sent : List Sent := []
  deriving DecidableEq

/-- Where the check was run that leads to the details when the user continues. -/
def Client.continuedFrom (c : Client) : Option Point :=
  match c.shown with
  | none => c.checked
  | some s => if s.confirmed then some s.location else c.checked

/-- What a call confirms. -/
def observeCall (c : Client) : Call → Client
  | .start => { c with continued := none, shown := none }
  | .continueAsDifferent =>
    if c.flow.state.duplicates = [] then c
    else { c with
      continued := c.shown.map Shown.location, shown := none, checked := c.continuedFrom }
  | _ => c

/-- What an answer confirms. -/
def observeAnswer (c : Client) : Waiting → Reply → Client
  | .checking location, .nearby candidates =>
    if candidates.isEmpty then { c with checked := some location, shown := none }
    else { c with shown := some ⟨location, true⟩ }
  | .checking location, .failed _ => { c with checked := some location, shown := none }
  | .creating q none, .duplicates _ => { c with shown := some ⟨q.location, false⟩ }
  | _, _ => c

/-- The requests that a turn has sent. -/
def requests (c : Client) (ws : List Waiting) : List Sent :=
  ws.filterMap fun
    | .creating request none => some ⟨request, c.checked, c.continued⟩
    | _ => none

def handlers : Handlers Client Waiting Call Reply where
  call c i :=
    let t := call c.flow i
    some ({ observeCall c i with flow := t.1, sent := c.sent ++ requests c t.2 }, t.2)
  resume c w r := (resume c.flow w r).map fun t => ({ observeAnswer c w r with flow := t.1 }, t.2)

/-- Every request carries the location that was checked, and says that the cat is new only if the
user has continued past the duplicates shown for that location. -/
def Confirmed (c : Client) : Prop :=
  ∀ s ∈ c.sent, s.checked = some s.request.location ∧
    (s.request.confirmedNew = true → s.continued = some s.request.location)

instance : DecidablePred Confirmed := fun c =>
  inferInstanceAs (Decidable (∀ s ∈ c.sent, _ ∧ (_ = true → _)))

/-- The location that a call writes, other than `save`. -/
def located : Call → Option Point
  | .setLocation location => some location
  | _ => none

def continues : Call → Bool
  | .continueAsDifferent => true
  | _ => false

def saves : Call → Bool
  | .save => true
  | _ => false

/-- The location that an answer writes. -/
def resolvedTo : Waiting → Reply → Option Point
  | .resolving, .resolved center _ => some center
  | _, _ => none

/-- The location of a check that leads to the details. -/
def passed : Waiting → Reply → Option Point
  | .checking location, .nearby candidates => if candidates.isEmpty then some location else none
  | .checking location, .failed _ => some location
  | _, _ => none

/-- Unless the details are open, the location may change. -/
def MayMove (c : Client) (location : Point) : Prop :=
  c.flow.state.step = .details → c.flow.state.location = some location

instance (c : Client) (location : Point) : Decidable (MayMove c location) :=
  inferInstanceAs (Decidable (_ → _))

/-- The duplicates on screen are those of the present location. -/
def ShownHere (c : Client) : Prop :=
  c.flow.state.duplicates ≠ [] ∧ ∃ s ∈ c.shown, c.flow.state.location = some s.location ∧
    (s.confirmed = false → c.checked = some s.location)

instance (c : Client) : Decidable (ShownHere c) :=
  inferInstanceAs (Decidable (_ ∧ ∃ s ∈ c.shown, _))

/-- The location stays while the details are open. A check leads there for the present location,
and not with a confirmation that was given for another one. -/
def guard : Guard Client Waiting Call Reply where
  call c i := (∀ location ∈ located i, MayMove c location) ∧
    (continues i = true → ShownHere c) ∧ (saves i = true → c.flow.state.step = .details)
  answer c w r := (∀ location ∈ resolvedTo w r, MayMove c location) ∧
    ∀ location ∈ passed w r, c.flow.state.location = some location ∧
      (c.flow.state.confirmedNew = true → c.continued = some location)

instance (c : Client) (i : Call) : Decidable (guard.call c i) :=
  inferInstanceAs (Decidable ((∀ location ∈ located i, _) ∧ (_ = true → _) ∧ (_ = true → _)))

instance (c : Client) (w : Waiting) (r : Reply) : Decidable (guard.answer c w r) :=
  inferInstanceAs (Decidable ((∀ location ∈ resolvedTo w r, _) ∧ ∀ location ∈ passed w r, _))

section Invariant

variable {c c' : Client} {w : Waiting} {r : Reply} {i : Call} {t : Client × List Waiting}

/-- On the details the present location has been confirmed. -/
def Open (c : Client) : Prop :=
  c.flow.state.step = .details → ∃ location, c.flow.state.location = some location ∧
    c.checked = some location ∧ (c.flow.state.confirmedNew = true → c.continued = some location)

structure Sound (c : Client) : Prop where
  confirmed : Confirmed c
  details : Open c

def Pending (_ : Client) (_ : Waiting) : Prop :=
  True

theorem keeps {ws : List Waiting} (h : Sound c) (hsent : c'.sent = c.sent) (hopen : Open c') :
    Keeps Sound Pending c (c', ws) := by
  refine ⟨⟨?_, hopen⟩, fun _ _ => trivial, fun _ _ => trivial⟩
  rw [Confirmed, hsent]
  exact h.confirmed

/-- The location moves, or stays while the details are open. -/
theorem open_move {location : Point} {state : AddCatState} (h : Open c)
    (hmove : MayMove c location) (hstep : state.step = c.flow.state.step)
    (hlocation : state.location = some location)
    (hnew : state.confirmedNew = c.flow.state.confirmedNew) :
    Open { c with flow := { c.flow with state } } := by
  intro hdetails
  have hdetails' : c.flow.state.step = .details := hstep.symm.trans hdetails
  obtain ⟨location', hpresent, hchecked, hcontinued⟩ := h hdetails'
  obtain rfl : location' = location :=
    Option.some_inj.mp (hpresent.symm.trans (hmove hdetails'))
  exact ⟨location', hlocation, hchecked, fun htrue => hcontinued (hnew.symm.trans htrue)⟩

theorem submission_spec {f : Flow} {q : CreateRequest} (h : submission f = some q) :
    f.state.location = some q.location ∧ q.confirmedNew = f.state.confirmedNew := by
  obtain ⟨photo, -, h⟩ := Option.bind_eq_some_iff.mp h
  obtain ⟨location, hlocation, rfl⟩ := Option.map_eq_some_iff.mp h
  exact ⟨hlocation, rfl⟩

theorem call_keeps (h : Sound c) (hguard : guard.call c i) (hcall : handlers.call c i = some t) :
    Keeps Sound Pending c t := by
  obtain ⟨hlocated, hcontinues, hsaves⟩ := hguard
  cases hcall
  have hnil : ∀ sent : List Sent, sent ++ [] = sent := List.append_nil
  cases i with
  | start => exact keeps h (hnil _) nofun
  | useCurrentLocation => exact keeps h (hnil _) h.details
  | setLocation location =>
    exact keeps h (hnil _) (open_move h.details (hlocated location rfl) rfl rfl rfl)
  | confirmLocation =>
    simp only [AddCat.call]
    split
    · exact keeps h (hnil _) h.details
    · exact keeps h (hnil _) h.details
  | continueAsDifferent =>
    obtain ⟨hduplicates, s, hs, hlocation, hchecked⟩ := hcontinues rfl
    refine keeps h ?_ fun _ => ?_
    · rw [observeCall, if_neg hduplicates]
      exact hnil _
    · refine ⟨s.location, hlocation, ?_, fun _ => ?_⟩
      · simp only [observeCall, if_neg hduplicates, Client.continuedFrom, Option.mem_def.mp hs]
        cases hconfirmed : s.confirmed with
        | true => rfl
        | false => exact hchecked hconfirmed
      · simp only [observeCall, if_neg hduplicates, Option.mem_def.mp hs]
        rfl
  | backToLocation => exact keeps h (hnil _) nofun
  | setName value | pickPhoto photo => exact keeps h (hnil _) h.details
  | save =>
    simp only [AddCat.call]
    split
    · exact keeps h (hnil _) h.details
    · split
      · exact keeps h (hnil _) h.details
      · split
        · exact keeps h (hnil _) h.details
        · rename_i request hrequest
          obtain ⟨hlocation, hnew⟩ := submission_spec hrequest
          obtain ⟨location, hpresent, hchecked, hcontinued⟩ := h.details (hsaves rfl)
          obtain rfl : location = request.location :=
            Option.some_inj.mp (hpresent.symm.trans hlocation)
          refine ⟨⟨fun s hs => ?_, h.details⟩, fun _ _ => trivial, fun _ _ => trivial⟩
          rcases List.mem_append.mp hs with hs | hs
          · exact h.confirmed s hs
          · rw [List.mem_singleton.mp hs]
            exact ⟨hchecked, fun htrue => hcontinued (hnew.symm.trans htrue)⟩

theorem resume_keeps (h : Sound c) (hguard : guard.answer c w r)
    (hresume : handlers.resume c w r = some t) : Keeps Sound Pending c t := by
  obtain ⟨hresolved, hpassed⟩ := hguard
  obtain ⟨u, hu, rfl⟩ := Option.map_eq_some_iff.mp hresume
  unfold AddCat.resume at hu
  split at hu
  case h_1 center isFallback =>
    cases hu
    exact keeps h rfl (open_move h.details (hresolved center rfl) rfl rfl rfl)
  case h_2 location candidates =>
    cases hu
    cases hempty : candidates.isEmpty with
    | true =>
      obtain ⟨hpresent, hnew⟩ := hpassed location (by rw [passed, if_pos hempty]; rfl)
      refine keeps h ?_ fun _ => ⟨location, hpresent, ?_, ?_⟩
      · simp only [observeAnswer, hempty]
        rfl
      · simp only [observeAnswer, hempty]
        rfl
      · simp only [observeAnswer, hempty]
        exact hnew
    | false =>
      refine keeps h ?_ ?_
      · simp only [observeAnswer, hempty]
        rfl
      · simp only [observeAnswer, hempty]
        exact h.details
  case h_3 location error =>
    cases hu
    obtain ⟨hpresent, hnew⟩ := hpassed location rfl
    exact keeps h rfl fun _ => ⟨location, hpresent, rfl, hnew⟩
  case h_4 =>
    cases hu
    exact keeps h rfl h.details
  case h_5 =>
    cases hu
    exact keeps h rfl nofun
  case h_6 =>
    cases hu
    exact keeps h rfl nofun
  case h_7 q row error =>
    cases hu
    cases row <;> exact keeps h rfl h.details
  case h_8 => cases hu

end Invariant

/-- In every run of turns that the guard admits, every request is sent as it was confirmed. -/
theorem requests_confirmed {es : List (Event Call Reply)}
    (h : Each handlers.next guard.Admits ⟨{}, []⟩ es) :
    Always handlers.next (fun l => Confirmed l.state) ⟨{}, []⟩ es := by
  refine (Held.always (I := Sound) (J := Pending) (fun _ _ _ => call_keeps)
    (fun _ _ _ _ hc _ => resume_keeps hc) ?_ h).mono fun l hl => hl.state.confirmed
  exact ⟨⟨nofun, nofun⟩, nofun⟩

def kadikoy : Point := ⟨41, 29⟩

def photo : Photo := ⟨"jpeg", "kedi.jpg"⟩

/-- The user pans to the place, continues past its duplicates and saves. -/
theorem confirmed_past_duplicates : Always handlers.next (fun l => Confirmed l.state) ⟨{}, []⟩
    [.call .start, .answer 0 (.resolved ⟨40, 28⟩ true), .call (.setLocation kadikoy),
      .call .confirmLocation, .answer 0 (.nearby [7]), .call .continueAsDifferent,
      .call (.pickPhoto photo), .call .save] :=
  requests_confirmed (by decide)

/-- The location is confirmed while the position is still being resolved. -/
theorem unconfirmed_location : ¬ Always handlers.next (fun l => Confirmed l.state) ⟨{}, []⟩
    [.call .start, .call (.setLocation kadikoy), .call .confirmLocation, .answer 1 (.nearby []),
      .call (.pickPhoto photo), .answer 0 (.resolved ⟨40, 28⟩ false), .call .save] :=
  not_always_of_test (by decide)

end Tekir.ConfirmedLocation
