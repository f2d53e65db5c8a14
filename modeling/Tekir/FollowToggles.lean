import Mathlib.Data.List.Induction
import Tekir.EventLoop

/-!
# Follow toggles

`FollowsNotifier` within one session, over the account's follows on the server. The server
serves the requests in the order in which they were issued; the answers come in any order.
-/
namespace Tekir.FollowToggles
open Machine EventLoop

abbrev CatId := String

/-- A follow or an unfollow, and whether its answer has come. -/
structure Request where
  catId : CatId
  follows : Bool
  answered : Bool := false
  deriving DecidableEq

namespace Request

/-- To follow a followed cat, or to unfollow another, changes nothing. -/
def serve (followed : List CatId) (r : Request) : List CatId :=
  if r.follows then followed.insert r.catId else followed.filter (· != r.catId)

def answer (r : Request) : Request :=
  { r with answered := true }

end Request

structure Follows where
  /-- What the account follows when the session begins. -/
  initially : List CatId
  /-- The `AsyncValue` of the notifier. -/
  value : Option (List CatId) := none
  isLoading : Bool := true
  /-- Issued so far, the oldest first. -/
  requests : List Request := []
  served : ℕ := 0
  deriving DecidableEq

namespace Follows

/-- The account's follows on the server. -/
def followed (f : Follows) : List CatId :=
  (f.requests.take f.served).foldl Request.serve f.initially

/-- What the server will hold once it has served every request issued. -/
def requested (f : Follows) : List CatId :=
  f.requests.foldl Request.serve f.initially

/-- Whether a toggle of the cat waits for its answer. -/
def toggling (f : Follows) (catId : CatId) : Bool :=
  f.requests.any fun r => r.catId == catId && !r.answered

/-- Whether the latest toggle of the cat follows it. -/
def latest (f : Follows) (catId : CatId) : Option Bool :=
  ((f.requests.filter (·.catId == catId)).getLast?).map Request.follows

def answered (f : Follows) (request : ℕ) : Follows :=
  { f with requests := f.requests.modify request Request.answer }

end Follows

inductive Waiting
  /-- The initial load, and what the server has read for it. -/
  | load (read : Option (List CatId))
  | toggle (request : ℕ) (catId : CatId) (current : List CatId)
  deriving DecidableEq

inductive Call
  | toggle (catId : CatId)
  /-- The server serves the next request. -/
  | serve

inductive Reply
  /-- The server reads the account's follows. -/
  | read
  | done
  | failed
  deriving DecidableEq

/-- The set that a toggle writes back. -/
def toggled (catId : CatId) (current : List CatId) : List CatId :=
  if current.contains catId then current.filter (· != catId) else current ++ [catId]

def call (f : Follows) : Call → Option (Follows × List Waiting)
  | .toggle catId =>
    let current := f.value.getD []
    some ({ f with requests := f.requests ++ [{ catId, follows := !current.contains catId }] },
      [.toggle f.requests.length catId current])
  | .serve => if f.served < f.requests.length then some ({ f with served := f.served + 1 }, []) else none

/-- Every toggle succeeds; a load that fails leaves the empty set. -/
def resume (f : Follows) : Waiting → Reply → Option (Follows × List Waiting)
  | .load none, .read => some (f, [.load (some f.followed)])
  | .load (some cats), .done => some ({ f with value := some cats, isLoading := false }, [])
  | .load _, .failed => some ({ f with value := some [], isLoading := false }, [])
  | .toggle request catId current, .done =>
    if request < f.served then
      some ({ f.answered request with value := some (toggled catId current) }, [])
    else none
  | _, _ => none

def handlers : Handlers Follows Waiting Call Reply where
  call := call
  resume := resume

def start (initially : List CatId) : Loop Follows Waiting :=
  ⟨{ initially }, [.load none]⟩

/-- Two lists of cats that stand for one set. -/
def SameSet (cats cats' : List CatId) : Prop :=
  (∀ c ∈ cats, c ∈ cats') ∧ ∀ c ∈ cats', c ∈ cats

instance (cats cats' : List CatId) : Decidable (SameSet cats cats') :=
  inferInstanceAs (Decidable (_ ∧ _))

/-- With no call in flight the notifier shows what the server holds. -/
def InStep (l : Loop Follows Waiting) : Prop :=
  l.waiting = [] → SameSet (l.state.value.getD []) l.state.followed

instance : DecidablePred InStep := fun _ => inferInstanceAs (Decidable (_ → _))

/-- The cats of both lists of which no toggle is in flight are the same. -/
def SameApart (f : Follows) (apart : List CatId) (cats cats' : List CatId) : Prop :=
  ∀ c ∈ cats ++ cats', c ∉ apart → f.toggling c = false → (c ∈ cats ↔ c ∈ cats')

instance (f : Follows) (apart cats cats' : List CatId) : Decidable (SameApart f apart cats cats') :=
  inferInstanceAs (Decidable (∀ c ∈ cats ++ cats', _))

/-- What a load writes. -/
def loaded : Waiting → Reply → Option (List CatId)
  | .load (some cats), .done => some cats
  | .load _, .failed => some []
  | _, _ => none

/-- The toggle that is answered: its number, its cat and the set it has captured. -/
def toggleDone : Waiting → Reply → Option (ℕ × CatId × List CatId)
  | .toggle request catId current, .done => some (request, catId, current)
  | _, _ => none

/-- A load brings what the requests so far amount to. A toggle has kept up with the other cats,
and the last toggle of a cat to be answered is of the kind of the last to be issued. -/
def Timely (f : Follows) (w : Waiting) (r : Reply) : Prop :=
  (∀ cats ∈ loaded w r, SameApart f [] cats f.requested) ∧
    ∀ t ∈ toggleDone w r, f.isLoading = false →
      SameApart f [t.2.1] t.2.2 (f.value.getD []) ∧
        ((f.answered t.1).toggling t.2.1 = false → f.latest t.2.1 = some (!t.2.2.contains t.2.1))

instance (f : Follows) (w : Waiting) (r : Reply) : Decidable (Timely f w r) :=
  inferInstanceAs (Decidable ((∀ cats ∈ loaded w r, _) ∧ ∀ t ∈ toggleDone w r, _))

def guard : Guard Follows Waiting Call Reply where
  answer := Timely

instance (f : Follows) (i : Call) : Decidable (guard.call f i) := isTrue trivial

instance (f : Follows) (w : Waiting) (r : Reply) : Decidable (guard.answer f w r) :=
  inferInstanceAs (Decidable (Timely f w r))

section Requests

variable {f : Follows} {q : Request} {catId d : CatId} {followed : List CatId} {n : ℕ}

theorem mem_serve :
    d ∈ Request.serve followed q ↔ if q.catId = d then q.follows = true else d ∈ followed := by
  unfold Request.serve
  by_cases h : q.catId = d
  · subst h
    cases q.follows <;> simp
  · have hne : d ≠ q.catId := fun heq => h heq.symm
    cases q.follows <;> simp [h, hne]

/-- The latest request of a cat settles it. -/
theorem mem_requested :
    d ∈ f.requested ↔ (f.latest d).getD (decide (d ∈ f.initially)) = true := by
  unfold Follows.requested Follows.latest
  induction f.requests using List.reverseRecOn with
  | nil => simp
  | append_singleton qs q ih =>
    rw [List.foldl_append, List.foldl_cons, List.foldl_nil, mem_serve, List.filter_append]
    by_cases h : q.catId = d
    · simp [h]
    · simp [h, ih]

theorem foldl_answer (l : List Request) (n : ℕ) :
    (l.modify n Request.answer).foldl Request.serve followed = l.foldl Request.serve followed := by
  induction l generalizing n followed with
  | nil => simp
  | cons q l ih =>
    cases n with
    | zero => rfl
    | succ n => exact ih n

@[simp] theorem requested_answered (n : ℕ) : (f.answered n).requested = f.requested :=
  foldl_answer f.requests n

theorem toggling_eq_false :
    f.toggling d = false ↔ ∀ q ∈ f.requests, q.catId = d → q.answered = true := by
  simp [Follows.toggling]

/-- An answer to one cat's toggle leaves the toggles of another. -/
theorem toggling_of_answered (hn : (f.requests[n]?).map Request.catId = some catId) (hd : d ≠ catId)
    (h : (f.answered n).toggling d = false) : f.toggling d = false := by
  rw [toggling_eq_false] at h ⊢
  intro q hq hcat
  obtain ⟨m, hm⟩ := List.mem_iff_getElem?.mp hq
  refine h q (List.mem_of_getElem? (i := m) ?_) hcat
  have hne : n ≠ m := by
    rintro rfl
    rw [hm] at hn
    exact hd (hcat.symm.trans (Option.some_inj.mp hn))
  rw [Follows.answered, List.getElem?_modify, hm]
  simp [hne]

end Requests

section Invariant

variable {f f' : Follows} {w : Waiting} {r : Reply} {i : Call} {t : Follows × List Waiting}

structure Sound (f : Follows) : Prop where
  served : ∀ n q, f.requests[n]? = some q → q.answered = true → n < f.served
  kept : f.isLoading = false → ∀ c, f.toggling c = false →
    (c ∈ f.value.getD [] ↔ c ∈ f.requested)

/-- A toggle that waits has issued the request that it stands for. -/
def Issued (f : Follows) : Waiting → Prop
  | .load _ => True
  | .toggle request catId _ => (f.requests[request]?).map Request.catId = some catId

theorem SameApart.mem {apart cats cats' : List CatId} (h : SameApart f apart cats cats') {c : CatId}
    (hc : c ∉ apart) (htoggling : f.toggling c = false) : c ∈ cats ↔ c ∈ cats' := by
  by_cases hmem : c ∈ cats ++ cats'
  · exact h c hmem hc htoggling
  · rw [List.mem_append, not_or] at hmem
    exact ⟨fun hin => absurd hin hmem.1, fun hin => absurd hin hmem.2⟩

theorem mem_toggled {catId d : CatId} {current : List CatId} :
    d ∈ toggled catId current ↔ if d = catId then catId ∉ current else d ∈ current := by
  unfold toggled
  by_cases hin : catId ∈ current <;> by_cases hd : d = catId <;> simp [hin, hd]

theorem call_keeps (h : Sound f) (hcall : call f i = some t) : Keeps Sound Issued f t := by
  cases i with
  | toggle catId =>
    cases hcall
    refine ⟨⟨fun n q hn hq => ?_, fun hloading c hc => ?_⟩, fun w hw => ?_, fun w hw => ?_⟩
    · rw [List.getElem?_append] at hn
      split at hn
      · exact h.served n q hn hq
      · -- the request that is new has no answer yet
        obtain rfl := List.mem_singleton.mp (List.mem_of_getElem? hn)
        cases hq
    · rw [toggling_eq_false] at hc
      have hne : c ≠ catId := by
        rintro rfl
        cases hc _ (List.mem_append_right _ (List.mem_singleton_self _)) rfl
      have hbefore := h.kept hloading c
        (toggling_eq_false.mpr fun q hq => hc q (List.mem_append_left _ hq))
      refine hbefore.trans ?_
      simp only [Follows.requested, List.foldl_append, List.foldl_cons, List.foldl_nil, mem_serve]
      rw [if_neg (fun heq => hne heq.symm)]
    · cases w with
      | load read => trivial
      | toggle request catId' current =>
        obtain ⟨q, hq, hcat⟩ := Option.map_eq_some_iff.mp hw
        have hlt := (List.getElem?_eq_some_iff.mp hq).1
        exact Option.map_eq_some_iff.mpr ⟨q, (List.getElem?_append_left hlt).trans hq, hcat⟩
    · rw [List.mem_singleton.mp hw]
      simp [Issued]
  | serve =>
    simp only [call] at hcall
    split at hcall
    · cases hcall
      exact ⟨⟨fun n q hn hq => Nat.lt_succ_of_lt (h.served n q hn hq), h.kept⟩, fun w hw => hw,
        by simp⟩
    · cases hcall

/-- A load that is written holds what has been requested. -/
theorem load_keeps {cats : List CatId} (h : Sound f) (hcats : SameApart f [] cats f.requested) :
    Keeps Sound Issued f ({ f with value := some cats, isLoading := false }, []) :=
  ⟨⟨h.served, fun _ c hc => hcats.mem List.not_mem_nil hc⟩, fun w hw => hw, by simp⟩

theorem toggle_keeps {request : ℕ} {catId : CatId} {current : List CatId} (h : Sound f)
    (hw : Issued f (.toggle request catId current)) (hserved : request < f.served)
    (hguard : f.isLoading = false → SameApart f [catId] current (f.value.getD []) ∧
      ((f.answered request).toggling catId = false → f.latest catId = some (!current.contains catId))) :
    Keeps Sound Issued f
      ({ f.answered request with value := some (toggled catId current) }, []) := by
  refine ⟨⟨fun n q hn hq => ?_, fun hloading c hc => ?_⟩, fun w hw' => ?_, by simp⟩
  · by_cases heq : request = n
    · exact heq ▸ hserved
    · refine h.served n q ?_ hq
      simpa [Follows.answered, List.getElem?_modify, heq] using hn
  · obtain ⟨hsame, hlatest⟩ := hguard hloading
    change c ∈ toggled catId current ↔ c ∈ (f.answered request).requested
    rw [requested_answered, mem_toggled]
    by_cases hcat : c = catId
    · subst hcat
      rw [if_pos rfl, mem_requested, hlatest hc]
      simp
    · have htoggling := toggling_of_answered hw hcat hc
      rw [if_neg hcat, hsame.mem (by simpa using hcat) htoggling]
      exact h.kept hloading c htoggling
  · cases w with
    | load read => trivial
    | toggle n catId' current' =>
      obtain ⟨q, hq, hcat⟩ := Option.map_eq_some_iff.mp hw'
      change ((f.requests.modify request Request.answer)[n]?).map Request.catId = some catId'
      rw [List.getElem?_modify, hq]
      by_cases heq : request = n <;> simp [heq, hcat, Request.answer]

theorem resume_keeps (h : Sound f) (hw : Issued f w) (hguard : Timely f w r)
    (hresume : resume f w r = some t) : Keeps Sound Issued f t := by
  unfold resume at hresume
  split at hresume
  case h_1 =>
    cases hresume
    exact ⟨h, fun w hw => hw, by simp [Issued]⟩
  case h_2 cats =>
    cases hresume
    exact load_keeps h (hguard.1 cats rfl)
  case h_3 read =>
    cases hresume
    exact load_keeps h (hguard.1 [] (by cases read <;> rfl))
  case h_4 request catId current =>
    split at hresume
    · rename_i hserved
      cases hresume
      exact toggle_keeps h hw hserved (hguard.2 _ rfl)
    · cases hresume
  case h_5 => cases hresume

/-- The initial load, or a toggle, that has no answer yet. -/
def Owes (f : Follows) : Option ℕ → Prop
  | none => f.isLoading = true
  | some n => ∃ q, f.requests[n]? = some q ∧ q.answered = false

def tag : Waiting → Option ℕ
  | .load _ => none
  | .toggle request _ _ => some request

theorem call_owes (hcall : call f i = some t) (k : Option ℕ) (hk : Owes t.1 k) :
    Owes f k ∨ ∃ w ∈ t.2, tag w = k := by
  cases i with
  | toggle catId =>
    cases hcall
    cases k with
    | none => exact .inl hk
    | some n =>
      obtain ⟨q, hq, hanswered⟩ := hk
      by_cases hn : n < f.requests.length
      · rw [List.getElem?_append_left hn] at hq
        exact .inl ⟨q, hq, hanswered⟩
      · have hlt := (List.getElem?_eq_some_iff.mp hq).1
        simp only [List.length_append, List.length_singleton] at hlt
        obtain rfl : n = f.requests.length := by omega
        exact .inr ⟨_, List.mem_singleton_self _, rfl⟩
  | serve =>
    simp only [call] at hcall
    split at hcall
    · cases hcall
      exact .inl (by cases k <;> exact hk)
    · cases hcall

theorem resume_owes (hresume : resume f w r = some t) (k : Option ℕ) (hk : Owes t.1 k) :
    (Owes f k ∧ tag w ≠ k) ∨ ∃ w' ∈ t.2, tag w' = k := by
  unfold resume at hresume
  split at hresume
  case h_1 =>
    cases hresume
    cases k with
    | none => exact .inr ⟨_, List.mem_singleton_self _, rfl⟩
    | some n => exact .inl ⟨hk, nofun⟩
  case h_2 | h_3 =>
    cases hresume
    cases k with
    | none => cases hk
    | some n => exact .inl ⟨hk, nofun⟩
  case h_4 request catId current =>
    split at hresume
    · cases hresume
      refine .inl ?_
      cases k with
      | none => exact ⟨hk, nofun⟩
      | some n =>
        obtain ⟨q, hq, hanswered⟩ := hk
        have hne : request ≠ n := by
          rintro rfl
          simp only [Follows.answered, List.getElem?_modify, if_true] at hq
          obtain ⟨q', -, rfl⟩ := Option.map_eq_some_iff.mp hq
          cases hanswered
        refine ⟨⟨q, ?_, hanswered⟩, fun heq => hne (Option.some_inj.mp heq)⟩
        simpa [Follows.answered, List.getElem?_modify, hne] using hq
    · cases hresume
  case h_5 => cases hresume

theorem inStep_of {l : Loop Follows Waiting} (h : Sound l.state) (howed : Owed Owes tag l) :
    InStep l := by
  intro hempty
  have hnone : ∀ k, ¬ Owes l.state k := by
    intro k hk
    obtain ⟨w, hw, -⟩ := howed k hk
    rw [hempty] at hw
    cases hw
  have hloaded : l.state.isLoading = false := Bool.eq_false_iff.mpr (hnone none)
  have hanswered : ∀ (n : ℕ) (q : Request), l.state.requests[n]? = some q → q.answered = true := by
    intro n q hq
    by_contra hfalse
    exact hnone (some n) ⟨q, hq, Bool.eq_false_iff.mpr hfalse⟩
  have hserved : l.state.requests.length ≤ l.state.served := by
    by_contra hlt
    have hget := List.getElem?_eq_getElem (Nat.lt_of_not_le hlt)
    exact Nat.lt_irrefl _ (h.served _ _ hget (hanswered _ _ hget))
  have hrequested : l.state.followed = l.state.requested := by
    rw [Follows.followed, List.take_of_length_le hserved, Follows.requested]
  have hsame : ∀ c, c ∈ l.state.value.getD [] ↔ c ∈ l.state.followed := by
    intro c
    rw [hrequested]
    refine h.kept hloaded c (toggling_eq_false.mpr fun q hq _ => ?_)
    obtain ⟨n, hn⟩ := List.mem_iff_getElem?.mp hq
    exact hanswered n q hn
  exact ⟨fun c hc => (hsame c).mp hc, fun c hc => (hsame c).mpr hc⟩

end Invariant

/-- In every run of timely answers, the notifier shows the account's follows whenever no call is
in flight. -/
theorem in_step {initially : List CatId} {es : List (Event Call Reply)}
    (h : Each handlers.next guard.Admits (start initially) es) :
    Always handlers.next InStep (start initially) es := by
  have hsound : Always handlers.next (Held Sound Issued) (start initially) es := by
    refine Held.always (fun _ _ _ hs _ => call_keeps hs) (fun _ _ _ _ => resume_keeps) ?_ h
    refine ⟨⟨nofun, nofun⟩, fun w hw => ?_⟩
    rw [List.mem_singleton.mp hw]
    trivial
  have howed : Always handlers.next (Owed Owes tag) (start initially) es := by
    refine Owed.always (fun _ _ _ _ _ => call_owes) (fun _ _ _ _ _ _ _ => resume_owes)
      (fun k hk => ?_) hsound h
    cases k with
    | none => exact ⟨_, List.mem_singleton_self _, rfl⟩
    | some n =>
      obtain ⟨q, hq, -⟩ := hk
      cases hq
  exact (hsound.and howed).mono fun l hl => inStep_of hl.1.state hl.2

/-- The button is pressed twice before the first answer, and the second answer is the first. -/
theorem in_step_when_pressed_twice : Always handlers.next InStep (start ["pamuk"])
    [.answer 0 .read, .answer 0 .done, .call (.toggle "duman"), .call (.toggle "duman"),
      .call .serve, .call .serve, .answer 1 .done, .answer 0 .done] :=
  in_step (by decide)

/-- Two cats are followed at once; each answer writes the set from before, with its own cat. -/
theorem first_of_two_follows_lost : ¬ Always handlers.next InStep (start [])
    [.answer 0 .read, .answer 0 .done, .call (.toggle "pamuk"), .call (.toggle "duman"),
      .call .serve, .call .serve, .answer 0 .done, .answer 0 .done] :=
  not_always_of_test (by decide)

end Tekir.FollowToggles
