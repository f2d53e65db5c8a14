import Tekir.UpdateComposer

/-!
# What a reported success has published

The submissions that the composer and the add-cat flow have reported as successful, kept beside the
flows for the statement only, and the rows that the server holds for them.
-/
namespace Tekir.PublishedSubmissions
open Machine EventLoop KeyedRows
open Schema (UUID Status Point)

namespace Updates
open UpdateComposer

structure Client where
  flow : Flow := {}
  reported : List (Draft × ℕ) := []
  deriving DecidableEq

/-- The success that an answer makes `submit` report. -/
def success : Waiting → Reply → Option (Draft × ℕ)
  | .creating d _ (some row), .done => some (d, row)
  | _, _ => none

def handlers : Handlers Client Waiting Call Reply where
  call c i := some ({ c with flow := (call c.flow i).1 }, (call c.flow i).2)
  resume c w r := (resume c.flow w r).map fun t =>
    (⟨t.1, c.reported ++ (success w r).toList⟩, t.2)

/-- The media of a draft is the one that the update refers to. -/
def Attached (media : List ((UUID × ℕ) × Media)) : Option Media → Option ℕ → Prop
  | none, none => True
  | some m, some mediaId => At media mediaId (· = m)
  | _, _ => False

instance {media : List ((UUID × ℕ) × Media)} :
    (m : Option Media) → (mediaId : Option ℕ) → Decidable (Attached media m mediaId)
  | none, none => inferInstanceAs (Decidable True)
  | some m, some mediaId => inferInstanceAs (Decidable (At media mediaId (· = m)))
  | none, some _ => inferInstanceAs (Decidable False)
  | some _, none => inferInstanceAs (Decidable False)

structure Publishes (media : List ((UUID × ℕ) × Media)) (d : Draft) (u : Update) : Prop where
  statuses : u.statuses.Perm d.statuses
  needsHelp : u.needsHelp = d.needsHelp
  comment : u.comment = d.comment
  media : Attached media d.media u.mediaId

instance {media : List ((UUID × ℕ) × Media)} {d : Draft} : DecidablePred (Publishes media d) :=
  fun u => decidable_of_iff
    (u.statuses.Perm d.statuses ∧ u.needsHelp = d.needsHelp ∧ u.comment = d.comment ∧
      Attached media d.media u.mediaId)
    ⟨fun ⟨h₁, h₂, h₃, h₄⟩ => ⟨h₁, h₂, h₃, h₄⟩, fun h => ⟨h.1, h.2, h.3, h.4⟩⟩

/-- For every success the server holds an update that is the submission. -/
def Published (c : Client) : Prop :=
  ∀ s ∈ c.reported, At c.flow.updates s.2 (Publishes c.flow.media s.1)

instance : DecidablePred Published := fun c =>
  inferInstanceAs (Decidable (∀ s ∈ c.reported, At c.flow.updates s.2 _))

def uploaded : Waiting → Reply → Option (UploadRequest × UUID)
  | .uploading _ q none, .stored account => some (q, account)
  | _, _ => none

def created : Waiting → Reply → Option (Draft × ℕ × UUID)
  | .creating d q none, .stored account => some (d, q.idempotencyKey, account)
  | _, _ => none

/-- A row that the server has already for the account and the key of a request is what the request
asks for. -/
def guard : Guard Client Waiting Call Reply where
  answer c w r :=
    (∀ t ∈ uploaded w r, Only c.flow.media (t.2, t.1.idempotencyKey) (· = t.1.media)) ∧
    ∀ t ∈ created w r, Only c.flow.updates (t.2.2, t.2.1) (Publishes c.flow.media t.1)

instance (c : Client) (i : Call) : Decidable (guard.call c i) :=
  inferInstanceAs (Decidable True)

instance (c : Client) (w : Waiting) (r : Reply) : Decidable (guard.answer c w r) :=
  inferInstanceAs (Decidable ((∀ t ∈ uploaded w r, Only c.flow.media _ _) ∧
    ∀ t ∈ created w r, Only c.flow.updates _ _))

section Invariant

variable {c c' : Client} {w : Waiting} {r : Reply} {i : Call} {t : Client × List Waiting}

/-- What waits has the submission as it was made. -/
def Faithful (c : Client) : Waiting → Prop
  | .uploading d q none => d.media = some q.media
  | .uploading d _ (some row) => Attached c.flow.media d.media (some row)
  | .initializing d mediaId => Attached c.flow.media d.media mediaId
  | .creating d q none => q.statuses = d.statuses ∧ q.needsHelp = d.needsHelp ∧
      q.comment = d.comment ∧ Attached c.flow.media d.media q.mediaId
  | .creating d _ (some row) => At c.flow.updates row (Publishes c.flow.media d)
  | .picking _ | .loggingOut => True

/-- The server only gains rows. -/
structure Grows (f f' : Flow) : Prop where
  media : f.media <+: f'.media
  updates : f.updates <+: f'.updates

theorem Grows.refl (f : Flow) : Grows f f :=
  ⟨List.prefix_refl _, List.prefix_refl _⟩

theorem Attached.mono {media media' : List ((UUID × ℕ) × Media)} (h : media <+: media')
    {m : Option Media} {mediaId : Option ℕ} (ha : Attached media m mediaId) :
    Attached media' m mediaId := by
  cases m with
  | none => cases mediaId <;> exact ha
  | some m =>
    cases mediaId with
    | none => exact ha
    | some mediaId => exact At.mono (Q := (· = m)) h (fun _ hq => hq) ha

theorem Publishes.mono {media media' : List ((UUID × ℕ) × Media)} (h : media <+: media')
    {d : Draft} {u : Update} (hu : Publishes media d u) : Publishes media' d u :=
  { hu with media := hu.media.mono h }

theorem Faithful.mono (h : Grows c.flow c'.flow) (hw : Faithful c w) : Faithful c' w := by
  cases w with
  | picking _ | loggingOut => trivial
  | uploading d q row =>
    cases row with
    | none => exact hw
    | some row => exact Attached.mono h.media hw
  | initializing d mediaId => exact Attached.mono h.media hw
  | creating d q row =>
    cases row with
    | none => exact ⟨hw.1, hw.2.1, hw.2.2.1, hw.2.2.2.mono h.media⟩
    | some row => exact At.mono h.updates (fun _ hu => hu.mono h.media) hw

theorem keeps {ws : List Waiting} (h : Published c) (hgrows : Grows c.flow c'.flow)
    (hreported : c'.reported = c.reported) (hnew : ∀ w ∈ ws, Faithful c' w) :
    Keeps Published Faithful c (c', ws) := by
  refine ⟨fun s hs => ?_, fun w hw => hw.mono hgrows, hnew⟩
  rw [hreported] at hs
  exact At.mono hgrows.updates (fun _ hu => hu.mono hgrows.media) (h s hs)

/-- A turn leaves the server's rows, and what waits then has its submission. -/
structure Turn (f : Flow) (t : Flow × List Waiting) : Prop where
  grows : Grows f t.1
  new : ∀ c : Client, ∀ w ∈ t.2, Faithful c w

theorem turn_of_nil {f f' : Flow} (hmedia : f'.media = f.media) (hupdates : f'.updates = f.updates) :
    Turn f (f', []) :=
  ⟨⟨hmedia ▸ List.prefix_refl _, hupdates ▸ List.prefix_refl _⟩, fun _ => List.forall_mem_nil _⟩

theorem turn_of_singleton {f f' : Flow} (hmedia : f'.media = f.media)
    (hupdates : f'.updates = f.updates) (hw : ∀ c : Client, Faithful c w) : Turn f (f', [w]) :=
  ⟨⟨hmedia ▸ List.prefix_refl _, hupdates ▸ List.prefix_refl _⟩,
    fun c => List.forall_mem_singleton.mpr (hw c)⟩

theorem failed_spec (f : Flow) (e : UpdateSubmitError) : Turn f (failed f e) := by
  cases e
  case unauthorized => exact turn_of_singleton rfl rfl fun _ => trivial
  all_goals exact turn_of_nil rfl rfl

theorem submit_spec (f : Flow) (signedIn : Bool) : Turn f (submit f signedIn) := by
  rw [submit]
  dsimp only
  split
  · exact turn_of_nil rfl rfl
  · split
    · exact turn_of_nil rfl rfl
    · split
      · exact turn_of_nil rfl rfl
      · split
        case h_1 hmedia =>
          refine turn_of_singleton rfl rfl fun c => ?_
          rw [Faithful, draft, show f.state.media = none from hmedia]
          trivial
        case h_2 m hmedia =>
          refine turn_of_singleton rfl rfl fun c => ?_
          rw [Faithful, draft, show f.state.media = some m from hmedia]
          rfl

theorem call_spec (f : Flow) (i : Call) : Turn f (call f i) := by
  cases i with
  | submit signedIn => exact submit_spec f signedIn
  | pick =>
    rw [call]
    split
    · exact turn_of_nil rfl rfl
    · exact turn_of_singleton rfl rfl fun _ => trivial
  | setComment value | discardInFlightMediaPick => exact turn_of_nil rfl rfl
  | toggleStatus status | toggleNeedsHelp | removeMedia | toggleMuted =>
    rw [call]
    split
    · exact turn_of_nil rfl rfl
    · exact turn_of_nil rfl rfl
  | reset =>
    rw [call]
    split
    · exact turn_of_nil rfl rfl
    · split
      · exact turn_of_nil rfl rfl
      · exact turn_of_nil rfl rfl

theorem call_keeps (h : Published c) (hcall : handlers.call c i = some t) :
    Keeps Published Faithful c t := by
  cases hcall
  have hturn := call_spec c.flow i
  exact keeps h hturn.grows rfl (hturn.new _)

theorem resume_keeps (h : Published c) (hw : Faithful c w) (hguard : guard.answer c w r)
    (hresume : handlers.resume c w r = some t) : Keeps Published Faithful c t := by
  obtain ⟨huploaded, hcreated⟩ := hguard
  obtain ⟨u, hu, rfl⟩ := Option.map_eq_some_iff.mp hresume
  have hnil : c.reported ++ [] = c.reported := List.append_nil _
  unfold UpdateComposer.resume at hu
  split at hu
  case h_1 generation media =>
    cases hu
    refine keeps h ?_ hnil nofun
    unfold setPickedMedia
    split
    · exact ⟨List.prefix_refl _, List.prefix_refl _⟩
    · exact Grows.refl _
  case h_2 =>
    cases hu
    exact keeps h (Grows.refl _) hnil nofun
  case h_3 d q account =>
    cases hu
    refine keeps h ⟨prefix_answer, List.prefix_refl _⟩ hnil fun w hw' => ?_
    rw [List.mem_singleton.mp hw', Faithful, show d.media = some q.media from hw]
    exact at_answer (Q := (· = q.media)) rfl (huploaded _ rfl)
  case h_4 d q row =>
    cases hu
    refine keeps h (Grows.refl _) hnil fun w hw' => ?_
    rw [List.mem_singleton.mp hw']
    exact hw
  case h_5 error =>
    cases hu
    have hturn := failed_spec c.flow error
    exact keeps h hturn.grows (by cases ‹Option ℕ› <;> exact hnil) (hturn.new _)
  case h_6 d mediaId =>
    cases hu
    refine keeps h (Grows.refl _) hnil fun w hw' => ?_
    rw [List.mem_singleton.mp hw']
    exact ⟨rfl, rfl, rfl, hw⟩
  case h_7 error =>
    cases hu
    have hturn := failed_spec c.flow error
    exact keeps h hturn.grows hnil (hturn.new _)
  case h_8 d q account =>
    cases hu
    obtain ⟨hstatuses, hhelp, hcomment, hmedia⟩ := hw
    refine keeps h ⟨List.prefix_refl _, prefix_answer⟩ hnil fun w hw' => ?_
    rw [List.mem_singleton.mp hw']
    refine at_answer ⟨?_, hhelp, hcomment, hmedia⟩ (hcreated _ rfl)
    exact hstatuses ▸ List.perm_insertionSort _ _
  case h_9 d q row =>
    cases hu
    refine ⟨fun s hs => ?_, fun w hw' => hw'.mono (Grows.refl _), nofun⟩
    rcases List.mem_append.mp hs with hs | hs
    · exact h s hs
    · rw [List.mem_singleton.mp hs]
      exact hw
  case h_10 error =>
    cases hu
    have hturn := failed_spec c.flow error
    exact keeps h hturn.grows (by cases ‹Option ℕ› <;> exact hnil) (hturn.new _)
  case h_11 =>
    cases hu
    exact keeps h ⟨List.prefix_refl _, List.prefix_refl _⟩ hnil nofun
  case h_12 => cases hu

theorem published {es : List (Event Call Reply)}
    (h : Each handlers.next guard.Admits ⟨{}, []⟩ es) :
    Always handlers.next (fun l => Published l.state) ⟨{}, []⟩ es := by
  refine (Held.always (I := Published) (J := Faithful) (fun _ _ _ hc _ => call_keeps hc)
    (fun _ _ _ _ hc => resume_keeps hc) ?_ h).mono fun l hl => hl.state
  exact ⟨nofun, nofun⟩

end Invariant

end Updates

namespace Cats
open AddCat

structure Client where
  flow : Flow := {}
  reported : List (CreateRequest × ℕ) := []
  deriving DecidableEq

/-- The success that an answer makes `save` report. -/
def success : Waiting → Reply → Option (CreateRequest × ℕ)
  | .creating q (some row), .done => some (q, row)
  | _, _ => none

def handlers : Handlers Client Waiting Call Reply where
  call c i := some ({ c with flow := (call c.flow i).1 }, (call c.flow i).2)
  resume c w r := (resume c.flow w r).map fun t =>
    (⟨t.1, c.reported ++ (success w r).toList⟩, t.2)

/-- For every success the server holds a cat that is the submission. -/
def Published (c : Client) : Prop :=
  ∀ s ∈ c.reported, At c.flow.rows s.2 (· = s.1.cat)

instance : DecidablePred Published := fun c =>
  inferInstanceAs (Decidable (∀ s ∈ c.reported, At c.flow.rows s.2 _))

def created : Waiting → Reply → Option (CreateRequest × UUID)
  | .creating q none, .created account => some (q, account)
  | _, _ => none

/-- A row that the server has already for the account and the key of a request is what the request
asks for. -/
def guard : Guard Client Waiting Call Reply where
  answer c w r :=
    ∀ t ∈ created w r, Only c.flow.rows (t.2, t.1.idempotencyKey) (· = t.1.cat)

instance (c : Client) (i : Call) : Decidable (guard.call c i) :=
  inferInstanceAs (Decidable True)

instance (c : Client) (w : Waiting) (r : Reply) : Decidable (guard.answer c w r) :=
  inferInstanceAs (Decidable (∀ t ∈ created w r, Only c.flow.rows _ _))

section Invariant

variable {c c' : Client} {w : Waiting} {r : Reply} {i : Call} {t : Client × List Waiting}

def Faithful (c : Client) : Waiting → Prop
  | .creating q (some row) => At c.flow.rows row (· = q.cat)
  | _ => True

theorem Faithful.mono (h : c.flow.rows <+: c'.flow.rows) (hw : Faithful c w) : Faithful c' w := by
  unfold Faithful at hw ⊢
  split
  case h_1 q row => exact At.mono (Q := (· = q.cat)) h (fun _ hq => hq) hw
  case h_2 => trivial

theorem keeps {ws : List Waiting} (h : Published c) (hrows : c.flow.rows <+: c'.flow.rows)
    (hreported : c'.reported = c.reported) (hnew : ∀ w ∈ ws, Faithful c' w) :
    Keeps Published Faithful c (c', ws) := by
  refine ⟨fun s hs => ?_, fun w hw => hw.mono hrows, hnew⟩
  rw [hreported] at hs
  exact At.mono (Q := (· = s.1.cat)) hrows (fun _ hq => hq) (h s hs)

/-- A call leaves the server's rows, and sends at most a request. -/
theorem call_spec (f : Flow) (i : Call) : f.rows = (call f i).1.rows ∧
    ∀ c : Client, ∀ w ∈ (call f i).2, Faithful c w := by
  have hnil : ∀ c : Client, ∀ w ∈ ([] : List Waiting), Faithful c w := fun _ =>
    List.forall_mem_nil _
  cases i with
  | start | useCurrentLocation => exact ⟨rfl, fun _ => List.forall_mem_singleton.mpr trivial⟩
  | setLocation location | continueAsDifferent | backToLocation | setName value
  | pickPhoto photo => exact ⟨rfl, hnil⟩
  | confirmLocation =>
    rw [call]
    split
    · exact ⟨rfl, hnil⟩
    · exact ⟨rfl, fun _ => List.forall_mem_singleton.mpr trivial⟩
  | save =>
    rw [call]
    split
    · exact ⟨rfl, hnil⟩
    · split
      · exact ⟨rfl, hnil⟩
      · split
        · exact ⟨rfl, hnil⟩
        · exact ⟨rfl, fun _ => List.forall_mem_singleton.mpr trivial⟩

theorem call_keeps (h : Published c) (hcall : handlers.call c i = some t) :
    Keeps Published Faithful c t := by
  cases hcall
  obtain ⟨hrows, hnew⟩ := call_spec c.flow i
  exact keeps h (hrows ▸ List.prefix_refl _) rfl (hnew _)

theorem resume_keeps (h : Published c) (hw : Faithful c w) (hguard : guard.answer c w r)
    (hresume : handlers.resume c w r = some t) : Keeps Published Faithful c t := by
  obtain ⟨u, hu, rfl⟩ := Option.map_eq_some_iff.mp hresume
  have hnil : c.reported ++ [] = c.reported := List.append_nil _
  unfold AddCat.resume at hu
  split at hu
  case h_4 q account =>
    cases hu
    refine keeps h prefix_answer hnil fun w hw' => ?_
    rw [List.mem_singleton.mp hw']
    exact at_answer (Q := (· = q.cat)) rfl (hguard _ rfl)
  case h_5 q row =>
    cases hu
    refine ⟨fun s hs => ?_, fun w hw' => hw'.mono (List.prefix_refl _), nofun⟩
    rcases List.mem_append.mp hs with hs | hs
    · exact h s hs
    · rw [List.mem_singleton.mp hs]
      exact hw
  case h_7 q row error =>
    cases hu
    cases row <;> exact keeps h (List.prefix_refl _) hnil nofun
  case h_2 location candidates =>
    cases hu
    refine keeps h ?_ hnil nofun
    dsimp only
    split
    · exact List.prefix_refl _
    · exact List.prefix_refl _
  case h_8 => cases hu
  all_goals
    cases hu
    exact keeps h (List.prefix_refl _) hnil nofun

theorem published {es : List (Event Call Reply)}
    (h : Each handlers.next guard.Admits ⟨{}, []⟩ es) :
    Always handlers.next (fun l => Published l.state) ⟨{}, []⟩ es := by
  refine (Held.always (I := Published) (J := Faithful) (fun _ _ _ hc _ => call_keeps hc)
    (fun _ _ _ _ hc => resume_keeps hc) ?_ h).mono fun l hl => hl.state
  exact ⟨nofun, nofun⟩

end Invariant

end Cats

end Tekir.PublishedSubmissions
