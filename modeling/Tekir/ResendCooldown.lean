import Mathlib.Tactic.Linarith
import Tekir.Backend

/-!
# The resend cooldown

`RequestOTP` looks up the newest code of the phone, and if the clock says that it is old
enough it stores a new one and hands it to the sender. The look-up, the check, the insert and
the send are steps of their own, between which other calls run and time passes.
-/
namespace Tekir.ResendCooldown
open Machine Table Schema Statements AccountQueries Environment AccountServices Backend

/-- A call after its look-up, at which `asOf` codes were stored. -/
structure Looked where
  phone : String
  asOf : ℕ
  latest : Option OtpCode
  deriving DecidableEq

/-- A call that found nothing to cool down against. -/
structure Asking where
  phone : String
  asOf : ℕ
  deriving DecidableEq

/-- A stored code: its row, and when that was created. -/
structure Stored where
  phone : String
  row : ℕ
  createdAt : Instant
  deriving DecidableEq

structure Send extends Stored where
  sentAt : Instant
  deriving DecidableEq

/-- `looked`, `asking` and `stored` are the calls in flight: before their check, before and after
their insert. -/
structure State where
  db : Database
  clock : Instant
  looked : List Looked := []
  asking : List Asking := []
  stored : List Stored := []
  sends : List Send := []

def State.codes (s : State) : List OtpCode :=
  s.db.tables.otpCodes

inductive Action
  | wait (d : ℕ)
  | lookUp (rawPhone : String)
  | check (call : Looked)
  /-- The insert of a call, with the identifier and the code it generated. -/
  | store (call : Asking) (id : UUID) (code : String)
  | send (call : Stored)
  /-- A call ends without its insert. -/
  | abandon (call : Asking)

/-- `latest.created_at` is less than a cooldown ago. -/
def tooSoon (cfg : Config) (now : Instant) (latest : Option OtpCode) : Bool :=
  latest.any fun latest => decide (now - latest.createdAt < cfg.resendCooldown)

def step (cfg : Config) (s : State) : Action → Option State
  | .wait d => some { s with clock := s.clock + d }
  | .lookUp rawPhone =>
    match normalizePhone rawPhone with
    | .error _ => some s
    | .ok phone =>
      some { s with
        looked := ⟨phone, s.codes.length, latestOtpCode phone s.codes⟩ :: s.looked }
  | .check call =>
    if call ∈ s.looked then
      if tooSoon cfg s.clock call.latest then some { s with looked := s.looked.erase call }
      else
        some { s with
          looked := s.looked.erase call, asking := ⟨call.phone, call.asOf⟩ :: s.asking }
    else none
  | .store call id code =>
    if call ∈ s.asking then
      match createOtpCode id call.phone (hashOTPCode cfg call.phone code) cfg.otpMaxAttempts
          (s.clock + cfg.otpTTL) s.clock s.db with
      | .error _ => none
      | .ok db =>
        some { s with
          db, asking := s.asking.erase call
          stored := ⟨call.phone, s.codes.length, s.clock⟩ :: s.stored }
    else none
  | .send call =>
    if call ∈ s.stored then
      some { s with stored := s.stored.erase call, sends := s.sends ++ [⟨call, s.clock⟩] }
    else none
  | .abandon call => some { s with asking := s.asking.erase call }

/-- At least a cooldown lies between two moments. -/
def Apart (cfg : Config) (t t' : Instant) : Prop :=
  t + cfg.resendCooldown ≤ t' ∨ t' + cfg.resendCooldown ≤ t

instance (cfg : Config) (t t' : Instant) : Decidable (Apart cfg t t') :=
  inferInstanceAs (Decidable (_ ∨ _))

def SpacedCodes (cfg : Config) (s : State) : Prop :=
  s.codes.Pairwise fun a b => a.phone = b.phone → Apart cfg a.createdAt b.createdAt

def SpacedSends (cfg : Config) (s : State) : Prop :=
  s.sends.Pairwise fun a b => a.phone = b.phone → Apart cfg a.sentAt b.sentAt

def CooledDown (cfg : Config) (s : State) : Prop :=
  SpacedCodes cfg s ∧ SpacedSends cfg s

instance (cfg : Config) (s : State) : Decidable (CooledDown cfg s) :=
  inferInstanceAs (Decidable (List.Pairwise _ _ ∧ List.Pairwise _ _))

/-- A code is stored only if none that came for the phone after the call's look-up is less than
a cooldown old. A code is sent only if no send for the phone that was late, or that was of a
code not older than the call's own, is less than a cooldown ago. -/
def Admits (cfg : Config) (s : State) : Action → Prop
  | .store call _ _ => ∀ o ∈ s.codes.drop call.asOf, o.phone = call.phone →
      o.createdAt + cfg.resendCooldown ≤ s.clock
  | .send call => ∀ x ∈ s.sends, x.phone = call.phone →
      x.createdAt < x.sentAt ∨ ¬ x.row < call.row → x.sentAt + cfg.resendCooldown ≤ s.clock
  | .wait _ | .lookUp _ | .check _ | .abandon _ => True

instance (cfg : Config) (s : State) (a : Action) : Decidable (Admits cfg s a) := by
  cases a <;> unfold Admits <;> infer_instance

/-- No call is in flight, and the codes of each phone lie in the past, a cooldown apart. -/
structure Settled (cfg : Config) (s : State) : Prop where
  looked : s.looked = []
  asking : s.asking = []
  stored : s.stored = []
  sends : s.sends = []
  past : ∀ o ∈ s.codes, o.createdAt ≤ s.clock
  ordered : s.codes.Pairwise fun a b => a.createdAt ≤ b.createdAt
  spaced : SpacedCodes cfg s

variable {cfg : Config} {s s' : State} {a : Action}

/-- The row of a stored code. -/
def Holds (s : State) (x : Stored) : Prop :=
  ∃ o, s.codes[x.row]? = some o ∧ o.phone = x.phone ∧ o.createdAt = x.createdAt

/-- What the clock and the calls in flight say about the codes. -/
structure Timed (cfg : Config) (s : State) : Prop where
  past : ∀ o ∈ s.codes, o.createdAt ≤ s.clock
  ordered : s.codes.Pairwise fun a b => a.createdAt ≤ b.createdAt
  looked : ∀ c ∈ s.looked, c.asOf ≤ s.codes.length ∧ ∀ o ∈ s.codes.take c.asOf,
    o.phone = c.phone → ∃ latest, c.latest = some latest ∧ o.createdAt ≤ latest.createdAt
  asOf : ∀ c ∈ s.asking, c.asOf ≤ s.codes.length
  asking : ∀ c ∈ s.asking, ∀ o ∈ s.codes.take c.asOf, o.phone = c.phone →
    o.createdAt + cfg.resendCooldown ≤ s.clock
  stored : ∀ x ∈ s.stored, Holds s x
  sends : ∀ x ∈ s.sends, Holds s x.toStored ∧ x.createdAt ≤ x.sentAt ∧ x.sentAt ≤ s.clock

theorem Settled.timed (h : Settled cfg s) : Timed cfg s where
  past := h.past
  ordered := h.ordered
  looked := by simp [h.looked]
  asOf := by simp [h.asking]
  asking := by simp [h.asking]
  stored := by simp [h.stored]
  sends := by simp [h.sends]

theorem Settled.cooledDown (h : Settled cfg s) : CooledDown cfg s :=
  ⟨h.spaced, by simp [SpacedSends, h.sends]⟩

section Rows

/-- The first row in a total order comes before every row. -/
theorem exists_head_orderBy {α : Type} (before : α → α → Bool)
    (htotal : ∀ a b, before a b = true ∨ before b a = true)
    (htrans : ∀ a b c, before a b = true → before b c = true → before a c = true) {rows : List α}
    {r : α} (hr : r ∈ rows) : ∃ h, (orderBy before rows).head? = some h ∧ before h r = true := by
  have : Std.Total fun a b => before a b = true := ⟨htotal⟩
  have : IsTrans α fun a b => before a b = true := ⟨htrans⟩
  have hsorted : (orderBy before rows).Pairwise fun a b => before a b = true :=
    List.pairwise_insertionSort _ _
  have hmem : r ∈ orderBy before rows := mem_orderBy.mpr hr
  cases hrows : orderBy before rows with
  | nil => simp [hrows] at hmem
  | cons h hs =>
    rw [hrows] at hsorted hmem
    refine ⟨h, rfl, ?_⟩
    rcases List.mem_cons.mp hmem with rfl | hmem
    · rcases htotal r r with hrefl | hrefl <;> exact hrefl
    · exact (List.pairwise_cons.mp hsorted).1 r hmem

/-- The newest code of a phone is as young as any. -/
theorem createdAt_le_latest {phone : String} {codes : List OtpCode} {o : OtpCode} (ho : o ∈ codes)
    (hphone : o.phone = phone) :
    ∃ latest, latestOtpCode phone codes = some latest ∧ o.createdAt ≤ latest.createdAt := by
  have hmem : o ∈ codes.filter fun o => o.phone == phone :=
    List.mem_filter.mpr ⟨ho, beq_iff_eq.mpr hphone⟩
  obtain ⟨latest, hlatest, hle⟩ := exists_head_orderBy
    (fun a b : OtpCode => decide (b.createdAt ≤ a.createdAt))
    (fun a b => by simpa using Int.le_total b.createdAt a.createdAt)
    (fun a b c hab hbc => by
      simp only [decide_eq_true_eq] at hab hbc ⊢
      exact hbc.trans hab) hmem
  exact ⟨latest, hlatest, of_decide_eq_true hle⟩

/-- A check that is passed has found every code of the look-up at least a cooldown old. -/
theorem cooled_of_check {c : Looked} {o : OtpCode}
    (ho : ∃ latest, c.latest = some latest ∧ o.createdAt ≤ latest.createdAt)
    (hcheck : ¬ tooSoon cfg s.clock c.latest = true) :
    o.createdAt + cfg.resendCooldown ≤ s.clock := by
  obtain ⟨latest, hlatest, hle⟩ := ho
  simp only [tooSoon, hlatest, Option.any_some, decide_eq_true_eq, not_lt] at hcheck
  linarith

theorem take_of_append {α : Type} {xs : List α} {x : α} {n : ℕ} (hn : n ≤ xs.length) :
    (xs ++ [x]).take n = xs.take n :=
  List.take_append_of_le_length hn

theorem Holds.append {x : Stored} (h : Holds s x) {row : OtpCode} (hcodes : s'.codes = s.codes ++ [row]) :
    Holds s' x := by
  obtain ⟨o, ho, hphone, hcreated⟩ := h
  refine ⟨o, ?_, hphone, hcreated⟩
  rw [hcodes, List.getElem?_append_left (List.getElem?_eq_some_iff.mp ho).1]
  exact ho

theorem Holds.le_clock {x : Stored} (h : Holds s x) (ht : Timed cfg s) : x.createdAt ≤ s.clock := by
  obtain ⟨o, ho, -, hcreated⟩ := h
  exact hcreated ▸ ht.past o (List.mem_of_getElem? ho)

end Rows

section Steps

/-- What a step can do. -/
inductive Does (cfg : Config) (s : State) : Action → State → Prop
  | wait (d : ℕ) : Does cfg s (.wait d) { s with clock := s.clock + d }
  | invalid (rawPhone : String) : Does cfg s (.lookUp rawPhone) s
  | lookedUp (rawPhone phone : String) :
      Does cfg s (.lookUp rawPhone)
        { s with looked := ⟨phone, s.codes.length, latestOtpCode phone s.codes⟩ :: s.looked }
  | refused (call : Looked) : Does cfg s (.check call) { s with looked := s.looked.erase call }
  | passed {call : Looked} (hcall : call ∈ s.looked)
      (hcheck : ¬ tooSoon cfg s.clock call.latest = true) :
      Does cfg s (.check call)
        { s with looked := s.looked.erase call, asking := ⟨call.phone, call.asOf⟩ :: s.asking }
  | stored {call : Asking} {id : UUID} {code : String} (hcall : call ∈ s.asking) {db : Database}
      {row : OtpCode} (hcodes : db.tables.otpCodes = s.codes ++ [row])
      (hphone : row.phone = call.phone) (hcreated : row.createdAt = s.clock) :
      Does cfg s (.store call id code)
        { s with
          db, asking := s.asking.erase call
          stored := ⟨call.phone, s.codes.length, s.clock⟩ :: s.stored }
  | sent {call : Stored} (hcall : call ∈ s.stored) :
      Does cfg s (.send call)
        { s with stored := s.stored.erase call, sends := s.sends ++ [⟨call, s.clock⟩] }
  | abandoned (call : Asking) :
      Does cfg s (.abandon call) { s with asking := s.asking.erase call }

theorem step_cases (h : step cfg s a = some s') : Does cfg s a s' := by
  cases a with
  | wait d =>
    cases h
    exact .wait d
  | lookUp rawPhone =>
    simp only [step] at h
    split at h
    · cases h
      exact .invalid rawPhone
    · cases h
      exact .lookedUp rawPhone _
  | check call =>
    simp only [step] at h
    split at h
    · rename_i hcall
      split at h
      · cases h
        exact .refused call
      · rename_i hcheck
        cases h
        exact .passed hcall hcheck
    · cases h
  | store call id code =>
    simp only [step] at h
    split at h
    · rename_i hcall
      split at h
      · cases h
      · rename_i db hdb
        cases h
        have htables := congrArg Tables.otpCodes (write_eq_ok.mp hdb)
        exact .stored hcall htables rfl rfl
    · cases h
  | send call =>
    simp only [step] at h
    split at h
    · rename_i hcall
      cases h
      exact .sent hcall
    · cases h
  | abandon call =>
    cases h
    exact .abandoned call

theorem step_timed (ht : Timed cfg s) (h : step cfg s a = some s') : Timed cfg s' := by
  cases step_cases h with
  | wait d =>
    have hclock : s.clock ≤ s.clock + d := by simp
    refine ⟨fun o ho => (ht.past o ho).trans hclock, ht.ordered, ht.looked, ht.asOf,
      fun c hc o ho hphone => (ht.asking c hc o ho hphone).trans hclock, ht.stored, fun x hx => ?_⟩
    obtain ⟨hholds, hsent, hpast⟩ := ht.sends x hx
    exact ⟨hholds, hsent, hpast.trans hclock⟩
  | invalid rawPhone => exact ht
  | lookedUp rawPhone phone =>
    refine { ht with looked := fun c hc => ?_ }
    rcases List.mem_cons.mp hc with rfl | hc
    · exact ⟨le_rfl, fun o ho hphone => createdAt_le_latest (List.mem_of_mem_take ho) hphone⟩
    · exact ht.looked c hc
  | refused call =>
    exact { ht with looked := fun c hc => ht.looked c (List.mem_of_mem_erase hc) }
  | passed hcall hcheck =>
    refine
      { ht with
        looked := fun c hc => ht.looked c (List.mem_of_mem_erase hc)
        asOf := fun c hc => ?_
        asking := fun c hc o ho hphone => ?_ }
    · rcases List.mem_cons.mp hc with rfl | hc
      · exact (ht.looked _ hcall).1
      · exact ht.asOf c hc
    · rcases List.mem_cons.mp hc with rfl | hc
      · exact cooled_of_check ((ht.looked _ hcall).2 o ho hphone) hcheck
      · exact ht.asking c hc o ho hphone
  | @stored call id code hcall db row hcodes hphone hcreated =>
    have htake : ∀ {n : ℕ}, n ≤ s.codes.length → db.tables.otpCodes.take n = s.codes.take n := by
      intro n hn
      rw [hcodes]
      exact take_of_append hn
    have hlength : s.codes.length ≤ db.tables.otpCodes.length := by simp [hcodes]
    refine ⟨fun o ho => ?_, ?_, fun c hc => ?_, fun c hc => ?_, fun c hc o ho hsame => ?_,
      fun x hx => ?_, fun x hx => ?_⟩
    · rcases List.mem_append.mp (hcodes ▸ ho : o ∈ s.codes ++ [row]) with ho | ho
      · exact ht.past o ho
      · rw [List.mem_singleton.mp ho]
        exact hcreated.le
    · change db.tables.otpCodes.Pairwise _
      rw [hcodes]
      refine List.pairwise_append.mpr ⟨ht.ordered, List.pairwise_singleton _ _, ?_⟩
      intro o ho o' ho'
      rw [List.mem_singleton.mp ho', hcreated]
      exact ht.past o ho
    · obtain ⟨hasOf, hlatest⟩ := ht.looked c hc
      exact ⟨hasOf.trans hlength, fun o ho => hlatest o (htake hasOf ▸ ho)⟩
    · exact (ht.asOf c (List.mem_of_mem_erase hc)).trans hlength
    · have hc := List.mem_of_mem_erase hc
      exact ht.asking c hc o (htake (ht.asOf c hc) ▸ ho) hsame
    · rcases List.mem_cons.mp hx with rfl | hx
      · exact ⟨row, by simp [State.codes, hcodes], hphone, hcreated⟩
      · exact (ht.stored x hx).append hcodes
    · obtain ⟨hholds, hsent⟩ := ht.sends x hx
      exact ⟨hholds.append hcodes, hsent⟩
  | @sent call hcall =>
    refine
      { ht with
        stored := fun x hx => ht.stored x (List.mem_of_mem_erase hx)
        sends := fun x hx => ?_ }
    rcases List.mem_append.mp hx with hx | hx
    · exact ht.sends x hx
    · obtain rfl := List.mem_singleton.mp hx
      have hholds := ht.stored call hcall
      exact ⟨hholds, hholds.le_clock ht, le_rfl⟩
  | abandoned call =>
    exact
      { ht with
        asOf := fun c hc => ht.asOf c (List.mem_of_mem_erase hc)
        asking := fun c hc => ht.asking c (List.mem_of_mem_erase hc) }

variable (s') in
/-- A code that joins the others is apart from them if they are a cooldown old. -/
theorem spacedCodes_append {row : OtpCode} (hpast : ∀ o ∈ s.codes, o.createdAt ≤ s.clock)
    (hs : SpacedCodes cfg s) (hcodes : s'.codes = s.codes ++ [row]) (hcreated : row.createdAt = s.clock) :
    SpacedCodes cfg s' ↔ ∀ o ∈ s.codes, o.phone = row.phone →
      o.createdAt + cfg.resendCooldown ≤ s.clock := by
  unfold SpacedCodes
  rw [hcodes, List.pairwise_append]
  simp only [List.pairwise_singleton, List.mem_singleton, forall_eq, true_and]
  refine ⟨fun h o ho hphone => ?_, fun h => ⟨hs, fun o ho hphone => .inl (hcreated ▸ h o ho hphone)⟩⟩
  have hle := hpast o ho
  rcases h.2 o ho hphone with hapart | hapart <;> rw [hcreated] at hapart
  · exact hapart
  · linarith

variable (s') in
theorem spacedSends_append {call : Stored} (hpast : ∀ x ∈ s.sends, x.sentAt ≤ s.clock)
    (hs : SpacedSends cfg s) (hsends : s'.sends = s.sends ++ [⟨call, s.clock⟩]) :
    SpacedSends cfg s' ↔ ∀ x ∈ s.sends, x.phone = call.phone →
      x.sentAt + cfg.resendCooldown ≤ s.clock := by
  unfold SpacedSends
  rw [hsends, List.pairwise_append]
  simp only [List.pairwise_singleton, List.mem_singleton, forall_eq, true_and]
  refine ⟨fun h x hx hphone => ?_, fun h => ⟨hs, fun x hx hphone => .inl (h x hx hphone)⟩⟩
  have hle := hpast x hx
  rcases h.2 x hx hphone with hapart | hapart
  · exact hapart
  · have hapart : s.clock + cfg.resendCooldown ≤ x.sentAt := hapart
    linarith

/-- A send on time of an older code is a cooldown ago. -/
theorem cooled_of_onTime (ht : Timed cfg s) (hs : SpacedCodes cfg s) {x : Send} (hx : x ∈ s.sends)
    {call : Stored} (hcall : call ∈ s.stored) (hphone : x.phone = call.phone)
    (honTime : ¬ x.createdAt < x.sentAt) (hrow : x.row < call.row) :
    x.sentAt + cfg.resendCooldown ≤ s.clock := by
  obtain ⟨⟨o, ho, hophone, hocreated⟩, hsent, -⟩ := ht.sends x hx
  have hholds := ht.stored call hcall
  have hclock := hholds.le_clock ht
  obtain ⟨o', ho', hophone', hocreated'⟩ := hholds
  obtain ⟨hlt, rfl⟩ := List.getElem?_eq_some_iff.mp ho
  obtain ⟨hlt', rfl⟩ := List.getElem?_eq_some_iff.mp ho'
  have hapart := List.pairwise_iff_getElem.mp hs _ _ hlt hlt' hrow
    (hophone.trans (hphone.trans hophone'.symm))
  have horder := List.pairwise_iff_getElem.mp ht.ordered _ _ hlt hlt' hrow
  rw [hocreated, hocreated'] at hapart horder
  rcases hapart with hapart | hapart <;> linarith

/-- A step keeps the codes and the sends apart precisely if it is admitted. -/
theorem step_cooledDown_iff (ht : Timed cfg s) (hs : CooledDown cfg s)
    (h : step cfg s a = some s') : CooledDown cfg s' ↔ Admits cfg s a := by
  have hsent : ∀ x ∈ s.sends, x.sentAt ≤ s.clock := fun x hx => (ht.sends x hx).2.2
  cases step_cases h with
  | wait d => exact ⟨fun _ => trivial, fun _ => hs⟩
  | invalid rawPhone => exact ⟨fun _ => trivial, fun _ => hs⟩
  | lookedUp rawPhone phone => exact ⟨fun _ => trivial, fun _ => hs⟩
  | refused call => exact ⟨fun _ => trivial, fun _ => hs⟩
  | passed hcall hcheck => exact ⟨fun _ => trivial, fun _ => hs⟩
  | abandoned call => exact ⟨fun _ => trivial, fun _ => hs⟩
  | @stored call id code hcall db row hcodes hphone hcreated =>
    let s' : State :=
      { s with
        db, asking := s.asking.erase call
        stored := ⟨call.phone, s.codes.length, s.clock⟩ :: s.stored }
    have hiff := spacedCodes_append s' ht.past hs.1 hcodes hcreated
    rw [CooledDown, hiff, hphone]
    constructor
    · exact fun hspaced o ho => hspaced.1 o (List.mem_of_mem_drop ho)
    · intro hadmit
      refine ⟨fun o ho hsame => ?_, hs.2⟩
      -- the codes from before the look-up are old enough since then
      rw [← List.take_append_drop call.asOf s.codes] at ho
      rcases List.mem_append.mp ho with ho | ho
      · exact ht.asking call hcall o ho hsame
      · exact hadmit o ho hsame
  | @sent call hcall =>
    let s' : State :=
      { s with stored := s.stored.erase call, sends := s.sends ++ [⟨call, s.clock⟩] }
    have hiff := spacedSends_append s' hsent hs.2 rfl
    rw [CooledDown, hiff]
    constructor
    · exact fun hspaced x hx hphone _ => hspaced.2 x hx hphone
    · intro hadmit
      refine ⟨hs.1, fun x hx hphone => ?_⟩
      by_cases hlate : x.createdAt < x.sentAt ∨ ¬ x.row < call.row
      · exact hadmit x hx hphone hlate
      · rw [not_or, not_not] at hlate
        exact cooled_of_onTime ht hs.1 hx hcall hphone hlate.1 hlate.2

/-- A call that nothing comes between does what `RequestOTP` does. -/
theorem exists_exec_requestOTP (cfg : Config) (env : Env) (s : State) (rawPhone : String)
    (hclock : env.clock = s.clock) (hnow : env.now = s.clock) (hlocal : env.external = none) :
    ∃ as s', exec (step cfg) s as = some s' ∧
      s'.db = (requestOTP cfg env rawPhone { db := s.db }).2.db := by
  unfold requestOTP
  cases hphone : normalizePhone rawPhone with
  | error e => exact ⟨[], s, rfl, rfl⟩
  | ok phone =>
    simp only [hlocal, hclock, hnow]
    let call : Looked := ⟨phone, s.codes.length, latestOtpCode phone s.codes⟩
    let looked : State := { s with looked := call :: s.looked }
    have hlookUp : step cfg s (.lookUp rawPhone) = some looked := by
      simp [step, hphone, looked, call]
    cases hsoon : tooSoon cfg s.clock (latestOtpCode phone s.codes) with
    | true =>
      refine ⟨[.lookUp rawPhone], looked, by simp [hlookUp], ?_⟩
      simp only [tooSoon, State.codes] at hsoon
      simp [hsoon, looked]
    | false =>
      let passed : State := { s with asking := ⟨phone, s.codes.length⟩ :: s.asking }
      have hcheck : step cfg looked (.check call) = some passed := by
        simp [step, looked, call, hsoon, passed]
      simp only [tooSoon, State.codes] at hsoon
      cases hcreate : createOtpCode (env.uuid 0) phone (hashOTPCode cfg phone env.otpCode)
          cfg.otpMaxAttempts (s.clock + cfg.otpTTL) s.clock s.db with
      | error e =>
        exact ⟨[.lookUp rawPhone, .check call], passed, by simp [hlookUp, hcheck],
          by simp [hsoon, passed]⟩
      | ok db =>
        let after : State :=
          { passed with
            db, asking := s.asking, stored := ⟨phone, s.codes.length, s.clock⟩ :: s.stored }
        have hstore : step cfg passed (.store ⟨phone, s.codes.length⟩ (env.uuid 0) env.otpCode) =
            some after := by
          simp [step, passed, hcreate, after, State.codes]
        exact ⟨[.lookUp rawPhone, .check call,
          .store ⟨phone, s.codes.length⟩ (env.uuid 0) env.otpCode], after,
          by simp [hlookUp, hcheck, hstore], by simp [hsoon, after]⟩

end Steps

/-- In a run of any number of `RequestOTP` calls the codes and the sends of each phone are a
cooldown apart precisely if every insert and every send is admitted. -/
theorem cooledDown_iff_admitted (cfg : Config) (s : State) (hs : Settled cfg s)
    (as : List Action) : Always (step cfg) (CooledDown cfg) s as ↔ Each (step cfg) (Admits cfg) s as :=
  always_iff_each (J := Timed cfg) (fun _ _ _ => step_timed)
    (fun _ _ _ ht hs h => step_cooledDown_iff ht hs h) hs.timed hs.cooledDown

/-- Before anything was requested. -/
def quiet : State :=
  { db := ⟨{}, valid_empty⟩, clock := 0 }

/-- Two calls for one phone look up before either stores its code. -/
def racing : List Action :=
  [.lookUp "5551234567", .lookUp "5551234567",
   .check ⟨"+905551234567", 0, none⟩, .check ⟨"+905551234567", 0, none⟩,
   .store ⟨"+905551234567", 0⟩ 1 "111111", .send ⟨"+905551234567", 0, 0⟩,
   .store ⟨"+905551234567", 0⟩ 2 "222222", .send ⟨"+905551234567", 1, 0⟩]

theorem quiet_settled : Settled plainConfig quiet :=
  ⟨rfl, rfl, rfl, rfl, nofun, .nil, .nil⟩

theorem not_cooledDown_racing : ¬ ∀ (cfg : Config) (s : State), Settled cfg s →
    ∀ as, Always (step cfg) (CooledDown cfg) s as := by
  intro h
  refine not_always_of_test ?_ (h plainConfig quiet quiet_settled racing)
  decide +kernel

/-- The code that the first of two calls stores. -/
def firstCode : OtpCode :=
  { id := 1, phone := "+905551234567", codeHash := "+905551234567:111111", maxAttempts := 5
    expiresAt := 300, createdAt := 0 }

/-- The second call comes after the first one and waits for the cooldown. -/
def inTurn : List Action :=
  [.lookUp "5551234567", .check ⟨"+905551234567", 0, none⟩,
   .store ⟨"+905551234567", 0⟩ 1 "111111", .send ⟨"+905551234567", 0, 0⟩,
   .wait 60,
   .lookUp "5551234567", .check ⟨"+905551234567", 1, some firstCode⟩,
   .store ⟨"+905551234567", 1⟩ 2 "222222", .send ⟨"+905551234567", 1, 60⟩]

theorem cooledDown_inTurn : ∃ s', exec (step plainConfig) quiet inTurn = some s' ∧
    s'.sends.length = 2 ∧ Always (step plainConfig) (CooledDown plainConfig) quiet inTurn := by
  obtain ⟨s', hs', hsends⟩ := exists_of_exec_test (step plainConfig) quiet inTurn
    (fun s => s.sends.length == 2) (by decide +kernel)
  exact ⟨s', hs', beq_iff_eq.mp hsends,
    (cooledDown_iff_admitted plainConfig quiet quiet_settled inTurn).mpr (by decide +kernel)⟩

end Tekir.ResendCooldown
