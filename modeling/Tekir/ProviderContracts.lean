import Tekir.Backend
import Tekir.Providers

/-!
# What the adapters make of their providers

Over any network, and any provider that keeps its word: a push or a text message goes out once
for a call at most, and exactly once for a call that reports it. An account is opened, and a text
allowed, only on the word of the provider. Of the storage's calls, one that reports success has
been carried out, and one that fails has been carried out or not.
-/
namespace Tekir.ProviderContracts
open Environment Retries Providers
open ModerationReply (ModerationDecision runReply)
open Statements (Error)

section Policies

variable {φ : Type} {cancelled unavailable : φ} {failed : String → φ}

/-- An answer that refuses the request for now. -/
def Refusal (r : Answer) : Prop := 500 ≤ r.status

def Reports {φ : Type} (good : Answer → Prop) (a : Except φ Answer) : Prop :=
  ∃ r, a = .ok r ∧ good r

def isOk {ε α : Type} : Except ε α → Bool
  | .ok _ => true
  | .error _ => false

theorem isOk_map {ε α β : Type} (x : Except ε α) (f : α → β) : isOk (x.map f) = isOk x := by
  cases x <;> rfl

/-- Success comes from an answer that is taken for success. -/
theorem reports_of_isOk {α : Type} {x : Except φ Answer} {result : Answer → Except φ α}
    {good : Answer → Prop} (hgood : ∀ r, isOk (result r) = true → good r)
    (h : isOk (x.bind result) = true) : Reports good x := by
  cases x with
  | error e => cases h
  | ok r => exact ⟨r, rfl, hgood r h⟩

theorem not_reports (good : Answer → Prop) (e : φ) : ¬ Reports good (.error e) := by
  intro h
  obtain ⟨r, hr, -⟩ := h
  cases hr

theorem post_cautious : (post cancelled unavailable failed).Cautious Refusal := by
  intro done o a hjudge
  cases o with
  | answer r =>
    simp only [post] at hjudge
    split at hjudge
    · cases hjudge
    · next hstatus => exact .inr ⟨r, rfl, Nat.le_of_not_lt hstatus⟩
  | unreached timeout => exact .inl ⟨timeout, rfl⟩
  | broken timeout => cases hjudge

theorem post_vouched (good : Answer → Prop) :
    (post cancelled unavailable failed).Vouched (Reports good) good := by
  refine ⟨not_reports good _, fun done o a hjudge ⟨r, ha, hr⟩ => ?_⟩
  subst ha
  cases o with
  | answer r' =>
    refine ⟨r', rfl, ?_⟩
    simp only [post] at hjudge
    split at hjudge
    · have heq : r' = r := by simpa using hjudge
      exact heq ▸ hr
    · split at hjudge <;> simp at hjudge
  | unreached timeout => cases done <;> simp [post] at hjudge
  | broken timeout => simp [post] at hjudge

theorem repeating_vouched (good : Answer → Prop) :
    (repeating cancelled failed).Vouched (Reports good) good := by
  refine ⟨not_reports good _, fun done o a hjudge ⟨r, ha, hr⟩ => ?_⟩
  subst ha
  cases o with
  | answer r' =>
    have heq : r' = r := by
      simp only [repeating] at hjudge
      split at hjudge <;> simpa using hjudge
    exact ⟨r', rfl, heq ▸ hr⟩
  | unreached timeout => cases done <;> simp [repeating] at hjudge
  | broken timeout => cases done <;> simp [repeating] at hjudge

end Policies

section Delivery

variable {Q σ ε φ : Type}

/-- The word of a provider that acts on requests: a request is acted upon once at most, once if
it is answered with success, and not at all if the answer refuses it. -/
structure Promises (serve : Q → ℕ → σ → Answer × σ) (acts : Q → σ → ℕ) : Prop where
  one : ∀ q k s, acts q s ≤ acts q (serve q k s).2 ∧ acts q (serve q k s).2 ≤ acts q s + 1
  other : ∀ q q' k s, q' ≠ q → acts q' (serve q k s).2 = acts q' s
  refused : ∀ q k s, Refusal (serve q k s).1 → acts q (serve q k s).2 = acts q s
  done : ∀ q k s, (serve q k s).1.succeeds = true → acts q (serve q k s).2 = acts q s + 1

/-- Calls one after another, each over its own network. -/
def callAll (call : Q → (ℕ → Circumstance) → σ → Except ε Unit × σ) :
    List (Q × (ℕ → Circumstance)) → σ → List (Q × Except ε Unit) × σ
  | [], s => ([], s)
  | (q, c) :: calls, s =>
    let r := call q c s
    let rest := callAll call calls r.2
    ((q, r.1) :: rest.1, rest.2)

/-- One call acts once at most on its own request, exactly once if it reports so, and on no
other request. -/
structure ActsOnce (call : Q → (ℕ → Circumstance) → σ → Except ε Unit × σ) (acts : Q → σ → ℕ) :
    Prop where
  one : ∀ q c s, acts q s ≤ acts q (call q c s).2 ∧ acts q (call q c s).2 ≤ acts q s + 1
  other : ∀ q q' c s, q' ≠ q → acts q' (call q c s).2 = acts q' s
  reported : ∀ q c s, isOk (call q c s).1 = true → acts q (call q c s).2 = acts q s + 1

variable {cancelled unavailable : φ} {failed : String → φ}

theorem actsOnce_post {serve : Q → ℕ → σ → Answer × σ} {acts : Q → σ → ℕ}
    (h : Promises serve acts) {q : Q} {c : ℕ → Circumstance} {s : σ}
    {result : Answer → Except φ Unit}
    (hresult : ∀ r, isOk (result r) = true → r.succeeds = true) {r : Except φ Answer × σ}
    (hr : r = tries (post cancelled unavailable failed) (serve q) c repeats 0 s) :
    (acts q s ≤ acts q r.2 ∧ acts q r.2 ≤ acts q s + 1) ∧
      (∀ q', q' ≠ q → acts q' r.2 = acts q' s) ∧
      (isOk (r.1.bind result) = true → acts q r.2 = acts q s + 1) := by
  subst hr
  refine ⟨post_cautious.once (h.one q) (h.refused q), fun q' hq' => ?_, fun hok => ?_⟩
  · exact tries_same fun k s => h.other q q' k s hq'
  · exact post_cautious.exactly (post_vouched fun r => r.succeeds = true) (h.refused q) (h.done q)
      (reports_of_isOk hresult hok)

variable [DecidableEq Q]

/-- The request was acted upon as often as it was reported, at least, and as often as it was
called for, at most. -/
def Bounded (acts : Q → σ → ℕ) (s : σ) (r : List (Q × Except ε Unit) × σ) (q : Q) : Prop :=
  acts q s + r.1.countP (fun x => x.1 == q && isOk x.2) ≤ acts q r.2 ∧
    acts q r.2 ≤ acts q s + r.1.countP (fun x => x.1 == q)

theorem ActsOnce.bounded {call : Q → (ℕ → Circumstance) → σ → Except ε Unit × σ}
    {acts : Q → σ → ℕ} (h : ActsOnce call acts) (calls : List (Q × (ℕ → Circumstance))) (s : σ)
    (q : Q) : Bounded acts s (callAll call calls s) q := by
  induction calls generalizing s with
  | nil => simp [Bounded, callAll]
  | cons x calls ih =>
    obtain ⟨q', c⟩ := x
    have hrest := ih (call q' c s).2
    simp only [Bounded, callAll, List.countP_cons] at hrest ⊢
    by_cases hq : q' = q
    · subst hq
      have hone := h.one q' c s
      cases hok : isOk (call q' c s).1 with
      | true =>
        have hreported := h.reported q' c s hok
        simp only [beq_self_eq_true, Bool.and_true, if_true]
        omega
      | false =>
        simp only [beq_self_eq_true, Bool.and_false, if_true, Bool.false_eq_true, if_false]
        omega
    · have hother := h.other q' q c s (Ne.symm hq)
      have hne : (q' == q) = false := beq_eq_false_iff_ne.mpr hq
      simp only [hne, Bool.false_and, Bool.false_eq_true, if_false]
      omega

theorem succeeds_of_sendResult {r : Answer} (h : isOk (sendResult r) = true) :
    r.succeeds = true := by
  by_contra hfail
  simp only [sendResult, if_neg hfail] at h
  repeat' split at h
  all_goals cases h

theorem succeeds_of_startResult {r : Answer} (h : isOk (startResult r) = true) :
    r.succeeds = true := by
  by_contra hfail
  simp only [startResult, if_neg hfail] at h
  repeat' split at h
  all_goals cases h

theorem actsOnce_send {serve : PushMessage → ℕ → σ → Answer × σ} {accepted : PushMessage → σ → ℕ}
    (h : Promises serve accepted) : ActsOnce (fun msg c s => send serve c msg s) accepted := by
  have hcases : ∀ msg c s, (send serve c msg s = (.error .emptyToken, s)) ∨ ∃ r,
      r = tries fcmPost (serve msg) c repeats 0 s ∧
        send serve c msg s = (r.1.bind sendResult, r.2) := by
    intro msg c s
    by_cases hempty : msg.pushToken = ""
    · exact .inl (if_pos hempty)
    · exact .inr ⟨_, rfl, if_neg hempty⟩
  refine ⟨fun msg c s => ?_, fun msg msg' c s hne => ?_, fun msg c s hok => ?_⟩
  · rcases hcases msg c s with heq | ⟨r, hr, heq⟩ <;> rw [heq]
    · exact ⟨Nat.le_refl _, Nat.le_succ _⟩
    · exact (actsOnce_post h (fun r => succeeds_of_sendResult) hr).1
  · rcases hcases msg c s with heq | ⟨r, hr, heq⟩ <;> rw [heq]
    exact (actsOnce_post h (fun r => succeeds_of_sendResult) hr).2.1 msg' hne
  · rcases hcases msg c s with heq | ⟨r, hr, heq⟩ <;> rw [heq] at hok ⊢
    · cases hok
    · exact (actsOnce_post h (fun r => succeeds_of_sendResult) hr).2.2 hok

theorem actsOnce_start {serve : VerifyRequest → ℕ → σ → Answer × σ} {texted : String → σ → ℕ}
    (h : Promises (fun phone => serve (.start phone)) texted) :
    ActsOnce (fun phone c s => startVerification serve c phone s) texted :=
  ⟨fun _ _ _ => (actsOnce_post h (fun _ => succeeds_of_startResult) rfl).1,
    fun _ q' _ _ hne => (actsOnce_post h (fun _ => succeeds_of_startResult) rfl).2.1 q' hne,
    fun _ _ _ hok => (actsOnce_post h (fun _ => succeeds_of_startResult) rfl).2.2 hok⟩

/-- However the network behaves: of any calls of the two adapters, each push and each text message
goes out as often as it was called for at most, and as often as success was reported at least. -/
theorem messages_sent_once {τ : Type} {push : PushMessage → ℕ → σ → Answer × σ}
    {accepted : PushMessage → σ → ℕ} {verify : VerifyRequest → ℕ → τ → Answer × τ}
    {texted : String → τ → ℕ} (hpush : Promises push accepted)
    (hverify : Promises (fun phone => verify (.start phone)) texted) :
    (∀ calls s msg, Bounded accepted s (callAll (fun msg c s => send push c msg s) calls s) msg) ∧
      ∀ calls s phone, Bounded texted s
        (callAll (fun phone c s => startVerification verify c phone s) calls s) phone :=
  ⟨fun calls s msg => (actsOnce_send hpush).bounded calls s msg,
    fun calls s phone => (actsOnce_start hverify).bounded calls s phone⟩

/-- A provider that refuses the first attempt of a request, and takes the second. -/
def hesitant {Q : Type} (q : Q) (k : ℕ) (taken : List Q) : Answer × List Q :=
  if k = 0 then (⟨503, []⟩, taken) else (⟨201, []⟩, taken ++ [q])

theorem hesitant_promises {Q : Type} [DecidableEq Q] :
    Promises (hesitant (Q := Q)) fun q taken => taken.count q := by
  have hcases : ∀ (q : Q) k (taken : List Q), hesitant q k taken = (⟨503, []⟩, taken) ∨
      hesitant q k taken = (⟨201, []⟩, taken ++ [q]) := by
    intro q k taken
    simp only [hesitant]
    split
    · exact .inl rfl
    · exact .inr rfl
  refine ⟨fun q k s => ?_, fun q q' k s hne => ?_, fun q k s hrefused => ?_, fun q k s hdone => ?_⟩
  · rcases hcases q k s with h | h <;> simp [h]
  · rcases hcases q k s with h | h <;> simp [h, Ne.symm hne]
  · rcases hcases q k s with h | h <;> simp [h, Refusal] at hrefused ⊢
  · rcases hcases q k s with h | h <;> simp [h, Answer.succeeds] at hdone ⊢

def hesitantVerify : VerifyRequest → ℕ → List String → Answer × List String
  | .start phone, k, taken => hesitant phone k taken
  | .check _ _, _, taken => (⟨404, []⟩, taken)

def calm : ℕ → Circumstance := fun _ => ⟨.answered, false, false⟩

/-- The second attempt is taken, but its answer gets lost. -/
def lossy : ℕ → Circumstance
  | 1 => ⟨.broken true true, false, false⟩
  | _ => ⟨.answered, false, false⟩

def alarm : PushMessage := ⟨1, "token", 2, 3⟩

theorem messages_sent_once_hesitantly :
    (callAll (fun msg c s => send hesitant c msg s) [(alarm, calm), (alarm, lossy)] []).1 =
        [(alarm, .ok ()), (alarm, .error (.requestFailed "timeout"))] ∧
      (∀ msg, Bounded (fun q taken => taken.count q) []
        (callAll (fun msg c s => send hesitant c msg s) [(alarm, calm), (alarm, lossy)] []) msg) ∧
      ∀ phone, Bounded (fun q taken => taken.count q) [] (callAll (fun phone c s =>
        startVerification hesitantVerify c phone s) [("+905551112277", lossy)] []) phone :=
  have hverify : Promises (fun phone => hesitantVerify (.start phone))
      fun q taken => taken.count q := hesitant_promises
  have hsent := messages_sent_once hesitant_promises hverify
  ⟨rfl, hsent.1 _ _, hsent.2 _ _⟩

end Delivery

section Approval

variable {σ δ : Type} {c : ℕ → Circumstance} {s : σ}

/-- A result that was made of an answer was made of one that the provider has given. -/
theorem answered_of_bind {φ α : Type} {p : Policy Answer (Except φ Answer)}
    (hp : ∀ good, p.Vouched (Reports good) good) {handle : ℕ → σ → Answer × σ}
    {result : Answer → Except φ α} {a : α}
    (h : (tries p handle c repeats 0 s).1.bind result = .ok a) :
    ∃ k t, result (handle k t).1 = .ok a := by
  have hreports : Reports (fun r => result r = .ok a) (tries p handle c repeats 0 s).1 := by
    generalize (tries p handle c repeats 0 s).1 = x at h
    cases x with
    | error e => cases h
    | ok r => exact ⟨r, rfl, h⟩
  exact (hp fun r => result r = .ok a).answer hreports

/-- The provider approves of the code in an answer to a check of it. -/
def Approves (serve : VerifyRequest → ℕ → σ → Answer × σ) (phone code : String) : Prop :=
  ∃ k t, (serve (.check phone code) k t).1.succeeds = true ∧
    checkedStatus (serve (.check phone code) k t).1.body = some "approved"

/-- The phone number is on the list, and the code is the list's. -/
def Listed (allowlist : Option ReviewAllowlist) (phone code : String) : Prop :=
  ∃ a, allowlist = some a ∧ phone ∈ a.numbers ∧ code = a.code

theorem approves_of_checkResult {r : Answer} (h : checkResult r = .ok ()) :
    r.succeeds = true ∧ checkedStatus r.body = some "approved" := by
  by_cases hstatus : r.succeeds = true
  · refine ⟨hstatus, ?_⟩
    simp only [checkResult, if_pos hstatus] at h
    split at h <;> first | assumption | cases h
  · simp only [checkResult, if_neg hstatus] at h
    repeat' split at h
    all_goals cases h

theorem approved_of_check {serve : VerifyRequest → ℕ → σ → Answer × σ}
    {allowlist : Option ReviewAllowlist} {phone code : String}
    (h : (otpProvider serve c allowlist phone code s).checkVerification = .ok ()) :
    Listed allowlist phone code ∨ Approves serve phone code := by
  simp only [otpProvider, ReviewAllowlist.check] at h
  cases hlisted : allowlist.filter fun a => a.numbers.contains phone with
  | none =>
    rw [hlisted] at h
    cases hcheck : (checkVerification serve c phone code s).1 with
    | error e =>
      simp only [hcheck] at h
      cases h
    | ok u =>
      obtain ⟨k, t, hresult⟩ := answered_of_bind post_vouched hcheck
      exact .inr ⟨k, t, approves_of_checkResult hresult⟩
  | some a =>
    rw [hlisted] at h
    obtain ⟨ha, hphone⟩ := Option.filter_eq_some_iff.mp hlisted
    by_cases hcode : code = a.code
    · exact .inl ⟨a, ha, by simpa using hphone, hcode⟩
    · simp only [if_neg hcode] at h
      cases h

theorem verifyOTP_approved {serve : VerifyRequest → ℕ → σ → Answer × σ}
    {allowlist : Option ReviewAllowlist} {cfg : Config} {env : Env} {rawPhone code : String}
    {deviceId : Schema.UUID} {w : World} {session : AccountServices.Session}
    (hexternal : ∀ phone, normalizePhone rawPhone = .ok phone →
      env.external = some (otpProvider serve c allowlist phone code s))
    (h : (AccountServices.verifyOTP cfg env rawPhone code deviceId w).1 = .ok session) :
    ∃ phone, normalizePhone rawPhone = .ok phone ∧
      (Listed allowlist phone code ∨ Approves serve phone code) := by
  unfold AccountServices.verifyOTP at h
  cases hphone : normalizePhone rawPhone with
  | error e => simp [hphone] at h
  | ok phone =>
    refine ⟨phone, rfl, ?_⟩
    simp only [hphone, hexternal phone hphone] at h
    cases hcheck : (otpProvider serve c allowlist phone code s).checkVerification with
    | error e => simp [hcheck] at h
    | ok u => exact approved_of_check hcheck

/-- The model decides so in an answer about this input. -/
def Decides (serve : String → Moderated δ → ℕ → σ → Answer × σ) (model : String)
    (input : Moderated δ) (d : ModerationDecision) : Prop :=
  ∃ k t reply, (serve model input k t).1.succeeds = true ∧
    replyOf (serve model input k t).1.body = some reply ∧ runReply reply = .ok d

theorem decides_of_run {serve : String → Moderated δ → ℕ → σ → Answer × σ} {model : String}
    {input : Moderated δ} {d : ModerationDecision} (h : (run serve c model input s).1 = .ok d) :
    Decides serve model input d := by
  obtain ⟨k, t, hresult⟩ := answered_of_bind repeating_vouched h
  refine ⟨k, t, ?_⟩
  by_cases hstatus : (serve model input k t).1.succeeds = true
  · simp only [runResult, if_pos hstatus] at hresult
    cases hreply : replyOf (serve model input k t).1.body with
    | none =>
      rw [hreply] at hresult
      cases hresult
    | some text =>
      rw [hreply] at hresult
      cases hdecided : runReply text with
      | error e =>
        simp only [hdecided] at hresult
        cases hresult
      | ok d' =>
        simp only [hdecided] at hresult
        cases hresult
        exact ⟨text, hstatus, rfl, hdecided⟩
  · simp only [runResult, if_neg hstatus] at hresult
    cases hresult

/-- However the network and the providers behave: a session is opened only for a code that the
provider approves of, or the review list, and content is allowed or rejected only as the model
says. -/
theorem decided_by_provider {τ : Type} {verify : VerifyRequest → ℕ → σ → Answer × σ}
    {allowlist : Option ReviewAllowlist} {cfg : Config} {env : Env} {rawPhone code : String}
    {deviceId : Schema.UUID} {w : World} {session : AccountServices.Session}
    (classify : String → Moderated δ → ℕ → τ → Answer × τ) (t : τ)
    (hexternal : ∀ phone, normalizePhone rawPhone = .ok phone →
      env.external = some (otpProvider verify c allowlist phone code s))
    (hsession : (AccountServices.verifyOTP cfg env rawPhone code deviceId w).1 = .ok session) :
    (∃ phone, normalizePhone rawPhone = .ok phone ∧
      (Listed allowlist phone code ∨ Approves verify phone code)) ∧
    (∀ model text d, (moderateText classify c model text t).1 = .ok d →
      Decides classify model (.text text) d) ∧
    ∀ model contentType data d, model ≠ "" →
      (moderateImage classify c model contentType data t).1 = .ok d →
        Decides classify model (.image contentType data) d := by
  refine ⟨verifyOTP_approved hexternal hsession, fun _ _ _ h => decides_of_run h,
    fun model contentType data d hmodel h => ?_⟩
  rw [moderateImage, if_neg hmodel] at h
  exact decides_of_run h

/-- The first check gets no connection. -/
def patchy : ℕ → Circumstance
  | 0 => ⟨.unreached true, false, false⟩
  | _ => ⟨.answered, false, false⟩

/-- Approves of one code. -/
def checking : VerifyRequest → ℕ → Unit → Answer × Unit
  | .start _, _, u => (⟨201, []⟩, u)
  | .check _ code, _, u =>
    (⟨200, (if code = "246810" then "\x7b\"status\":\"approved\"\x7d"
      else "\x7b\"status\":\"pending\"\x7d").toList⟩, u)

def verifyingEnv : Env :=
  { Backend.plainEnv 1 with
    external := some (otpProvider checking patchy none "+905551112288" "246810" ()) }

def unlinkedDevice : World where
  db := ⟨{ devices := [{ id := 4, tokenHash := "d", platform := .ios }] }, by decide⟩

/-- A model that allows every text, and is out of order for images. -/
def classifier : String → Moderated Unit → ℕ → Unit → Answer × Unit
  | _, .text _, _, u =>
    (⟨200, ("\x7b\"success\":true,\"result\":\x7b\"response\":\"" ++
      "\x7b\\\"decision\\\":\\\"allow\\\",\\\"categories\\\":[]\x7d\"\x7d\x7d").toList⟩, u)
  | _, .image _ _, _, u => (⟨500, []⟩, u)

def opening : Except Error AccountServices.Session :=
  (AccountServices.verifyOTP Backend.plainConfig verifyingEnv "0555 111 22 88" "246810" 4
    unlinkedDevice).1

theorem decided_by_provider_after_timeout : ∃ session, opening = .ok session ∧
    (moderateText classifier patchy "text" "tekir" ()).1 = .ok ⟨true, []⟩ ∧
    (∃ phone, normalizePhone "0555 111 22 88" = .ok phone ∧
      (Listed none phone "246810" ∨ Approves checking phone "246810")) ∧
    Decides classifier "text" (.text "tekir") ⟨true, []⟩ := by
  have hok : isOk opening = true := by decide +kernel
  have hphone : normalizePhone "0555 111 22 88" = .ok "+905551112288" := by decide +kernel
  have htext : (moderateText classifier patchy "text" "tekir" ()).1 = .ok ⟨true, []⟩ := by
    decide +kernel
  cases hsession : opening with
  | error e =>
    rw [hsession] at hok
    cases hok
  | ok session =>
    have hexternal : ∀ phone, normalizePhone "0555 111 22 88" = .ok phone →
        verifyingEnv.external =
          some (otpProvider checking patchy none phone "246810" ()) := by
      intro phone h
      rw [hphone] at h
      cases h
      rfl
    have hdecided := decided_by_provider classifier () hexternal hsession
    exact ⟨session, rfl, htext, hdecided.1, hdecided.2.1 "text" "tekir" _ htext⟩

end Approval

section Storage

variable {δ σ : Type}

/-- The word of an object storage: a request is carried out or not, it is if it is answered with
success, and an object that is reported missing is. -/
structure Stores (serve : StoreRequest δ → ℕ → σ → Answer × σ) (objects : σ → Objects δ) :
    Prop where
  carried : ∀ q k s, objects (serve q k s).2 = objects s ∨
    objects (serve q k s).2 = q.apply (objects s)
  done : ∀ q k s, (serve q k s).1.succeeds = true → objects (serve q k s).2 = q.apply (objects s)
  missing : ∀ key k s, (serve (.delete key) k s).1.status = 404 →
    objects (serve (.delete key) k s).2 key = none

/-- The calls in order, with whether they report success. -/
def requests (serve : StoreRequest δ → ℕ → σ → Answer × σ) (publicBaseURL : String) :
    List (StoreRequest δ × (ℕ → Circumstance)) → σ → List (StoreRequest δ × Bool) × σ
  | [], s => ([], s)
  | (q, c) :: calls, s =>
    let r := request serve c publicBaseURL q s
    let rest := requests serve publicBaseURL calls r.2
    ((q, isOk r.1) :: rest.1, rest.2)

/-- A store that carries out what it reports, and carries out or drops the rest. -/
inductive Explains : List (StoreRequest δ × Bool) → Objects δ → Objects δ → Prop
  | nil {o : Objects δ} : Explains [] o o
  | carried {q : StoreRequest δ} {reported : Bool} {rest : List (StoreRequest δ × Bool)}
      {o o' : Objects δ} : Explains rest (q.apply o) o' → Explains ((q, reported) :: rest) o o'
  | dropped {q : StoreRequest δ} {rest : List (StoreRequest δ × Bool)} {o o' : Objects δ} :
      Explains rest o o' → Explains ((q, false) :: rest) o o'

theorem apply_apply (q : StoreRequest δ) (o : Objects δ) : q.apply (q.apply o) = q.apply o := by
  cases q <;> simp [StoreRequest.apply]

theorem apply_other (q : StoreRequest δ) (o : Objects δ) {key : String} (h : key ≠ q.key) :
    q.apply o key = o key := by
  cases q <;> exact Function.update_of_ne h _ _

variable {serve : StoreRequest δ → ℕ → σ → Answer × σ} {objects : σ → Objects δ}

theorem Stores.deleted (h : Stores serve objects) {key : String} {k : ℕ} {s : σ}
    (hstatus : (serve (.delete key) k s).1.succeeds = true ∨
      (serve (.delete key) k s).1.status = 404) :
    objects (serve (.delete key) k s).2 = (StoreRequest.delete key).apply (objects s) := by
  rcases hstatus with hstatus | hstatus
  · exact h.done (.delete key) k s hstatus
  · have hmissing := h.missing key k s hstatus
    rcases h.carried (.delete key) k s with hsame | happlied
    · funext key'
      rw [hsame] at hmissing ⊢
      by_cases hkey : key' = key
      · subst hkey
        simp [StoreRequest.apply, hmissing]
      · exact (apply_other (.delete key) (objects s) hkey).symm
    · exact happlied

theorem succeeds_of_putResult {publicBaseURL key : String} {r : Answer}
    (h : isOk (putResult publicBaseURL key r) = true) : r.succeeds = true := by
  by_contra hfail
  rw [putResult, if_neg hfail] at h
  cases h

theorem gone_of_deleteResult {r : Answer} (h : isOk (deleteResult r) = true) :
    r.succeeds = true ∨ r.status = 404 := by
  by_contra hfail
  rw [deleteResult, if_neg hfail] at h
  cases h

/-- A repeated request is carried out or not, and it is if a good answer to it was seen. -/
theorem Stores.carried_of_do (h : Stores serve objects) (q : StoreRequest δ)
    (good : Answer → Prop) (c : ℕ → Circumstance) (s : σ)
    (hgood : ∀ k s, good (serve q k s).1 → objects (serve q k s).2 = q.apply (objects s)) :
    (objects (tries s3Do (serve q) c repeats 0 s).2 = objects s ∨
      objects (tries s3Do (serve q) c repeats 0 s).2 = q.apply (objects s)) ∧
    (Reports good (tries s3Do (serve q) c repeats 0 s).1 →
      objects (tries s3Do (serve q) c repeats 0 s).2 = q.apply (objects s)) := by
  have hvouched : s3Do.Vouched (Reports good) good := repeating_vouched good
  exact hvouched.effect (apply_apply q) (h.carried q) hgood

/-- One call has an effect of its own or none, and the effect if it reports success. -/
theorem Stores.request (h : Stores serve objects) (c : ℕ → Circumstance) (publicBaseURL : String)
    (q : StoreRequest δ) (s : σ) :
    (objects (request serve c publicBaseURL q s).2 = objects s ∨
      objects (request serve c publicBaseURL q s).2 = q.apply (objects s)) ∧
    (isOk (request serve c publicBaseURL q s).1 = true →
      objects (request serve c publicBaseURL q s).2 = q.apply (objects s)) := by
  cases q with
  | put key contentType data =>
    simp only [Providers.request, put, isOk_map]
    by_cases hkey : validateObjectKey key = true
    · rw [if_pos hkey]
      have heffect := h.carried_of_do (.put key contentType data) (fun r => r.succeeds = true) c s
        (h.done _)
      exact ⟨heffect.1, fun hok => heffect.2 (reports_of_isOk (fun r => succeeds_of_putResult) hok)⟩
    · rw [if_neg hkey]
      exact ⟨.inl rfl, fun hok => absurd hok Bool.false_ne_true⟩
  | delete key =>
    simp only [Providers.request, delete, isOk_map]
    by_cases hkey : validateObjectKey key = true
    · rw [if_pos hkey]
      have heffect := h.carried_of_do (.delete key)
        (fun r => r.succeeds = true ∨ r.status = 404) c s fun k s hstatus => h.deleted hstatus
      exact ⟨heffect.1, fun hok => heffect.2 (reports_of_isOk (fun r => gone_of_deleteResult) hok)⟩
    · rw [if_neg hkey]
      exact ⟨.inl rfl, fun hok => absurd hok Bool.false_ne_true⟩

/-- However the network behaves, the objects are those of a store that carries out every call it
reports, and carries out or drops every other. -/
theorem storage_explained (h : Stores serve objects) (publicBaseURL : String)
    (calls : List (StoreRequest δ × (ℕ → Circumstance))) (s : σ) :
    Explains (requests serve publicBaseURL calls s).1 (objects s)
      (objects (requests serve publicBaseURL calls s).2) := by
  induction calls generalizing s with
  | nil => exact .nil
  | cons x calls ih =>
    obtain ⟨q, c⟩ := x
    have hcall := h.request c publicBaseURL q s
    have hrest := ih (request serve c publicBaseURL q s).2
    cases hok : isOk (request serve c publicBaseURL q s).1 with
    | true =>
      rw [hcall.2 hok] at hrest
      simp only [requests, hok]
      exact .carried hrest
    | false =>
      simp only [requests, hok]
      rcases hcall.1 with hsame | happlied
      · rw [hsame] at hrest
        exact .dropped hrest
      · rw [happlied] at hrest
        exact .carried hrest

/-- A storage that does as it is told. -/
def obedient (q : StoreRequest ℕ) (_ : ℕ) (o : Objects ℕ) : Answer × Objects ℕ :=
  (⟨200, []⟩, q.apply o)

theorem obedient_stores : Stores obedient id :=
  ⟨fun _ _ _ => .inr rfl, fun _ _ _ _ => rfl, fun key k s h => by cases h⟩

/-- A put whose answer is lost twice, and a delete. -/
def lostPut : List (StoreRequest ℕ × (ℕ → Circumstance)) :=
  [(.put "a.jpg" "image/jpeg" 1, fun _ => ⟨.broken true true, false, false⟩),
    (.delete "b.jpg", calm)]

theorem storage_explained_when_lost :
    (requests obedient "https://cdn" lostPut fun _ => none).1 =
      [(.put "a.jpg" "image/jpeg" 1, false), (.delete "b.jpg", true)] ∧
    Explains (requests obedient "https://cdn" lostPut fun _ => none).1 (fun _ => none)
      (requests obedient "https://cdn" lostPut fun _ => none).2 :=
  ⟨by decide, storage_explained obedient_stores "https://cdn" lostPut fun _ => none⟩

end Storage

end Tekir.ProviderContracts
