import Tekir.AccountCalls
import Tekir.Bookkeeping
import Tekir.Contracts

/-!
# One session for a code

Verifications and code requests interleave statement by statement and may be lost at any
point. A consumption finds its row unconsumed and holds the row's lock until it commits,
so a code row is consumed by one commit at most, and that commit opens the one session.
-/
namespace Tekir.CodeSessions
open Machine Table Schema Statements Environment Programs Interleaving Bookkeeping Contracts
  AccountCalls
open AccountServices (Session)

def Consumes (ws : List Write) (id : UUID) : Prop :=
  ∃ at', Write.consumed id at' ∈ ws

/-- The code row exists, is unconsumed, and has not expired at the given instant. -/
def Unspent (t : Tables) (id : UUID) (at' : Instant) : Prop :=
  ∃ o ∈ t.otpCodes, o.id = id ∧ o.consumedAt = none ∧ at' < o.expiresAt

def Spent (t : Tables) (id : UUID) : Prop :=
  ∃ o ∈ t.otpCodes, o.id = id ∧ o.consumedAt ≠ none

/-- The call returned a session and had committed the consumption of this code. -/
def Opened {n : ℕ} (s : AccountState n) (id : UUID) (d : AccountDone) : Prop :=
  (∃ session, d.result = .ok (some session)) ∧ ∃ c ∈ s.history, By d.ticket c ∧ Consumes c.writes id

/-- Codes are consumed no further, and accounts, links, content and tokens are the same. -/
structure KeepsAccounts (t t' : Tables) : Prop where
  otpCodes : t'.otpCodes.map (fun o => (o.id, o.consumedAt)) =
    t.otpCodes.map fun o => (o.id, o.consumedAt)
  users : t'.users = t.users
  devices : t'.devices = t.devices
  follows : t'.follows = t.follows
  updates : t'.updates = t.updates
  refreshTokens : t'.refreshTokens = t.refreshTokens

section Tables

variable {t : Tables} {o : OtpCode} {id : UUID} {at' : Instant} {ws : List Write}

/-- What some writes make of a code row: a consumption sets the stamp, and nothing else does. -/
structure CodeAfter (ws : List Write) (o o' : OtpCode) : Prop where
  id : o'.id = o.id
  expiresAt : o'.expiresAt = o.expiresAt
  consumedAt : (¬ Consumes ws o.id ∧ o'.consumedAt = o.consumedAt) ∨
    ((Consumes ws o.id ∨ o.consumedAt ≠ none) ∧ o'.consumedAt ≠ none)

theorem CodeAfter.same (hws : ¬ Consumes ws o.id) : CodeAfter ws o o :=
  ⟨rfl, rfl, .inl ⟨hws, rfl⟩⟩

theorem exists_otpCode_apply (ho : o ∈ t.otpCodes) (w : Write) :
    ∃ o' ∈ (w.apply t).otpCodes, CodeAfter [w] o o' := by
  cases w with
  | otpCode row => exact ⟨o, List.mem_append_left _ ho, .same (by simp [Consumes])⟩
  | attempt id =>
    refine ⟨_, mem_updateWhere.mpr ⟨o, ho, rfl⟩, ?_, ?_, .inl ⟨by simp [Consumes], ?_⟩⟩ <;>
      split <;> rfl
  | consumed id at' =>
    refine ⟨_, mem_updateWhere.mpr ⟨o, ho, rfl⟩, ?_, ?_, ?_⟩
    · split <;> rfl
    · split <;> rfl
    · by_cases hid : o.id = id
      · exact .inr ⟨.inl ⟨at', by simp [hid]⟩, by simp [hid]⟩
      · exact .inl ⟨by simp [Consumes, hid], by simp [hid]⟩
  | user | linked | unlinked | droppedFollows | claimedFollows | claimedUpdates | refreshToken
  | revoked | rotated => exact ⟨o, ho, .same (by simp [Consumes])⟩

theorem consumes_cons {w : Write} : Consumes (w :: ws) id ↔ Consumes [w] id ∨ Consumes ws id := by
  simp [Consumes, exists_or]

theorem CodeAfter.cons {w : Write} {o₁ o₂ : OtpCode} (h : CodeAfter [w] o o₁)
    (h₂ : CodeAfter ws o₁ o₂) : CodeAfter (w :: ws) o o₂ := by
  refine ⟨h₂.id.trans h.id, h₂.expiresAt.trans h.expiresAt, ?_⟩
  have h₂ := h₂.consumedAt
  rw [h.id] at h₂
  rw [consumes_cons]
  rcases h.consumedAt with ⟨hno, heq⟩ | ⟨hyes, hset⟩
  · rw [heq] at h₂
    tauto
  · refine .inr ⟨hyes.imp_left .inl, ?_⟩
    rcases h₂ with ⟨-, heq₂⟩ | ⟨-, hset₂⟩
    · rwa [heq₂]
    · exact hset₂

theorem exists_otpCode_applyAll (ho : o ∈ t.otpCodes) (ws : List Write) :
    ∃ o' ∈ (applyAll ws t).otpCodes, CodeAfter ws o o' :=
  exists_applyAll Tables.otpCodes CodeAfter (fun _ => .same (by simp [Consumes]))
    (fun _ _ ho w => exists_otpCode_apply ho w) (fun h h₂ => h.cons h₂) ho ws

theorem Spent.applyAll (h : Spent t id) (ws : List Write) : Spent (applyAll ws t) id := by
  obtain ⟨o, ho, rfl, hconsumed⟩ := h
  obtain ⟨o', ho', h'⟩ := exists_otpCode_applyAll ho ws
  refine ⟨o', ho', h'.id, ?_⟩
  rcases h'.consumedAt with ⟨-, heq⟩ | ⟨-, hset⟩
  · rwa [heq]
  · exact hset

/-- Publishing a consumption spends the code. -/
theorem Unspent.spent (h : Unspent t id at') (hws : Consumes ws id) :
    Spent (AccountCalls.applyAll ws t) id := by
  obtain ⟨o, ho, rfl, -, -⟩ := h
  obtain ⟨o', ho', h'⟩ := exists_otpCode_applyAll ho ws
  rcases h'.consumedAt with ⟨hno, -⟩ | ⟨-, hset⟩
  · exact absurd hws hno
  · exact ⟨o', ho', h'.id, hset⟩

/-- A code whose consumption is open elsewhere stays as it is. -/
theorem Unspent.applyAll (h : Unspent t id at') (hws : ¬ Consumes ws id) :
    Unspent (AccountCalls.applyAll ws t) id at' := by
  obtain ⟨o, ho, rfl, hnone, hlt⟩ := h
  obtain ⟨o', ho', h'⟩ := exists_otpCode_applyAll ho ws
  rcases h'.consumedAt with ⟨-, heq⟩ | ⟨hyes, -⟩
  · exact ⟨o', ho', h'.id, heq.trans hnone, h'.expiresAt ▸ hlt⟩
  · rcases hyes with hyes | hyes
    · exact absurd hyes hws
    · exact absurd hnone hyes

theorem Unspent.not_spent {db : Database} (h : Unspent db.tables id at') : ¬ Spent db.tables id := by
  rintro ⟨o', ho', hid', hset⟩
  obtain ⟨o, ho, hid, hnone, -⟩ := h
  have heq : o = o' := (db.valid.holds .otpCodesPkey).eq_of_key_eq ho ho' (by simp [hid, hid'])
    (by simp)
  exact hset (heq ▸ hnone)

end Tables

section Contract

open Prog

/-- The session is the one whose token is among the writes. -/
def Issued (cfg : Config) (ws : List Write) (session : Session) : Prop :=
  ∃ row, Write.refreshToken row ∈ ws ∧ row.userId = session.userId ∧
    row.tokenHash = hashRefreshToken cfg session.refreshToken

/-- A consumption comes first in its transaction and carries the clock it is compared with. -/
def Asks (l : AccountLocal) : Query → Prop
  | .consumeOtpCodeIfValid consumedAt _ _ now _ => l.writes = [] ∧ consumedAt = now
  | _ => True

/-- A refused verification has at most counted the attempt; one that returns a session has
committed the session's token, together with the consumption of a code if that is local. -/
def Settled (cfg : Config) (env : Env) (l : AccountLocal) : Except Error Session → Prop
  | .ok session => ∃ ws, l.mine = [ws] ∧
      (env.external = none → ∃ id, Write.consumed id env.clock ∈ ws) ∧ Issued cfg ws session
  | .error e => l.mine = [] ∨ ∃ id, l.mine = [[.attempt id]] ∧ e = .otpCodeMismatch

/-- The replies of a verification, seen as its results. -/
def Returns (cfg : Config) : Op → AccountLocal → Reply → Prop
  | .verifyOTP env _ _ _, l, .ok (some session) => Settled cfg env l (.ok session)
  | .verifyOTP env _ _ _, l, .error e => Settled cfg env l (.error e)
  | .verifyOTP _ _ _ _, _, .ok none => False
  | .requestOTP _ _, _, _ | .refresh _ _, _, _ | .revoke _ _, _, _ | .logout _ _ _ _, _, _ => True

def contract (cfg : Config) : Contract Write Query Query.Row Error Op Reply where
  asks _ := Asks
  returns := Returns cfg

variable {fails : Bool} {foreign : List Write → Database → Database → Bool} {cfg : Config}
  {env : Env} {phone code : String} {deviceId userId : UUID} {l : AccountLocal}

theorem asks_of_linksAccount {q : Query} (hq : q.LinksAccount) (l : AccountLocal) : Asks l q := by
  cases q <;> trivial

/-- What statements alone have added, and the token of the session they end with. -/
def Opens (cfg : Config) (l l' : AccountLocal) (r : Except Error Session) : Prop :=
  Grows l l' ∧ ∀ session, r = .ok session → Issued cfg l'.writes session

theorem issue_meets : (issue cfg env userId).Meets (engine fails foreign) Asks (fun _ => True)
    (Opens cfg l) l := by
  refine meets_ask_andThen (fun _ => trivial) (fun b₀ b a ws hrun => ?_) fun e => ?_
  · simp only [Query.run, writes_eq_ok] at hrun
    obtain ⟨-, rfl, -⟩ := hrun
    refine ⟨grows_ask l, fun session hsession => ?_⟩
    cases hsession
    exact ⟨_, List.mem_append_right _ (List.mem_singleton_self _), rfl, rfl⟩
  · exact ⟨grows_ask l, by simp⟩

theorem openSession_meets : (openSession cfg env phone deviceId).Meets (engine fails foreign) Asks (fun _ => True)
    (Opens cfg l) l := by
  refine meets_andThen ((resolveOrCreateUser_plain env phone env.clock).meets
    (fun l' q hq _ => asks_of_linksAccount hq l') fun l₁ r h₁ => ⟨fun found _ => ?_, ?_⟩)
  · refine meets_andThen ((linkDevice_plain deviceId found.1.id).meets
      (fun l' q hq _ => asks_of_linksAccount hq l') fun l₂ r h₂ => ⟨fun _ _ => ?_, ?_⟩)
    · refine meets_andThen (issue_meets.mono fun l₃ r h₃ => ⟨fun session hsession => ?_, ?_⟩)
      · refine ⟨(h₁.trans h₂).trans h₃.1, fun session' hsession' => ?_⟩
        cases hsession'
        exact h₃.2 session hsession
      · exact fun e _ => ⟨(h₁.trans h₂).trans h₃.1, by simp⟩
    · exact fun e _ => ⟨h₁.trans h₂, by simp⟩
  · exact fun e _ => ⟨h₁, by simp⟩

/-- What holds of a transaction that is about to end with this result. -/
def Opening (cfg : Config) (env : Env) (l : AccountLocal) (r : Except Error Session) : Prop :=
  l.mine = [] ∧ ∀ session, r = .ok session →
    (env.external = none → ∃ id, Write.consumed id env.clock ∈ l.writes) ∧
      Issued cfg l.writes session

/-- Until the transaction ends nothing is committed. -/
theorem withinTx_meets {body : Script Session}
    (h : body.Meets (engine fails foreign) Asks (fun _ => True) (Opening cfg env) l) :
    (withinTx body).Meets (engine fails foreign) Asks (fun _ => True) (Settled cfg env) l := by
  refine meets_transaction (h.mono fun l' r hr => ⟨fun session hs => ⟨fun _ => ?_, ?_⟩, ?_⟩)
  · exact ⟨trivial, l'.writes, by simp [hr.1], hr.2 session hs⟩
  · exact fun _ => .inl hr.1
  · exact fun e _ => .inl hr.1

theorem consumeAndOpen_meets {id : UUID} {hash : String} (hwrites : l.writes = [])
    (hmine : l.mine = []) :
    ((ask (.consumeOtpCodeIfValid env.clock id hash env.clock phone)).andThen fun _ =>
      openSession cfg env phone deviceId).Meets (engine fails foreign) Asks (fun _ => True) (Opening cfg env) l := by
  refine meets_ask_andThen (fun _ => ⟨hwrites, rfl⟩) (fun b₀ b a ws hrun => ?_) fun e => ?_
  · simp only [Query.run, bind_eq_ok, writes_eq_ok] at hrun
    obtain ⟨row₀, -, row, -, -, rfl, -⟩ := hrun
    refine openSession_meets.mono fun l' r hr => ⟨hr.1.mine.trans hmine, fun session hs => ?_⟩
    refine ⟨fun _ => ⟨row.id, hr.1.writes.subset ?_⟩, hr.2 session hs⟩
    exact List.mem_append_right _ (List.mem_singleton_self _)
  · exact ⟨hmine, by simp⟩

/-- The right code opens the session in the transaction that consumes it. -/
theorem checkCode_meets {row : OtpCode} (hwrites : l.writes = []) (hmine : l.mine = []) :
    (checkCode cfg env phone code deviceId row).Meets (engine fails foreign) Asks (fun _ => True)
      (Settled cfg env) l := by
  unfold checkCode
  split
  · refine meets_bind.mpr ((withinTx_meets (consumeAndOpen_meets hwrites hmine)).mono ?_)
    rintro l' (e | session) h
    · rcases h with h | ⟨id, h, rfl⟩
      · cases e <;> exact .inl h
      · exact .inr ⟨id, h, rfl⟩
    · exact h
  · refine meets_bind.mpr (meets_writeOnce (fun _ => trivial) (fun b₀ b a ws hrun => ?_) ?_)
    · simp only [Query.run, writes_eq_ok] at hrun
      obtain ⟨-, rfl, -⟩ := hrun
      exact ⟨trivial, .inr ⟨row.id, by simp [hwrites, hmine], rfl⟩⟩
    · exact fun r e => .inl hmine

theorem verifyOTP_meets : (verifyOTP cfg env phone code deviceId).Meets (engine fails foreign) Asks
    (fun _ => True) (Settled cfg env) {} := by
  unfold verifyOTP
  split
  · exact .inl rfl
  · split
    · exact .inl rfl
    · refine withinTx_meets (openSession_meets.mono fun l' r hr => ⟨hr.1.mine, fun session hs => ?_⟩)
      rename_i hexternal _ _
      exact ⟨fun h => by simp [hexternal] at h, hr.2 session hs⟩
  · refine meets_bind.mpr (meets_readOnce (fun _ => trivial) (fun b₀ b row ws hrun => ?_) ?_)
    · simp only
      split
      · exact .inl rfl
      · exact checkCode_meets rfl rfl
    · intro e
      cases e <;> exact .inl rfl

theorem contract_met : (contract cfg).Met (engine fails foreign) (program cfg) := by
  intro o
  cases o with
  | verifyOTP env phone code deviceId =>
    refine meets_bind.mpr (verifyOTP_meets.mono fun l r h => ?_)
    cases r <;> exact h
  | requestOTP env phone =>
    refine (requestOTP_uses cfg env phone).meets (fun l q hq => ?_) (fun _ => trivial) fun _ _ => trivial
    cases q <;> trivial
  | refresh env token =>
    refine (uses_reply (refresh_uses cfg env token) _).meets
      (fun l q hq => ?_) (fun _ => trivial) fun _ _ => trivial
    cases q <;> trivial
  | revoke env token =>
    refine (uses_reply (revoke_uses cfg env token) _).meets
      (fun l q hq => ?_) (fun _ => trivial) fun _ _ => trivial
    cases q <;> trivial
  | logout env userId token deviceId =>
    refine (uses_reply (logout_uses cfg env userId token deviceId) _).meets
      (fun l q hq => ?_) (fun _ => trivial) fun _ _ => trivial
    cases q with
    | consumeOtpCodeIfValid => exact (hq.elim id id).elim
    | _ => trivial

end Contract

section Law

/-- The write consumes this code at this instant. -/
def Takes (w : Write) (id : UUID) (at' : Instant) : Prop :=
  w = .consumed id at'

variable {cfg : Config} {db db' : Database} {ws : List Write}

/-- A consumption that a statement writes finds its code unspent in the committed rows. -/
theorem unspent_of_effect {l : AccountLocal} {q : Query} {b₀ b : Database} {id : UUID}
    {at' : Instant} (hview : view l.writes db = some b) (hasks : Asks l q)
    (hmem : Write.consumed id at' ∈ effect q b₀ b) : Unspent db.tables id at' := by
  have hemits : q.Emits (.consumed id at') := emits_of_mem hmem
  obtain ⟨a, hrun⟩ := mem_effect hmem
  cases q with
  | consumeOtpCodeIfValid consumedAt id' codeHash now phone =>
    obtain ⟨hwrites, rfl⟩ := hasks
    rw [hwrites, view_nil] at hview
    cases hview
    simp only [Query.run, bind_eq_ok, writes_eq_ok] at hrun
    obtain ⟨row₀, -, row, hrow, -, hws, -⟩ := hrun
    rw [hws, List.mem_singleton] at hmem
    cases hmem
    obtain ⟨hrow, hvalid⟩ := List.mem_filter.mp (one_eq_ok hrow)
    simp only [consumable, Bool.and_eq_true, beq_iff_eq, decide_eq_true_eq] at hvalid
    obtain ⟨⟨⟨⟨⟨-, -⟩, hnone⟩, hlt⟩, -⟩, -⟩ := hvalid
    exact ⟨row, hrow, rfl, Option.isNone_iff_eq_none.mp hnone, hlt⟩
  | _ => exact hemits.elim

/-- A code is spent by the write of one commit. -/
theorem resource : Resource (contract cfg) system Takes
    (fun db id at' => Unspent db.tables id at') (fun db id => Spent db.tables id) where
  exclusive db id at' h := h.not_spent
  asked o l q db b₀ b w id at' hview hasks _ hmem hw := by
    obtain rfl : w = .consumed id at' := hw
    exact unspent_of_effect hview hasks hmem
  published ws db db' w id at' hview hmem hw h := by
    obtain rfl : w = .consumed id at' := hw
    rw [tables_of_view hview]
    exact h.spent ⟨at', hmem⟩
  stays ws db db' id hview h := by
    rw [tables_of_view hview]
    exact h.applyAll ws
  untouched ws db db' w' id at' hview hw' hapart h := by
    obtain rfl : w' = .consumed id at' := hw'
    rw [tables_of_view hview]
    refine h.applyAll ?_
    rintro ⟨at₁, hmem⟩
    have hclash := hapart _ hmem
    simp [system, engine, clash, Write.locks] at hclash
  foreign ws db db' id hforeign h := by
    have haside : Aside db.tables db'.tables := of_decide_eq_true hforeign
    obtain ⟨o, ho, hrest⟩ := h
    exact ⟨o, haside.otpCodes ▸ ho, hrest⟩
  foreign_free ws db db' w id at' hforeign _ _ h := by
    have haside : Aside db.tables db'.tables := of_decide_eq_true hforeign
    obtain ⟨o, ho, hrest⟩ := h
    exact ⟨o, haside.otpCodes ▸ ho, hrest⟩

end Law

variable {n : ℕ} {cfg : Config} {s s' : AccountState n} {as : List (AccountAction n)}

theorem governed (hs : Idle s) (h : exec (step system (program cfg)) s as = some s') :
    Governed (contract cfg) system
      (TakenOnce Takes (fun db id at' => Unspent db.tables id at') fun db id => Spent db.tables id)
      (fun _ _ _ db _ l => HoldsFree Takes (fun db id at' => Unspent db.tables id at') db l) s' :=
  Governed.exec contract_met resource.law (.of_idle hs ⟨by simp, by simp, .nil⟩) h

/-- Only the attempts of a code change. -/
theorem keepsAccounts_attempt (t : Tables) (id : UUID) :
    KeepsAccounts t (applyAll [.attempt id] t) := by
  refine ⟨?_, rfl, rfl, rfl, rfl, rfl⟩
  simp only [applyAll, List.foldl_cons, List.foldl_nil, Write.apply]
  exact map_updateWhere (by simp) _

/-- A code opens at most one session, for each interleaving and each failure. -/
theorem code_opens_one_session (hs : Idle s)
    (h : exec (step system (program cfg)) s as = some s') :
    (∀ id, s'.history.Pairwise fun c c' => ¬ (Consumes c.writes id ∧ Consumes c'.writes id)) ∧
    (∀ id, s'.log.Pairwise fun d d' => ¬ (Opened s' id d ∧ Opened s' id d')) ∧
    (∀ d ∈ s'.log, ∀ env phone code deviceId session,
      d.op = .verifyOTP env phone code deviceId → env.external = none →
      d.result = .ok (some session) → ∃ c ∈ s'.history, By d.ticket c ∧ Issued cfg c.writes session ∧
        ∃ id, Write.consumed id env.clock ∈ c.writes ∧ Unspent c.base.tables id env.clock) ∧
    (∀ d ∈ s'.log, ∀ env phone code deviceId e, d.op = .verifyOTP env phone code deviceId →
      d.result = .error e → ∀ c ∈ s'.history, By d.ticket c →
        KeepsAccounts c.base.tables c.next.tables) := by
  have hgoverned := governed hs h
  have hbooks := Books.exec hs h
  have hrecorded := Recorded.exec hs h
  refine ⟨fun id => ?_, fun id => ?_, ?_, ?_⟩
  · refine hgoverned.base.once.imp ?_
    rintro c c' hno ⟨⟨at₁, hat₁⟩, ⟨at₂, hat₂⟩⟩
    exact hno _ hat₁ _ hat₂ id at₁ at₂ rfl rfl
  · have hnodup : s'.log.Pairwise fun d d' => d.ticket ≠ d'.ticket :=
      List.pairwise_map.mp hbooks.nodup
    refine hnodup.imp fun {d d'} hne hboth => ?_
    obtain ⟨⟨-, c, hc, ⟨a, ha, hat⟩, hid⟩, ⟨-, c', hc', ⟨a', ha', hat'⟩, hid'⟩⟩ := hboth
    obtain ⟨at₁, hat₁⟩ := hid
    obtain ⟨at₂, hat₂⟩ := hid'
    obtain rfl : c = c' := hgoverned.base.eq hc hc' hat₁ hat₂ rfl rfl
    obtain rfl : a = a' := Option.some.inj (ha.symm.trans ha')
    exact hne (hat.symm.trans hat')
  · intro d hd env phone code deviceId session hop hexternal hresult
    have hreturns := hgoverned.log d hd
    rw [hop, hresult] at hreturns
    obtain ⟨ws, hmine, hconsumed, hissued⟩ := hreturns
    obtain ⟨id, hid⟩ := hconsumed hexternal
    obtain ⟨c, hc, hby, rfl⟩ := (hbooks.mem_mine hd).mp (hmine ▸ List.mem_singleton_self ws)
    exact ⟨c, hc, hby, hissued, id, hid, hgoverned.base.free c hc _ hid id _ rfl⟩
  · intro d hd env phone code deviceId e hop hresult c hc hby
    have hreturns := hgoverned.log d hd
    rw [hop, hresult] at hreturns
    have hmem : c.writes ∈ d.loc.mine := (hbooks.mem_mine hd).mpr ⟨c, hc, hby, rfl⟩
    rcases hreturns with hmine | ⟨id, hmine, -⟩
    · simp [hmine] at hmem
    · have hview := hby.view (hrecorded.happened c hc)
      rw [show c.writes = _ from List.mem_singleton.mp (hmine ▸ hmem)] at hview
      rw [tables_of_view hview]
      exact keepsAccounts_attempt _ _

/-- One code, requested on an unlinked device. -/
def requested : AccountState 2 where
  base := ⟨{ devices := [{ id := 7, tokenHash := "d", platform := .ios }] }, by decide⟩

def localEnv (k : ℕ) : Env :=
  { Backend.plainEnv k with external := none, otpCode := "1" }

/-- A request, and then two verifications with the same code. The second takes the snapshot of
its consumption before the first commits, and completes it afterwards. -/
def sameCodeTwice : List (AccountAction 2) :=
  .call 0 (.requestOTP (localEnv 1) "5551234567") :: List.replicate 7 (.run 0) ++
  [.call 0 (.verifyOTP (localEnv 2) "5551234567" "1" 7),
   .call 1 (.verifyOTP (localEnv 3) "5551234567" "1" 7)] ++
  List.replicate 4 (.run 0) ++ List.replicate 4 (.run 1) ++ List.replicate 19 (.run 0) ++
  List.replicate 3 (.run 1)

theorem requested_idle : Idle requested :=
  ⟨fun _ => rfl, rfl, rfl, rfl⟩

/-- Of the two verifications one opens the session and the other one is refused. -/
theorem same_code_twice_opens_one : ∃ s',
    exec (step system (program Backend.plainConfig)) requested sameCodeTwice = some s' ∧
      (s'.log.map fun d => d.result.isOk) = [true, true, false] ∧
      ∀ id, s'.log.Pairwise fun d d' => ¬ (Opened s' id d ∧ Opened s' id d') := by
  obtain ⟨s', hs', htest⟩ := exists_of_exec_test (step system (program Backend.plainConfig))
    requested sameCodeTwice (fun s => (s.log.map fun d => d.result.isOk) == [true, true, false])
    (by decide +kernel)
  exact ⟨s', hs', by simpa using htest, (code_opens_one_session requested_idle hs').2.1⟩

end Tekir.CodeSessions
