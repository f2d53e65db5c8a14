import Tekir.AccountCalls
import Tekir.Contracts

/-!
# Rotation of refresh tokens

`Refresh` reads the presented token, then revokes it under a condition and issues its
successor in one transaction; `Revoke` reads and then revokes without a condition. The
conditional revocation finds the row unrevoked and holds its lock, so a row has at most
one successor, and a row revoked for good is one that no later call reads as active.
-/
namespace Tekir.TokenRotation
open Machine Table Schema Statements Environment Programs Interleaving Bookkeeping Contracts
  AccountCalls
open AccountServices (Session)

def Rotates (ws : List Write) (p : UUID) : Prop :=
  ∃ userId at', Write.rotated p userId at' ∈ ws

/-- The token row that a write revokes. -/
def revokes : Write → Option UUID
  | .revoked id _ | .rotated id _ _ => some id
  | _ => none

def Ends (ws : List Write) (id : UUID) : Prop :=
  ∃ w ∈ ws, revokes w = some id

/-- The row that was issued by the commit that rotated the other one. -/
def Successor (h : List AccountCommit) (p : UUID) (row : RefreshToken) : Prop :=
  ∃ c ∈ h, Rotates c.writes p ∧ Write.refreshToken row ∈ c.writes

/-- The row of this account is there and unrevoked. -/
def Active (t : Tables) (p userId : UUID) : Prop :=
  ∃ row ∈ t.refreshTokens, row.id = p ∧ row.userId = userId ∧ row.revokedAt = none

def Revoked (t : Tables) (p : UUID) : Prop :=
  ∃ row ∈ t.refreshTokens, row.id = p ∧ row.revokedAt ≠ none

/-- The row is there under this hash. -/
def Stored (t : Tables) (p : UUID) (hash : String) : Prop :=
  ∃ row ∈ t.refreshTokens, row.id = p ∧ row.tokenHash = hash

section Tables

variable {t : Tables} {r : RefreshToken} {p userId : UUID} {hash : String} {ws : List Write}

/-- What some writes make of a token row: a revocation sets the stamp, and nothing else does. -/
def TokenAfter (ws : List Write) (r r' : RefreshToken) : Prop :=
  (¬ Ends ws r.id ∧ r' = r) ∨ (Ends ws r.id ∧ ∃ at', r' = { r with revokedAt := some at' })

theorem ends_cons {w : Write} : Ends (w :: ws) p ↔ Ends [w] p ∨ Ends ws p := by
  simp [Ends]

theorem exists_token_apply (hr : r ∈ t.refreshTokens) (w : Write) :
    ∃ r' ∈ (w.apply t).refreshTokens, TokenAfter [w] r r' := by
  have hset : ∀ id at', revokes w = some id → ∃ r' ∈ updateWhere (fun q => q.id == id)
      (fun q : RefreshToken => { q with revokedAt := some at' }) t.refreshTokens,
      TokenAfter [w] r r' := by
    intro id at' hw
    refine ⟨_, mem_updateWhere.mpr ⟨r, hr, rfl⟩, ?_⟩
    by_cases hid : r.id = id
    · exact .inr ⟨⟨w, by simp, hw.trans (hid ▸ rfl)⟩, at', by simp [hid]⟩
    · refine .inl ⟨?_, by simp [hid]⟩
      rintro ⟨w', hw', hends⟩
      obtain rfl := List.mem_singleton.mp hw'
      exact hid (Option.some.inj (hends.symm.trans hw))
  cases w with
  | refreshToken row =>
    exact ⟨r, List.mem_append_left _ hr, .inl ⟨by simp [Ends, revokes], rfl⟩⟩
  | revoked id at' => exact hset id at' rfl
  | rotated id userId at' => exact hset id at' rfl
  | otpCode | attempt | consumed | user | linked | unlinked | droppedFollows | claimedFollows
  | claimedUpdates => exact ⟨r, hr, .inl ⟨by simp [Ends, revokes], rfl⟩⟩

theorem TokenAfter.cons {w : Write} {r₁ r₂ : RefreshToken} (h : TokenAfter [w] r r₁)
    (h₂ : TokenAfter ws r₁ r₂) : TokenAfter (w :: ws) r r₂ := by
  rcases h with ⟨hno, rfl⟩ | ⟨hyes, at₁, rfl⟩
  · rcases h₂ with ⟨hno₂, rfl⟩ | ⟨hyes₂, hset₂⟩
    · exact .inl ⟨fun hends => (ends_cons.mp hends).elim hno hno₂, rfl⟩
    · exact .inr ⟨ends_cons.mpr (.inr hyes₂), hset₂⟩
  · refine .inr ⟨ends_cons.mpr (.inl hyes), ?_⟩
    rcases h₂ with ⟨-, rfl⟩ | ⟨-, at₂, rfl⟩
    · exact ⟨at₁, rfl⟩
    · exact ⟨at₂, rfl⟩

theorem exists_token_applyAll (hr : r ∈ t.refreshTokens) (ws : List Write) :
    ∃ r' ∈ (applyAll ws t).refreshTokens, TokenAfter ws r r' :=
  exists_applyAll Tables.refreshTokens TokenAfter (fun _ => .inl ⟨by simp [Ends], rfl⟩)
    (fun _ _ hr w => exists_token_apply hr w) (fun h h₂ => h.cons h₂) hr ws

theorem Revoked.applyAll (h : Revoked t p) (ws : List Write) : Revoked (applyAll ws t) p := by
  obtain ⟨r, hr, rfl, hrevoked⟩ := h
  obtain ⟨r', hr', hafter⟩ := exists_token_applyAll hr ws
  rcases hafter with ⟨-, rfl⟩ | ⟨-, at', rfl⟩
  · exact ⟨r', hr', rfl, hrevoked⟩
  · exact ⟨_, hr', rfl, by simp⟩

theorem Stored.applyAll (h : Stored t p hash) (ws : List Write) :
    Stored (applyAll ws t) p hash := by
  obtain ⟨r, hr, rfl, rfl⟩ := h
  obtain ⟨r', hr', hafter⟩ := exists_token_applyAll hr ws
  rcases hafter with ⟨-, rfl⟩ | ⟨-, at', rfl⟩
  · exact ⟨r', hr', rfl, rfl⟩
  · exact ⟨_, hr', rfl, rfl⟩

/-- Publishing a revocation of a stored row revokes it. -/
theorem Stored.revoked (h : Stored t p hash) (hws : Ends ws p) :
    Revoked (AccountCalls.applyAll ws t) p := by
  obtain ⟨r, hr, rfl, -⟩ := h
  obtain ⟨r', hr', hafter⟩ := exists_token_applyAll hr ws
  rcases hafter with ⟨hno, -⟩ | ⟨-, at', rfl⟩
  · exact absurd hws hno
  · exact ⟨_, hr', rfl, by simp⟩

theorem Active.stored (h : Active t p userId) : ∃ hash, Stored t p hash := by
  obtain ⟨r, hr, hid, -, -⟩ := h
  exact ⟨r.tokenHash, r, hr, hid, rfl⟩

/-- A row that nobody revokes stays as it is. -/
theorem mem_applyAll_of_not_ends (hr : r ∈ t.refreshTokens) (hws : ¬ Ends ws r.id) :
    r ∈ (applyAll ws t).refreshTokens := by
  obtain ⟨r', hr', hafter⟩ := exists_token_applyAll hr ws
  rcases hafter with ⟨-, rfl⟩ | ⟨hyes, -⟩
  · exact hr'
  · exact absurd hyes hws

variable {db : Database}

theorem Active.not_revoked (h : Active db.tables p userId) : ¬ Revoked db.tables p := by
  rintro ⟨r', hr', hid', hset⟩
  obtain ⟨r, hr, hid, -, hnone⟩ := h
  have heq : r = r' := (db.valid.holds .refreshTokensPkey).eq_of_key_eq hr hr'
    (by simp [hid, hid']) (by simp)
  exact hset (heq ▸ hnone)

/-- A hash names one row. -/
theorem Stored.eq_of_hash (h : Stored db.tables p hash) (hr : r ∈ db.tables.refreshTokens)
    (hhash : r.tokenHash = hash) : r.id = p := by
  obtain ⟨r₀, hr₀, hid, hhash₀⟩ := h
  have heq : r₀ = r := (db.valid.holds .refreshTokensTokenHashKey).eq_of_key_eq hr₀ hr
    (by simp [hhash, hhash₀]) (by simp)
  exact heq ▸ hid

end Tables

section Contract

open Prog

/-- The statement was asked and got this answer. -/
def Read (l : AccountLocal) (hash : String) (r : Except Error RefreshToken) : Prop :=
  (⟨.getRefreshTokenByHash hash, r⟩ : Asked Query Query.Row Error) ∈ l.trace

/-- A token is read, and revoked under a condition, at the start of a transaction. -/
def Asks (l : AccountLocal) : Query → Prop
  | .getRefreshTokenByHash _ | .revokeRefreshTokenIfActive _ _ _ => l.writes = []
  | _ => True

/-- A rotation comes with one new row, of the same account. -/
def Pairs (l : AccountLocal) : Prop :=
  ∀ p userId at', Write.rotated p userId at' ∈ l.writes →
    ∃ row, l.writes = [.rotated p userId at', .refreshToken row] ∧ row.userId = userId

/-- A successful refresh has read its row unrevoked and committed one rotation of it; any other
has committed nothing. -/
def Rotated (cfg : Config) (token : String) (l : AccountLocal) : Reply → Prop
  | .ok (some session) => ∃ row, Read l (hashRefreshToken cfg token) (.ok row) ∧
      row.revokedAt = none ∧ ∃ at' new,
        l.mine = [[.rotated row.id session.userId at', .refreshToken new]] ∧
          new.userId = session.userId ∧
          new.tokenHash = hashRefreshToken cfg session.refreshToken
  | .ok none => False
  | .error _ => l.mine = []

/-- A revocation has read that there is no such row, or that it is revoked, or has revoked it. -/
def LoggedOut (cfg : Config) (token : String) (l : AccountLocal) : Prop :=
  ∃ r, Read l (hashRefreshToken cfg token) r ∧ (r = .error .noRows ∨
    ∃ row, r = .ok row ∧ (row.revokedAt ≠ none ∨ ∃ at', [.revoked row.id at'] ∈ l.mine))

/-- The token that the call revokes for good. -/
def revokedBy : Op → Option String
  | .revoke _ token | .logout _ _ token _ => some token
  | _ => none

def Returns (cfg : Config) (o : Op) (l : AccountLocal) (r : Reply) : Prop :=
  (∀ env token, o = .refresh env token → Rotated cfg token l r) ∧
    ∀ token, revokedBy o = some token → r.isOk → LoggedOut cfg token l

def contract (cfg : Config) : Contract Write Query Query.Row Error Op Reply where
  asks _ := Asks
  commits _ := Pairs
  returns := Returns cfg

variable {cfg : Config} {env : Env} {token : String} {l : AccountLocal}

theorem pairs_of_not {l : AccountLocal} (h : ∀ p, ¬ Rotates l.writes p) : Pairs l :=
  fun p userId at' hmem => absurd ⟨userId, at', hmem⟩ (h p)

theorem not_rotates_of_verifies {q : Query} (hq : q.Verifies ∨ q.RequestsCode) {w : Write}
    {b₀ b : Database} (hw : w ∈ effect q b₀ b) (p : UUID) : ¬ Rotates [w] p := by
  have hemits := emits_of_mem hw
  rintro ⟨userId, at', hmem⟩
  obtain rfl := List.mem_singleton.mp hmem
  cases q with
  | revokeRefreshTokenIfActive => exact hq.elim (fun h => h.elim id id) id
  | _ => exact hemits

/-- Calls that verify or request a code rotate nothing. -/
theorem uses_meets {α : Type} {p : Script α} {post : AccountLocal → Except Error α → Prop}
    (hp : p.Uses fun q => q.Verifies ∨ q.RequestsCode) (hpost : ∀ l r, post l r) :
    p.Meets system Asks Pairs post {} := by
  refine hp.meets_of_kept (J := fun l => ∀ q, ¬ Rotates l.writes q) (by simp [Rotates])
    (fun l q r new hq hl hnew p => ?_) (fun l _ => by simp [Rotates]) (fun l _ => by simp [Rotates])
    (fun l q hq _ => ?_) (fun l hl => pairs_of_not hl) fun l r _ => hpost l r
  · rintro ⟨userId, at', hmem⟩
    rcases List.mem_append.mp hmem with hmem | hmem
    · exact hl p ⟨userId, at', hmem⟩
    · obtain ⟨b₀, b, hw⟩ := hnew _ hmem
      exact not_rotates_of_verifies hq hw p ⟨userId, at', List.mem_singleton_self _⟩
  · cases q with
    | getRefreshTokenByHash | revokeRefreshTokenIfActive =>
      exact (hq.elim (fun h => h.elim id id) id).elim
    | _ => trivial

variable (cfg token) in
theorem rotate_meets {row : RefreshToken} (hread : Read l (hashRefreshToken cfg token) (.ok row))
    (hnone : row.revokedAt = none) (hwrites : l.writes = []) (hmine : l.mine = []) :
    (withinTx ((ask (.revokeRefreshTokenIfActive env.clock row.id env.clock)).andThen
      fun userId => issue cfg env userId)).Meets system Asks Pairs
        (fun l r => Rotated cfg token l (r.map some)) l := by
  refine meets_transaction (meets_ask_andThen (fun _ => hwrites) (fun b₀ b userId ws hrun => ?_)
    fun e => ⟨by simp, fun _ _ => hmine⟩)
  simp only [Query.run, bind_eq_ok, writes_eq_ok] at hrun
  obtain ⟨row₀, -, row', hrow', rfl, rfl, -⟩ := hrun
  have hid : row'.id = row.id := by
    obtain ⟨-, hactive⟩ := List.mem_filter.mp (one_eq_ok hrow')
    simp only [active, Bool.and_eq_true, beq_iff_eq] at hactive
    exact hactive.1.1
  refine meets_ask_andThen (fun _ => trivial) (fun b₀ b a ws hrun => ?_) fun e =>
    ⟨by simp, fun _ _ => hmine⟩
  simp only [Query.run, writes_eq_ok] at hrun
  obtain ⟨new, rfl, huser, hhash⟩ : ∃ new : RefreshToken, ws = [.refreshToken new] ∧
    new.userId = row'.userId ∧ new.tokenHash = hashRefreshToken cfg env.token :=
    ⟨_, hrun.2.1, rfl, rfl⟩
  refine ⟨fun session hsession => ⟨fun _ => ⟨?_, ?_⟩, fun _ => hmine⟩, by simp⟩
  · intro p userId at' hmem
    simp only [Local.ask_writes, hwrites, List.nil_append, List.cons_append, List.mem_cons,
      List.not_mem_nil, or_false, reduceCtorEq, Write.rotated.injEq] at hmem
    obtain ⟨rfl, rfl, rfl⟩ := hmem
    exact ⟨new, by simp [hwrites], huser⟩
  · cases hsession
    refine ⟨row, ?_, hnone, env.clock, new, ?_, huser, hhash⟩
    · exact List.mem_append_left _ (List.mem_append_left _ hread)
    · simp [hwrites, hmine, hid]

theorem refresh_meets : (refresh cfg env token).Meets system Asks Pairs
    (fun l r => Rotated cfg token l (r.map some)) {} := by
  refine meets_bind.mpr (meets_readOnce (fun _ => rfl) (fun b₀ b row ws hrun => ?_) fun e => ?_)
  · simp only [Query.run, reads_eq_ok] at hrun
    simp only
    split
    · exact rfl
    · split
      · exact rfl
      · rename_i hrevoked _
        refine meets_bind.mpr ((rotate_meets cfg token ?_ ?_ rfl rfl).mono fun l r h => ?_)
        · exact List.mem_append_right _ (List.mem_singleton_self _)
        · simpa using hrevoked
        · rcases r with e | session
          · cases e <;> exact h
          · exact h
  · cases e <;> exact rfl

theorem revoke_meets : (revoke cfg env token).Meets system Asks Pairs
    (fun l r => l.writes = [] ∧ (r.isOk → LoggedOut cfg token l)) {} := by
  refine meets_bind.mpr (meets_readOnce (fun _ => rfl) (fun b₀ b row ws hrun => ?_) fun e => ?_)
  · have hread : ∀ l : AccountLocal, (⟨.getRefreshTokenByHash (hashRefreshToken cfg token), .ok row⟩ :
        Asked Query Query.Row Error) ∈ l.trace → Read l (hashRefreshToken cfg token) (.ok row) :=
      fun l h => h
    simp only
    split
    · rename_i hrevoked
      refine ⟨rfl, fun _ => ⟨.ok row, hread _ ?_, .inr ⟨row, rfl, .inl ?_⟩⟩⟩
      · exact List.mem_append_right _ (List.mem_singleton_self _)
      · exact fun hnone => by simp [hnone] at hrevoked
    · refine meets_writeOnce (fun _ => trivial) (fun b₀ b a ws hrun => ?_) fun r e => ?_
      · simp only [Query.run, writes_eq_ok] at hrun
        obtain ⟨-, rfl, -⟩ := hrun
        refine ⟨pairs_of_not (by simp [Rotates]), rfl, fun _ => ⟨.ok row, hread _ ?_, .inr
          ⟨row, rfl, .inr ⟨env.clock, ?_⟩⟩⟩⟩
        · simp
        · simp
      · exact ⟨rfl, fun h => by cases h⟩
  · have hread : LoggedOut cfg token ((({} : AccountLocal).ask system
        (.getRefreshTokenByHash (hashRefreshToken cfg token)) (.error .noRows) []).drop) :=
      ⟨.error .noRows, List.mem_append_right _ (List.mem_singleton_self _), .inl rfl⟩
    cases e
    case noRows => exact ⟨rfl, fun _ => hread⟩
    all_goals exact ⟨rfl, fun h => by cases h⟩

theorem LoggedOut.mono {l' : AccountLocal} (h : LoggedOut cfg token l) (htrace : l.trace ⊆ l'.trace)
    (hmine : l.mine ⊆ l'.mine) : LoggedOut cfg token l' := by
  obtain ⟨r, hread, hr⟩ := h
  refine ⟨r, htrace hread, hr.imp_right ?_⟩
  rintro ⟨row, rfl, hrow⟩
  exact ⟨row, rfl, hrow.imp_right fun ⟨at', hat⟩ => ⟨at', hmine hat⟩⟩

theorem logout_meets {userId : UUID} {deviceId : Option UUID} :
    (logout cfg env userId token deviceId).Meets system Asks Pairs
      (fun l r => r.isOk → LoggedOut cfg token l) {} := by
  refine meets_andThen (revoke_meets.mono fun l r h => ⟨fun _ hr => ?_, fun e _ h => by cases h⟩)
  have hout : LoggedOut cfg token l := h.2 (hr ▸ rfl)
  cases deviceId with
  | none => exact fun _ => hout
  | some d =>
    refine meets_bind.mpr (meets_writeOnce (fun _ => trivial) (fun b₀ b a ws hrun => ?_) ?_)
    · refine ⟨pairs_of_not fun p => ?_, fun _ => hout.mono ?_ ?_⟩
      · simp only [Query.run] at hrun
        split at hrun
        · simp only [writes_eq_ok] at hrun
          simp [Rotates, h.1, hrun.2.1]
        · simp only [reads_eq_ok] at hrun
          simp [Rotates, h.1, hrun.2]
      · simp
      · simp
    · exact fun r e _ => hout.mono (by simp) (by simp)

theorem contract_met : (contract cfg).Met system (program cfg) := by
  intro o
  cases o with
  | requestOTP env phone =>
    refine uses_meets ((requestOTP_uses cfg env phone).mono fun _ => .inr) fun l r => ?_
    exact ⟨by simp, by simp [revokedBy]⟩
  | verifyOTP env phone code deviceId =>
    refine uses_meets ((uses_reply (verifyOTP_uses cfg env phone code deviceId) _).mono
      fun _ => .inl) fun l r => ?_
    exact ⟨by simp, by simp [revokedBy]⟩
  | refresh env token =>
    refine meets_andThen (refresh_meets.mono fun l r h => ⟨fun session hr => ?_, fun e hr => ?_⟩)
    all_goals
      refine ⟨fun env' token' heq => ?_, by simp [revokedBy]⟩
      cases heq
      rw [hr] at h
      exact h
  | revoke env token =>
    refine meets_andThen (revoke_meets.mono fun l r h => ⟨fun _ hr => ?_, fun e hr => ?_⟩)
    · refine ⟨by simp, fun token' heq _ => ?_⟩
      cases heq
      exact h.2 (hr ▸ rfl)
    · exact ⟨by simp, fun _ _ h => by cases h⟩
  | logout env userId token deviceId =>
    refine meets_andThen (logout_meets.mono fun l r h => ⟨fun _ hr => ?_, fun e hr => ?_⟩)
    · refine ⟨by simp, fun token' heq _ => ?_⟩
      cases heq
      exact h (hr ▸ rfl)
    · exact ⟨by simp, fun _ _ h => by cases h⟩

end Contract

section Laws

variable {cfg : Config}

def Takes (w : Write) (p userId : UUID) : Prop :=
  ∃ at', w = .rotated p userId at'

theorem not_ends_of_apart {ws : List Write} {p userId : UUID} {at' : Instant}
    (h : ∀ w ∈ ws, clash w (.rotated p userId at') = false) : ¬ Ends ws p := by
  rintro ⟨w, hw, hends⟩
  have hclash := h w hw
  cases w with
  | revoked | rotated =>
    obtain rfl := Option.some.inj hends
    simp [clash, Write.locks] at hclash
  | _ => cases hends

/-- A rotation that a statement writes finds its row active in the committed rows. -/
theorem active_of_effect {l : AccountLocal} {q : Query} {db b₀ b : Database} {p userId : UUID}
    {at' : Instant} (hview : view l.writes db = some b) (hasks : Asks l q)
    (hmem : Write.rotated p userId at' ∈ effect q b₀ b) : Active db.tables p userId := by
  have hemits : q.Emits (.rotated p userId at') := emits_of_mem hmem
  obtain ⟨a, hrun⟩ := mem_effect hmem
  cases q with
  | revokeRefreshTokenIfActive revokedAt id now =>
    rw [show l.writes = [] from hasks, view_nil] at hview
    cases hview
    simp only [Query.run, bind_eq_ok, writes_eq_ok] at hrun
    obtain ⟨row₀, -, row, hrow, -, hws, -⟩ := hrun
    rw [hws, List.mem_singleton] at hmem
    cases hmem
    obtain ⟨hrow, hactive⟩ := List.mem_filter.mp (one_eq_ok hrow)
    simp only [active, Bool.and_eq_true, beq_iff_eq] at hactive
    exact ⟨row, hrow, rfl, rfl, Option.isNone_iff_eq_none.mp hactive.1.2⟩
  | _ => exact hemits.elim

/-- A token row is rotated by one commit. -/
theorem resource : Resource (contract cfg) system Takes
    (fun db p userId => Active db.tables p userId) (fun db p => Revoked db.tables p) where
  exclusive db p userId h := h.not_revoked
  asked o l q db b₀ b w p userId hview hasks _ hmem hw := by
    obtain ⟨at', rfl⟩ := hw
    exact active_of_effect hview hasks hmem
  published ws db db' w p userId hview hmem hw h := by
    obtain ⟨at', rfl⟩ := hw
    rw [tables_of_view hview]
    obtain ⟨hash, hstored⟩ := h.stored
    exact hstored.revoked ⟨_, hmem, rfl⟩
  stays ws db db' p hview h := by
    rw [tables_of_view hview]
    exact h.applyAll ws
  untouched ws db db' w' p userId hview hw' hapart h := by
    obtain ⟨at', rfl⟩ := hw'
    obtain ⟨row, hrow, rfl, hrest⟩ := h
    rw [tables_of_view hview]
    exact ⟨row, mem_applyAll_of_not_ends hrow (not_ends_of_apart hapart), rfl, hrest⟩
  foreign ws db db' p hforeign h := by
    have haside : Aside db.tables db'.tables := of_decide_eq_true hforeign
    obtain ⟨row, hrow, hrest⟩ := h
    exact ⟨row, haside.refreshTokens ▸ hrow, hrest⟩
  foreign_free ws db db' w p userId hforeign _ _ h := by
    have haside : Aside db.tables db'.tables := of_decide_eq_true hforeign
    obtain ⟨row, hrow, hrest⟩ := h
    exact ⟨row, haside.refreshTokens ▸ hrow, hrest⟩

/-- A stored hash is found, and names the row it is stored for. -/
theorem Stored.getRefreshTokenByHash {db : Database} {p : UUID} {hash : String}
    (h : Stored db.tables p hash) : ∃ row, row ∈ db.tables.refreshTokens ∧ row.id = p ∧
      AccountQueries.getRefreshTokenByHash hash db = .ok row := by
  cases hfound : AccountQueries.getRefreshTokenByHash hash db with
  | ok row =>
    obtain ⟨hrow, hhash⟩ := List.mem_filter.mp (one_eq_ok hfound)
    exact ⟨row, hrow, h.eq_of_hash hrow (by simpa using hhash), rfl⟩
  | error e =>
    obtain ⟨row, hrow, -, hhash⟩ := h
    have hmem : row ∈ db.tables.refreshTokens.filter fun r => r.tokenHash == hash :=
      List.mem_filter.mpr ⟨hrow, by simpa using hhash⟩
    unfold AccountQueries.getRefreshTokenByHash at hfound
    cases hrows : db.tables.refreshTokens.filter fun r => r.tokenHash == hash with
    | nil => simp [hrows] at hmem
    | cons r rs => simp [hrows] at hfound

/-- What a call that starts once the row is stored knows of it. -/
structure Watches (p : UUID) (hash : String) (db : Database) (s : Option Database)
    (l : AccountLocal) : Prop where
  stored : ∀ v ∈ s, Stored v.tables p hash
  current : ∀ v ∈ s, l.writes = [] → Revoked v.tables p → Revoked db.tables p
  read : ∀ r, Read l hash r → r = .error .transactionAborted ∨
    ∃ row, r = .ok row ∧ row.id = p ∧ (row.revokedAt ≠ none → Revoked db.tables p)
  committed : ∀ ws ∈ l.mine, Ends ws p → Revoked db.tables p

theorem Watches.mono {p : UUID} {hash : String} {db db' : Database} {s : Option Database}
    {l : AccountLocal} (h : Watches p hash db s l)
    (hrevoked : Revoked db.tables p → Revoked db'.tables p) : Watches p hash db' s l := by
  refine ⟨h.stored, fun v hv hws hr => hrevoked (h.current v hv hws hr), fun r hr => ?_,
    fun ws hws hends => hrevoked (h.committed ws hws hends)⟩
  refine (h.read r hr).imp_right ?_
  rintro ⟨row, hrow, hid, hset⟩
  exact ⟨row, hrow, hid, fun hne => hrevoked (hset hne)⟩

/-- The call goes on without a commit; what it has newly read it has read of the row. -/
theorem Watches.asked {p : UUID} {hash : String} {db : Database} {s : Option Database}
    {l : AccountLocal} (h : Watches p hash db s l) {q : Query} {r : Except Error q.Row}
    {new : List Write} (hr : ∀ x, (⟨q, r⟩ : Asked Query Query.Row Error) =
      ⟨.getRefreshTokenByHash hash, x⟩ → x = .error .transactionAborted ∨
        ∃ row, x = .ok row ∧ row.id = p ∧ (row.revokedAt ≠ none → Revoked db.tables p)) :
    Watches p hash db none (l.ask system q r new) := by
  refine ⟨by simp, by simp, fun x hx => ?_, h.committed⟩
  rcases List.mem_append.mp hx with hx | hx
  · exact h.read x hx
  · exact hr x (List.mem_singleton.mp hx).symm

theorem watches_law (floor : ℕ) (p : UUID) (hash : String) :
    Law (contract cfg) system (fun _ db => Stored db.tables p hash)
      (fun t _ _ db s l => floor ≤ t → Watches p hash db s l) where
  start t o h b _ _ _ := ⟨by simp, by simp, by simp [Read], by simp⟩
  began t o h b l v hI hK hview ht := by
    have htables := tables_of_view hview
    refine ⟨fun v' hv' => ?_, fun v' hv' hws hr => ?_, (hK ht).read, (hK ht).committed⟩
    · obtain rfl := Option.mem_some.mp hv'
      exact htables ▸ hI.applyAll _
    · obtain rfl := Option.mem_some.mp hv'
      rw [htables, hws] at hr
      exact hr
  answered t o h b l q v₀ v _ hK _ hview hasks ht := by
    have hwatches := hK ht
    refine hwatches.asked fun x hx => .inr ?_
    cases q with
    | getRefreshTokenByHash hash' =>
      simp only [Asked.mk.injEq, Query.getRefreshTokenByHash.injEq] at hx
      obtain ⟨rfl, hx⟩ := hx
      obtain ⟨row, hrow, hid, hfound⟩ := (hwatches.stored v₀ rfl).getRefreshTokenByHash
      have hanswer : answer (.getRefreshTokenByHash hash') v₀ v = .ok row := by
        simp [answer, Query.run, hfound, reads, Except.map]
      obtain rfl : x = .ok row := (eq_of_heq hx).symm.trans hanswer
      exact ⟨row, rfl, hid, fun hset => hwatches.current v₀ rfl hasks ⟨row, hrow, hid, hset⟩⟩
    | _ => simp at hx
  lost t o h b s l q hK _ ht := by
    refine (hK ht).asked fun x hx => .inl ?_
    cases q with
    | getRefreshTokenByHash hash' =>
      simp only [Asked.mk.injEq, Query.getRefreshTokenByHash.injEq] at hx
      obtain ⟨rfl, hx⟩ := hx
      exact (eq_of_heq hx).symm
    | _ => simp at hx
  dropped t o h b s l hK ht := ⟨by simp, by simp, (hK ht).read, (hK ht).committed⟩
  kept t o h b s l b' hI _ _ hview := by
    rw [tables_of_view hview]
    exact hI.applyAll _
  published t o h b s l b' hI hK _ hview ht := by
    have htables := tables_of_view hview
    have hrevoked : Revoked b.tables p → Revoked b'.tables p := fun hr => htables ▸ hr.applyAll _
    have hwatches := (hK ht).mono hrevoked
    refine ⟨by simp, by simp, hwatches.read, fun ws hws hends => ?_⟩
    rcases List.mem_append.mp hws with hws | hws
    · exact hwatches.committed ws hws hends
    · obtain rfl := List.mem_singleton.mp hws
      exact htables ▸ hI.revoked hends
  stable t o h b s l b' t' o' s' l' _ _ _ _ hview hK' _ ht :=
    (hK' ht).mono fun hr => tables_of_view hview ▸ hr.applyAll _
  foreign ws h b b' hI hforeign := by
    have haside : Aside b.tables b'.tables := of_decide_eq_true hforeign
    obtain ⟨row, hrow, hrest⟩ := hI
    exact ⟨row, haside.refreshTokens ▸ hrow, hrest⟩
  foreign_stable ws h b b' t o s l _ hK hforeign _ ht := by
    have haside : Aside b.tables b'.tables := of_decide_eq_true hforeign
    refine (hK ht).mono ?_
    rintro ⟨row, hrow, hrest⟩
    exact ⟨row, haside.refreshTokens ▸ hrow, hrest⟩

/-- A row that is stored and revoked is so in everything that later transactions see. -/
theorem lasting (p : UUID) (hash : String) :
    Lasting system fun db => Stored db.tables p hash ∧ Revoked db.tables p where
  view ws db db' hview h := by
    rw [tables_of_view hview]
    exact ⟨h.1.applyAll ws, h.2.applyAll ws⟩
  foreign ws db db' hforeign h := by
    have haside : Aside db.tables db'.tables := of_decide_eq_true hforeign
    obtain ⟨⟨row, hrow, hrest⟩, ⟨row', hrow', hrest'⟩⟩ := h
    exact ⟨⟨row, haside.refreshTokens ▸ hrow, hrest⟩, ⟨row', haside.refreshTokens ▸ hrow', hrest'⟩⟩

end Laws

variable {n : ℕ} {cfg : Config} {s s' : AccountState n} {as : List (AccountAction n)}

abbrev Rotations (s : AccountState n) : Prop :=
  Governed (contract cfg) system
    (TakenOnce Takes (fun db p userId => Active db.tables p userId) fun db p => Revoked db.tables p)
    (fun _ _ _ db _ l => HoldsFree Takes (fun db p userId => Active db.tables p userId) db l) s

theorem governed (hs : Idle s) (h : exec (step system (program cfg)) s as = some s') :
    @Rotations n cfg s' :=
  Governed.exec contract_met resource.law (.of_idle hs ⟨by simp, by simp, .nil⟩) h

/-- A completed revocation of a stored row leaves it revoked. -/
theorem revoked_of_loggedOut (hs : Idle s) {r t : AccountState n} {as bs : List (AccountAction n)}
    (hr : exec (step system (program cfg)) s as = some r)
    (ht : exec (step system (program cfg)) r bs = some t) {p : UUID} {token : String}
    (hstored : Stored r.base.tables p (hashRefreshToken cfg token)) {d : AccountDone}
    (hd : d ∈ t.log) (hticket : r.tickets ≤ d.ticket) (hop : revokedBy d.op = some token)
    (hok : d.result.isOk) :
    Stored t.base.tables p (hashRefreshToken cfg token) ∧ Revoked t.base.tables p := by
  have hsince : Governed (contract cfg) system
      (fun _ db => Stored db.tables p (hashRefreshToken cfg token))
      (fun t _ _ db v l => r.tickets ≤ t → Watches p (hashRefreshToken cfg token) db v l) r :=
    (governed hs hr).since hstored
  have hgoverned := Governed.exec contract_met (watches_law r.tickets p _) hsince ht
  have hwatches := hgoverned.done d hd hticket
  refine ⟨hgoverned.base, ?_⟩
  obtain ⟨x, hread, hx⟩ := (hgoverned.log d hd).2 token hop hok
  obtain rfl | ⟨row, rfl, rfl, hset⟩ := hwatches.read x hread
  · simp at hx
  · rcases hx with hx | ⟨row', hrow', hx⟩
    · cases hx
    · cases hrow'
      rcases hx with hne | ⟨at', hmine⟩
      · exact hset hne
      · exact hwatches.committed _ hmine ⟨_, List.mem_singleton_self _, rfl⟩

/-- A refresh that sees the row revoked fails. -/
theorem not_ok_of_sees {p : UUID} {token : String} {l : AccountLocal} {r : Reply}
    (hsees : Sees system (fun db => Stored db.tables p (hashRefreshToken cfg token) ∧
      Revoked db.tables p) l) (hrotated : Rotated cfg token l r) : r.isOk = false := by
  rcases r with e | session
  · rfl
  · cases session with
    | none => exact hrotated.elim
    | some session =>
      obtain ⟨row, hread, hnone, -⟩ := hrotated
      rcases hsees _ hread with hlost | ⟨b₀, b, ⟨hstored, hrevoked⟩, -, hanswer⟩
      · cases hlost
      · obtain ⟨row', hrow', hid, hfound⟩ := hstored.getRefreshTokenByHash
        have hanswer' : answer (.getRefreshTokenByHash (hashRefreshToken cfg token)) b₀ b =
            .ok row' := by
          simp [answer, Query.run, hfound, reads, Except.map]
        obtain rfl : row = row' := Except.ok.inj (hanswer.trans hanswer')
        exact absurd hrevoked (Active.not_revoked ⟨row, hrow', hid, rfl, hnone⟩)

/-- Rotation is linear, for each interleaving and each failure. -/
theorem rotation_linear (hs : Idle s) (h : exec (step system (program cfg)) s as = some s') :
    (∀ p row row', Successor s'.history p row → Successor s'.history p row' → row = row') ∧
    (∀ c ∈ s'.history, ∀ p, Rotates c.writes p →
      ∃ parent ∈ c.base.tables.refreshTokens, parent.id = p ∧ parent.revokedAt = none ∧
        ∃ at' row, c.writes = [.rotated p parent.userId at', .refreshToken row] ∧
          row.userId = parent.userId) ∧
    (∀ d ∈ s'.log, ∀ env token session, d.op = .refresh env token →
      d.result = .ok (some session) → ∃ c ∈ s'.history, By d.ticket c ∧
        ∃ p at' row, c.writes = [.rotated p session.userId at', .refreshToken row] ∧
          row.tokenHash = hashRefreshToken cfg session.refreshToken) ∧
    (∀ d ∈ s'.log, ∀ env token e, d.op = .refresh env token → d.result = .error e →
      ∀ c ∈ s'.history, ¬ By d.ticket c) ∧
    (∀ c ∈ s'.history, ∀ row ∈ c.base.tables.refreshTokens, ¬ Ends c.writes row.id →
      row ∈ c.next.tables.refreshTokens) ∧
    (∀ xs ys zs r t, as = xs ++ (ys ++ zs) → exec (step system (program cfg)) s xs = some r →
      exec (step system (program cfg)) r ys = some t → ∀ p token,
        Stored r.base.tables p (hashRefreshToken cfg token) →
        ∀ d ∈ t.log, r.tickets ≤ d.ticket → revokedBy d.op = some token → d.result.isOk →
        ∀ d' ∈ s'.log, t.tickets ≤ d'.ticket → ∀ env, d'.op = .refresh env token →
          d'.result.isOk = false) := by
  have hgoverned := governed hs h
  have hbooks := Books.exec hs h
  have hpair : ∀ c ∈ s'.history, ∀ p, Rotates c.writes p → ∃ userId at' row,
      c.writes = [.rotated p userId at', .refreshToken row] ∧ row.userId = userId := by
    rintro c hc p ⟨userId, at', hmem⟩
    have hcommits : Pairs c.loc := by
      rcases (Recorded.exec hs h).happened c hc with ⟨hauthor, -⟩ | ⟨-, hnil, -⟩
      · obtain ⟨a, ha⟩ := Option.isSome_iff_exists.mp hauthor
        exact hgoverned.history c hc a ha
      · exact absurd hmem (by simp [hnil])
    obtain ⟨row, hws, huser⟩ := hcommits p userId at' hmem
    exact ⟨userId, at', row, hws, huser⟩
  refine ⟨?_, fun c hc p hp => ?_, ?_, ?_, ?_, ?_⟩
  · rintro p row row' ⟨c, hc, hp, hrow⟩ ⟨c', hc', hp', hrow'⟩
    obtain ⟨u, a, new, hws, -⟩ := hpair c hc p hp
    obtain ⟨u', a', new', hws', -⟩ := hpair c' hc' p hp'
    obtain rfl : c = c' := hgoverned.base.eq hc hc'
      (show .rotated p u a ∈ c.writes by simp [hws]) (show .rotated p u' a' ∈ c'.writes by simp [hws'])
      ⟨a, rfl⟩ ⟨a', rfl⟩
    rw [hws] at hrow hrow'
    simp only [List.mem_cons, reduceCtorEq, Write.refreshToken.injEq, List.not_mem_nil, or_false,
      false_or] at hrow hrow'
    exact hrow.trans hrow'.symm
  · obtain ⟨userId, at', row, hws, huser⟩ := hpair c hc p hp
    obtain ⟨parent, hparent, hid, howner, hnone⟩ :=
      hgoverned.base.free c hc (.rotated p userId at') (by simp [hws]) p userId ⟨at', rfl⟩
    exact ⟨parent, hparent, hid, hnone, at', row, howner ▸ hws, huser.trans howner.symm⟩
  · intro d hd env token session hop hresult
    have hrotated := (hgoverned.log d hd).1 env token hop
    rw [hresult] at hrotated
    obtain ⟨row, -, -, at', new, hmine, -, hhash⟩ := hrotated
    obtain ⟨c, hc, hby, hws⟩ := (hbooks.mem_mine hd).mp (hmine ▸ List.mem_singleton_self _)
    exact ⟨c, hc, hby, row.id, at', new, hws, hhash⟩
  · intro d hd env token e hop hresult c hc hby
    have hrotated := (hgoverned.log d hd).1 env token hop
    rw [hresult] at hrotated
    have hmem := (hbooks.mem_mine hd).mpr ⟨c, hc, hby, rfl⟩
    rw [show d.loc.mine = [] from hrotated] at hmem
    cases hmem
  · intro c hc row hrow hends
    rcases (Recorded.exec hs h).happened c hc with ⟨-, hview⟩ | ⟨-, -, ws, hforeign⟩
    · rw [tables_of_view hview]
      exact mem_applyAll_of_not_ends hrow hends
    · have haside : Aside c.base.tables c.next.tables := of_decide_eq_true hforeign
      exact haside.refreshTokens ▸ hrow
  · rintro xs ys zs r t rfl hr ht p token hstored d hd hticket hop hok d' hd' hticket' env hop'
    have hrest : exec (step system (program cfg)) t zs = some s' := by
      simpa [exec_append, hr, ht] using h
    have hexec : exec (step system (program cfg)) s (xs ++ ys) = some t := by
      simp [exec_append, hr, ht]
    have hrevoked := revoked_of_loggedOut hs hr ht hstored hd hticket hop hok
    have hsees := ((lasting p _).exec contract_met (governed hs hexec) hrevoked hrest).2 d' hd' hticket'
    exact not_ok_of_sees hsees ((hgoverned.log d' hd').1 env token hop')

/-- An account with one active token. -/
def issued : AccountState 2 where
  base := ⟨{ users := [{ id := 3, phone := "+905551234567", phoneVerifiedAt := 0 }]
             refreshTokens := [{ id := 5, userId := 3, tokenHash := "t", expiresAt := 100 }] },
           by decide⟩

/-- Two refreshes of one token cross; then its successor is revoked, and presented once more. -/
def crossing : List (AccountAction 2) :=
  [.call 0 (.refresh (Backend.plainEnv 1) "t"), .call 1 (.refresh (Backend.plainEnv 2) "t")] ++
  List.replicate 4 (.run 0) ++ List.replicate 4 (.run 1) ++ List.replicate 5 (.run 0) ++
  List.replicate 3 (.run 1) ++ .call 0 (.revoke (Backend.plainEnv 3) "1") ::
  List.replicate 7 (.run 0) ++ .call 0 (.refresh (Backend.plainEnv 4) "1") ::
  List.replicate 4 (.run 0)

theorem issued_idle : Idle issued :=
  ⟨fun _ => rfl, rfl, rfl, rfl⟩

/-- One of the two refreshes wins, and the revoked successor is refused. -/
theorem crossing_rotates_once : ∃ s',
    exec (step system (program Backend.plainConfig)) issued crossing = some s' ∧
      (s'.log.map fun d => d.result.isOk) = [true, false, true, false] ∧
      ∀ p row row', Successor s'.history p row → Successor s'.history p row' → row = row' := by
  obtain ⟨s', hs', htest⟩ := exists_of_exec_test (step system (program Backend.plainConfig))
    issued crossing (fun s => (s.log.map fun d => d.result.isOk) == [true, false, true, false])
    (by decide +kernel)
  exact ⟨s', hs', by simpa using htest, (rotation_linear issued_idle hs').1⟩

end Tekir.TokenRotation
