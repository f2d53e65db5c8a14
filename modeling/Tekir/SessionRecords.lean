import Tekir.ServiceEffects

/-!
# What the account calls leave of the session records

A refresh token stays on record, under its account, through every verification, rotation and
logout. A logout revokes its token and takes the device off the account.
-/
namespace Tekir.SessionRecords
open Table Schema Statements AccountQueries CatQueries UpdateQueries Environment AccountServices
  ServiceEffects

variable {cfg : Config} {env : Env} {w : World} {db db' : Database}

/-- The account has a token with the hash. -/
def Recorded (db : Database) (hash : String) (userId : UUID) : Prop :=
  ∃ row ∈ db.tables.refreshTokens, row.tokenHash = hash ∧ row.userId = userId

/-- The row of a hash. -/
theorem Recorded.userId_eq {hash : String} {userId : UUID} {row : RefreshToken}
    (h : Recorded db hash userId) (hrow : row ∈ db.tables.refreshTokens)
    (hhash : row.tokenHash = hash) : row.userId = userId := by
  obtain ⟨row', hrow', hhash', rfl⟩ := h
  have heq : row = row' := (db.valid.holds .refreshTokensTokenHashKey).eq_of_key_eq hrow hrow'
    (by simp [hhash, hhash']) (by simp)
  rw [heq]

def Kept (db db' : Database) : Prop :=
  ∀ hash userId, Recorded db hash userId → Recorded db' hash userId

theorem Kept.refl (db : Database) : Kept db db :=
  fun _ _ h => h

theorem Kept.trans {db'' : Database} (h : Kept db db') (h' : Kept db' db'') : Kept db db'' :=
  fun hash userId hr => h' hash userId (h hash userId hr)

theorem kept_of_eq (h : db'.tables.refreshTokens = db.tables.refreshTokens) : Kept db db' := by
  rintro hash userId ⟨row, hrow, hr⟩
  exact ⟨row, h ▸ hrow, hr⟩

section Issue

theorem kept_updateWhere {p : RefreshToken → Bool} {at' : Option Instant}
    (h : db'.tables.refreshTokens =
      updateWhere p (fun r => { r with revokedAt := at' }) db.tables.refreshTokens) :
    Kept db db' := by
  rintro hash userId ⟨row, hrow, rfl, rfl⟩
  refine ⟨_, h ▸ mem_updateWhere.mpr ⟨row, hrow, rfl⟩, ?_⟩
  split
  · exact ⟨rfl, rfl⟩
  · exact ⟨rfl, rfl⟩

/-- What `issue` hands out is on record. -/
structure Issued (cfg : Config) (env : Env) (session : Session) (db : Database) : Prop where
  token : session.refreshToken = env.token
  recorded : Recorded db (hashRefreshToken cfg env.token) session.userId

theorem issue_spec {userId : UUID} {session : Session}
    (h : issue cfg env userId db = .ok (session, db')) :
    Kept db db' ∧ Issued cfg env session db' := by
  obtain ⟨db₁, hwrite, h⟩ := bind_eq_ok.mp h
  cases h
  have ht := congrArg Tables.refreshTokens (write_eq_ok.mp hwrite)
  refine ⟨?_, rfl, ?_⟩
  · rintro hash userId ⟨row, hrow, hr⟩
    exact ⟨row, ht ▸ List.mem_append_left _ hrow, hr⟩
  · refine ⟨⟨env.uuid 1, userId, _, env.clock + cfg.refreshTokenTTL, none⟩, ?_, rfl, rfl⟩
    rw [ht]
    exact List.mem_append_right _ (List.mem_singleton_self _)

theorem resolveOrCreateUser_tokens {phone : String} {now : Instant} {u : User × Bool}
    (h : resolveOrCreateUser env phone now db = .ok (u, db')) :
    db'.tables.refreshTokens = db.tables.refreshTokens := by
  unfold resolveOrCreateUser at h
  split at h
  · cases h
    rfl
  · split at h
    · rename_i hcreate
      cases h
      obtain ⟨db₂, hwrite, hcreate⟩ := bind_eq_ok.mp hcreate
      cases hcreate
      rw [write_eq_ok.mp hwrite]
    · cases h
  · cases h

theorem linkDevice_tokens {deviceId userId : UUID} (h : linkDevice deviceId userId db = .ok db') :
    db'.tables.refreshTokens = db.tables.refreshTokens := by
  obtain ⟨device, -, -, ⟨-, ht⟩ | ⟨-, ht⟩⟩ := linkDevice_cases h
  · rw [ht]
    rfl
  · rw [ht]
    rfl

theorem sessionForVerifiedPhone_spec {phone : String} {deviceId : UUID} {now : Instant}
    {session : Session}
    (h : sessionForVerifiedPhone cfg env phone deviceId now db = .ok (session, db')) :
    Kept db db' ∧ Issued cfg env session db' := by
  obtain ⟨⟨⟨user, isNew⟩, db₁⟩, hresolve, h⟩ := bind_eq_ok.mp h
  obtain ⟨db₂, hlink, h⟩ := bind_eq_ok.mp h
  obtain ⟨⟨s, db₃⟩, hissue, h⟩ := bind_eq_ok.mp h
  cases h
  obtain ⟨hkept, hissued⟩ := issue_spec hissue
  have htokens := (linkDevice_tokens hlink).trans (resolveOrCreateUser_tokens hresolve)
  exact ⟨(kept_of_eq htokens).trans hkept, hissued.token, hissued.recorded⟩

theorem consumeAndOpen_spec {phone hash : String} {row : OtpCode} {deviceId : UUID}
    {session : Session}
    (h : consumeAndOpen cfg env phone row hash deviceId db = .ok (session, db')) :
    Kept db db' ∧ Issued cfg env session db' := by
  obtain ⟨⟨id, db₁⟩, hconsume, hopen⟩ := bind_eq_ok.mp h
  obtain ⟨codes, ht⟩ := consumeOtpCodeIfValid_effect hconsume
  obtain ⟨hkept, hissued⟩ := sessionForVerifiedPhone_spec hopen
  exact ⟨(kept_of_eq (by rw [ht])).trans hkept, hissued⟩

/-- What a call that opens or rotates a session does. -/
structure Serves (cfg : Config) (env : Env) (w : World) (r : Except Error Session × World) :
    Prop where
  kept : Kept w.db r.2.db
  issued : ∀ session, r.1 = .ok session → Issued cfg env session r.2.db

theorem serves_error (e : Error) : Serves cfg env w (.error e, w) :=
  ⟨Kept.refl _, nofun⟩

theorem serves_commit {x : Except Error (Session × Database)}
    (h : ∀ session db', x = .ok (session, db') → Kept w.db db' ∧ Issued cfg env session db') :
    Serves cfg env w (w.commit x) := by
  rcases x with e | ⟨session, db'⟩
  · exact serves_error e
  · obtain ⟨hkept, hissued⟩ := h session db' rfl
    refine ⟨hkept, fun session' heq => ?_⟩
    cases heq
    exact hissued

theorem asAlreadyConsumed_eq_ok {α : Type} {x : Except Error α} {a : α}
    (h : asAlreadyConsumed x = .ok a) : x = .ok a := by
  unfold asAlreadyConsumed at h
  split at h
  · cases h
  · exact h

theorem verifyOTP_serves (rawPhone code : String) (deviceId : UUID) :
    Serves cfg env w (verifyOTP cfg env rawPhone code deviceId w) := by
  unfold verifyOTP
  split
  · exact serves_error _
  · split
    · exact serves_error _
    · exact serves_commit fun session db' h => sessionForVerifiedPhone_spec h
  · split
    · exact serves_error _
    · split
      · exact serves_commit fun session db' h =>
          consumeAndOpen_spec (asAlreadyConsumed_eq_ok h)
      · split
        · exact serves_error _
        · rename_i hincrement
          exact ⟨kept_of_eq (by rw [write_eq_ok.mp hincrement]), nofun⟩

theorem refresh_serves (token : String) :
    Serves cfg env w (AccountServices.refresh cfg env token w) := by
  unfold AccountServices.refresh
  split
  · exact serves_error _
  · exact serves_error _
  · split
    · exact serves_error _
    · split
      · exact serves_error _
      · refine serves_commit fun session db' h => ?_
        split at h
        · cases h
        · obtain ⟨⟨u, db₁⟩, hrevoke, hissue⟩ := bind_eq_ok.mp h
          obtain ⟨row, -, hrevoke⟩ := bind_eq_ok.mp hrevoke
          obtain ⟨db₂, hwrite, hrevoke⟩ := bind_eq_ok.mp hrevoke
          cases hrevoke
          obtain ⟨hkept, hissued⟩ := issue_spec hissue
          exact ⟨(kept_updateWhere (congrArg Tables.refreshTokens (write_eq_ok.mp hwrite))).trans
            hkept, hissued⟩

end Issue

section Logout

theorem revoked_valid {t : Tables} (ht : Valid t) {p : RefreshToken → Bool} {at' : Option Instant} :
    Valid { t with
      refreshTokens := updateWhere p (fun r => { r with revokedAt := at' }) t.refreshTokens } := by
  refine valid_iff.mpr fun c => ?_
  have h := ht.holds c
  cases c
  case refreshTokensPkey => exact h.updateWhere _ fun _ => rfl
  case refreshTokensTokenHashKey => exact h.updateWhere _ fun _ => rfl
  case refreshTokensUserIdFkey => exact h.updateWhere_child _ fun _ => .inl rfl
  all_goals exact h

theorem unlinked_valid {t : Tables} (ht : Valid t) {p : Device → Bool} :
    Valid { t with devices := updateWhere p (fun d => { d with userId := none }) t.devices } := by
  refine valid_iff.mpr fun c => ?_
  have h := ht.holds c
  cases c
  case devicesPkey => exact h.updateWhere _ fun _ => rfl
  case devicesTokenHashKey => exact h.updateWhere _ fun _ => rfl
  case devicesUserIdFkey => exact h.updateWhere_child _ fun _ => .inr rfl
  case catsCreatedByDeviceIdFkey => exact h.updateWhere_parent _ fun _ => rfl
  case mediaUploadedByDeviceIdFkey => exact h.updateWhere_parent _ fun _ => rfl
  case updatesAuthorDeviceIdFkey => exact h.updateWhere_parent _ fun _ => rfl
  case followsDeviceIdFkey => exact h.updateWhere_parent _ fun _ => rfl
  case notificationsDeviceIdFkey => exact h.updateWhere_parent _ fun _ => rfl
  all_goals exact h

/-- The token is revoked. -/
def Revoked (db : Database) (hash : String) : Prop :=
  ∀ row ∈ db.tables.refreshTokens, row.tokenHash = hash → row.revokedAt.isSome = true

/-- No device with the identifier is linked to the account. -/
def Unlinked (db : Database) (deviceId userId : UUID) : Prop :=
  ∀ device ∈ db.tables.devices, device.id = deviceId → device.userId ≠ some userId

theorem one_of_hash {row : RefreshToken} (hrow : row ∈ db.tables.refreshTokens) :
    getRefreshTokenByHash row.tokenHash db = .ok row := by
  have hmem : row ∈ db.tables.refreshTokens.filter fun r => r.tokenHash == row.tokenHash :=
    List.mem_filter.mpr ⟨hrow, beq_self_eq_true _⟩
  unfold getRefreshTokenByHash
  cases hrows : db.tables.refreshTokens.filter fun r => r.tokenHash == row.tokenHash with
  | nil =>
    rw [hrows] at hmem
    cases hmem
  | cons r rows =>
    have hr : r ∈ db.tables.refreshTokens.filter fun r => r.tokenHash == row.tokenHash :=
      hrows ▸ List.mem_cons_self
    obtain ⟨hr, hhash⟩ := List.mem_filter.mp hr
    have heq : r = row := (db.valid.holds .refreshTokensTokenHashKey).eq_of_key_eq hr hrow
      (by simp [beq_iff_eq.mp hhash]) (by simp)
    exact congrArg Except.ok heq

theorem revoke_spec {token : String} {row : RefreshToken}
    (hrow : row ∈ w.db.tables.refreshTokens) (hhash : row.tokenHash = hashRefreshToken cfg token) :
    ∃ w', revoke cfg env token w = (.ok (), w') ∧ Revoked w'.db (hashRefreshToken cfg token) ∧
      Kept w.db w'.db ∧ w'.db.tables.devices = w.db.tables.devices := by
  have hget := one_of_hash hrow
  rw [hhash] at hget
  have hunique : ∀ r ∈ w.db.tables.refreshTokens, r.tokenHash = row.tokenHash → r = row :=
    fun r hr heq => (w.db.valid.holds .refreshTokensTokenHashKey).eq_of_key_eq hr hrow
      (by simp [heq]) (by simp)
  unfold revoke
  rw [hget]
  dsimp only
  split
  case isTrue hrevoked =>
    refine ⟨w, rfl, fun r hr heq => ?_, Kept.refl _, rfl⟩
    rw [hunique r hr (heq.trans hhash.symm)]
    exact hrevoked
  case isFalse =>
    have hwrite : revokeRefreshToken env.clock row.id w.db = .ok ⟨_, revoked_valid w.db.valid⟩ :=
      write_ok (revoked_valid w.db.valid)
    rw [hwrite]
    refine ⟨_, rfl, fun r hr heq => ?_, kept_updateWhere rfl, rfl⟩
    obtain ⟨q, hq, rfl⟩ := mem_updateWhere.mp hr
    by_cases hid : q.id = row.id
    · simp [hid]
    · simp only [beq_iff_eq, hid, if_false] at heq
      rw [hunique q hq (heq.trans hhash.symm)] at hid
      exact absurd rfl hid

theorem unlinkDevice_spec (deviceId userId : UUID) :
    ∃ w', unlinkDevice deviceId userId w = (.ok (), w') ∧ Unlinked w'.db deviceId userId ∧
      w'.db.tables.refreshTokens = w.db.tables.refreshTokens ∧
      ∀ device ∈ w'.db.tables.devices, ∀ owner, device.userId = some owner →
        device ∈ w.db.tables.devices := by
  have hwrite : unlinkDeviceFromUser deviceId userId w.db = .ok ⟨_, unlinked_valid w.db.valid⟩ :=
    write_ok (unlinked_valid w.db.valid)
  unfold unlinkDevice
  rw [hwrite]
  refine ⟨_, rfl, fun device hdevice hid => ?_, rfl, fun device hdevice owner howner => ?_⟩
  · obtain ⟨q, hq, rfl⟩ := mem_updateWhere.mp hdevice
    split
    · nofun
    case isFalse hother =>
      intro howner
      rw [if_neg hother] at hid
      exact hother (by simp [hid, howner])
  · obtain ⟨q, hq, rfl⟩ := mem_updateWhere.mp hdevice
    split at howner
    · cases howner
    case isFalse hother =>
      rw [if_neg hother]
      exact hq

/-- What a logout with a device leaves. -/
structure LoggedOut (cfg : Config) (token : String) (deviceId userId : UUID) (db db' : Database) :
    Prop where
  revoked : Revoked db' (hashRefreshToken cfg token)
  unlinked : Unlinked db' deviceId userId
  kept : Kept db db'
  owners : ∀ device ∈ db'.tables.devices, ∀ owner, device.userId = some owner →
    device ∈ db.tables.devices

theorem logout_spec {token : String} {row : RefreshToken} (deviceId userId : UUID)
    (hrow : row ∈ w.db.tables.refreshTokens) (hhash : row.tokenHash = hashRefreshToken cfg token) :
    ∃ w', AccountServices.logout cfg env userId token (some deviceId) w = (.ok (), w') ∧
      LoggedOut cfg token deviceId userId w.db w'.db := by
  obtain ⟨w₁, hrevoke, hrevoked, hkept, hdevices⟩ : ∃ w', revoke cfg env token w = (.ok (), w') ∧
      Revoked w'.db (hashRefreshToken cfg token) ∧ Kept w.db w'.db ∧
      w'.db.tables.devices = w.db.tables.devices := revoke_spec hrow hhash
  obtain ⟨w₂, hunlink, hunlinked, htokens, howners⟩ :=
    unlinkDevice_spec (w := w₁) deviceId userId
  refine ⟨w₂, ?_, ?_, hunlinked, hkept.trans (kept_of_eq htokens), ?_⟩
  · unfold AccountServices.logout
    rw [hrevoke]
    dsimp only
    rw [hunlink]
  · intro r hr
    exact hrevoked r (htokens ▸ hr)
  · intro device hdevice owner howner
    exact hdevices ▸ howners device hdevice owner howner

/-- A logout keeps the records, whatever it is called with. -/
theorem logout_kept (userId : UUID) (token : String) (deviceId : Option UUID) :
    Kept w.db (AccountServices.logout cfg env userId token deviceId w).2.db := by
  have hrevoke : Kept w.db (revoke cfg env token w).2.db := by
    unfold revoke
    split
    · exact Kept.refl _
    · exact Kept.refl _
    · split
      · exact Kept.refl _
      · rcases run_db w (revokeRefreshToken env.clock _ w.db) with heq | hok
        · rw [heq]
          exact Kept.refl _
        · exact kept_updateWhere (congrArg Tables.refreshTokens (write_eq_ok.mp hok))
  unfold AccountServices.logout
  split
  case h_1 h =>
    rw [h] at hrevoke
    exact hrevoke
  case h_2 w' h =>
    rw [h] at hrevoke
    split
    · exact hrevoke
    case h_2 d =>
      rcases run_db w' (unlinkDeviceFromUser d userId w'.db) with heq | hok
      · refine hrevoke.trans (kept_of_eq ?_)
        rw [unlinkDevice, heq]
      · exact hrevoke.trans (kept_of_eq (by rw [unlinkDevice, write_eq_ok.mp hok]))

end Logout

section Rejections

/-- The verification is refused for the account that the device is linked to. -/
def Rejected {α : Type} (x : Except Error α) : Prop :=
  x = .error .deviceLinkedToOtherAccount

theorem not_rejected_write {f : Tables → Tables} : ¬ Rejected (db.write f) := by
  intro h
  obtain ⟨c, hc, -⟩ := write_eq_error h
  cases hc

theorem not_rejected_one {α : Type} {rows : List α} : ¬ Rejected (one rows) := by
  cases rows <;> nofun

theorem not_rejected_bind {α β : Type} {x : Except Error α} {f : α → Except Error β}
    (hx : ¬ Rejected x) (hf : ∀ a, x = .ok a → ¬ Rejected (f a)) : ¬ Rejected (x >>= f) := by
  intro h
  rcases bind_eq_error.mp h with h | ⟨a, ha, h⟩
  · exact hx h
  · exact hf a ha h

theorem resolveOrCreateUser_not_rejected {phone : String} {now : Instant} :
    ¬ Rejected (resolveOrCreateUser env phone now db) := by
  unfold resolveOrCreateUser
  split
  · nofun
  · split
    · nofun
    case h_2 e hcreate =>
      split
      · nofun
      · intro h
        have hnot : ¬ Rejected (createUser (env.uuid 0) phone now db) :=
          not_rejected_bind not_rejected_write fun _ _ => nofun
        exact hnot (hcreate.trans (congrArg _ (Except.error.inj h)))
  case h_3 e _ hget =>
    intro h
    exact not_rejected_one (hget.trans (congrArg _ (Except.error.inj h)))

/-- A device that is linked to nobody is not refused. -/
theorem linkDevice_not_rejected {deviceId userId : UUID}
    (hfree : ∀ device ∈ db.tables.devices, device.id = deviceId → device.userId = none) :
    ¬ Rejected (linkDevice deviceId userId db) := by
  unfold linkDevice
  refine not_rejected_bind not_rejected_one fun device hget => ?_
  obtain ⟨hmem, hid⟩ := List.mem_filter.mp (one_eq_ok hget)
  refine not_rejected_bind ?_ fun db₁ _ => ?_
  · rw [relink, hfree device hmem (beq_iff_eq.mp hid)]
    exact not_rejected_write
  · exact not_rejected_bind not_rejected_write fun _ _ =>
      not_rejected_bind not_rejected_write fun _ _ => not_rejected_write

theorem sessionForVerifiedPhone_not_rejected {phone : String} {deviceId : UUID} {now : Instant}
    (hfree : ∀ device ∈ db.tables.devices, device.id = deviceId → device.userId = none) :
    ¬ Rejected (sessionForVerifiedPhone cfg env phone deviceId now db) := by
  unfold sessionForVerifiedPhone
  refine not_rejected_bind resolveOrCreateUser_not_rejected fun u hresolve => ?_
  obtain ⟨⟨user, isNew⟩, db₁⟩ := u
  obtain ⟨-, -, hsame⟩ := resolveOrCreateUser_effect hresolve
  refine not_rejected_bind (linkDevice_not_rejected (hsame.devices ▸ hfree)) fun db₂ _ => ?_
  refine not_rejected_bind ?_ fun s _ => nofun
  exact not_rejected_bind not_rejected_write fun _ _ => nofun

theorem consumeAndOpen_not_rejected {phone hash : String} {row : OtpCode} {deviceId : UUID}
    (hfree : ∀ device ∈ db.tables.devices, device.id = deviceId → device.userId = none) :
    ¬ Rejected (asAlreadyConsumed (consumeAndOpen cfg env phone row hash deviceId db)) := by
  have hnot : ¬ Rejected (consumeAndOpen cfg env phone row hash deviceId db) := by
    refine not_rejected_bind ?_ fun r hconsume => ?_
    · exact not_rejected_bind not_rejected_one fun _ _ =>
        not_rejected_bind not_rejected_write fun _ _ => nofun
    · obtain ⟨codes, ht⟩ := consumeOtpCodeIfValid_effect hconsume
      refine sessionForVerifiedPhone_not_rejected fun device hdevice => ?_
      rw [ht] at hdevice
      exact hfree device hdevice
  unfold asAlreadyConsumed
  split
  · nofun
  · exact hnot

theorem readOTP_not_rejected {phone : String} {now : Instant} :
    ¬ Rejected (readOTP phone now db) := by
  unfold readOTP
  split
  · nofun
  case h_2 e _ hget =>
    intro h
    exact not_rejected_one (hget.trans (congrArg _ (Except.error.inj h)))
  · refine not_rejected_bind ?_ fun _ _ => nofun
    unfold otpPrecheck
    split
    · nofun
    · split
      · nofun
      · split <;> nofun

theorem verifyOTP_not_rejected {rawPhone code : String} {deviceId : UUID}
    (hprovider : ∀ provider ∈ env.external, provider.checkVerification = .ok ())
    (hfree : ∀ device ∈ w.db.tables.devices, device.id = deviceId → device.userId = none) :
    ¬ Rejected (verifyOTP cfg env rawPhone code deviceId w).1 := by
  have hcommit : ∀ x : Except Error (Session × Database), ¬ Rejected x →
      ¬ Rejected (w.commit x).1 := by
    rintro (e | ⟨session, db'⟩) hx h
    · exact hx (congrArg _ (Except.error.inj h))
    · cases h
  unfold verifyOTP
  split
  case h_1 e _ hphone =>
    intro h
    cases Except.error.inj h
    unfold normalizePhone at hphone
    dsimp only at hphone
    split at hphone
    · cases hphone
    · split at hphone
      · cases hphone
      · split at hphone <;> cases hphone
  case h_2 provider _ hexternal =>
    rw [hprovider provider hexternal]
    exact hcommit _ (sessionForVerifiedPhone_not_rejected hfree)
  case h_3 =>
    split
    case h_1 e hread =>
      intro h
      exact readOTP_not_rejected (hread.trans (congrArg _ (Except.error.inj h)))
    · split
      · exact hcommit _ (consumeAndOpen_not_rejected hfree)
      · split
        case h_1 e hincrement =>
          intro h
          exact not_rejected_write (hincrement.trans (congrArg _ (Except.error.inj h)))
        · nofun

end Rejections

end Tekir.SessionRecords
