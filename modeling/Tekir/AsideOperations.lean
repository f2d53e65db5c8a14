import Tekir.Integrity

/-!
# Operations aside from the archive

Most operations write accounts, devices, sessions, codes, follows, reports, blocks or the read
marks of the inbox, and nothing else. What one statement on these tables keeps, each of the
operations keeps, and `serve_aside` says so once for all of them.
-/
namespace Tekir.AsideOperations
open Table Schema Statements AccountQueries CatQueries UpdateQueries NotificationQueries
  Environment AccountServices CatServices SocialServices Backend Integrity

/-- Statements on the tables aside from the archive stay in the relation. A device may only
keep its account or lose it. -/
structure Aside (R : Tables → Tables → Prop) : Prop where
  refl : ∀ t, R t t
  trans : ∀ {t t' t''}, R t t' → R t' t'' → R t t''
  users : ∀ t rows, R t { t with users := rows }
  otpCodes : ∀ t rows, R t { t with otpCodes := rows }
  refreshTokens : ∀ t rows, R t { t with refreshTokens := rows }
  follows : ∀ t rows, R t { t with follows := rows }
  reports : ∀ t rows, R t { t with reports := rows }
  userBlocks : ∀ t rows, R t { t with userBlocks := rows }
  newDevice : ∀ t (d : Device), d.userId = none → R t { t with devices := t.devices ++ [d] }
  devices : ∀ t (g : Device → Device), (∀ d, (g d).id = d.id) →
    (∀ d, (g d).userId = d.userId ∨ (g d).userId = none) →
      R t { t with devices := t.devices.map g }
  notifications : ∀ t p (f : Notification → Notification),
    (∀ n, notificationLinks (f n) = notificationLinks n) →
      R t { t with notifications := updateWhere p f t.notifications }

/-- The operations that write nothing else. -/
def isAside : Op → Bool
  | .register .. | .setPushToken .. | .requestOTP .. | .setDisplayName .. | .refresh ..
  | .logout .. | .unlinkDevice .. | .block .. | .unblock .. | .follow .. | .unfollow ..
  | .report .. | .markRead .. => true
  | _ => false

variable {R : Tables → Tables → Prop} {cfg : Config} {env : Env} {w : World}

section Statements

variable {db db' : Database}

theorem Aside.write {f : Tables → Tables} (hf : R db.tables (f db.tables))
    (h : db.write f = .ok db') : R db.tables db'.tables := by
  rw [write_eq_ok.mp h]
  exact hf

theorem Aside.run (hR : Aside R) {x : Except Error Database}
    (h : ∀ db', x = .ok db' → R w.db.tables db'.tables) :
    R w.db.tables (w.run x).2.db.tables := by
  rcases run_db w x with heq | hok
  · rw [heq]
    exact hR.refl _
  · exact h _ hok

theorem Aside.commit (hR : Aside R) {α : Type} {x : Except Error (α × Database)}
    (h : ∀ a db', x = .ok (a, db') → R w.db.tables db'.tables) :
    R w.db.tables (w.commit x).2.db.tables := by
  rcases commit_db w x with heq | ⟨a, hok⟩
  · rw [heq]
    exact hR.refl _
  · exact h a _ hok

theorem Aside.devicesWhere (hR : Aside R) {t : Tables} (p : Device → Bool) {f : Device → Device}
    (hid : ∀ d, (f d).id = d.id) (hlink : ∀ d, (f d).userId = d.userId ∨ (f d).userId = none) :
    R t { t with devices := updateWhere p f t.devices } := by
  apply hR.devices
  · intro d
    by_cases hp : p d <;> simp [hp, hid]
  · intro d
    by_cases hp : p d <;> simp [hp, hlink]

theorem unlinkDeviceFromUser_aside (hR : Aside R) {id u : UUID}
    (h : unlinkDeviceFromUser id u db = .ok db') : R db.tables db'.tables := by
  refine Aside.write ?_ h
  exact hR.devicesWhere _ (fun _ => rfl) fun _ => .inr rfl

theorem issue_aside (hR : Aside R) {userId : UUID} {session : Session}
    (h : issue cfg env userId db = .ok (session, db')) : R db.tables db'.tables := by
  obtain ⟨db₁, hwrite, h⟩ := bind_eq_ok.mp h
  cases h
  exact Aside.write (hR.refreshTokens _ _) hwrite

end Statements

section Operations

theorem register_aside (hR : Aside R) {platform : String} {pushToken : Option String} :
    R w.db.tables (register cfg env platform pushToken w).2.db.tables := by
  unfold register
  split
  · exact hR.refl _
  · split
    · exact hR.refl _
    · rename_i h
      exact Aside.write (hR.newDevice _ _ rfl) h

theorem setPushToken_aside (hR : Aside R) {deviceId : UUID} {pushToken : String} :
    R w.db.tables (AccountServices.setPushToken deviceId pushToken w).2.db.tables := by
  simp only [AccountServices.setPushToken]
  split
  · exact hR.refl _
  · refine hR.run fun db' h => Aside.write (hR.devices _ _ (fun d => ?_) fun d => ?_) h
    · split
      · rfl
      · split <;> rfl
    · split
      · exact .inl rfl
      · split <;> exact .inl rfl

theorem requestOTP_aside (hR : Aside R) {phone : String} :
    R w.db.tables (requestOTP cfg env phone w).2.db.tables := by
  unfold requestOTP
  split
  · exact hR.refl _
  · exact hR.refl _
  · dsimp only
    split
    · exact hR.refl _
    · split
      · exact hR.refl _
      · rename_i h
        exact Aside.write (hR.otpCodes _ _) h

theorem setDisplayName_aside (hR : Aside R) {userId : UUID} {name : String} :
    R w.db.tables (setDisplayName userId name w).2.db.tables := by
  simp only [setDisplayName]
  split
  · exact hR.refl _
  · exact hR.run fun db' h => Aside.write (hR.users _ _) h

theorem unlinkDevice_aside (hR : Aside R) {deviceId userId : UUID} :
    R w.db.tables (unlinkDevice deviceId userId w).2.db.tables :=
  hR.run fun _ => unlinkDeviceFromUser_aside hR

theorem refresh_aside (hR : Aside R) {token : String} :
    R w.db.tables (AccountServices.refresh cfg env token w).2.db.tables := by
  unfold AccountServices.refresh
  split
  · exact hR.refl _
  · exact hR.refl _
  · split
    · exact hR.refl _
    · split
      · exact hR.refl _
      · refine hR.commit fun session db' h => ?_
        split at h
        · cases h
        · obtain ⟨⟨u, db₁⟩, hrevoke, hissue⟩ := bind_eq_ok.mp h
          obtain ⟨row, -, hrevoke⟩ := bind_eq_ok.mp hrevoke
          obtain ⟨db₂, hwrite, hrevoke⟩ := bind_eq_ok.mp hrevoke
          cases hrevoke
          exact hR.trans (Aside.write (hR.refreshTokens _ _) hwrite) (issue_aside hR hissue)

theorem revoke_aside (hR : Aside R) {token : String} :
    R w.db.tables (revoke cfg env token w).2.db.tables := by
  unfold revoke
  split
  · exact hR.refl _
  · exact hR.refl _
  · split
    · exact hR.refl _
    · exact hR.run fun db' h => Aside.write (hR.refreshTokens _ _) h

theorem logout_aside (hR : Aside R) {userId : UUID} {token : String} {deviceId : Option UUID} :
    R w.db.tables (logout cfg env userId token deviceId w).2.db.tables := by
  have hrevoke : R w.db.tables (revoke cfg env token w).2.db.tables := revoke_aside hR
  unfold logout
  split
  · rename_i e w' h
    rw [h] at hrevoke
    exact hrevoke
  · rename_i w' h
    rw [h] at hrevoke
    split
    · exact hrevoke
    · exact hR.trans hrevoke (unlinkDevice_aside hR)

theorem block_aside (hR : Aside R) {blocker : UUID} {blocked : Option UUID} :
    R w.db.tables (block blocker blocked w).2.db.tables := by
  unfold block
  split
  · exact hR.refl _
  · split
    · exact hR.refl _
    · split
      · exact hR.refl _
      · exact hR.refl _
      · refine hR.run fun db' h => ?_
        unfold createBlock at h
        split at h
        · cases h
          exact hR.refl _
        · exact Aside.write (hR.userBlocks _ _) h

theorem unblock_aside (hR : Aside R) {blocker : UUID} {blocked : Option UUID} :
    R w.db.tables (unblock blocker blocked w).2.db.tables := by
  unfold unblock
  split
  · exact hR.refl _
  · split
    · exact hR.refl _
    · exact hR.run fun db' h => Aside.write (hR.userBlocks _ _) h

theorem follow_aside (hR : Aside R) {catId : Option UUID} {userId : UUID} {deviceId : Option UUID} :
    R w.db.tables (follow catId userId deviceId w).2.db.tables := by
  unfold follow
  split
  · exact hR.refl _
  · split
    · refine hR.run fun db' h => ?_
      unfold createFollow at h
      split at h
      · cases h
        exact hR.refl _
      · exact Aside.write (hR.follows _ _) h
    · exact hR.refl _

theorem unfollow_aside (hR : Aside R) {catId : Option UUID} {userId : UUID} :
    R w.db.tables (unfollow catId userId w).2.db.tables := by
  unfold unfollow
  split
  · exact hR.refl _
  · split
    · exact hR.run fun db' h => Aside.write (hR.follows _ _) h
    · exact hR.refl _

theorem createReport_aside (hR : Aside R) {reporter : UUID} {targetType : String}
    {targetId : Option UUID} {reason : String} {note : Option String} :
    R w.db.tables
      (SocialServices.createReport env reporter targetType targetId reason note w).2.db.tables := by
  unfold SocialServices.createReport
  split
  · exact hR.refl _
  · split
    · rename_i h
      unfold UpdateQueries.createReport at h
      split at h
      · cases h
      · obtain ⟨db₁, hwrite, h⟩ := bind_eq_ok.mp h
        cases h
        exact Aside.write (hR.reports _ _) hwrite
    · exact hR.refl _
    · exact hR.refl _

theorem markRead_aside (hR : Aside R) {userId : UUID} {id : Option UUID} :
    R w.db.tables (markRead env userId id w).2.db.tables := by
  unfold markRead
  split
  · exact hR.refl _
  · refine hR.run fun db' h => Aside.write (hR.notifications _ _ _ fun n => ?_) h
    rfl

/-- Each of the operations keeps what one statement keeps. -/
theorem serve_aside (hR : Aside R) {r : Request} (h : isAside r.op = true) :
    R w.db.tables (serve cfg r w).db.tables := by
  obtain ⟨env, op⟩ := r
  cases op <;> try cases h
  case register => exact register_aside hR
  case setPushToken => exact setPushToken_aside hR
  case requestOTP => exact requestOTP_aside hR
  case setDisplayName => exact setDisplayName_aside hR
  case refresh => exact refresh_aside hR
  case logout => exact logout_aside hR
  case unlinkDevice => exact unlinkDevice_aside hR
  case block => exact block_aside hR
  case unblock => exact unblock_aside hR
  case follow => exact follow_aside hR
  case unfollow => exact unfollow_aside hR
  case report => exact createReport_aside hR
  case markRead => exact markRead_aside hR

end Operations

/-- A quiet relation does not look at these tables, but for the links of the devices. -/
theorem quiet_aside : Aside Quiet where
  refl := .refl
  trans := fun h h' => h.trans h'
  users := fun _ _ => quiet_of_eq rfl rfl rfl rfl rfl
  otpCodes := fun _ _ => quiet_of_eq rfl rfl rfl rfl rfl
  refreshTokens := fun _ _ => quiet_of_eq rfl rfl rfl rfl rfl
  follows := fun _ _ => quiet_of_eq rfl rfl rfl rfl rfl
  reports := fun _ _ => quiet_of_eq rfl rfl rfl rfl rfl
  userBlocks := fun _ _ => quiet_of_eq rfl rfl rfl rfl rfl
  newDevice := by
    intro t d hd
    refine ⟨⟨.refl _ _, .refl _, .refl _ _, .refl _ _⟩, fun d' hd' u hu => ?_⟩
    rcases List.mem_append.mp hd' with hd' | hd'
    · exact ⟨d', hd', rfl, hu⟩
    · rw [List.mem_singleton.mp hd', hd] at hu
      cases hu
  devices := fun _ _ hid hlink => quiet_devices hid hlink
  notifications := by
    intro t p f hf
    exact ⟨⟨.refl _ _, .refl _, .refl _ _, inherited_updateWhere p hf _⟩, .refl t⟩

end Tekir.AsideOperations
