import Tekir.AccountCalls

/-!
# Account writes

What the writes of an account transaction leave alone, and which constraints stand in
the way of each: a new account needs a free phone number, and claimed follows need cats
that the account does not follow yet. All other writes meet the constraints.
-/
namespace Tekir.AccountWrites
open Table Schema Statements AccountCalls

variable {t : Tables} {ws : List Write} {u d : UUID}

/-- What no write changes, the transaction does not change. -/
theorem applyAll_frame {α : Type} (field : Tables → α)
    (h : ∀ w ∈ ws, ∀ t, field (w.apply t) = field t) : field (applyAll ws t) = field t := by
  induction ws generalizing t with
  | nil => rfl
  | cons w ws ih =>
    have hw := h w List.mem_cons_self t
    exact (ih fun w' hw' => h w' (List.mem_cons_of_mem w hw')).trans hw

def newUser : Write → Option User
  | .user row => some row
  | _ => none

theorem users_apply (w : Write) (t : Tables) :
    (w.apply t).users = t.users ++ (newUser w).toList := by
  cases w <;> simp [Write.apply, newUser]

/-- Accounts are only added. -/
theorem users_applyAll (ws : List Write) (t : Tables) :
    (applyAll ws t).users = t.users ++ ws.filterMap newUser := by
  induction ws generalizing t with
  | nil => simp [applyAll]
  | cons w ws ih =>
    have h := ih (w.apply t)
    rw [users_apply, List.append_assoc] at h
    refine h.trans ?_
    cases hw : newUser w <;> simp [hw]

theorem mem_users_applyAll {row : User} :
    row ∈ (applyAll ws t).users ↔ row ∈ t.users ∨ Write.user row ∈ ws := by
  rw [users_applyAll, List.mem_append, List.mem_filterMap]
  refine or_congr_right ⟨?_, fun h => ⟨_, h, rfl⟩⟩
  rintro ⟨w, hw, hrow⟩
  cases w <;> cases hrow
  exact hw

section Constraints

theorem user_valid_iff (ht : Valid t) {row : User} (hfresh : ∀ q ∈ t.users, q.id ≠ row.id) :
    Valid ((Write.user row).apply t) ↔ ∀ q ∈ t.users, q.phone ≠ row.phone := by
  constructor
  · intro h q hq
    have huniq := (uniqueOn_append_singleton.mp (h.holds .usersPhoneKey)).2 q hq
    simpa using huniq
  · intro hphone
    refine valid_iff.mpr fun c => ?_
    have h := ht.holds c
    cases c
    case usersPkey => exact uniqueOn_append_singleton.mpr ⟨h, fun q hq => by simpa using hfresh q hq⟩
    case usersPhoneKey =>
      exact uniqueOn_append_singleton.mpr ⟨h, fun q hq => by simpa using hphone q hq⟩
    case devicesUserIdFkey => exact h.append_parent _
    case refreshTokensUserIdFkey => exact h.append_parent _
    case catsCreatedByUserIdFkey => exact h.append_parent _
    case mediaUploadedByUserIdFkey => exact h.append_parent _
    case updatesAuthorUserIdFkey => exact h.append_parent _
    case followsUserIdFkey => exact h.append_parent _
    case reportsReporterUserIdFkey => exact h.append_parent _
    case userBlocksBlockerUserIdFkey => exact h.append_parent _
    case userBlocksBlockedUserIdFkey => exact h.append_parent _
    all_goals exact h

theorem linked_valid (ht : Valid t) (hu : ∃ q ∈ t.users, q.id = u) :
    Valid ((Write.linked d u).apply t) := by
  refine valid_iff.mpr fun c => ?_
  have h := ht.holds c
  cases c
  case devicesPkey => exact h.updateWhere _ fun _ => rfl
  case devicesTokenHashKey => exact h.updateWhere _ fun _ => rfl
  case devicesUserIdFkey => exact h.updateWhere_set hu fun _ => .inr rfl
  case catsCreatedByDeviceIdFkey => exact h.updateWhere_parent _ fun _ => rfl
  case mediaUploadedByDeviceIdFkey => exact h.updateWhere_parent _ fun _ => rfl
  case updatesAuthorDeviceIdFkey => exact h.updateWhere_parent _ fun _ => rfl
  case followsDeviceIdFkey => exact h.updateWhere_parent _ fun _ => rfl
  case notificationsDeviceIdFkey => exact h.updateWhere_parent _ fun _ => rfl
  all_goals exact h

theorem droppedFollows_valid (ht : Valid t) (rows : List Follow) :
    Valid ((Write.droppedFollows rows).apply t) := by
  refine valid_iff.mpr fun c => ?_
  have h := ht.holds c
  cases c
  case followsDeviceCatUq => exact h.deleteWhere _
  case followsUserCatUq => exact h.deleteWhere _
  case followsOwnerCk => exact fun f hf => h f (mem_deleteWhere.mp hf).1
  case followsDeviceIdFkey => exact h.deleteWhere_child
  case followsUserIdFkey => exact h.deleteWhere_child
  case followsCatIdFkey => exact h.deleteWhere_child
  all_goals exact h

theorem refreshToken_valid (ht : Valid t) {row : RefreshToken}
    (hu : ∃ q ∈ t.users, q.id = row.userId) (hid : ∀ r ∈ t.refreshTokens, r.id ≠ row.id)
    (hhash : ∀ r ∈ t.refreshTokens, r.tokenHash ≠ row.tokenHash) :
    Valid ((Write.refreshToken row).apply t) := by
  refine valid_iff.mpr fun c => ?_
  have h := ht.holds c
  cases c
  case refreshTokensPkey =>
    exact uniqueOn_append_singleton.mpr ⟨h, fun r hr => by simpa using hid r hr⟩
  case refreshTokensTokenHashKey =>
    exact uniqueOn_append_singleton.mpr ⟨h, fun r hr => by simpa using hhash r hr⟩
  case refreshTokensUserIdFkey =>
    refine references_append_singleton.mpr ⟨h, fun k hk => ?_⟩
    obtain rfl := Option.mem_some.mp hk
    exact hu
  all_goals exact h

/-- Updates without a key are claimed without running into the index. -/
theorem claimedUpdates_valid (ht : Valid t) {ids : List UUID} (hu : ∃ q ∈ t.users, q.id = u)
    (hkey : ∀ v ∈ t.updates, v.id ∈ ids → v.idempotencyKey = none) :
    Valid ((Write.claimedUpdates ids u).apply t) := by
  refine valid_iff.mpr fun c => ?_
  have h := ht.holds c
  cases c
  case updatesPkey => exact h.updateWhere _ fun _ => rfl
  case updatesUserIdempotencyUq =>
    refine h.updateWhere_none fun v hv hclaimed => ?_
    have hnone := hkey v hv (by simpa using hclaimed)
    split <;> simp [both, hnone]
  case updatesNeedsHelpFieldsCk =>
    intro v hv
    obtain ⟨q, hq, rfl⟩ := mem_updateWhere.mp hv
    split <;> exact h q hq
  case updatesCatIdFkey => exact h.updateWhere_child _ fun _ => .inl rfl
  case updatesAuthorDeviceIdFkey => exact h.updateWhere_child _ fun _ => .inl rfl
  case updatesAuthorUserIdFkey => exact h.updateWhere_set hu fun _ => .inr rfl
  case updatesMediaIdFkey => exact h.updateWhere_child _ fun _ => .inl rfl
  case updateStatusesUpdateIdFkey => exact h.updateWhere_parent _ fun _ => rfl
  case notificationOutboxUpdateIdFkey => exact h.updateWhere_parent _ fun _ => rfl
  case notificationsUpdateIdFkey => exact h.updateWhere_parent _ fun _ => rfl
  all_goals exact h

/-- Follows of one device are claimed precisely if the account follows none of their cats. -/
theorem claimedFollows_valid_iff (ht : Valid t) {rows : List Follow}
    (hu : ∃ q ∈ t.users, q.id = u) (hrows : ∀ f ∈ rows, f ∈ t.follows ∧ unowned d f = true) :
    Valid ((Write.claimedFollows rows u).apply t) ↔
      ∀ f ∈ rows, ∀ g ∈ t.follows, g.userId = some u → g.catId ≠ f.catId := by
  have hunowned : ∀ f ∈ rows, f.deviceId = some d ∧ f.userId = none := fun f hf => by
    simpa [unowned] using (hrows f hf).2
  constructor
  · intro h f hf g hg hgu hcat
    have hclaimed : ({ f with userId := some u } : Follow) ∈
        (Write.apply (.claimedFollows rows u) t).follows :=
      mem_updateWhere.mpr ⟨f, (hrows f hf).1, by simp [hf]⟩
    have hkept : g ∈ (Write.apply (.claimedFollows rows u) t).follows := by
      refine mem_updateWhere.mpr ⟨g, hg, if_neg fun hmem => ?_⟩
      simp [(hunowned g (by simpa using hmem)).2] at hgu
    have hsame := (h.holds .followsUserCatUq).eq_of_key_eq hclaimed hkept
      (by simp [both, hgu, hcat]) (by simp [both])
    have hdevice : g.deviceId = some d := by
      rw [← hsame]
      exact (hunowned f hf).1
    have heq := (ht.holds .followsDeviceCatUq).eq_of_key_eq (hrows f hf).1 hg
      (by simp [both, (hunowned f hf).1, hdevice, hcat]) (by simp [both, (hunowned f hf).1])
    rw [← heq, (hunowned f hf).2] at hgu
    cases hgu
  · intro hfree
    refine valid_iff.mpr fun c => ?_
    have h := ht.holds c
    cases c
    case followsDeviceCatUq => exact h.updateWhere _ fun _ => rfl
    case followsUserCatUq =>
      have hdevice := ht.holds .followsDeviceCatUq
      refine List.pairwise_map.mpr ((h.and hdevice).imp_of_mem fun {f g} hf hg hfg => ?_)
      by_cases hfr : f ∈ rows <;> by_cases hgr : g ∈ rows
      · have hne := hfg.2
        simp only [both, (hunowned f hfr).1, (hunowned g hgr).1] at hne
        simpa [both, hfr, hgr] using hne
      · have hne : g.userId = some u → g.catId ≠ f.catId := hfree f hfr g hg
        cases hgu : g.userId with
        | none => simp [both, hfr, hgr, hgu]
        | some x =>
          by_cases hx : x = u
          · subst hx
            simp [both, hfr, hgr, hgu, Ne.symm (hne hgu)]
          · simp [both, hfr, hgr, hgu, Ne.symm hx]
      · have hne : f.userId = some u → f.catId ≠ g.catId := hfree g hgr f hf
        cases hfu : f.userId with
        | none => simp [both, hfr, hfu]
        | some x =>
          by_cases hx : x = u
          · subst hx
            simp [both, hfr, hgr, hfu, hne hfu]
          · simp [both, hfr, hgr, hfu, hx]
      · simpa [hfr, hgr] using hfg.1
    case followsOwnerCk =>
      intro f hf
      obtain ⟨q, hq, rfl⟩ := mem_updateWhere.mp hf
      split
      · exact .inr (by simp)
      · exact h q hq
    case followsDeviceIdFkey => exact h.updateWhere_child _ fun _ => .inl rfl
    case followsUserIdFkey => exact h.updateWhere_set hu fun _ => .inr rfl
    case followsCatIdFkey => exact h.updateWhere_child _ fun _ => .inl rfl
    all_goals exact h

end Constraints

end Tekir.AccountWrites
