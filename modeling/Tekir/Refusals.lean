import Tekir.BlockTransparency
import Tekir.HttpRuns

/-!
# Refusals

A request that is answered with an error has done nothing: what it was to write is not there, in
whole or in part, and nothing has been sent. One-time codes alone are counted and stored when
they are refused.
-/
namespace Tekir.Refusals
open Table Schema Statements AccountQueries CatQueries UpdateQueries Environment ServiceEffects
open BlockTransparency (not_own_of_blocks)

/-- Nothing is written and nothing is sent. -/
def Undone (w w' : World) : Prop :=
  w'.db = w.db ∧ w'.sent = w.sent

/-- Nothing but one-time codes is written. -/
def UndoneButCodes (w w' : World) : Prop :=
  w'.db.tables = { w.db.tables with otpCodes := w'.db.tables.otpCodes } ∧ w'.sent = w.sent

theorem Undone.butCodes {w w' : World} (h : Undone w w') : UndoneButCodes w w' := by
  obtain ⟨hdb, hsent⟩ := h
  refine ⟨?_, hsent⟩
  rw [hdb]

section Services

open AccountServices CatServices SocialServices

variable {α : Type} {same : World → World → Prop} {cfg : Config} {env : Env} {w w' : World}

/-- A call that fails leaves the state the same. -/
def Clean (same : World → World → Prop) (w : World) (x : Except Error α × World) : Prop :=
  ∀ e, x.1 = .error e → same w x.2

theorem clean_unchanged (x : Except Error α) : Clean Undone w (x, w) :=
  fun _ _ => ⟨rfl, rfl⟩

theorem clean_ok (a : α) (w' : World) : Clean same w (.ok a, w') := by
  intro e h
  cases h

theorem Clean.butCodes {x : Except Error α × World} (h : Clean Undone w x) :
    Clean UndoneButCodes w x :=
  fun e he => (h e he).butCodes

theorem commit_clean (x : Except Error (α × Database)) : Clean Undone w (w.commit x) := by
  rcases x with e | ⟨a, db⟩
  · exact clean_unchanged _
  · exact clean_ok a _

theorem run_clean (x : Except Error Database) : Clean Undone w (w.run x) := by
  rcases x with e | db
  · exact clean_unchanged _
  · exact clean_ok () _

section Accounts

theorem register_clean (platform : String) (pushToken : Option String) :
    Clean Undone w (register cfg env platform pushToken w) := by
  unfold register
  split
  · exact clean_unchanged _
  · split
    · exact clean_unchanged _
    · exact clean_ok _ _

theorem setPushToken_clean (deviceId : UUID) (pushToken : String) :
    Clean Undone w (setPushToken deviceId pushToken w) := by
  unfold setPushToken
  dsimp only
  split
  · exact clean_unchanged _
  · exact run_clean _

/-- A code that could not be sent is stored all the same. -/
theorem requestOTP_clean (phone : String) :
    Clean UndoneButCodes w (requestOTP cfg env phone w) := by
  unfold requestOTP
  split
  · exact (clean_unchanged _).butCodes
  · exact (clean_unchanged _).butCodes
  · dsimp only
    split
    · exact (clean_unchanged _).butCodes
    · split
      · exact (clean_unchanged _).butCodes
      · next db hwrite =>
        intro e _
        refine ⟨?_, rfl⟩
        rw [write_eq_ok.mp hwrite]

/-- A wrong code is counted. -/
theorem verifyOTP_clean (phone code : String) (deviceId : UUID) :
    Clean UndoneButCodes w (verifyOTP cfg env phone code deviceId w) := by
  unfold verifyOTP
  split
  · exact (clean_unchanged _).butCodes
  · split
    · exact (clean_unchanged _).butCodes
    · exact (commit_clean _).butCodes
  · split
    · exact (clean_unchanged _).butCodes
    · split
      · exact (commit_clean _).butCodes
      · split
        · exact (clean_unchanged _).butCodes
        · next db hwrite =>
          intro e _
          refine ⟨?_, rfl⟩
          rw [write_eq_ok.mp hwrite]

theorem setDisplayName_clean (userId : UUID) (name : String) :
    Clean Undone w (setDisplayName userId name w) := by
  unfold setDisplayName
  dsimp only
  split
  · exact clean_unchanged _
  · exact run_clean _

theorem refresh_clean (token : String) : Clean Undone w (refresh cfg env token w) := by
  unfold refresh
  split
  · exact clean_unchanged _
  · exact clean_unchanged _
  · split
    · exact clean_unchanged _
    · split
      · exact clean_unchanged _
      · exact commit_clean _

theorem revoke_clean (token : String) : Clean Undone w (revoke cfg env token w) := by
  unfold revoke
  split
  · exact clean_unchanged _
  · exact clean_unchanged _
  · split
    · exact clean_unchanged _
    · exact run_clean _

/-- Once the session is revoked, the logout does not fail. -/
theorem logout_clean (userId : UUID) (token : String) (deviceId : Option UUID) :
    Clean Undone w (logout cfg env userId token deviceId w) := by
  have hrevoke : Clean Undone w (revoke cfg env token w) := revoke_clean token
  unfold logout
  split
  · next e w₁ h =>
    rw [h] at hrevoke
    exact hrevoke
  · split
    · exact clean_ok _ _
    · exact clean_ok _ _

theorem block_clean (blocker : UUID) (blocked : Option UUID) :
    Clean Undone w (block blocker blocked w) := by
  unfold block
  split
  · exact clean_unchanged _
  · split
    · exact clean_unchanged _
    · split
      · exact clean_unchanged _
      · exact clean_unchanged _
      · exact run_clean _

theorem unblock_clean (blocker : UUID) (blocked : Option UUID) :
    Clean Undone w (unblock blocker blocked w) := by
  unfold unblock
  split
  · exact clean_unchanged _
  · split
    · exact clean_unchanged _
    · exact run_clean _

theorem delete_clean (userId : UUID) : Clean Undone w (AccountServices.delete env userId w) := by
  unfold AccountServices.delete
  split
  · exact clean_unchanged _
  · exact clean_unchanged _
  · split
    · exact clean_unchanged _
    · exact clean_ok _ _

end Accounts

section Cats

variable {id caller : UUID} {db db' : Database}

/-- A selection that is not empty has a first row. -/
theorem one_of_mem {β : Type} {rows : List β} {r : β} (h : r ∈ rows) : ∃ a, one rows = .ok a := by
  cases rows with
  | nil => cases h
  | cons a as => exact ⟨a, rfl⟩

theorem ownedCat_eq_ok {row : CatRow} (h : ownedCat id caller db = .ok row) :
    ∃ c ∈ db.tables.cats, c.id = id ∧ c.status ≠ .deleted ∧ c.createdByUserId = some caller := by
  unfold ownedCat at h
  split at h
  · cases h
  · cases h
  · next found hget =>
    split at h
    · next hown =>
      obtain ⟨c, hone, hrow⟩ := bind_eq_ok.mp hget
      obtain ⟨hc, hmatch⟩ := List.mem_filter.mp (one_eq_ok hone)
      simp only [visible, Bool.and_eq_true, beq_iff_eq, bne_iff_ne] at hmatch
      obtain ⟨hid, hactive, -⟩ := hmatch
      cases hrow
      exact ⟨c, hc, hid, hactive, hown⟩
    · cases h

/-- The page of a cat that the caller owns is there after a write that leaves it so. -/
theorem getCatDetail_of_owned {row : CatRow} {f : Cat → Cat} (clock : Instant)
    (howned : ownedCat id caller db = .ok row) (hid : ∀ c, (f c).id = c.id)
    (hstatus : ∀ c, (f c).status = c.status)
    (howner : ∀ c, (f c).createdByUserId = c.createdByUserId)
    (hcats : db'.tables.cats = updateWhere (fun c => c.id == id) f db.tables.cats) :
    ∃ detail, getCatDetail clock id (some caller) db' = .ok detail := by
  obtain ⟨c, hc, hcid, hactive, hown⟩ := ownedCat_eq_ok howned
  have hthere : f c ∈ db'.tables.cats := by
    rw [hcats]
    exact mem_updateWhere.mpr ⟨c, hc, by rw [if_pos (beq_iff_eq.mpr hcid)]⟩
  have hblocks : blocks (some caller) (f c).createdByUserId db' = false := by
    rw [howner, hown]
    by_contra hblocked
    exact not_own_of_blocks (Bool.eq_true_of_not_eq_false hblocked) rfl
  have hlisted : f c ∈ db'.tables.cats.filter fun c =>
      c.id == id && visible (some caller) db' c := by
    refine List.mem_filter.mpr ⟨hthere, ?_⟩
    rw [hid, visible, hstatus, hblocks, hcid]
    simp [hactive]
  obtain ⟨row', hrow'⟩ := one_of_mem hlisted
  simp only [getCatDetail, getCatByID, hrow']
  exact ⟨_, rfl⟩

theorem setCoverPhoto_clean (mediaId : Option UUID) :
    Clean Undone w (setCoverPhoto env id caller mediaId w) := by
  unfold setCoverPhoto
  split
  · exact clean_unchanged _
  · exact clean_unchanged _
  · next row m howned =>
    split
    · exact clean_unchanged _
    · exact clean_unchanged _
    · split
      · exact clean_unchanged _
      · next db hwrite =>
        obtain ⟨detail, hdetail⟩ := getCatDetail_of_owned env.clock howned
          (f := fun c => { c with primaryPhotoId := some m }) (fun _ => rfl) (fun _ => rfl)
          (fun _ => rfl) (congrArg Tables.cats (write_eq_ok.mp hwrite))
        rw [hdetail]
        exact clean_ok _ _

theorem renameCat_clean (name : String) :
    Clean Undone w (renameCat env id caller name w) := by
  unfold renameCat
  split
  · exact clean_unchanged _
  · next trimmed hprepare =>
    obtain ⟨row, howned, -⟩ := bind_eq_ok.mp hprepare
    split
    · exact clean_unchanged _
    · next db hwrite =>
      obtain ⟨detail, hdetail⟩ := getCatDetail_of_owned env.clock howned
        (f := fun c => { c with name := some trimmed }) (fun _ => rfl) (fun _ => rfl)
        (fun _ => rfl) (congrArg Tables.cats (write_eq_ok.mp hwrite))
      rw [hdetail]
      exact clean_ok _ _

theorem deleteCat_clean : Clean Undone w (deleteCat id caller w) := by
  unfold deleteCat
  split
  · exact clean_ok _ _
  · exact clean_unchanged _
  · exact clean_unchanged _

theorem deleteObject_undone (objects : List String) (key : String) :
    Undone w (World.deleteObject env { w with objects } key) := by
  refine ⟨deleteObject_db _ _ _, ?_⟩
  unfold World.deleteObject
  split
  · rfl
  · rfl

/-- The object of a failed creation may stay behind. -/
theorem create_clean (req : CreateRequest) : Clean Undone w (create cfg env req w) := by
  unfold create
  split
  · exact clean_unchanged _
  · split
    · exact clean_unchanged _
    · exact clean_unchanged _
    · dsimp only
      split
      · intro e _
        exact deleteObject_undone _ _
      · exact clean_ok _ _
  · exact clean_unchanged _

theorem upload_clean (userId : UUID) (deviceId : Option UUID) (key : Option String)
    (muted : Bool) : Clean Undone w (upload env userId deviceId key muted w) := by
  unfold upload
  split
  · exact clean_unchanged _
  · split
    · exact clean_unchanged _
    · exact clean_unchanged _
    · dsimp only
      split
      · intro e _
        exact deleteObject_undone _ _
      · exact clean_ok _ _
  · exact clean_unchanged _

end Cats

section Updates

/-- The author of a new update has an account. -/
theorem author_found {cmId outId id : UUID} {now : Instant}
    {arg : Store.CreateOrdinaryUpdateParams} {db db' : Database}
    (h : Store.createOrdinaryUpdate cmId outId now arg db = .ok (id, db')) :
    ∃ name, authorDisplayNameFor arg.authorUserId db' = .ok name := by
  obtain ⟨⟨id', db₁⟩, hcreate, h⟩ := bind_eq_ok.mp h
  obtain ⟨db₂, hstatuses, h⟩ := bind_eq_ok.mp h
  obtain ⟨db₃, hlast, h⟩ := bind_eq_ok.mp h
  obtain ⟨db₄, hgallery, h⟩ := bind_eq_ok.mp h
  obtain ⟨db₅, houtbox, h⟩ := bind_eq_ok.mp h
  cases h
  have hposted : ∃ u ∈ db₁.tables.updates, u.authorUserId = some arg.authorUserId := by
    obtain ⟨-, ⟨⟨u, hu, hid⟩, ht⟩ | ⟨-, ht⟩⟩ := createUpdate_cases hcreate
    · rw [ht]
      exact ⟨arg.row.assign u, mem_updateWhere.mpr ⟨u, hu, by rw [if_pos (beq_iff_eq.mpr hid)]⟩,
        rfl⟩
    · rw [ht]
      exact ⟨_, List.mem_append_right _ (List.mem_singleton.mpr rfl), rfl⟩
  obtain ⟨rows, ht₂⟩ := statuses_tables hstatuses
  obtain ⟨links, ht₄⟩ := linkGallery_tables hgallery
  have hupdates : db'.tables.updates = db₁.tables.updates := by
    rw [write_eq_ok.mp houtbox, ht₄, write_eq_ok.mp hlast, ht₂]
  obtain ⟨u, hu, hauthor⟩ := hposted
  rw [← hupdates] at hu
  obtain ⟨user, huser, hid⟩ :=
    db'.valid.holds .updatesAuthorUserIdFkey u hu arg.authorUserId hauthor
  have hlisted : user ∈ db'.tables.users.filter fun u => u.id == arg.authorUserId :=
    List.mem_filter.mpr ⟨huser, beq_iff_eq.mpr hid⟩
  obtain ⟨found, hfound⟩ := one_of_mem hlisted
  simp only [authorDisplayNameFor, getUserByID, hfound]
  exact ⟨_, rfl⟩

theorem createOrdinaryUpdate_clean (req : OrdinaryUpdateRequest) :
    Clean Undone w (createOrdinaryUpdate env req w) := by
  unfold createOrdinaryUpdate
  split
  · exact clean_unchanged _
  · split
    · exact clean_unchanged _
    · split
      · exact clean_unchanged _
      · next params media hprepare =>
        split
        · exact clean_unchanged _
        · next hstore =>
          have hauthor : params.authorUserId = req.userId := by
            simp only [prepareOrdinaryUpdate, bind_eq_ok] at hprepare
            obtain ⟨statuses, -, _, -, _, -, hprepare⟩ := hprepare
            split at hprepare
            · simp only [bind_eq_ok] at hprepare
              obtain ⟨m, -, hprepare⟩ := hprepare
              cases hprepare
              rfl
            · cases hprepare
          obtain ⟨name, hname⟩ := author_found hstore
          rw [hauthor] at hname
          simp only [ordinaryUpdateResult, hname]
          exact clean_ok _ _
    · exact clean_unchanged _

theorem createNeedsHelpUpdate_clean (catId : Option UUID) (userId : UUID) (deviceId : Option UUID)
    (category : String) (comment : Option String) :
    Clean Undone w (createNeedsHelpUpdate env catId userId deviceId category comment w) := by
  unfold createNeedsHelpUpdate
  split
  · exact clean_unchanged _
  · next params c hprepare =>
    split
    · exact clean_unchanged _
    · next hstore =>
      have hauthor : params.authorUserId = userId := by
        unfold prepareNeedsHelpUpdate at hprepare
        split at hprepare
        · cases hprepare
        · cases hprepare
        · simp only [bind_eq_ok] at hprepare
          obtain ⟨_, -, _, -, hprepare⟩ := hprepare
          split at hprepare
          · cases hprepare
            rfl
          · cases hprepare
      obtain ⟨name, hname⟩ := author_found hstore
      rw [hauthor] at hname
      simp only [needsHelpResult, hname]
      exact clean_ok _ _

theorem correctOwnUpdate_clean (catId updateId : Option UUID) (userId : UUID)
    (correction : UpdateCorrection) :
    Clean Undone w (correctOwnUpdate env catId updateId userId correction w) := by
  unfold correctOwnUpdate
  split
  · exact clean_unchanged _
  · split
    · exact clean_ok _ _
    · split
      · exact clean_unchanged _
      · exact clean_unchanged _
    · exact clean_unchanged _

theorem deleteOwnUpdate_clean (catId updateId : Option UUID) (userId : UUID) :
    Clean Undone w (CatServices.deleteOwnUpdate env catId updateId userId w) := by
  unfold CatServices.deleteOwnUpdate
  split
  · exact clean_unchanged _
  · exact clean_unchanged _
  · dsimp only
    split
    · exact clean_ok _ _
    · exact clean_unchanged _
    · exact clean_unchanged _

end Updates

section Social

theorem follow_clean (catId : Option UUID) (userId : UUID) (deviceId : Option UUID) :
    Clean Undone w (follow catId userId deviceId w) := by
  unfold follow
  split
  · exact clean_unchanged _
  · split
    · exact run_clean _
    · exact clean_unchanged _

theorem unfollow_clean (catId : Option UUID) (userId : UUID) :
    Clean Undone w (unfollow catId userId w) := by
  unfold unfollow
  split
  · exact clean_unchanged _
  · split
    · exact run_clean _
    · exact clean_unchanged _

theorem createReport_clean (reporter : UUID) (targetType : String) (targetId : Option UUID)
    (reason : String) (note : Option String) :
    Clean Undone w
      (SocialServices.createReport env reporter targetType targetId reason note w) := by
  unfold SocialServices.createReport
  split
  · exact clean_unchanged _
  · split
    · exact clean_ok _ _
    · exact clean_unchanged _
    · exact clean_unchanged _

theorem markRead_clean (userId : UUID) (id : Option UUID) :
    Clean Undone w (markRead env userId id w) := by
  unfold markRead
  split
  · exact clean_unchanged _
  · exact run_clean _

end Social

end Services

section Requests

open HttpRequests Handlers Router HttpRuns

variable {h : Wiring} {i : Incoming} {w : World} {same : World → World → Prop}

/-- Unless it succeeds, the answer leaves the state the same. -/
def Refuses (same : World → World → Prop) (w : World) (x : Answer × World) : Prop :=
  400 ≤ x.1.status → same w x.2

theorem refuses_unchanged (answer : Answer) : Refuses Undone w (answer, w) :=
  fun _ => ⟨rfl, rfl⟩

theorem Refuses.butCodes {x : Answer × World} (hx : Refuses Undone w x) :
    Refuses UndoneButCodes w x :=
  fun hstatus => (hx hstatus).butCodes

/-- A handler that answers a result with a good status refuses what its service fails at. -/
theorem refuses_respond {α : Type} {onError : Error → Answer} {onOk : α → Answer}
    {x : Except Error α × World} (status : ℕ) (hgood : status < 400)
    (hok : ∀ a, (onOk a).status = status) (hx : Clean same w x) :
    Refuses same w (respond onError onOk x) := by
  intro hstatus
  obtain ⟨result, w'⟩ := x
  cases result with
  | error e => exact hx e rfl
  | ok a =>
    have hbad : 400 ≤ status := (hok a) ▸ hstatus
    exact absurd hbad (Nat.not_le.mpr hgood)

/-- The routes of the one-time codes. -/
def Endpoint.codes : Endpoint → Bool
  | .requestOTP | .verifyOTP => true
  | _ => false

theorem refuses_of_stays {x : Answer × World} (hx : Stays w x) : Refuses Undone w x := by
  intro _
  have hsame : x.2 = w := hx
  rw [hsame]
  exact ⟨rfl, rfl⟩

theorem endpoint_refuses {e : Endpoint} (hcodes : Endpoint.codes e = false) :
    Refuses Undone w (e.serve h i w) := by
  cases e with
  | live | ready | nearby | nearbyDuplicates | discover | detail | media | updateHistory
  | listFollows | listNotifications | profile | badges | listBlocks | serveObject | me =>
    exact refuses_of_stays (serve_reads rfl)
  | rename catId =>
    refine require_of refuses_unchanged fun user _ => withBody_of refuses_unchanged fun req _ => ?_
    refine withCatID_of refuses_unchanged fun id => ?_
    exact refuses_respond 200 (by decide) (fun _ => rfl) (renameCat_clean req.name)
  | deleteCat catId =>
    refine require_of refuses_unchanged fun user _ => withCatID_of refuses_unchanged fun id => ?_
    exact refuses_respond 204 (by decide) (fun _ => rfl) deleteCat_clean
  | setCover catId =>
    refine require_of refuses_unchanged fun user _ => withBody_of refuses_unchanged fun req _ => ?_
    refine withCatID_of refuses_unchanged fun id => ?_
    exact refuses_respond 200 (by decide) (fun _ => rfl) (setCoverPhoto_clean _)
  | createCat =>
    refine require_of refuses_unchanged fun user _ => withForm_of refuses_unchanged fun form => ?_
    refine withParsed_of refuses_unchanged fun area => ?_
    split
    · exact refuses_unchanged _
    · exact refuses_respond 201 (by decide) (fun _ => rfl) (create_clean _)
  | createUpdate catId =>
    refine require_of refuses_unchanged fun user _ => withBody_of refuses_unchanged fun req _ => ?_
    exact refuses_respond 201 (by decide) (fun _ => rfl) (createOrdinaryUpdate_clean _)
  | correctUpdate catId updateId =>
    refine require_of refuses_unchanged fun user _ => withBody_of refuses_unchanged fun req _ => ?_
    split
    · exact refuses_unchanged _
    · exact refuses_respond 200 (by decide) (fun _ => rfl)
        (correctOwnUpdate_clean _ _ user req.correction)
  | deleteUpdate catId updateId =>
    refine require_of refuses_unchanged fun user _ => ?_
    exact refuses_respond 204 (by decide) (fun _ => rfl) (deleteOwnUpdate_clean _ _ user)
  | createNeedsHelp catId =>
    refine require_of refuses_unchanged fun user _ => withBody_of refuses_unchanged fun req _ => ?_
    exact refuses_respond 201 (by decide) (fun _ => rfl)
      (createNeedsHelpUpdate_clean _ user _ req.category req.comment)
  | follow catId =>
    refine require_of refuses_unchanged fun user _ => ?_
    exact refuses_respond 204 (by decide) (fun _ => rfl) (follow_clean _ user _)
  | unfollow catId =>
    refine require_of refuses_unchanged fun user _ => ?_
    exact refuses_respond 204 (by decide) (fun _ => rfl) (unfollow_clean _ user)
  | markRead id =>
    refine require_of refuses_unchanged fun user _ => ?_
    exact refuses_respond 204 (by decide) (fun _ => rfl) (markRead_clean user _)
  | createReport =>
    refine require_of refuses_unchanged fun user _ => withBody_of refuses_unchanged fun req _ => ?_
    exact refuses_respond 201 (by decide) (fun _ => rfl)
      (createReport_clean user req.targetType _ req.reason req.note)
  | createBlock =>
    refine require_of refuses_unchanged fun user _ => withBody_of refuses_unchanged fun req _ => ?_
    exact refuses_respond 204 (by decide) (fun _ => rfl) (block_clean user _)
  | deleteBlock userId =>
    refine require_of refuses_unchanged fun user _ => ?_
    exact refuses_respond 204 (by decide) (fun _ => rfl) (unblock_clean user _)
  | upload =>
    refine require_of refuses_unchanged fun user _ => withForm_of refuses_unchanged fun form => ?_
    split
    · exact refuses_unchanged _
    · exact refuses_respond 201 (by decide) (fun _ => rfl) (upload_clean user _ _ _)
  | register =>
    refine withBody_of refuses_unchanged fun req _ => ?_
    split
    · exact refuses_unchanged _
    · exact refuses_respond 201 (by decide) (fun _ => rfl)
        (register_clean req.platform req.pushToken)
  | updatePushToken =>
    refine require_of refuses_unchanged fun d _ => withBody_of refuses_unchanged fun req _ => ?_
    exact refuses_respond 204 (by decide) (fun _ => rfl)
      (setPushToken_clean d.deviceId req.pushToken)
  | requestOTP => cases hcodes
  | verifyOTP => cases hcodes
  | refresh =>
    refine withRefreshToken_of refuses_unchanged fun token _ => ?_
    exact refuses_respond 200 (by decide) (fun _ => rfl) (refresh_clean token)
  | logout =>
    refine require_of refuses_unchanged fun user _ => ?_
    refine withRefreshToken_of refuses_unchanged fun token _ => ?_
    exact refuses_respond 204 (by decide) (fun _ => rfl) (logout_clean user token _)
  | updateDisplayName =>
    refine require_of refuses_unchanged fun user _ => withBody_of refuses_unchanged fun req _ => ?_
    exact refuses_respond 204 (by decide) (fun _ => rfl) (setDisplayName_clean user _)
  | deleteAccount =>
    refine require_of refuses_unchanged fun user _ => ?_
    exact refuses_respond 204 (by decide) (fun _ => rfl) (delete_clean user)

theorem codes_refuse {e : Endpoint} (hcodes : Endpoint.codes e = true) :
    Refuses UndoneButCodes w (e.serve h i w) := by
  have hstay : ∀ answer, Refuses UndoneButCodes w (answer, w) :=
    fun answer => (refuses_unchanged answer).butCodes
  cases e with
  | requestOTP =>
    refine withBody_of hstay fun req _ => ?_
    exact refuses_respond 202 (by decide) (fun _ => rfl) (requestOTP_clean req.phone)
  | verifyOTP =>
    refine require_of hstay fun d _ => withBody_of hstay fun req _ => ?_
    exact refuses_respond 200 (by decide) (fun _ => rfl)
      (verifyOTP_clean req.phone req.code d.deviceId)
  | _ => cases hcodes

/-- The second account asks to rename the cat of the first one. -/
def rename : Incoming where
  request := {
    method := .patch
    path := ["v1", "cats", "5"]
    authorization := ["Bearer sssae"]
    body := "\x7b\"name\":\"Mine\"\x7d".toList }
  env := Backend.plainEnv 6

end Requests

end Tekir.Refusals
