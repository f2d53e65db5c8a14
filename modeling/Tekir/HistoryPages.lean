import Mathlib.Data.Prod.Lex
import Tekir.ContentWrites
import Tekir.DiscoverPages

/-!
# Histories, page by page

Following the cursors of `ListCatUpdates` and of `ListMyNotifications` while entries come and
go. The position of an update is its moment and its sequence number, the position of an inbox
row its moment and its identifier; both lists start with the newest.
-/
namespace Tekir.HistoryPages
open OrderDual Table Schema Statements AccountQueries CatQueries UpdateQueries NotificationQueries
  CatServices ReadServices ContentWrites Cursors Keyset

section Inbox

/-- An entry of `Notification` as it is returned. -/
structure InboxEntry where
  id : UUID
  catId : UUID
  updateId : UUID
  read : Bool
  createdAt : Instant
  deriving DecidableEq

structure NotificationsPage where
  items : List InboxEntry
  nextCursor : Option String

def toInboxEntry (r : NotificationRow) : InboxEntry :=
  { id := r.id, catId := r.catId, updateId := r.updateId, read := r.readAt.isSome
    createdAt := r.createdAt }

def defaultNotificationsLimit : ℕ := 20

def maxNotificationsLimit : ℕ := 50

def notificationsPage (texts : Texts) (limit : ℕ) (rows : List NotificationRow) :
    NotificationsPage :=
  if limit < rows.length then
    { items := (rows.take limit).map toInboxEntry
      nextCursor := (rows.take limit).getLast?.map fun r =>
        encodeNotificationsCursor texts (r.createdAt, r.id) }
  else { items := rows.map toInboxEntry, nextCursor := none }

def listMyNotifications (texts : Texts) (userId : UUID) (cursor : Option String) (limit : ℤ)
    (db : Database) : Except Error NotificationsPage := do
  let limit ← pageLimit defaultNotificationsLimit maxNotificationsLimit limit
  let before ← decodeCursor (notificationsCursor texts) cursor
  return notificationsPage texts limit
    (NotificationQueries.listMyNotifications userId (before.map fun b => ⟨b.1, b.2⟩) (limit + 1) db)

end Inbox

section Logs

/-- A database, and every update and every inbox row there has been until now: an identifier
and a position are never used twice. The clock and the sequence stay within 64 bits. -/
structure Log where
  db : Database
  updates : Ledger UUID (Instant × ℕ)
  notifications : Ledger UUID (Instant × UUID)
  updates_logged : ∀ u ∈ db.tables.updates, (u.id, u.createdAt, u.seq) ∈ updates.entries
  notifications_logged : ∀ n ∈ db.tables.notifications,
    (n.id, n.createdAt, n.id) ∈ notifications.entries
  updates_stamped : ∀ e ∈ updates.entries, Representable e.2.1 ∧ inInt64 e.2.2
  notifications_stamped : ∀ e ∈ notifications.entries, Representable e.2.1

/-- Between two requests anything may come, go or change; what was logged stays logged. -/
structure Log.Later (l l' : Log) : Prop where
  updates : l.updates.entries <+: l'.updates.entries
  notifications : l.notifications.entries <+: l'.notifications.entries

/-- Every sequence number in use has been drawn. -/
def Log.Supplied (l : Log) : Prop :=
  ∀ e ∈ l.updates.entries, e.2.2 < l.db.tables.updatesSeq

/-- What a statement inserts has a new identifier and a moment within 64 bits. -/
def Fresh (l : Log) : Write → Prop
  | .update arg => arg.id ∉ l.updates.entries.map Prod.fst ∧ Representable arg.createdAt ∧
      inInt64 l.db.tables.updatesSeq
  | .reassigned _ => False
  | .notification row => (∀ e ∈ l.notifications.entries, e.1 ≠ row.id ∧ e.2.2 ≠ row.id) ∧
      Representable row.createdAt
  | _ => True

theorem mem_notifications_apply {w : Write} {t : Tables} {n' : Notification}
    (h : n' ∈ (w.apply t).notifications) :
    w = .notification n' ∨ ∃ n ∈ t.notifications, n.id = n'.id ∧ n.createdAt = n'.createdAt := by
  cases w with
  | notification row =>
    rcases List.mem_append.mp h with h | h
    · exact .inr ⟨n', h, rfl, rfl⟩
    · exact .inl (by rw [List.mem_singleton.mp h])
  | read ids at' =>
    obtain ⟨n, hn, rfl⟩ := mem_updateWhere.mp h
    refine .inr ⟨n, hn, ?_⟩
    split <;> exact ⟨rfl, rfl⟩
  | purged rows at' => exact .inr ⟨n', (mem_deleteWhere.mp h).1, rfl, rfl⟩
  | _ => exact .inr ⟨n', h, rfl, rfl⟩

theorem updatesSeq_le_apply (w : Write) (t : Tables) : t.updatesSeq ≤ (w.apply t).updatesSeq := by
  cases w with
  | update arg | reassigned arg => exact Nat.le_succ _
  | _ => exact le_rfl

/-- Each statement of the services leads to a later log. -/
theorem exists_later {l : Log} (hl : l.Supplied) {w : Write} (hw : Fresh l w) {db' : Database}
    (hdb : db'.tables = w.apply l.db.tables) : ∃ l' : Log, l'.db = db' ∧ l.Later l' ∧ l'.Supplied := by
  have hkept : ∀ u ∈ db'.tables.updates, (∃ arg, w = .update arg ∧ u = arg.insert l.db.tables.updatesSeq) ∨
      (u.id, u.createdAt, u.seq) ∈ l.updates.entries := by
    intro u hu
    rw [hdb] at hu
    rcases mem_updates_apply hu with hnew | ⟨arg, rfl, -⟩ | ⟨u', hu', heq⟩
    · exact .inl hnew
    · exact hw.elim
    · rw [heq]
      exact .inr (l.updates_logged u' hu')
  have hrows : ∀ n ∈ db'.tables.notifications, w = .notification n ∨
      (n.id, n.createdAt, n.id) ∈ l.notifications.entries := by
    intro n hn
    rw [hdb] at hn
    rcases mem_notifications_apply hn with hnew | ⟨n', hn', hid, htime⟩
    · exact .inl hnew
    · exact .inr (hid ▸ htime ▸ l.notifications_logged n' hn')
  have hseq : l.db.tables.updatesSeq ≤ db'.tables.updatesSeq := by
    rw [hdb]
    exact updatesSeq_le_apply w _
  have hold : ∀ e ∈ l.updates.entries, e.2.2 < db'.tables.updatesSeq := fun e he =>
    (hl e he).trans_le hseq
  by_cases hupdate : ∃ arg, w = .update arg
  · obtain ⟨arg, rfl⟩ := hupdate
    obtain ⟨hname, htime, hint⟩ := hw
    have hposition : (arg.createdAt, l.db.tables.updatesSeq) ∉ l.updates.entries.map Prod.snd := by
      intro hmem
      obtain ⟨e, he, heq⟩ := List.mem_map.mp hmem
      exact absurd (hl e he) (by simp [heq])
    let updates := l.updates.add (arg.id, arg.createdAt, l.db.tables.updatesSeq) hname hposition
    refine ⟨{ l with
        db := db', updates := updates
        updates_logged := fun u hu => ?_
        notifications_logged := fun n hn => (hrows n hn).resolve_left (by simp)
        updates_stamped := fun e he => ?_ }, rfl,
      ⟨List.prefix_append _ _, List.prefix_rfl⟩, fun e he => ?_⟩
    · rcases hkept u hu with ⟨arg', heq, rfl⟩ | hu
      · cases heq
        exact List.mem_append_right _ (List.mem_singleton_self _)
      · exact List.mem_append_left _ hu
    · rcases List.mem_append.mp he with he | he
      · exact l.updates_stamped e he
      · rw [List.mem_singleton.mp he]
        exact ⟨htime, hint⟩
    · rcases List.mem_append.mp he with he | he
      · exact hold e he
      · rw [List.mem_singleton.mp he, hdb]
        exact Nat.lt_succ_self _
  · have hlogged : ∀ u ∈ db'.tables.updates, (u.id, u.createdAt, u.seq) ∈ l.updates.entries :=
      fun u hu => (hkept u hu).resolve_left fun ⟨arg, heq, _⟩ => hupdate ⟨arg, heq⟩
    by_cases hrow : ∃ row, w = .notification row
    · obtain ⟨row, rfl⟩ := hrow
      obtain ⟨hname, htime⟩ := hw
      let notifications := l.notifications.add (row.id, row.createdAt, row.id)
        (fun hmem => by
          obtain ⟨e, he, heq⟩ := List.mem_map.mp hmem
          exact (hname e he).1 heq)
        (fun hmem => by
          obtain ⟨e, he, heq⟩ := List.mem_map.mp hmem
          exact (hname e he).2 (congrArg Prod.snd heq))
      refine ⟨{ l with
          db := db', notifications := notifications, updates_logged := hlogged
          notifications_logged := fun n hn => ?_
          notifications_stamped := fun e he => ?_ }, rfl,
        ⟨List.prefix_rfl, List.prefix_append _ _⟩, hold⟩
      · rcases hrows n hn with heq | hn
        · cases heq
          exact List.mem_append_right _ (List.mem_singleton_self _)
        · exact List.mem_append_left _ hn
      · rcases List.mem_append.mp he with he | he
        · exact l.notifications_stamped e he
        · rw [List.mem_singleton.mp he]
          exact htime
    · exact ⟨{ l with
          db := db', updates_logged := hlogged
          notifications_logged := fun n hn =>
            (hrows n hn).resolve_left fun heq => hrow ⟨n, heq⟩ }, rfl,
        ⟨List.prefix_rfl, List.prefix_rfl⟩, hold⟩

end Logs

section Requests

/-- One request: the database it finds, the service's clock, and the page size. -/
structure Request where
  log : Log
  clock : Instant
  limit : ℤ

variable {π μ : Type} [LinearOrder μ]

/-- What following the cursors of a list from the first page on returns. -/
structure NewestFirst (pager : Pager Request String π) (ids : π → List UUID)
    (decode : String → Option μ) (live : Request → UUID → Prop) (position : UUID → μ)
    (ss : List Request) (ps : List π) : Prop where
  sound : ∀ id ∈ ps.flatMap ids, ∃ s ∈ ss, live s id
  descending : (ps.flatMap ids).Pairwise fun a b => position b < position a
  nodup : (ps.flatMap ids).Nodup
  /-- An entry that is live at every request is returned once if there is no further page. -/
  complete : (∀ p ∈ ps.getLast?, pager.next p = none) → ∀ id, (∀ s ∈ ss, live s id) →
    (ps.flatMap ids).count id = 1
  /-- There is no further page once no live entry is older than all that was returned. -/
  ends : ∀ s ∈ ss.getLast?, ∀ p ∈ ps.getLast?, (pager.next p = none ↔
    ∀ id, live s id → ∃ a ∈ ps.flatMap ids, position a ≤ position id)
  cursors : ∀ p ∈ ps, ∀ text ∈ pager.next p, ∃ id, (ids p).getLast? = some id ∧
    decode text = some (position id)

theorem NewestFirst.congr {pager : Pager Request String π} {ids : π → List UUID}
    {decode : String → Option μ} {live live' : Request → UUID → Prop} {position : UUID → μ}
    {ss : List Request} {ps : List π} (h : NewestFirst pager ids decode live position ss ps)
    (hlive : ∀ s id, live s id ↔ live' s id) :
    NewestFirst pager ids decode live' position ss ps := by
  obtain rfl : live = live' := funext fun s => funext fun id => propext (hlive s id)
  exact h

/-- A list in descending order of positions. -/
def newestPaging (pager : Pager Request String π) (ids : π → List UUID) (encode : μ → String)
    (decode : String → Option μ) (rows : Request → List UUID) (position : UUID → μ) :
    Paging Request String π UUID μᵒᵈ where
  toPager := pager
  items := ids
  rows := rows
  limit s := s.limit.toNat
  key id := toDual (position id)
  encode k := encode (ofDual k)
  decode text := (decode text).map toDual

variable {pager : Pager Request String π} {ids : π → List UUID} {encode : μ → String}
  {decode : String → Option μ} {rows : Request → List UUID} {position : UUID → μ}

/-- The page of rows in descending order of positions, from a position on. -/
def newestPage {ρ : Type} (key : ρ → μ) (rows : List ρ) (before : Option μ) (limit : ℕ) :
    Page ρ μᵒᵈ :=
  page (fun r => toDual (key r)) rows (before.map toDual) limit

theorem newest_pages {ρ : Type} {s : Request} (hlimit : 1 ≤ s.limit) {rs : List ρ} {name : ρ → UUID}
    {key : ρ → μ} (hrows : rows s = rs.map name) (hkey : ∀ r ∈ rs, position (name r) = key r)
    (hkeyed : rs.Pairwise fun a b => key a ≠ key b)
    (hrestores : ∀ r ∈ rs, decode (encode (key r)) = some (key r))
    (hget : ∀ before : Option μ, (∀ k ∈ before, decode (encode k) = some k) →
      ∃ p, pager.get s (before.map encode) = some p ∧
        pager.next p =
          (newestPage key rs before s.limit.toNat).next.map (fun k => encode (ofDual k)) ∧
        ids p = (newestPage key rs before s.limit.toNat).items.map name) :
    (newestPaging pager ids encode decode rows position).Pages s where
  limit := by
    simp only [newestPaging]
    omega
  keyed := by
    simp only [Keyed, newestPaging, hrows, List.pairwise_map]
    refine hkeyed.imp_of_mem fun {a b} ha hb hab heq => hab ?_
    rw [← hkey a ha, ← hkey b hb]
    exact toDual.injective heq
  restores id hid := by
    simp only [newestPaging, hrows] at hid ⊢
    obtain ⟨r, hr, rfl⟩ := List.mem_map.mp hid
    rw [hkey r hr, ofDual_toDual, hrestores r hr]
    rfl
  get cursor hcursor := by
    have hbefore : ∀ k ∈ cursor.map ofDual, decode (encode k) = some k := by
      intro k hk
      obtain ⟨d, hd, rfl⟩ := Option.mem_map.mp hk
      obtain ⟨c, hc, hck⟩ := Option.map_eq_some_iff.mp (hcursor d hd)
      exact hc.trans (congrArg some (toDual.injective hck))
    obtain ⟨p, hp, hnext, hids⟩ := hget (cursor.map ofDual) hbefore
    have hcursor : (cursor.map ofDual).map toDual = cursor := by
      cases cursor <;> rfl
    have hpage := page_map rs cursor s.limit.toNat name (fun id => toDual (position id))
      (fun r => toDual (key r)) fun r hr => congrArg toDual (hkey r hr)
    rw [newestPage, hcursor] at hnext hids
    rw [Option.map_map] at hp
    refine ⟨p, hp, ?_, ?_⟩
    · simp only [newestPaging, hrows, hpage]
      exact hnext
    · simp only [newestPaging, hrows, hpage]
      exact hids

theorem newestFirst_of_follows {ss : List Request} {ps : List π}
    (h : Follows pager none ss ps)
    (hpages : ∀ s ∈ ss, (newestPaging pager ids encode decode rows position).Pages s) :
    NewestFirst pager ids decode (fun s id => id ∈ rows s) position ss ps := by
  have ht : Traversed (newestPaging pager ids encode decode rows position) ss ps :=
    h.traversed hpages
  refine ⟨fun id hid => ht.exists_row hpages hid, ht.ascending, ht.nodup, fun hend id hid => ?_, ht.ends,
    fun p hp text htext => ?_⟩
  · exact List.count_eq_one_of_mem ht.nodup (ht.complete hend id hid)
  · obtain ⟨id, hid, hdecode⟩ := ht.cursors p hp text htext
    obtain ⟨k, hk, hkey⟩ := Option.map_eq_some_iff.mp hdecode
    exact ⟨id, hid, hk.trans (congrArg some (toDual.injective hkey))⟩

theorem pageLimit_eq (default max : ℕ) {limit : ℤ} (hlow : 1 ≤ limit) (hhigh : limit ≤ max) :
    pageLimit default max limit = .ok limit.toNat := by
  unfold pageLimit
  rw [if_neg (by omega : ¬ limit = 0)]
  rw [if_neg (by omega)]

end Requests

section Updates

variable (texts : Texts) (geo : ReadQueries.Geometry) (catId : UUID) (viewer : Option UUID)

/-- `ListCatUpdates` for one page. -/
def updatesPager : Pager Request String UpdatesPage where
  get s cursor := (ReadServices.listCatUpdates (reading texts geo) s.clock catId cursor s.limit viewer
    s.log.db).toOption
  next := UpdatesPage.nextCursor

def updateIds (p : UpdatesPage) : List UUID :=
  p.items.map CatUpdate.id

/-- The history of the cat shows the update. -/
def LiveUpdate (s : Request) (id : UUID) : Prop :=
  ∃ u ∈ s.log.db.tables.updates, u.id = id ∧ u.catId = catId ∧ u.deletedAt = none

abbrev UpdatePosition := Instant ×ₗ ℕ

def updatePosition (u : Update) : UpdatePosition :=
  toLex (u.createdAt, u.seq)

def liveUpdates (db : Database) : List Update :=
  db.tables.updates.filter fun u => u.catId == catId && u.deletedAt.isNone

theorem orderBy_newestFirst (us : List Update) :
    orderBy newestFirst us = ordered (fun u => toDual (updatePosition u)) us := by
  unfold orderBy ordered
  congr 1
  funext a b
  refine propext ?_
  rw [toDual_le_toDual]
  simp only [newestFirst, updatePosition, Prod.Lex.toLex_le_toLex, Bool.or_eq_true,
    Bool.and_eq_true, decide_eq_true_eq, beq_iff_eq]
  rw [@eq_comm _ a.createdAt]

theorem updates_eq_fetch (db : Database) (before : Option UpdatePosition) (n : ℕ) :
    ReadQueries.listCatUpdates catId (before.map ofLex) n db =
      (fetch (fun u => toDual (updatePosition u)) (before.map toDual) n (liveUpdates catId db)).map
        (ReadQueries.updateRow db) := by
  have hafter : ∀ u, isAfter (fun u => toDual (updatePosition u)) (before.map toDual) u =
      ReadQueries.beforeCursor (before.map ofLex) u := by
    intro u
    cases before with
    | none => rfl
    | some k =>
      have hlt : updatePosition u < k ↔
          u.createdAt < (ofLex k).1 ∨ u.createdAt = (ofLex k).1 ∧ u.seq < (ofLex k).2 :=
        Prod.Lex.lt_iff
      rw [Bool.eq_iff_iff]
      simp only [isAfter, ReadQueries.beforeCursor, Option.map_some, Option.all_some,
        Bool.or_eq_true, Bool.and_eq_true, decide_eq_true_eq, beq_iff_eq, toDual_lt_toDual, hlt]
  unfold ReadQueries.listCatUpdates fetch liveUpdates
  rw [orderBy_newestFirst, List.filter_filter]
  congr 3
  refine List.filter_congr fun u _ => ?_
  rw [hafter, Bool.and_comm]

theorem updatesPage_eq (clock : Instant) (limit : ℕ) (db : Database) (us : List Update) :
    (updatesPage (reading texts geo) clock viewer limit
        (us.map (ReadQueries.updateRow db))).nextCursor =
        ((cut (fun u => toDual (updatePosition u)) limit us).next).map
          (fun k => encodeUpdatesCursor (ofLex (ofDual k))) ∧
      updateIds (updatesPage (reading texts geo) clock viewer limit
        (us.map (ReadQueries.updateRow db))) =
        (cut (fun u => toDual (updatePosition u)) limit us).items.map Update.id := by
  unfold updatesPage cut updateIds
  rw [List.length_map]
  split
  · simp [← List.map_take, Option.map_map, reading, updatesCursor, updatePosition,
      ReadQueries.updateRow, toCatUpdate, Function.comp_def]
  · simp [ReadQueries.updateRow, toCatUpdate, Function.comp_def]

variable {texts geo catId viewer}

theorem catExists_of_answered {s : Request}
    (h : ∃ text p, (updatesPager texts geo catId viewer).get s text = some p) :
    catExists catId viewer s.log.db = true := by
  obtain ⟨text, p, hget⟩ := h
  by_contra hcat
  simp only [updatesPager, ReadServices.listCatUpdates, hcat, if_false] at hget
  cases hl : pageLimit defaultUpdatesLimit maxUpdatesLimit s.limit with
  | error e => simp [hl, Except.toOption, bind, Except.bind] at hget
  | ok limit =>
    cases hd : decodeCursor (reading texts geo).updatesCursor text with
    | error e => simp [hl, hd, Except.toOption, bind, Except.bind] at hget
    | ok before => simp [hl, hd, Except.toOption, bind, Except.bind] at hget

theorem updates_get {s : Request} (hlow : 1 ≤ s.limit) (hhigh : s.limit ≤ 50)
    (hcat : catExists catId viewer s.log.db = true) {before : Option UpdatePosition}
    (hbefore : ∀ k ∈ before, (decodeUpdatesCursor (encodeUpdatesCursor (ofLex k))).map toLex =
      some k) :
    ∃ p, (updatesPager texts geo catId viewer).get s
        (before.map fun k => encodeUpdatesCursor (ofLex k)) = some p ∧
      p.nextCursor =
        (newestPage updatePosition (liveUpdates catId s.log.db) before s.limit.toNat).next.map
          (fun k => encodeUpdatesCursor (ofLex (ofDual k))) ∧
      updateIds p =
        (newestPage updatePosition (liveUpdates catId s.log.db) before s.limit.toNat).items.map
          Update.id := by
  have hlimit := pageLimit_eq defaultUpdatesLimit maxUpdatesLimit hlow hhigh
  have hdecode : decodeCursor (reading texts geo).updatesCursor
      (before.map fun k => encodeUpdatesCursor (ofLex k)) = .ok (before.map ofLex) := by
    cases before with
    | none => rfl
    | some k =>
      obtain ⟨c, hc, hk⟩ := Option.map_eq_some_iff.mp (hbefore k rfl)
      have hc : decodeUpdatesCursor (encodeUpdatesCursor (ofLex k)) = some (ofLex k) :=
        hc.trans (congrArg some (congrArg ofLex hk))
      simp only [Option.map_some, decodeCursor, reading, updatesCursor, hc]
  obtain ⟨hnext, hids⟩ := updatesPage_eq texts geo viewer s.clock s.limit.toNat s.log.db
    (fetch (fun u => toDual (updatePosition u)) (before.map toDual) (s.limit.toNat + 1)
      (liveUpdates catId s.log.db))
  refine ⟨_, ?_, hnext, hids⟩
  rw [← updates_eq_fetch]
  simp [updatesPager, ReadServices.listCatUpdates, hlimit, hdecode, hcat, Except.toOption, bind,
    Except.bind, pure, Except.pure]

theorem mem_liveUpdates_ids {s : Request} {id : UUID} :
    id ∈ (liveUpdates catId s.log.db).map Update.id ↔ LiveUpdate catId s id := by
  constructor
  · intro hid
    obtain ⟨u, hu, rfl⟩ := List.mem_map.mp hid
    obtain ⟨hu, hlive⟩ := List.mem_filter.mp hu
    simp only [Bool.and_eq_true, beq_iff_eq, Option.isNone_iff_eq_none] at hlive
    exact ⟨u, hu, rfl, hlive⟩
  · rintro ⟨u, hu, rfl, hcat, hdeleted⟩
    exact List.mem_map_of_mem (List.mem_filter.mpr ⟨hu, by simp [hcat, hdeleted]⟩)

variable (texts geo catId viewer) in
theorem updates_pages {s : Request} (hlow : 1 ≤ s.limit) (hhigh : s.limit ≤ 50)
    (hanswered : ∃ text p, (updatesPager texts geo catId viewer).get s text = some p)
    {position : UUID → UpdatePosition}
    (hposition : ∀ u ∈ s.log.db.tables.updates, position u.id = updatePosition u) :
    (newestPaging (updatesPager texts geo catId viewer) updateIds
      (fun k => encodeUpdatesCursor (ofLex k)) (fun text => (decodeUpdatesCursor text).map toLex)
      (fun s => (liveUpdates catId s.log.db).map Update.id) position).Pages s := by
  have hmem : ∀ u ∈ liveUpdates catId s.log.db, u ∈ s.log.db.tables.updates := fun u hu =>
    (List.mem_filter.mp hu).1
  refine newest_pages hlow rfl (fun u hu => hposition u (hmem u hu)) ?_ (fun u hu => ?_)
    fun before hbefore => updates_get hlow hhigh (catExists_of_answered hanswered) hbefore
  · have hids := (s.log.db.valid.holds .updatesPkey).filter fun u =>
      u.catId == catId && u.deletedAt.isNone
    refine hids.imp_of_mem fun {a b} ha hb hab heq => ?_
    -- rows at one position are the same entry of the log
    have hname := s.log.updates.name_eq (s.log.updates_logged a (hmem a ha))
      (s.log.updates_logged b (hmem b hb)) (congrArg ofLex heq)
    rcases hab with hnone | hne
    · cases hnone
    · exact hne (congrArg some hname)
  · obtain ⟨htime, hseq⟩ := s.log.updates_stamped _ (s.log.updates_logged u (hmem u hu))
    have hrestores := updatesCursor_restores (c := (u.createdAt, u.seq)) htime hseq
    simp only [Codec.Restores, updatesCursor] at hrestores
    simp [updatePosition, hrestores]

end Updates

section Inbox

variable (texts : Texts) (userId : UUID)

/-- `ListMyNotifications` for one page. -/
def inboxPager : Pager Request String NotificationsPage where
  get s cursor := (listMyNotifications texts userId cursor s.limit s.log.db).toOption
  next := NotificationsPage.nextCursor

def entryIds (p : NotificationsPage) : List UUID :=
  p.items.map InboxEntry.id

/-- The row is stored for a device that is linked to the account. -/
def InInbox (s : Request) (id : UUID) : Prop :=
  ∃ n ∈ s.log.db.tables.notifications, n.id = id ∧
    ∃ d ∈ s.log.db.tables.devices, d.id = n.deviceId ∧ d.userId = some userId

abbrev InboxPosition := Instant ×ₗ UUID

def inboxPosition (r : NotificationRow) : InboxPosition :=
  toLex (r.createdAt, r.id)

def myRows (db : Database) : List NotificationRow :=
  (db.tables.notifications.filter fun n =>
    db.tables.devices.any fun d => d.id == n.deviceId && d.userId == some userId).map fun n =>
    { id := n.id, catId := n.catId, updateId := n.updateId, readAt := n.readAt
      createdAt := n.createdAt }

theorem orderBy_newestNotificationFirst (rs : List NotificationRow) :
    orderBy newestNotificationFirst rs = ordered (fun r => toDual (inboxPosition r)) rs := by
  unfold orderBy ordered
  congr 1
  funext a b
  refine propext ?_
  rw [toDual_le_toDual]
  simp only [newestNotificationFirst, inboxPosition, Prod.Lex.toLex_le_toLex, Bool.or_eq_true,
    Bool.and_eq_true, decide_eq_true_eq, beq_iff_eq]
  rw [@eq_comm _ a.createdAt]

theorem inbox_eq_fetch (db : Database) (before : Option InboxPosition) (n : ℕ) :
    NotificationQueries.listMyNotifications userId
        ((before.map ofLex).map fun b => ⟨b.1, b.2⟩) n db =
      fetch (fun r => toDual (inboxPosition r)) (before.map toDual) n (myRows userId db) := by
  have hafter : ∀ r, isAfter (fun r => toDual (inboxPosition r)) (before.map toDual) r =
      NotificationQueries.beforeCursor ((before.map ofLex).map fun b => ⟨b.1, b.2⟩) r := by
    intro r
    cases before with
    | none => rfl
    | some k =>
      have hlt : inboxPosition r < k ↔
          r.createdAt < (ofLex k).1 ∨ r.createdAt = (ofLex k).1 ∧ r.id < (ofLex k).2 :=
        Prod.Lex.lt_iff
      rw [Bool.eq_iff_iff]
      simp only [isAfter, NotificationQueries.beforeCursor, Option.map_some, Option.all_some,
        Bool.or_eq_true, Bool.and_eq_true, decide_eq_true_eq, beq_iff_eq, toDual_lt_toDual, hlt]
  have hfilter : (myRows userId db).filter
        (NotificationQueries.beforeCursor ((before.map ofLex).map fun b => ⟨b.1, b.2⟩)) =
      (myRows userId db).filter
        (isAfter (fun r => toDual (inboxPosition r)) (before.map toDual)) :=
    List.filter_congr fun r _ => (hafter r).symm
  rw [fetch, ← hfilter, ← orderBy_newestNotificationFirst]
  rfl

theorem notificationsPage_eq (limit : ℕ) (rs : List NotificationRow) :
    (notificationsPage texts limit rs).nextCursor =
        ((cut (fun r => toDual (inboxPosition r)) limit rs).next).map
          (fun k => encodeNotificationsCursor texts (ofLex (ofDual k))) ∧
      entryIds (notificationsPage texts limit rs) =
        (cut (fun r => toDual (inboxPosition r)) limit rs).items.map NotificationRow.id := by
  unfold notificationsPage cut entryIds
  split
  · simp [Option.map_map, inboxPosition, toInboxEntry, Function.comp_def]
  · simp [toInboxEntry, Function.comp_def]

variable {texts userId}

theorem inbox_get {s : Request} (hlow : 1 ≤ s.limit) (hhigh : s.limit ≤ 50)
    {before : Option InboxPosition}
    (hbefore : ∀ k ∈ before,
      (decodeNotificationsCursor texts (encodeNotificationsCursor texts (ofLex k))).map toLex =
        some k) :
    ∃ p, (inboxPager texts userId).get s
        (before.map fun k => encodeNotificationsCursor texts (ofLex k)) = some p ∧
      p.nextCursor =
        (newestPage inboxPosition (myRows userId s.log.db) before s.limit.toNat).next.map
          (fun k => encodeNotificationsCursor texts (ofLex (ofDual k))) ∧
      entryIds p =
        (newestPage inboxPosition (myRows userId s.log.db) before s.limit.toNat).items.map
          NotificationRow.id := by
  have hlimit := pageLimit_eq defaultNotificationsLimit maxNotificationsLimit hlow hhigh
  have hdecode : decodeCursor (notificationsCursor texts)
      (before.map fun k => encodeNotificationsCursor texts (ofLex k)) = .ok (before.map ofLex) := by
    cases before with
    | none => rfl
    | some k =>
      obtain ⟨c, hc, hk⟩ := Option.map_eq_some_iff.mp (hbefore k rfl)
      have hc : decodeNotificationsCursor texts (encodeNotificationsCursor texts (ofLex k)) =
          some (ofLex k) := hc.trans (congrArg some (congrArg ofLex hk))
      simp only [Option.map_some, decodeCursor, notificationsCursor, hc]
  obtain ⟨hnext, hids⟩ := notificationsPage_eq texts s.limit.toNat
    (fetch (fun r => toDual (inboxPosition r)) (before.map toDual) (s.limit.toNat + 1)
      (myRows userId s.log.db))
  refine ⟨_, ?_, hnext, hids⟩
  rw [← inbox_eq_fetch]
  simp [inboxPager, listMyNotifications, hlimit, hdecode, Except.toOption, bind, Except.bind, pure,
    Except.pure]

theorem mem_myRows {s : Request} {r : NotificationRow} (hr : r ∈ myRows userId s.log.db) :
    ∃ n ∈ s.log.db.tables.notifications, n.id = r.id ∧ n.createdAt = r.createdAt ∧
      ∃ d ∈ s.log.db.tables.devices, d.id = n.deviceId ∧ d.userId = some userId := by
  obtain ⟨n, hn, rfl⟩ := List.mem_map.mp hr
  obtain ⟨hn, hlink⟩ := List.mem_filter.mp hn
  obtain ⟨d, hd, hlink⟩ := List.any_eq_true.mp hlink
  simp only [Bool.and_eq_true, beq_iff_eq] at hlink
  exact ⟨n, hn, rfl, rfl, d, hd, hlink⟩

theorem mem_myRows_ids {s : Request} {id : UUID} :
    id ∈ (myRows userId s.log.db).map NotificationRow.id ↔ InInbox userId s id := by
  constructor
  · intro hid
    obtain ⟨r, hr, rfl⟩ := List.mem_map.mp hid
    obtain ⟨n, hn, hid, -, hlink⟩ := mem_myRows hr
    exact ⟨n, hn, hid, hlink⟩
  · rintro ⟨n, hn, rfl, d, hd, hdevice, huser⟩
    refine List.mem_map.mpr ⟨_, List.mem_map_of_mem (List.mem_filter.mpr ⟨hn, ?_⟩), rfl⟩
    exact List.any_eq_true.mpr ⟨d, hd, by simp [hdevice, huser]⟩

variable (texts userId) in
theorem inbox_pages {s : Request} (hlow : 1 ≤ s.limit) (hhigh : s.limit ≤ 50)
    {position : UUID → InboxPosition}
    (hposition : ∀ n ∈ s.log.db.tables.notifications, position n.id = toLex (n.createdAt, n.id)) :
    (newestPaging (inboxPager texts userId) entryIds
      (fun k => encodeNotificationsCursor texts (ofLex k))
      (fun text => (decodeNotificationsCursor texts text).map toLex)
      (fun s => (myRows userId s.log.db).map NotificationRow.id) position).Pages s := by
  refine newest_pages hlow rfl (fun r hr => ?_) ?_ (fun r hr => ?_)
    fun before hbefore => inbox_get hlow hhigh hbefore
  · obtain ⟨n, hn, hid, htime, -⟩ := mem_myRows hr
    rw [inboxPosition, ← hid, ← htime]
    exact hposition n hn
  · refine List.pairwise_map.mpr ((s.log.db.valid.holds .notificationsPkey).filter _ |>.imp ?_)
    intro a b hab heq
    have hid : a.id = b.id := congrArg (fun k : InboxPosition => (ofLex k).2) heq
    simp [hid] at hab
  · obtain ⟨n, hn, hid, htime, -⟩ := mem_myRows hr
    have hstamp : Representable r.createdAt :=
      htime ▸ s.log.notifications_stamped _ (s.log.notifications_logged n hn)
    have hrestores := notificationsCursor_restores texts (c := (r.createdAt, r.id)) hstamp
    simp only [Codec.Restores, notificationsCursor] at hrestores
    simp [inboxPosition, hrestores]

end Inbox

section Traversals

/-- All that was logged by a sequence of requests. -/
theorem exists_last {ss : List Request} (h : ss.Pairwise fun s s' => s.log.Later s'.log)
    (hne : ss ≠ []) : ∃ l : Log, ∀ s ∈ ss, s.log.Later l := by
  induction ss with
  | nil => exact absurd rfl hne
  | cons s ss ih =>
    obtain ⟨hs, hss⟩ := List.pairwise_cons.mp h
    cases ss with
    | nil => exact ⟨s.log, by simpa using ⟨List.prefix_rfl, List.prefix_rfl⟩⟩
    | cons s' ss =>
      obtain ⟨l, hl⟩ := ih hss (by simp)
      refine ⟨l, fun t ht => ?_⟩
      rcases List.mem_cons.mp ht with rfl | ht
      · have hfirst := hs s' List.mem_cons_self
        have hrest := hl s' List.mem_cons_self
        exact ⟨hfirst.updates.trans hrest.updates, hfirst.notifications.trans hrest.notifications⟩
      · exact hl t ht

/-- Two updates of one moment and a later one. -/
def diary : Ledger UUID (Instant × ℕ) :=
  ⟨[(1, 5, 1), (2, 5, 2), (3, 7, 3)], by decide, by decide⟩

def entry (n : ℕ) (at' : Instant) (deletedAt : Option Instant) : Update :=
  { id := n, catId := 1, createdAt := at', seq := n, deletedAt }

def logOf (us : List Update)
    (hvalid : Schema.Valid { cats := [{ id := 1, name := none, area := ⟨41, 29⟩, createdAt := 0 }],
                             updates := us } := by decide)
    (hlogged : ∀ u ∈ us, (u.id, u.createdAt, u.seq) ∈ diary.entries := by decide) : Log where
  db := ⟨_, hvalid⟩
  updates := diary
  notifications := ⟨[], by decide, by decide⟩
  updates_logged := hlogged
  notifications_logged _ hn := nomatch hn
  updates_stamped := by decide
  notifications_stamped _ he := nomatch he

/-- The newest update is deleted after the first page, and another one after the second. -/
def threeVisits : List Request :=
  [⟨logOf [entry 1 5 none, entry 2 5 none, entry 3 7 none], 9, 1⟩,
   ⟨logOf [entry 1 5 none, entry 2 5 none, entry 3 7 (some 10)], 10, 1⟩,
   ⟨logOf [entry 1 5 none, entry 2 5 (some 11), entry 3 7 (some 10)], 11, 50⟩]

end Traversals

end Tekir.HistoryPages
