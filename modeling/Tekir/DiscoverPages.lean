import Mathlib.Algebra.Order.Ring.Rat
import Mathlib.Data.Prod.Lex
import Tekir.Cursors
import Tekir.Keyset

/-!
# Discovery, page by page

Following the cursors of `ListDiscover` while cats come, go and change. The position of a
cat is its distance from the point, then its identifier.
-/
namespace Tekir.DiscoverPages
open Table Schema Statements AccountQueries CatQueries UpdateQueries ReadQueries CatServices
  ReadServices Cursors Keyset

/-- What is asked for, page after page. -/
structure Search where
  filter : DiscoverFilter
  point : Point
  viewer : Option UUID

/-- One request: the database it finds, the service's clock, and the page size. -/
structure Request where
  db : Database
  clock : Instant
  limit : ℤ

def filterText : DiscoverFilter → String
  | .nearby => "nearby"
  | .needsHelp => "needs_help"

variable (texts : Texts) (geo : Geometry) (search : Search)

/-- `ListDiscover` for one page. -/
def ask (s : Request) (cursor : Option String) : Option DiscoverPage :=
  (listDiscover (reading texts geo) s.clock (filterText search.filter) search.point cursor s.limit
    search.viewer s.db).toOption

abbrev Position := ℚ≥0 ×ₗ UUID

def position (r : DistanceRow) : Position :=
  toLex (r.distanceM, r.id)

/-- The cats of the filter at the time of a request. -/
def rows (s : Request) : List DistanceRow :=
  match search.filter with
  | .nearby => candidates geo search.point search.viewer s.db
  | .needsHelp => (candidates geo search.point search.viewer s.db).filter (helpActiveAt s.clock)

def pager : Pager Request String DiscoverPage where
  get := ask texts geo search
  next := DiscoverPage.nextCursor

/-- The rows are named by their positions. -/
def paging : Paging Request String DiscoverPage Position Position where
  toPager := pager texts geo search
  items p := p.items.map fun c => toLex (c.distanceMeters, c.id)
  rows s := (rows geo search s).map position
  limit s := s.limit.toNat
  key k := k
  encode k := encodeDiscoverCursor texts (ofLex k)
  decode text := (decodeDiscoverCursor texts text).map toLex

variable {texts geo search}

theorem nearestFirst_iff (a b : DistanceRow) : nearestFirst a b = true ↔ position a ≤ position b := by
  simp [nearestFirst, position, Prod.Lex.toLex_le_toLex]

theorem orderBy_nearestFirst (rs : List DistanceRow) : orderBy nearestFirst rs = ordered position rs := by
  unfold orderBy ordered
  congr 1
  funext a b
  exact propext (nearestFirst_iff a b)

theorem afterCursor_eq (after : Option Position) (r : DistanceRow) :
    afterCursor (after.map ofLex) r = isAfter position after r := by
  cases after with
  | none => rfl
  | some k =>
    have hlt : k < position r ↔
        (ofLex k).1 < r.distanceM ∨ (ofLex k).1 = r.distanceM ∧ (ofLex k).2 < r.id :=
      Prod.Lex.lt_iff
    rw [Bool.eq_iff_iff]
    simp only [afterCursor, isAfter, Option.map_some, Option.all_some, Bool.or_eq_true,
      Bool.and_eq_true, decide_eq_true_eq, beq_iff_eq, hlt]
    rw [@eq_comm _ r.distanceM]

variable (texts) in
/-- Both queries fetch the rows after the cursor in the order of their positions. -/
theorem discoverRows_eq_fetch (s : Request) (after : Option Position) (n : ℕ) :
    discoverRows (reading texts geo) search.filter search.point s.clock (after.map ofLex) n
      search.viewer s.db = fetch position after n (rows geo search s) := by
  have hafter : afterCursor (after.map ofLex) = isAfter position after :=
    funext (afterCursor_eq after)
  unfold discoverRows rows fetch
  cases search.filter with
  | nearby =>
    simp only [listCatsByDistance, hafter, orderBy_nearestFirst, reading]
  | needsHelp =>
    simp only [listActiveNeedsHelpCatsByDistance, hafter, orderBy_nearestFirst, List.filter_filter,
      reading]
    congr 2
    exact List.filter_congr fun r _ => Bool.and_comm _ _

variable (texts geo) in
theorem discoverPage_eq (now : Instant) (limit : ℕ) (rs : List DistanceRow) :
    (discoverPage (reading texts geo) now limit rs).nextCursor =
        ((cut position limit rs).next).map (fun k => encodeDiscoverCursor texts (ofLex k)) ∧
      (discoverPage (reading texts geo) now limit rs).items =
        (cut position limit rs).items.map (toDiscoverCat now) := by
  unfold discoverPage cut
  split
  · simp [Option.map_map, reading, discoverCursor, position, Function.comp_def]
  · simp

theorem nodup_positions (s : Request) : ((rows geo search s).map position).Nodup := by
  have hcandidates : (candidates geo search.point search.viewer s.db).Pairwise fun a b =>
      position a ≠ position b := by
    refine List.pairwise_map.mpr ((s.db.valid.holds .catsPkey).filter _ |>.imp ?_)
    intro a b hab heq
    have hid : a.id = b.id := congrArg (fun k : Position => (ofLex k).2) heq
    simp [hid] at hab
  refine List.pairwise_map.mpr ?_
  unfold rows
  cases search.filter with
  | nearby => exact hcandidates
  | needsHelp => exact hcandidates.filter _

/-- A page from a position on. -/
theorem ask_eq (hpoint : withinIstanbul search.point = true) {s : Request} (hlow : 1 ≤ s.limit)
    (hhigh : s.limit ≤ 50) (cursor : Option Position) :
    ask texts geo search s (cursor.map fun k => encodeDiscoverCursor texts (ofLex k)) =
      some (discoverPage (reading texts geo) s.clock s.limit.toNat
        (fetch position cursor (s.limit.toNat + 1) (rows geo search s))) := by
  have hlimit : pageLimit defaultDiscoverLimit maxDiscoverLimit s.limit = .ok s.limit.toNat := by
    unfold pageLimit defaultDiscoverLimit maxDiscoverLimit
    rw [if_neg (by omega : ¬ s.limit = 0)]
    rw [if_neg (by omega)]
  have hdecode : decodeCursor (reading texts geo).discoverCursor
      (cursor.map fun k => encodeDiscoverCursor texts (ofLex k)) = .ok (cursor.map ofLex) := by
    cases cursor with
    | none => rfl
    | some k =>
      have hrestores := discoverCursor_restores texts (ofLex k)
      simp only [Codec.Restores, discoverCursor] at hrestores
      simp only [Option.map_some, decodeCursor, reading, discoverCursor, hrestores]
  have hfilter : discoverFilter (filterText search.filter) = some search.filter := by
    cases search.filter <;> rfl
  rw [← discoverRows_eq_fetch texts]
  simp [ask, listDiscover, hfilter, hpoint, hlimit, hdecode, Except.toOption, bind, Except.bind,
    pure, Except.pure]

theorem pages (hpoint : withinIstanbul search.point = true) {s : Request} (hlow : 1 ≤ s.limit)
    (hhigh : s.limit ≤ 50) : (paging texts geo search).Pages s where
  limit := by
    simp only [paging]
    omega
  keyed := nodup_positions s
  restores k _ := by
    have hrestores := discoverCursor_restores texts (ofLex k)
    simp only [Codec.Restores, discoverCursor] at hrestores
    simp [paging, hrestores]
  get cursor _ := by
    obtain ⟨hnext, hitems⟩ := discoverPage_eq texts geo s.clock s.limit.toNat
      (fetch position cursor (s.limit.toNat + 1) (rows geo search s))
    have hpage := page_map (rows geo search s) cursor s.limit.toNat position (fun k : Position => k)
      position fun _ _ => rfl
    refine ⟨_, ask_eq hpoint hlow hhigh cursor, hnext.trans ?_, ?_⟩
    · simp only [paging, hpage]
      rfl
    · simp only [paging, hpage, hitems, List.map_map]
      rfl

/-- A page is returned for points within Istanbul only. -/
theorem withinIstanbul_of_ask {s : Request} {cursor : Option String} {p : DiscoverPage}
    (h : ask texts geo search s cursor = some p) : withinIstanbul search.point = true := by
  by_contra hpoint
  have hfilter : discoverFilter (filterText search.filter) = some search.filter := by
    cases search.filter <;> rfl
  simp [ask, listDiscover, hfilter, hpoint, Except.toOption] at h

/-- A cat of this identifier matches the filter at the time of a request. -/
def Matches (search : Search) (s : Request) (id : UUID) : Prop :=
  ∃ c ∈ s.db.tables.cats, c.id = id ∧ listed search.viewer s.db c = true ∧
    (search.filter = .needsHelp → ∃ u expiresAt, newestUpdate c.id (fun u => u.needsHelp) s.db = some u ∧
      u.needsHelpExpiresAt = some expiresAt ∧ s.clock < expiresAt)

variable (geo) in
theorem exists_row_of_matches {s : Request} {id : UUID} (h : Matches search s id) :
    ∃ r ∈ rows geo search s, r.id = id ∧ ∃ c ∈ s.db.tables.cats, c.id = id ∧
      r.distanceM = geo.distance c.area search.point := by
  obtain ⟨c, hc, rfl, hlisted, hhelp⟩ := h
  let row : DistanceRow :=
    { markerRow s.db c with distanceM := geo.distance c.area search.point }
  have hmem : row ∈ candidates geo search.point search.viewer s.db :=
    List.mem_map.mpr ⟨c, List.mem_filter.mpr ⟨hc, hlisted⟩, rfl⟩
  refine ⟨row, ?_, rfl, c, hc, rfl, rfl⟩
  unfold rows
  split
  · exact hmem
  · rename_i hfilter
    obtain ⟨u, expiresAt, hu, hexpires, hlt⟩ := hhelp hfilter
    refine List.mem_filter.mpr ⟨hmem, ?_⟩
    simp [row, helpActiveAt, markerRow, hu, hexpires, hlt]

theorem matches_of_row {s : Request} {r : DistanceRow} (hr : r ∈ rows geo search s) :
    Matches search s r.id ∧ ∃ c ∈ s.db.tables.cats, c.id = r.id ∧
      r.distanceM = geo.distance c.area search.point := by
  have hcandidate : r ∈ candidates geo search.point search.viewer s.db ∧
      (search.filter = .needsHelp → helpActiveAt s.clock r = true) := by
    unfold rows at hr
    split at hr
    · rename_i hfilter
      exact ⟨hr, fun h => by rw [hfilter] at h; cases h⟩
    · exact ⟨(List.mem_filter.mp hr).1, fun _ => (List.mem_filter.mp hr).2⟩
  obtain ⟨hmem, hhelp⟩ := hcandidate
  obtain ⟨c, hc, rfl⟩ := List.mem_map.mp hmem
  obtain ⟨hc, hlisted⟩ := List.mem_filter.mp hc
  refine ⟨⟨c, hc, rfl, hlisted, fun hfilter => ?_⟩, c, hc, rfl, rfl⟩
  have hactive := hhelp hfilter
  simp only [helpActiveAt, markerRow, Option.any_eq_true, Option.bind_eq_some_iff,
    decide_eq_true_eq] at hactive
  obtain ⟨expiresAt, ⟨u, hu, hexpires⟩, hlt⟩ := hactive
  exact ⟨u, expiresAt, hu, hexpires, hlt⟩

/-- The cats that pages return, in order. -/
def ids (pages : List DiscoverPage) : List UUID :=
  pages.flatMap fun p => p.items.map DiscoverCat.id

/-- Whatever happens to the cats between the requests, following the cursors of `ListDiscover`
returns the cats in the order of distance and identifier, no cat twice, and each cat that matches
throughout exactly once; it ends when no farther cat is left; and the cursors are the positions of
the last entries. -/
theorem discover_traversal (texts : Texts) (geo : Geometry) (search : Search) (ss : List Request)
    (hlimits : ∀ s ∈ ss, 1 ≤ s.limit ∧ s.limit ≤ 50) (distance : UUID → ℚ≥0)
    (hfixed : ∀ s ∈ ss, ∀ c ∈ s.db.tables.cats, geo.distance c.area search.point = distance c.id)
    (ps : List DiscoverPage) (h : Follows (pager texts geo search) none ss ps) :
    (ps.flatMap fun p => p.items.map fun c => toLex (c.distanceMeters, c.id)).Pairwise (· < ·) ∧
      (ids ps).Nodup ∧
      ((∀ p ∈ ps.getLast?, p.nextCursor = none) → ∀ id, (∀ s ∈ ss, Matches search s id) →
        (ids ps).count id = 1) ∧
      (∀ s ∈ ss.getLast?, ∀ p ∈ ps.getLast?, p.nextCursor = none ↔ ∀ id, Matches search s id →
        ∃ q ∈ ps, ∃ c ∈ q.items, toLex (distance id, id) ≤ toLex (c.distanceMeters, c.id)) ∧
      (∀ p ∈ ps, ∀ text ∈ p.nextCursor, ∃ last, p.items.getLast? = some last ∧
        decodeDiscoverCursor texts text = some (last.distanceMeters, last.id)) ∧
      ∀ p ∈ ps, ∀ text ∈ p.nextCursor, ∀ s : Request, 1 ≤ s.limit → s.limit ≤ 50 →
        ∃ p', ask texts geo search s (some text) = some p' := by
  have hpoint : withinIstanbul search.point = true := by
    cases h with
    | one hget => exact withinIstanbul_of_ask hget
    | more hget => exact withinIstanbul_of_ask hget
  have hpages : ∀ s ∈ ss, (paging texts geo search).Pages s := fun s hs =>
    pages hpoint (hlimits s hs).1 (hlimits s hs).2
  have ht : Traversed (paging texts geo search) ss ps := h.traversed hpages
  have hposition : ∀ s ∈ ss, ∀ r ∈ rows geo search s, position r = toLex (distance r.id, r.id) := by
    intro s hs r hr
    obtain ⟨-, c, hc, hid, hdistance⟩ := matches_of_row hr
    rw [position, hdistance, hfixed s hs c hc, hid]
  have hitem : ∀ k ∈ ps.flatMap (paging texts geo search).items,
      k = toLex (distance (ofLex k).2, (ofLex k).2) := by
    intro k hk
    obtain ⟨s, hs, hrow⟩ := ht.exists_row hpages hk
    obtain ⟨r, hr, rfl⟩ := List.mem_map.mp hrow
    exact hposition s hs r hr
  have hids : ids ps = (ps.flatMap (paging texts geo search).items).map fun k => (ofLex k).2 := by
    simp [ids, paging, List.map_flatMap, Function.comp_def]
  have hnodup : (ids ps).Nodup := by
    rw [hids]
    refine List.pairwise_map.mpr (ht.ascending.imp_of_mem fun {a b} ha hb hlt heq => ?_)
    rw [hitem a ha, hitem b hb, heq] at hlt
    exact lt_irrefl _ hlt
  refine ⟨ht.ascending, hnodup, fun hend id hid => ?_, fun s hs p hp => ?_, fun p hp text htext => ?_,
    fun p hp text htext s hlow hhigh => ?_⟩
  · have hmem := ht.complete hend (toLex (distance id, id)) fun s hs => by
      obtain ⟨r, hr, rfl, -⟩ := exists_row_of_matches geo (hid s hs)
      exact List.mem_map.mpr ⟨r, hr, hposition s hs r hr⟩
    rw [hids] at hnodup ⊢
    exact List.count_eq_one_of_mem hnodup (List.mem_map.mpr ⟨_, hmem, rfl⟩)
  · refine (ht.ends s hs p hp).trans ⟨fun hall id hid => ?_, fun hall k hk => ?_⟩
    · obtain ⟨r, hr, rfl, -⟩ := exists_row_of_matches geo hid
      obtain ⟨k, hk, hle⟩ := hall (position r) (List.mem_map_of_mem hr)
      obtain ⟨q, hq, hk⟩ := List.mem_flatMap.mp hk
      obtain ⟨c, hc, rfl⟩ := List.mem_map.mp hk
      refine ⟨q, hq, c, hc, ?_⟩
      rw [← hposition s (List.mem_of_getLast? hs) r hr]
      exact hle
    · obtain ⟨r, hr, rfl⟩ := List.mem_map.mp hk
      obtain ⟨q, hq, c, hc, hle⟩ := hall r.id (matches_of_row hr).1
      refine ⟨_, List.mem_flatMap.mpr ⟨q, hq, List.mem_map_of_mem hc⟩, ?_⟩
      exact (hposition s (List.mem_of_getLast? hs) r hr).trans_le hle
  · obtain ⟨k, hk, hdecode⟩ := ht.cursors p hp text htext
    obtain ⟨last, hlast, rfl⟩ := Option.map_eq_some_iff.mp (List.getLast?_map ▸ hk)
    obtain ⟨c, hc, hck⟩ := Option.map_eq_some_iff.mp hdecode
    exact ⟨last, hlast, hc.trans (congrArg some hck)⟩
  · exact ht.goesOn p hp text htext s (pages hpoint hlow hhigh)

/-- Distance from the seeded cats, to the nearest 100 meters. -/
def coarse : Geometry where
  overlaps _ _ := true
  distance a b := if a = b then 0 else 100

def plainReading : ReadServices.Reading :=
  reading numerals coarse

def fountain : Search := ⟨.nearby, ⟨41, 29⟩, none⟩

def atFountain (ids : List UUID) (h : Schema.Valid { cats := ids.map fun id =>
    { id, name := none, area := ⟨41, 29⟩, createdAt := 0 } } := by decide) : Database :=
  ⟨_, h⟩

/-- A third cat arrives before the second page, and the second cat leaves after it. -/
def threePages : List Request :=
  [⟨atFountain [2, 1], 0, 1⟩, ⟨atFountain [2, 1, 3], 10, 1⟩, ⟨atFountain [1, 3], 20, 50⟩]

theorem discover_traversal_threePages : ∃ ps,
    Follows (pager numerals coarse fountain) none threePages ps ∧ ids ps = [1, 2, 3] ∧
      (ids ps).Nodup ∧ (ids ps).count 1 = 1 := by
  have htest : ((pager numerals coarse fountain).follow none threePages).map
      (fun ps => (ids ps, ps.getLast?.map fun p => p.nextCursor)) =
      some ([1, 2, 3], some none) := by decide +kernel
  obtain ⟨ps, hps, hids⟩ := Option.map_eq_some_iff.mp htest
  obtain ⟨hids, hlast⟩ := Prod.mk.inj hids
  have h := follows_of_follow hps
  obtain ⟨-, hnodup, hcount, -⟩ := discover_traversal numerals coarse fountain threePages
    (by decide) (fun _ => 0) (by decide) ps h
  refine ⟨ps, h, hids, hnodup, hcount (fun p hp => ?_) 1 fun s hs => ?_⟩
  · rw [Option.mem_def.mp hp] at hlast
    exact Option.some.inj hlast
  · have hlisted : ∀ s ∈ threePages, ∃ c ∈ s.db.tables.cats, c.id = 1 ∧
        listed none s.db c = true := by decide
    obtain ⟨c, hc, hid, hactive⟩ := hlisted s hs
    exact ⟨c, hc, hid, hactive, nofun⟩

end Tekir.DiscoverPages
