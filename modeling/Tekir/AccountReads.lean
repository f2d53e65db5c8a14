import Tekir.Badges
import Tekir.CatServices

/-!
# Reads of one account

The list of blocked accounts and the profile: `BlocksService.ListBlocked` and
`ProfileService.GetProfile`. Both are made of rows of the account alone, and of what is public
about the rows that these name.
-/
namespace Tekir.AccountReads
open Table Schema Statements AccountQueries CatQueries CatServices Badges

section Blocks

structure BlockedAccount where
  userId : UUID
  displayName : Option String
  deriving DecidableEq

/-- `created_at` is no part of a block here; the newest row is the last one inserted. -/
def listBlockedAccounts (blocker : UUID) (db : Database) : List BlockedAccount :=
  (db.tables.userBlocks.filter fun b => b.blockerUserId == blocker).reverse.flatMap fun b =>
    (db.tables.users.filter fun u => u.id == b.blockedUserId).map fun u =>
      { userId := b.blockedUserId, displayName := u.displayName }

def listBlocked (blocker : UUID) (db : Database) : List BlockedAccount :=
  listBlockedAccounts blocker db

end Blocks

section Profile

def recentContributionsLimit : ℕ := 8

structure ContributionTotals where
  updates : ℕ := 0
  helps : ℕ := 0
  catsAdded : ℕ := 0
  distinctCats : ℕ := 0
  deriving DecidableEq

structure RecentContribution where
  type : ContributionKind
  catId : UUID
  catName : String
  catPrimaryPhoto : Option String
  statuses : List Status
  needsHelpCategory : Option String
  needsHelpCategoryLabel : Option String
  createdAt : Instant
  deriving DecidableEq

structure Profile where
  displayName : Option String
  totals : ContributionTotals
  badges : List BadgeStatus
  recentContributions : List RecentContribution

/-- A help mark on an update counts for both totals. -/
def ContributionTotals.event (t : ContributionTotals) (e : ContributionEvent) :
    ContributionTotals :=
  match e.kind with
  | .ordinary =>
    { t with updates := t.updates + 1, helps := if e.needsHelp then t.helps + 1 else t.helps }
  | .needsHelp => { t with helps := t.helps + 1 }
  | .catAdded => { t with catsAdded := t.catsAdded + 1 }

def contributionTotals (events : List ContributionEvent) : ContributionTotals :=
  { events.foldl ContributionTotals.event {} with
    distinctCats := (events.map ContributionEvent.catId).dedup.length }

/-- The newest first, by sequence number at the same time. -/
def newestContributionFirst (a b : ContributionEvent) : Bool :=
  decide (b.createdAt < a.createdAt) || (a.createdAt == b.createdAt && decide (b.seq ≤ a.seq))

def recentContributions (events : List ContributionEvent) : List ContributionEvent :=
  (orderBy newestContributionFirst events).take recentContributionsLimit

/-- The row of `GetCatSummariesByIDs`. -/
def catSummary (catId : UUID) (db : Database) : Option (Option String × String) :=
  (db.tables.cats.find? fun c => c.id == catId).map fun c => (c.name, photoUrl c db)

def recentContribution (db : Database) (e : ContributionEvent) : RecentContribution :=
  let summary := catSummary e.catId db
  let photo := summary.bind fun s => if s.2 = "" then none else some s.2
  let help := alertCategory e.needsHelpCategory
  { type := if e.needsHelp then .needsHelp else e.kind
    catId := e.catId, catName := (summary.bind Prod.fst).getD "", catPrimaryPhoto := photo
    statuses := if e.kind = .ordinary then e.statuses else []
    needsHelpCategory := if e.needsHelp then some help.1 else none
    needsHelpCategoryLabel := if e.needsHelp then some help.2 else none
    createdAt := e.createdAt }

def getProfile (userId : UUID) (db : Database) : Except Error Profile := do
  let user ← getUserByID userId db
  let events := gatherContributions userId db
  return {
    displayName := user.displayName, totals := contributionTotals events
    badges := badgeProgress events
    recentContributions := (recentContributions events).map (recentContribution db) }

end Profile

end Tekir.AccountReads
