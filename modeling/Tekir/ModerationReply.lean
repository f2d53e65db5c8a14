import Tekir.Environment
import Tekir.Json
import Mathlib.Data.List.DropRight

/-!
# Replies of the moderation model

`parseModerationResult` on the text of a reply, and the contract that its comment states. Of a
decoder of streams the code takes the first value and leaves the rest of the text. The decoder folds
the letters of a key, lets a later member overwrite an earlier one, and passes over a missing member
and over `null`. Categories beside `allow` are not refused, and each fence is cut off by itself.
-/
namespace Tekir.ModerationReply
open Environment Json
open Statements (Error)

section Code

inductive ModerationCategory
  | sexual | graphicViolence | hate | harassment | selfHarm | illegalActivity | animalCruelty
  deriving DecidableEq

def ModerationCategory.name : ModerationCategory → String
  | .sexual => "sexual"
  | .graphicViolence => "graphic_violence"
  | .hate => "hate"
  | .harassment => "harassment"
  | .selfHarm => "self_harm"
  | .illegalActivity => "illegal_activity"
  | .animalCruelty => "animal_cruelty"

def moderationCategories : List ModerationCategory :=
  [.sexual, .graphicViolence, .hate, .harassment, .selfHarm, .illegalActivity, .animalCruelty]

def categoryOf (name : String) : Option ModerationCategory :=
  moderationCategories.find? fun c => c.name = name

structure ModerationDecision where
  allowed : Bool
  categories : List ModerationCategory
  deriving DecidableEq

/-- What a malformed result is refused for. -/
inductive Malformed
  | json
  | unrecognizedCategory (name : String)
  | noCategories
  | unrecognizedDecision (decision : String)
  deriving DecidableEq

/-- `strings.TrimSpace`. -/
def trimChars (cs : List Char) : List Char :=
  (cs.dropWhile isSpace).rdropWhile isSpace

/-- `strings.TrimPrefix`. -/
def trimPrefix (pre cs : List Char) : List Char :=
  if pre <+: cs then cs.drop pre.length else cs

/-- `strings.TrimSuffix`. -/
def trimSuffix (suf cs : List Char) : List Char :=
  if suf <:+ cs then cs.take (cs.length - suf.length) else cs

def fence : List Char := "```".toList

def jsonFence : List Char := "```json".toList

def trimmed (raw : String) : List Char :=
  trimChars (trimSuffix fence (trimPrefix fence (trimPrefix jsonFence (trimChars raw.toList))))

/-- A slice of strings. What its array holds beyond its length is seen again when it grows. -/
structure StringSlice where
  array : List String
  length : ℕ

def StringSlice.elements (s : StringSlice) : List String :=
  s.array.take s.length

structure ModerationResultJSON where
  decision : String
  categories : StringSlice

/-- A string is stored, and `null` leaves what was there. -/
def decodeString (old : String) : Value → Option String
  | .string s => some s
  | .null => some old
  | _ => none

def decodeElements : List String → List Value → Option (List String)
  | old, [] => some old
  | old, v :: vs => do
    let s ← decodeString (old.headD "") v
    return s :: (← decodeElements old.tail vs)

def decodeSlice (old : StringSlice) : Value → Option StringSlice
  | .null => some ⟨[], 0⟩
  | .array [] => some ⟨[], 0⟩
  | .array (v :: vs) => (decodeElements old.array (v :: vs)).map (⟨·, vs.length + 1⟩)
  | _ => none

inductive Field | decision | categories
  deriving DecidableEq

def fields : List (String × Field) :=
  [("decision", .decision), ("categories", .categories)]

/-- The first of the characters that fold into each other, if it is a letter of ASCII. -/
def foldRune (c : Char) : Char :=
  if c = 'ſ' then 'S' else if c = '\u212A' then 'K' else c.toUpper

def foldName (key : String) : List Char :=
  key.toList.map foldRune

def fieldOf (key : String) : Option Field :=
  match fields.find? fun f => f.1 = key with
  | some f => some f.2
  | none => (fields.find? fun f => foldName f.1 = foldName key).map (·.2)

/-- A member without a field, or of another type than the field, is an error in the end. -/
def decodeMembers : List (String × Value) → ModerationResultJSON → Option ModerationResultJSON
  | [], parsed => some parsed
  | (key, v) :: ms, parsed => do
    match ← fieldOf key with
    | .decision => decodeMembers ms { parsed with decision := ← decodeString parsed.decision v }
    | .categories => decodeMembers ms { parsed with categories := ← decodeSlice parsed.categories v }

def decode (v : Value) : Option ModerationResultJSON :=
  let zero : ModerationResultJSON := ⟨"", ⟨[], 0⟩⟩
  match v with
  | .object ms => decodeMembers ms zero
  | .null => some zero
  | _ => none

def recognize : List String → Except Malformed (List ModerationCategory)
  | [] => .ok []
  | name :: names => do
    match categoryOf name with
    | none => .error (.unrecognizedCategory name)
    | some c => return c :: (← recognize names)

def judge (parsed : ModerationResultJSON) : Except Malformed ModerationDecision := do
  let categories ← recognize parsed.categories.elements
  if parsed.decision = "allow" then return ⟨true, categories⟩
  else if parsed.decision = "reject" then
    if categories = [] then .error .noCategories else return ⟨false, categories⟩
  else .error (.unrecognizedDecision parsed.decision)

def parseModerationResult (raw : String) : Except Malformed ModerationDecision :=
  match (parse (trimmed raw)).bind fun p => decode p.1 with
  | none => .error .json
  | some parsed => judge parsed

/-- What `run` makes of the text of a reply. -/
def runReply (text : String) : Except Error ModerationDecision :=
  (parseModerationResult text).mapError fun _ => .moderationUnavailable

end Code

section Contract

def openings : List (List Char) :=
  [jsonFence, fence]

/-- The text without the space around it, and without a fence around it. -/
def Unwraps (raw inner : List Char) : Prop :=
  inner = trimChars raw ∨
  ∃ opening ∈ openings, ∃ body, trimChars raw = opening ++ (body ++ fence) ∧ inner = trimChars body

def decisionMember (decision : String) : String × Value :=
  ("decision", .string decision)

def categoriesMember (categories : List ModerationCategory) : String × Value :=
  ("categories", .array (categories.map fun c => .string c.name))

/-- The two members, in either order. -/
def Members (ms : List (String × Value)) (decision : String)
    (categories : List ModerationCategory) : Prop :=
  ms = [decisionMember decision, categoriesMember categories] ∨
    ms = [categoriesMember categories, decisionMember decision]

/-- The text is one object, of a decision and a list of categories, and nothing else. -/
def Contract (raw decision : String) (categories : List ModerationCategory) : Prop :=
  ∃ inner, Unwraps raw.toList inner ∧ ∃ ms, Text (.value (.object ms)) inner [] ∧
    Members ms decision categories

/-- What a text of the contract decides: `allow` without a category, or `reject` with one. -/
def Decides (raw : String) (r : ModerationDecision) : Prop :=
  (Contract raw "allow" [] ∧ r = ⟨true, []⟩) ∨
  ∃ categories, categories ≠ [] ∧ Contract raw "reject" categories ∧ r = ⟨false, categories⟩

/-- A text is taken for what it decides, and if it decides nothing the caller fails. -/
structure Strict (raw : String) : Prop where
  taken : ∀ r, parseModerationResult raw = .ok r ↔ Decides raw r
  closed : (∀ r, ¬ Decides raw r) → runReply raw = .error .moderationUnavailable

/-- There is a decision among what was decoded. -/
def Decided (parsed : ModerationResultJSON) : Prop :=
  (∀ name ∈ parsed.categories.elements, (categoryOf name).isSome = true) ∧
    (parsed.decision = "allow" ∨
      (parsed.decision = "reject" ∧ parsed.categories.elements ≠ []))

/-- One member for each field, under its name and of its type, and no category beside `allow`. -/
def Regular (ms : List (String × Value)) : Prop :=
  ∃ decision categories, Members ms decision categories ∧ (decision = "allow" → categories = [])

/-- The text starts with an object from which a decision is read, and half a fence or two of them
are around it, or another text follows the object, or its members are not regular. -/
def Loose (raw : String) : Prop :=
  ∃ ms rest, Text (.value (.object ms)) (trimmed raw) rest ∧
    (∃ parsed, decodeMembers ms ⟨"", ⟨[], 0⟩⟩ = some parsed ∧ Decided parsed) ∧
      (¬ Unwraps raw.toList (trimmed raw) ∨ rest ≠ [] ∨ ¬ Regular ms)

end Contract

section Trimming

variable {cs body inner opening : List Char} {c : Char}

theorem trimChars_prefix (cs : List Char) : trimChars cs <+: cs.dropWhile isSpace :=
  List.rdropWhile_prefix _ _

/-- What is trimmed starts and ends with something else than space. -/
theorem head_trimChars (h : trimChars cs = c :: inner) : isSpace c = false := by
  have hprefix := trimChars_prefix cs
  rw [h] at hprefix
  obtain ⟨rest, hrest⟩ := hprefix
  have hself := List.dropWhile_idempotent isSpace cs
  rw [← hrest, List.cons_append] at hself
  by_contra hspace
  rw [List.dropWhile_cons_of_pos (by simpa using hspace)] at hself
  have hshort := (List.dropWhile_suffix (l := inner ++ rest) isSpace).length_le
  rw [hself, List.length_cons] at hshort
  omega

theorem trimChars_idem (cs : List Char) : trimChars (trimChars cs) = trimChars cs := by
  cases h : trimChars cs with
  | nil => rfl
  | cons c inner =>
    have hspace := head_trimChars h
    rw [trimChars, List.dropWhile_cons_of_neg (by simp [hspace]), ← h, trimChars,
      List.rdropWhile_idempotent]

/-- A text that is trimmed to something starts with that or with space. -/
theorem head_of_trimChars (h : trimChars cs = c :: inner) :
    ∃ d rest, cs = d :: rest ∧ (isSpace d = true ∨ d = c) := by
  cases cs with
  | nil => cases h
  | cons d rest =>
    refine ⟨d, rest, rfl, ?_⟩
    cases hspace : isSpace d with
    | true => exact .inl rfl
    | false =>
      right
      have hprefix := trimChars_prefix (d :: rest)
      rw [h, List.dropWhile_cons_of_neg (by simp [hspace])] at hprefix
      exact (List.cons_prefix_cons.mp hprefix).1.symm

theorem trimPrefix_append (pre cs : List Char) : trimPrefix pre (pre ++ cs) = cs := by
  rw [trimPrefix, if_pos (List.prefix_append _ _), List.drop_left]

theorem trimSuffix_append (suf cs : List Char) : trimSuffix suf (cs ++ suf) = cs := by
  rw [trimSuffix, if_pos (List.suffix_append _ _), List.length_append, Nat.add_sub_cancel,
    List.take_left]

theorem trimPrefix_of_ne {p : Char} {pre : List Char} (h : p ≠ c) :
    trimPrefix (p :: pre) (c :: cs) = c :: cs := by
  rw [trimPrefix, if_neg fun hprefix => h (List.cons_prefix_cons.mp hprefix).1]

/-- What ends with another character than a fence does not lose one. -/
theorem trimSuffix_of_ne (h : c ≠ '\x60') : trimSuffix fence (cs ++ [c]) = cs ++ [c] := by
  rw [trimSuffix, if_neg]
  rintro ⟨front, hfront⟩
  have hfence : fence = "``".toList ++ ['\x60'] := by decide
  rw [hfence, ← List.append_assoc] at hfront
  have hlast := List.append_inj_right' hfront rfl
  exact h (List.cons.inj hlast).1.symm

/-- Inside of a fence stands what begins an object, or space. -/
theorem body_head (h : trimChars body = '\x7b' :: inner) :
    ∃ d rest, body = d :: rest ∧ '\x60' ≠ d ∧ 'j' ≠ d := by
  obtain ⟨d, rest, hbody, hd⟩ := head_of_trimChars h
  refine ⟨d, rest, hbody, ?_, ?_⟩
  · rintro rfl
    exact absurd hd (by decide)
  · rintro rfl
    exact absurd hd (by decide)

/-- An object that is unwrapped is what the code cuts out. -/
theorem trimmed_of_unwraps {raw : String} {rest front : List Char} (h : Unwraps raw.toList inner)
    (hopen : inner = '\x7b' :: rest) (hclose : inner = front ++ ['\x7d']) :
    trimmed raw = inner := by
  have hjson : jsonFence = '\x60' :: "``json".toList := by decide
  have hfence : fence = '\x60' :: "``".toList := by decide
  unfold trimmed
  rcases h with hplain | ⟨opening, hopening, body, hraw, hbody⟩
  · have hidem : trimChars inner = inner := by rw [hplain, trimChars_idem]
    rw [← hplain, hopen, hjson, trimPrefix_of_ne (by decide)]
    nth_rewrite 2 [hfence]
    rw [trimPrefix_of_ne (by decide), ← hopen]
    nth_rewrite 1 [hclose]
    rw [trimSuffix_of_ne (by decide), ← hclose, hidem]
  · obtain ⟨d, body', hd, htick, hj⟩ := body_head (hbody.symm.trans hopen)
    have hnext : trimPrefix fence (body ++ fence) = body ++ fence := by
      nth_rewrite 1 [hfence]
      rw [hd, List.cons_append, trimPrefix_of_ne htick]
    simp only [openings, List.mem_cons, List.not_mem_nil, or_false] at hopening
    rcases hopening with rfl | rfl
    · rw [hraw, trimPrefix_append, hnext, trimSuffix_append, hbody]
    · have hplain : trimPrefix jsonFence (fence ++ (body ++ fence)) = fence ++ (body ++ fence) := by
        rw [trimPrefix, if_neg]
        intro hprefix
        have hsplit : jsonFence = fence ++ "json".toList := by decide
        rw [hsplit, List.prefix_append_right_inj, hd, List.cons_append] at hprefix
        exact hj (List.cons_prefix_cons.mp hprefix).1
      rw [hraw, hplain, trimPrefix_append, trimSuffix_append, hbody]

end Trimming

section Members

variable {ms : List (String × Value)} {decision : String} {categories : List ModerationCategory}
  {parsed : ModerationResultJSON} {r : ModerationDecision} {names old : List String}

theorem categoryOf_name (c : ModerationCategory) : categoryOf c.name = some c := by
  cases c <;> rfl

theorem decodeElements_strings (names old : List String) :
    decodeElements old (names.map .string) = some (names ++ old.drop names.length) := by
  induction names generalizing old with
  | nil => rfl
  | cons name names ih =>
    rw [List.map_cons, decodeElements, ih]
    cases old with
    | nil =>
      rw [List.drop_nil, List.tail_nil, List.drop_nil, List.append_nil, List.append_nil]
      rfl
    | cons s old => rfl

/-- A list of names is decoded to just these. -/
theorem elements_decodeSlice (categories : List ModerationCategory) :
    ∃ slice, decodeSlice ⟨[], 0⟩ (.array (categories.map fun c => .string c.name)) = some slice ∧
      slice.elements = categories.map ModerationCategory.name := by
  cases categories with
  | nil => exact ⟨⟨[], 0⟩, rfl, rfl⟩
  | cons c cs =>
    have hnames : (c :: cs).map (fun c => Value.string c.name) =
        ((c :: cs).map ModerationCategory.name).map Value.string := by
      rw [List.map_map]
      rfl
    have helements := decodeElements_strings ((c :: cs).map ModerationCategory.name) []
    rw [← hnames, List.drop_nil, List.append_nil] at helements
    refine ⟨⟨(c :: cs).map ModerationCategory.name, cs.length + 1⟩, ?_, ?_⟩
    · rw [List.map_cons] at helements ⊢
      rw [decodeSlice, helements, Option.map_some, List.length_map]
    · rw [StringSlice.elements, List.take_of_length_le (by simp)]

theorem decodeMembers_of_members (h : Members ms decision categories) :
    ∃ parsed, decodeMembers ms ⟨"", ⟨[], 0⟩⟩ = some parsed ∧ parsed.decision = decision ∧
      parsed.categories.elements = categories.map ModerationCategory.name := by
  obtain ⟨slice, hslice, helements⟩ := elements_decodeSlice categories
  have hdecision : fieldOf "decision" = some .decision := by decide
  have hcategories : fieldOf "categories" = some .categories := by decide
  refine ⟨⟨decision, slice⟩, ?_, rfl, helements⟩
  rcases h with rfl | rfl
  · simp only [decodeMembers, decisionMember, categoriesMember, hdecision, hcategories, decodeString,
      hslice, Option.bind_eq_bind, Option.bind_some]
  · simp only [decodeMembers, decisionMember, categoriesMember, hdecision, hcategories, decodeString,
      hslice, Option.bind_eq_bind, Option.bind_some]

theorem recognize_names (categories : List ModerationCategory) :
    recognize (categories.map ModerationCategory.name) = .ok categories := by
  induction categories with
  | nil => rfl
  | cons c cs ih =>
    rw [List.map_cons, recognize, categoryOf_name]
    simp only [ih]
    rfl

/-- All names are recognized, or one is not. -/
theorem recognize_eq_ok : recognize names = .ok categories ↔
    names = categories.map ModerationCategory.name := by
  constructor
  · intro h
    induction names generalizing categories with
    | nil =>
      cases h
      rfl
    | cons name names ih =>
      rw [recognize] at h
      split at h
      · cases h
      · rename_i c hc
        cases hrest : recognize names with
        | error e =>
          rw [hrest] at h
          cases h
        | ok cs =>
          rw [hrest] at h
          cases h
          have hname : c.name = name := by simpa using List.find?_some hc
          rw [List.map_cons, ← ih hrest, hname]
  · rintro rfl
    exact recognize_names categories

theorem exists_recognized (h : ∀ name ∈ names, (categoryOf name).isSome = true) :
    ∃ categories, recognize names = .ok categories := by
  induction names with
  | nil => exact ⟨[], rfl⟩
  | cons name names ih =>
    obtain ⟨c, hc⟩ := Option.isSome_iff_exists.mp (h name List.mem_cons_self)
    obtain ⟨cs, hcs⟩ := ih fun name hname => h name (List.mem_cons_of_mem _ hname)
    refine ⟨c :: cs, ?_⟩
    rw [recognize, hc]
    simp only [hcs]
    rfl

theorem judge_eq_ok : judge parsed = .ok r ↔ ∃ categories,
    parsed.categories.elements = categories.map ModerationCategory.name ∧
      ((parsed.decision = "allow" ∧ r = ⟨true, categories⟩) ∨
        (parsed.decision = "reject" ∧ categories ≠ [] ∧ r = ⟨false, categories⟩)) := by
  have hother : ("reject" : String) ≠ "allow" := by decide
  constructor
  · intro h
    unfold judge at h
    cases hnames : recognize parsed.categories.elements with
    | error e =>
      rw [hnames] at h
      cases h
    | ok categories =>
      rw [hnames] at h
      refine ⟨categories, recognize_eq_ok.mp hnames, ?_⟩
      change (if parsed.decision = "allow" then _ else _) = _ at h
      split at h
      · rename_i hallow
        exact .inl ⟨hallow, (Except.ok.inj h).symm⟩
      · split at h
        · rename_i hreject
          split at h
          · cases h
          · rename_i hne
            exact .inr ⟨hreject, hne, (Except.ok.inj h).symm⟩
        · cases h
  · rintro ⟨categories, hnames, hdecision⟩
    unfold judge
    rw [recognize_eq_ok.mpr hnames]
    change (if parsed.decision = "allow" then _ else _) = _
    rcases hdecision with ⟨hallow, rfl⟩ | ⟨hreject, hne, rfl⟩
    · rw [if_pos hallow]
      rfl
    · rw [hreject, if_neg hother, if_pos rfl, if_neg hne]
      rfl

theorem decided_iff : Decided parsed ↔ ∃ r, judge parsed = .ok r := by
  constructor
  · rintro ⟨hnames, hdecision⟩
    obtain ⟨categories, hcategories⟩ := exists_recognized hnames
    have helements := recognize_eq_ok.mp hcategories
    rcases hdecision with hallow | ⟨hreject, hne⟩
    · exact ⟨_, judge_eq_ok.mpr ⟨categories, helements, .inl ⟨hallow, rfl⟩⟩⟩
    · refine ⟨_, judge_eq_ok.mpr ⟨categories, helements, .inr ⟨hreject, ?_, rfl⟩⟩⟩
      rintro rfl
      exact hne helements
  · rintro ⟨r, h⟩
    obtain ⟨categories, helements, hdecision⟩ := judge_eq_ok.mp h
    refine ⟨?_, ?_⟩
    · intro name hname
      rw [helements] at hname
      obtain ⟨c, -, rfl⟩ := List.mem_map.mp hname
      rw [categoryOf_name]
      rfl
    · rcases hdecision with ⟨hallow, -⟩ | ⟨hreject, hne, -⟩
      · exact .inl hallow
      · refine .inr ⟨hreject, ?_⟩
        rw [helements]
        simpa using hne

end Members

section Replies

variable {raw decision : String} {categories : List ModerationCategory}
  {ms : List (String × Value)} {rest : List Char} {r : ModerationDecision}

theorem isSpace_of_isBlank {c : Char} (h : isBlank c = true) : isSpace c = true := by
  simp only [isBlank, Bool.or_eq_true, beq_iff_eq] at h
  rcases h with ((rfl | rfl) | rfl) | rfl <;> decide

/-- An object that is unwrapped is what the code parses. -/
theorem trimmed_of_object {inner : List Char} (h : Unwraps raw.toList inner)
    (htext : Text (.value (.object ms)) inner []) : trimmed raw = inner := by
  obtain ⟨⟨cs₁, hskip⟩, front, hclose⟩ := htext.braces
  have htrim : ∃ cs, inner = trimChars cs := by
    rcases h with hplain | ⟨-, -, body, -, hbody⟩
    · exact ⟨_, hplain⟩
    · exact ⟨_, hbody⟩
  obtain ⟨cs, hcs⟩ := htrim
  cases hinner : inner with
  | nil =>
    rw [hinner] at hskip
    cases hskip
  | cons c tail =>
    have hspace : isSpace c = false := head_trimChars (hcs.symm.trans hinner)
    have hblank : isBlank c = false := by
      cases hblank : isBlank c with
      | false => rfl
      | true =>
        rw [isSpace_of_isBlank hblank] at hspace
        cases hspace
    rw [hinner, skipBlank, List.dropWhile_cons_of_neg (by simp [hblank])] at hskip
    cases hskip
    rw [← hinner]
    exact trimmed_of_unwraps h hinner hclose

theorem parseModerationResult_object (h : Text (.value (.object ms)) (trimmed raw) rest) :
    parseModerationResult raw = .ok r ↔
      ∃ parsed, decodeMembers ms ⟨"", ⟨[], 0⟩⟩ = some parsed ∧ judge parsed = .ok r := by
  rw [parseModerationResult, parse_eq.mpr h, Option.bind_some]
  change (match decodeMembers ms ⟨"", ⟨[], 0⟩⟩ with
    | none => Except.error Malformed.json
    | some parsed => judge parsed) = .ok r ↔ _
  cases decodeMembers ms ⟨"", ⟨[], 0⟩⟩ with
  | none => simp
  | some parsed => simp

/-- A decision is read from an object and from nothing else. -/
theorem object_of_ok (h : parseModerationResult raw = .ok r) :
    ∃ ms rest, Text (.value (.object ms)) (trimmed raw) rest := by
  unfold parseModerationResult at h
  cases hparse : parse (trimmed raw) with
  | none =>
    rw [hparse] at h
    cases h
  | some p =>
    obtain ⟨v, rest⟩ := p
    rw [hparse, Option.bind_some] at h
    cases v with
    | object ms => exact ⟨ms, rest, parse_eq.mp hparse⟩
    | null =>
      have hnull : judge ⟨"", ⟨[], 0⟩⟩ = .error (.unrecognizedDecision "") := by decide
      change judge ⟨"", ⟨[], 0⟩⟩ = .ok r at h
      rw [hnull] at h
      cases h
    | _ => cases h

theorem judge_members {parsed : ModerationResultJSON} (hdecision : parsed.decision = decision)
    (helements : parsed.categories.elements = categories.map ModerationCategory.name) :
    judge parsed = .ok r ↔ (decision = "allow" ∧ r = ⟨true, categories⟩) ∨
      (decision = "reject" ∧ categories ≠ [] ∧ r = ⟨false, categories⟩) := by
  rw [judge_eq_ok]
  constructor
  · rintro ⟨categories', helements', h⟩
    have hnames := recognize_names categories
    rw [← helements, helements', recognize_names] at hnames
    rw [Except.ok.inj hnames, hdecision] at h
    exact h
  · intro h
    refine ⟨categories, helements, ?_⟩
    rw [hdecision]
    exact h

/-- What a text of the contract decides is returned. -/
theorem ok_of_decides (h : Decides raw r) : parseModerationResult raw = .ok r := by
  have hcontract : ∀ {decision categories}, Contract raw decision categories →
      ((decision = "allow" ∧ r = ⟨true, categories⟩) ∨
        (decision = "reject" ∧ categories ≠ [] ∧ r = ⟨false, categories⟩)) →
          parseModerationResult raw = .ok r := by
    rintro decision categories ⟨inner, hunwraps, ms, htext, hmembers⟩ hr
    rw [← trimmed_of_object hunwraps htext] at htext
    obtain ⟨parsed, hparsed, hdecision, helements⟩ := decodeMembers_of_members hmembers
    exact (parseModerationResult_object htext).mpr
      ⟨parsed, hparsed, (judge_members hdecision helements).mpr hr⟩
  rcases h with ⟨hallow, rfl⟩ | ⟨categories, hne, hreject, rfl⟩
  · exact hcontract hallow (.inl ⟨rfl, rfl⟩)
  · exact hcontract hreject (.inr ⟨rfl, hne, rfl⟩)

theorem Members.unique {decision' : String} {categories' : List ModerationCategory}
    (h : Members ms decision categories) (h' : Members ms decision' categories') :
    decision = decision' ∧ categories = categories' := by
  obtain ⟨parsed, hparsed, hdecision, helements⟩ := decodeMembers_of_members h
  obtain ⟨parsed', hparsed', hdecision', helements'⟩ := decodeMembers_of_members h'
  obtain rfl := Option.some_inj.mp (hparsed.symm.trans hparsed')
  refine ⟨hdecision.symm.trans hdecision', ?_⟩
  have hnames := recognize_names categories
  rw [← helements, helements', recognize_names] at hnames
  exact (Except.ok.inj hnames).symm

/-- A text that decides something is not loose. -/
theorem not_loose_of_decides (h : Decides raw r) : ¬ Loose raw := by
  have hcontract : ∀ {decision categories}, Contract raw decision categories →
      (decision = "allow" → categories = []) → ¬ Loose raw := by
    rintro decision categories ⟨inner, hunwraps, ms, htext, hmembers⟩ hallow
      ⟨ms', rest, htext', -, hirregular⟩
    have hinner := trimmed_of_object hunwraps htext
    rw [hinner] at htext' hirregular
    obtain ⟨hobject, hrest⟩ := htext.unique htext'
    cases hobject
    rcases hirregular with hfence | hafter | hmembers'
    · exact hfence hunwraps
    · exact hafter hrest.symm
    · exact hmembers' ⟨decision, categories, hmembers, hallow⟩
  rcases h with ⟨hallow, -⟩ | ⟨categories, -, hreject, -⟩
  · exact hcontract hallow fun _ => rfl
  · exact hcontract hreject fun h => absurd h (by decide)

/-- A decision that is read from a text that is not loose is the one of the text. -/
theorem decides_of_ok (hloose : ¬ Loose raw) (h : parseModerationResult raw = .ok r) :
    Decides raw r := by
  obtain ⟨ms, rest, htext⟩ := object_of_ok h
  obtain ⟨parsed, hparsed, hjudge⟩ := (parseModerationResult_object htext).mp h
  have hdecided : ∃ parsed, decodeMembers ms ⟨"", ⟨[], 0⟩⟩ = some parsed ∧ Decided parsed :=
    ⟨parsed, hparsed, decided_iff.mpr ⟨r, hjudge⟩⟩
  have hunwraps : Unwraps raw.toList (trimmed raw) := by
    by_contra hfence
    exact hloose ⟨ms, rest, htext, hdecided, .inl hfence⟩
  have hrest : rest = [] := by
    by_contra hafter
    exact hloose ⟨ms, rest, htext, hdecided, .inr (.inl hafter)⟩
  have hregular : Regular ms := by
    by_contra hirregular
    exact hloose ⟨ms, rest, htext, hdecided, .inr (.inr hirregular)⟩
  obtain ⟨decision, categories, hmembers, hallow⟩ := hregular
  obtain ⟨parsed', hparsed', hdecision, helements⟩ := decodeMembers_of_members hmembers
  obtain rfl := Option.some_inj.mp (hparsed.symm.trans hparsed')
  subst hrest
  have hcontract : Contract raw decision categories :=
    ⟨trimmed raw, hunwraps, ms, htext, hmembers⟩
  rcases (judge_members hdecision helements).mp hjudge with ⟨rfl, rfl⟩ | ⟨rfl, hne, rfl⟩
  · obtain rfl := hallow rfl
    exact .inl ⟨hcontract, rfl⟩
  · exact .inr ⟨categories, hne, hcontract, rfl⟩

theorem runReply_of_error {e : Malformed} (h : parseModerationResult raw = .error e) :
    runReply raw = .error .moderationUnavailable := by
  rw [runReply, h]
  rfl

end Replies

/-- The model goes on after an object. -/
def secondThought : String :=
  "\x7b\"decision\":\"allow\",\"categories\":[]\x7d but it shows hate"

end Tekir.ModerationReply
