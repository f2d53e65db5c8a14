import Tekir.Environment

/-!
# Phone numbers

Which strings `normalizePhone` takes for a Turkish mobile number. It keeps the digits of a string
and nothing else, so that letters and signs do not count, wherever they stand.
-/
namespace Tekir.PhoneNumbers
open Environment

section Numbers

/-- The characters that only divide a number. -/
def separators : List Char :=
  [' ', '-', '.', '(', ')']

def isDigit (c : Char) : Bool :=
  '0' ≤ c && c ≤ '9'

/-- The string without its separators. -/
def written (raw : String) : List Char :=
  raw.toList.filter fun c => c ∉ separators

/-- What may stand before the subscriber. -/
def prefixes : List (List Char) :=
  ["", "0", "90", "+90"].map String.toList

/-- The ten digits of a mobile subscriber. -/
structure Subscriber (digits : List Char) : Prop where
  length : digits.length = turkishMobileDigits
  digit : ∀ c ∈ digits, isDigit c = true
  mobile : "5".toList <+: digits

/-- The string is a Turkish number of the subscriber. -/
def Denotes (raw : String) (digits : List Char) : Prop :=
  Subscriber digits ∧ ∃ p ∈ prefixes, written raw = p ++ digits

def number (digits : List Char) : String :=
  String.ofList ("+90".toList ++ digits)

/-- The string is accepted if it denotes a subscriber, as the number of that subscriber, and not
otherwise. -/
def Exact (raw : String) : Prop :=
  ∀ phone, normalizePhone raw = .ok phone ↔ ∃ digits, Denotes raw digits ∧ phone = number digits

/-- What may stand before the subscriber among the digits. -/
def kept : List (List Char) :=
  ["", "0", "90"].map String.toList

def FitsAfter (p digits : List Char) : Prop :=
  digits.length = p.length + turkishMobileDigits ∧ p ++ "5".toList <+: digits

instance (p digits : List Char) : Decidable (FitsAfter p digits) :=
  inferInstanceAs (Decidable (_ ∧ _))

/-- The digits are one of the three cases of the code. -/
def Fits (digits : List Char) : Prop :=
  ∃ p ∈ kept, FitsAfter p digits

/-- Nothing but digits and separators, or a plus before them if there are twelve. -/
def Clean (raw : String) : Prop :=
  written raw = onlyDigits raw ∨
    (written raw = '+' :: onlyDigits raw ∧ (onlyDigits raw).length = turkishMobileDigits + 2)

/-- The string is clean, unless its digits are rejected anyway. -/
def WellWritten (raw : String) : Prop :=
  Fits (onlyDigits raw) → Clean raw

end Numbers

section Digits

variable {raw phone : String} {digits p : List Char}

theorem digit_onlyDigits : ∀ c ∈ onlyDigits raw, isDigit c = true := by
  intro c hc
  exact (List.mem_filter.mp hc).2

/-- No separator is a digit. -/
theorem onlyDigits_eq : onlyDigits raw = (written raw).filter isDigit := by
  have hdigit : ∀ c : Char, isDigit c = true → c ∉ separators := by
    intro c hc hmem
    simp only [separators, List.mem_cons, List.not_mem_nil, or_false] at hmem
    rcases hmem with rfl | rfl | rfl | rfl | rfl <;> exact absurd hc (by decide)
  rw [written, List.filter_filter]
  refine List.filter_congr fun c _ => ?_
  cases hc : isDigit c with
  | false => simpa [isDigit] using hc
  | true => simpa [isDigit, hdigit c hc] using hc

theorem mem_kept : p ∈ kept ↔ p = [] ∨ p = ['0'] ∨ p = ['9', '0'] := by
  simp [kept]

theorem mem_prefixes : p ∈ prefixes ↔ p ∈ kept ∨ p = '+' :: ['9', '0'] := by
  simp [prefixes, kept, or_assoc]

/-- In each case what is cut off leaves a subscriber. -/
theorem fitsAfter_iff (hdigit : ∀ c ∈ digits, isDigit c = true) :
    FitsAfter p digits ↔ ∃ subscriber, Subscriber subscriber ∧ digits = p ++ subscriber := by
  constructor
  · rintro ⟨hlength, rest, rfl⟩
    rw [List.append_assoc, List.length_append] at hlength
    refine ⟨"5".toList ++ rest, ⟨by omega, fun c hc => hdigit c ?_, rest, rfl⟩,
      List.append_assoc _ _ _⟩
    rw [List.append_assoc]
    exact List.mem_append_right _ hc
  · rintro ⟨subscriber, hsubscriber, rfl⟩
    refine ⟨by rw [List.length_append, hsubscriber.length], ?_⟩
    exact (List.prefix_append_right_inj p).mpr hsubscriber.mobile

theorem normalizePhone_eq : normalizePhone raw =
    if FitsAfter [] (onlyDigits raw) then .ok (number (onlyDigits raw))
    else if FitsAfter ['0'] (onlyDigits raw) then .ok (number ((onlyDigits raw).drop 1))
    else if FitsAfter ['9', '0'] (onlyDigits raw) then .ok (number ((onlyDigits raw).drop 2))
    else .error .invalidPhone := rfl

theorem FitsAfter.length_eq {q : List Char} (h : FitsAfter p digits) (h' : FitsAfter q digits) :
    p.length = q.length :=
  Nat.add_right_cancel (h.1.symm.trans h'.1)

/-- One case at most fits. -/
theorem normalizePhone_of_fitsAfter (hp : p ∈ kept) (h : FitsAfter p (onlyDigits raw)) :
    normalizePhone raw = .ok (number ((onlyDigits raw).drop p.length)) := by
  have hother : ∀ q : List Char, p.length ≠ q.length → ¬ FitsAfter q (onlyDigits raw) :=
    fun q hne hq => hne (h.length_eq hq)
  rw [normalizePhone_eq]
  rcases mem_kept.mp hp with rfl | rfl | rfl
  · rw [if_pos h]
    rfl
  · rw [if_neg (hother [] (by decide)), if_pos h]
    rfl
  · rw [if_neg (hother [] (by decide)), if_neg (hother ['0'] (by decide)), if_pos h]
    rfl

theorem fits_of_normalizePhone (h : normalizePhone raw = .ok phone) : Fits (onlyDigits raw) := by
  rw [normalizePhone_eq] at h
  split at h
  · rename_i hfits
    exact ⟨_, mem_kept.mpr (.inl rfl), hfits⟩
  · split at h
    · rename_i hfits
      exact ⟨_, mem_kept.mpr (.inr (.inl rfl)), hfits⟩
    · split at h
      · rename_i hfits
        exact ⟨_, mem_kept.mpr (.inr (.inr rfl)), hfits⟩
      · cases h

/-- What is accepted, and as what. -/
theorem normalizePhone_eq_ok : normalizePhone raw = .ok phone ↔
    ∃ subscriber, Subscriber subscriber ∧ phone = number subscriber ∧
      ∃ p ∈ kept, onlyDigits raw = p ++ subscriber := by
  constructor
  · intro h
    obtain ⟨p, hp, hfits⟩ := fits_of_normalizePhone h
    obtain ⟨subscriber, hsubscriber, hdigits⟩ := (fitsAfter_iff digit_onlyDigits).mp hfits
    refine ⟨subscriber, hsubscriber, ?_, p, hp, hdigits⟩
    rw [normalizePhone_of_fitsAfter hp hfits, hdigits, List.drop_left] at h
    exact (Except.ok.inj h).symm
  · rintro ⟨subscriber, hsubscriber, rfl, p, hp, hdigits⟩
    have hfits := (fitsAfter_iff digit_onlyDigits).mpr ⟨subscriber, hsubscriber, hdigits⟩
    rw [normalizePhone_of_fitsAfter hp hfits, hdigits, List.drop_left]

end Digits

section Numbers

variable {raw raw' phone : String} {digits digits' p : List Char}

theorem number_inj (h : number digits = number digits') : digits = digits' :=
  List.append_cancel_left (String.ofList_injective h)

theorem filter_kept (hp : p ∈ kept) : p.filter isDigit = p := by
  rcases mem_kept.mp hp with rfl | rfl | rfl <;> rfl

/-- The plus is the only sign that a number may have. -/
theorem Denotes.cases (h : Denotes raw digits) : ∃ p ∈ kept, onlyDigits raw = p ++ digits ∧
    (written raw = onlyDigits raw ∨
      (written raw = '+' :: onlyDigits raw ∧ p = ['9', '0'])) := by
  obtain ⟨hsubscriber, p, hp, hwritten⟩ := h
  have hdigits : digits.filter isDigit = digits := List.filter_eq_self.mpr hsubscriber.digit
  rw [onlyDigits_eq, hwritten, List.filter_append, hdigits]
  rcases mem_prefixes.mp hp with hp | rfl
  · rw [filter_kept hp]
    exact ⟨p, hp, rfl, .inl rfl⟩
  · exact ⟨['9', '0'], mem_kept.mpr (.inr (.inr rfl)), rfl, .inr ⟨rfl, rfl⟩⟩

theorem Denotes.clean (h : Denotes raw digits) : Clean raw := by
  obtain ⟨p, -, hdigits, hwritten | ⟨hwritten, rfl⟩⟩ := h.cases
  · exact .inl hwritten
  · refine .inr ⟨hwritten, ?_⟩
    rw [hdigits, List.length_append, h.1.length]
    rfl

/-- A number of a subscriber is accepted. -/
theorem Denotes.normalizePhone (h : Denotes raw digits) :
    normalizePhone raw = .ok (number digits) := by
  obtain ⟨p, hp, hdigits, -⟩ := h.cases
  exact normalizePhone_eq_ok.mpr ⟨digits, h.1, rfl, p, hp, hdigits⟩

/-- A clean string that is accepted is a number of a subscriber. -/
theorem denotes_of_clean (hclean : Clean raw) (h : normalizePhone raw = .ok phone) :
    ∃ digits, Denotes raw digits ∧ phone = number digits := by
  obtain ⟨digits, hsubscriber, rfl, p, hp, hdigits⟩ := normalizePhone_eq_ok.mp h
  refine ⟨digits, ⟨hsubscriber, ?_⟩, rfl⟩
  rcases hclean with hwritten | ⟨hwritten, hlength⟩
  · exact ⟨p, mem_prefixes.mpr (.inl hp), hwritten.trans hdigits⟩
  · have htwo : p.length = 2 := by
      rw [hdigits, List.length_append, hsubscriber.length] at hlength
      omega
    have hninety : p = ['9', '0'] := by
      rcases mem_kept.mp hp with rfl | rfl | rfl
      · cases htwo
      · cases htwo
      · rfl
    refine ⟨'+' :: ['9', '0'], mem_prefixes.mpr (.inr rfl), ?_⟩
    rw [hwritten, hdigits, hninety]
    rfl

theorem exact_iff : Exact raw ↔ WellWritten raw := by
  constructor
  · rintro hexact ⟨p, hp, hfits⟩
    obtain ⟨digits, hdenotes, -⟩ := (hexact _).mp (normalizePhone_of_fitsAfter hp hfits)
    exact hdenotes.clean
  · intro hwell phone
    constructor
    · intro h
      exact denotes_of_clean (hwell (fits_of_normalizePhone h)) h
    · rintro ⟨digits, hdenotes, rfl⟩
      exact hdenotes.normalizePhone

/-- What comes out has twelve digits after the plus. -/
theorem normalizePhone_idem (h : normalizePhone raw = .ok phone) :
    normalizePhone phone = .ok phone := by
  obtain ⟨digits, hsubscriber, rfl, -⟩ := normalizePhone_eq_ok.mp h
  have hdigits : digits.filter isDigit = digits := List.filter_eq_self.mpr hsubscriber.digit
  have hall : onlyDigits (number digits) = ['9', '0'] ++ digits := by
    calc onlyDigits (number digits) = ("+90".toList ++ digits).filter isDigit := by
          rw [number, onlyDigits, String.toList_ofList]
          rfl
      _ = ['9', '0'] ++ digits := by
          rw [List.filter_append, hdigits]
          rfl
  exact normalizePhone_eq_ok.mpr
    ⟨digits, hsubscriber, rfl, ['9', '0'], mem_kept.mpr (.inr (.inr rfl)), hall⟩

theorem same_subscriber_iff (h : normalizePhone raw = .ok phone)
    (h' : normalizePhone raw' = .ok phone) :
    (∃ digits, Denotes raw digits ∧ Denotes raw' digits) ↔
      WellWritten raw ∧ WellWritten raw' := by
  constructor
  · rintro ⟨digits, hdenotes, hdenotes'⟩
    exact ⟨fun _ => hdenotes.clean, fun _ => hdenotes'.clean⟩
  · rintro ⟨hwell, hwell'⟩
    obtain ⟨digits, hdenotes, hphone⟩ :=
      denotes_of_clean (hwell (fits_of_normalizePhone h)) h
    obtain ⟨digits', hdenotes', hphone'⟩ :=
      denotes_of_clean (hwell' (fits_of_normalizePhone h')) h'
    obtain rfl : digits = digits' := number_inj (hphone.symm.trans hphone')
    exact ⟨digits, hdenotes, hdenotes'⟩

end Numbers

/-- A string is accepted for the subscriber that it denotes and for no other exactly if it is well
written, a normalised number is its own, and two strings with one number denote one subscriber
exactly if both are well written. -/
theorem phone_numbers (raw raw' phone : String) :
    (Exact raw ↔ WellWritten raw) ∧
    (normalizePhone raw = .ok phone → normalizePhone phone = .ok phone) ∧
    (normalizePhone raw = .ok phone → normalizePhone raw' = .ok phone →
      ((∃ digits, Denotes raw digits ∧ Denotes raw' digits) ↔
        WellWritten raw ∧ WellWritten raw')) :=
  ⟨exact_iff, normalizePhone_idem, same_subscriber_iff⟩

/-- A number with the country code 53 is taken for a Turkish one. -/
theorem abroad_taken_for_turkish : ¬ Exact "+53 5 1234567" := by
  intro h
  have haccepted : normalizePhone "+53 5 1234567" = .ok "+905351234567" := by decide
  obtain ⟨digits, hdenotes, -⟩ := (h _).mp haccepted
  exact absurd hdenotes.clean (by unfold Clean; decide)

end Tekir.PhoneNumbers
