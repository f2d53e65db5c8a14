import Mathlib.Data.List.Basic
import Mathlib.Data.Char

/-!
# Unpadded URL-safe base64

Bytes are characters below 256, six bits to a letter, without padding. The decoder skips
line breaks and does not look at the bits that the last letter has too many.
-/
namespace Tekir.Base64

def alphabet : List Char :=
  "ABCDEFGHIJKLMNOPQRSTUVWXYZabcdefghijklmnopqrstuvwxyz0123456789-_".toList

/-- The letter for six bits. -/
def letter (n : ℕ) : Char :=
  alphabet.getD n 'A'

def value (c : Char) : Option ℕ :=
  alphabet.findIdx? (· == c)

/-- The letters for three bytes at a time. -/
def letters : List ℕ → List ℕ
  | a :: b :: c :: rest =>
    a / 4 :: (a % 4 * 16 + b / 16) :: (b % 16 * 4 + c / 64) :: c % 64 :: letters rest
  | [a, b] => [a / 4, a % 4 * 16 + b / 16, b % 16 * 4]
  | [a] => [a / 4, a % 4 * 16]
  | [] => []

/-- The bytes of four letters at a time; a single letter is an error. -/
def bytes : List ℕ → Option (List ℕ)
  | w :: x :: y :: z :: rest =>
    (bytes rest).map fun left =>
      (w * 4 + x / 16) :: (x % 16 * 16 + y / 4) :: (y % 4 * 64 + z) :: left
  | [w, x, y] => some [w * 4 + x / 16, x % 16 * 16 + y / 4]
  | [w, x] => some [w * 4 + x / 16]
  | [_] => none
  | [] => some []

/-- `base64.RawURLEncoding.EncodeToString`. -/
def encode (raw : List Char) : List Char :=
  (letters (raw.map Char.toNat)).map letter

/-- `base64.RawURLEncoding.DecodeString`. -/
def decode (text : List Char) : Option (List Char) :=
  (((text.filter fun c => c != '\r' && c != '\n').mapM value).bind bytes).map fun ns =>
    ns.map Char.ofNat

theorem value_letter : ∀ n < 64, value (letter n) = some n := by
  decide +kernel

theorem letter_ne_break : ∀ n < 64, letter n ≠ '\r' ∧ letter n ≠ '\n' := by
  decide +kernel

theorem lt_of_mem_letters {ns : List ℕ} (h : ∀ n ∈ ns, n < 256) : ∀ m ∈ letters ns, m < 64 := by
  induction ns using letters.induct with
  | case1 a b c rest ih =>
    have ha := h a (by simp)
    have hb := h b (by simp)
    have hc := h c (by simp)
    have hrest := ih fun n hn => h n (by simp [hn])
    intro m hm
    simp only [letters, List.mem_cons] at hm
    rcases hm with rfl | rfl | rfl | rfl | hm
    · omega
    · omega
    · omega
    · omega
    · exact hrest m hm
  | case2 a b =>
    have ha := h a (by simp)
    have hb := h b (by simp)
    intro m hm
    simp only [letters, List.mem_cons, List.not_mem_nil, or_false] at hm
    omega
  | case3 a =>
    have ha := h a (by simp)
    intro m hm
    simp only [letters, List.mem_cons, List.not_mem_nil, or_false] at hm
    omega
  | case4 => simp [letters]

theorem bytes_letters {ns : List ℕ} (h : ∀ n ∈ ns, n < 256) : bytes (letters ns) = some ns := by
  induction ns using letters.induct with
  | case1 a b c rest ih =>
    have ha := h a (by simp)
    have hb := h b (by simp)
    have hc := h c (by simp)
    have hrest := ih fun n hn => h n (by simp [hn])
    simp only [letters, bytes, hrest, Option.map_some, Option.some.injEq, List.cons.injEq, and_true]
    omega
  | case2 a b =>
    have ha := h a (by simp)
    have hb := h b (by simp)
    simp only [letters, bytes, Option.some.injEq, List.cons.injEq, and_true]
    omega
  | case3 a =>
    have ha := h a (by simp)
    simp only [letters, bytes, Option.some.injEq, List.cons.injEq, and_true]
    omega
  | case4 => rfl

theorem decode_encode {raw : List Char} (h : ∀ c ∈ raw, c.toNat < 256) :
    decode (encode raw) = some raw := by
  have hbytes : ∀ n ∈ raw.map Char.toNat, n < 256 := by simpa using h
  have hletters := lt_of_mem_letters hbytes
  have hfilter : (encode raw).filter (fun c => c != '\r' && c != '\n') = encode raw := by
    refine List.filter_eq_self.mpr fun c hc => ?_
    obtain ⟨n, hn, rfl⟩ := List.mem_map.mp hc
    simpa using letter_ne_break n (hletters n hn)
  have hvalues : (encode raw).mapM value = some (letters (raw.map Char.toNat)) := by
    unfold encode
    generalize letters (raw.map Char.toNat) = ns at hletters
    induction ns with
    | nil => rfl
    | cons n ns ih =>
      have htail := ih fun m hm => hletters m (List.mem_cons_of_mem n hm)
      simp [value_letter n (hletters n List.mem_cons_self), htail]
  rw [decode, hfilter, hvalues]
  simp [bytes_letters hbytes, Function.comp_def]

end Tekir.Base64
