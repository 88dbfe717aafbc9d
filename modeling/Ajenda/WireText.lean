import Ajenda.CanonicalText

/-!
# Texts and numbers on a wire

Texts as UTF-8 bytes, `bytes.decode("utf-8")`, and `int(...)` of a text. A number is read back from
its decimal text, which has no line break in it.
-/
namespace Ajenda.WireText
open Ajenda.Runtime (isSpace strip)

abbrev Bytes := List UInt8

/-- `str.encode("utf-8")`. -/
def encode (text : String) : Bytes := text.toList.flatMap String.utf8EncodeChar

/-- `bytes.decode("utf-8")`. -/
def decode (bytes : Bytes) : Option String := String.fromUTF8? bytes.toByteArray

theorem decode_encode (text : String) : decode (encode text) = some text := by
  have hbytes : (encode text).toByteArray = text.toByteArray := by
    conv_rhs => rw [← String.ofList_toList (s := text), String.toByteArray_ofList]
    rfl
  rw [decode, hbytes, String.fromUTF8?, dif_pos text.isValidUTF8]
  rfl

/-- What value a character has as a decimal digit. -/
structure DecimalDigits where
  value : Char → Option ℕ
  ascii : ∀ c, c.isDigit = true → value c = some (c.toNat - '0'.toNat)
  underscore : value '_' = none

def asciiDigits : DecimalDigits where
  value c := if c.isDigit then some (c.toNat - '0'.toNat) else none
  ascii _ h := if_pos h
  underscore := rfl

variable (D : DecimalDigits)

/-- The digits after the first; an underscore stands between two digits only. -/
def readDigits : ℕ → List Char → Option ℕ
  | n, [] => some n
  | n, '_' :: c :: cs => (D.value c).bind fun d => readDigits (10 * n + d) cs
  | n, c :: cs => (D.value c).bind fun d => readDigits (10 * n + d) cs

def readNat : List Char → Option ℕ
  | [] => none
  | c :: cs => (D.value c).bind fun d => readDigits D d cs

/-- `int(text)`, for texts below the limit of 4300 digits. -/
def readInt (text : String) : Option ℤ :=
  match (strip text).toList with
  | '-' :: cs => (readNat D cs).map fun n => -(n : ℤ)
  | '+' :: cs => (readNat D cs).map Int.ofNat
  | cs => (readNat D cs).map Int.ofNat

variable {D}

theorem readDigits_cons {n : ℕ} {c : Char} {cs : List Char} (h : c.isDigit = true) :
    readDigits D n (c :: cs) = readDigits D (10 * n + (c.toNat - '0'.toNat)) cs := by
  have hne : c ≠ '_' := by
    rintro rfl
    exact absurd h (by decide)
  rw [readDigits.eq_3 D n c cs fun c' cs' heq _ => hne heq]
  rw [D.ascii c h]
  rfl

theorem readDigits_digits {n : ℕ} {cs : List Char} (h : ∀ c ∈ cs, c.isDigit = true) :
    readDigits D n cs = some (Nat.ofDigitChars 10 cs n) := by
  induction cs generalizing n with
  | nil => rfl
  | cons c cs ih =>
    rw [readDigits_cons (h c List.mem_cons_self), ih fun c hc => h c (List.mem_cons_of_mem _ hc),
      Nat.ofDigitChars_cons]

theorem readNat_digits {cs : List Char} (hne : cs ≠ []) (h : ∀ c ∈ cs, c.isDigit = true) :
    readNat D cs = some (Nat.ofDigitChars 10 cs 0) := by
  cases cs with
  | nil => exact absurd rfl hne
  | cons c cs =>
    have hread := readDigits_digits (D := D) (n := c.toNat - '0'.toNat)
      fun c hc => h c (List.mem_cons_of_mem _ hc)
    rw [readNat, D.ascii c (h c List.mem_cons_self), Option.bind_some, hread, Nat.ofDigitChars_cons]
    simp

theorem readNat_toDigits (n : ℕ) : readNat D (Nat.toDigits 10 n) = some n := by
  rw [readNat_digits Nat.toDigits_ne_nil fun c hc =>
    Nat.isDigit_of_mem_toDigits (by decide) (by decide) hc, Nat.ofDigitChars_ten_toDigits]

theorem strip_eq_self {text : String} (h : ∀ c ∈ text.toList, isSpace c = false) :
    strip text = text :=
  Experience.strip_of_trimmed ⟨fun c hc => h c (List.mem_of_mem_head? hc),
    fun c hc => h c (List.mem_of_mem_getLast? hc)⟩

/-- A character of a decimal number. -/
def Plain (c : Char) : Prop := c = '-' ∨ c.isDigit = true

theorem plain_range {c : Char} (h : Plain c) : 45 ≤ c.toNat ∧ c.toNat ≤ 57 := by
  rcases h with rfl | h
  · decide
  · simp only [Char.isDigit, Bool.and_eq_true, decide_eq_true_eq] at h
    have hlow : (48 : UInt32).toNat ≤ c.val.toNat := h.1
    have hhigh : c.val.toNat ≤ (57 : UInt32).toNat := h.2
    exact ⟨le_trans (by decide) hlow, hhigh⟩

theorem plain_space {c : Char} (h : Plain c) : isSpace c = false := by
  obtain ⟨hlow, hhigh⟩ := plain_range h
  simp only [isSpace, Bool.or_eq_false_iff, Bool.and_eq_false_iff, decide_eq_false_iff_not]
  omega

theorem toList_decimal (z : ℤ) : (toString z).toList =
    match z with
    | .ofNat n => Nat.toDigits 10 n
    | .negSucc n => '-' :: Nat.toDigits 10 (n + 1) := by
  cases z with
  | ofNat n => exact Nat.toList_repr
  | negSucc n =>
    change ("-" ++ (n + 1).repr).toList = _
    rw [String.toList_append, Nat.toList_repr]
    rfl

theorem decimal_plain (z : ℤ) : ∀ c ∈ (toString z).toList, Plain c := by
  intro c hc
  rw [toList_decimal] at hc
  have hdigits : ∀ n, c ∈ Nat.toDigits 10 n → Plain c := fun n hn =>
    .inr (Nat.isDigit_of_mem_toDigits (by decide) (by decide) hn)
  cases z with
  | ofNat n => exact hdigits n hc
  | negSucc n =>
    rcases List.mem_cons.1 hc with rfl | hc
    · exact .inl rfl
    · exact hdigits _ hc

/-- A number is read back from its decimal text. -/
theorem readInt_decimal (z : ℤ) : readInt D (toString z) = some z := by
  rw [readInt, strip_eq_self fun c hc => plain_space (decimal_plain z c hc), toList_decimal]
  cases z with
  | negSucc n => simp [readNat_toDigits, Int.negSucc_eq]
  | ofNat n =>
    have hread := readNat_toDigits (D := D) n
    have hdigit : ∀ c ∈ Nat.toDigits 10 n, c.isDigit = true := fun c hc =>
      Nat.isDigit_of_mem_toDigits (by decide) (by decide) hc
    simp only
    split
    next cs hcs => exact absurd (hdigit '-' (by simp [hcs])) (by decide)
    next cs hcs => exact absurd (hdigit '+' (by simp [hcs])) (by decide)
    next => rw [hread]; rfl

/-- No line break is in a decimal text. -/
theorem decimal_bytes (z : ℤ) : ∀ b ∈ encode (toString z), b ≠ 10 ∧ b ≠ 13 := by
  intro b hb
  obtain ⟨c, hc, hb⟩ := List.mem_flatMap.1 hb
  obtain ⟨hlow, hhigh⟩ := plain_range (decimal_plain z c hc)
  have hsize : c.utf8Size = 1 :=
    Char.utf8Size_eq_one_iff.2 (UInt32.le_iff_toNat_le.2 (hhigh.trans (by decide)))
  rw [String.utf8EncodeChar_eq_singleton hsize, List.mem_singleton] at hb
  subst hb
  have hbyte : c.val.toUInt8.toNat = c.toNat := by
    rw [UInt32.toNat_toUInt8]
    exact Nat.mod_eq_of_lt (lt_of_le_of_lt hhigh (by decide))
  refine ⟨fun h => ?_, fun h => ?_⟩
  · rw [h, show (10 : UInt8).toNat = 10 from rfl] at hbyte
    omega
  · rw [h, show (13 : UInt8).toNat = 13 from rfl] at hbyte
    omega

end Ajenda.WireText
