import Mathlib.Data.List.Basic
import Mathlib.Tactic

/-!
# Base64

`encode` writes three bytes as four letters and pads the last group. `decode` reads letters
one at a time as `binascii.a2b_base64` does: a character outside the alphabet is skipped, and
a padded group ends the text.
-/
namespace Base64

def alphabet : List Char :=
  "ABCDEFGHIJKLMNOPQRSTUVWXYZabcdefghijklmnopqrstuvwxyz0123456789+/".toList

def letter (n : ℕ) : Char := alphabet.getD n 'A'

def value (c : Char) : Option ℕ := alphabet.idxOf? c

def encode : List UInt8 → List Char
  | [] => []
  | [a] => [letter (a.toNat / 4), letter (a.toNat % 4 * 16), '=', '=']
  | [a, b] => [letter (a.toNat / 4), letter (a.toNat % 4 * 16 + b.toNat / 16),
      letter (b.toNat % 16 * 4), '=']
  | a :: b :: c :: bytes => letter (a.toNat / 4) :: letter (a.toNat % 4 * 16 + b.toNat / 16) ::
      letter (b.toNat % 16 * 4 + c.toNat / 64) :: letter (c.toNat % 64) :: encode bytes

/-- The bits of the letters read so far that make no whole byte are in `left`. -/
def decodeFrom : (text : List Char) → (position left pads : ℕ) → Option (List UInt8)
  | [], position, _, _ => if position = 0 then some [] else none
  | c :: text, position, left, pads =>
    if c = '=' then
      if position < 2 then decodeFrom text position left pads
      else if 4 ≤ position + (pads + 1) then some []
      else decodeFrom text position left (pads + 1)
    else
      match value c with
      | none => decodeFrom text position left pads
      | some v =>
        match position with
        | 0 => decodeFrom text 1 v 0
        | 1 => (decodeFrom text 2 (v % 16) 0).map (UInt8.ofNat (left * 4 + v / 16) :: ·)
        | 2 => (decodeFrom text 3 (v % 4) 0).map (UInt8.ofNat (left * 16 + v / 4) :: ·)
        | _ => (decodeFrom text 0 0 0).map (UInt8.ofNat (left * 64 + v) :: ·)

def decode (text : List Char) : Option (List UInt8) := decodeFrom text 0 0 0

theorem letter_spec {n : ℕ} (h : n < 64) : letter n ≠ '=' ∧ value (letter n) = some n := by
  have hall : ∀ k : Fin 64, letter k ≠ '=' ∧ value (letter k) = some (k : ℕ) := by
    decide +kernel
  exact hall ⟨n, h⟩

section Letters
variable {n left pads : ℕ} {text : List Char}

theorem decodeFrom_first (h : n < 64) :
    decodeFrom (letter n :: text) 0 left pads = decodeFrom text 1 n 0 := by
  simp [decodeFrom, letter_spec h]

theorem decodeFrom_second (h : n < 64) : decodeFrom (letter n :: text) 1 left pads =
    (decodeFrom text 2 (n % 16) 0).map (UInt8.ofNat (left * 4 + n / 16) :: ·) := by
  simp [decodeFrom, letter_spec h]

theorem decodeFrom_third (h : n < 64) : decodeFrom (letter n :: text) 2 left pads =
    (decodeFrom text 3 (n % 4) 0).map (UInt8.ofNat (left * 16 + n / 4) :: ·) := by
  simp [decodeFrom, letter_spec h]

theorem decodeFrom_fourth (h : n < 64) : decodeFrom (letter n :: text) 3 left pads =
    (decodeFrom text 0 0 0).map (UInt8.ofNat (left * 64 + n) :: ·) := by
  simp [decodeFrom, letter_spec h]

end Letters

theorem ofNat_eq {b : UInt8} {n : ℕ} (h : n = b.toNat) : UInt8.ofNat n = b := by
  rw [h, UInt8.ofNat_toNat]

theorem decode_encode (bytes : List UInt8) : decode (encode bytes) = some bytes := by
  unfold decode
  induction bytes using encode.induct with
  | case1 => rfl
  | case2 a =>
    have ha := a.toNat_lt
    have hfirst : UInt8.ofNat (a.toNat / 4 * 4 + a.toNat % 4 * 16 / 16) = a := ofNat_eq (by omega)
    rw [encode, decodeFrom_first (by omega), decodeFrom_second (by omega), hfirst]
    simp [decodeFrom]
  | case3 a b =>
    have ha := a.toNat_lt
    have hb := b.toNat_lt
    have hfirst : UInt8.ofNat (a.toNat / 4 * 4 + (a.toNat % 4 * 16 + b.toNat / 16) / 16) = a :=
      ofNat_eq (by omega)
    have hsecond : UInt8.ofNat ((a.toNat % 4 * 16 + b.toNat / 16) % 16 * 16 +
        b.toNat % 16 * 4 / 4) = b := ofNat_eq (by omega)
    rw [encode, decodeFrom_first (by omega), decodeFrom_second (by omega),
      decodeFrom_third (by omega), hfirst, hsecond]
    simp [decodeFrom]
  | case4 a b c bytes ih =>
    have ha := a.toNat_lt
    have hb := b.toNat_lt
    have hc := c.toNat_lt
    have hfirst : UInt8.ofNat (a.toNat / 4 * 4 + (a.toNat % 4 * 16 + b.toNat / 16) / 16) = a :=
      ofNat_eq (by omega)
    have hsecond : UInt8.ofNat ((a.toNat % 4 * 16 + b.toNat / 16) % 16 * 16 +
        (b.toNat % 16 * 4 + c.toNat / 64) / 4) = b := ofNat_eq (by omega)
    have hthird : UInt8.ofNat ((b.toNat % 16 * 4 + c.toNat / 64) % 4 * 64 + c.toNat % 64) = c :=
      ofNat_eq (by omega)
    rw [encode, decodeFrom_first (by omega), decodeFrom_second (by omega),
      decodeFrom_third (by omega), decodeFrom_fourth (by omega), ih, hfirst, hsecond, hthird]
    rfl

end Base64
