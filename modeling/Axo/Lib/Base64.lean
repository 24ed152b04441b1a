import Mathlib.Data.List.Basic
import Mathlib.Data.Nat.Basic
import Mathlib.Tactic.IntervalCases

/-!
# Base64

The text that bytes are written as, four characters for three bytes, and the reader of such texts,
which skips characters that are not of the alphabet and ends at the padding.  What was written is
read back (`decode_encode`).
-/

namespace Base64

/-- The sixty-four characters. -/
def alphabet : List Char :=
  "ABCDEFGHIJKLMNOPQRSTUVWXYZabcdefghijklmnopqrstuvwxyz0123456789+/".toList

/-- The character of six bits. -/
def digit (n : ℕ) : Char := alphabet.getD n 'A'

/-- The six bits of a character, if it is one of the alphabet. -/
def value (c : Char) : Option ℕ := alphabet.idxOf? c

theorem value_digit {n : ℕ} (h : n < 64) : value (digit n) = some n := by
  have hall : ∀ m : Fin 64, value (digit m) = some (m : ℕ) := by decide +kernel
  exact hall ⟨n, h⟩

theorem digit_ne_pad {n : ℕ} (h : n < 64) : digit n ≠ '=' := by
  have hall : ∀ m : Fin 64, digit m ≠ '=' := by decide +kernel
  exact hall ⟨n, h⟩

/-- The text of some bytes, padded to whole groups. -/
def encode : List UInt8 → List Char
  | [] => []
  | [a] => [digit (a.toNat / 4), digit (a.toNat % 4 * 16), '=', '=']
  | [a, b] =>
    [digit (a.toNat / 4), digit (a.toNat % 4 * 16 + b.toNat / 16), digit (b.toNat % 16 * 4), '=']
  | a :: b :: c :: rest =>
    digit (a.toNat / 4) :: digit (a.toNat % 4 * 16 + b.toNat / 16) ::
      digit (b.toNat % 16 * 4 + c.toNat / 64) :: digit (c.toNat % 64) :: encode rest

/-- The reader, at a place of its group, with the bits left over from the character before and the
number of padding characters since then.  A text that ends inside of a group has no bytes. -/
def decodeFrom (place left pads : ℕ) : List Char → Option (List UInt8)
  | [] => if place = 0 then some [] else none
  | c :: rest =>
    if c = '=' then
      if 2 ≤ place ∧ 4 ≤ place + (pads + 1) then some []
      else decodeFrom place left (pads + 1) rest
    else
      match value c with
      | none => decodeFrom place left pads rest
      | some v =>
        if place = 0 then decodeFrom 1 v 0 rest
        else if place = 1 then
          (decodeFrom 2 (v % 16) 0 rest).map (UInt8.ofNat (left * 4 + v / 16) :: ·)
        else if place = 2 then
          (decodeFrom 3 (v % 4) 0 rest).map (UInt8.ofNat (left * 16 + v / 4) :: ·)
        else (decodeFrom 0 0 0 rest).map (UInt8.ofNat (left * 64 + v) :: ·)

/-- The bytes of a text. -/
def decode (text : List Char) : Option (List UInt8) := decodeFrom 0 0 0 text

/-! ### Reading a group -/

variable {left pads n : ℕ} {rest : List Char}

theorem decodeFrom_digit (place : ℕ) (h : n < 64) :
    decodeFrom place left pads (digit n :: rest) =
      if place = 0 then decodeFrom 1 n 0 rest
      else if place = 1 then
        (decodeFrom 2 (n % 16) 0 rest).map (UInt8.ofNat (left * 4 + n / 16) :: ·)
      else if place = 2 then
        (decodeFrom 3 (n % 4) 0 rest).map (UInt8.ofNat (left * 16 + n / 4) :: ·)
      else (decodeFrom 0 0 0 rest).map (UInt8.ofNat (left * 64 + n) :: ·) := by
  rw [decodeFrom, if_neg (digit_ne_pad h), value_digit h]

/-- The first two characters of a group give its first byte. -/
theorem decodeFrom_first (a : UInt8) {low : ℕ} (h : low < 16) :
    decodeFrom 0 0 0 (digit (a.toNat / 4) :: digit (a.toNat % 4 * 16 + low) :: rest) =
      (decodeFrom 2 low 0 rest).map (a :: ·) := by
  have ha : a.toNat < 256 := a.toNat_lt
  rw [decodeFrom_digit 0 (by omega), if_pos rfl, decodeFrom_digit 1 (by omega),
    if_neg Nat.one_ne_zero, if_pos rfl]
  have hbyte : a.toNat / 4 * 4 + (a.toNat % 4 * 16 + low) / 16 = a.toNat := by omega
  have hlow : (a.toNat % 4 * 16 + low) % 16 = low := by omega
  rw [hbyte, hlow, UInt8.ofNat_toNat]

/-- The third character completes the second byte. -/
theorem decodeFrom_second (b : UInt8) {low : ℕ} (h : low < 4) :
    decodeFrom 2 (b.toNat / 16) 0 (digit (b.toNat % 16 * 4 + low) :: rest) =
      (decodeFrom 3 low 0 rest).map (b :: ·) := by
  rw [decodeFrom_digit 2 (by omega), if_neg (by decide), if_neg (by decide), if_pos rfl]
  have hbyte : b.toNat / 16 * 16 + (b.toNat % 16 * 4 + low) / 4 = b.toNat := by omega
  have hlow : (b.toNat % 16 * 4 + low) % 4 = low := by omega
  rw [hbyte, hlow, UInt8.ofNat_toNat]

/-- The fourth character completes the third byte, and the group. -/
theorem decodeFrom_third (c : UInt8) :
    decodeFrom 3 (c.toNat / 64) 0 (digit (c.toNat % 64) :: rest) =
      (decodeFrom 0 0 0 rest).map (c :: ·) := by
  rw [decodeFrom_digit 3 (by omega), if_neg (by decide), if_neg (by decide), if_neg (by decide)]
  have hbyte : c.toNat / 64 * 64 + c.toNat % 64 = c.toNat := by omega
  rw [hbyte, UInt8.ofNat_toNat]

/-- Bytes that were written are read back. -/
theorem decode_encode (bytes : List UInt8) : decode (encode bytes) = some bytes := by
  unfold decode
  induction bytes using encode.induct with
  | case1 => rfl
  | case2 a =>
    have h := @decodeFrom_first ['=', '='] a 0 (by decide)
    rw [Nat.add_zero] at h
    exact h
  | case3 a b =>
    have hb : b.toNat < 256 := b.toNat_lt
    have h := @decodeFrom_second ['='] b 0 (by decide)
    rw [Nat.add_zero] at h
    rw [encode, decodeFrom_first a (by omega), h]
    rfl
  | case4 a b c rest ih =>
    have hb : b.toNat < 256 := b.toNat_lt
    have hc : c.toNat < 256 := c.toNat_lt
    rw [encode, decodeFrom_first a (by omega), decodeFrom_second b (by omega),
      decodeFrom_third c, ih]
    rfl

end Base64
