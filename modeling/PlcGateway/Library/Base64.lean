/-
  Base64, as `base64.b64encode` and the lenient `base64.b64decode` do it.

  The decoder goes through the text one character at a time: it skips what is
  not in the alphabet, keeps the bits that are left over in the current group of
  four, and stops when the group is filled up with padding.
-/
import Mathlib.Data.UInt
import Mathlib.Data.List.Basic

namespace Base64

/-- The character of a 6-bit digit. -/
def digitChar (n : ℕ) : Char :=
  if n < 26 then Char.ofNat (65 + n)
  else if n < 52 then Char.ofNat (71 + n)
  else if n < 62 then Char.ofNat (n - 4)
  else if n = 62 then '+' else '/'

/-- The digit of a character of the alphabet. -/
def charDigit (c : Char) : Option ℕ :=
  let n := c.toNat
  if 65 ≤ n ∧ n ≤ 90 then some (n - 65)
  else if 97 ≤ n ∧ n ≤ 122 then some (n - 71)
  else if 48 ≤ n ∧ n ≤ 57 then some (n + 4)
  else if c = '+' then some 62
  else if c = '/' then some 63
  else none

inductive DecodeError where
  | oneMoreThanMultipleOfFour
  | incorrectPadding
  deriving DecidableEq, Repr

def encodeChars : List UInt8 → List Char
  | [] => []
  | [a] => [digitChar (a.toNat / 4), digitChar (a.toNat % 4 * 16), '=', '=']
  | [a, b] =>
    [digitChar (a.toNat / 4), digitChar (a.toNat % 4 * 16 + b.toNat / 16),
      digitChar (b.toNat % 16 * 4), '=']
  | a :: b :: c :: rest =>
    digitChar (a.toNat / 4) :: digitChar (a.toNat % 4 * 16 + b.toNat / 16) ::
      digitChar (b.toNat % 16 * 4 + c.toNat / 64) :: digitChar (c.toNat % 64) :: encodeChars rest

/-- Decode from a position in a group of four, with the bits left over and the
    padding seen so far. -/
def decodeFrom (quadPos leftover pads : ℕ) : List Char → Except DecodeError (List UInt8)
  | [] =>
    if quadPos = 0 then .ok []
    else if quadPos = 1 then .error .oneMoreThanMultipleOfFour
    else .error .incorrectPadding
  | c :: cs =>
    if c = '=' then
      if 2 ≤ quadPos then
        if 4 ≤ quadPos + (pads + 1) then .ok [] else decodeFrom quadPos leftover (pads + 1) cs
      else decodeFrom quadPos leftover pads cs
    else match charDigit c with
      | none => decodeFrom quadPos leftover pads cs
      | some d => match quadPos with
        | 0 => decodeFrom 1 d 0 cs
        | 1 => (UInt8.ofNat (leftover * 4 + d / 16) :: ·) <$> decodeFrom 2 (d % 16) 0 cs
        | 2 => (UInt8.ofNat (leftover * 16 + d / 4) :: ·) <$> decodeFrom 3 (d % 4) 0 cs
        | _ => (UInt8.ofNat (leftover * 64 + d) :: ·) <$> decodeFrom 0 0 0 cs

def encode (b : List UInt8) : String := String.ofList (encodeChars b)

def decode (s : String) : Except DecodeError (List UInt8) := decodeFrom 0 0 0 s.toList

theorem charDigit_digitChar : ∀ {n : ℕ}, n < 64 → charDigit (digitChar n) = some n := by decide

theorem digitChar_ne_pad : ∀ {n : ℕ}, n < 64 → digitChar n ≠ '=' := by decide

section
variable (l p : ℕ) {n : ℕ} (hn : n < 64) (cs : List Char)
include hn

theorem decodeFrom_zero : decodeFrom 0 l p (digitChar n :: cs) = decodeFrom 1 n 0 cs := by
  simp only [decodeFrom, digitChar_ne_pad hn, charDigit_digitChar hn, if_false]

theorem decodeFrom_one : decodeFrom 1 l p (digitChar n :: cs) =
    (UInt8.ofNat (l * 4 + n / 16) :: ·) <$> decodeFrom 2 (n % 16) 0 cs := by
  simp only [decodeFrom, digitChar_ne_pad hn, charDigit_digitChar hn, if_false]

theorem decodeFrom_two : decodeFrom 2 l p (digitChar n :: cs) =
    (UInt8.ofNat (l * 16 + n / 4) :: ·) <$> decodeFrom 3 (n % 4) 0 cs := by
  simp only [decodeFrom, digitChar_ne_pad hn, charDigit_digitChar hn, if_false]

theorem decodeFrom_three : decodeFrom 3 l p (digitChar n :: cs) =
    (UInt8.ofNat (l * 64 + n) :: ·) <$> decodeFrom 0 0 0 cs := by
  simp only [decodeFrom, digitChar_ne_pad hn, charDigit_digitChar hn, if_false]

end

theorem ofNat_of_eq_toNat {a : UInt8} {n : ℕ} (h : n = a.toNat) : UInt8.ofNat n = a := by
  rw [h, UInt8.ofNat_toNat]

theorem decodeFrom_encodeChars : ∀ (b : List UInt8) (p : ℕ),
    decodeFrom 0 0 p (encodeChars b) = .ok b
  | [], p => rfl
  | [a], p => by
    have ha := a.toNat_lt
    rw [encodeChars, decodeFrom_zero _ _ (by omega), decodeFrom_one _ _ (by omega),
      ofNat_of_eq_toNat (a := a) (by omega)]
    rfl
  | [a, b], p => by
    have ha := a.toNat_lt
    have hb := b.toNat_lt
    rw [encodeChars, decodeFrom_zero _ _ (by omega), decodeFrom_one _ _ (by omega),
      decodeFrom_two _ _ (by omega), ofNat_of_eq_toNat (a := a) (by omega),
      ofNat_of_eq_toNat (a := b) (by omega)]
    rfl
  | a :: b :: c :: rest, p => by
    have ha := a.toNat_lt
    have hb := b.toNat_lt
    have hc := c.toNat_lt
    rw [encodeChars, decodeFrom_zero _ _ (by omega), decodeFrom_one _ _ (by omega),
      decodeFrom_two _ _ (by omega), decodeFrom_three _ _ (by omega),
      ofNat_of_eq_toNat (a := a) (by omega), ofNat_of_eq_toNat (a := b) (by omega),
      ofNat_of_eq_toNat (a := c) (by omega), decodeFrom_encodeChars rest 0]
    rfl

/-- **Decoding inverts encoding.** -/
theorem decode_encode (b : List UInt8) : decode (encode b) = .ok b := by
  rw [decode, encode, String.toList_ofList]
  exact decodeFrom_encodeChars b 0

theorem digitChar_ascii : ∀ {n : ℕ}, n < 64 → (digitChar n).toNat < 128 := by decide

theorem encodeChars_ascii : ∀ (b : List UInt8), ∀ c ∈ encodeChars b, c.toNat < 128
  | [], c, hc => by cases hc
  | [a], c, hc => by
    have ha := a.toNat_lt
    simp only [encodeChars, List.mem_cons, List.not_mem_nil, or_false] at hc
    rcases hc with rfl | rfl | rfl | rfl
    · exact digitChar_ascii (by omega)
    · exact digitChar_ascii (by omega)
    · decide
    · decide
  | [a, b], c, hc => by
    have ha := a.toNat_lt
    have hb := b.toNat_lt
    simp only [encodeChars, List.mem_cons, List.not_mem_nil, or_false] at hc
    rcases hc with rfl | rfl | rfl | rfl
    · exact digitChar_ascii (by omega)
    · exact digitChar_ascii (by omega)
    · exact digitChar_ascii (by omega)
    · decide
  | a :: b :: d :: rest, c, hc => by
    have ha := a.toNat_lt
    have hb := b.toNat_lt
    have hd := d.toNat_lt
    simp only [encodeChars, List.mem_cons] at hc
    rcases hc with rfl | rfl | rfl | rfl | hc
    · exact digitChar_ascii (by omega)
    · exact digitChar_ascii (by omega)
    · exact digitChar_ascii (by omega)
    · exact digitChar_ascii (by omega)
    · exact encodeChars_ascii rest c hc

/-- The encoded text is ASCII. -/
theorem encode_ascii (b : List UInt8) : (encode b).toList.all (·.toNat < 128) := by
  rw [encode, String.toList_ofList, List.all_eq_true]
  exact fun c hc => decide_eq_true (encodeChars_ascii b c hc)

end Base64
