import Mathlib.Data.List.Basic
import Mathlib.Data.Nat.Notation
import Mathlib.Data.UInt

/-!
# Base64 for addresses of the web

Three bytes become four of sixty-four characters; one or two bytes at the end become two or three.

* `encode`, `decode` : the text of bytes and the bytes of a text.
* `decode_encode`, `encode_alphabet`, `length_encode` : what is used of them.
-/

namespace PreCommunity

namespace Base64

/-- A character of such a text. -/
def isDigit (c : Char) : Bool := c.isAlphanum || c = '-' || c = '_'

/-- The character of a number below 64. -/
def digit (n : ℕ) : Char :=
  if n < 26 then Char.ofNat (65 + n)
  else if n < 52 then Char.ofNat (71 + n)
  else if n < 62 then Char.ofNat (n - 4)
  else if n = 62 then '-' else '_'

/-- The number of a character. -/
def value (c : Char) : ℕ :=
  if c.isUpper then c.toNat - 65
  else if c.isLower then c.toNat - 71
  else if c.isDigit then c.toNat + 4
  else if c = '-' then 62 else 63

/-- The text of bytes. -/
def encode : List UInt8 → List Char
  | [] => []
  | [a] => [digit (a.toNat / 4), digit (a.toNat % 4 * 16)]
  | [a, b] =>
    [digit (a.toNat / 4), digit (a.toNat % 4 * 16 + b.toNat / 16), digit (b.toNat % 16 * 4)]
  | a :: b :: c :: bytes =>
    digit (a.toNat / 4) :: digit (a.toNat % 4 * 16 + b.toNat / 16) ::
      digit (b.toNat % 16 * 4 + c.toNat / 64) :: digit (c.toNat % 64) :: encode bytes

/-- The bytes of a text. -/
def decode : List Char → List UInt8
  | w :: x :: y :: z :: text =>
    UInt8.ofNat (value w * 4 + value x / 16) ::
      UInt8.ofNat (value x % 16 * 16 + value y / 4) ::
      UInt8.ofNat (value y % 4 * 64 + value z) :: decode text
  | [w, x, y] =>
    [UInt8.ofNat (value w * 4 + value x / 16), UInt8.ofNat (value x % 16 * 16 + value y / 4)]
  | [w, x] => [UInt8.ofNat (value w * 4 + value x / 16)]
  | _ => []

theorem value_digit {n : ℕ} (h : n < 64) : value (digit n) = n := by
  revert n
  decide

theorem isDigit_digit {n : ℕ} (h : n < 64) : isDigit (digit n) = true := by
  revert n
  decide

theorem ofNat_eq {n : ℕ} {a : UInt8} (h : n = a.toNat) : UInt8.ofNat n = a := by
  rw [h, UInt8.ofNat_toNat]

/-- **Decoding** undoes encoding. -/
theorem decode_encode (bytes : List UInt8) : decode (encode bytes) = bytes := by
  induction bytes using encode.induct with
  | case1 => rfl
  | case2 a =>
    have ha := a.toNat_lt
    rw [encode, decode, value_digit (by omega), value_digit (by omega)]
    exact congrArg (· :: []) (ofNat_eq (by omega))
  | case3 a b =>
    have ha := a.toNat_lt
    have hb := b.toNat_lt
    rw [encode, decode, value_digit (by omega), value_digit (by omega), value_digit (by omega),
      ofNat_eq (n := _) (a := a) (by omega), ofNat_eq (n := _) (a := b) (by omega)]
  | case4 a b c bytes ih =>
    have ha := a.toNat_lt
    have hb := b.toNat_lt
    have hc := c.toNat_lt
    rw [encode, decode, value_digit (by omega), value_digit (by omega), value_digit (by omega),
      value_digit (by omega), ofNat_eq (n := _) (a := a) (by omega),
      ofNat_eq (n := _) (a := b) (by omega), ofNat_eq (n := _) (a := c) (by omega), ih]

theorem encode_alphabet (bytes : List UInt8) : ∀ c ∈ encode bytes, isDigit c = true := by
  induction bytes using encode.induct with
  | case1 => simp [encode]
  | case2 a =>
    have ha := a.toNat_lt
    simp only [encode, List.forall_mem_cons]
    exact ⟨isDigit_digit (by omega), isDigit_digit (by omega), by simp⟩
  | case3 a b =>
    have ha := a.toNat_lt
    have hb := b.toNat_lt
    simp only [encode, List.forall_mem_cons]
    exact ⟨isDigit_digit (by omega), isDigit_digit (by omega), isDigit_digit (by omega), by simp⟩
  | case4 a b c bytes ih =>
    have ha := a.toNat_lt
    have hb := b.toNat_lt
    have hc := c.toNat_lt
    simp only [encode, List.forall_mem_cons]
    exact ⟨isDigit_digit (by omega), isDigit_digit (by omega), isDigit_digit (by omega),
      isDigit_digit (by omega), ih⟩

theorem length_encode (bytes : List UInt8) :
    (encode bytes).length = (4 * bytes.length + 2) / 3 := by
  induction bytes using encode.induct with
  | case1 => rfl
  | case2 a => simp [encode]
  | case3 a b => simp [encode]
  | case4 a b c bytes ih =>
    simp only [encode, List.length_cons, ih]
    omega

end Base64

end PreCommunity
