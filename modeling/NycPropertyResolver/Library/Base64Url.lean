import Mathlib.Data.List.Basic
import Mathlib.Data.Nat.Init

/-!
# Library — base64url

The URL-safe base64 encoding of bytes, without padding: three bytes are four characters of six bits
each, and what is left at the end takes one character less for each missing byte.  Decoding is the one
of texts over the alphabet, lenient about their length and about the bits that are left over.
-/

namespace Library

/-! ### The alphabet -/

/-- The alphabet, in the order of its values. -/
def base64UrlAlphabet : List Char :=
  "ABCDEFGHIJKLMNOPQRSTUVWXYZabcdefghijklmnopqrstuvwxyz0123456789-_".toList

/-- The character of six bits. -/
def sextetChar (n : Nat) : Char := base64UrlAlphabet.getD n 'A'

/-- The six bits of a character. -/
def sextetValue (c : Char) : Nat := base64UrlAlphabet.idxOf c

theorem sextetValue_sextetChar {n : Nat} (h : n < 64) : sextetValue (sextetChar n) = n := by
  have hall : ∀ n < 64, sextetValue (sextetChar n) = n := by decide +kernel
  exact hall n h

theorem sextetChar_mem (n : Nat) : sextetChar n ∈ base64UrlAlphabet := by
  rw [sextetChar, List.getD_eq_getElem?_getD]
  cases h : base64UrlAlphabet[n]? with
  | none => decide
  | some c => exact List.mem_of_getElem? h

/-! ### Encoding and decoding -/

/-- The digits of the bytes, three bytes to four digits and no padding. -/
def base64UrlEncode : List UInt8 → List Char
  | a :: b :: c :: rest =>
    sextetChar (a.toNat / 4) :: sextetChar (a.toNat % 4 * 16 + b.toNat / 16) ::
      sextetChar (b.toNat % 16 * 4 + c.toNat / 64) :: sextetChar (c.toNat % 64) ::
      base64UrlEncode rest
  | [a, b] =>
    [sextetChar (a.toNat / 4), sextetChar (a.toNat % 4 * 16 + b.toNat / 16),
      sextetChar (b.toNat % 16 * 4)]
  | [a] => [sextetChar (a.toNat / 4), sextetChar (a.toNat % 4 * 16)]
  | [] => []

/-- The bytes of six-bit groups. -/
def bytesOfSextets : List Nat → List UInt8
  | w :: x :: y :: z :: rest =>
    UInt8.ofNat (w * 4 + x / 16) :: UInt8.ofNat (x % 16 * 16 + y / 4) ::
      UInt8.ofNat (y % 4 * 64 + z) :: bytesOfSextets rest
  | [w, x, y] => [UInt8.ofNat (w * 4 + x / 16), UInt8.ofNat (x % 16 * 16 + y / 4)]
  | [w, x] => [UInt8.ofNat (w * 4 + x / 16)]
  | _ => []

/-- The bytes that digits stand for. -/
def base64UrlDecode (cs : List Char) : List UInt8 := bytesOfSextets (cs.map sextetValue)

/-- **Decoding inverts encoding.** -/
theorem base64UrlDecode_encode : ∀ bytes, base64UrlDecode (base64UrlEncode bytes) = bytes
  | a :: b :: c :: rest => by
      have ha := a.toNat_lt
      have hb := b.toNat_lt
      have hc := c.toNat_lt
      have ih := base64UrlDecode_encode rest
      simp only [base64UrlDecode, base64UrlEncode, List.map_cons, bytesOfSextets] at ih ⊢
      rw [ih, sextetValue_sextetChar (by omega), sextetValue_sextetChar (by omega),
        sextetValue_sextetChar (by omega), sextetValue_sextetChar (by omega)]
      have h₁ : a.toNat / 4 * 4 + (a.toNat % 4 * 16 + b.toNat / 16) / 16 = a.toNat := by omega
      have h₂ : (a.toNat % 4 * 16 + b.toNat / 16) % 16 * 16 +
          (b.toNat % 16 * 4 + c.toNat / 64) / 4 = b.toNat := by omega
      have h₃ : (b.toNat % 16 * 4 + c.toNat / 64) % 4 * 64 + c.toNat % 64 = c.toNat := by omega
      rw [h₁, h₂, h₃, UInt8.ofNat_toNat, UInt8.ofNat_toNat, UInt8.ofNat_toNat]
  | [a, b] => by
      have ha := a.toNat_lt
      have hb := b.toNat_lt
      simp only [base64UrlDecode, base64UrlEncode, List.map_cons, List.map_nil, bytesOfSextets]
      rw [sextetValue_sextetChar (by omega), sextetValue_sextetChar (by omega),
        sextetValue_sextetChar (by omega)]
      have h₁ : a.toNat / 4 * 4 + (a.toNat % 4 * 16 + b.toNat / 16) / 16 = a.toNat := by omega
      have h₂ : (a.toNat % 4 * 16 + b.toNat / 16) % 16 * 16 + b.toNat % 16 * 4 / 4 = b.toNat := by
        omega
      rw [h₁, h₂, UInt8.ofNat_toNat, UInt8.ofNat_toNat]
  | [a] => by
      have ha := a.toNat_lt
      simp only [base64UrlDecode, base64UrlEncode, List.map_cons, List.map_nil, bytesOfSextets]
      rw [sextetValue_sextetChar (by omega), sextetValue_sextetChar (by omega)]
      have h₁ : a.toNat / 4 * 4 + a.toNat % 4 * 16 / 16 = a.toNat := by omega
      rw [h₁, UInt8.ofNat_toNat]
  | [] => rfl

theorem mem_base64UrlEncode : ∀ {bytes : List UInt8} {c : Char}, c ∈ base64UrlEncode bytes →
    c ∈ base64UrlAlphabet
  | a :: b :: c :: rest, x, h => by
      simp only [base64UrlEncode, List.mem_cons] at h
      rcases h with rfl | rfl | rfl | rfl | h
      · exact sextetChar_mem _
      · exact sextetChar_mem _
      · exact sextetChar_mem _
      · exact sextetChar_mem _
      · exact mem_base64UrlEncode h
  | [a, b], x, h => by
      simp only [base64UrlEncode, List.mem_cons, List.not_mem_nil, or_false] at h
      rcases h with rfl | rfl | rfl
      · exact sextetChar_mem _
      · exact sextetChar_mem _
      · exact sextetChar_mem _
  | [a], x, h => by
      simp only [base64UrlEncode, List.mem_cons, List.not_mem_nil, or_false] at h
      rcases h with rfl | rfl
      · exact sextetChar_mem _
      · exact sextetChar_mem _

theorem base64UrlEncode_ne_nil {bytes : List UInt8} (h : bytes ≠ []) : base64UrlEncode bytes ≠ [] := by
  match bytes with
  | [] => exact absurd rfl h
  | [a] => simp [base64UrlEncode]
  | [a, b] => simp [base64UrlEncode]
  | a :: b :: c :: rest => simp [base64UrlEncode]

end Library
