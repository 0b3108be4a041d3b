import Mathlib.Data.List.Basic
import Mathlib.Tactic.Common

/-!
# Library — `application/x-www-form-urlencoded`

The serialization of a query string: names and values in order, each character that is not unreserved
as the percent-encoded bytes of its UTF-8 form, a space as `+`.
-/

namespace Library

/-- An upper-case hexadecimal digit. -/
def hexDigit (n : Nat) : Char := Char.ofNat (if n < 10 then 48 + n else 55 + n)

/-- A byte as a percent sign and two digits. -/
def percentEncode (b : UInt8) : List Char := ['%', hexDigit (b.toNat / 16), hexDigit (b.toNat % 16)]

/-- The characters that stand for themselves. -/
def isUnreserved (c : Char) : Bool := c.isAlphanum || c == '*' || c == '-' || c == '.' || c == '_'

/-- A character: as it is, as a plus sign, or as the bytes of its UTF-8. -/
def formEncodeChar (c : Char) : List Char :=
  if isUnreserved c then [c]
  else if c = ' ' then ['+']
  else (String.utf8EncodeChar c).flatMap percentEncode

/-- A text, character by character. -/
def formEncode (cs : List Char) : List Char := cs.flatMap formEncodeChar

/-- `name=value`, joined by `&`. -/
def formSerialize (params : List (List Char × List Char)) : List Char :=
  List.intercalate ['&'] (params.map fun param => formEncode param.1 ++ '=' :: formEncode param.2)

theorem formEncode_append (cs ds : List Char) :
    formEncode (cs ++ ds) = formEncode cs ++ formEncode ds :=
  List.flatMap_append

theorem formEncode_cons (c : Char) (cs : List Char) :
    formEncode (c :: cs) = formEncodeChar c ++ formEncode cs :=
  List.flatMap_cons

theorem formEncodeChar_of_isDigit {c : Char} (h : c.isDigit = true) : formEncodeChar c = [c] :=
  if_pos (by simp [isUnreserved, Char.isAlphanum, h])

/-- Digits stand for themselves. -/
theorem formEncode_of_digits {cs : List Char} (h : ∀ c ∈ cs, c.isDigit = true) :
    formEncode cs = cs := by
  induction cs with
  | nil => rfl
  | cons c cs ih =>
      rw [formEncode_cons, formEncodeChar_of_isDigit (h c List.mem_cons_self),
        ih fun d hd => h d (List.mem_cons_of_mem c hd)]
      rfl

/-- A list of items of bounded encoded length, joined by a separator. -/
theorem length_formEncode_intercalate_le {sep : List Char} {n : Nat} {items : List (List Char)}
    (h : ∀ item ∈ items, (formEncode item).length ≤ n) :
    (formEncode (List.intercalate sep items)).length ≤ (n + (formEncode sep).length) * items.length := by
  induction items with
  | nil => exact Nat.zero_le _
  | cons item items ih =>
      have hitem := h item List.mem_cons_self
      have hrest := ih fun item' h' => h item' (List.mem_cons_of_mem item h')
      cases items with
      | nil =>
          rw [List.intercalate_singleton, List.length_singleton]
          omega
      | cons item' items =>
          rw [List.intercalate_cons_cons, formEncode_append, formEncode_append, List.length_append,
            List.length_append, List.length_cons, Nat.mul_succ]
          omega

end Library
