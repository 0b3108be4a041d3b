import Mathlib.Data.Rat.Floor
import NycPropertyResolver.Domain.Identifiers

/-!
# Domain — numbers

`Number(text)` on strings: the numeric literals of the language between white space, and the double
nearest to the number they denote.
-/

namespace NycPropertyResolver

/-- A number of the language; the sign of zero is not kept. -/
inductive JsNumber where
  | nan
  | infinity (negative : Bool)
  | finite (value : Rat)
  deriving DecidableEq

/-- `Number.MAX_SAFE_INTEGER`. -/
def maxSafeInteger : Nat := 2 ^ 53 - 1

/-! ### Rounding -/

/-- `2 ^ e`. -/
def pow2 (e : Int) : Rat :=
  if 0 ≤ e then (2 ^ e.toNat : Nat) else 1 / (2 ^ (-e).toNat : Nat)

/-- The greatest `e` with `2 ^ e ≤ q`, for a positive `q`. -/
def log2Floor (q : Rat) : Int :=
  let e : Int := (Nat.log2 q.num.natAbs : Int) - Nat.log2 q.den
  if pow2 e ≤ q then e else e - 1

/-- The nearest integer, to even where there are two. -/
def roundHalfEven (q : Rat) : Int :=
  let below := q.floor
  let rest := q - below
  if rest < 1 / 2 then below
  else if 1 / 2 < rest then below + 1
  else if below % 2 = 0 then below
  else below + 1

/-- The double nearest to a rational number: 53 bits, and exponents from -1022 to 1023. -/
def roundToDouble (q : Rat) : JsNumber :=
  if q = 0 then
    .finite 0
  else
    let magnitude := if q < 0 then -q else q
    let unit := pow2 (max (log2Floor magnitude) (-1022) - 52)
    let rounded := roundHalfEven (magnitude / unit) * unit
    if pow2 1024 ≤ rounded then .infinity (q < 0)
    else .finite (if q < 0 then -rounded else rounded)

/-! ### Literals -/

/-- The number digits denote in a base, if each is a digit of the base. -/
def digitsInBase (base : Nat) (digitOf : Char → Option Nat) : List Char → Option Nat
  | [] => none
  | cs => cs.foldlM (fun n c => (digitOf c).map fun d => base * n + d) 0

/-- A digit, up to `f` for 15. -/
def hexDigitValue (c : Char) : Option Nat :=
  if c.isDigit then some (c.toNat - 48)
  else if 97 ≤ c.toNat ∧ c.toNat ≤ 102 then some (c.toNat - 87)
  else if 65 ≤ c.toNat ∧ c.toNat ≤ 70 then some (c.toNat - 55)
  else none

/-- The value of a digit of the given base. -/
def digitBelow (base : Nat) (c : Char) : Option Nat :=
  (hexDigitValue c).filter fun d => d < base

/-- An optional sign. -/
def splitSign : List Char → Bool × List Char
  | '-' :: cs => (true, cs)
  | '+' :: cs => (false, cs)
  | cs => (false, cs)

/-- The exponent part, up to the end of the literal; 0 where there is none. -/
def exponentPart : List Char → Option Int
  | [] => some 0
  | c :: cs =>
    if c = 'e' ∨ c = 'E' then
      let (negative, digits) := splitSign cs
      (digitsInBase 10 (digitBelow 10) digits).map fun n => if negative then -(n : Int) else n
    else
      none

/-- `10 ^ e`. -/
def pow10 (e : Int) : Rat :=
  if 0 ≤ e then (10 ^ e.toNat : Nat) else 1 / (10 ^ (-e).toNat : Nat)

/-- A decimal literal without its sign: digits, a fraction, an exponent. -/
def decimalLiteral (cs : List Char) : Option Rat :=
  let (whole, rest) := cs.span Char.isDigit
  let (fraction, rest) := match rest with
    | '.' :: rest => rest.span Char.isDigit
    | _ => ([], rest)
  if whole.isEmpty && fraction.isEmpty then
    none
  else
    (exponentPart rest).map fun e =>
      (digitsValue (whole ++ fraction) : Rat) * pow10 (e - fraction.length)

/-- `Number(text)`. -/
def toNumber (text : String) : JsNumber :=
  let integer (n : Option Nat) : JsNumber := match n with
    | some n => roundToDouble n
    | none => .nan
  match trimChars text.toList with
  | [] => .finite 0
  | '0' :: 'x' :: cs | '0' :: 'X' :: cs => integer (digitsInBase 16 (digitBelow 16) cs)
  | '0' :: 'o' :: cs | '0' :: 'O' :: cs => integer (digitsInBase 8 (digitBelow 8) cs)
  | '0' :: 'b' :: cs | '0' :: 'B' :: cs => integer (digitsInBase 2 (digitBelow 2) cs)
  | cs =>
    let (negative, digits) := splitSign cs
    if digits = "Infinity".toList then
      .infinity negative
    else
      match decimalLiteral digits with
      | some q => roundToDouble (if negative then -q else q)
      | none => .nan

example : toNumber " 2.5e3 " = .finite 2500 := by decide +kernel

example : toNumber "9007199254740993" = .finite 9007199254740992 := by decide +kernel

end NycPropertyResolver
