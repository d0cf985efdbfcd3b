import HostBindings.Json.Value

/-
  Numerals of JSON texts.

  An integer that fits 64 bits is kept as it is.  Any other
  numeral becomes a double: its leading digits are gathered
  in a 64-bit significand, and the result is scaled by one
  power of ten.

  Key definitions include:
    * `Numeral`
    * `Numeral.ofChars?`
    * `Numeral.significand`
    * `Numeral.scaled?`
    * `Numeral.value?`
-/

------------------------------------------------------------
-- Grammar
------------------------------------------------------------

namespace HostBindings

/- The parts of a numeral as written. -/
structure Numeral where
  negative : Bool
  whole : List Nat
  fraction : List Nat
  exponent : Option (Bool × List Nat)
deriving DecidableEq, Repr

namespace Numeral

/- The value of a decimal digit. -/
def digitValue (c : Char) : Nat :=
  c.toNat - '0'.toNat

/- The digits in front, and what follows them. -/
def takeDigits (cs : List Char) : List Nat × List Char :=
  ((cs.takeWhile Char.isDigit).map digitValue,
    cs.dropWhile Char.isDigit)

/- A sign in front, and what follows it. -/
def takeSign (cs : List Char) : Bool × List Char :=
  match cs with
  | '-' :: rest => (true, rest)
  | '+' :: rest => (false, rest)
  | rest => (false, rest)

/- The whole part: no digit may follow a zero in front. -/
def takeWhole?
    (cs : List Char) : Option (List Nat × List Char) :=
  match takeDigits cs with
  | ([], _) => none
  | (0 :: _ :: _, _) => none
  | parts => some parts

/- The digits after the point, if there is a point. -/
def takeFraction?
    (cs : List Char) : Option (List Nat × List Char) :=
  match cs with
  | '.' :: rest =>
      match takeDigits rest with
      | ([], _) => none
      | parts => some parts
  | rest => some ([], rest)

/- The exponent, which must be all that is left. -/
def takeExponent?
    (cs : List Char) : Option (Option (Bool × List Nat)) :=
  match cs with
  | [] => some none
  | c :: rest =>
      if c = 'e' ∨ c = 'E' then
        let (negative, rest) := takeSign rest
        match takeDigits rest with
        | (d :: ds, []) => some (some (negative, d :: ds))
        | _ => none
      else
        none

/- Read a numeral that takes up the whole text. -/
def ofChars? (cs : List Char) : Option Numeral := do
  let (negative, cs) :=
    match cs with
    | '-' :: rest => (true, rest)
    | rest => (false, rest)
  let (whole, cs) ← takeWhole? cs
  let (fraction, cs) ← takeFraction? cs
  let exponent ← takeExponent? cs
  return ⟨negative, whole, fraction, exponent⟩

------------------------------------------------------------
-- Significand
------------------------------------------------------------

/- The largest significand. -/
def maxSignificand : Nat :=
  0xFFFFFFFFFFFFFFFF

/-
  Append whole digits as long as the significand fits; the
  second part counts the digits left over.
-/
def gatherWhole : Nat → List Nat → Nat × Nat
| s, [] => (s, 0)
| s, d :: ds =>
    if s * 10 + d ≤ maxSignificand then
      gatherWhole (s * 10 + d) ds
    else
      (s, ds.length + 1)

/-
  Append digits after the point as long as the significand
  fits; the second part counts the digits appended.
-/
def gatherFraction : Nat → List Nat → Nat × Nat
| s, [] => (s, 0)
| s, d :: ds =>
    if s * 10 + d ≤ maxSignificand then
      let (t, n) := gatherFraction (s * 10 + d) ds
      (t, n + 1)
    else
      (s, 0)

/- The number that digits spell. -/
def ofDigits (ds : List Nat) : Nat :=
  ds.foldl (fun n d => n * 10 + d) 0

/- The significand and the power of ten of the digits. -/
def significand (x : Numeral) : Nat × Int :=
  let (s, left) := gatherWhole 0 x.whole
  let (s, taken) := gatherFraction s x.fraction
  (s, (left : Int) - taken)

------------------------------------------------------------
-- Value
------------------------------------------------------------

/- A power of ten as a double. -/
def powerOfTen (n : Nat) : Float :=
  Float.ofScientific 1 false n

/-
  Divide by a power of ten, at most `10 ^ 308` at a time; a
  zero stays as it is.
-/
def divideBy (f : Float) (n : Nat) : Float :=
  if n ≤ 308 then
    f / powerOfTen n
  else if f == 0 then
    f
  else
    divideBy (f / powerOfTen 308) (n - 308)
termination_by n

/-
  A significand times a power of ten, unless it is too large
  for a double.
-/
def scaled? (s : Nat) (exponent : Int) : Option Float :=
  let f := s.toUInt64.toFloat
  if exponent < 0 then
    some (divideBy f exponent.natAbs)
  else if exponent ≤ 308 then
    let product := f * powerOfTen exponent.natAbs
    if product.isInf then none else some product
  else if s = 0 then
    some f
  else
    none

/- A double with the given sign. -/
def signed (negative : Bool) (f : Float) : Number :=
  .double (if negative then -f else f).toBits

/-
  A written exponent of more than 31 bits makes zero of a
  fraction or of a zero, and is too large otherwise.
-/
def double? (x : Numeral) : Option Number :=
  let (s, power) := x.significand
  match x.exponent with
  | none => (scaled? s power).map (signed x.negative)
  | some (down, digits) =>
      let n := ofDigits digits
      if 0x80000000 ≤ n then
        if s ≠ 0 ∧ ¬ down then
          none
        else
          some (signed x.negative 0)
      else
        let power := if down then power - n else power + n
        (scaled? s power).map (signed x.negative)

/- The largest magnitude of a negative integer. -/
def maxNegative : Nat :=
  0x8000000000000000

/- The number a numeral stands for. -/
def value? (x : Numeral) : Option Number :=
  let n := ofDigits x.whole
  if x.fraction = [] ∧ x.exponent = none then
    if ¬ x.negative ∧ n ≤ maxSignificand then
      some (.integer n)
    else if x.negative ∧ 0 < n ∧ n ≤ maxNegative then
      some (.integer (-n))
    else
      x.double?
  else
    x.double?

end Numeral

end HostBindings
