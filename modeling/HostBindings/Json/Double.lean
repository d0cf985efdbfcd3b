/-
  Doubles as decimal text.

  A finite double stands for the reals that round to it.  It
  is written with the fewest digits that name one of these
  reals, and with the nearest such decimal; of two equally
  near ones the even one is taken.

  Key definitions include:
    * `Double.Binary`
    * `Double.ofBits`
    * `Double.Decimal`
    * `Double.shortest`
    * `Double.render`
-/

------------------------------------------------------------
-- Binary Form
------------------------------------------------------------

namespace HostBindings

namespace Double

/-
  The magnitude `mantissa * 2 ^ exponent`, and whether the
  double below is only half as far away as the one above.
-/
structure Binary where
  mantissa : Nat
  exponent : Int
  closeBelow : Bool
deriving DecidableEq, Repr

/- Whether the sign bit is set. -/
def isNegative (bits : UInt64) : Bool :=
  0x8000000000000000 ≤ bits.toNat

/- The leading bit of a mantissa, which is not stored. -/
def leadingBit : Nat :=
  0x10000000000000

/-
  The magnitude of a finite double: 52 bits of the mantissa,
  and above them 11 bits of the exponent.
-/
def ofBits (bits : UInt64) : Binary :=
  let field : Nat := bits.toNat / leadingBit % 0x800
  let fraction : Nat := bits.toNat % leadingBit
  if field = 0 then
    ⟨fraction, -1074, false⟩
  else
    ⟨leadingBit + fraction, (field : Int) - 1075,
      fraction == 0 && 1 < field⟩

------------------------------------------------------------
-- Shortest Decimal
------------------------------------------------------------

/- The magnitude `digits * 10 ^ exponent`. -/
structure Decimal where
  digits : Nat
  exponent : Int
deriving DecidableEq, Repr

/- A power of two, which is one for negative exponents. -/
def powerOfTwo (exponent : Int) : Nat :=
  Nat.pow 2 exponent.toNat

/- A power of ten, which is one for negative exponents. -/
def powerOfTen (exponent : Int) : Nat :=
  Nat.pow 10 exponent.toNat

/- How many decimal digits a number has. -/
def digitCount (n : Nat) : Nat :=
  (Nat.toDigits 10 n).length

/-
  The exponent of the leading digit of a positive quotient.
-/
def leadingExponent (num den : Nat) : Int :=
  if den ≤ num then
    (digitCount (num / den) : Int) - 1
  else
    -(digitCount ((den + num - 1) / num - 1) : Int)

/-
  The multiples of a grid next to a value that lie between
  two bounds, all four over one denominator.  The nearer one
  wins, and of two equally near ones the even one.
-/
def nearestOnGrid
    (value low high : Nat)
    (closed : Bool)
    (grid : Nat) : Option Nat :=
  let below := value / grid
  let above := below + 1
  let inside (n : Nat) : Bool :=
    if closed then
      low ≤ n * grid && n * grid ≤ high
    else
      low < n * grid && n * grid < high
  let down := value - below * grid
  let up := above * grid - value
  if inside below && inside above then
    if down < up || (down == up && below % 2 == 0) then
      some below
    else
      some above
  else if inside below then
    some below
  else if inside above then
    some above
  else
    none

/-
  The decimal of at most `count` digits, if one rounds to the
  given double.  The bounds are half way to the neighbours;
  they count if the mantissa is even.
-/
def decimalOf?
    (b : Binary)
    (count : Nat) : Option Decimal :=
  let unit := powerOfTwo b.exponent
  let num := 4 * b.mantissa * unit
  let den := 4 * powerOfTwo (-b.exponent)
  let lead := leadingExponent num den
  let exponent := lead + 1 - count
  let scale := powerOfTen (-exponent)
  let grid := powerOfTen exponent * den
  let low := num - (if b.closeBelow then 1 else 2) * unit
  let high := num + 2 * unit
  (nearestOnGrid (num * scale) (low * scale) (high * scale)
    (b.mantissa % 2 == 0) grid).map fun n => ⟨n, exponent⟩

/- A decimal without zeros at the end. -/
def Decimal.stripped (d : Decimal) : Decimal :=
  let zeros :=
    ((Nat.toDigits 10 d.digits).reverse.takeWhile
      (· == '0')).length
  ⟨d.digits / powerOfTen zeros, d.exponent + zeros⟩

/- The shortest decimal of a positive double. -/
def shortest (b : Binary) : Decimal :=
  match ((List.range 17).findSome? fun i =>
      decimalOf? b (i + 1)) with
  | some d => d.stripped
  | none => ⟨b.mantissa, b.exponent⟩

------------------------------------------------------------
-- Notation
------------------------------------------------------------

/- A run of zeros. -/
def zeros (n : Nat) : String :=
  String.ofList (List.replicate n '0')

/-
  Decimals from `0.00001` up to sixteen digits in front of
  the point are written in full, with at least one digit
  after the point; others with an exponent.
-/
def Decimal.render (d : Decimal) : String :=
  let digits := Nat.toDigits 10 d.digits
  let point := (digits.length : Int) + d.exponent
  if 0 ≤ d.exponent ∧ point ≤ 16 then
    String.ofList digits ++ zeros d.exponent.toNat ++ ".0"
  else if 0 < point ∧ point ≤ 16 then
    String.ofList (digits.take point.toNat) ++ "." ++
      String.ofList (digits.drop point.toNat)
  else if -5 < point ∧ point ≤ 0 then
    "0." ++ zeros (-point).toNat ++ String.ofList digits
  else
    let lead := String.ofList (digits.take 1)
    let rest := String.ofList (digits.drop 1)
    let fraction := if rest = "" then "" else "." ++ rest
    let power := point - 1
    let sign := if power < 0 then "-" else "+"
    lead ++ fraction ++ "e" ++ sign ++
      toString power.natAbs

/- The text of a finite double. -/
def render (bits : UInt64) : String :=
  let b := ofBits bits
  let sign := if isNegative bits then "-" else ""
  if b.mantissa = 0 then
    sign ++ "0.0"
  else
    sign ++ (shortest b).render

end Double

end HostBindings
