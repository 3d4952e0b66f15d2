import NoteDigest.Text.Basic

/-! # Shortest decimals — a binary fraction in the fewest digits that read back

    A finite double is `m · 2^q`.  Every real number closer to it than to its
    neighbours reads back as it, the two half-way points included when `m` is even.
    For one, two, three … digits the two decimals next to the value on that grid are
    tried; the first grid with a hit gives the digits, and of two hits the nearer.
    All arithmetic is on natural numbers and therefore exact. -/

namespace NoteDigest.Number

/-- The decimal `digits · 10^exponent`. -/
structure Decimal where
  digits : Nat
  exponent : Int
  deriving Repr, DecidableEq

/-- A positive double as `mantissa · 2^exponent`; `halved` marks a power of two, whose
    lower neighbour is only half as far away as its upper one. -/
structure Binary where
  mantissa : Nat
  exponent : Int
  halved : Bool
  deriving Repr, DecidableEq

/-- A non-negative fraction of natural numbers. -/
structure Fraction where
  num : Nat
  den : Nat

/-- `n · b^e` as a fraction. -/
def Fraction.scaled (n b : Nat) (e : Int) : Fraction :=
  if 0 ≤ e then ⟨n * Nat.pow b e.toNat, 1⟩ else ⟨n, Nat.pow b (-e).toNat⟩

/-- The order of fractions by cross multiplication. -/
def Fraction.lt (a b : Fraction) : Bool :=
  a.num * b.den < b.num * a.den

/-- The largest natural number not above `a / b`. -/
def Fraction.floorDiv (a b : Fraction) : Nat :=
  a.num * b.den / (a.den * b.num)

/-- The decimal `d` lies among the reals that read back as `v`. -/
def Decimal.readsBackAs (d : Decimal) (v : Binary) : Bool :=
  let x := Fraction.scaled d.digits 10 d.exponent
  let low := Fraction.scaled (4 * v.mantissa - (if v.halved then 1 else 2)) 2 (v.exponent - 2)
  let high := Fraction.scaled (4 * v.mantissa + 2) 2 (v.exponent - 2)
  if v.mantissa % 2 == 0 then !x.lt low && !high.lt x
  else low.lt x && x.lt high

/-- The power of ten at or below a value, searched downwards from `10^top`. -/
def leadingPower (v : Fraction) : (steps : Nat) → (top : Int) → Int
  | 0, top => top
  | n + 1, top =>
      if v.lt (Fraction.scaled 1 10 top) then leadingPower v n (top - 1) else top

/-- Of the two grid points around `v` at the grid `10^e`, the one to print, if either
    reads back. -/
def Binary.hit? (v : Binary) (e : Int) : Option Decimal :=
  let x := Fraction.scaled v.mantissa 2 v.exponent
  let below := x.floorDiv (Fraction.scaled 1 10 e)
  let low : Decimal := ⟨below, e⟩
  let high : Decimal := ⟨below + 1, e⟩
  match low.readsBackAs v, high.readsBackAs v with
  | true, true =>
      let middle := Fraction.scaled (2 * below + 1) 10 e
      let twice := Fraction.scaled (2 * v.mantissa) 2 v.exponent
      if middle.lt twice then some high
      else if twice.lt middle then some low
      else if below % 2 == 0 then some low else some high
  | true, false => some low
  | false, true => some high
  | false, false => none

/-- The shortest decimal, searched with `tries` more digits on ever finer grids. -/
def Binary.search (v : Binary) : (tries : Nat) → (e : Int) → Decimal
  | 0, e => ⟨(Fraction.scaled v.mantissa 2 v.exponent).floorDiv (Fraction.scaled 1 10 e), e⟩
  | n + 1, e =>
      match v.hit? e with
      | some d => d
      | none => v.search n (e - 1)

/-- The shortest decimal that reads back as a positive double. -/
def Binary.shortest (v : Binary) : Decimal :=
  v.search 17 (leadingPower (Fraction.scaled v.mantissa 2 v.exponent) 700 309)

/-- The magnitude of a finite double; `none` for zero, infinities and NaN. -/
def magnitude? (x : Float) : Option Binary :=
  let bits := x.toBits.toNat
  let fraction := bits % Nat.pow 2 52
  let field := bits / Nat.pow 2 52 % Nat.pow 2 11
  if field == 2047 then none
  else if field == 0 then
    if fraction == 0 then none else some ⟨fraction, -1074, false⟩
  else some ⟨Nat.pow 2 52 + fraction, Int.ofNat field - 1075, fraction == 0 && decide (1 < field)⟩

/-- The sign bit. -/
def isNegative (x : Float) : Bool :=
  x.toBits.toNat / Nat.pow 2 63 == 1

/-- The double nearest to `digits · 10^exponent`.  Exponents beyond the range of doubles
    are cut off first, which changes no result and keeps the powers small. -/
def ofDecimal (digits : Nat) (exponent : Int) : Float :=
  let reach : Int := 400 + (Text.ofNat digits).length
  let e := max (-reach) (min reach exponent)
  if 0 ≤ e then Float.ofScientific digits false e.toNat
  else Float.ofScientific digits true (-e).toNat

end NoteDigest.Number
