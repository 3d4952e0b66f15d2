import NoteDigest.Number.Shortest

/-! # Integral doubles — the integer that a double denotes exactly -/

namespace NoteDigest.Number

/-- The natural number `m · 2^e`, if it is one. -/
def Binary.natural? (v : Binary) : Option Nat :=
  if 0 ≤ v.exponent then some (v.mantissa * Nat.pow 2 v.exponent.toNat)
  else
    let unit := Nat.pow 2 (-v.exponent).toNat
    if v.mantissa % unit == 0 then some (v.mantissa / unit) else none

/-- The integer that a double denotes; none for fractions, infinities and NaN. -/
def integer? (x : Float) : Option Int :=
  match magnitude? x with
  | some v => v.natural?.map fun n => if isNegative x then -(n : Int) else (n : Int)
  | none => if x.isNaN || x.isInf then none else some 0

/-- The integers of 64 bits with a sign. -/
def isWord64 (n : Int) : Bool :=
  -9223372036854775808 ≤ n && n ≤ 9223372036854775807

end NoteDigest.Number
