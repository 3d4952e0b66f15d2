import NoteDigest.Number.Shortest

/-! # The text of a double

    A double is written in the fewest digits that read back as it: positionally, with
    at least one digit on both sides of the point, when its first digit stands for a
    power of ten from 10^-4 to 10^15, else as a mantissa and an exponent of at least
    two digits with its sign.  The zeros keep their sign; the others are `inf`, `-inf`
    and `nan`. -/

namespace NoteDigest.Number

/-- The digits of a positive decimal without trailing zeros, and the power of ten its
    first digit stands for. -/
def Decimal.normal (d : Decimal) : Text × Int :=
  let all := Text.ofNat d.digits
  (Text.dropEndWhile (· == '0') all, d.exponent + (all.length - 1 : Nat))

/-- A positive decimal in positional or exponent form. -/
def Decimal.text (d : Decimal) : Text :=
  let (digits, power) := d.normal
  if power < -4 ∨ 16 ≤ power then
    let mantissa :=
      match digits with
      | first :: second :: rest => first :: '.' :: second :: rest
      | one => one
    let sign := if power < 0 then '-' else '+'
    mantissa ++ 'e' :: sign :: Text.padded 2 power.natAbs
  else if power < 0 then
    '0' :: '.' :: List.replicate (-power - 1).toNat '0' ++ digits
  else
    let whole := digits.take (power.toNat + 1)
    let missing := power.toNat + 1 - whole.length
    let decimals := digits.drop (power.toNat + 1)
    whole ++ List.replicate missing '0' ++ '.' :: (if decimals.isEmpty then ['0'] else decimals)

/-- The text of a double. -/
def floatText (x : Float) : Text :=
  let sign := if isNegative x then ['-'] else []
  if x.isNaN then "nan".toList
  else if x.isInf then sign ++ "inf".toList
  else
    match magnitude? x with
    | some v => sign ++ v.shortest.text
    | none => sign ++ "0.0".toList

end NoteDigest.Number
