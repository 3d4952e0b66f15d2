/-! # Ranges — character classes as tables of code points

    A class of characters is a list of inclusive code point ranges in ascending
    order.  Looking a code point up stops at the first range that starts above it,
    so the common characters at the front of a table are found at once. -/

namespace NoteDigest.Text

/-- Membership of a code point in an ascending table of inclusive ranges. -/
def inRanges : List (Nat × Nat) → Nat → Bool
  | [], _ => false
  | (lo, hi) :: rest, n =>
      if n < lo then false
      else if n ≤ hi then true
      else inRanges rest n

end NoteDigest.Text
