import NoteDigest.Text.Range

/-! # Blanks — the characters that separate words and pad lines

    A blank is a character with the Unicode property White_Space or one of the four
    information separators U+001C to U+001F.  The zero width space, the byte order
    mark and U+180E are no blanks. -/

namespace NoteDigest.Text

/-- Inclusive code point ranges of the blanks, in ascending order. -/
def blankRanges : List (Nat × Nat) :=
  [(0x09, 0x0D), (0x1C, 0x20), (0x85, 0x85), (0xA0, 0xA0), (0x1680, 0x1680),
   (0x2000, 0x200A), (0x2028, 0x2029), (0x202F, 0x202F), (0x205F, 0x205F), (0x3000, 0x3000)]

/-- A blank: white space or an information separator. -/
def isBlank (c : Char) : Bool :=
  inRanges blankRanges c.toNat

/-- White space: a blank that is no information separator. -/
def isWhiteSpace (c : Char) : Bool :=
  isBlank c && !(0x1C ≤ c.toNat && c.toNat ≤ 0x1F)

end NoteDigest.Text
