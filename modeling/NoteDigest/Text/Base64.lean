import NoteDigest.Text.Basic

/-! # Base 64 — four characters for three bytes

    The reader is lenient: characters outside the alphabet are passed over, and it
    stops at padding that completes a group.  What it does refuse is an unfinished
    group at the end of the text. -/

namespace NoteDigest.Text

/-- The six bits a character of the alphabet stands for. -/
def base64Value? (c : Char) : Option Nat :=
  if 'A' ≤ c && c ≤ 'Z' then some (c.toNat - 'A'.toNat)
  else if 'a' ≤ c && c ≤ 'z' then some (c.toNat - 'a'.toNat + 26)
  else if '0' ≤ c && c ≤ '9' then some (c.toNat - '0'.toNat + 52)
  else if c == '+' then some 62
  else if c == '/' then some 63
  else none

/-- The place inside a group of four characters, with the bits left over from the
    characters before it. -/
inductive Base64Place
  | first
  | second (high : Nat)
  | third (high : Nat)
  | fourth (high : Nat)

/-- How many characters of the group have been read. -/
def Base64Place.index : Base64Place → Nat
  | .first => 0
  | .second _ => 1
  | .third _ => 2
  | .fourth _ => 3

/-- The bytes from a place in a group on, `pads` being the padding characters just read. -/
def base64From : Base64Place → (pads : Nat) → Text → Option (List UInt8)
  | .first, _, [] => some []
  | _, _, [] => none
  | place, pads, c :: rest =>
      if c == '=' then
        if 2 ≤ place.index then
          if 4 ≤ place.index + (pads + 1) then some []
          else base64From place (pads + 1) rest
        else base64From place pads rest
      else
        match base64Value? c, place with
        | none, _ => base64From place pads rest
        | some bits, .first => base64From (.second bits) 0 rest
        | some bits, .second high =>
            (UInt8.ofNat (high * 4 + bits / 16) :: ·) <$> base64From (.third (bits % 16)) 0 rest
        | some bits, .third high =>
            (UInt8.ofNat (high * 16 + bits / 4) :: ·) <$> base64From (.fourth (bits % 4)) 0 rest
        | some bits, .fourth high =>
            (UInt8.ofNat (high * 64 + bits) :: ·) <$> base64From .first 0 rest

/-- The bytes a text in base 64 stands for, unless its last group is unfinished. -/
def ofBase64? (text : Text) : Option (List UInt8) :=
  base64From .first 0 text

end NoteDigest.Text
