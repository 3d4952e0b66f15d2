import NoteDigest.Json.Reader
import NoteDigest.Text.Utf8

/-! # Encodings of JSON — from the bytes of a document to its characters

    A document comes in UTF-8, UTF-16 or UTF-32.  It starts with an ASCII character, so
    that the zero bytes among its first four tell which encoding it is in. -/

namespace NoteDigest.Json

/-- How bytes stand for characters. -/
inductive Encoding
  | utf8
  | utf16 (bigEndian : Bool)
  | utf32 (bigEndian : Bool)
  deriving Repr, DecidableEq

/-- The encoding that the first bytes of a document show. -/
def Encoding.ofBytes : List Nat → Encoding
  | [0, _] => .utf16 true
  | [_, 0] => .utf16 false
  | 0 :: 0 :: _ :: _ :: _ => .utf32 true
  | 0 :: _ :: _ :: _ :: _ => .utf16 true
  | _ :: 0 :: 0 :: 0 :: _ => .utf32 false
  | _ :: 0 :: _ :: _ :: _ => .utf16 false
  | _ => .utf8

/-- The number that some bytes write. -/
def byteNumber (bigEndian : Bool) (bytes : List Nat) : Nat :=
  (if bigEndian then bytes else bytes.reverse).foldl (fun n b => n * 256 + b) 0

/-- The numbers that pairs of bytes write; none if a byte is left over. -/
def pairNumbers? (bigEndian : Bool) : List Nat → Option (List Nat)
  | [] => some []
  | a :: b :: rest => (pairNumbers? bigEndian rest).map (byteNumber bigEndian [a, b] :: ·)
  | _ => none

/-- The numbers that groups of four bytes write; none if bytes are left over, or if a number
    is above all code points. -/
def quadNumbers? (bigEndian : Bool) : List Nat → Option (List Nat)
  | [] => some []
  | a :: b :: c :: d :: rest =>
      let n := byteNumber bigEndian [a, b, c, d]
      if 0x10FFFF < n then none else (quadNumbers? bigEndian rest).map (n :: ·)
  | _ => none

/-- The character that may mark a text as Unicode at its start. -/
def byteOrderMark : Char := '\uFEFF'

/-- The characters of a document whose bytes, taken as UTF-8, are a text. -/
def decode? (document : Text) : Option Text :=
  let bytes := (Text.toUtf8 document).toList.map UInt8.toNat
  match Encoding.ofBytes bytes with
  | .utf8 => some ((Text.after? [byteOrderMark] document).getD document)
  | .utf16 bigEndian => (pairNumbers? bigEndian bytes).map joinUnits
  | .utf32 bigEndian => (quadNumbers? bigEndian bytes).map (·.map loneUnit)

end NoteDigest.Json
