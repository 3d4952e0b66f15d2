import NoteDigest.Json.Basic
import NoteDigest.Number.FloatText

/-! # Writing JSON

    `render` writes a value on one line, with every character outside the printable
    ASCII range as an escape; a character above U+FFFF is a pair of escapes. -/

namespace NoteDigest.Json

/-- Four hexadecimal digits. -/
def hex4 (n : Nat) : Text :=
  Text.hex 4 n

/-- A character as it stands inside a string. -/
def escapeChar (c : Char) : Text :=
  if c == '"' then ['\\', '"']
  else if c == '\\' then ['\\', '\\']
  else if 0x20 ≤ c.toNat && c.toNat ≤ 0x7E then [c]
  else if c.toNat < 0x10000 then '\\' :: 'u' :: hex4 c.toNat
  else
    let n := c.toNat - 0x10000
    '\\' :: 'u' :: hex4 (0xD800 + n / 0x400) ++ '\\' :: 'u' :: hex4 (0xDC00 + n % 0x400)

/-- A text between quotes. -/
def quote (text : Text) : Text :=
  '"' :: text.flatMap escapeChar ++ ['"']

/-- The digits of an integer with its sign. -/
def integerText (n : Int) : Text :=
  if n < 0 then '-' :: Text.ofNat n.natAbs else Text.ofNat n.natAbs

/-- A double: NaN and the infinities by their names. -/
def realText (x : Float) : Text :=
  if x.isNaN then "NaN".toList
  else if x.isInf then (if x < 0 then "-Infinity".toList else "Infinity".toList)
  else Number.floatText x

mutual

/-- A value on one line. -/
def render : Json → Text
  | .null => "null".toList
  | .bool true => "true".toList
  | .bool false => "false".toList
  | .int n => integerText n
  | .real x => realText x
  | .text t => quote t
  | .list items => '[' :: renderItems items ++ [']']
  | .object members => '{' :: renderMembers members ++ ['}']

/-- The items of a list with commas between them. -/
def renderItems : List Json → Text
  | [] => []
  | [item] => render item
  | item :: rest => render item ++ ',' :: ' ' :: renderItems rest

/-- The members of an object with commas between them. -/
def renderMembers : List (Text × Json) → Text
  | [] => []
  | [(name, value)] => quote name ++ ':' :: ' ' :: render value
  | (name, value) :: rest =>
      quote name ++ ':' :: ' ' :: render value ++ ',' :: ' ' :: renderMembers rest

end

end NoteDigest.Json
