import NoteDigest.Text.Blank

/-! # Text — sequences of characters and the cuts made in them

    A text is the list of its characters, so that a function on texts is a recursion
    on the characters that remain.  This file holds the vocabulary the rest of the
    library is written in:

    * `splitWhere` and `joinWith`, which cut a text at separators and glue the pieces
      back, with their uses `lines`, `unlines` and `words`;
    * `trim`, which drops the blanks at both ends;
    * `after?`, which takes off a given beginning;
    * `unixNewlines`, which turns every line ending into a single newline;
    * `le`, the order by code points. -/

namespace NoteDigest

/-- A sequence of Unicode characters. -/
abbrev Text := List Char

namespace Text

/-! ## Cutting and gluing -/

/-- The pieces between the characters that satisfy `sep`; always at least one. -/
def splitWhere (sep : Char → Bool) : Text → List Text
  | [] => [[]]
  | c :: rest =>
      if sep c then [] :: splitWhere sep rest
      else
        match splitWhere sep rest with
        | [] => [[c]]
        | piece :: pieces => (c :: piece) :: pieces

/-- The pieces glued together with one separator between neighbours. -/
def joinWith (sep : Text) : List Text → Text
  | [] => []
  | [piece] => piece
  | piece :: pieces => piece ++ sep ++ joinWith sep pieces

/-- The lines of a text; a final newline is followed by an empty last line. -/
def lines (text : Text) : List Text :=
  splitWhere (· == '\n') text

/-- Lines joined by newlines. -/
def unlines (rows : List Text) : Text :=
  joinWith ['\n'] rows

/-- The maximal runs of characters that are no blanks. -/
def words (text : Text) : List Text :=
  (splitWhere isBlank text).filter fun word => !word.isEmpty

/-! ## Trimming -/

/-- A text without the longest ending whose characters satisfy `p`. -/
def dropEndWhile (p : Char → Bool) : Text → Text
  | [] => []
  | c :: rest =>
      match dropEndWhile p rest with
      | [] => if p c then [] else [c]
      | kept => c :: kept

/-- A text without the blanks at its end. -/
def trimEnd (text : Text) : Text :=
  dropEndWhile isBlank text

/-- A text without the blanks at both ends. -/
def trim (text : Text) : Text :=
  trimEnd (text.dropWhile isBlank)

/-- A text without the white space at both ends. -/
def trimWhiteSpace (text : Text) : Text :=
  dropEndWhile isWhiteSpace (text.dropWhile isWhiteSpace)

/-- A text of blanks only, the empty text included. -/
def isBlankText (text : Text) : Bool :=
  text.all isBlank

/-! ## Beginnings and endings -/

/-- What follows `lead` in a text that starts with it. -/
def after? : (lead text : Text) → Option Text
  | [], text => some text
  | _ :: _, [] => none
  | l :: lead, c :: text => if l = c then after? lead text else none

/-- What comes before `tail` in a text that ends with it. -/
def before? (tail text : Text) : Option Text :=
  (after? tail.reverse text.reverse).map List.reverse

/-- Every occurrence of `old`, from left to right, replaced by `new`; an empty `old`
    occurs nowhere. -/
def replace (old new : Text) (text : Text) : Text :=
  go 0 text
where
  /-- The replacement with `skip` characters of a found occurrence still to pass over. -/
  go (skip : Nat) : Text → Text
    | [] => []
    | c :: rest =>
        match skip with
        | n + 1 => go n rest
        | 0 =>
            match old, after? old (c :: rest) with
            | _ :: others, some _ => new ++ go others.length rest
            | _, _ => c :: go 0 rest

/-! ## Newlines -/

/-- Every line ending, be it CR LF, CR or LF, written as LF. -/
def unixNewlines : Text → Text
  | '\r' :: '\n' :: rest => '\n' :: unixNewlines rest
  | '\r' :: rest => '\n' :: unixNewlines rest
  | c :: rest => c :: unixNewlines rest
  | [] => []

/-! ## Order and numbers -/

/-- The number of bytes that a text takes up in UTF-8. -/
def byteCount : Text → Nat
  | [] => 0
  | c :: rest => c.utf8Size + byteCount rest

/-- The order by code points, a beginning before its extensions. -/
def le : (a b : Text) → Bool
  | [], _ => true
  | _ :: _, [] => false
  | a :: as, b :: bs => a < b || (a == b && le as bs)

/-- ASCII capital letters made small. -/
def asciiLower (text : Text) : Text :=
  text.map Char.toLower

/-- The decimal digits of a number. -/
def ofNat (n : Nat) : Text :=
  Nat.toDigits 10 n

/-- A number in at least `width` digits, with zeros in front. -/
def padded (width n : Nat) : Text :=
  List.replicate (width - (ofNat n).length) '0' ++ ofNat n

/-- A number in at least `width` hexadecimal digits, with zeros in front. -/
def hex (width n : Nat) : Text :=
  let digits := Nat.toDigits 16 n
  List.replicate (width - digits.length) '0' ++ digits

end Text
end NoteDigest
