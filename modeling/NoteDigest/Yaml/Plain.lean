import NoteDigest.Yaml.Node

/-! # Plain scalars — the type that a text without quotes implies

    The forms of YAML 1.1: truth values in words, integers in four bases and in
    sixties, floats that need a point, dates and times.  A newline at the very end of
    the text is overlooked.  Every other text is a string. -/

namespace NoteDigest.Yaml

/-! ## Matching from the left

    A matcher gives the text behind what it accepts at the front. -/

/-- One character of a class. -/
def one? (p : Char → Bool) : Text → Option Text
  | c :: rest => if p c then some rest else none
  | [] => none

/-- One or two characters of a class. -/
def oneOrTwo? (p : Char → Bool) (text : Text) : Option Text := do
  let rest ← one? p text
  return (one? p rest).getD rest

/-- The text behind an optional sign. -/
def skipSign : Text → Text
  | '+' :: rest | '-' :: rest => rest
  | text => text

/-- A digit or an underscore. -/
def isDigitOrUnderscore (c : Char) : Bool :=
  c.isDigit || c == '_'

/-- Nothing or a final newline. -/
def isOver (text : Text) : Bool :=
  text == [] || text == ['\n']

/-! ## Integers -/

/-- One or more groups of a colon and a number below sixty. -/
def sixties? : (fuel : Nat) → Text → Option Text
  | 0, _ => none
  | fuel + 1, ':' :: text =>
      let group (text : Text) : Option Text :=
        match text with
        | a :: b :: rest =>
            if '0' ≤ a && a ≤ '5' && b.isDigit then some rest
            else if a.isDigit then some (b :: rest) else none
        | [a] => if a.isDigit then some [] else none
        | [] => none
      match group text with
      | some rest => (sixties? fuel rest).or (some rest)
      | none => none
  | _, _ => none

/-- The text is an integer. -/
def looksInt (text : Text) : Bool :=
  let body := skipSign text
  let based (p : Char → Bool) (rest : Text) : Bool :=
    match one? p rest with
    | some more => isOver (more.dropWhile p)
    | none => false
  match body with
  | '0' :: 'b' :: rest => based (fun c => c == '0' || c == '1' || c == '_') rest
  | '0' :: 'x' :: rest =>
      based (fun c => c.isDigit || ('a' ≤ c && c ≤ 'f') || ('A' ≤ c && c ≤ 'F') || c == '_') rest
  | '0' :: rest => isOver rest || based (fun c => ('0' ≤ c && c ≤ '7') || c == '_') rest
  | c :: rest =>
      c.isDigit &&
        let tail := rest.dropWhile isDigitOrUnderscore
        isOver tail || ((sixties? tail.length tail).map isOver).getD false
  | [] => false

/-! ## Floats -/

/-- The text behind an exponent with a sign, if one is there. -/
def skipExponent (text : Text) : Text :=
  match text with
  | e :: s :: rest =>
      if (e == 'e' || e == 'E') && (s == '+' || s == '-') then
        match one? Char.isDigit rest with
        | some more => more.dropWhile Char.isDigit
        | none => text
      else text
  | _ => text

/-- The text is one of some words, perhaps with a newline behind it. -/
def isWord (words : List String) (text : Text) : Bool :=
  words.any fun w => text == w.toList || text == w.toList ++ ['\n']

/-- The text is a float. -/
def looksFloat (text : Text) : Bool :=
  let body := skipSign text
  let special := isWord [".inf", ".Inf", ".INF"] body || isWord [".nan", ".NaN", ".NAN"] text
  let pointed :=
    match one? Char.isDigit body with
    | none => false
    | some more =>
        let tail := more.dropWhile isDigitOrUnderscore
        let plainPoint :=
          match tail with
          | '.' :: decimals => isOver (skipExponent (decimals.dropWhile isDigitOrUnderscore))
          | _ => false
        let inSixties :=
          match sixties? tail.length tail with
          | some ('.' :: decimals) => isOver (decimals.dropWhile isDigitOrUnderscore)
          | _ => false
        plainPoint || inSixties
  let bare :=
    match text with
    | '.' :: decimals =>
        match one? Char.isDigit decimals with
        | some more => isOver (skipExponent (more.dropWhile isDigitOrUnderscore))
        | none => false
    | _ => false
  special || pointed || bare

/-! ## Dates and times -/

/-- A row of `n` digits. -/
def digits? : (n : Nat) → Text → Option Text
  | 0, text => some text
  | n + 1, text => one? Char.isDigit text >>= digits? n

/-- A date alone: four, two and two digits. -/
def looksDate (text : Text) : Bool :=
  let rest := do
    let r ← digits? 4 text >>= one? (· == '-') >>= digits? 2
    one? (· == '-') r >>= digits? 2
  (rest.map isOver).getD false

/-- A space or a tab. -/
def isSpaceOrTab (c : Char) : Bool :=
  c == ' ' || c == '\t'

/-- The gap between a date and a time: a letter T or white space. -/
def dateTimeGap? (text : Text) : Option Text :=
  match text with
  | 'T' :: rest | 't' :: rest => some rest
  | _ => (one? isSpaceOrTab text).map (·.dropWhile isSpaceOrTab)

/-- The text behind a fraction of a second, if one is there. -/
def skipFraction (text : Text) : Text :=
  match text with
  | '.' :: rest => rest.dropWhile Char.isDigit
  | _ => text

/-- A time zone: a letter Z, or a sign, hours and perhaps minutes. -/
def zone? (text : Text) : Option Text :=
  match text with
  | 'Z' :: rest => some rest
  | s :: rest =>
      if s == '+' || s == '-' then do
        let rest ← oneOrTwo? Char.isDigit rest
        return ((one? (· == ':') rest) >>= digits? 2).getD rest
      else none
  | [] => none

/-- A date and a time. -/
def looksDateTime (text : Text) : Bool :=
  let rest := do
    let r ← digits? 4 text >>= one? (· == '-') >>= oneOrTwo? Char.isDigit
    let r ← one? (· == '-') r >>= oneOrTwo? Char.isDigit
    let r ← dateTimeGap? r >>= oneOrTwo? Char.isDigit
    let r ← one? (· == ':') r >>= digits? 2
    let r := skipFraction (← one? (· == ':') r >>= digits? 2)
    let zoned := (zone? (r.dropWhile isSpaceOrTab)).getD r
    return isOver zoned || isOver r
  rest.getD false

/-! ## The implied type -/

/-- The words for true and false in lower case. -/
def truthWords : List (String × Bool) :=
  [("yes", true), ("no", false), ("true", true), ("false", false), ("on", true), ("off", false)]

/-- The three spellings of a word: small, with a capital, in capitals. -/
def spellings (word : String) : List String :=
  [word, word.capitalize, word.toUpper]

/-- The text is a truth value. -/
def looksBool (text : Text) : Bool :=
  isWord (truthWords.flatMap fun (w, _) => spellings w) text

/-- The text is null: nothing, a tilde or the word. -/
def looksNull (text : Text) : Bool :=
  text == [] || isWord ["~", "null", "Null", "NULL"] text

/-- The type a plain scalar has by its text. -/
def Tag.ofPlain (text : Text) : Tag :=
  if looksNull text then .null
  else if looksBool text then .bool
  else if looksFloat text then .float
  else if looksInt text then .int
  else if looksDate text || looksDateTime text then .timestamp
  else if isWord ["<<"] text then .merge
  else if isWord ["="] text then .default
  else if isWord ["!", "&", "*"] text then .unknown
  else .str

end NoteDigest.Yaml
