import NoteDigest.Text.Basic
import NoteDigest.Text.Numeral

/-! # Options — reading the arguments of a command

    A command takes options only.  An option has a long name; one that takes no value may
    have a short name of one letter too, and such letters may stand in a row behind one
    dash.  A value follows its option, or stands behind an equals sign in the same
    argument.  A long name may be cut short as long as it is the start of no other.

    `classify` says what an argument is on its own, `events` what the arguments ask for one
    after the other, and `read` what they come to: values, a wish for help, or misuse. -/

namespace NoteDigest.Console

/-- An option that a command takes. -/
structure OptionForm (κ : Type) where
  key : κ
  /-- The long name, with its two dashes. -/
  long : Text
  /-- The letter of the short name. -/
  short : Option Char := none
  takesValue : Bool := false

/-- The options of a command, one of which asks for help. -/
structure Command (κ : Type) where
  forms : List (OptionForm κ)
  help : κ

/-- What an argument is on its own. -/
inductive Word (κ : Type)
  /-- No option: the value of one, or out of place. -/
  | plain
  /-- A long name, with what stands behind its equals sign. -/
  | long (form : OptionForm κ) (given : Option Text)
  /-- A short name, with the letters in a row behind it. -/
  | short (form : OptionForm κ) (row : Text)
  /-- An option that the command does not take. -/
  | unknown
  /-- A name cut so short that it is the start of several. -/
  | ambiguous
  /-- The two dashes behind which no argument is an option. -/
  | separator

/-- What arguments ask for. -/
inductive Event (κ : Type)
  | put (key : κ) (value : Text)
  /-- Something out of place, complained of only at the end. -/
  | stray
  /-- Something wrong, complained of at once. -/
  | wrong
  deriving DecidableEq

/-- What all arguments come to. -/
inductive Reading (κ : Type)
  | values (given : List (κ × Text))
  | help
  | misuse
  deriving DecidableEq

namespace Command

variable {κ : Type}

/-! ## Single arguments -/

/-- The option with a short name. -/
def short? (command : Command κ) (letter : Char) : Option (OptionForm κ) :=
  command.forms.find? (·.short == some letter)

/-- A text that writes a negative number. -/
def isNegativeNumber (text : Text) : Bool :=
  match (Text.before? ['\n'] text).getD text with
  | '-' :: number =>
      let fraction := number.dropWhile Text.isDecimal
      match fraction with
      | [] => !number.isEmpty
      | '.' :: decimals => !decimals.isEmpty && decimals.all Text.isDecimal
      | _ => false
  | _ => false

/-- What an argument is that starts with a dash but names no option. -/
def unnamed (argument : Text) : Word κ :=
  if isNegativeNumber argument || argument.contains ' ' then .plain else .unknown

/-- What an argument is that starts with two dashes. -/
def classifyLong (command : Command κ) (argument : Text) : Word κ :=
  let name := argument.takeWhile (· != '=')
  let given :=
    match argument.dropWhile (· != '=') with
    | [] => none
    | _ :: value => some value
  match command.forms.find? (·.long == argument), command.forms.find? (·.long == name) with
  | some form, _ => .long form none
  | none, some form => .long form given
  | none, none =>
      match command.forms.filter (name.isPrefixOf ·.long) with
      | [] => unnamed argument
      | [form] => .long form given
      | _ => .ambiguous

/-- What an argument is. -/
def classify (command : Command κ) (argument : Text) : Word κ :=
  match argument with
  | ['-', '-'] => .separator
  | '-' :: '-' :: _ => command.classifyLong argument
  | '-' :: letter :: row =>
      match command.short? letter with
      | some form => .short form row
      | none => unnamed argument
  | _ => .plain

/-- The arguments with what each of them is. -/
def words (command : Command κ) : List Text → List (Text × Word κ)
  | [] => []
  | argument :: rest =>
      match command.classify argument with
      | .separator => (argument, .separator) :: rest.map (·, .plain)
      | word => (argument, word) :: command.words rest

/-! ## Usage -/

/-- An option as it is shown to a reader. -/
def formUsage (form : OptionForm κ) : Text :=
  [' ', '['] ++ form.long ++ (if form.takesValue then " VALUE]".toList else [']'])

/-- How the command is called. -/
def usage (command : Command κ) (name : Text) : Text :=
  "usage: ".toList ++ name ++ command.forms.flatMap formUsage

/-! ## Arguments together -/

/-- What a row of letters asks for; none if it is wrong. -/
def rowEvents (command : Command κ) : Text → Option (List (Event κ))
  | [] => some []
  | letter :: row =>
      if letter == '-' || letter == '=' then none
      else
        match command.short? letter with
        | some form => (.put form.key [] :: ·) <$> command.rowEvents row
        | none => some [.stray]

/-- What arguments ask for, one after the other, up to the first that is wrong. -/
def events (command : Command κ) : List (Text × Word κ) → List (Event κ)
  | [] => []
  | (_, .long form none) :: rest =>
      if form.takesValue then
        match rest with
        | (value, .plain) :: rest => .put form.key value :: command.events rest
        | _ => [.wrong]
      else .put form.key [] :: command.events rest
  | (_, .long form (some value)) :: rest =>
      if form.takesValue then .put form.key value :: command.events rest else [.wrong]
  | (_, .short form row) :: rest =>
      match command.rowEvents row with
      | some others => .put form.key [] :: others ++ command.events rest
      | none => [.wrong]
  | (_, .ambiguous) :: _ => [.wrong]
  | (_, .plain) :: rest | (_, .unknown) :: rest | (_, .separator) :: rest =>
      .stray :: command.events rest

/-- An argument that is wrong wherever it stands. -/
def isAmbiguous : Text × Word κ → Bool
  | (_, .ambiguous) => true
  | _ => false

/-- The value that an event puts. -/
def valueOf? : Event κ → Option (κ × Text)
  | .put key value => some (key, value)
  | _ => none

variable [DecidableEq κ]

/-- The event ends the reading. -/
def isFinal (command : Command κ) : Event κ → Bool
  | .put key _ => key = command.help
  | .wrong => true
  | .stray => false

/-- What all arguments come to. -/
def read (command : Command κ) (arguments : List Text) : Reading κ :=
  let words := command.words arguments
  if words.any isAmbiguous then .misuse
  else
    let events := command.events words
    match events.find? command.isFinal with
    | some .wrong => .misuse
    | some _ => .help
    | none => if events.contains .stray then .misuse else .values (events.filterMap valueOf?)

end Command

/-- The last value given for an option. -/
def lastValue? {κ : Type} [DecidableEq κ] (given : List (κ × Text)) (key : κ) : Option Text :=
  given.reverse.lookup key

/-- An option without value is given. -/
def isGiven {κ : Type} [DecidableEq κ] (given : List (κ × Text)) (key : κ) : Bool :=
  (lastValue? given key).isSome

end NoteDigest.Console
