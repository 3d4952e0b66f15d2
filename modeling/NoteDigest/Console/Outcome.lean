import NoteDigest.Workspace.Settings

/-! # Outcomes — how a command ends -/

namespace NoteDigest.Console

/-- The way a command ends. -/
inductive Exit
  /-- It has done what was asked. -/
  | done
  /-- It has told how it is used. -/
  | help
  /-- Its arguments make no sense. -/
  | misuse
  /-- It gives up with a message. -/
  | refusal (message : Text)
  deriving Repr, DecidableEq

/-- The end of a command, and what it has printed. -/
structure Outcome where
  printed : Text := []
  exit : Exit
  deriving Repr, DecidableEq

/-- The command has printed a text. -/
def Outcome.print (text : Text) : Outcome :=
  ⟨text, .done⟩

/-- The command has printed a line. -/
def Outcome.printLine (line : Text) : Outcome :=
  .print (line ++ ['\n'])

/-- The command gives up. -/
def Outcome.refuse (message : Text) : Outcome :=
  ⟨[], .refusal message⟩

end NoteDigest.Console
