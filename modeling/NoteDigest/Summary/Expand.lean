import NoteDigest.Summary.Build
import NoteDigest.Directive.Block

/-! # Expansion — a note with its directives replaced by their summaries

    Every block of a text is replaced by the markdown it yields, without the newlines at
    its end, or by the message that there is none.  All other lines stay as they are. -/

namespace NoteDigest

/-- What stands in the place of a block. -/
def Summary.replacement (summary : Summary) : Text :=
  if summary.empty then summary.message.getD emptyMessage
  else Text.dropEndWhile (· == '\n') summary.markdown

/-- The lines with each block replaced by its text; `number` is the number of the first of
    the lines. -/
def splice : (number : Nat) → List Text → List (Directive.Block × Text) → List Text
  | _, lines, [] => lines
  | number, lines, (block, text) :: rest =>
      lines.take (block.first - number) ++ text
        :: splice (block.last + 1) (lines.drop (block.last + 1 - number)) rest

namespace Run

variable {ε α β : Type}

/-- Two runs one after the other; the second is not begun when the first fails. -/
def andThen (a : Run ε α) (b : Run ε β) : Run ε (α × β) :=
  match a.result with
  | .error cause => ⟨.error cause, a.probes, a.reads⟩
  | .ok x => ⟨b.result.map (x, ·), a.probes ++ b.probes, a.reads ++ b.reads⟩

/-- A run with another result. -/
def map (f : α → β) (a : Run ε α) : Run ε β :=
  ⟨a.result.map f, a.probes, a.reads⟩

/-- Runs one after the other, up to the first that fails. -/
def sequence : List (Run ε α) → Run ε (List α)
  | [] => Run.pure []
  | run :: rest => (run.andThen (sequence rest)).map fun (x, xs) => x :: xs

end Run

/-- The text with each of its blocks replaced by what it yields. -/
def Provider.expand {ε : Type} (provider : Provider ε) (text : Text) (layout : Layout) :
    Run ε Text :=
  match Directive.blocks text with
  | [] => Run.pure text
  | blocks =>
      let runs := blocks.map fun block =>
        (provider.summary block.body layout).map fun summary => (block, summary.replacement)
      (Run.sequence runs).map fun parts => Text.unlines (splice 0 (Text.lines text) parts)

end NoteDigest
