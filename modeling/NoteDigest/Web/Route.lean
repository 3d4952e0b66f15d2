import NoteDigest.Text.Basic

/-! # Routes — what the paths of requests name

    Every path names at most one resource, and every resource takes a few methods.  A
    newline at the very end of a path does not count.  A path that names nothing is sent
    on when it names something once its final slashes are taken off, or once a slash is
    added. -/

namespace NoteDigest.Web

/-- What a path can name. -/
inductive Resource
  /-- The page that lists all notes. -/
  | index
  /-- The page of a note. -/
  | page (path : Text)
  /-- The summary of a directive. -/
  | summary
  /-- The block of a directive. -/
  | directive
  /-- All tags. -/
  | tags
  /-- All notes. -/
  | notes
  /-- A note. -/
  | note (path : Text)
  /-- The stored settings. -/
  | settings
  deriving Repr, DecidableEq

namespace Resource

/-- The resources with one path, and that path. -/
def fixed : List (Text × Resource) :=
  [("/".toList, .index), ("/api/summary".toList, .summary),
   ("/api/directive".toList, .directive), ("/api/tags".toList, .tags),
   ("/api/notes".toList, .notes), ("/api/settings".toList, .settings)]

/-- What starts the path of the page of a note. -/
def pagePath : Text := "/notes/".toList

/-- What starts the path of a note. -/
def notePath : Text := "/api/notes/".toList

/-- The resource that a path of one line names. -/
def ofLine? (line : Text) : Option Resource :=
  match fixed.lookup line with
  | some resource => some resource
  | none =>
      match Text.after? pagePath line, Text.after? notePath line with
      | some path, _ => some (.page path)
      | none, some path => some (.note path)
      | none, none => none

/-- The resource that a path names. -/
def ofPath? (path : Text) : Option Resource :=
  let line := (Text.before? ['\n'] path).getD path
  if line.contains '\n' then none else ofLine? line

/-- A path that names nothing, but does so with another number of slashes at its end. -/
def isNearMiss (path : Text) : Bool :=
  if path.getLast? == some '/' then (ofPath? (Text.dropEndWhile (· == '/') path)).isSome
  else (ofPath? (path ++ ['/'])).isSome

end Resource
end NoteDigest.Web
