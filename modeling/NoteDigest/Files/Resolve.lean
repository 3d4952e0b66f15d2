import NoteDigest.Files.Tree

/-! # Resolving — the place that a path stands for

    Resolving takes every link out of a path, and succeeds where following the path would
    fail: a missing name is kept, and `..` takes back whatever name stands before it, be
    it a file or nothing at all.  The way through a link is worked out once and used again
    when the link is met again.  A link that is met while it is still being worked out
    turns in a circle; then the rest of the path is appended as it is written.  The result
    counts unless the system finds a circle on the way to it, or more links had to be open
    at once than there is room for. -/

namespace NoteDigest.Files

/-- The links met so far, and the place of each unless it is still being worked out. -/
abbrev Trail := List (Place × Option Place)

/-- The outcome of taking links out of a path. -/
structure Resolution where
  place : Place
  /-- No circle was met. -/
  clear : Bool
  trail : Trail

/-- The target of the link at a place. -/
def linkAt? (fs : Files) (directory : Place) (name : Name) : Option Text :=
  if fs.hasDirectory directory then
    match fs.get? (directory ++ [name]) with
    | some (.link target) => some target
    | _ => none
  else none

/-- Appends the rest of a path as it is written.  What follows a double slash starts at the
    top. -/
def appendRest (place : Place) (rest : List Name) : Place :=
  match rest with
  | [] :: _ :: _ => Path.lexical [] rest
  | _ => Path.lexical place rest

/-- Takes links out of names that start at a place; `enter` works out a link not met
    before. -/
def resolveNames (fs : Files) (enter : Place → List Name → Trail → Resolution) :
    (place : Place) → List Name → Trail → Resolution
  | place, [], trail => ⟨place, true, trail⟩
  | place, name :: rest, trail =>
      if Path.isIdle name then fs.resolveNames enter place rest trail
      else if name == Path.parentName then fs.resolveNames enter place.dropLast rest trail
      else
        let child := place ++ [name]
        match fs.linkAt? place name with
        | none => fs.resolveNames enter child rest trail
        | some target =>
            match trail.lookup child with
            | some (some known) => fs.resolveNames enter known rest trail
            | some none => ⟨appendRest child rest, false, trail⟩
            | none =>
                let way := enter (linkStart place target) (Path.ofText target).names
                  ((child, none) :: trail)
                if way.clear then
                  fs.resolveNames enter way.place rest ((child, some way.place) :: way.trail)
                else ⟨appendRest way.place rest, false, way.trail⟩

/-- Takes links out of names, `depth` links deep. -/
def resolveWithin (fs : Files) : (depth : Nat) → Place → List Name → Trail → Resolution
  | 0 => fs.resolveNames fun place names trail => ⟨Path.lexical place names, false, trail⟩
  | depth + 1 => fs.resolveNames (fs.resolveWithin depth)

/-- What comes of taking the links out of a path.  A link is entered at most once, so there
    are never more links open than entries. -/
def resolution (fs : Files) (path : Path) : Resolution :=
  fs.resolveWithin fs.entries.length (fs.startOf path) path.names []

/-- The number of links that are open at the end of a trail.  What was met last stands first:
    a link is open from when it is entered until its place is known. -/
def openCount : Trail → Nat
  | [] => 0
  | (_, none) :: trail => openCount trail + 1
  | (_, some _) :: trail => openCount trail - 1

/-- The most links that were open at once along a trail. -/
def deepest : Trail → Nat
  | [] => 0
  | met :: trail => max (openCount (met :: trail)) (deepest trail)

/-- There is no room for the links that are open at once when a path is resolved. -/
def nestsTooDeep (fs : Files) (path : Path) : Bool :=
  fs.limits.links < deepest (fs.resolution path).trail

/-- Why a path stands for no place. -/
inductive Snag
  /-- More links were open at once than there is room for. -/
  | tooDeep
  /-- Links turn in a circle. -/
  | circle
  deriving Repr, DecidableEq

/-- The place that a path stands for. -/
def resolve (fs : Files) (path : Path) : Except Snag Place :=
  let place := (fs.resolution path).place
  if fs.nestsTooDeep path then .error .tooDeep
  else
    match fs.stat (Path.toPlace place) with
    | .error .linkLoop => .error .circle
    | _ => .ok place

end NoteDigest.Files
