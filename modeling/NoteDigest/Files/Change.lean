import NoteDigest.Files.Tree

/-! # Changes — writing, making and removing files

    A change either succeeds or fails with a fault; what was done before a fault stays
    done. -/

namespace NoteDigest.Files

/-- A change to the file tree, which may fail half-way. -/
abbrev Change (α : Type) := ExceptT FileFault (StateM Files) α

/-- The tree with the bytes of a file replaced, or with a new file in a directory that is
    there. -/
def write (fs : Files) (path : Path) (bytes : ByteArray) (stamp : Stamp) :
    Except FileFault Files :=
  match fs.locate .write path with
  | .ok ⟨_, some .directory⟩ => .error .isDirectory
  | .ok ⟨place, _⟩ => .ok (fs.put place (.file bytes stamp))
  | .error fault => .error fault

/-- The tree with a new entry in a directory that is there. -/
def add (fs : Files) (path : Path) (entry : Entry) : Except FileFault Files :=
  match fs.locate .keep path with
  | .ok ⟨place, none⟩ => .ok (fs.put place entry)
  | .ok ⟨_, some _⟩ => .error .present
  | .error fault => .error fault

/-- The tree with a new link.  A link has a target, of a length that can be followed. -/
def addLink (fs : Files) (path : Path) (target : Text) : Except FileFault Files :=
  if target.isEmpty then .error .missing
  else if (Path.ofText target).isLong then .error .nameTooLong
  else fs.add path (.link target)

/-- The tree without a file or a link. -/
def remove (fs : Files) (path : Path) : Except FileFault Files :=
  match fs.locate .keep path with
  | .ok ⟨_, none⟩ => .error .missing
  | .ok ⟨_, some .directory⟩ => .error .isDirectory
  | .ok ⟨place, some _⟩ => .ok (fs.erase place)
  | .error fault => .error fault

namespace Change

/-- A change that gives a new tree. -/
def apply (step : Files → Except FileFault Files) : Change Unit := do
  match step (← get) with
  | .ok fs => set fs
  | .error fault => throw fault

/-- Makes a directory, and first those above it that are missing.  A directory that is
    there already is no fault. -/
def makeDirectories : (names : Nat) → Path → Change Unit
  | 0, path => makeOne path
  | n + 1, path => do
      match (← get).add path .directory with
      | .ok fs => set fs
      | .error .missing => do
          makeDirectories n path.parent
          makeOne path
      | .error fault => if (← get).isDirectory path then return else throw fault
where
  /-- Makes one directory, unless it is there. -/
  makeOne (path : Path) : Change Unit := do
    match (← get).add path .directory with
    | .ok fs => set fs
    | .error fault => if (← get).isDirectory path then return else throw fault

/-- Makes a directory with those above it.  When that fails, the length of the path counts
    before all other faults. -/
def makeDirectory (path : Path) : Change Unit := do
  try makeDirectories path.names.length path
  catch fault => if (← get).isOverlong path then throw .nameTooLong else throw fault

/-- A change that may find something else in its way. -/
def allowPresent (act : Change Unit) : Change Unit :=
  tryCatch act fun fault => if fault = .present then pure () else throw fault

/-- Makes the directories that are missing on the way to a place, whose names are given
    from the bottom up.  Something else that stands in the way above the last of them is
    passed over, as it will not let that one be made. -/
def makeWay : (upwards : List Name) → Change Unit
  | [] => return
  | name :: above => do
      if !(← get).isPresent (Path.toPlace above.reverse) then
        allowPresent (makeWay above)
      makeDirectories.makeOne (Path.toPlace (name :: above).reverse)

/-- Writes a file, and first makes the directories above it. -/
def writeWithParents (path : Path) (bytes : ByteArray) (stamp : Stamp) : Change Unit := do
  makeDirectory path.parent
  apply fun fs => fs.write path bytes stamp

end Change
end NoteDigest.Files
