import NoteDigest.Yaml.Scalar

/-! # Construction — the value of a tree

    A document is constructed in rounds: the scalars and the outlines of the collections
    directly inside a collection come about in one round, what is inside those
    collections in the next.  When several parts of a document have no value, the fault
    that counts is the one of the earliest round, and among those the leftmost.

    A mapping may hold the key `<<`.  Its value, a mapping or a sequence of mappings,
    lends its entries, which come before the mapping's own and give way to them. -/

namespace NoteDigest.Yaml

/-! ## Rounds -/

/-- A fault and the round in which it shows. -/
structure Setback where
  round : Nat
  fault : Fault
  deriving Repr, DecidableEq

/-- A value, or the setback that counts. -/
abbrev Attempt (α : Type) := Except Setback α

/-- Both of two parts; of two setbacks the earlier counts, and the left one of a tie. -/
def Attempt.both {α β : Type} : Attempt α → Attempt β → Attempt (α × β)
  | .ok a, .ok b => .ok (a, b)
  | .ok _, .error f => .error f
  | .error e, .ok _ => .error e
  | .error e, .error f => .error (if f.round < e.round then f else e)

/-- All of several parts. -/
def Attempt.all {α : Type} : List (Attempt α) → Attempt (List α)
  | [] => .ok []
  | a :: rest =>
      match Attempt.both a (Attempt.all rest) with
      | .ok (x, xs) => .ok (x :: xs)
      | .error e => .error e

/-- A result that is there in one round. -/
def Attempt.inRound {α : Type} (round : Nat) : Except Fault α → Attempt α
  | .ok a => .ok a
  | .error fault => .error ⟨round, fault⟩

/-- The setback of a part that cannot have a value. -/
def Attempt.malformed {α : Type} (round : Nat) : Attempt α :=
  .error ⟨round, .malformed⟩

/-! ## Plans -/

/-- How a node gets its value.  A deferred node yields a collection, whose content comes
    about one round later. -/
structure Step where
  tag : Tag
  deferred : Bool
  build : (round : Nat) → Attempt Value

/-- The entries of a mapping. -/
abbrev Entries := List (Step × Step)

/-- What the nodes around a node need to know of it. -/
structure Plan where
  step : Step
  /-- Its text, where a scalar is due. -/
  text? : Option Text
  /-- The entries of a mapping, as they stand. -/
  own? : Option Entries
  /-- The entries of a mapping with those it merges in. -/
  merged? : Option (Except Fault Entries)
  /-- What each item of a sequence would lend to a merge. -/
  lent? : Option (List (Option (Except Fault Entries)))

/-- The key of an entry; the key `=` stands for its own text. -/
def Plan.keyStep (p : Plan) : Step :=
  if p.step.tag == .default then
    { p.step with build := fun _ => .ok (.text (p.text?.getD [])) }
  else p.step

/-- What the value of a merge key lends. -/
def Plan.lends (p : Plan) : Except Fault Entries :=
  match p.merged?, p.lent? with
  | some entries, _ => entries
  | none, some items => do
      let parts ← items.mapM fun item => item.getD (.error .malformed)
      return parts.reverse.flatten
  | none, none => .error .malformed

/-- The entries of a mapping: those merged in, then its own. -/
def mergeEntries (entries : List (Plan × Plan)) : Except Fault Entries := do
  let (merges, own) := entries.partition fun (k, _) => k.step.tag == .merge
  let lent ← merges.mapM fun (_, v) => v.lends
  return lent.flatten ++ own.map fun (k, v) => (k.keyStep, v.step)

/-- The types whose values are collections. -/
def Tag.isCollection : Tag → Bool
  | .seq | .map | .set | .omap | .pairs => true
  | _ => false

/-- An entry of a mapping in a round.  A key has to be a scalar. -/
def entryAttempt (round : Nat) (entry : Step × Step) : Attempt (Value × Value) :=
  let key : Attempt Value :=
    if entry.1.deferred then .malformed round else entry.1.build round
  Attempt.both key (entry.2.build round)

/-- The entries of a mapping in a round, each key once. -/
def mappingAttempt (round : Nat) (entries : Except Fault Entries) :
    Attempt (List (Value × Value)) := do
  let entries ← Attempt.inRound round entries
  let found ← Attempt.all (entries.map (entryAttempt round))
  return found.foldl (fun all (k, v) => putEntry k v all) []

/-- An item of a list of pairs: a mapping of one entry. -/
def pairAttempt (round : Nat) (item : Plan) : Attempt (Value × Value) :=
  match item.own? with
  | some [(k, v)] => Attempt.both (k.build round) (v.build round)
  | _ => .malformed round

/-- The plan of a scalar. -/
def scalarPlan (tag : Tag) (text : Text) : Plan :=
  { step :=
      { tag := tag
        deferred := tag.isCollection
        build := fun round =>
          if tag.isCollection then .malformed (round + 1)
          else Attempt.inRound round (scalarValue tag text) }
    text? := some text
    own? := none
    merged? := none
    lent? := none }

/-- The plan of a sequence. -/
def sequencePlan (tag : Tag) (items : List Plan) : Plan :=
  { step :=
      { tag := tag
        deferred := tag.isCollection
        build := fun round =>
          match tag with
          | .seq => .list <$> Attempt.all (items.map fun p => p.step.build (round + 1))
          | .omap | .pairs => .pairs <$> Attempt.all (items.map (pairAttempt (round + 1)))
          | .map | .set => .malformed (round + 1)
          | _ => .malformed round }
    text? := none
    own? := none
    merged? := none
    lent? := some (items.map (·.merged?)) }

/-- The plan of a mapping.  Where a scalar is due, the value of its key `=` serves, but no
    date is made from it. -/
def mappingPlan (tag : Tag) (entries : List (Plan × Plan)) : Plan :=
  let merged := mergeEntries entries
  let text? := (entries.find? fun (k, _) => k.step.tag == .default).bind fun (_, v) => v.text?
  { step :=
      { tag := tag
        deferred := tag.isCollection
        build := fun round =>
          match tag with
          | .map => .map <$> mappingAttempt (round + 1) merged
          | .set => (fun es => .set (es.map (·.1))) <$> mappingAttempt (round + 1) merged
          | .seq | .omap | .pairs => .malformed (round + 1)
          | _ =>
              match text?, tag with
              | none, _ => .malformed round
              | some _, .timestamp => .error ⟨round, .conversion .mappedDate⟩
              | some text, _ => Attempt.inRound round (scalarValue tag text) }
    text? := text?
    own? := some (entries.map fun (k, v) => (k.step, v.step))
    merged? := some merged
    lent? := none }

/-- The plan of a collection inside itself, which lends nothing to a merge. -/
def recursivePlan : Plan :=
  { step := { tag := .unknown, deferred := true, build := fun _ => .ok .recursive }
    text? := none
    own? := none
    merged? := some (.ok [])
    lent? := none }

mutual

/-- The plan of a node. -/
def Node.plan : Node → Plan
  | .scalar tag text => scalarPlan tag text
  | .sequence tag items => sequencePlan tag (Node.plans items)
  | .mapping tag entries => mappingPlan tag (Node.entryPlans entries)
  | .recursive => recursivePlan

/-- The plans of several nodes. -/
def Node.plans : List Node → List Plan
  | [] => []
  | node :: rest => node.plan :: Node.plans rest

/-- The plans of the entries of a mapping. -/
def Node.entryPlans : List (Node × Node) → List (Plan × Plan)
  | [] => []
  | (key, value) :: rest => (key.plan, value.plan) :: Node.entryPlans rest

end

/-- The value of a tree. -/
def Node.value (node : Node) : Except Fault Value :=
  match node.plan.step.build 0 with
  | .ok value => .ok value
  | .error setback => .error setback.fault

end NoteDigest.Yaml
