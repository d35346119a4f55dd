import ContractConversion.Artifact
import ContractConversion.Text.Quoted

/-!
# Merging fixes into the accepted artifacts

A repair returns a batch of fixes for the artifacts that are not accepted yet. The first fix of each
name counts. A fix of an unknown name is taken for a renamed one: with one unknown name and one
missing name the two belong together, and otherwise each unknown name has to match one missing name
of its own, letters and digits alone compared and case ignored. Then every slot of the fixed order
is filled, from the accepted artifacts first, so that a fix never replaces an accepted artifact.
-/

namespace ContractConversion

/-- Why fixes cannot be merged. -/
inductive MergeFault where
  /-- A slot that neither an accepted artifact nor a fix fills. -/
  | missing (name : String)
  /-- A fix of an unknown name while no name is missing. -/
  | unexpected (name : String)
  /-- Unknown names that cannot be told apart. -/
  | ambiguous (unknown missing : List String)
  deriving DecidableEq, Repr

namespace MergeFault

/-- The wording of the fault. -/
def message : MergeFault → String
  | missing name =>
    "Artifact '" ++ name ++ "' is missing from both the accepted set and the fix batch"
  | unexpected name =>
    "Fix batch introduced unknown artifact '" ++ name ++
      "' with no missing slot to reconcile it to"
  | ambiguous unknown expected =>
    "Cannot reconcile renamed artifacts " ++ Text.Quoted.encodeList unknown ++
      " to missing slots " ++ Text.Quoted.encodeList expected

end MergeFault

namespace Repair

/-- The names of artifacts. -/
def names (artifacts : List Artifact) : List String :=
  artifacts.map (·.name)

/-- The first artifact of each name that is not among `seen`. -/
def firstOfEach (seen : List String) : List Artifact → List Artifact
  | [] => []
  | a :: rest =>
    if a.name ∈ seen then firstOfEach seen rest
    else a :: firstOfEach (a.name :: seen) rest

/-- An ASCII letter or digit. -/
def isAsciiAlphanumeric (c : Char) : Bool :=
  c.isAlpha || c.isDigit

/-- The letters and digits of a name, in lower case. -/
def normalForm (name : String) : List Char :=
  (name.toList.filter isAsciiAlphanumeric).map Char.toLower

/-- The names of the batch that the order does not know. -/
def unknownNames (batch : List Artifact) (order : List String) : List String :=
  (names batch).filter (· ∉ order)

/-- The names of the order that are neither accepted nor in the batch. -/
def missingNames (batch : List Artifact) (accepted order : List String) : List String :=
  order.filter fun n => n ∉ accepted ∧ n ∉ names batch

/-- Matches each unknown name with the one missing name of the same normal form, none of which may
be claimed twice. -/
def matchNames (missing : List String) : List String → List String → Option (List String)
  | _, [] => some []
  | claimed, name :: rest =>
    match missing.filter (normalForm · = normalForm name) with
    | [only] =>
      if only ∈ claimed then none
      else (matchNames missing (only :: claimed) rest).map (only :: ·)
    | _ => none

/-- The missing name that each unknown name stands for. -/
def targets? (unknown missing : List String) : Option (List String) :=
  match unknown, missing with
  | [_], [only] => some [only]
  | _, _ => matchNames missing [] unknown

/-- Gives the artifacts of unknown name the given names, in order. -/
def rename (order : List String) : List String → List Artifact → List Artifact
  | _, [] => []
  | [], batch => batch
  | target :: targets, a :: rest =>
    if a.name ∈ order then a :: rename order (target :: targets) rest
    else { a with name := target } :: rename order targets rest

/-- Gives the renamed fixes of a batch the names that they stand for. -/
def reconcile (batch : List Artifact) (accepted order : List String) :
    Except MergeFault (List Artifact) :=
  let missing := missingNames batch accepted order
  match unknownNames batch order with
  | [] => .ok batch
  | first :: rest =>
    if missing = [] then .error (.unexpected first)
    else
      match targets? (first :: rest) missing with
      | some targets => .ok (rename order targets batch)
      | none => .error (.ambiguous (first :: rest) missing)

/-- The last artifact of a name. -/
def lastNamed? (artifacts : List Artifact) (name : String) : Option Artifact :=
  artifacts.reverse.find? (·.name = name)

/-- Fills the slots from a position on: from the accepted artifacts, else from the fixes, each of
which serves once. -/
def fillSlots (accepted : List Artifact) :
    List Artifact → Nat → List String → Except MergeFault (List Artifact)
  | _, _, [] => .ok []
  | fixes, position, name :: rest =>
    match (lastNamed? accepted name).or (lastNamed? fixes name) with
    | none => .error (.missing name)
    | some a => do
      let others := fixes.filter (·.name ≠ name)
      return { a with order := position } :: (← fillSlots accepted others (position + 1) rest)

/-- Builds the full list of artifacts, in the fixed order. -/
def merge (accepted batch : List Artifact) (order : List String) :
    Except MergeFault (List Artifact) := do
  let fixes ← reconcile (firstOfEach [] batch) (names accepted) order
  fillSlots accepted fixes 0 order

end Repair

end ContractConversion
