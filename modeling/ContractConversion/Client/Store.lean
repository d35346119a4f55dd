import ContractConversion.Wire.Event

/-!
# The reader's view of a conversion

A store follows one conversion by its events alone. It is finished after the first terminal event
and takes in nothing after that. The epoch says which conversion the store belongs to.
-/

namespace ContractConversion

open Json (Value)

/-- An error as the reader sees it. -/
structure StoreError where
  message : String
  phase : Option Nat
  detail : Option String
  deriving DecidableEq, Repr

/-- What a reader knows of a conversion. -/
structure Store where
  epoch : Nat := 0
  sessionId : Option Uuid := none
  status : Status := .idle
  attempt : Nat := 0
  analysis : Option Value := none
  planned : List PlannedContract := []
  transactions : List Transaction := []
  /-- The announced artifacts, in the order of their first announcement. -/
  contracts : List Artifact := []
  lastValidation : Option Report := none
  result : Option ConversionResult := none
  error : Option StoreError := none
  usage : Usage := {}
  deriving DecidableEq, Repr

namespace Store

/-- A fresh store. -/
def forEpoch (epoch : Nat) : Store :=
  { epoch }

/-- A terminal event was taken in. -/
def isFinished (s : Store) : Bool :=
  s.status.isTerminal

/-- Puts an artifact into the place of the one of its name, or else at the end. -/
def upsert (a : Artifact) : List Artifact → List Artifact
  | [] => [a]
  | b :: rest => if b.name = a.name then a :: rest else b :: upsert a rest

/-- Takes in an event of a conversion that is not finished. -/
def advance (s : Store) : Event → Store
  | .phase1Start sessionId => { s with sessionId := some sessionId, status := .phase1 }
  | .phase1Complete analysis usage =>
    { s with analysis := some analysis, usage := s.usage + usage }
  | .phase2Start => { s with status := .phase2 }
  | .phase2Complete contracts transactions usage =>
    { s with planned := contracts, transactions, usage := s.usage + usage }
  | .phase3Start attempt => { s with status := .phase3, attempt }
  | .phase4Start attempt _ => { s with status := .phase4, attempt }
  | .validation report => { s with lastValidation := some report }
  | .artifactReady artifact => { s with contracts := upsert artifact s.contracts }
  | .done result =>
    { s with
      contracts := result.artifacts.foldl (fun contracts a => upsert a contracts) s.contracts
      usage := result.usage
      result := some result
      status := .complete }
  | .error message phase detail =>
    { s with error := some ⟨message, phase, detail⟩, status := .error }

/-- Takes in an event; after a terminal one nothing changes. -/
def apply (s : Store) (e : Event) : Store :=
  if s.isFinished then s else s.advance e

/-- Takes in events in order. -/
def applyAll (s : Store) (events : List Event) : Store :=
  events.foldl apply s

/-- The planned contracts that were not announced; none are pending once all is complete. -/
def pending (s : Store) : List PlannedContract :=
  if s.status = .complete then []
  else s.planned.filter fun p => !(s.contracts.any (·.name = p.name))

end Store

end ContractConversion
