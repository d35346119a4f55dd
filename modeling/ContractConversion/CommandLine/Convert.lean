import ContractConversion.CommandLine.Outcome
import ContractConversion.Configuration.Basic

/-!
# The conversion command

It has a server convert a file. Standard error follows the conversion: a line for each new status or
attempt, and one for each artifact. The contracts themselves go to standard output, if all went
well.
-/

namespace ContractConversion.CommandLine

/-- What has been told of a conversion. -/
structure Progress where
  status : Status := .idle
  attempt : Nat := 0
  announced : Nat := 0
  deriving DecidableEq, Repr

/-- The status of a conversion in words. -/
def statusLines (store : Store) : List String :=
  match store.status with
  | .idle => []
  | .phase1 => ["[1/4] analyzing source"]
  | .phase2 => ["[2/4] planning contracts"]
  | .phase3 =>
    ["[3/4] generating " ++ toString (max store.planned.length 1) ++ " contract(s)"]
  | .phase4 =>
    ["[4/4] repair attempt " ++ toString store.attempt ++ " (" ++ toString store.pending.length ++
      " pending)"]
  | .complete =>
    ["done " ++ toString store.contracts.length ++ " contract(s) in " ++ toString store.attempt ++
      " attempt(s), " ++ toString store.usage.total ++ " tokens"]
  | .error =>
    (match store.error with
      | some error => ["error " ++ error.message]
      | none => []) ++
    (if store.contracts.isEmpty then []
      else ["note " ++ toString store.contracts.length ++
        " contract(s) validated before the failure"])

namespace Progress

/-- The lines for what is new in a store. -/
def lines (p : Progress) (store : Store) : List String :=
  (if store.status ≠ p.status ∨ store.attempt ≠ p.attempt then statusLines store else []) ++
    (store.contracts.drop p.announced).map fun a => "  ✓ " ++ a.name

/-- What has been told once the lines for a store are out. -/
def after (store : Store) : Progress where
  status := store.status
  attempt := store.attempt
  announced := store.contracts.length

/-- The lines for stores that come one after the other. -/
def follow (p : Progress) : List Store → List String
  | [] => []
  | store :: rest => p.lines store ++ (after store).follow rest

end Progress

/-- The stores of a conversion, one for each event that it takes in. -/
def storesOf (store : Store) : List Event → List Store
  | [] => []
  | event :: rest =>
    if store.isFinished then [] else store.apply event :: storesOf (store.apply event) rest

/-- What goes to standard output at the end. -/
def resultLines (json : Bool) (store : Store) : List String :=
  if json then
    [(match store.result with
      | some result => Wire.result.encode result
      | none => .null).pretty]
  else store.contracts.flatMap fun a => ["// ── " ++ a.name ++ " ──", a.code]

/-- How a conversion ends. -/
def conversionEnding (store : Store) : Ending :=
  if store.status = .complete then .done
  else
    let message := match store.error with
      | some error => error.message
      | none => "conversion did not finish"
    .failed ["Conversion failed: " ++ message]

/-- Carries out `convert`. Without a server, that of the configuration is asked. -/
def convert (s : Surroundings) (c : Configuration) (file : String) (server : Option String)
    (json : Bool) : Outcome :=
  match s.files.readText file with
  | .error fault => s.fails ["Failed to read " ++ file, fault.message]
  | .ok _ =>
    let server := server.getD ("http://" ++ c.bindAddress)
    let client := (Client.new server).start
    let (events, ending) := client.request s.fetch
    let stores := storesOf client.store (events ++ ending.error?.toList)
    let last := stores.getLastD client.store
    { output := if last.status = .complete then resultLines json last else []
      notes := ("Converting via " ++ server) :: Progress.follow {} stores
      files := s.files
      ending := conversionEnding last }

end ContractConversion.CommandLine
