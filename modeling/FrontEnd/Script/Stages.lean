import FrontEnd.Compilation.Stage
import FrontEnd.Script.ForestStep

/-! # Scripted stages

Small stages that follow a script. The scripted parser takes tokens and builds a forest step by
step. The declaring parser makes a declaration of every identifier. The scripted analyzer can flag
an error or fail in either of its passes, and the scripted code generator lists the nodes.
-/

namespace FrontEnd.Script

/-- What a scripted parser can do. -/
inductive ParserStep where
  | forest (step : ForestStep)
  | pull
  /-- Take tokens through the next end of file. -/
  | drain
  | fail
deriving DecidableEq, Repr

/-- The answer to a step of a parser. -/
inductive ParserAnswer where
  | forest (answer : ForestAnswer)
  | token (token : Token)
  | drained (count : Nat) (status : Status)
deriving DecidableEq, Repr

variable {σ : Type}

/-- Carry out the steps of a parser on a forest. -/
def parseSteps [FiniteScanner σ] (session : Session σ) (forest : Forest) :
    List ParserStep → Parsed ParserAnswer σ
  | [] => ⟨session, .ok forest, []⟩
  | .fail :: _ => ⟨session, .error ⟨session.status.line⟩, []⟩
  | .pull :: rest =>
    let pulled := session.pull
    let later := parseSteps pulled.2 forest rest
    { later with reports := .token pulled.1 :: later.reports }
  | .drain :: rest =>
    let drained := session.drain
    let later := parseSteps drained.2 forest rest
    { later with reports := .drained drained.1.length drained.2.status :: later.reports }
  | .forest step :: rest =>
    let stepped := Workbench.step ⟨forest, session.status, session.journal⟩ step
    let bench := stepped.2
    let later := parseSteps ⟨session.scanner, bench.status, bench.journal⟩ bench.forest rest
    { later with reports := .forest stepped.1 :: later.reports }

/-- A parser that follows a script. -/
def parser (steps : List ParserStep) : Parser ParserAnswer where
  parse session := parseSteps session .empty steps

/-- Add a declaration to the chain that starts at the root. -/
def declare (forest : Forest) (name : String) (line : Nat) : Except LinkError Forest :=
  let made := forest.add (.declaration .scalar) line
  let named := made.2.setPayload made.1 (.name name)
  match named.root with
  | none => named.makeRoot made.1
  | some root => named.append root made.1

/-- Declare the identifiers among the tokens of a scanner. -/
def declareAll [FiniteScanner σ] (session : Session σ) (forest : Forest) : Session σ × Forest :=
  let pulled := session.pull
  if pulled.1.kind = .endOfFile then (pulled.2, forest)
  else if pulled.1.kind = .identifier then
    declareAll pulled.2
      ((declare forest pulled.1.lexeme pulled.2.status.line).toOption.getD forest)
  else declareAll pulled.2 forest
termination_by FiniteScanner.remaining session.scanner
decreasing_by all_goals exact FiniteScanner.remaining_next _ _ ‹_›

/-- A parser that makes a declaration of every identifier and reports nothing. -/
def declaringParser (ρ : Type) : Parser ρ where
  parse session :=
    let declared := declareAll session .empty
    ⟨declared.1, .ok declared.2, []⟩

inductive Pass where
  | symbols
  | types
deriving DecidableEq, Repr

/-- Why a pass fails when its script says so. -/
def Pass.fault : Pass → Fault
  | symbols => .stage "symbols failed"
  | types => .stage "types failed"

/-- What a scripted analyzer does. -/
structure AnalyzerScript where
  flags : Option Pass
  fails : Option Pass
  /-- What the second pass writes. -/
  text : Option String
deriving DecidableEq, Repr

namespace AnalyzerScript

/-- The end of a pass: it flags an error and fails as the script says. -/
def close (script : AnalyzerScript) (pass : Pass) : EStateM Fault Desk Unit := do
  if script.flags = some pass then Desk.flag
  if script.fails = some pass then throw pass.fault

/-- An analyzer that follows a script: it counts the nodes and makes them integers. -/
def analyzer (script : AnalyzerScript) : Analyzer where
  buildSymbols forest := do
    Desk.write (toString forest.size ++ " symbols\n")
    script.close .symbols
  checkTypes forest := do
    match script.text with
    | none => pure ()
    | some text => Desk.write text
    script.close .types
    pure (forest.setValueTypes .integer)

end AnalyzerScript

def codeLine (id : NodeId) (node : Node) : String :=
  id.text ++ " " ++ node.payload.name?.getD "" ++ " " ++ toString node.line ++ " " ++
    node.valueType.text ++ "\n"

/-- The lines of all nodes, in order of creation. -/
def codeLines (forest : Forest) : String :=
  String.join (forest.nodes.toList.zipIdx.map fun (node, index) => codeLine ⟨index⟩ node)

/-- A code generator that lists the nodes, and fails behind them if it is told to. -/
def listingGenerator (fails : Bool) : CodeGenerator where
  generate forest path annotated :=
    let lines := (if annotated then "* File: " ++ path.text ++ "\n" else "") ++ codeLines forest
    if fails then ⟨lines, some (.stage "generator failed")⟩ else ⟨lines ++ "HALT\n", none⟩

end FrontEnd.Script
