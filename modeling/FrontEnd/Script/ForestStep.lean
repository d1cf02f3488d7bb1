import FrontEnd.Forest.Link
import FrontEnd.Forest.Outline
import FrontEnd.Status

/-! # Scripts over a forest

A script builds and inspects a forest step by step. New nodes are stamped with the line of the
status, which the script can move. Each step has an answer, and a step that is refused changes
nothing.
-/

namespace FrontEnd.Script

/-- A forest under construction, with the status that its nodes are stamped from. -/
structure Workbench where
  forest : Forest
  status : Status
  journal : List Journal.Entry

namespace Workbench

/-- An empty forest on a status. -/
def start (status : Status) : Workbench :=
  ⟨.empty, status, []⟩

def flag (bench : Workbench) : Workbench :=
  { bench with
    status := bench.status.flag
    journal := bench.journal ++ bench.status.flagEntries }

end Workbench

/-- What a script can do with a forest. -/
inductive ForestStep where
  | moveTo (line : Nat)
  | flag
  | make (kind : NodeKind) (payload : Option Payload)
  | setPayload (node : NodeId) (payload : Payload)
  | setValueType (node : NodeId) (valueType : ValueType)
  | makeRoot (node : NodeId)
  | attachChild (parent : NodeId) (slot : Nat) (child : NodeId)
  | attachNext (node next : NodeId)
  | append (head node : NodeId)
  | outline
  | outlineFrom (node : NodeId)
  | chain (start : Option NodeId)
  | child (node : NodeId) (slot : Nat)
  | inspect (node : NodeId)
  /-- Look at the whole forest. -/
  | inspectAll
deriving DecidableEq, Repr

/-- The answer to a step. -/
inductive ForestAnswer where
  | status (status : Status)
  | made (node : NodeId)
  | payload (payload : Payload)
  | valueType (valueType : ValueType)
  /-- A link was made, and this node was in its place before. -/
  | linked (former : Option NodeId)
  | refused (reason : LinkError)
  | outline (text : String)
  | outlineFrom (text : String)
  | chain (nodes : List NodeId)
  | child (node : Option NodeId)
  | node (id : NodeId) (node : Node)
  | forest (forest : Forest)
deriving DecidableEq, Repr

namespace Workbench

/-- The outcome of an operation that may be refused. -/
def settle (bench : Workbench) (result : Except LinkError (Option NodeId × Forest)) :
    ForestAnswer × Workbench :=
  match result with
  | .ok (former, forest) => (.linked former, { bench with forest })
  | .error reason => (.refused reason, bench)

/-- The outcome of an operation on a node, if the handle has one. -/
def withNode (bench : Workbench) (id : NodeId) (use : Node → ForestAnswer × Workbench) :
    ForestAnswer × Workbench :=
  match bench.forest.node? id with
  | none => (.refused (.unknown id), bench)
  | some node => use node

def step (bench : Workbench) : ForestStep → ForestAnswer × Workbench
  | .moveTo line =>
    let moved := { bench with status := bench.status.moveTo line }
    (.status moved.status, moved)
  | .flag => (.status bench.flag.status, bench.flag)
  | .make kind payload =>
    let (id, grown) := bench.forest.add kind bench.status.line
    (.made id, { bench with forest := payload.elim grown (grown.setPayload id) })
  | .setPayload id payload =>
    bench.withNode id fun _ =>
      (.payload payload, { bench with forest := bench.forest.setPayload id payload })
  | .setValueType id valueType =>
    bench.withNode id fun _ =>
      (.valueType valueType, { bench with forest := bench.forest.setValueType id valueType })
  | .makeRoot id => bench.settle ((bench.forest.makeRoot id).map (none, ·))
  | .attachChild parent slot child => bench.settle (bench.forest.attachChild parent slot child)
  | .attachNext node next => bench.settle (bench.forest.attachNext node next)
  | .append head node => bench.settle ((bench.forest.append head node).map (none, ·))
  | .outline => (.outline bench.forest.outline, bench)
  | .outlineFrom id =>
    bench.withNode id fun _ => (.outlineFrom (bench.forest.outlineFrom (some id)), bench)
  | .chain none => (.chain [], bench)
  | .chain (some id) =>
    bench.withNode id fun _ => (.chain (bench.forest.chain (some id)), bench)
  | .child id slot => bench.withNode id fun _ => (.child (bench.forest.child? id slot), bench)
  | .inspect id => bench.withNode id fun node => (.node id node, bench)
  | .inspectAll => (.forest bench.forest, bench)

/-- Carry out steps in order and collect their answers. -/
def run (bench : Workbench) : List ForestStep → List ForestAnswer × Workbench
  | [] => ([], bench)
  | first :: rest =>
    let (answer, later) := bench.step first
    let (answers, last) := run later rest
    (answer :: answers, last)

end FrontEnd.Script.Workbench
