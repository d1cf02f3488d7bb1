/-! # The settings of a compilation

A compilation runs its phases in order up to the last one asked for. The other settings say what
is written into the listing and the code on the way.
-/

namespace FrontEnd

/-- How far a compilation goes; each phase includes those before it. -/
inductive Phase where
  | scan
  | parse
  | analyze
  | generate
deriving DecidableEq, Repr

namespace Phase

def all : List Phase :=
  [scan, parse, analyze, generate]

def name : Phase → String
  | scan => "scan"
  | parse => "parse"
  | analyze => "analyze"
  | generate => "generate"

def ofName? (name : String) : Option Phase :=
  all.find? fun phase => phase.name == name

end Phase

/-- How far a compilation goes and what it writes on the way. -/
structure Settings where
  /-- The last phase that is run. -/
  phase : Phase := .scan
  echoSource : Bool := false
  traceScan : Bool := true
  traceParse : Bool := false
  traceAnalyze : Bool := false
  /-- Ask for annotated code. -/
  traceCode : Bool := false
deriving DecidableEq, Repr

end FrontEnd
