import FrontEnd.Fault

/-! # The journal

What a compilation reports about its own progress. Entries are events; their severity, their
source and their wording are functions of the event. The journal is only ever appended to and
nothing reads it back.
-/

namespace FrontEnd.Journal

/-- The severity of an entry, gravest first. -/
inductive Level where
  | error
  | warn
  | info
  | debug
  | trace
deriving DecidableEq, Repr

namespace Level

def name : Level → String
  | error => "ERROR"
  | warn => "WARN"
  | info => "INFO"
  | debug => "DEBUG"
  | trace => "TRACE"

/-- A larger rank is less grave. -/
def rank (level : Level) : Nat :=
  level.ctorIdx

end Level

/-- Work that is not started once an error was found. -/
inductive Activity where
  | analysis
  | codeGeneration
deriving DecidableEq, Repr

def Activity.name : Activity → String
  | analysis => "analysis"
  | codeGeneration => "code generation"

/-- An event of a compilation. -/
inductive Entry where
  | lexicalError (lexeme : String) (line : Nat)
  | flagRaised (line : Nat)
  /-- The scan phase reached the end of the source. -/
  | scannedTo (line : Nat)
  | parsing
  | parsed (nodes : Nat)
  | parsingAbandoned (failure : OutOfMemory)
  | skipping (activity : Activity)
  /-- The listing file was created. -/
  | compiling (source listing : String)
  /-- The code file was created. -/
  | generating (path : String)
  /-- A write failed, so the scanner's transcript ends there. -/
  | transcriptStopped (fault : Fault)
  /-- The command line was understood. -/
  | starting (request : String)
deriving DecidableEq, Repr

namespace Entry

def level : Entry → Level
  | parsingAbandoned _ | transcriptStopped _ => .warn
  | skipping _ | compiling .. | generating _ => .info
  | lexicalError .. | flagRaised _ | scannedTo _ | parsing | parsed _ => .debug
  | starting _ => .trace

/-- The part of the program that reports an event. -/
def target : Entry → String
  | lexicalError .. => "tiny_syntax::tokeniser"
  | flagRaised _ => "tiny_syntax::context"
  | transcriptStopped _ => "tiny_compiler::trace"
  | starting _ => "tiny"
  | _ => "tiny_compiler::driver"

/-- The wording of an event in parts: what the event tells of stands by itself between the words
that are always the same. -/
def parts : Entry → List String
  | lexicalError lexeme line => ["lexical error `", lexeme, "` at line ", toString line]
  | flagRaised line => ["error flag raised at line ", toString line]
  | scannedTo line => ["scanned up to line ", toString line]
  | parsing => ["parsing"]
  | parsed nodes => ["parsed ", toString nodes, " nodes"]
  | parsingAbandoned failure => ["parsing abandoned: ", failure.message]
  | skipping activity => ["errors were found, skipping ", activity.name]
  | compiling source listing => ["compiling `", source, "` into `", listing, "`"]
  | generating path => ["generating code into `", path, "`"]
  | transcriptStopped fault => ["stopped tracing into the listing: ", fault.message]
  | starting request => ["starting tiny with ", request]

def message (entry : Entry) : String :=
  String.join entry.parts

end FrontEnd.Journal.Entry
