import FrontEnd.Compilation.Failure
import FrontEnd.Forest.Basic
import FrontEnd.Listing
import FrontEnd.Scanner.Basic

/-! # The stages of a compilation

Everything behind the scanner is given to a compilation from outside: a parser, an analyzer and a
code generator. A parser works over any finite scanner, so it cannot tell what is behind the
tokens it is handed. Which stages are there decides how far a compilation can go.
-/

namespace FrontEnd

/-- What a parser leaves behind. -/
structure Parsed (ρ σ : Type) where
  session : Session σ
  /-- The forest, unless memory ran out. -/
  result : Except OutOfMemory Forest
  reports : List ρ

/-- Builds a forest from the tokens of a scanner, with reports `ρ`. -/
structure Parser (ρ : Type) where
  parse : {σ : Type} → [FiniteScanner σ] → Session σ → Parsed ρ σ

/-- What an analyzer works with. -/
structure Desk where
  status : Status
  listing : Listing
  journal : List Journal.Entry

namespace Desk

def write (text : String) : EStateM Fault Desk Unit := fun desk =>
  let written := { desk with listing := desk.listing.write text }
  if desk.listing.fits text then .ok () written else .error .listingFull written

def flag : EStateM Fault Desk Unit := fun desk =>
  .ok () { desk with
    status := desk.status.flag
    journal := desk.journal ++ desk.status.flagEntries }

end Desk

/-- Checks the meaning of a forest. -/
structure Analyzer where
  buildSymbols : Forest → EStateM Fault Desk Unit
  /-- Check the types of a forest and note them in it. -/
  checkTypes : Forest → EStateM Fault Desk Forest

/-- What a code generator wrote, and why it stopped if it did. -/
structure GeneratedCode where
  text : String
  fault : Option Fault
deriving DecidableEq, Repr

/-- Writes code for a forest into the file at a path, with annotations or without. -/
structure CodeGenerator where
  generate : Forest → Path → (annotated : Bool) → GeneratedCode

structure Stages (ρ : Type) where
  parser : Option (Parser ρ)
  analyzer : Option Analyzer
  codeGenerator : Option CodeGenerator

/-- The stages that a compilation up to a phase runs. -/
inductive Plan (ρ : Type) where
  | scan
  | parse (parser : Parser ρ)
  | analyze (parser : Parser ρ) (analyzer : Analyzer)
  | generate (parser : Parser ρ) (analyzer : Analyzer) (codeGenerator : CodeGenerator)

namespace Stages

variable {ρ : Type}

def none : Stages ρ :=
  ⟨.none, .none, .none⟩

/-- The stages for a phase, or the first one that is missing. -/
def plan (stages : Stages ρ) : Phase → Except Stage (Plan ρ)
  | .scan => .ok .scan
  | .parse =>
    match stages.parser with
    | .none => .error .parser
    | some parser => .ok (.parse parser)
  | .analyze =>
    match stages.parser, stages.analyzer with
    | .none, _ => .error .parser
    | _, .none => .error .analyzer
    | some parser, some analyzer => .ok (.analyze parser analyzer)
  | .generate =>
    match stages.parser, stages.analyzer, stages.codeGenerator with
    | .none, _, _ => .error .parser
    | _, .none, _ => .error .analyzer
    | _, _, .none => .error .codeGenerator
    | some parser, some analyzer, some generator => .ok (.generate parser analyzer generator)

end FrontEnd.Stages
