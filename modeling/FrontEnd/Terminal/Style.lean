/-! # Styled text

Text for a terminal is a list of spans with a style. It is shown with escape sequences that switch
each style on and off, the weight inside the colour.
-/

namespace FrontEnd.Terminal

inductive Colour where
  | red
  | green
  | yellow
  | blue
  | cyan
  | brightRed
deriving DecidableEq, Repr

def Colour.code : Colour → String
  | red => "31"
  | green => "32"
  | yellow => "33"
  | blue => "34"
  | cyan => "36"
  | brightRed => "91"

inductive Weight where
  | bold
  | dim
  | italic
deriving DecidableEq, Repr

def Weight.code : Weight → String
  | bold => "1"
  | dim => "2"
  | italic => "3"

/-- Text in one style. -/
structure Span where
  text : String
  weight : Option Weight := none
  colour : Option Colour := none
deriving DecidableEq, Repr

/-- The sequence that selects a style by its number. -/
def select (code : String) : String :=
  "\x1b[" ++ code ++ "m"

namespace Span

/-- A span with the sequences for its style. -/
def styled (span : Span) : String :=
  let weighted :=
    match span.weight with
    | none => span.text
    | some weight => select weight.code ++ span.text ++ select "0"
  match span.colour with
  | none => weighted
  | some colour => select colour.code ++ weighted ++ select "39"

end Span

def styled (spans : List Span) : String :=
  String.join (spans.map Span.styled)

end FrontEnd.Terminal
