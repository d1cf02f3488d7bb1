import FrontEnd.Terminal.Style
import FrontEnd.Text.Column

/-! # Help

The texts that tell how to use the program and which version of it this is.
-/

namespace FrontEnd.CommandLine

def version : String := "0.1.0"

/-- The answer to a wish for the version. -/
def versionText : String :=
  "tiny " ++ version ++ "\n"

def usage : String := "Usage: tiny [OPTIONS] <FILE>"

/-- The column in which options are explained. -/
def explanationColumn : Nat := 31

/-- A text whose lines stand in the column of explanations. -/
def explained (text : String) : String :=
  String.join (text.toList.map fun char =>
    if char = '\n' then "\n" ++ Text.blanks explanationColumn else String.singleton char)

def heading (text : String) : Terminal.Span :=
  ⟨text, some .bold, some .yellow⟩

def literal (text : String) : Terminal.Span :=
  { text, weight := some .bold }

/-- The answer to a wish for help, which shows what the environment says about the log level. -/
def helpSpans (environment : Option String) : List Terminal.Span :=
  [{ text := "Tiny", weight := some .bold }, { text := " (v" ++ version ++ ")\n" },
    { text := "Compiles a Tiny program, writing a listing file next to the source.\n\n" },
    { text := usage ++ "\n\n" },
    heading "Arguments:",
    { text := "\n  <FILE>  The file to compile. If it has no extension, `.tny` is added\n\n" },
    heading "Options:",
    { text := "\n      " },
    literal "--echo-source",
    { text := "            Echo each source line into the listing\n      " },
    literal "--no-trace-scan",
    { text := "          Don't write the scanned tokens into the listing\n      " },
    literal "--log-level",
    { text := " <LOG_LEVEL>  The level of log messages to show [default: warn] [env: TINY_LOG=" ++
        explained (environment.getD "") ++ "]\n  " },
    literal "-h", { text := ", " }, literal "--help",
    { text := "                   Print help\n  " },
    literal "-V", { text := ", " }, literal "--version",
    { text := "                Print version\n" }]

end FrontEnd.CommandLine
