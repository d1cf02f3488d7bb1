import FrontEnd.Listing
import FrontEnd.Scanner.Basic
import FrontEnd.Text.Line

/-! # Transcribing a scanner

A transcriber hands on the tokens of another scanner and writes them into a listing as they pass.
It can echo the lines of a text too, each before the first token on it or on a later line; the end
of file brings out the lines that are left. After a write has failed it only hands on tokens, and
the fault is kept for whoever asks how the transcript went.
-/

namespace FrontEnd

/-- A scanner whose tokens are written into a listing. -/
structure Transcriber (σ : Type) where
  inner : σ
  listing : Listing
  /-- The numbered lines still to be echoed. -/
  pending : List (Nat × String)
  writesTokens : Bool
  /-- The first write that failed. -/
  fault : Option Fault

namespace Transcriber

variable {σ : Type}

/-- A transcriber that writes nothing. -/
def silent (inner : σ) (listing : Listing) : Transcriber σ :=
  ⟨inner, listing, [], false, none⟩

def echoing (transcriber : Transcriber σ) (text : String) : Transcriber σ :=
  { transcriber with pending := Text.numberedLines text.toList }

def writingTokens (transcriber : Transcriber σ) (writesTokens : Bool) : Transcriber σ :=
  { transcriber with writesTokens }

/-- An echoed line: its number, four columns wide, and its text. -/
def echoRow (numbered : Nat × String) : String :=
  Text.alignRight 4 (toString numbered.1) ++ ": " ++ numbered.2 ++ "\n"

/-- Whether a token lets a line be echoed. -/
def isDue (token : Token) (numbered : Nat × String) : Bool :=
  token.kind == .endOfFile || numbered.1 ≤ token.line

/-- What a token brings into the listing. -/
def rowsFor (transcriber : Transcriber σ) (token : Token) : String :=
  String.join ((transcriber.pending.takeWhile (isDue token)).map echoRow) ++
    if transcriber.writesTokens then token.numberedRow else ""

/-- Write what a token brings into the listing, unless a write has failed before. -/
def record (transcriber : Transcriber σ) (token : Token) :
    Transcriber σ × List Journal.Entry :=
  if transcriber.fault.isSome then (transcriber, [])
  else
    let rows := transcriber.rowsFor token
    let written := { transcriber with
      listing := transcriber.listing.write rows
      pending := transcriber.pending.dropWhile (isDue token) }
    if transcriber.listing.fits rows then (written, [])
    else ({ written with fault := some .listingFull }, [.transcriptStopped .listingFull])

/-- Recording leaves the scanner behind the transcript as it is. -/
@[simp] theorem inner_record (transcriber : Transcriber σ) (token : Token) :
    (transcriber.record token).1.inner = transcriber.inner := by
  unfold record
  split
  · rfl
  · dsimp only
    split <;> rfl

/-- Take a token from the scanner and record it. -/
def next [Scanner σ] (transcriber : Transcriber σ) (status : Status) :
    Pull (Transcriber σ) :=
  let pulled := Scanner.next transcriber.inner status
  let recorded := { transcriber with inner := pulled.scanner }.record pulled.token
  ⟨pulled.token, recorded.1, pulled.status, pulled.entries ++ recorded.2⟩

instance [Scanner σ] : Scanner (Transcriber σ) where
  next := next

instance [FiniteScanner σ] : FiniteScanner (Transcriber σ) where
  remaining transcriber := FiniteScanner.remaining transcriber.inner
  remaining_next transcriber status more := by
    simpa [Scanner.next, next] using
      FiniteScanner.remaining_next transcriber.inner status more

/-- How the transcript went: the first fault, if there was one. -/
def outcome (transcriber : Transcriber σ) : Except Fault Unit :=
  match transcriber.fault with
  | none => .ok ()
  | some fault => .error fault

end FrontEnd.Transcriber
