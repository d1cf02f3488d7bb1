import FrontEnd.Scanner.Basic

/-! # Scanners that share a status

Several scanners can be in use at once over one status and one journal. Each keeps its own place
in its own source, and every pull moves the shared status to the line of the token it yields.
-/

namespace FrontEnd

/-- Scanners in use over one status. -/
structure SharedSession (σ : Type) where
  scanners : List σ
  status : Status
  journal : List Journal.Entry

namespace SharedSession

/-- What can be done with scanners that share a status. -/
inductive Step where
  | pull (scanner : Nat)
  | moveTo (line : Nat)
  | flag
deriving DecidableEq, Repr

variable {σ : Type}

/-- Carry out a step; only a pull on an existing scanner yields a token. -/
def step [Scanner σ] (session : SharedSession σ) : Step → Option Token × SharedSession σ
  | .pull index =>
    match session.scanners[index]? with
    | none => (none, session)
    | some scanner =>
      let pulled := Session.pull ⟨scanner, session.status, session.journal⟩
      (some pulled.1,
        ⟨session.scanners.set index pulled.2.scanner, pulled.2.status, pulled.2.journal⟩)
  | .moveTo line => (none, { session with status := session.status.moveTo line })
  | .flag =>
    (none, { session with
      status := session.status.flag
      journal := session.journal ++ session.status.flagEntries })

/-- Carry out steps in order, with what each yields and the status after it. -/
def run [Scanner σ] (session : SharedSession σ) :
    List Step → List (Option Token × Status) × SharedSession σ
  | [] => ([], session)
  | first :: rest =>
    let stepped := session.step first
    let later := run stepped.2 rest
    ((stepped.1, stepped.2.status) :: later.1, later.2)

end FrontEnd.SharedSession
