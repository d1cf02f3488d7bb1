import FrontEnd.CommandLine.Request
import Mathlib.Data.List.Perm.Basic

/-! # Arguments in any order

A file and the options for what is listed can stand in any order. Each word is taken into the draft of
the request on its own, so what has been read so far only matters in that no word may come twice.
-/

namespace FrontEnd.CommandLine

/-- The options that say what is listed. -/
def listingOptions : List String :=
  ["--echo-source", "--no-trace-scan"]

/-- A word that does not begin with a dash is a file. -/
theorem Word.of_file {word : String} (named : word.toList.head? ≠ some '-') :
    Word.of word = .file := by
  have dashed : ∀ switch ∈ switches, switch.1.toList.head? = some '-' := by decide
  have unlisted : (switches.find? fun switch => switch.1 == word) = none := by
    rw [List.find?_eq_none]
    intro switch member same
    rw [← beq_iff_eq.mp same] at named
    exact named (dashed switch member)
  rw [Word.of, unlisted]
  cases chars : word.toList with
  | nil => rfl
  | cons first rest =>
    have first_ne : first ≠ '-' := by
      rintro rfl
      rw [chars] at named
      exact named rfl
    dsimp only
    split <;> first | rfl | exact absurd (List.head_eq_of_cons_eq ‹_›) first_ne

section

variable (environment : Option String) {draft : Draft} (rest : List String)

theorem read_file {word : String} (named : word.toList.head? ≠ some '-')
    (fresh : draft.file = none) :
    read environment draft (word :: rest) =
      read environment { draft with file := some word } rest := by
  rw [read.eq_def]
  simp [Word.of_file named, Draft.withFile, fresh]

theorem read_echoSource (fresh : draft.echoSource = false) :
    read environment draft ("--echo-source" :: rest) =
      read environment { draft with echoSource := true } rest := by
  have option : Word.of "--echo-source" = .echoSource := by decide
  rw [read.eq_def]
  simp [option, fresh]

theorem read_hideTokens (fresh : draft.hideTokens = false) :
    read environment draft ("--no-trace-scan" :: rest) =
      read environment { draft with hideTokens := true } rest := by
  have option : Word.of "--no-trace-scan" = .hideTokens := by decide
  rw [read.eq_def]
  simp [option, fresh]

end

/-- A draft for which the rest of the arguments holds the file, unless it has one, and options that it
has not taken yet. -/
structure Draft.Awaits (draft : Draft) (file : String) (rest : List String) : Prop where
  distinct : rest.Nodup
  known : ∀ word ∈ rest, word = file ∨ word ∈ listingOptions
  awaited : draft.file = if file ∈ rest then none else some file
  echo : "--echo-source" ∈ rest → draft.echoSource = false
  hide : "--no-trace-scan" ∈ rest → draft.hideTokens = false
  unset : draft.threshold = none

/-- A draft that has taken a word, and nothing of what the later words are for, awaits those. -/
theorem Draft.Awaits.next {draft next : Draft} {file word : String} {later : List String}
    (awaits : draft.Awaits file (word :: later))
    (awaited : next.file = if file ∈ later then none else some file)
    (echo : "--echo-source" ∈ later → next.echoSource = draft.echoSource)
    (hide : "--no-trace-scan" ∈ later → next.hideTokens = draft.hideTokens)
    (unset : next.threshold = draft.threshold) : next.Awaits file later where
  distinct := awaits.distinct.of_cons
  known other member := awaits.known other (List.mem_cons_of_mem _ member)
  awaited := awaited
  echo member := (echo member).trans (awaits.echo (List.mem_cons_of_mem _ member))
  hide member := (hide member).trans (awaits.hide (List.mem_cons_of_mem _ member))
  unset := unset.trans awaits.unset

/-- The options are found wherever they stand. -/
theorem Draft.Awaits.read {draft : Draft} {file : String} {rest : List String}
    (awaits : draft.Awaits file rest) (named : file.toList.head? ≠ some '-') :
    CommandLine.read none draft rest =
      .request ⟨file, draft.echoSource || decide ("--echo-source" ∈ rest),
        draft.hideTokens || decide ("--no-trace-scan" ∈ rest), none⟩ := by
  induction rest generalizing draft with
  | nil =>
    have given : draft.file = some file := awaits.awaited
    simp [CommandLine.read, Draft.complete, given, awaits.unset]
  | cons word later ih =>
    have absent := (List.nodup_cons.mp awaits.distinct).1
    have apart : file ≠ "--echo-source" ∧ file ≠ "--no-trace-scan" := by
      constructor <;>
      · rintro rfl
        exact named (by decide)
    obtain rfl | option := awaits.known word (List.mem_cons_self ..)
    · have fresh : draft.file = none := awaits.awaited.trans (if_pos (List.mem_cons_self ..))
      have next : Draft.Awaits { draft with file := some word } word later :=
        awaits.next (if_neg absent).symm (fun _ => rfl) (fun _ => rfl) rfl
      rw [read_file none _ named fresh, ih next]
      simp [apart.1.symm, apart.2.symm]
    · simp only [listingOptions, List.mem_cons, List.not_mem_nil, or_false] at option
      obtain rfl | rfl := option
      · have awaited : draft.file = if file ∈ later then none else some file := by
          simpa [apart.1] using awaits.awaited
        have next : Draft.Awaits { draft with echoSource := true } file later :=
          awaits.next awaited (fun member => absurd member absent) (fun _ => rfl) rfl
        rw [read_echoSource none _ (awaits.echo (List.mem_cons_self ..)), ih next]
        simp
      · have awaited : draft.file = if file ∈ later then none else some file := by
          simpa [apart.2] using awaits.awaited
        have next : Draft.Awaits { draft with hideTokens := true } file later :=
          awaits.next awaited (fun _ => rfl) (fun member => absurd member absent) rfl
        rw [read_hideTokens none _ (awaits.hide (List.mem_cons_self ..)), ih next]
        simp

/-- A file with some of the options for what is listed is a request for that file, in whatever order
they stand. -/
theorem read_file_with_options {file : String} {options arguments : List String}
    (named : file.toList.head? ≠ some '-') (chosen : options.Sublist listingOptions)
    (asked : arguments.Perm (file :: options)) :
    read none {} arguments = .request ⟨file, decide ("--echo-source" ∈ options),
      decide ("--no-trace-scan" ∈ options), none⟩ := by
  have dashed : ∀ option ∈ listingOptions, option.toList.head? = some '-' := by decide
  have unlisted : file ∉ listingOptions := fun member => named (dashed file member)
  have awaits : Draft.Awaits {} file arguments := by
    constructor
    case distinct =>
      rw [asked.nodup_iff, List.nodup_cons]
      exact ⟨fun member => unlisted (chosen.subset member), chosen.nodup (by decide)⟩
    case known =>
      intro word member
      exact (List.mem_cons.mp (asked.mem_iff.mp member)).imp_right fun option => chosen.subset option
    case awaited => exact (if_pos (asked.mem_iff.mpr (List.mem_cons_self ..))).symm
    case echo => exact fun _ => rfl
    case hide => exact fun _ => rfl
    case unset => rfl
  have apart (option : String) (member : option ∈ listingOptions) : option ≠ file := by
    rintro rfl
    exact unlisted member
  rw [awaits.read named]
  simp [asked.mem_iff, apart "--echo-source" (by decide), apart "--no-trace-scan" (by decide)]

end FrontEnd.CommandLine
