import FrontEnd.Proofs.Compilation.Tracing

/-! # Scan listings can be read back

The listing of the scan phase is a header and the rows of the tokens. Its tokens can be read back from
it, and so can the lines of the source if they are echoed, whatever stands in them. So sources with the
same listing have the same tokens and, if it shows them, the same lines.
-/

namespace FrontEnd

open Transcriber

/-! ### What stands in the rows -/

/-- Every lexeme is a word. -/
theorem Lexer.lexeme_not_blank (source : String) (status : Status) :
    ∀ token ∈ (tokens source status).1, ∀ char ∈ token.lexeme.toList, char ∉ blanks := by
  obtain ⟨lead, pieces, ending, gap, valid, longest, isEnding, woven⟩ := exists_weave source.toList
  obtain ⟨last, entries⟩ := map_entryOf_tokens isEnding gap valid longest woven status
  intro token member
  have listed : entryOf token ∈ pieces.map Piece.entry ++ (closing ending last).map entryOf :=
    entries ▸ List.mem_map_of_mem member
  obtain listed | listed := List.mem_append.mp listed
  · obtain ⟨piece, present, same⟩ := List.mem_map.mp listed
    have lexeme : String.ofList piece.text = token.lexeme := congrArg Prod.snd same
    rw [← lexeme, String.toList_ofList]
    exact (valid piece present).lexeme.not_blank
  · obtain ⟨closer, present, same⟩ := List.mem_map.mp listed
    have closers : closer.lexeme = "/*" ∨ closer.lexeme = "" := by
      unfold closing at present
      split at present <;> simp only [List.mem_cons, List.not_mem_nil, or_false] at present
      · exact .inr (congrArg Token.lexeme present)
      · exact present.imp (congrArg Token.lexeme) (congrArg Token.lexeme)
    have lexeme : closer.lexeme = token.lexeme := congrArg Prod.snd same
    rw [← lexeme]
    obtain opening | nothing := closers
    · have spelled : closer.lexeme.toList = ['/', '*'] := by
        rw [opening]
        decide
      rw [spelled, List.forall_mem_cons, List.forall_mem_singleton]
      decide
    · rw [nothing]
      nofun

namespace Run

variable {ρ : Type}

theorem legible_scan (settings : Settings) (source : String) (status : Status) :
    ∀ row ∈ rows (echoed settings source) (tokens source status).1, row.Legible := by
  have ended := Session.exists_endOfFile_drain (Lexer.session source status)
  refine forall_rows ended (fun numbered listed => ?_) (Lexer.lexeme_not_blank source status)
  unfold echoed at listed
  split at listed
  · apply (Text.hasLines_lines source.toList).newline_not_mem
    rw [← Text.map_numberedLines]
    exact List.mem_map_of_mem listed
  · cases listed

/-- The listing of a source: a header, and the rows of the tokens. -/
def scanListing (settings : Settings) (source : String) (status : Status) : String :=
  scanHeader ++ Row.join (rows (echoed settings source) (tokens source status).1)

/-- A run of the scan phase succeeds, and leaves the listing of its source. -/
theorem scan_listing (stages : Stages ρ) {settings : Settings} (scans : settings.phase = .scan)
    (traced : settings.traceScan = true) (source : String) (codePath : Path) (status : Status)
    (files : FileTree) :
    ∃ last, ofStages stages settings source codePath (.start status none files) = .ok none last ∧
      last.listing.content = (scanListing settings source status).toUTF8 := by
  have written : header settings ++
      trace settings.traceScan (echoed settings source) (tokens source status).1 =
        scanListing settings source status := by
    rw [header_eq, traced, if_pos rfl, trace_true, scanListing]
  refine ⟨_, ofStages_scan source rfl stages scans codePath, ?_⟩
  rw [← written]
  exact ByteArray.empty_append

/-- The rows can be read back from a listing. -/
theorem rows_of_scanListing {settings other : Settings} {source text : String}
    {status otherStatus : Status}
    (same : scanListing settings source status = scanListing other text otherStatus) :
    rows (echoed settings source) (tokens source status).1 =
      rows (echoed other text) (tokens text otherStatus).1 := by
  have joined := (String.append_right_inj _).mp same
  rw [← Row.readAll_join (legible_scan settings source status), joined,
    Row.readAll_join (legible_scan other text otherStatus)]

/-- Nothing is lost in the listings of the scan phase: sources with the same listing have the same
tokens, each of the same kind, lexeme and line, and the same lines if these are echoed. This holds
whatever the lines and the lexemes are, and however long. -/
theorem sources_of_scan_listing (stages others : Stages ρ) {settings other : Settings}
    (scans : settings.phase = .scan) (otherScans : other.phase = .scan)
    (traced : settings.traceScan = true) (otherTraced : other.traceScan = true)
    (sameEcho : settings.echoSource = other.echoSource) (source text : String)
    (codePath otherPath : Path) (status otherStatus : Status) (files otherFiles : FileTree) :
    ∃ last otherLast,
      ofStages stages settings source codePath (.start status none files) = .ok none last ∧
      ofStages others other text otherPath (.start otherStatus none otherFiles) =
        .ok none otherLast ∧
      (last.listing.content = otherLast.listing.content →
        (tokens source status).1 = (tokens text otherStatus).1 ∧
          (settings.echoSource = true → Text.lines source.toList = Text.lines text.toList)) := by
  obtain ⟨last, ran, content⟩ := scan_listing stages scans traced source codePath status files
  obtain ⟨otherLast, otherRan, otherContent⟩ :=
    scan_listing others otherScans otherTraced text otherPath otherStatus otherFiles
  refine ⟨last, otherLast, ran, otherRan, fun same => ?_⟩
  rw [content, otherContent] at same
  have sameRows := rows_of_scanListing (String.toByteArray_inj.mp same)
  constructor
  · rw [← token?_rows (echoed settings source) (tokens source status).1, sameRows, token?_rows]
  · intro echo
    have lines : echoed settings source = echoed other text := by
      have ended := Session.exists_endOfFile_drain (Lexer.session source status)
      have otherEnded := Session.exists_endOfFile_drain (Lexer.session text otherStatus)
      have listed : (rows (echoed settings source) (tokens source status).1).filterMap Row.line? =
          echoed settings source := line?_rows _ ended
      have otherListed : (rows (echoed other text) (tokens text otherStatus).1).filterMap Row.line? =
          echoed other text := line?_rows _ otherEnded
      rw [← listed, sameRows, otherListed]
    rw [echoed, echoed, ← sameEcho, echo] at lines
    have unnumbered := congrArg (List.map fun numbered => numbered.2.toList) lines
    exact (Text.map_numberedLines _).symm.trans (unnumbered.trans (Text.map_numberedLines _))

/-- Two sources that differ in how a line ends, which no listing shows. -/
theorem sources_of_scan_listing_lineEndings :
    let settings : Settings := { echoSource := true }
    let run (source : String) : Run Unit (Option Path) :=
      ofStages .none settings source (.ofText "out.tm")
    let workspace := .start {} none (FileTree.scratch ["work"])
    ∃ last otherLast, run "1: b\r\n!" workspace = .ok none last ∧
      run "1: b\n!" workspace = .ok none otherLast ∧
      last.listing.content = otherLast.listing.content ∧
      (tokens "1: b\r\n!" {}).1 = (tokens "1: b\n!" {}).1 ∧
      (settings.echoSource = true →
        Text.lines "1: b\r\n!".toList = Text.lines "1: b\n!".toList) := by
  intro settings run workspace
  have scans : settings.phase = .scan := rfl
  have traced : settings.traceScan = true := rfl
  obtain ⟨last, otherLast, ran, otherRan, sources⟩ :=
    sources_of_scan_listing (.none : Stages Unit) .none scans scans traced traced rfl "1: b\r\n!"
      "1: b\n!" (.ofText "out.tm") (.ofText "out.tm") {} {} (FileTree.scratch ["work"])
      (FileTree.scratch ["work"])
  have content : last.listing.content = otherLast.listing.content := by
    obtain ⟨left, leftRan, leftContent⟩ :=
      scan_listing (.none : Stages Unit) scans traced "1: b\r\n!" (.ofText "out.tm") {}
        (FileTree.scratch ["work"])
    obtain ⟨right, rightRan, rightContent⟩ :=
      scan_listing (.none : Stages Unit) scans traced "1: b\n!" (.ofText "out.tm") {}
        (FileTree.scratch ["work"])
    cases ran.symm.trans leftRan
    cases otherRan.symm.trans rightRan
    have sameRows : rows (echoed settings "1: b\r\n!") (tokens "1: b\r\n!" {}).1 =
        rows (echoed settings "1: b\n!") (tokens "1: b\n!" {}).1 := by decide +kernel
    rw [leftContent, rightContent, scanListing, scanListing, sameRows]
  exact ⟨last, otherLast, ran, otherRan, content, sources content⟩

end Run

end FrontEnd
