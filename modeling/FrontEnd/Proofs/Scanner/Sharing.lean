import FrontEnd.Proofs.Lexer.Stream
import FrontEnd.Scanner.Shared

/-! # Lexers that share a status

Lexers in use over one status do not disturb each other. Each yields the tokens of its own source,
however its pulls are mixed with those of the others and with moves and flags from outside. What
they share is as their steps leave it: the line is that of the last token or move, and the flag is up
if it was up at the start or anything since has raised it.
-/

namespace FrontEnd.SharedSession

/-- The tokens that one of the scanners yields in a run, in order. -/
def yielded (index : Nat) (steps : List Step) (answers : List (Option Token × Status)) :
    List Token :=
  (steps.zip answers).filterMap fun answered =>
    if answered.1 = .pull index then answered.2.1 else none

variable (session : SharedSession Lexer)

/-! ### Steps -/

theorem step_pull {index : Nat} {lexer : Lexer} (inUse : session.scanners[index]? = some lexer) :
    session.step (.pull index) =
      (some lexer.step.1, ⟨session.scanners.set index lexer.step.2,
        (Lexer.observe lexer.step.1 session.status).1,
        session.journal ++ (Lexer.observe lexer.step.1 session.status).2⟩) := by
  simp only [step, inUse]
  rfl

/-- A step moves on the scanner that is pulled, and no other. -/
theorem getElem?_scanners_step (step : Step) {index : Nat} {lexer : Lexer}
    (inUse : session.scanners[index]? = some lexer) :
    (session.step step).2.scanners[index]? =
      some (if step = .pull index then lexer.step.2 else lexer) := by
  cases step with
  | moveTo line => exact inUse
  | flag => exact inUse
  | pull other =>
    cases pulled : session.scanners[other]? with
    | none =>
      have differs : other ≠ index := by
        rintro rfl
        rw [inUse] at pulled
        cases pulled
      simpa [SharedSession.step, pulled, differs] using inUse
    | some source =>
      rw [step_pull session pulled, List.getElem?_set]
      by_cases same : other = index
      · subst same
        obtain rfl : lexer = source := Option.some.inj (inUse.symm.trans pulled)
        have bound := (List.getElem?_eq_some_iff.mp inUse).1
        simp [bound]
      · simpa [same] using inUse

/-- A step raises the flag by being a flag or by yielding a fault, and none lowers it. -/
theorem flagged_step_iff (step : Step) :
    (session.step step).2.status.flagged = true ↔ session.status.flagged = true ∨ step = .flag ∨
      ∃ token, (session.step step).1 = some token ∧ token.kind.isFault = true := by
  cases step with
  | moveTo line => simp [SharedSession.step, Status.moveTo]
  | flag => simp [SharedSession.step, Status.flag]
  | pull index =>
    cases pulled : session.scanners[index]? with
    | none => simp [SharedSession.step, pulled]
    | some lexer => simp [step_pull session pulled, Lexer.flagged_observe]

/-! ### Runs -/

/-- Every answer of a run is that of its own step, on what the steps before it left. -/
theorem getElem?_run (steps : List Step) (place : Nat) :
    (session.run steps).1[place]? = steps[place]?.map fun step =>
      let stepped := (session.run (steps.take place)).2.step step
      (stepped.1, stepped.2.status) := by
  induction steps generalizing session place with
  | nil => rfl
  | cons first rest ih =>
    cases place with
    | zero => rfl
    | succ place => exact ih (session.step first).2 place

theorem length_run (steps : List Step) : (session.run steps).1.length = steps.length := by
  induction steps generalizing session with
  | nil => rfl
  | cons first rest ih => exact congrArg Nat.succ (ih (session.step first).2)

theorem exists_scanner_run {index : Nat} {lexer : Lexer}
    (inUse : session.scanners[index]? = some lexer) (steps : List Step) :
    ∃ left, (session.run steps).2.scanners[index]? = some left := by
  induction steps generalizing session lexer with
  | nil => exact ⟨lexer, inUse⟩
  | cons first rest ih => exact ih _ (getElem?_scanners_step session first inUse)

/-- A scanner yields as many of its tokens as it is asked for. -/
theorem yielded_run {index : Nat} {lexer : Lexer} (inUse : session.scanners[index]? = some lexer)
    (steps : List Step) :
    yielded index steps (session.run steps).1 = lexer.ahead (steps.count (.pull index)) := by
  induction steps generalizing session lexer with
  | nil => rfl
  | cons first rest ih =>
    have later := ih _ (getElem?_scanners_step session first inUse)
    unfold yielded at later ⊢
    by_cases pulled : first = .pull index
    · subst pulled
      simp only [↓reduceIte] at later
      simp only [run, List.zip_cons_cons, List.filterMap_cons, ↓reduceIte, later,
        List.count_cons_self, Lexer.ahead]
      rw [step_pull session inUse]
    · simp only [pulled, ↓reduceIte] at later
      simp [run, pulled, later]

/-- After every step the flag is up for one of three reasons. -/
theorem flagged_run_iff (steps : List Step) {place : Nat} {answer : Option Token × Status}
    (answered : (session.run steps).1[place]? = some answer) :
    answer.2.flagged = true ↔ session.status.flagged = true ∨ .flag ∈ steps.take (place + 1) ∨
      ∃ token, some token ∈ ((session.run steps).1.take (place + 1)).map Prod.fst ∧
        token.kind.isFault = true := by
  induction steps generalizing session place with
  | nil => cases answered
  | cons first rest ih =>
    have raised := flagged_step_iff session first
    cases place with
    | zero =>
      cases answered
      simp only [run, List.take_succ_cons, List.take_zero, List.mem_singleton, List.map_cons,
        List.map_nil, raised]
      grind
    | succ place =>
      have later := ih (session.step first).2 answered
      simp only [run, List.take_succ_cons, List.mem_cons, List.map_cons, later, raised]
      grind

variable {session}

/-- After a pull the status is on the line of the token that was yielded. -/
theorem line_of_pulled {steps : List Step} {place index : Nat} {lexer : Lexer}
    {token : Option Token} {status : Status} (inUse : session.scanners[index]? = some lexer)
    (pulled : steps[place]? = some (.pull index))
    (answered : (session.run steps).1[place]? = some (token, status)) :
    token.map Token.line = some status.line := by
  obtain ⟨left, ready⟩ := exists_scanner_run session inUse (steps.take place)
  rw [getElem?_run, pulled, Option.map_some, step_pull _ ready] at answered
  cases answered
  rw [Option.map_some, Lexer.line_observe]

theorem line_of_moved {steps : List Step} {place line : Nat} {token : Option Token}
    {status : Status} (moved : steps[place]? = some (.moveTo line))
    (answered : (session.run steps).1[place]? = some (token, status)) : status.line = line := by
  rw [getElem?_run, moved] at answered
  cases answered
  rfl

/-- Lexers of any sources that share a status do not disturb each other, whatever is done with them
and with the status. Every step is answered. The tokens of each lexer are the first of those that
its source has on a status of its own, followed by the last of these, the end of the file, without
end. After a pull the line is that of the token that was yielded, after a move it is the one that was
moved to, and after every step the flag is up if it was up at the start, a step so far was a flag, or
a token yielded so far is a fault. -/
theorem run_undisturbed (sources : List String) (start : Status) (journal : List Journal.Entry)
    (steps : List Step) :
    let lexers := sources.map fun source => Lexer.ofSource source.toList
    let answers := (run ⟨lexers, start, journal⟩ steps).1
    answers.length = steps.length ∧
      (∀ index source, sources[index]? = some source → ∀ alone,
        let whole := (tokens source alone).1
        let count := steps.count (.pull index)
        ∃ last, whole.getLast? = some last ∧ last.kind = .endOfFile ∧
          yielded index steps answers = (whole ++ List.replicate count last).take count) ∧
      ∀ place step token status, steps[place]? = some step →
        answers[place]? = some (token, status) →
          (∀ index source, step = .pull index → sources[index]? = some source →
            token.map Token.line = some status.line) ∧
          (∀ line, step = .moveTo line → status.line = line) ∧
          (status.flagged = true ↔ start.flagged = true ∨ .flag ∈ steps.take (place + 1) ∨
            ∃ shown, some shown ∈ (answers.take (place + 1)).map Prod.fst ∧
              shown.kind.isFault = true) := by
  intro lexers answers
  have inUse {index : Nat} {source : String} (given : sources[index]? = some source) :
      lexers[index]? = some (Lexer.ofSource source.toList) := by
    rw [List.getElem?_map, given]
    rfl
  refine ⟨length_run _ steps, fun index source given alone => ?_,
    fun place step token status asked answered => ⟨?_, ?_, ?_⟩⟩
  · obtain ⟨last, ends, isLast, ahead⟩ := Lexer.ahead_eq (Lexer.session source alone)
    refine ⟨last, ends, isLast, ?_⟩
    exact (yielded_run _ (inUse given) steps).trans (ahead _)
  · rintro index source rfl given
    exact line_of_pulled (inUse given) asked answered
  · rintro line rfl
    exact line_of_moved asked answered
  · exact flagged_run_iff _ steps answered

/-- Two lexers in turn, one past its end, with a move between them. -/
example :
    let lexers := ["a\nb", "!"].map fun source => Lexer.ofSource source.toList
    (run ⟨lexers, {}, []⟩ [.pull 0, .pull 1, .pull 0, .pull 1, .moveTo 7, .pull 1]).1.map
        (fun answer => (answer.1.map Token.lexeme, answer.2.line, answer.2.flagged)) =
      [(some "a", 1, false), (some "!", 1, true), (some "b", 2, true), (some "", 1, true),
        (none, 7, true), (some "", 1, true)] := by decide

end FrontEnd.SharedSession
