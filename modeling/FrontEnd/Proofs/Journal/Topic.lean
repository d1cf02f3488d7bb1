import FrontEnd.Status
import FrontEnd.Token.Basic
import Mathlib.Data.List.Basic

/-! # What the journal tells of

The entries of a journal are told apart by what they are about. A journal follows the tokens that
were taken if each fault among them has its entry, in order, and the entry of the raised flag stands
directly behind the fault that has raised it. Whatever else is told may stand in between.
-/

namespace FrontEnd

namespace Journal

/-- What an entry tells of. -/
inductive Topic where
  | faults
  | flag
  | transcript
  /-- What a parser has come to. -/
  | verdict
  | gate
  | code
  /-- How far a compilation has come. -/
  | progress
deriving DecidableEq, Repr

def Entry.topic : Entry → Topic
  | lexicalError .. => .faults
  | flagRaised _ => .flag
  | transcriptStopped _ => .transcript
  | parsed _ | parsingAbandoned _ => .verdict
  | skipping _ => .gate
  | generating _ => .code
  | scannedTo _ | parsing | compiling .. | starting _ => .progress

def about (topic : Topic) (journal : List Entry) : List Entry :=
  journal.filter fun entry => entry.topic = topic

variable {topic : Topic} {entry : Entry} {journal : List Entry}

@[simp] theorem about_nil (topic : Topic) : about topic [] = [] := rfl

@[simp] theorem about_append (topic : Topic) (first second : List Entry) :
    about topic (first ++ second) = about topic first ++ about topic second :=
  List.filter_append ..

theorem about_cons (topic : Topic) (entry : Entry) (journal : List Entry) :
    about topic (entry :: journal) =
      if entry.topic = topic then entry :: about topic journal else about topic journal := by
  simp only [about, List.filter_cons, decide_eq_true_eq]

/-- Nothing is told of a topic by entries about others. -/
theorem about_of_others (others : ∀ entry ∈ journal, entry.topic ≠ topic) :
    about topic journal = [] := by
  simpa [about, List.filter_eq_nil_iff] using others

theorem mem_about_iff : entry ∈ about topic journal ↔ entry ∈ journal ∧ entry.topic = topic := by
  simp [about]

/-- Where there is one entry about a topic at most, two of them are the same. -/
theorem eq_of_length_about_le_one {other : Entry} (single : (about topic journal).length ≤ 1)
    (here : entry ∈ about topic journal) (there : other ∈ about topic journal) : entry = other := by
  generalize about topic journal = entries at single here there
  match entries with
  | [] => cases here
  | [only] => rw [List.mem_singleton.mp here, List.mem_singleton.mp there]

theorem topic_of_mem_flagEntries {status : Status} :
    ∀ entry ∈ status.flagEntries, entry.topic = .flag := by
  unfold Status.flagEntries
  split <;> simp [Entry.topic]

/-- How many more entries are about a topic than they should be if one says that a state holds. -/
def balance (topic : Topic) (journal : List Entry) (holds : Bool) : Int :=
  (about topic journal).length - holds.toNat

theorem balance_append_others {entries : List Entry}
    (others : ∀ entry ∈ entries, entry.topic ≠ topic) (journal : List Entry) (holds : Bool) :
    balance topic (journal ++ entries) holds = balance topic journal holds := by
  rw [balance, about_append, about_of_others others, List.append_nil, balance]

/-- A state that is balanced is told of once if it has come to hold, and cannot have ceased to. -/
theorem length_about_of_balance {before after : Bool}
    (balanced : balance topic journal after = balance topic [] before) :
    (about topic journal).length = (if before = false ∧ after = true then 1 else 0) ∧
      (before = true → after = true) := by
  unfold balance at balanced
  rw [about_nil, List.length_nil] at balanced
  generalize (about topic journal).length = count at balanced ⊢
  cases before <;> cases after <;> simp at balanced ⊢ <;> omega

/-- To raise a flag keeps the balance of its entries. -/
theorem balance_flag (journal : List Entry) (status : Status) :
    balance .flag (journal ++ status.flagEntries) status.flag.flagged =
      balance .flag journal status.flagged := by
  obtain ⟨line, flagged⟩ := status
  unfold balance
  rw [about_append]
  cases flagged <;> simp [Status.flag, Status.flagEntries, about_cons, Entry.topic]

end Journal

open Journal

/-- A token that was taken, and whether the error flag was up before. -/
structure Taking where
  token : Token
  flagged : Bool
deriving DecidableEq, Repr

namespace Taking

def isFault (taking : Taking) : Bool :=
  taking.token.kind.isFault

def report (taking : Taking) : Entry :=
  .lexicalError taking.token.lexeme taking.token.line

/-- What taking a token adds to a journal. -/
def told (taking : Taking) : List Entry :=
  if taking.isFault then
    taking.report :: if taking.flagged then [] else [.flagRaised taking.token.line]
  else []

def reports (takings : List Taking) : List Entry :=
  (takings.filter isFault).map report

theorem topic_of_mem_told {taking : Taking} :
    ∀ entry ∈ taking.told, entry.topic = .faults ∨ entry.topic = .flag := by
  unfold told
  split
  · split <;> simp [report, Entry.topic]
  · nofun

/-- A fault that is told of keeps the balance of the flag. -/
theorem balance_told (taking : Taking) (journal : List Entry) :
    balance .flag (journal ++ taking.told) (taking.flagged || taking.isFault) =
      balance .flag journal taking.flagged := by
  obtain ⟨⟨kind, lexeme, line⟩, flagged⟩ := taking
  unfold told balance
  rw [about_append]
  cases fault : kind.isFault <;> cases flagged <;>
    simp [isFault, fault, about_cons, report, Entry.topic]

theorem about_faults_told (taking : Taking) : about .faults taking.told = reports [taking] := by
  obtain ⟨⟨kind, lexeme, line⟩, flagged⟩ := taking
  unfold told reports
  cases fault : kind.isFault <;> cases flagged <;> simp [isFault, fault, about, report, Entry.topic]

end Taking

/-- A journal that follows the tokens that were taken. -/
inductive Follows : List Taking → List Entry → Prop
  | start : Follows [] []
  | taking {takings : List Taking} {journal : List Entry} (taking : Taking) :
      Follows takings journal → Follows (takings ++ [taking]) (journal ++ taking.told)
  | other {takings : List Taking} {journal : List Entry} (entry : Entry) :
      Follows takings journal → entry.topic ≠ .faults → Follows takings (journal ++ [entry])

namespace Follows

variable {takings : List Taking} {journal : List Entry}

theorem append (follows : Follows takings journal) (entries : List Entry)
    (others : ∀ entry ∈ entries, entry.topic ≠ .faults) : Follows takings (journal ++ entries) := by
  induction entries generalizing journal with
  | nil => rwa [List.append_nil]
  | cons entry later ih =>
    obtain ⟨first, others⟩ := List.forall_mem_cons.mp others
    rw [List.append_cons]
    exact ih (follows.other entry first) others

/-- The faults that are told of are those among the tokens, in order. -/
theorem about_faults (follows : Follows takings journal) :
    about .faults journal = Taking.reports takings := by
  induction follows with
  | start => rfl
  | taking taking _ ih =>
    rw [about_append, ih, taking.about_faults_told, Taking.reports, Taking.reports, Taking.reports,
      List.filter_append, List.map_append]
  | other entry _ different ih =>
    rw [about_append, ih, about_of_others (List.forall_mem_singleton.mpr different), List.append_nil]

/-- A fault that is taken while the flag is down raises it, and that is told directly behind. -/
theorem raised (follows : Follows takings journal) {earlier later : List Taking} {taking : Taking}
    (split : takings = earlier ++ taking :: later) (fault : taking.isFault = true)
    (down : taking.flagged = false) :
    ∃ before after, journal = before ++ taking.report :: .flagRaised taking.token.line :: after ∧
      about .faults before = Taking.reports earlier := by
  induction follows generalizing later with
  | start => simp at split
  | @taking takings journal last follows ih =>
    obtain rfl | ⟨between, final, rfl⟩ := List.eq_nil_or_concat' later
    · -- The fault is the last token that was taken.
      obtain ⟨rfl, same⟩ := List.append_inj' split rfl
      obtain rfl := (List.cons.inj same).1
      refine ⟨journal, [], ?_, follows.about_faults⟩
      simp [Taking.told, fault, down]
    · rw [← List.cons_append, ← List.append_assoc] at split
      obtain ⟨shorter, -⟩ := List.append_inj' split rfl
      obtain ⟨before, after, rfl, told⟩ := ih shorter
      exact ⟨before, after ++ last.told, by simp, told⟩
  | other entry _ _ ih =>
    obtain ⟨before, after, rfl, told⟩ := ih split
    exact ⟨before, after ++ [entry], by simp, told⟩

end Follows

end FrontEnd
