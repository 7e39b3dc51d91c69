/-
Module: LexLisp.Proofs.Conversation
Purpose: What the interactive loop makes of its lines. A line is skipped, held back, or completes an input; which of
  these depends on the line and on the lines held back, and not on what any evaluation comes to. So the inputs that
  are evaluated, and what is held back at the end, are the lines in their order, but for those that are skipped. Each
  of these inputs is executed once, in the session that the lines before it have left.
Main exports: linesIn, Ready, Handed, skips, classify_cases, Exchange, Repl.exchanges, Repl.final, Evaluation,
  Exchange.law, Exchange.turn_lines, Repl.repls_run, Segmented, runRepl_segmented
-/
import LexLisp.Repl

namespace LexLisp

/-!
### Lines of a text
-/

/-- The lines of a text: what stands between its newlines. -/
def linesIn (text : String) : List String :=
  (text.toList.splitOn '\n').map String.ofList

/-- The last line of a text. -/
def lastLine (text : String) : String :=
  (linesIn text).getLastD ""

theorem linesIn_line {line : String} (single : '\n' ∉ line.toList) : linesIn line = [line] := by
  have whole : line.toList.splitOn '\n' = [line.toList] := by
    rw [List.splitOn]
    apply List.splitOnP_eq_singleton
    rintro c member
    simpa using fun same : c = '\n' => single (same ▸ member)
  rw [linesIn, whole, List.map_singleton, String.ofList_toList]

theorem linesIn_append {line : String} (single : '\n' ∉ line.toList) (text : String) :
    linesIn (text ++ "\n" ++ line) = linesIn text ++ [line] := by
  have split : (text ++ "\n" ++ line).toList.splitOn '\n' =
      text.toList.splitOn '\n' ++ line.toList.splitOn '\n' := by
    have joined : (text ++ "\n" ++ line).toList = text.toList ++ '\n' :: line.toList := by simp
    rw [joined, List.splitOn, List.splitOn, List.splitOn, List.splitOnP_append_cons _ _ (by simp)]
  rw [linesIn, split, List.map_append, ← linesIn, ← linesIn, linesIn_line single]

theorem isBlankText_append (text line : String) :
    isBlankText (text ++ "\n" ++ line) = (isBlankText text && isBlankText line) := by
  have newline : isWhitespace '\n' = true := by decide
  simp [isBlankText, newline]

/-!
### One line after the lines held back
-/

/-- The lines held back in a buffer; an empty buffer holds none. -/
def heldLines (buffer : String) : List String :=
  if buffer.isEmpty then [] else linesIn buffer

/-- What a buffer may be while the loop waits for a line: it is empty, or it is not blank, not complete, and its last
    line is not blank. -/
def Ready (buffer : String) : Prop :=
  buffer = "" ∨
    isBlankText buffer = false ∧ isComplete buffer = false ∧ isBlankText (lastLine buffer) = false

/-- What an input is that is evaluated: it is not blank, and it is complete or its last line is blank. -/
def Handed (input : String) : Prop :=
  isBlankText input = false ∧ (isComplete input = true ∨ isBlankText (lastLine input) = true)

/-- Whether a line is passed over: nothing is held back, and the line is blank or a command. -/
def skips (buffer line : String) : Bool :=
  buffer.isEmpty && (isBlankText line || (trimmed line).startsWith ":")

/-- The lines held back with one more. -/
def lengthened (buffer line : String) : String :=
  if buffer.isEmpty then line else buffer ++ "\n" ++ line

theorem linesIn_lengthened {line : String} (single : '\n' ∉ line.toList) (buffer : String) :
    linesIn (lengthened buffer line) = heldLines buffer ++ [line] := by
  unfold lengthened heldLines
  split
  · exact linesIn_line single
  · exact linesIn_append single buffer

theorem lastLine_lengthened {line : String} (single : '\n' ∉ line.toList) (buffer : String) :
    lastLine (lengthened buffer line) = line := by
  rw [lastLine, linesIn_lengthened single, List.getLastD_concat]

theorem classify_eq (buffer line : String) :
    classify buffer line =
      if buffer.isEmpty ∧ (trimmed line).startsWith ":" then .command (trimmed line)
      else if isBlankText (lengthened buffer line) then .hold ""
      else if isComplete (lengthened buffer line) ∨ isBlankText line then .submit (lengthened buffer line)
      else .hold (lengthened buffer line) :=
  rfl

/-- A command stands where nothing is held back, and begins with a colon. -/
theorem classify_eq_command_iff {buffer line text : String} :
    classify buffer line = .command text ↔
      (buffer.isEmpty ∧ (trimmed line).startsWith ":") ∧ trimmed line = text := by
  rw [classify_eq]
  by_cases command : buffer.isEmpty ∧ (trimmed line).startsWith ":"
  · rw [if_pos command, LineAction.command.injEq]
    exact (and_iff_right command).symm
  · rw [if_neg command]
    refine iff_of_false ?_ fun other => command other.1
    split
    · nofun
    · split <;> nofun

/-- Where the buffer is as it may be, one more line leaves it blank only if it was empty and the line is blank. -/
theorem isBlankText_lengthened {buffer line : String} (ready : Ready buffer)
    (blank : isBlankText (lengthened buffer line) = true) : buffer = "" ∧ isBlankText line = true := by
  rcases ready with rfl | ⟨written, _, _⟩
  · exact ⟨rfl, blank⟩
  · have held : buffer.isEmpty = false := by
      rw [String.isEmpty_eq_false_iff]
      rintro rfl
      cases written
    rw [lengthened, if_neg (by simp [held]), isBlankText_append, written] at blank
    cases blank

/-- What becomes of a line where the buffer is as it may be: it is skipped, it is held back and the buffer is again
    as it may be, or it makes an input that is evaluated. -/
theorem classify_cases {buffer line : String} (ready : Ready buffer) (single : '\n' ∉ line.toList) :
    (skips buffer line = true ∧ buffer = "" ∧
      (classify buffer line = .command (trimmed line) ∨ classify buffer line = .hold "")) ∨
    (skips buffer line = false ∧ classify buffer line = .hold (lengthened buffer line) ∧
      lengthened buffer line ≠ "" ∧ Ready (lengthened buffer line)) ∨
    (skips buffer line = false ∧ classify buffer line = .submit (lengthened buffer line) ∧
      Handed (lengthened buffer line)) := by
  have decided := classify_eq buffer line
  by_cases command : buffer.isEmpty ∧ (trimmed line).startsWith ":"
  · rw [if_pos command] at decided
    refine .inl ⟨?_, String.isEmpty_iff.mp command.1, .inl decided⟩
    rw [skips, command.1, command.2, Bool.or_true, Bool.and_true]
  · rw [if_neg command] at decided
    by_cases blank : isBlankText (lengthened buffer line) = true
    · obtain ⟨rfl, blankLine⟩ := isBlankText_lengthened ready blank
      rw [if_pos blank] at decided
      exact .inl ⟨by simp [skips, blankLine], rfl, .inr decided⟩
    · rw [if_neg blank] at decided
      rw [Bool.not_eq_true] at blank
      have taken : skips buffer line = false := by
        rw [Bool.eq_false_iff, skips, ne_eq, Bool.and_eq_true, Bool.or_eq_true]
        rintro ⟨empty, blankLine | colon⟩
        · rw [lengthened, if_pos empty, blankLine] at blank
          cases blank
        · exact command ⟨empty, colon⟩
      by_cases full : isComplete (lengthened buffer line) ∨ isBlankText line
      · rw [if_pos full] at decided
        refine .inr (.inr ⟨taken, decided, blank, ?_⟩)
        rw [lastLine_lengthened single]
        exact full
      · rw [if_neg full] at decided
        obtain ⟨unfinished, written⟩ := not_or.mp full
        refine .inr (.inl ⟨taken, decided, ?_, .inr ⟨blank, by simpa using unfinished, ?_⟩⟩)
        · intro empty
          rw [empty] at blank
          cases blank
        · rw [lastLine_lengthened single]
          simpa using written

/-!
### One exchange
-/

/-- What a line leaves held back. -/
def LineAction.leaves (buffer : String) : LineAction → String
  | .command _ => buffer
  | .hold held => held
  | .submit _ => ""

/-- Whether a line ends the loop. -/
def LineAction.quits : LineAction → Bool
  | .command text => decide (ReplCommand.ofText text = .quit)
  | .hold _ => false
  | .submit _ => false

/-- A line at a prompt: the loop as it waits, and the line that it is given. -/
structure Exchange where
  repl : Repl
  line : String

/-- An input that was evaluated: the name it went by, its text, and what came of it. -/
structure Evaluation where
  source : String
  input : String
  outcome : Except Failure Value

/-- What is put out for an evaluation. -/
def Evaluation.output (evaluation : Evaluation) : Output :=
  match evaluation.outcome with
  | .ok value => .value value
  | .error failure => .failure failure

/-- Whether an output is the value or the failure of an input. -/
def Output.isResult : Output → Bool
  | .text _ => false
  | .value _ => true
  | .failure _ => true

@[simp] theorem Evaluation.isResult_output (evaluation : Evaluation) : evaluation.output.isResult = true := by
  unfold Evaluation.output
  split <;> rfl

namespace Exchange

/-- The loop after the line. -/
def turn (exchange : Exchange) (fuel : Nat) : Turn :=
  exchange.repl.advance fuel exchange.line

/-- Whether the line is passed over. -/
def isSkipped (exchange : Exchange) : Bool :=
  skips exchange.repl.buffer exchange.line

/-- Whether the line is the command to quit. -/
def isQuit (exchange : Exchange) : Bool :=
  exchange.repl.buffer.isEmpty && decide (ReplCommand.ofText (trimmed exchange.line) = .quit)

/-- Whether the line is the command to reset. -/
def isReset (exchange : Exchange) : Bool :=
  (exchange.repl.buffer.isEmpty && (trimmed exchange.line).startsWith ":") &&
    decide (ReplCommand.ofText (trimmed exchange.line) = .reset)

/-- What is evaluated at the line, if anything is. -/
def evaluation? (fuel : Nat) (exchange : Exchange) : Option Evaluation :=
  match classify exchange.repl.buffer exchange.line with
  | .submit input =>
    let source := Repl.sourceName (exchange.repl.inputs + 1)
    some ⟨source, input, (exchange.repl.session.execute fuel source input).1⟩
  | _ => none

/-- The lines of exchanges, but for those that are skipped. -/
def keptLines (exchanges : List Exchange) : List String :=
  (exchanges.filter (!·.isSkipped)).map (·.line)

theorem keptLines_cons (exchange : Exchange) (exchanges : List Exchange) :
    keptLines (exchange :: exchanges) =
      (if exchange.isSkipped then [] else [exchange.line]) ++ keptLines exchanges := by
  rw [keptLines, List.filter_cons]
  cases exchange.isSkipped <;> rfl

/-- The lines held back and the line: all that decides what becomes of it. -/
def place (exchange : Exchange) : String × String :=
  (exchange.repl.buffer, exchange.line)

end Exchange

/-- A command is obeyed with what is held back and the count of inputs as they are, and without a result. Only the
    command to quit ends the loop, and only the command to reset changes the session. -/
theorem Repl.obey_keeps (repl : Repl) (command : ReplCommand) :
    (repl.obey command).repl.buffer = repl.buffer ∧
      (repl.obey command).finished = decide (command = .quit) ∧
      (repl.obey command).repl.inputs = repl.inputs ∧
      (repl.obey command).repl.session = (if command = .reset then .fresh else repl.session) ∧
      (repl.obey command).outputs.filter Output.isResult = [] := by
  refine ⟨?_, ?_, ?_, ?_, ?_⟩
  · cases command <;> rfl
  · cases command <;> rfl
  · cases command <;> rfl
  · cases command <;> rfl
  · cases command with
    | help => rfl
    | quit => rfl
    | reset => rfl
    | bindings =>
        rw [Repl.obey, List.filter_map, List.map_eq_nil_iff, List.filter_eq_nil_iff]
        rintro entry _ result
        cases result
    | unknown text => rfl

namespace Exchange

section Steps

variable {fuel : Nat} {exchange : Exchange}

/-- A command is obeyed, and nothing is evaluated. -/
theorem commanded {text : String}
    (classified : classify exchange.repl.buffer exchange.line = .command text) :
    exchange.evaluation? fuel = none ∧ exchange.turn fuel = exchange.repl.obey (.ofText text) := by
  constructor
  · rw [evaluation?, classified]
  · rw [turn, Repl.advance, classified]

/-- A line that is held back changes nothing else, and nothing is evaluated. -/
theorem held {buffer : String}
    (classified : classify exchange.repl.buffer exchange.line = .hold buffer) :
    exchange.evaluation? fuel = none ∧
      exchange.turn fuel = ⟨{ exchange.repl with buffer := buffer }, [], false⟩ := by
  constructor
  · rw [evaluation?, classified]
  · rw [turn, Repl.advance, classified]

/-- An input is executed once, to a result that is put out. Whatever the result, nothing is held back after it, the
    count of inputs is one more, and the loop goes on in the session that the execution has left. -/
theorem submitted {input : String}
    (classified : classify exchange.repl.buffer exchange.line = .submit input) :
    ∃ evaluation session, exchange.evaluation? fuel = some evaluation ∧ evaluation.input = input ∧
      exchange.repl.session.execute fuel evaluation.source evaluation.input = (evaluation.outcome, session) ∧
      exchange.turn fuel = ⟨⟨session, exchange.repl.inputs + 1, ""⟩, [evaluation.output], false⟩ := by
  let source := Repl.sourceName (exchange.repl.inputs + 1)
  let executed := exchange.repl.session.execute fuel source input
  refine ⟨⟨source, input, executed.1⟩, executed.2, ?_, rfl, rfl, ?_⟩
  · rw [evaluation?, classified]
  · have run : exchange.turn fuel =
        match executed.1 with
        | .ok value => ⟨⟨executed.2, exchange.repl.inputs + 1, ""⟩, [.value value], false⟩
        | .error failure => ⟨⟨executed.2, exchange.repl.inputs + 1, ""⟩, [.failure failure], false⟩ := by
      rw [turn, Repl.advance, classified]
      rfl
    rw [run, Evaluation.output]
    cases executed.1 <;> rfl

/-- What a line does, whatever an evaluation comes to: what is held back after it and whether it ends the loop are
    decided before anything is evaluated, the count of inputs grows by what is evaluated, the results put out are
    those of what is evaluated, and the session is the one that what is evaluated leaves, a fresh one after a reset,
    and otherwise the one that there was. -/
structure Law (fuel : Nat) (exchange : Exchange) : Prop where
  buffer : (exchange.turn fuel).repl.buffer =
    (classify exchange.repl.buffer exchange.line).leaves exchange.repl.buffer
  finished : (exchange.turn fuel).finished = (classify exchange.repl.buffer exchange.line).quits
  inputs : (exchange.turn fuel).repl.inputs =
    exchange.repl.inputs + (exchange.evaluation? fuel).toList.length
  results : (exchange.turn fuel).outputs.filter Output.isResult =
    (exchange.evaluation? fuel).toList.map Evaluation.output
  executed : ∀ evaluation, exchange.evaluation? fuel = some evaluation →
    exchange.repl.session.execute fuel evaluation.source evaluation.input =
      (evaluation.outcome, (exchange.turn fuel).repl.session)
  unexecuted : exchange.evaluation? fuel = none →
    (exchange.turn fuel).repl.session = if exchange.isReset then .fresh else exchange.repl.session

/-- The command to reset is known from what the line is taken for. -/
theorem isReset_of_command {text : String}
    (classified : classify exchange.repl.buffer exchange.line = .command text) :
    exchange.isReset = decide (ReplCommand.ofText text = .reset) := by
  obtain ⟨command, rfl⟩ := classify_eq_command_iff.mp classified
  rw [isReset, command.1, command.2, Bool.and_true, Bool.true_and]

theorem isReset_of_hold {buffer : String} (classified : classify exchange.repl.buffer exchange.line = .hold buffer) :
    exchange.isReset = false := by
  rw [isReset, Bool.and_eq_false_iff, Bool.eq_false_iff, ne_eq, Bool.and_eq_true]
  exact .inl fun command => nomatch classified.symm.trans (classify_eq_command_iff.mpr ⟨command, rfl⟩)

theorem law (fuel : Nat) (exchange : Exchange) : exchange.Law fuel := by
  cases classified : classify exchange.repl.buffer exchange.line with
  | command text =>
      obtain ⟨none, after⟩ := @commanded fuel _ _ classified
      obtain ⟨buffer, finished, inputs, session, results⟩ := exchange.repl.obey_keeps (.ofText text)
      constructor
      · rwa [after, classified]
      · rwa [after, classified]
      · rwa [after, none]
      · rwa [after, none]
      · rw [none]
        nofun
      · intro _
        rw [after, session, isReset_of_command classified]
        simp only [decide_eq_true_eq]
  | hold buffer =>
      obtain ⟨none, after⟩ := @held fuel _ _ classified
      constructor
      · rw [after, classified]
        rfl
      · rw [after, classified]
        rfl
      · rw [after, none]
        rfl
      · rw [after, none]
        rfl
      · rw [none]
        nofun
      · intro _
        rw [after, isReset_of_hold classified]
        rfl
  | submit input =>
      obtain ⟨evaluation, _, found, _, executed, after⟩ := @submitted fuel _ _ classified
      constructor
      · rw [after, classified]
        rfl
      · rw [after, classified]
        rfl
      · rw [after, found]
        rfl
      · rw [after, found]
        simp
      · intro other same
        cases found.symm.trans same
        rw [after]
        exact executed
      · rw [found]
        nofun

/-- What is evaluated goes by the next number. -/
theorem sources :
    (exchange.evaluation? fuel).toList.map (·.source) =
      (List.range' (exchange.repl.inputs + 1) (exchange.evaluation? fuel).toList.length).map Repl.sourceName := by
  unfold evaluation?
  split <;> rfl

/-- Only the command to quit ends the loop. -/
theorem isQuit_of_finished (finished : (exchange.turn fuel).finished = true) : exchange.isQuit = true := by
  rw [(law fuel exchange).finished, classify_eq] at finished
  split at finished
  next command =>
    rw [isQuit, command.1, Bool.true_and]
    exact finished
  next =>
    split at finished
    · cases finished
    · split at finished <;> cases finished

/-- The turn at a line comes to the same, but for what is evaluated, wherever the same is held back. -/
theorem turn_of_buffer {repl other : Repl} (fuel otherFuel : Nat) (line : String)
    (same : other.buffer = repl.buffer) :
    (turn ⟨other, line⟩ otherFuel).repl.buffer = (turn ⟨repl, line⟩ fuel).repl.buffer ∧
      (turn ⟨other, line⟩ otherFuel).finished = (turn ⟨repl, line⟩ fuel).finished := by
  constructor
  · rw [(law _ _).buffer, (law _ _).buffer, same]
  · rw [(law _ _).finished, (law _ _).finished, same]

theorem turn_ready (ready : Ready exchange.repl.buffer) (single : '\n' ∉ exchange.line.toList) :
    Ready (exchange.turn fuel).repl.buffer := by
  rw [(law fuel exchange).buffer]
  rcases classify_cases ready single with ⟨_, empty, command | blank⟩ | ⟨_, holds, _, readyNext⟩ | ⟨_, submits, _⟩
  · rw [command]
    exact ready
  · rw [blank]
    exact .inl rfl
  · rw [holds]
    exact readyNext
  · rw [submits]
    exact .inl rfl

theorem handed_of_evaluation (ready : Ready exchange.repl.buffer) (single : '\n' ∉ exchange.line.toList)
    {evaluation : Evaluation} (found : exchange.evaluation? fuel = some evaluation) : Handed evaluation.input := by
  rcases classify_cases ready single with ⟨_, _, command | blank⟩ | ⟨_, holds, _⟩ | ⟨_, submits, handed⟩
  · cases found.symm.trans (commanded command).1
  · cases found.symm.trans (held blank).1
  · cases found.symm.trans (held holds).1
  · obtain ⟨_, _, same, input, _, _⟩ := @submitted fuel _ _ submits
    cases found.symm.trans same
    rw [input]
    exact handed

/-- One line is lost to neither side: what was held back, with the line unless it is skipped, is what is evaluated,
    followed by what is held back after it. -/
theorem turn_lines (ready : Ready exchange.repl.buffer) (single : '\n' ∉ exchange.line.toList) :
    heldLines exchange.repl.buffer ++ (if exchange.isSkipped then [] else [exchange.line]) =
      (exchange.evaluation? fuel).toList.flatMap (linesIn ·.input) ++
        heldLines (exchange.turn fuel).repl.buffer := by
  rw [(law fuel exchange).buffer, isSkipped]
  rcases classify_cases ready single with
    ⟨skipped, empty, command | blank⟩ | ⟨kept, holds, some, _⟩ | ⟨kept, submits, _⟩
  · rw [skipped, if_pos rfl, (commanded command).1, command, List.append_nil]
    rfl
  · rw [skipped, if_pos rfl, (held blank).1, blank, empty]
    rfl
  · rw [kept, if_neg (by simp), (held holds).1, holds, LineAction.leaves, ← linesIn_lengthened single]
    rw [heldLines, if_neg (by simpa using some)]
    rfl
  · obtain ⟨evaluation, _, found, input, _, _⟩ := @submitted fuel _ _ submits
    rw [kept, if_neg (by simp), found, submits, ← linesIn_lengthened single]
    simp [input, LineAction.leaves, heldLines]

end Steps

end Exchange

/-!
### The whole conversation
-/

namespace Repl

/-- The exchanges over lines of input, up to the end of the loop or of the lines. -/
def exchanges (repl : Repl) (fuel : Nat) : List (Option String) → List Exchange
  | [] => []
  | none :: _ => []
  | some line :: lines =>
    if (Exchange.turn ⟨repl, line⟩ fuel).finished then [⟨repl, line⟩]
    else ⟨repl, line⟩ :: (Exchange.turn ⟨repl, line⟩ fuel).repl.exchanges fuel lines

/-- The loop as the lines of input leave it. -/
def final (repl : Repl) (fuel : Nat) : List (Option String) → Repl
  | [] => repl
  | none :: _ => repl
  | some line :: lines =>
    if (Exchange.turn ⟨repl, line⟩ fuel).finished then (Exchange.turn ⟨repl, line⟩ fuel).repl
    else (Exchange.turn ⟨repl, line⟩ fuel).repl.final fuel lines

/-- What is evaluated over lines of input. -/
def evaluations (repl : Repl) (fuel : Nat) (lines : List (Option String)) : List Evaluation :=
  (repl.exchanges fuel lines).filterMap (Exchange.evaluation? fuel)

section Runs

variable {repl : Repl} {fuel : Nat} {line : String} {lines : List (Option String)}

theorem exchanges_finished (finished : (Exchange.turn ⟨repl, line⟩ fuel).finished = true) :
    repl.exchanges fuel (some line :: lines) = [⟨repl, line⟩] :=
  if_pos finished

theorem exchanges_continued (continued : ¬(Exchange.turn ⟨repl, line⟩ fuel).finished = true) :
    repl.exchanges fuel (some line :: lines) =
      ⟨repl, line⟩ :: (Exchange.turn ⟨repl, line⟩ fuel).repl.exchanges fuel lines :=
  if_neg continued

theorem final_finished (finished : (Exchange.turn ⟨repl, line⟩ fuel).finished = true) :
    repl.final fuel (some line :: lines) = (Exchange.turn ⟨repl, line⟩ fuel).repl :=
  if_pos finished

theorem final_continued (continued : ¬(Exchange.turn ⟨repl, line⟩ fuel).finished = true) :
    repl.final fuel (some line :: lines) = (Exchange.turn ⟨repl, line⟩ fuel).repl.final fuel lines :=
  if_neg continued

theorem evaluations_finished (finished : (Exchange.turn ⟨repl, line⟩ fuel).finished = true) :
    repl.evaluations fuel (some line :: lines) = (Exchange.evaluation? fuel ⟨repl, line⟩).toList := by
  rw [evaluations, exchanges_finished finished, List.filterMap_cons, List.filterMap_nil]
  cases Exchange.evaluation? fuel ⟨repl, line⟩ <;> rfl

theorem evaluations_continued (continued : ¬(Exchange.turn ⟨repl, line⟩ fuel).finished = true) :
    repl.evaluations fuel (some line :: lines) =
      (Exchange.evaluation? fuel ⟨repl, line⟩).toList ++
        (Exchange.turn ⟨repl, line⟩ fuel).repl.evaluations fuel lines := by
  rw [evaluations, exchanges_continued continued, List.filterMap_cons]
  cases Exchange.evaluation? fuel ⟨repl, line⟩ <;> rfl

theorem outputs_finished (finished : (Exchange.turn ⟨repl, line⟩ fuel).finished = true) :
    repl.outputs fuel (some line :: lines) = .text repl.prompt :: (Exchange.turn ⟨repl, line⟩ fuel).outputs :=
  if_pos finished

theorem outputs_continued (continued : ¬(Exchange.turn ⟨repl, line⟩ fuel).finished = true) :
    repl.outputs fuel (some line :: lines) =
      (.text repl.prompt :: (Exchange.turn ⟨repl, line⟩ fuel).outputs) ++
        (Exchange.turn ⟨repl, line⟩ fuel).repl.outputs fuel lines :=
  if_neg continued

/-- At every prompt, and at the end, what is held back is as it may be. -/
theorem ready_run (ready : Ready repl.buffer) (single : ∀ line, some line ∈ lines → '\n' ∉ line.toList) :
    (∀ exchange ∈ repl.exchanges fuel lines, Ready exchange.repl.buffer) ∧
      Ready (repl.final fuel lines).buffer := by
  induction repl, lines using Repl.exchanges.induct fuel with
  | case1 repl => exact ⟨nofun, ready⟩
  | case2 repl => exact ⟨nofun, ready⟩
  | case3 repl line lines finished =>
      rw [exchanges_finished finished, final_finished finished]
      exact ⟨by simpa using ready, @Exchange.turn_ready fuel ⟨repl, line⟩ ready (single line List.mem_cons_self)⟩
  | case4 repl line lines continued inductionHypothesis =>
      have next := @Exchange.turn_ready fuel ⟨repl, line⟩ ready (single line List.mem_cons_self)
      have later := inductionHypothesis next fun line member => single line (List.mem_cons_of_mem _ member)
      rw [exchanges_continued continued, final_continued continued, List.forall_mem_cons]
      exact ⟨⟨ready, later.1⟩, later.2⟩

/-- What is held back, followed by the lines that are not skipped, is what is evaluated, followed by what is held
    back at the end. -/
theorem lines_run (ready : Ready repl.buffer) (single : ∀ line, some line ∈ lines → '\n' ∉ line.toList) :
    heldLines repl.buffer ++ Exchange.keptLines (repl.exchanges fuel lines) =
      (repl.evaluations fuel lines).flatMap (linesIn ·.input) ++ heldLines (repl.final fuel lines).buffer := by
  induction repl, lines using Repl.exchanges.induct fuel with
  | case1 repl => exact List.append_nil _
  | case2 repl => exact List.append_nil _
  | case3 repl line lines finished =>
      have step := @Exchange.turn_lines fuel ⟨repl, line⟩ ready (single line List.mem_cons_self)
      rw [exchanges_finished finished, final_finished finished, evaluations_finished finished, ← step,
        Exchange.keptLines_cons]
      exact congrArg _ (List.append_nil _)
  | case4 repl line lines continued inductionHypothesis =>
      have step := @Exchange.turn_lines fuel ⟨repl, line⟩ ready (single line List.mem_cons_self)
      have next := @Exchange.turn_ready fuel ⟨repl, line⟩ ready (single line List.mem_cons_self)
      have later := inductionHypothesis next fun line member => single line (List.mem_cons_of_mem _ member)
      rw [exchanges_continued continued, final_continued continued, evaluations_continued continued,
        Exchange.keptLines_cons, List.flatMap_append, ← List.append_assoc, step, List.append_assoc,
        List.append_assoc, ← later]

/-- Inputs go by their numbers, whatever comes of them and whatever is reset between them. -/
theorem sources_run :
    (repl.evaluations fuel lines).map (·.source) =
      (List.range' (repl.inputs + 1) (repl.evaluations fuel lines).length).map sourceName := by
  induction repl, lines using Repl.exchanges.induct fuel with
  | case1 repl => rfl
  | case2 repl => rfl
  | case3 repl line lines finished =>
      rw [evaluations_finished finished]
      exact Exchange.sources
  | case4 repl line lines continued inductionHypothesis =>
      rw [evaluations_continued continued, List.map_append, inductionHypothesis, (Exchange.law _ _).inputs,
        Exchange.sources, List.length_append, ← List.range'_append_1, List.map_append, Nat.add_right_comm]

/-- The results put out are those of what is evaluated. -/
theorem results_run :
    (repl.outputs fuel lines).filter Output.isResult = (repl.evaluations fuel lines).map Evaluation.output := by
  induction repl, lines using Repl.exchanges.induct fuel with
  | case1 repl => rfl
  | case2 repl => rfl
  | case3 repl line lines finished =>
      rw [evaluations_finished finished, ← (Exchange.law _ _).results, outputs_finished finished]
      rfl
  | case4 repl line lines continued inductionHypothesis =>
      rw [evaluations_continued continued, List.map_append, ← inductionHypothesis, ← (Exchange.law _ _).results,
        outputs_continued continued, List.filter_append]
      rfl

/-- The loop goes through the lines to their end, or up to a line that is no text, or through the command to quit. -/
theorem lines_reached :
    ∃ rest, lines = (repl.exchanges fuel lines).map (some ·.line) ++ rest ∧
      (rest = [] ∨ rest.head? = some none ∨
        ∃ exchange, (repl.exchanges fuel lines).getLast? = some exchange ∧ exchange.isQuit = true) := by
  induction repl, lines using Repl.exchanges.induct fuel with
  | case1 repl => exact ⟨[], rfl, .inl rfl⟩
  | case2 repl lines => exact ⟨none :: lines, rfl, .inr (.inl rfl)⟩
  | case3 repl line lines finished =>
      rw [exchanges_finished finished]
      exact ⟨lines, rfl, .inr (.inr ⟨_, rfl, Exchange.isQuit_of_finished finished⟩)⟩
  | case4 repl line lines continued inductionHypothesis =>
      obtain ⟨rest, reached, stop⟩ := inductionHypothesis
      rw [exchanges_continued continued]
      refine ⟨rest, congrArg (some line :: ·) reached, stop.imp_right (Or.imp_right ?_)⟩
      rintro ⟨exchange, last, quit⟩
      exact ⟨exchange, by rw [List.getLast?_cons, last]; rfl, quit⟩

/-- Where the loop waits for a line, or is left at the end, it is as the line before has left it. -/
theorem repls_run :
    (repl.exchanges fuel lines).map (·.repl) ++ [repl.final fuel lines] =
      repl :: (repl.exchanges fuel lines).map fun exchange => (exchange.turn fuel).repl := by
  induction repl, lines using Repl.exchanges.induct fuel with
  | case1 repl => rfl
  | case2 repl => rfl
  | case3 repl line lines finished =>
      rw [exchanges_finished finished, final_finished finished]
      rfl
  | case4 repl line lines continued inductionHypothesis =>
      rw [exchanges_continued continued, final_continued continued, List.map_cons, List.map_cons, List.cons_append,
        inductionHypothesis]

/-- Which lines go into which input does not depend on any evaluation. -/
theorem places_run (other : Repl) (otherFuel : Nat) (same : other.buffer = repl.buffer) :
    (other.exchanges otherFuel lines).map Exchange.place = (repl.exchanges fuel lines).map Exchange.place ∧
      (other.final otherFuel lines).buffer = (repl.final fuel lines).buffer := by
  induction repl, lines using Repl.exchanges.induct fuel generalizing other with
  | case1 repl => exact ⟨rfl, same⟩
  | case2 repl lines => exact ⟨rfl, same⟩
  | case3 repl line lines finished =>
      have step := Exchange.turn_of_buffer fuel otherFuel line same
      have otherFinished := step.2.trans finished
      rw [exchanges_finished finished, exchanges_finished otherFinished, final_finished finished,
        final_finished otherFinished]
      exact ⟨by simp [Exchange.place, same], step.1⟩
  | case4 repl line lines continued inductionHypothesis =>
      have step := Exchange.turn_of_buffer fuel otherFuel line same
      have otherContinued := step.2 ▸ continued
      have later := inductionHypothesis _ step.1
      rw [exchanges_continued continued, exchanges_continued otherContinued, final_continued continued,
        final_continued otherContinued]
      exact ⟨by simp [Exchange.place, same, later.1], later.2⟩

theorem handed_run (ready : Ready repl.buffer) (single : ∀ line, some line ∈ lines → '\n' ∉ line.toList)
    {evaluation : Evaluation} (member : evaluation ∈ repl.evaluations fuel lines) : Handed evaluation.input := by
  obtain ⟨exchange, taken, found⟩ := List.mem_filterMap.mp member
  have read : some exchange.line ∈ lines := by
    obtain ⟨rest, reached, _⟩ := @lines_reached repl fuel lines
    rw [reached]
    exact List.mem_append_left _ (List.mem_map_of_mem taken)
  exact Exchange.handed_of_evaluation ((ready_run ready single).1 exchange taken) (single _ read) found

end Runs

end Repl

/-- What the loop, from its start, makes of lines of input. -/
structure Segmented (fuel : Nat) (lines : List (Option String)) : Prop where
  /-- It goes through the lines to their end, or up to a line that is no text, or through the command to quit. No
      failure ends it. -/
  reached : ∃ rest, lines = (Repl.fresh.exchanges fuel lines).map (some ·.line) ++ rest ∧
    (rest = [] ∨ rest.head? = some none ∨
      ∃ exchange, (Repl.fresh.exchanges fuel lines).getLast? = some exchange ∧ exchange.isQuit = true)
  /-- The inputs that are evaluated, followed by what is held back at the end, are line by line the lines that are
      not skipped. -/
  kept : (Repl.fresh.evaluations fuel lines).flatMap (linesIn ·.input) ++
    heldLines (Repl.fresh.final fuel lines).buffer = Exchange.keptLines (Repl.fresh.exchanges fuel lines)
  /-- An input that is evaluated is not blank, and it is complete or its last line is blank. -/
  handed : ∀ evaluation ∈ Repl.fresh.evaluations fuel lines, Handed evaluation.input
  /-- At every prompt the buffer is empty, or it is not blank, not complete, and its last line is not blank. -/
  prompts : ∀ exchange ∈ Repl.fresh.exchanges fuel lines, Ready exchange.repl.buffer
  /-- So it is when the lines are at their end. -/
  left : Ready (Repl.fresh.final fuel lines).buffer
  /-- The inputs are named by their numbers, from 1, whatever is reset between them. -/
  sources : (Repl.fresh.evaluations fuel lines).map (·.source) =
    (List.range' 1 (Repl.fresh.evaluations fuel lines).length).map fun number => "<repl:" ++ toString number ++ ">"
  /-- The values and failures put out are those of the evaluations. -/
  results : (runRepl fuel lines).filter Output.isResult =
    (Repl.fresh.evaluations fuel lines).map Evaluation.output
  /-- The loop starts afresh. Where it waits for a line, and where it is left at the end, its session and all else is
      as the line before has left it. -/
  linked : (Repl.fresh.exchanges fuel lines).map (·.repl) ++ [Repl.fresh.final fuel lines] =
    Repl.fresh :: (Repl.fresh.exchanges fuel lines).map fun exchange => (exchange.turn fuel).repl
  /-- An input is executed once, under its name and in the session as it stands; the outcome is what is put out for it,
      and the session that it leaves is the one that goes on. -/
  executed : ∀ exchange ∈ Repl.fresh.exchanges fuel lines, ∀ evaluation,
    exchange.evaluation? fuel = some evaluation →
      exchange.repl.session.execute fuel evaluation.source evaluation.input =
        (evaluation.outcome, (exchange.turn fuel).repl.session)
  /-- Any other line leaves the session as it is, but for the command to reset, which leaves a fresh one. -/
  unexecuted : ∀ exchange ∈ Repl.fresh.exchanges fuel lines, exchange.evaluation? fuel = none →
    (exchange.turn fuel).repl.session = if exchange.isReset then .fresh else exchange.repl.session
  /-- Which lines are held back at which line does not depend on what the evaluations come to: it is the same from
      any session and with any fuel. -/
  steady : ∀ (other : Repl) (otherFuel : Nat), other.buffer = "" →
    (other.exchanges otherFuel lines).map Exchange.place =
        (Repl.fresh.exchanges fuel lines).map Exchange.place ∧
      (other.final otherFuel lines).buffer = (Repl.fresh.final fuel lines).buffer

/-- The loop loses, doubles and moves no line, and executes each input once. -/
theorem runRepl_segmented (fuel : Nat) (lines : List (Option String))
    (single : ∀ line, some line ∈ lines → '\n' ∉ line.toList) : Segmented fuel lines where
  reached := Repl.lines_reached
  kept := (Repl.lines_run (.inl rfl) single).symm
  handed _ member := Repl.handed_run (.inl rfl) single member
  prompts := (Repl.ready_run (.inl rfl) single).1
  left := (Repl.ready_run (.inl rfl) single).2
  sources := Repl.sources_run
  results := by
    rw [runRepl, List.filter_append, Repl.results_run]
    rfl
  linked := Repl.repls_run
  executed exchange _ := (Exchange.law fuel exchange).executed
  unexecuted exchange _ := (Exchange.law fuel exchange).unexecuted
  steady other otherFuel empty := Repl.places_run other otherFuel empty

/-- A command, an input of two lines, one that fails, one that a blank line hands over, and one that is left. -/
theorem runRepl_segmented_failing :
    let lines := [some ":reset", some "(+ 1", some "  2)", some "(car 3)", some "(foo", some "", some "(bar"]
    Segmented 9 lines ∧
      (Repl.fresh.evaluations 9 lines).map (·.input) = ["(+ 1\n  2)", "(car 3)", "(foo\n"] ∧
      (Repl.fresh.evaluations 9 lines).map (·.source) = ["<repl:1>", "<repl:2>", "<repl:3>"] ∧
      (Repl.fresh.final 9 lines).buffer = "(bar" :=
  ⟨runRepl_segmented _ _ (by simp), by decide +kernel, by decide +kernel, by decide +kernel⟩

end LexLisp
