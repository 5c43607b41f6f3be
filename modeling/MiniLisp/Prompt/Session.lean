import MiniLisp.Program.Report
import MiniLisp.Prompt.Brackets
import MiniLisp.Unicode.Blank

/-!
# The prompt

The prompt first runs the files it is given and then what is typed, all of it in one global scope.
An entry that is typed may run over several lines: it is taken as soon as all its brackets are
closed. A line with a closing bracket too many is complained about and kept, so that nothing short
of the end of input gets rid of it. Cutting the input into lines (`flatten_linesOf`) and a line end
off an entry (`splitLineEnd_append`) loses nothing.

What there is to be shown is a list of messages, and what is read is given as text, so a whole
session is a function of its input (`session`). The parts from which it is made are used one by one
where input and output are real.
-/

namespace MiniLisp.Prompt

/-! ### Messages -/

/-- Something to be shown. -/
inductive Message where
  | print (text : String)
  /-- An error in a text. -/
  | report (r : Report) (text : String)
  /-- A closing bracket at this offset of the entry has no partner. -/
  | unmatched (offset : Nat)
  /-- A file cannot be read, which ends the program. -/
  | unreadable (file : String)
deriving DecidableEq

/-- What is shown when the prompt starts. -/
def banner : String :=
  "lips REPL v0.1.0\nType 'exit' or press Ctrl-D to quit.\nNo previous history.\n"

/-- What is shown when the input ends. -/
def farewell : String := "\nExiting.\n"

/-- The complaint about a bracket without a partner. -/
def unmatchedText (offset : Nat) : String :=
  "  - Unmatched ')' at position " ++ toString offset

/-! ### Options -/

/-- How the prompt is started. -/
structure Options where
  /-- Names are looked up in the scope of the caller. -/
  dynamic : Bool
  /-- The prompt ends after the files. -/
  filesOnly : Bool
  /-- The files to run, in order. -/
  files : List String

namespace Options

/-- No options and no files. -/
def none : Options := ⟨false, false, []⟩

/-- The options in a list of arguments. The arguments that only matter to a terminal are passed
over. -/
def parse : List String → Options
  | [] => none
  | "--" :: files => { none with files := files }
  | "--history" :: _ :: rest => parse rest
  | arg :: rest =>
    let options := parse rest
    if arg = "-d" ∨ arg = "--dynamic" then { options with dynamic := true }
    else if arg = "--no-repl" then { options with filesOnly := true }
    else if arg.startsWith "-" && arg != "-" then options
    else { options with files := arg :: options.files }

end Options

/-! ### Running text -/

section

variable (fuel : Nat) (ctx : Context)

/-- What is to be shown of one result of a text. Missing results are never shown. -/
def resultMessage? (echo : Bool) (text : String) : Except EvalError Node → Option Message
  | .error e => some (.report e.report text)
  | .ok (.atom .undefined _) => none
  | .ok n => if echo then some (.print (n.text ++ "\n")) else none

/-- Runs a text. Results are shown if `echo` is set, and errors always. The flag says whether
nothing failed. -/
def runText (echo : Bool) (text : String) : Action Empty (List Message × Bool) := do
  match ← (execEach fuel ctx text).attempt with
  | .error e => return ([.report (e.report text) text], false)
  | .ok results => return (results.filterMap (resultMessage? echo text), results.all Except.isOk)

/-- Runs files, given by name and content. The answer is given if one of them cannot be read, and
says otherwise whether nothing failed. -/
def runFiles : List (String × Option String) → Action Empty (List Message × Option Bool)
  | [] => pure ([], some true)
  | (name, none) :: _ => pure ([.unreadable name], none)
  | (_, some text) :: rest => do
    let (shown, ok) ← runText fuel ctx false text
    let (further, all) ← runFiles rest
    return (shown ++ further, all.map (ok && ·))

/-! ### Entries -/

/-- What becomes of the entry when a line is typed. -/
inductive Typed where
  /-- The entry is finished. -/
  | entry (text : String)
  /-- More lines are needed; this is the entry so far. -/
  | more (pending : String)
  /-- A bracket has no partner; this is the entry so far. -/
  | unmatched (offset : Nat) (pending : String)

/-- A text without the line end at its end, and the line end. -/
def splitLineEnd (text : List Char) : List Char × List Char :=
  match text.reverse with
  | '\n' :: '\r' :: rest => (rest.reverse, ['\r', '\n'])
  | '\n' :: rest => (rest.reverse, ['\n'])
  | _ => (text, [])

/-- Cutting off the line end loses nothing. -/
theorem splitLineEnd_append (text : List Char) :
    (splitLineEnd text).1 ++ (splitLineEnd text).2 = text := by
  unfold splitLineEnd
  split
  · next rest h =>
    have h := congrArg List.reverse h
    simpa using h.symm
  · next rest h =>
    have h := congrArg List.reverse h
    simpa using h.symm
  · simp

/-- Adds a line, its end included, to the entry so far. -/
def typeLine (pending line : String) : Typed :=
  let (text, lineEnd) := splitLineEnd (pending.toList ++ line.toList)
  match verdict (String.ofList text) with
  | .complete => .entry (String.ofList text)
  | .incomplete => .more (String.ofList (text ++ lineEnd))
  | .unmatched offset => .unmatched offset (String.ofList text)

/-- What to do about a finished entry. -/
inductive Command where
  | nothing
  | quit
  | run (text : String)
deriving DecidableEq

/-- The command in a finished entry, which does not depend on blank characters around it. -/
def command (entry : String) : Command :=
  let text := String.ofList (Unicode.trimBlank entry.toList)
  if text = "" then .nothing
  else if text.toLower = "exit" then .quit
  else .run text

/-- Handles a line that is typed: what is shown, and the entry so far, or nothing if the prompt is
left. -/
def answerLine (pending line : String) : Action Empty (List Message × Option String) :=
  match typeLine pending line with
  | .more pending => pure ([], some pending)
  | .unmatched offset pending => pure ([.unmatched offset], some pending)
  | .entry text => match command text with
    | .nothing => pure ([], some "")
    | .quit => pure ([], none)
    | .run text => do
      let (shown, _) ← runText fuel ctx true text
      return (shown, some "")

/-- Handles lines until the prompt is left or the input ends. -/
def answerLines (pending : String) : List String → Action Empty (List Message)
  | [] => pure [.print farewell]
  | line :: rest => do
    match ← answerLine fuel ctx pending line with
    | (shown, none) => return shown
    | (shown, some pending) => return shown ++ (← answerLines pending rest)

end

/-! ### Sessions -/

/-- The lines of an input, each with the line feed that ends it. -/
def linesOf (input : List Char) : List (List Char) :=
  input.foldr (fun c lines ↦ match lines with
    | [] => [[c]]
    | line :: rest => if c = '\n' then [c] :: line :: rest else (c :: line) :: rest) []

/-- No character of the input is lost by cutting it into lines. -/
theorem flatten_linesOf (input : List Char) : (linesOf input).flatten = input := by
  induction input with
  | nil => rfl
  | cons c cs ih =>
    rw [linesOf, List.foldr_cons]
    change List.flatten (match linesOf cs with
      | [] => [[c]]
      | line :: rest => if c = '\n' then [c] :: line :: rest else (c :: line) :: rest) = _
    revert ih
    cases linesOf cs with
    | nil => intro ih; rw [← ih]; rfl
    | cons line rest =>
      intro ih
      rw [← ih]
      dsimp only
      split <;> rfl

/-- A whole session: the messages in order, and the exit code. The content of a file that does not
exist is missing. -/
def session (fuel : Nat) (options : Options) (content : String → Option String) (input : String) :
    Action Empty (List Message × Nat) := do
  let scope ← .addScope .global
  let ctx : Context := ⟨scope, if options.dynamic then some scope else none⟩
  let (shown, ok) ← runFiles fuel ctx (options.files.map fun name ↦ (name, content name))
  match ok with
  | none => return (shown, 1)
  | some ok =>
    if options.filesOnly then return (shown, if ok then 0 else 1)
    else
      let answers ← answerLines fuel ctx "" ((linesOf input.toList).map String.ofList)
      return (shown ++ .print banner :: answers, 0)

end MiniLisp.Prompt
