import MiniLisp.Prompt.Session

/-!
# The program

The prompt on real input and output: values go to standard output and complaints to standard error.
-/

namespace MiniLisp.Prompt

/-- A report with its place in the text it is about. -/
def reportLine (r : Report) (text : String) : String :=
  let place := match r.position? text with
    | some p => p.render ++ ": "
    | none => ""
  place ++ r.headline ++ " (" ++ r.label ++ ")"

/-- Shows a message. -/
def display (message : Message) : IO Unit :=
  match message with
  | .print text => do
    IO.print text
    (← IO.getStdout).flush
  | .report r text => IO.eprintln (reportLine r text)
  | .unmatched offset => IO.eprintln (unmatchedText offset)
  | .unreadable file => IO.eprintln ("Cannot read " ++ file)

/-- The content of a file, if it can be read. -/
def contentOf (file : String) : IO (String × Option String) := do
  try
    return (file, some (← IO.FS.readFile file))
  catch _ => return (file, none)

/-- Performs an action, or gives up when it ran out of fuel. -/
def perform {α : Type} (action : Action Empty α) (m : Machine) : IO (α × Machine) :=
  match action m with
  | .ok value m => return (value, m)
  | .outOfFuel => throw (IO.userError "out of fuel")

/-- Answers what is typed until the prompt is left or the input ends. -/
partial def converse (ctx : Context) (pending : String) (m : Machine) : IO Unit := do
  let line ← (← IO.getStdin).getLine
  if line.isEmpty then display (.print farewell)
  else
    let ((shown, next), m) ← perform (answerLine ampleFuel ctx pending line) m
    shown.forM display
    match next with
    | some pending => converse ctx pending m
    | none => return

end MiniLisp.Prompt

open MiniLisp MiniLisp.Prompt in
/-- Runs the files named by the arguments and then the prompt. -/
def main (args : List String) : IO UInt32 := do
  let options := Options.parse args
  let (scope, m) ← perform (.addScope .global) .initial
  let ctx : Context := ⟨scope, if options.dynamic then some scope else none⟩
  let ((shown, ok), m) ← perform (runFiles ampleFuel ctx (← options.files.mapM contentOf)) m
  shown.forM display
  match ok with
  | none => return 1
  | some ok =>
    if options.filesOnly then return if ok then 0 else 1
    display (.print banner)
    converse ctx "" m
    return 0
