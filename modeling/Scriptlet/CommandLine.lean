import Scriptlet.Folder
import Scriptlet.Program.Listing
import Scriptlet.Run
import Scriptlet.Text.Backspace
import Scriptlet.Text.Blank

/-!
# The command line

The command runs one file or, without a file, reads programs line by line. Standard input is one
supply of lines: the lines that a program reads from its console are no longer there for the reader
of programs. Everything here is a function of the arguments, the files and the input; reading and
writing are left to the caller.
-/

namespace Scriptlet

namespace CommandLine

/-- What to list besides running a program. -/
structure Listings where
  tokens : Bool
  tree : Bool
  deriving DecidableEq, Inhabited, Repr

/-- What the arguments ask for. -/
inductive Request where
  /-- Runs a file. -/
  | runFile (path : String) (listings : Listings)
  /-- Reads programs line by line. -/
  | interact
  /-- Tells the version. -/
  | version
  /-- The arguments ask for nothing known. -/
  | unknown
  deriving DecidableEq, Inhabited, Repr

/-- The option that lists tokens. -/
def tokensOption : String := "--dump-tokens"

/-- The option that lists the syntax tree. -/
def treeOption : String := "--dump-ast"

/-- Reads the arguments. Options stand before or after the file. -/
def request : List String → Request
  | [] | ["repl"] => .interact
  | ["--version"] | ["-V"] => .version
  | word :: rest =>
    if word = "run" ∨ word = "r" then
      match rest.filter fun arg => arg ≠ tokensOption ∧ arg ≠ treeOption with
      | [path] => .runFile path ⟨rest.contains tokensOption, rest.contains treeOption⟩
      | _ => .unknown
    else .unknown

/-! ## The terminal -/

/-- What was written to both outputs, and the input to come. -/
structure Terminal where
  console : Console
  errors : String
  deriving Inhabited

namespace Terminal

/-- Writes to standard output. -/
def say (terminal : Terminal) (text : String) : Terminal :=
  { terminal with console := terminal.console.record (.wrote text) }

/-- Writes a line to the error output. -/
def complain (terminal : Terminal) (line : String) : Terminal :=
  { terminal with errors := terminal.errors ++ line ++ "\n" }

/-- Reports why a source gave no value. -/
def reportHalt (terminal : Terminal) (source : String) : Halt → Terminal
  | .failure failure => terminal.complain (failure.render source)
  | .outOfSteps => terminal.complain "the program takes too many steps"

/-- Takes a line of input. -/
def takeLine? (terminal : Terminal) : Option (String × Terminal) :=
  match terminal.console.input with
  | [] => none
  | line :: rest => some (line, { terminal with console := { terminal.console with input := rest } })

end Terminal

/-! ## Running a file -/

/-- The listings of a source that are asked for, and the failure that ends them. Tokens are listed
before the tree is tried. -/
def list (source : String) (listings : Listings) (terminal : Terminal) :
    Terminal × Except Failure Unit :=
  match tokenize source with
  | .error failure => (terminal, .error failure)
  | .ok tokens =>
    let terminal :=
      if listings.tokens then terminal.say (String.join (tokens.map (·.listing ++ "\n")))
      else terminal
    if listings.tree then
      match parseTokens tokens with
      | .error failure => (terminal, .error failure)
      | .ok program => (terminal.say (Program.listing program ++ "\n"), .ok ())
    else (terminal, .ok ())

/-- Runs a source at the terminal. -/
def runAt (terminal : Terminal) (source : String) : Terminal × Except Halt Value :=
  let outcome := run source terminal.console
  ({ terminal with console := outcome.console }, outcome.result)

/-- Lists and runs a source; whether it ended with a value. -/
def runListed (terminal : Terminal) (source : String) (listings : Listings) : Terminal × Bool :=
  let (terminal, listed) :=
    if listings.tokens || listings.tree then list source listings terminal else (terminal, .ok ())
  match listed with
  | .error failure => (terminal.reportHalt source (.failure failure), false)
  | .ok () =>
    match runAt terminal source with
    | (terminal, .ok _) => (terminal, true)
    | (terminal, .error halt) => (terminal.reportHalt source halt, false)

/-! ## Reading programs line by line -/

/-- The greeting. -/
def banner : String :=
  "BeamScript 0.1.0 - each line runs in a fresh scope\nType exit to exit, help for help\n\n"

/-- The farewell. -/
def farewell : String := "Goodbye!\n"

/-- What can be typed. -/
def help : String := String.join ([
  "REPL Commands:",
  "  exit, quit   Exit the REPL",
  "  run <file>   Execute a source file",
  "  help         Show this help",
  "",
  "Language Examples:",
  "  declare x = 10, y = 2",
  "  const var limit = 3",
  "  def add(a, b) \x7b a + b \x7d",
  "  con.out.println(add(1, 2))",
  "  declare name = con.in('name? ')"].map (· ++ "\n"))

/-- What a typed line asks for. -/
inductive Typed where
  | nothing
  | leave
  | help
  | runFile (path : String)
  | program (source : String)
  deriving DecidableEq, Inhabited, Repr

/-- Reads a typed line: backspaces are applied first, then the blanks around it removed. -/
def typed (line : String) : Typed :=
  let line := trim (applyBackspaces line)
  if line.isEmpty then .nothing
  else if line = "exit" ∨ line = "quit" then .leave
  else if line = "help" then .help
  else
    match line.toList with
    | 'r' :: 'u' :: 'n' :: ' ' :: path => .runFile (trim (String.ofList path))
    | _ => .program line

/-- Runs a file that was typed. -/
def runTypedFile (files : Files) (terminal : Terminal) (path : String) : Terminal :=
  match files path with
  | .ok source => (runListed terminal source ⟨false, false⟩).1
  | .error fault => terminal.complain ("error: cannot read file '" ++ path ++ "': " ++ fault.message)

/-- Runs a program that was typed and shows its value, unless that is null. -/
def runTyped (terminal : Terminal) (source : String) : Terminal :=
  match runAt terminal source with
  | (terminal, .ok .null) => terminal
  | (terminal, .ok value) => terminal.say ("=> " ++ value.display ++ "\n")
  | (terminal, .error halt) => terminal.reportHalt source halt

/-- Answers typed lines until the farewell. Each takes at least one line of input, so the lines of
the input bound their number. -/
def converse (files : Files) : Nat → Terminal → Terminal
  | 0, terminal => terminal.say farewell
  | lines + 1, terminal =>
    match terminal.takeLine? with
    | none => terminal.say farewell
    | some (line, terminal) =>
      match typed line with
      | .leave => terminal.say farewell
      | .nothing => converse files lines terminal
      | .help => converse files lines (terminal.say help)
      | .runFile path => converse files lines (runTypedFile files terminal path)
      | .program source => converse files lines (runTyped terminal source)

/-! ## The command -/

/-- What the command leaves behind. -/
structure Report where
  code : Nat
  output : String
  errors : String
  deriving DecidableEq, Inhabited, Repr

/-- The report of what a terminal holds. -/
def Terminal.report (terminal : Terminal) (code : Nat) : Report :=
  ⟨code, terminal.console.output, terminal.errors⟩

/-- The report of an unreadable file. -/
def unreadable (path : String) (fault : FileFault) : Report :=
  ⟨1, "", "Error: cannot read file '" ++ path ++ "'\n\nCaused by:\n    " ++ fault.message ++ "\n"⟩

/-- The whole command. -/
def command (args : List String) (files : Files) (input : String) : Report :=
  let terminal : Terminal := ⟨Console.ofLines (textLines input), ""⟩
  match request args with
  | .version => ⟨0, "beam 0.1.0\n", ""⟩
  | .unknown => ⟨2, "", "usage: beam [run FILE [--dump-tokens] [--dump-ast] | repl]\n"⟩
  | .interact =>
    let terminal := terminal.say banner
    (converse files terminal.console.input.length terminal).report 0
  | .runFile path listings =>
    match files path with
    | .error fault => unreadable path fault
    | .ok source =>
      let (terminal, ended) := runListed terminal source listings
      terminal.report (if ended then 0 else 1)

/-- The files that the command may ask for. -/
def filesNamed (args : List String) (input : String) : List String :=
  match request args with
  | .runFile path _ => [path]
  | .interact => (textLines input).filterMap fun line =>
      match typed line with
      | .runFile path => some path
      | _ => none
  | _ => []

end CommandLine

end Scriptlet
