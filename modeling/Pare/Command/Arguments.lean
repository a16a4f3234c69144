import Pare.Data.Value
import Pare.Report

/-!
**Arguments of a command.**

The words after a command are read from left to right.  A word with two dashes is an option by its
name, a word with one dash a row of options by their letters, and any other word is a path, as all
words are after two dashes alone.  An option with a value takes it from the same word or the next
one.  Only patterns and paths may come more than once.

Main definitions:

* `Pare.Command.Choice` — the options, with their names and letters;
* `Pare.Command.Arguments` — what the words set;
* `Pare.Command.Request` — what they ask for;
* `Pare.Command.request?` — the request that some words make, if they make sense.
-/

set_option relaxedAutoImplicit false
set_option autoImplicit false

namespace Pare

namespace Command

/-! ### Options -/

/-- The options. -/
inductive Choice where
  | config | exclude | format | output | fix | dryRun | interactive | maxPasses | parallel | disable
  | verbose | quiet | completions | help | version
deriving DecidableEq, Repr

namespace Choice

/-- All options. -/
def all : List Choice :=
  [config, exclude, format, output, fix, dryRun, interactive, maxPasses, parallel, disable, verbose,
    quiet, completions, help, version]

def long : Choice → String
  | config => "config"
  | exclude => "exclude"
  | format => "format"
  | output => "output"
  | fix => "fix"
  | dryRun => "dry-run"
  | interactive => "interactive"
  | maxPasses => "max-passes"
  | parallel => "parallel"
  | disable => "disable"
  | verbose => "verbose"
  | quiet => "quiet"
  | completions => "completions"
  | help => "help"
  | version => "version"

/-- The letter of an option. -/
def short? : Choice → Option Char
  | config => some 'c'
  | exclude => some 'e'
  | format => some 'f'
  | output => some 'o'
  | verbose => some 'v'
  | quiet => some 'q'
  | help => some 'h'
  | version => some 'V'
  | _ => none

/-- What the value of an option is, if it has one. -/
def value? : Choice → Option String
  | config | output => some "FILE"
  | exclude => some "PATTERN"
  | format => some "FORMAT"
  | maxPasses => some "N"
  | parallel => some "BOOL"
  | completions => some "SHELL"
  | _ => none

/-- What an option is for. -/
def purpose : Choice → String
  | config => "Path to configuration file"
  | exclude => "Patterns to exclude (can be specified multiple times)"
  | format => "Output format (terminal, compact, json)"
  | output => "Output file (for json format)"
  | fix => "Change files, removing what can be removed safely"
  | dryRun => "Show which files --fix would change without writing them"
  | interactive => "Ask before writing each fixed file"
  | maxPasses => "Maximum fix passes per file (overrides the config file)"
  | parallel => "Lint files in parallel (enabled by default)"
  | disable => "Turn the rule off (nothing is reported)"
  | verbose => "Verbose output"
  | quiet => "Quiet mode - only output results"
  | completions => "Generate shell completions"
  | help => "Print help"
  | version => "Print version"

/-- The option with a name. -/
def ofLong? (name : String) : Option Choice := all.find? fun c => c.long == name

/-- The option with a letter. -/
def ofShort? (letter : Char) : Option Choice := all.find? fun c => c.short? == some letter

end Choice

/-! ### What the words set -/

/-- What the words after a command set. -/
structure Arguments where
  paths : List String := []
  config : Option String := none
  exclude : List String := []
  format : Report.Format := .terminal
  output : Option String := none
  fix : Bool := false
  dryRun : Bool := false
  interactive : Bool := false
  maxPasses : Option Nat := none
  disable : Bool := false
  quiet : Bool := false
  /-- Are completions asked for? -/
  completions : Bool := false
deriving DecidableEq, Repr

namespace Arguments

def isFixing (a : Arguments) : Bool := a.fix || a.dryRun || a.interactive

/-- A path, which is not empty. -/
def path? (text : String) : Option String := if text == "" then none else some text

/-- A number with at most sixty-four binary digits; a plus sign may stand in front. -/
def number? (text : String) : Option Nat := do
  let digits := match text.toList with
    | '+' :: rest => rest
    | cs => cs
  let n ← natOfDigits? 10 digits
  if n < Value.numberLimit then some n else none

/-- The shells that completions are for. -/
def shells : List String := ["bash", "elvish", "fish", "powershell", "zsh"]

/-- The arguments with one more path. -/
def addPath? (a : Arguments) (text : String) : Option Arguments := do
  return { a with paths := a.paths ++ [← path? text] }

/-- The arguments with an option turned on. -/
def turnOn (a : Arguments) : Choice → Arguments
  | .fix => { a with fix := true }
  | .dryRun => { a with dryRun := true }
  | .interactive => { a with interactive := true }
  | .disable => { a with disable := true }
  | .quiet => { a with quiet := true }
  | _ => a

/-- The arguments with a value for an option. -/
def set? (a : Arguments) (choice : Choice) (value : String) : Option Arguments := do
  match choice with
  | .config => return { a with config := ← path? value }
  | .exclude => return { a with exclude := a.exclude ++ [value] }
  | .format => return { a with format := ← Report.Format.ofName? value }
  | .output => return { a with output := ← path? value }
  | .maxPasses => return { a with maxPasses := ← number? value }
  | .parallel => if value == "true" || value == "false" then some a else none
  | .completions => if shells.contains value then some { a with completions := true } else none
  | _ => none

end Arguments

/-! ### Reading words -/

/-- What the words ask for. -/
inductive Request where
  | run (arguments : Arguments)
  | completions
  | help
  | version
deriving DecidableEq, Repr

/-- What has been read of the words: what they set, and the options among them. -/
structure Progress where
  arguments : Arguments
  given : List Choice
deriving DecidableEq, Repr

/-- What comes after an option. -/
inductive Next where
  /-- The next word. -/
  | go (p : Progress)
  /-- A word with the value of the option. -/
  | await (choice : Choice) (p : Progress)
  /-- Nothing: the request is clear. -/
  | stop (request : Request)
deriving DecidableEq, Repr

namespace Progress

/-- May an option come, after those that have come? -/
def allows (p : Progress) (choice : Choice) : Bool :=
  choice == .exclude || !p.given.contains choice

/-- What comes after an option without a value. -/
def turn? (p : Progress) (choice : Choice) : Option Next :=
  match choice with
  | .help => some (.stop .help)
  | .version => some (.stop .version)
  | _ =>
      if p.allows choice then some (.go ⟨p.arguments.turnOn choice, choice :: p.given⟩) else none

/-- What has been read after an option with its value. -/
def set? (p : Progress) (choice : Choice) (value : String) : Option Progress := do
  if p.allows choice then return ⟨← p.arguments.set? choice value, choice :: p.given⟩ else none

/-- What comes after a row of options by their letters. -/
def letters? (p : Progress) : List Char → Option Next
  | [] => some (.go p)
  | c :: rest => do
      let choice ← Choice.ofShort? c
      if choice.value?.isSome then
        match rest with
        | [] => return .await choice p
        | '=' :: value => return .go (← p.set? choice (String.ofList value))
        | value => return .go (← p.set? choice (String.ofList value))
      else
        match ← p.turn? choice with
        | .go p => letters? p rest
        | next => return next

/-- What comes after an option by its name, with or without a value in the same word. -/
def name? (p : Progress) (word : List Char) : Option Next := do
  let choice ← Choice.ofLong? (String.ofList (word.takeWhile (· != '=')))
  match choice.value?.isSome, word.dropWhile (· != '=') with
  | true, [] => return .await choice p
  | true, _ :: value => return .go (← p.set? choice (String.ofList value))
  | false, [] => p.turn? choice
  | false, _ :: _ => none

end Progress

/-- Is a word made of options? -/
def isOptions (word : String) : Bool :=
  match word.toList with
  | '-' :: _ :: _ => true
  | _ => false

/-- What comes after a word. -/
def next? (p : Progress) (word : String) : Option Next :=
  match word.toList with
  | '-' :: '-' :: name => p.name? name
  | '-' :: c :: rest => p.letters? (c :: rest)
  | _ => (p.arguments.addPath? word).map fun a => .go { p with arguments := a }

/-- The request of words that are all read. -/
def finish (p : Progress) : Request :=
  if p.arguments.completions then .completions else .run p.arguments

/-- The request that the words ahead make, after what has been read. -/
def read? : List String → Progress → Option Request
  | [], p => some (finish p)
  | word :: rest, p =>
      if word == "--" then
        (rest.foldlM Arguments.addPath? p.arguments).map fun a => finish { p with arguments := a }
      else
        match next? p word, rest with
        | some (.go p), rest => read? rest p
        | some (.stop request), _ => some request
        | some (.await choice p), value :: rest =>
            if isOptions value then none else (p.set? choice value).bind (read? rest)
        | _, _ => none
termination_by words => words.length

/-- The request that some words make, if they make sense. -/
def request? (words : List String) : Option Request := read? words ⟨{}, []⟩

/-- A value may stand in the same word as its option. -/
example : request? ["-qfjson", "--max-passes=+5", "--", "-x"] =
    some (.run { paths := ["-x"], format := .json, maxPasses := some 5, quiet := true }) := by
  decide +kernel

/-- An option comes once. -/
example : request? ["--fix", "--fix"] = none := by decide +kernel

end Command

end Pare
