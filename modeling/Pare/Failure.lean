import Pare.Source

/-!
**Failures.**

What can go wrong around the rules: files that cannot be read or written, texts that are no
programs, settings that make no sense, searches that lead nowhere, and questions that nobody
answers.

Main definitions:

* `Pare.Failure` — the causes of failure;
* `Pare.Failure.message`, `Pare.Failure.code`, `Pare.Failure.help` — how they are told.
-/

set_option relaxedAutoImplicit false
set_option autoImplicit false

namespace Pare

/-- The causes of failure. -/
inductive Failure where
  /-- A file could not be read or written. -/
  | access (path : String)
  /-- A text is no program, from a place on, if the place is known. -/
  | malformed (path : String) (place : Option Source.Position)
  /-- Settings that make no sense. -/
  | settings (path : String) (reason : String)
  /-- A search for files that leads nowhere. -/
  | search (path : String) (reason : String)
  /-- A question that nobody answers. -/
  | unanswered
deriving DecidableEq, Repr

namespace Failure

/-- The text that tells a failure. -/
def message : Failure → String
  | access path => "failed to read or write " ++ path
  | malformed path (some place) =>
      "syntax error in " ++ path ++ " at " ++ toString place.line ++ ":" ++ toString place.column
  | malformed path none => "syntax error in " ++ path
  | settings path reason => "invalid configuration in " ++ path ++ ": " ++ reason
  | search path reason => "failed to walk " ++ path ++ ": " ++ reason
  | unanswered => "failed to read confirmation"

/-- The stable code of a failure. -/
def code : Failure → String
  | access _ => "omitparens::io"
  | malformed _ _ => "omitparens::syntax"
  | settings _ _ => "omitparens::config"
  | search _ _ => "omitparens::discovery"
  | unanswered => "omitparens::prompt"

/-- What to do about a failure, where there is something to do. -/
def help : Failure → Option String
  | malformed _ _ => some "the file is skipped; fix the syntax error and run again"
  | settings _ _ => some "supported formats are .toml, .yml/.yaml and .json"
  | _ => none

end Failure

end Pare
