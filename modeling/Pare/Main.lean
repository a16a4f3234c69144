import Pare.Command

/-!
**The program.**

Reads the working directory, executes the command on it, writes back the files that changed, and
prints what the command says.

Main definitions:

* `Pare.Terminal.load` — the disk that a directory holds;
* `Pare.Terminal.store` — writing back what changed;
* `main` — the program.
-/

set_option relaxedAutoImplicit false
set_option autoImplicit false

namespace Pare

namespace Terminal

/-- The path of a place. -/
def pathOf (place : Place) : String := "/".intercalate ("." :: place)

/-- What a directory holds, by places below it. -/
partial def load (place : Place) : IO (List (Place × Entry)) := do
  let mut entries := []
  for found in ← (← IO.FS.realPath (pathOf place)).readDir do
    let inner := place ++ [found.fileName]
    if ← found.path.isDir then
      entries := (inner, Entry.directory) :: (← load inner) ++ entries
    else
      let text ← try
          pure (String.fromUTF8? (← IO.FS.readBinFile (pathOf inner)))
        catch _ => pure none
      entries := (inner, Entry.file text) :: entries
  return entries

/-- Writes back the files that changed. -/
def store (before after : Disk) : IO Unit := do
  for (place, entry) in after.entries do
    if before.find? place != some entry then
      match entry with
      | .file (some text) => IO.FS.writeFile (pathOf place) text
      | _ => pure ()

/-- Does the terminal show styles? -/
def isStyled : IO Bool := do
  match ← IO.getEnv "CLICOLOR_FORCE" with
  | some value => if value != "0" then return true
  | none => pure ()
  if (← IO.getEnv "NO_COLOR").isSome then return false
  (← IO.getStdout).isTty

/-- Prints how a command ended and gives its exit code. -/
def conclude (styled : Bool) (started : Nat) (out : Command.Finish) : IO UInt32 := do
  IO.print out.printed
  if let some files := out.timed then
    IO.println (Command.timeLine styled files (((← IO.monoMsNow) - started) / 10))
  if let some failure := out.failure then
    IO.eprintln failure.message
  return out.code.toUInt32

end Terminal

end Pare

def main (words : List String) : IO UInt32 := do
  let started ← IO.monoMsNow
  let styled ← Pare.Terminal.isStyled
  let disk : Pare.Disk := ⟨← Pare.Terminal.load []⟩
  match Pare.Command.execute styled words disk with
  | .ok out =>
      Pare.Terminal.store disk out.disk
      Pare.Terminal.conclude styled started out
  | .error _ =>
      IO.eprintln "a span of a tree is no part of its text"
      return 101
