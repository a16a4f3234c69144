import Pare.Data.Json
import Pare.Data.Toml
import Pare.Data.Yaml
import Pare.Lint

/-!
**Settings.**

What a user can set: whether the rule runs, how severe its findings are, where to look and where not
to, which files to take, and how many passes to make.

Main definitions:

* `Pare.Config` — the settings, with their defaults;
* `Pare.Config.ofValue?` — the settings that a value of a data file gives;
* `Pare.Config.read` — the settings that a text gives, in the format of its extension;
* `Pare.Config.takes` — is a file one of those to look through?
* `Pare.Config.fromFile`, `Pare.Config.fromDefault` — the settings that a disk holds.
-/

set_option relaxedAutoImplicit false
set_option autoImplicit false

namespace Pare

/-- The settings, with their defaults. -/
structure Config where
  /-- Does the rule run? -/
  enabled : Bool := true
  /-- How severe findings are. -/
  severity : Severity := .warning
  /-- Files and directories to look through. -/
  targets : List String := []
  /-- Patterns of what to leave out. -/
  exclude : List String := []
  /-- The extensions of the files to look through. -/
  extensions : List String := ["js", "jsx", "mjs", "cjs"]
  /-- The greatest number of passes over a file. -/
  maxFixPasses : Nat := 10
deriving DecidableEq, Repr

namespace Config

def linter (c : Config) : Linter := ⟨⟨c.enabled⟩, c.severity⟩

/-! ### From values -/

/-- The names of the settings, in their order. -/
def fieldNames : List String :=
  ["enabled", "severity", "targets", "exclude", "extensions", "max_fix_passes"]

/-- The settings after one of them is set. -/
def set? (c : Config) (field : String) (v : Value) : Option Config :=
  match field with
  | "enabled" => v.toBool?.map fun b => { c with enabled := b }
  | "severity" => (v.toText?.bind Severity.ofName?).map fun s => { c with severity := s }
  | "targets" => v.toTexts?.map fun l => { c with targets := l }
  | "exclude" => v.toTexts?.map fun l => { c with exclude := l }
  | "extensions" => v.toTexts?.map fun l => { c with extensions := l }
  | "max_fix_passes" => v.toNat?.map fun n => { c with maxFixPasses := n }
  | _ => none

/-- The settings that some fields give; no name may come twice. -/
def ofFields? (fields : List (String × Value)) : Option Config :=
  if (fields.map Prod.fst).eraseDups.length = fields.length then
    fields.foldlM (fun c f => c.set? f.1 f.2) {}
  else none

/-- The settings that a value gives: a table by names, or, where that is allowed, a list in the
order of the names. -/
def ofValue? (inOrder : Bool) : Value → Option Config
  | .table fields => ofFields? fields
  | .list items =>
      if inOrder && items.length ≤ fieldNames.length then ofFields? (fieldNames.zip items) else none
  | _ => none

/-! ### From texts -/

/-- The formats of settings. -/
inductive Format where
  | toml | yaml | json
deriving DecidableEq, Repr

/-- The format that an extension stands for. -/
def Format.ofExtension? : String → Option Format
  | "toml" => some .toml
  | "yml" | "yaml" => some .yaml
  | "json" => some .json
  | _ => none

/-- The value that a text writes in a format. -/
def Format.read? : Format → String → Option Value
  | toml => Toml.read?
  | yaml => Yaml.read?
  | json => Json.read?

/-- May settings be a list, in the order of their names? -/
def Format.allowsList (f : Format) : Bool := f == .json

/-- The settings, unless one makes no sense on its own. -/
def check (c : Config) (path : String) : Except Failure Config :=
  if c.maxFixPasses = 0 then .error (.settings path "max_fix_passes must be at least 1")
  else if c.extensions.isEmpty then .error (.settings path "extensions must not be empty")
  else .ok c

/-- The settings that a text gives, in the format of its extension. -/
def read (path text : String) : Except Failure Config := do
  let extension := Path.extension? path
  match extension.bind Format.ofExtension? with
  | some format =>
      match (format.read? text).bind (ofValue? format.allowsList) with
      | some c => c.check path
      | none => throw (.settings path "")
  | none =>
      throw (.settings path ("unsupported config format " ++ Json.quoted (extension.getD "")))

/-! ### Files to take -/

/-- A text with small letters for the capital ones of ASCII. -/
def lower (s : String) : String := String.ofList (s.toList.map Char.toLower)

/-- Is a file one of those to look through?  Dots in front of an extension, and the case of its
letters, make no difference. -/
def takes (c : Config) (path : String) : Bool :=
  match Path.extension? path with
  | some e =>
      c.extensions.any fun wanted =>
        lower (String.ofList (wanted.toList.dropWhile (· == '.'))) == lower e
  | none => false

/-! ### From a disk -/

def fromFile (d : Disk) (path : String) : Except Failure Config :=
  match d.read? path with
  | none => .error (.access path)
  | some text => read path text

/-- The names of the files with settings, the first one that is there being taken. -/
def fileNames : List String :=
  [".omitparens.toml", ".omitparens.yml", ".omitparens.yaml", ".omitparens.json"]

/-- The settings in a directory, or in the directory of a file; the defaults if there are none. -/
def fromDefault (d : Disk) (root : String) : Except Failure Config :=
  let directory := if d.isFile root then Path.parent root else root
  match (fileNames.map (Path.join directory)).find? d.isFile with
  | some path => fromFile d path
  | none => .ok {}

end Config

end Pare
