import HtmlTree.Files
import HtmlTree.Journal
import HtmlTree.Json.Reader
import HtmlTree.Json.Writer
import HtmlTree.Settings

/-! Settings kept in files: reading merges the file's object over what is there, writing puts the
whole tree as JSON. -/

namespace HtmlTree

inductive SettingsFailure where
  | file (failure : FileFailure)
  | notJson
  | notObject (path : String)
  | noPath
  | noFile
  deriving DecidableEq, Repr

namespace SettingsFailure

def message : SettingsFailure → Option String
  | notObject path => some ("Configuration file " ++ path ++ " must contain a JSON object")
  | noPath => some "No configuration path to save to"
  | _ => none

end SettingsFailure

namespace Settings

open SettingsFailure

def shownPath (path : Option String) : String := path.getD "None"

def readObjectAs {τ : Type} [DecidableEq τ] (kind : Points → τ) (files : Files)
    (path : String) : Except SettingsFailure (Entries τ) := do
  let text ← (files.read path).mapError file
  if text.toList.head? = some '\uFEFF' then throw notJson
  match Json.readAs kind text with
  | some (.dict entries) => return entries
  | some _ => throw (notObject path)
  | none => throw notJson

def readObject (files : Files) (path : String) : Except SettingsFailure Entries :=
  readObjectAs Points.replaceLone files path

def load (files : Files) (c : Settings) : Except SettingsFailure (Logged Settings) := do
  let path ← match c.path with
    | some path => pure path
    | none => throw noFile
  let entries ← readObject files path
  return ⟨{ c with entries := mergeEntries c.entries entries },
    [.ofSettings Level.debug ("Configuration loaded from " ++ path)]⟩

/-- The defaults, then the file if a path is given, then the overrides. -/
def make (files : Files) (path : Option String) (overrides : Entries) :
    Except SettingsFailure (Logged Settings) := do
  let start : Settings := ⟨defaults, path⟩
  let loaded ← if path.getD "" = "" then pure ⟨start, []⟩ else load files start
  return ⟨loaded.value.override overrides,
    loaded.records ++ [.ofSettings Level.debug
      ("Configuration initialized (config_path: " ++ shownPath path ++ ")")]⟩

def ofOverrides (overrides : Entries) : Logged Settings :=
  ⟨standard.override overrides,
    [.ofSettings Level.debug "Configuration initialized (config_path: None)"]⟩

/-- The path to save to: the given one unless it is empty, else the settings' own. -/
def target (c : Settings) (path : Option String) : Option String :=
  (path.filter (· ≠ "")).or (c.path.filter (· ≠ ""))

def save (files : Files) (c : Settings) (path : Option String) :
    Except SettingsFailure (Logged (Files × String)) := do
  match c.target path with
  | none => throw noPath
  | some path =>
    let folder := Files.directory path
    let files ← if folder = "" then pure files else (files.makeFolders folder).mapError file
    let files ← (files.write path (Json.document c.all)).mapError file
    return ⟨(files, path), [.ofSettings Level.debug ("Configuration saved to " ++ path)]⟩

end Settings

end HtmlTree
