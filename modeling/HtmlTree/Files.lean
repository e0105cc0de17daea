/-! A small tree of folders and text files, named by paths from its top folder. -/

namespace HtmlTree

inductive FileFailure where
  | missing
  | isFolder
  | notFolder
  | taken
  deriving DecidableEq, Repr

inductive FileEntry where
  | folder
  | file (text : String)
  deriving DecidableEq, Repr

structure Files where
  entries : List (List String × FileEntry)
  deriving DecidableEq, Repr

namespace Files

def empty : Files := ⟨[]⟩

/-- The steps of a path: what stands between its slashes, without empty steps and single dots. -/
def steps (path : String) : List String :=
  let parts := (path.toList.splitOnP (· == '/')).map String.ofList
  let kept := parts.filter fun part => part ≠ "" && part ≠ "."
  (kept.foldl (fun done part => if part = ".." then done.drop 1 else part :: done) []).reverse

/-- What stands before the last slash, without the slashes at its end. -/
def directory (path : String) : String :=
  let before := (path.toList.reverse.dropWhile (· != '/'))
  let bare := before.dropWhile (· == '/')
  String.ofList (if bare.isEmpty then before.reverse else bare.reverse)

def find (files : Files) (place : List String) : Option FileEntry :=
  if place.isEmpty then some .folder
  else (files.entries.find? fun entry => entry.1 = place).map (·.2)

def reach (files : Files) (place : List String) : Except FileFailure Unit :=
  match (List.range place.length).findSome? fun n =>
    match files.find (place.take n) with
    | some .folder => none
    | some (.file _) => some FileFailure.notFolder
    | none => some FileFailure.missing with
  | some failure => .error failure
  | none => .ok ()

def read (files : Files) (path : String) : Except FileFailure String := do
  if path = "" then throw .missing
  files.reach (steps path)
  match files.find (steps path) with
  | some (.file text) => return text
  | some .folder => throw .isFolder
  | none => throw .missing

def setEntry (files : Files) (place : List String) (entry : FileEntry) : Files :=
  if (files.find place).isSome then
    ⟨files.entries.map fun old => if old.1 = place then (place, entry) else old⟩
  else ⟨files.entries ++ [(place, entry)]⟩

/-- Puts a text in place of a file's text, making the file but not its folders. -/
def write (files : Files) (path text : String) : Except FileFailure Files := do
  if path = "" then throw .missing
  files.reach (steps path)
  match files.find (steps path) with
  | some .folder => throw .isFolder
  | _ => return files.setEntry (steps path) (.file text)

def append (files : Files) (path text : String) : Except FileFailure Files :=
  match files.read path with
  | .ok old => files.write path (old ++ text)
  | .error .missing => files.write path text
  | .error failure => .error failure

/-- Makes a folder and the folders above it; folders that exist stay. -/
def makeFolders (files : Files) (path : String) : Except FileFailure Files :=
  let whole := steps path
  (List.range whole.length).foldlM (fun files n =>
    let place := whole.take (n + 1)
    match files.find place with
    | some .folder => .ok files
    | some (.file _) => .error (if n + 1 = whole.length then .taken else .notFolder)
    | none => .ok (files.setEntry place .folder)) files

end Files

end HtmlTree
