import HtmlTree.Settings.File

/-! Settings as they are kept. A dictionary is an object: what is set under a key is stored as it is handed
over, what is found there is the very object, and one that stands in several places shows in each of them
what is done to it in another. Where no dictionary stands in two places, settings are the values that they
show. -/

namespace HtmlTree

open Decimal (Binary64)

/-- What a key may hold: a dictionary by its number. Lists are never changed and are held as they are. -/
inductive Item (τ : Type) where
  | null
  | bool (b : Bool)
  | int (n : Int)
  | real (x : Binary64)
  | text (s : τ)
  | list (items : List (Item τ))
  | dict (number : Nat)

abbrev Slots (τ : Type) := List (τ × Item τ)

/-- The dictionaries in the order in which they were made. -/
abbrev Objects (τ : Type) := List (Slots τ)

namespace Objects

variable {τ : Type}

def slots (o : Objects τ) (d : Nat) : Slots τ := o.getD d []

mutual

/-- A value made anew, with a new dictionary for each one in it. -/
def build (o : Objects τ) : Value τ → Item τ × Objects τ
  | .null => (.null, o)
  | .bool b => (.bool b, o)
  | .int n => (.int n, o)
  | .real x => (.real x, o)
  | .text s => (.text s, o)
  | .list vs =>
    let (items, o) := buildItems o vs
    (.list items, o)
  | .dict entries =>
    let (slots, o) := buildSlots o entries
    (.dict o.length, o ++ [slots])

def buildItems (o : Objects τ) : List (Value τ) → List (Item τ) × Objects τ
  | [] => ([], o)
  | v :: vs =>
    let (item, o) := build o v
    let (items, o) := buildItems o vs
    (item :: items, o)

def buildSlots (o : Objects τ) : List (τ × Value τ) → Slots τ × Objects τ
  | [] => ([], o)
  | (key, v) :: entries =>
    let (item, o) := build o v
    let (slots, o) := buildSlots o entries
    ((key, item) :: slots, o)

end

variable [DecidableEq τ]

def find (o : Objects τ) (d : Nat) : List τ → Option (Item τ)
  | [] => none
  | [key] => lookup key (o.slots d)
  | key :: path =>
    match lookup key (o.slots d) with
    | some (.dict e) => find o e path
    | _ => none

def store (o : Objects τ) (d : Nat) (key : τ) (item : Item τ) : Objects τ :=
  o.set d (put key item (o.slots d))

/-- Stores an item at the end of a path. What is no dictionary on the way gives place to a new one. -/
def assign (o : Objects τ) (d : Nat) : List τ → Item τ → Objects τ
  | [], _ => o
  | [key], item => o.store d key item
  | key :: path, item =>
    match lookup key (o.slots d) with
    | some (.dict e) => assign o e path item
    | _ => assign (o.store d key (.dict o.length) ++ [[]]) o.length path item

def delete (o : Objects τ) (d : Nat) : List τ → Option (Objects τ)
  | [] => none
  | [key] =>
    match lookup key (o.slots d) with
    | some _ => some (o.set d (erase key (o.slots d)))
    | none => none
  | key :: path =>
    match lookup key (o.slots d) with
    | some (.dict e) => delete o e path
    | _ => none

mutual

/-- A value merged in under a key: into the dictionary there if both are dictionaries, else in its place. -/
def mergeSlot (o : Objects τ) (d : Nat) (key : τ) : Value τ → Objects τ
  | .dict source =>
    match lookup key (o.slots d) with
    | some (.dict e) => mergeInto o e source
    | _ =>
      let (item, o) := o.build (.dict source)
      o.store d key item
  | v =>
    let (item, o) := o.build v
    o.store d key item

def mergeInto (o : Objects τ) (d : Nat) : List (τ × Value τ) → Objects τ
  | [] => o
  | (key, v) :: source => mergeInto (mergeSlot o d key v) d source

end

end Objects

/-- Settings with the dictionaries that are there, their own one among them. -/
structure Live where
  objects : Objects Points
  root : Nat
  path : Option String

namespace Live

def segments (key : Points) : List Points := segmentsOf (.char '.') key

def standardEntries : Entries Points := Value.mapEntries Points.ofString Settings.defaults

def standard (path : Option String) : Live :=
  let (slots, o) := Objects.buildSlots [] standardEntries
  ⟨o ++ [slots], o.length, path⟩

def find (s : Live) (key : Points) : Option (Item Points) := s.objects.find s.root (segments key)

def get (s : Live) (key : Points) (default : Item Points) : Item Points := (s.find key).getD default

def set (s : Live) (key : Points) (item : Item Points) : Live :=
  { s with objects := s.objects.assign s.root (segments key) item }

/-- Sets a value that is made anew for this. -/
def setNew (s : Live) (key : Points) (v : Value Points) : Live :=
  let (item, objects) := s.objects.build v
  { s with objects }.set key item

def remove (s : Live) (key : Points) : Live × Bool :=
  match s.objects.delete s.root (segments key) with
  | some objects => ({ s with objects }, true)
  | none => (s, false)

def override (s : Live) (overrides : Entries Points) : Live :=
  (collect overrides).foldl (fun s entry => s.setNew entry.1 entry.2) s

def load (files : Files) (s : Live) : Except SettingsFailure (Logged Live) := do
  let path ← match s.path with
    | some path => pure path
    | none => throw .noFile
  let source ← Settings.readObjectAs id files path
  return ⟨{ s with objects := s.objects.mergeInto s.root source },
    [.ofSettings Level.debug ("Configuration loaded from " ++ path)]⟩

def make (files : Files) (path : Option String) (overrides : Entries Points) :
    Except SettingsFailure (Logged Live) := do
  let start := standard path
  let loaded ← if path.getD "" = "" then pure ⟨start, []⟩ else load files start
  return ⟨loaded.value.override overrides,
    loaded.records ++ [.ofSettings Level.debug
      ("Configuration initialized (config_path: " ++ Settings.shownPath path ++ ")")]⟩

end Live

end HtmlTree
