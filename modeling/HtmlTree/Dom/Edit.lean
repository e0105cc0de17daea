import HtmlTree.Dom.Failure
import HtmlTree.Journal

/-! Structural edits. A node is put where it is told and is not taken out of an earlier parent. -/

namespace HtmlTree.Store

def link (s : Store) (p n : NodeId) (place : List NodeId → List NodeId) : Store :=
  (s.setParent n (some p)).modify p fun node => { node with children := place node.children }

def append (s : Store) (p n : NodeId) : Store := s.link p n fun children => children ++ [n]

def prepend (s : Store) (p n : NodeId) : Store := s.link p n fun children => n :: children

/-- What became of a replacement: done, nothing to do without a parent, or the recorded parent does
not list the node. -/
inductive Replaced where
  | done (s : Store)
  | detached
  | unlisted (parent : NodeId)

def replace (s : Store) (old n : NodeId) : Replaced :=
  match s.parent old with
  | none => .detached
  | some p =>
    match s.indexOf p old with
    | none => .unlisted p
    | some k =>
      let s := s.link p n fun children => children.set k n
      .done (if n = old then s else s.setParent old none)

def remove (s : Store) (n : NodeId) : Store :=
  match s.parent n with
  | none => s
  | some p =>
    match s.indexOf p n with
    | none => s
    | some k => (s.setChildren p ((s.children p).eraseIdx k)).setParent n none

/-- Detaches the children that refer back to the node. -/
def release (s : Store) (p : NodeId) : List NodeId → Store
  | [] => s
  | c :: cs => release (if s.parent c = some p then s.setParent c none else s) p cs

def setText (s : Store) (p : NodeId) (value : String) : Store :=
  let s := (s.release p (s.children p)).setChildren p []
  let (t, s) := s.createText value
  s.append p t

def textOf (s : Store) (i : NodeId) : Except TreeFailure String :=
  match s.children i with
  | [] => .ok ""
  | [c] =>
    match s.content c with
    | .text value => .ok (value.getD "")
    | _ => .error (.childNotText i)
  | _ => .error (.severalChildren i)

/-- The record of a replacement that found its node unlisted. -/
def unlistedRecord (s : Store) (old p : NodeId) : Except TreeFailure Record :=
  match s.describe old, s.describe p with
  | some shown, some parent =>
    .ok (.ofTree Level.debug (shown ++ " is not a child of its recorded parent " ++ parent))
  | _, _ => .error .notShown

end HtmlTree.Store
