import HtmlTree.Dom.Store

/-! Merging adjacent texts and dropping empty ones, at a node and below it. Of a run of texts the
first stays and takes the values of the others, which are detached. -/

namespace HtmlTree.Store

def textValue (s : Store) (i : NodeId) : String :=
  match s.content i with
  | .text value => value.getD ""
  | _ => ""

/-- One pass over the children: what is kept, last first, and the containers met, last first. -/
structure Merge where
  store : Store
  kept : List NodeId
  below : List NodeId

def mergeChild (m : Merge) (c : NodeId) : Merge :=
  if m.store.isText c then
    if m.store.textValue c = "" then { m with store := m.store.setParent c none }
    else
      match m.kept with
      | last :: _ =>
        if m.store.isText last then
          let joined := m.store.textValue last ++ m.store.textValue c
          { m with store := (m.store.setContent last (.text (some joined))).setParent c none }
        else { m with kept := c :: m.kept }
      | [] => { m with kept := [c] }
  else if m.store.isContainer c then
    { m with kept := c :: m.kept, below := c :: m.below }
  else { m with kept := c :: m.kept }

def mergeChildren (s : Store) (i : NodeId) : Merge :=
  let m := (s.children i).foldl mergeChild ⟨s, [], []⟩
  { m with store := m.store.setChildren i m.kept.reverse }

def normalizeStep (s : Store) (i : NodeId) (pending : List NodeId) : Store × List NodeId :=
  let m := s.mergeChildren i
  (m.store, m.below ++ pending)

def normalizeLoop : Nat → Store → List NodeId → Store
  | 0, s, _ => s
  | _ + 1, s, [] => s
  | fuel + 1, s, i :: pending =>
    let (s, pending) := s.normalizeStep i pending
    normalizeLoop fuel s pending

def normalize (s : Store) (i : NodeId) : Store :=
  if s.isContainer i then normalizeLoop (s.reach i + 1) s [i] else s

end HtmlTree.Store
