import HtmlTree.Proofs.Dom.Preorder
import HtmlTree.Proofs.Markup.Interchange
import HtmlTree.Proofs.Markup.Rebuild

/-! Two walks over the same trees, one that lists nodes and one that finds tokens. Each keeps what is
left on a stack of its own, and both go in preorder: the nodes stand in the list as their markup stands
among the tokens. -/

namespace HtmlTree

namespace Content

/-- Whether there is markup of a node's own, remarks apart. -/
def isWritten : Content → Bool
  | element .. | comment _ | doctype .. => true
  | text value => value.getD "" != ""
  | document | fragment | alien _ => false

end Content

namespace Markup

theorem escapeText_ne_nil {text : List Char} (filled : text ≠ []) : escapeText text ≠ [] := by
  obtain ⟨c, rest, rfl⟩ := List.exists_cons_of_ne_nil filled
  have first : escapeChar c ≠ [] := by
    unfold escapeChar
    split_ifs <;> exact List.cons_ne_nil _ _
  rw [escapeText, List.flatMap_cons]
  exact List.append_ne_nil_of_left_ne_nil first _

theorem escapeString_ne_empty {text : String} (filled : text ≠ "") : escapeString text ≠ "" := by
  rw [escapeString, ne_eq, String.ofList_eq_empty_iff]
  exact escapeText_ne_nil fun empty => filled (String.toList_eq_nil_iff.mp empty)

namespace Token

def isMarkup (t : Token) : Bool := t.problem?.isNone

theorem any_isMarkup_ofText {text : String} (filled : text ≠ "") :
    (ofText text).any isMarkup = true := by
  obtain ⟨t, rest, pieces⟩ := List.exists_cons_of_ne_nil (ofText_ne_nil filled)
  have piece := Walk.isPiece_of_mem_ofText text t (by rw [pieces]; exact List.mem_cons_self)
  have markup : t.isMarkup = true := by
    cases t with
    | characters text => rfl
    | spaces text => rfl
    | _ => cases piece
  rw [pieces, List.any_cons, markup, Bool.true_or]

end Token

namespace Walk

/-- The node whose first markup, or whose only one, was found in a round. -/
def Visit.opened? (v : Visit) : Option NodeId :=
  if v.tokens.any Token.isMarkup then v.node? else none

def opened (visits : List Visit) : List NodeId := visits.filterMap Visit.opened?

theorem any_isMarkup_enter (s : Store) (escape : Bool) (i : NodeId) (container : Option NodeId)
    (w : State) : (enter s escape i container w).1.any Token.isMarkup = (s.content i).isWritten := by
  unfold enter
  cases content : s.content i with
  | element tag space attrs =>
      simp only
      cases isVoidElement tag space <;> rfl
  | text value =>
      simp only [Content.isWritten, textTokens]
      by_cases empty : value.getD "" = ""
      · rw [empty]
        split <;> rfl
      · rw [bne_iff_ne.mpr empty]
        split
        · exact Token.any_isMarkup_ofText (escapeString_ne_empty empty)
        · exact Token.any_isMarkup_ofText empty
  | _ => rfl

theorem Runs.opened_eq {s : Store} {escape : Bool} {first last : State} {visits : List Visit}
    (runs : Runs s escape first visits last) :
    opened visits = (entered visits).filter fun i => (s.content i).isWritten := by
  induction runs with
  | rest w => rfl
  | @round raw task pending found next _ visits moved _ ih =>
      cases task with
      | leave tag space =>
          have none : Visit.opened? ⟨.leave tag space, found⟩ = none := by
            unfold Visit.opened?
            split <;> rfl
          rw [opened, List.filterMap_cons, none]
          exact ih
      | enter i container =>
          have written := any_isMarkup_enter s escape i container ⟨raw, pending⟩
          rw [step, Option.some.injEq] at moved
          simp only at moved
          rw [moved] at written
          have here : entered (⟨.enter i container, found⟩ :: visits) = i :: entered visits := rfl
          rw [opened, List.filterMap_cons, Visit.opened?, written, here, List.filter_cons]
          cases (s.content i).isWritten with
          | true => exact congrArg (i :: ·) ih
          | false => exact ih

end Walk

end Markup

namespace Store

open Markup (tokens)
open Markup.Walk (Runs tokensOf opened)

variable {s : Store}

theorem trimmed_sublist (s : Store) (f : Forest NodeId) :
    (s.trimmed f).labels.Sublist f.labels := by
  induction f with
  | nil => exact List.Sublist.refl []
  | cons i below rest ihBelow ihRest =>
      rw [trimmed, Forest.labels, Forest.labels]
      apply List.Sublist.cons_cons
      apply List.Sublist.append _ ihRest
      split
      · exact ihBelow
      · exact List.nil_sublist _

section Listing

theorem flattenLoop_found (s : Store) (fuel : Nat) : ∀ pending found : List NodeId,
    s.flattenLoop fuel pending found = found.reverse ++ s.flattenLoop fuel pending [] := by
  induction fuel with
  | zero =>
      intro pending found
      simp [flattenLoop]
  | succ fuel ih =>
      intro pending found
      cases pending with
      | nil => simp [flattenLoop]
      | cons i pending =>
          rw [flattenLoop, flattenLoop, ih _ (i :: found), ih _ [i]]
          simp

theorem flattenOnto_eq (s : Store) (found : List NodeId) (i : NodeId) :
    s.flattenOnto found i = found ++ s.flatten i := by
  rw [flattenOnto, flattenLoop_found, List.reverse_reverse, flatten]

theorem flattenOperandsOnto_nodes (s : Store) (roots : List NodeId) : ∀ found : List NodeId,
    s.flattenOperandsOnto found (roots.map .node) =
      .ok (found ++ roots.flatMap fun r => r :: s.flatten r) := by
  induction roots with
  | nil =>
      intro found
      simp [flattenOperandsOnto]
  | cons r roots ih =>
      intro found
      rw [List.map_cons, flattenOperandsOnto, ih, flattenOnto_eq]
      simp

end Listing

/-- Below a node from which no way down goes on for ever, the list is that of a recursion over the
trees: the node and then its children with all below them, in order. The stack is empty after one round
for each node listed, however much fuel is left then. What was found before stays in front, and a forest
is listed root by root. The walk finds its tokens in the same order: the nodes listed, without those
below void elements and without a container that is walked, are met one after the other, and those of
them that have markup have it found in that order. -/
theorem flatten_in_preorder (s : Store) (i : NodeId) (acyclic : s.Acyclic i) :
    s.reach i = (s.flatten i).length ∧
    (∀ fuel found, s.flattenLoop ((s.flatten i).length + fuel) [i] found =
      s.flattenLoop fuel [] ((s.flatten i).reverse ++ found)) ∧
    s.flatten i = i :: (s.children i).flatMap s.flatten ∧
    (∀ found, s.flattenOperandOnto found (.node i) = .ok (found ++ s.flatten i)) ∧
    (∀ (found roots : List NodeId), s.flattenOperandsOnto found (roots.map .node) =
      .ok (found ++ roots.flatMap fun r => r :: s.flatten r)) ∧
    ∃ f : Forest NodeId, s.children i = f.tops ∧ s.Unfolds f ∧ s.flatten i = i :: f.labels ∧
      (s.trimmed f).labels.Sublist f.labels ∧
      ∀ escape, ∃ visits raw, Runs s escape (Markup.Walk.start s i) visits ⟨raw, []⟩ ∧
        tokens s i escape = tokensOf visits ∧
        opened visits = (if s.isContainer i then (s.trimmed f).labels else [i]).filter
          fun j => (s.content j).isWritten := by
  obtain ⟨f, tops, unfolded⟩ := s.exists_unfolds i acyclic
  have listed := unfolded.flatten_eq i tops
  have whole : s.Unfolds (.cons i f .nil) := ⟨tops, unfolded, trivial⟩
  have labels : (Forest.cons i f .nil).labels = s.flatten i := by
    rw [listed, Forest.labels_single]
  refine ⟨?_, ?_, acyclic.flatten_eq, ?_, ?_, f, tops, unfolded, listed, s.trimmed_sublist f, ?_⟩
  · rw [unfolded.reach_eq i tops, listed, List.length_cons]
    omega
  · intro fuel found
    rw [← labels]
    exact s.flattenLoop_append _ whole fuel [] found
  · intro found
    rw [flattenOperandOnto, flattenOnto_eq]
  · exact fun found roots => s.flattenOperandsOnto_nodes roots found
  · intro escape
    obtain ⟨visits, raw, runs, found, nodes, _⟩ := Markup.exists_walk_spell s escape i f tops unfolded
    refine ⟨visits, raw, runs, ?_, ?_⟩
    · rw [Markup.tokens_eq_spell s escape i f tops unfolded, found]
    · rw [runs.opened_eq, nodes]

/-- A text that is listed by an element, by a fragment in the fragment and by a line break, a node of no
known kind and an empty text. -/
def sharedText : Store where
  nodes := #[
    ⟨.fragment, none, [1, 2, 1, 4, 5, 6]⟩, ⟨.element "b" (some htmlNamespace) [], some 0, [3]⟩,
    ⟨.element "br" (some htmlNamespace) [], some 0, [3]⟩, ⟨.text (some "x"), some 1, []⟩,
    ⟨.alien "x", none, []⟩, ⟨.text (some ""), some 0, []⟩, ⟨.fragment, none, [3]⟩]

def sharedForest : Forest NodeId :=
  .cons 1 (.cons 3 .nil .nil) (.cons 2 (.cons 3 .nil .nil) (.cons 1 (.cons 3 .nil .nil)
    (.cons 4 .nil (.cons 5 .nil (.cons 6 (.cons 3 .nil .nil) .nil)))))

theorem unfolds_sharedForest : sharedText.Unfolds sharedForest := by
  simp [sharedText, sharedForest, Unfolds, children, node, Forest.tops]

theorem flatten_sharedText : sharedText.Acyclic 0 ∧
    sharedText.flatten 0 = [0, 1, 3, 2, 3, 1, 3, 4, 5, 6, 3] ∧
    sharedText.flattenOperandOnto [7] (.node 0) = .ok ([7] ++ sharedText.flatten 0) ∧
    sharedText.flattenOperandsOnto [7] [.node 1, .node 6] = .ok [7, 1, 1, 3, 6, 6, 3] ∧
    ∃ visits raw, Runs sharedText true (Markup.Walk.start sharedText 0) visits ⟨raw, []⟩ ∧
      tokens sharedText 0 true = tokensOf visits ∧ opened visits = [1, 3, 2, 1, 3, 3] := by
  have listed : sharedText.children 0 = sharedForest.tops := rfl
  have whole : sharedText.Unfolds (.cons 0 sharedForest .nil) :=
    ⟨listed, unfolds_sharedForest, trivial⟩
  have acyclic := whole.acyclic 0 List.mem_cons_self
  obtain ⟨_, _, _, onto, forest, f, tops, unfolded, labels, _, walked⟩ :=
    flatten_in_preorder sharedText 0 acyclic
  obtain rfl := unfolded.unique unfolds_sharedForest (tops.symm.trans listed)
  obtain ⟨visits, raw, runs, found, order⟩ := walked true
  refine ⟨acyclic, labels.trans (by decide), onto [7], (forest [7] [1, 6]).trans ?_, visits, raw,
    runs, found, order.trans (by decide)⟩
  exact congrArg Except.ok (by decide)

end Store

end HtmlTree
