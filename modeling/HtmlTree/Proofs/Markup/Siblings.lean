import HtmlTree.Proofs.Dom.Preorder
import HtmlTree.Proofs.Markup.RawText
import HtmlTree.Proofs.Markup.Spelling

/-! Trees beside each other are written one by one. Three states are carried from token to token: the
walk's flag for raw text, the writer's, and the count of open elements that keep their white space. A
whole tree leaves each of them as it found it, so that the next one is written as if it stood alone. -/

namespace HtmlTree

namespace Markup

open Token (around spell spellNode)
open Walk (isPlain rawAfter rawStep)

/-- A relation that holds between a state and the one after any tokens of whole trees: plain tokens
keep to it, and so does an element around what keeps to it. -/
structure Settles {σ : Type} (step : σ → Token → σ) (rel : σ → σ → Prop) : Prop where
  refl : ∀ x, rel x x
  trans : ∀ x y z, rel x y → rel y z → rel x z
  plain : ∀ x t, isPlain t = true → rel x (step x t)
  element : ∀ x y name space attrs, rel (step x (.startTag name space attrs)) y →
    rel x (step y (.endTag name space))

theorem isPlain_of_mem_around {c : Content} (closed : c.isOpen = false) (below : Forest Content)
    (inside : List Token) : ∀ t ∈ around c below inside, isPlain t = true := by
  cases c with
  | element tag space attrs =>
      have void : isVoidElement tag space = true := by simpa [Content.isOpen] using closed
      rw [around, void, if_pos rfl, List.forall_mem_cons]
      refine ⟨(Bool.and_eq_true_iff.mp void).2, ?_⟩
      intro t member
      split at member
      · cases member
      · rw [List.mem_singleton.mp member]
        rfl
  | text value =>
      exact fun t member => Walk.isPlain_of_isPiece t (Walk.isPiece_of_mem_ofText _ t member)
  | document => cases closed
  | fragment => cases closed
  | _ => exact fun t member => by rw [List.mem_singleton.mp member]; rfl

theorem isPlain_of_mem_spellNode {c : Content × Bool} (closed : c.1.isOpen = false)
    (escape raw : Bool) (below : Forest (Content × Bool)) :
    ∀ t ∈ spellNode escape raw c below, isPlain t = true := by
  apply isPlain_of_mem_around
  rw [Token.told]
  split
  · cases content : c.1 with
    | text value => rfl
    | _ => rw [content] at closed; exact closed
  · exact closed

theorem Settles.spell {σ : Type} {step : σ → Token → σ} {rel : σ → σ → Prop}
    (settles : Settles step rel) (escape : Bool) (f : Forest (Content × Bool)) :
    ∀ raw x, rel x ((spell escape raw f).foldl step x) := by
  induction f with
  | nil => exact fun _ x => settles.refl x
  | cons c below rest ihBelow ihRest =>
      intro raw x
      have first : rel x ((spellNode escape raw c below).foldl step x) := by
        cases opened : c.1.isOpen with
        | false =>
            have plains : ∀ ts : List Token, (∀ t ∈ ts, isPlain t = true) →
                ∀ y, rel y (ts.foldl step y) := by
              intro ts
              induction ts with
              | nil => exact fun _ y => settles.refl y
              | cons t ts ih =>
                  intro plain y
                  obtain ⟨here, others⟩ := List.forall_mem_cons.mp plain
                  exact settles.trans _ _ _ (settles.plain y t here) (ih others _)
            exact plains _ (isPlain_of_mem_spellNode opened escape raw below) x
        | true =>
            rcases Content.isHolder_or_element opened with holder | ⟨tag, space, attrs, content, plain⟩
            · rw [Token.spellNode_holder escape raw holder]
              exact ihBelow raw x
            · rw [Token.spellNode_element escape raw content plain, List.foldl_cons,
                List.foldl_append]
              exact settles.element x _ tag space (Attr.toPairs attrs) (ihBelow _ _)
      rw [Token.spell_cons, List.foldl_append]
      exact settles.trans _ _ _ first (ihRest _ _)

/-- Raw text is open after a tree only if it was before. -/
theorem settles_rawStep : Settles rawStep fun before after => after = true → before = true where
  refl _ := id
  trans _ _ _ first second := first ∘ second
  plain raw t plain on := by
    cases t with
    | startTag name space attrs => cases plain
    | endTag name space => cases plain
    | _ => exact on
  element raw after name space attrs inside on := by
    simp only [rawStep, Bool.and_eq_true, Bool.not_eq_true'] at on inside
    have was := inside on.1
    rw [on.2, Bool.or_false] at was
    exact was

theorem settles_flagStep (st : Style) :
    Settles (flagStep st) fun before after => after = true → before = true where
  refl _ := id
  trans _ _ _ first second := first ∘ second
  plain raw t plain on := by
    cases t with
    | startTag name space attrs => cases plain
    | endTag name space => cases plain
    | emptyTag name space attrs =>
        rw [flagStep, isRawText_of_isVoid name plain, Bool.false_and, Bool.false_or] at on
        exact on
    | _ => exact on
  element raw after name space attrs inside on := by
    simp only [flagStep, Bool.and_eq_true, Bool.not_eq_true'] at on inside
    have was := inside on.1
    rw [on.2, Bool.false_and, Bool.false_or] at was
    exact was

/-- How a token changes the number of open elements that keep white space or stand in one that
does. -/
def keptStep (kept : Nat) : Token → Nat
  | .startTag name _ _ => if 0 < kept || keepsSpaces name then kept + 1 else kept
  | .endTag _ _ => kept - 1
  | _ => kept

theorem settles_keptStep : Settles keptStep Eq where
  refl _ := rfl
  trans _ _ _ := Eq.trans
  plain kept t plain := by
    cases t with
    | startTag name space attrs => cases plain
    | endTag name space => cases plain
    | _ => rfl
  element kept after name space attrs inside := by
    rw [← inside, keptStep, keptStep]
    split
    · rfl
    · next outside =>
      simp at outside
      omega

theorem rawAfter_spell (escape : Bool) (f : Forest (Content × Bool)) :
    rawAfter false (spell escape false f) = false := by
  by_contra on
  rw [Bool.not_eq_false] at on
  exact Bool.false_ne_true (settles_rawStep.spell escape f false false on)

theorem rawAfter_spellNode (escape : Bool) (c : Content × Bool) (below : Forest (Content × Bool)) :
    rawAfter false (Token.spellNode escape false c below) = false := by
  have alone := rawAfter_spell escape (.cons c below .nil)
  rwa [Token.spell_cons, spell, List.append_nil] at alone

theorem foldl_flagStep_spell (st : Style) (escape : Bool) (f : Forest (Content × Bool)) :
    (spell escape false f).foldl (flagStep st) false = false := by
  by_contra on
  rw [Bool.not_eq_false] at on
  exact Bool.false_ne_true ((settles_flagStep st).spell escape f false false on)

theorem stripSpaces_append (left right : List Token) : ∀ kept,
    stripSpaces kept (left ++ right) =
      stripSpaces kept left ++ stripSpaces (left.foldl keptStep kept) right := by
  induction left with
  | nil => exact fun _ => rfl
  | cons t left ih =>
      intro kept
      cases t <;> simp only [List.cons_append, stripSpaces, ih, List.foldl_cons, keptStep]

theorem keptStep_sortAttributes (kept : Nat) (t : Token) :
    keptStep kept (sortAttributes t) = keptStep kept t := by
  cases t <;> rfl

theorem foldl_flagStep_stripSpaces (st : Style) (ts : List Token) : ∀ kept raw,
    (stripSpaces kept ts).foldl (flagStep st) raw = ts.foldl (flagStep st) raw := by
  induction ts with
  | nil => exact fun _ _ => rfl
  | cons t ts ih =>
      intro kept raw
      cases t with
      | spaces text =>
          rw [stripSpaces]
          split <;> exact ih kept raw
      | characters text =>
          rw [stripSpaces]
          split <;> exact ih kept raw
      | _ => simp only [stripSpaces, List.foldl_cons, ih]

theorem filterTokens_append (st : Style) (whole : st.omitOptional = false) (left right : List Token)
    (settled : left.foldl keptStep 0 = 0) :
    filterTokens st (left ++ right) = filterTokens st left ++ filterTokens st right := by
  have sorted : (left.map sortAttributes).foldl keptStep 0 = 0 := by
    rw [List.foldl_map]
    simp only [keptStep_sortAttributes]
    exact settled
  simp only [filterTokens, filterTokensBy, whole, id_eq, ite_self, Bool.false_eq_true, if_false]
  cases st.sortAttributes <;> cases st.stripSpaces <;>
    simp [stripSpaces_append, settled, sorted]

theorem foldl_flagStep_filterTokens (st : Style) (whole : st.omitOptional = false) (ts : List Token)
    (raw : Bool) : (filterTokens st ts).foldl (flagStep st) raw = ts.foldl (flagStep st) raw := by
  have sorted : (if st.sortAttributes then ts.map sortAttributes else ts).foldl (flagStep st) raw =
      ts.foldl (flagStep st) raw := by
    have unordered : (ts.map (ordered st)).foldl (flagStep st) raw = ts.foldl (flagStep st) raw := by
      rw [List.foldl_map]
      simp only [flagStep_ordered]
    cases sorts : st.sortAttributes with
    | false => rfl
    | true =>
        have same : ordered st = sortAttributes := by
          funext t
          rw [ordered, sorts, if_pos rfl]
        rw [same] at unordered
        exact unordered
  simp only [filterTokens, filterTokensBy, whole, id_eq, ite_self, Bool.false_eq_true, if_false]
  split
  · rw [foldl_flagStep_stripSpaces]
    exact sorted
  · exact sorted

theorem renderTokens_append (st : Style) (left right : List Token) : ∀ raw,
    renderTokens st raw (left ++ right) = (renderTokens st raw left).bind fun first =>
      (renderTokens st (left.foldl (flagStep st) raw) right).map first.append := by
  induction left with
  | nil =>
      intro raw
      simp only [List.nil_append, renderTokens, Except.bind, List.foldl_nil]
      cases renderTokens st raw right <;> rfl
  | cons t left ih =>
      intro raw
      rw [List.cons_append, renderTokens_cons, renderTokens_cons, List.foldl_cons]
      cases one : renderToken st raw t with
      | error failure => rfl
      | ok first =>
          rw [← renderToken_flag st raw t first one]
          simp only [Except.bind]
          rw [ih]
          cases renderTokens st first.2 left with
          | error failure => rfl
          | ok others =>
              simp only [Except.bind, Except.map]
              cases renderTokens st (left.foldl (flagStep st) first.2) right with
              | error failure => rfl
              | ok second => simp only [Rendered.append_assoc]

def renderForest (st : Style) (f : Forest (Content × Bool)) : Except RenderFailure Rendered :=
  renderTokens st false (filterTokens st (spell (!st.escapeRaw) false f))

theorem renderForest_nil (st : Style) : renderForest st .nil = .ok .none := by
  have nothing : filterTokens st [] = [] := by
    simp only [filterTokens, filterTokensBy, List.map_nil, stripSpaces, omitOptional, id_eq,
      OptionalTag.dropImplied, ite_self]
  rw [renderForest, spell, nothing]
  rfl

theorem renderForest_append (st : Style) (whole : st.omitOptional = false)
    (f g : Forest (Content × Bool)) :
    renderForest st (f.append g) = (renderForest st f).bind fun first =>
      (renderForest st g).map first.append := by
  have kept := (settles_keptStep.spell (!st.escapeRaw) f false 0).symm
  simp only [renderForest]
  rw [Token.spell_append, rawAfter_spell, filterTokens_append st whole _ _ kept,
    renderTokens_append, foldl_flagStep_filterTokens st whole, foldl_flagStep_spell]

end Markup

namespace Store

open Markup (Rendered RenderFailure Style renderForest tokens_eq_spell)

/-- A tree is the same in two stores; only its root may have another parent. -/
structure SameBelow (s t : Store) (x : NodeId) : Prop where
  content : ∀ i ∈ s.flatten x, t.content i = s.content i
  children : ∀ i ∈ s.flatten x, t.children i = s.children i
  parent : ∀ i ∈ s.flatten x, i ≠ x → t.parent i = s.parent i

theorem Unfolds.not_mem_below {s : Store} {f : Forest NodeId} (unfolded : s.Unfolds f) (i : NodeId)
    (tops : s.children i = f.tops) : i ∉ f.labels := by
  intro inside
  obtain ⟨below, belowTops, belowUnfolds, sublist⟩ := unfolded.exists_subtree i inside
  rw [belowUnfolds.unique unfolded (belowTops.symm.trans tops)] at sublist
  have shorter := sublist.length_le
  rw [List.length_cons] at shorter
  omega

theorem marked_congr {s t : Store} (f : Forest NodeId)
    (same : ∀ i ∈ f.labels, t.content i = s.content i ∧ t.parent i = s.parent i) :
    ∀ p, t.content p = s.content p → t.marked (some p) f = s.marked (some p) f := by
  induction f with
  | nil => exact fun _ _ => rfl
  | cons i below rest ihBelow ihRest =>
      rw [Forest.labels, List.forall_mem_cons, List.forall_mem_append] at same
      intro p lister
      have mark : t.isKeptRaw (some p) i = s.isKeptRaw (some p) i := by
        simp only [isKeptRaw, isText, Markup.isLinkedRawText, lister, same.1.1, same.1.2]
      rw [marked, marked, same.1.1, mark, ihBelow same.2.1 i same.1.1, ihRest same.2.2 p lister]

theorem isKeptRaw_of_isRawText (s : Store) (p i : NodeId) (plain : (s.content p).isRawText = false) :
    s.isKeptRaw (some p) i = false := by
  rw [isKeptRaw_eq, plain, Bool.false_and, Bool.and_false]

theorem serialize_fragment (c : Settings) (st : Style) (accepted : Style.ofSettings c = .ok st)
    (s : Store) (root : NodeId) (f : Forest NodeId) (fragment : s.content root = .fragment)
    (tops : s.children root = f.tops) (unfolded : s.Unfolds f) :
    serialize c s root = renderForest st (s.marked (some root) f) := by
  have open_ : s.isContainer root = true := by
    rw [isContainer, fragment]
    rfl
  rw [Markup.serialize_of_accepted accepted, Markup.render_eq_renderTokens,
    tokens_eq_spell s _ root f tops unfolded, markedShown, if_pos open_, renderForest]

theorem serialize_single (c : Settings) (st : Style) (accepted : Style.ofSettings c = .ok st)
    (s t : Store) (root g x : NodeId) (below : Forest NodeId) (fragment : s.content root = .fragment)
    (single : t.content g = .fragment) (listed : t.children g = [x]) (same : SameBelow s t x)
    (tops : s.children x = below.tops) (unfolded : s.Unfolds below) :
    serialize c t g = renderForest st (s.marked (some root) (.cons x below .nil)) := by
  have region := unfolded.flatten_eq x tops
  have top : x ∈ s.flatten x := by
    rw [region]
    exact List.mem_cons_self
  have deeper : ∀ i ∈ below.labels, i ∈ s.flatten x ∧ i ≠ x := by
    intro i inside
    rw [region]
    refine ⟨List.mem_cons_of_mem x inside, ?_⟩
    rintro rfl
    exact unfolded.not_mem_below i tops inside
  have moved : t.Unfolds (.cons x below .nil) :=
    ⟨(same.children x top).trans tops,
      unfolded.congr fun i inside => same.children i (deeper i inside).1, trivial⟩
  have marks : t.marked (some x) below = s.marked (some x) below :=
    marked_congr below (fun i inside => ⟨same.content i (deeper i inside).1,
      same.parent i (deeper i inside).1 (deeper i inside).2⟩) x (same.content x top)
  have unmarked : t.isKeptRaw (some g) x = false ∧ s.isKeptRaw (some root) x = false :=
    ⟨t.isKeptRaw_of_isRawText g x (by rw [single]; rfl),
      s.isKeptRaw_of_isRawText root x (by rw [fragment]; rfl)⟩
  have alike : t.marked (some g) (.cons x below .nil) = s.marked (some root) (.cons x below .nil) := by
    simp only [marked, unmarked, same.content x top, marks]
  rw [serialize_fragment c st accepted t g (.cons x below .nil) single listed moved, alike]

/-- A fragment is written as its trees one by one: text and problems are those of fragments that each
hold one of them, one after the other, and the first failure is the failure. -/
theorem serialize_siblings (c : Settings) (st : Style) (accepted : Style.ofSettings c = .ok st)
    (whole : st.omitOptional = false) (s : Store) (root : NodeId)
    (fragment : s.content root = .fragment) (acyclic : ∀ x ∈ s.children root, s.Acyclic x)
    (parts : List (Store × NodeId))
    (split : List.Forall₂ (fun x part => part.1.content part.2 = .fragment ∧
      part.1.children part.2 = [x] ∧ SameBelow s part.1 x) (s.children root) parts) :
    serialize c s root = (parts.mapM fun part => serialize c part.1 part.2).map fun rs =>
      ⟨rs.flatMap (·.text), rs.flatMap (·.problems)⟩ := by
  obtain ⟨f, tops, unfolded⟩ := s.exists_unfolds root (Acc.intro root acyclic)
  rw [serialize_fragment c st accepted s root f fragment tops unfolded]
  rw [tops] at split
  clear tops acyclic
  induction f generalizing parts with
  | nil =>
      cases split
      rw [marked, Markup.renderForest_nil]
      rfl
  | cons x below rest _ ih =>
      cases split with
      | @cons _ part _ parts first others =>
          obtain ⟨single, listed, same⟩ := first
          have apart : s.marked (some root) (.cons x below rest) =
              (s.marked (some root) (.cons x below .nil)).append (s.marked (some root) rest) := rfl
          rw [apart, Markup.renderForest_append st whole, ih parts others unfolded.2.2,
            List.mapM_cons, serialize_single c st accepted s part.1 root part.2 x below fragment single
              listed same unfolded.1 unfolded.2.1]
          cases renderForest st (s.marked (some root) (.cons x below .nil)) with
          | error failure => rfl
          | ok r => cases parts.mapM fun part => serialize c part.1 part.2 <;> rfl

/-- Raw text in raw text, a void element with a child, a fragment in the fragment, and white space to
be shortened. -/
def siblingTrees : Store where
  nodes := #[
    ⟨.fragment, none, [1, 5, 7, 10, 11]⟩, ⟨.element "script" (some htmlNamespace) [], some 0, [2, 4]⟩,
    ⟨.element "style" (some htmlNamespace) [], some 1, [3]⟩, ⟨.text (some "a<b"), some 2, []⟩,
    ⟨.text (some "c<d"), some 1, []⟩, ⟨.element "br" (some htmlNamespace) [], some 0, [6]⟩,
    ⟨.text (some "e"), some 5, []⟩, ⟨.fragment, none, [8]⟩,
    ⟨.element "pre" (some htmlNamespace) [], some 7, [9]⟩, ⟨.text (some "f  g"), some 8, []⟩,
    ⟨.text (some "h  <i"), some 0, []⟩, ⟨.comment "j--k", some 0, []⟩]

def oneSibling (x : NodeId) : Store where
  nodes := siblingTrees.nodes.set! 0 ⟨.fragment, none, [x]⟩

def strippingSpaces : Settings := Settings.standard.set "serializer.strip_whitespace" (.bool true)

theorem siblingTrees_acyclic : siblingTrees.Acyclic 0 := by
  have unfolded : siblingTrees.Unfolds (.cons 0 (.cons 1 (.cons 2 (.cons 3 .nil .nil) (.cons 4 .nil .nil))
      (.cons 5 (.cons 6 .nil .nil) (.cons 7 (.cons 8 (.cons 9 .nil .nil) .nil)
        (.cons 10 .nil (.cons 11 .nil .nil))))) .nil) := by
    simp [siblingTrees, Unfolds, children, node, Forest.tops]
  exact unfolded.acyclic 0 List.mem_cons_self

theorem sameBelow_oneSibling :
    ∀ x ∈ siblingTrees.children 0, SameBelow siblingTrees (oneSibling x) x := by
  have content : ∀ x ∈ siblingTrees.children 0, ∀ i ∈ siblingTrees.flatten x,
      (oneSibling x).content i = siblingTrees.content i := by decide
  have children : ∀ x ∈ siblingTrees.children 0, ∀ i ∈ siblingTrees.flatten x,
      (oneSibling x).children i = siblingTrees.children i := by decide
  have parent : ∀ x ∈ siblingTrees.children 0, ∀ i ∈ siblingTrees.flatten x,
      i ≠ x → (oneSibling x).parent i = siblingTrees.parent i := by decide
  exact fun x listed => ⟨content x listed, children x listed, parent x listed⟩

theorem serialize_siblingTrees :
    Style.ofSettings strippingSpaces = .ok { Style.standard with stripSpaces := true } ∧
      (∀ x ∈ siblingTrees.children 0, siblingTrees.Acyclic x) ∧
      (∀ x ∈ siblingTrees.children 0, SameBelow siblingTrees (oneSibling x) x) ∧
      serialize strippingSpaces siblingTrees 0 = .ok
        ⟨"<script><style>a<b</style>c&lt;d</script><br><pre>f  g</pre>h &lt;i<!--j--k-->".toList,
          ["Void element has children", "Comment contains --"]⟩ ∧
      serialize strippingSpaces (oneSibling 10) 0 = .ok ⟨"h &lt;i".toList, []⟩ ∧
      serialize strippingSpaces siblingTrees 0 =
        ([1, 5, 7, 10, 11].mapM fun x => serialize strippingSpaces (oneSibling x) 0).map fun rs =>
          ⟨rs.flatMap (·.text), rs.flatMap (·.problems)⟩ := by
  have accepted : Style.ofSettings strippingSpaces =
      .ok { Style.standard with stripSpaces := true } := rfl
  have acyclic : ∀ x ∈ siblingTrees.children 0, siblingTrees.Acyclic x :=
    fun x listed => siblingTrees_acyclic.inv listed
  refine ⟨accepted, acyclic, sameBelow_oneSibling, by decide +kernel, by decide +kernel, ?_⟩
  have split : List.Forall₂ (fun x part => part.1.content part.2 = .fragment ∧
      part.1.children part.2 = [x] ∧ SameBelow siblingTrees part.1 x) (siblingTrees.children 0)
      ([1, 5, 7, 10, 11].map fun x => (oneSibling x, 0)) := by
    rw [List.forall₂_map_right_iff]
    exact List.forall₂_same.mpr fun x listed => ⟨rfl, rfl, sameBelow_oneSibling x listed⟩
  have joined := serialize_siblings strippingSpaces _ accepted rfl siblingTrees 0 rfl acyclic _ split
  rw [List.mapM_map] at joined
  exact joined

end Store

end HtmlTree
