import HtmlTree.Proofs.Markup.Spelling

/-! Reading tokens back. A machine that keeps the elements it is in on a stack builds, from the tokens
of a tree, the normal form of that tree. -/

namespace HtmlTree.Markup

structure OpenTag where
  name : String
  space : Option String
  attrs : Pairs
  before : List (Forest Content × Content)
  deriving DecidableEq

/-- The reader of tokens: what was built in the innermost open element, last first, and the open
elements, innermost first. -/
structure Machine where
  level : List (Forest Content × Content)
  opened : List OpenTag
  deriving DecidableEq

namespace Machine

def close (level : List (Forest Content × Content)) : Forest Content :=
  .ofTrees (level.reverse.map Prod.swap)

def addText (text : String) : List (Forest Content × Content) → List (Forest Content × Content)
  | [] => [(.nil, .text (some text))]
  | last :: before =>
    match last.2.text? with
    | some first => (last.1, .text (some (first ++ text))) :: before
    | none => (.nil, .text (some text)) :: last :: before

def put (m : Machine) (c : Content) : Machine := { m with level := (.nil, c) :: m.level }

/-- Takes up one token. An end tag that does not close the innermost element cannot be read. -/
def read (m : Machine) : Token → Option Machine
  | .startTag name space attrs => some ⟨[], ⟨name, space, attrs, m.level⟩ :: m.opened⟩
  | .emptyTag name space attrs => some (m.put (.element name space (Attr.ofPairs attrs)))
  | .endTag name space =>
    match m.opened with
    | [] => none
    | tag :: opened =>
      if tag.name = name ∧ tag.space = space then
        some ⟨(close m.level, .element name space (Attr.ofPairs tag.attrs)) :: tag.before, opened⟩
      else none
  | .characters text | .spaces text => some { m with level := addText text m.level }
  | .comment data => some (m.put (.comment data))
  | .doctype name publicId systemId =>
    some (m.put (.doctype name (publicId.getD "") (systemId.getD "")))
  | .problem _ => some m

end Machine

/-- The trees that tokens tell of, if they can be read to the end and close all they open. -/
def rebuild (ts : List Token) : Option (Forest Content) :=
  match ts.foldlM Machine.read ⟨[], []⟩ with
  | some ⟨level, []⟩ => some (Machine.close level)
  | _ => none

namespace Token

def problem? : Token → Option String
  | problem text => some text
  | _ => none

end Token

section Texts

variable {level : List (Forest Content × Content)}

theorem text?_text (value : Option String) : (Content.text value).text? = some (value.getD "") := rfl

theorem joinStep_empty (below : Forest Content) {value : Option String} (empty : value.getD "" = "") :
    joinStep level (below, .text value) = level := by
  cases level <;> simp [joinStep, text?_text, empty]

theorem addText_eq (text : String) (filled : text ≠ "") :
    Machine.addText text level = joinStep level (.nil, .text (some text)) := by
  cases level with
  | nil => simp [Machine.addText, joinStep, text?_text, filled]
  | cons last before =>
      cases prior : last.2.text? with
      | none => simp [Machine.addText, joinStep, text?_text, filled, prior]
      | some first => simp [Machine.addText, joinStep, text?_text, filled, prior]

theorem addText_addText (first second : String) :
    Machine.addText second (Machine.addText first level) = Machine.addText (first ++ second) level := by
  cases level with
  | nil => rfl
  | cons last before =>
      cases prior : last.2.text? with
      | none => simp [Machine.addText, text?_text, prior]
      | some text => simp [Machine.addText, text?_text, prior, String.append_assoc]

theorem joinStep_joinStep (first second : String) :
    joinStep (joinStep level (.nil, .text (some first))) (.nil, .text (some second)) =
      joinStep level (.nil, .text (some (first ++ second))) := by
  by_cases noFirst : first = ""
  · have unchanged : joinStep level (.nil, .text (some first)) = level := joinStep_empty .nil noFirst
    rw [unchanged, noFirst, String.empty_append]
  · by_cases noSecond : second = ""
    · rw [noSecond, String.append_empty]
      exact joinStep_empty .nil rfl
    · have both : first ++ second ≠ "" := by
        simp [String.append_eq_empty_iff, noFirst]
      rw [← addText_eq first noFirst, ← addText_eq second noSecond, ← addText_eq _ both,
        addText_addText]

theorem joinStep_getD (value : Option String) :
    joinStep level (.nil, .text (some (value.getD ""))) = joinStep level (.nil, .text value) := by
  cases value with
  | none => rw [joinStep_empty .nil rfl, joinStep_empty .nil rfl]
  | some text => rfl

theorem foldlM_nonempty {make : String → Token}
    (taken : ∀ text m, Machine.read m (make text) =
      some { m with level := Machine.addText text m.level })
    (chars : List Char) (opened : List OpenTag) :
    (Token.nonempty make chars).foldlM Machine.read ⟨level, opened⟩ =
      some ⟨joinStep level (.nil, .text (some (String.ofList chars))), opened⟩ := by
  cases chars with
  | nil =>
      rw [String.ofList_nil, joinStep_empty .nil rfl]
      rfl
  | cons c chars =>
      have filled : String.ofList (c :: chars) ≠ "" := by
        rw [Ne, ← String.toList_inj, String.toList_ofList]
        exact List.cons_ne_nil c chars
      rw [← addText_eq _ filled]
      simp [Token.nonempty, taken]

theorem foldlM_ofText (text : String) (opened : List OpenTag) :
    (Token.ofText text).foldlM Machine.read ⟨level, opened⟩ =
      some ⟨joinStep level (.nil, .text (some text)), opened⟩ := by
  obtain ⟨front, middle, back, whole, pieces, _⟩ := Walk.exists_pieces text
  have joined : String.ofList front ++ (String.ofList middle ++ String.ofList back) = text := by
    rw [← String.toList_inj]
    simp [whole]
  rw [pieces, List.foldlM_append, List.foldlM_append, foldlM_nonempty fun _ _ => rfl]
  simp only [Option.bind_eq_bind, Option.bind_some]
  rw [foldlM_nonempty fun _ _ => rfl]
  simp only [Option.bind_some]
  rw [foldlM_nonempty (fun _ _ => rfl), joinStep_joinStep, joinStep_joinStep, joined]

end Texts

theorem optional_getD (text : String) : (Walk.optional text).getD "" = text := by
  by_cases empty : text = ""
  · simp [Walk.optional, empty]
  · simp [Walk.optional, empty]

/-- What is read of trees' tokens ends up beside what was there before, and the open elements are the
same again. -/
theorem foldlM_encode (f : Forest Content) : ∀ level opened,
    (Token.encode f).foldlM Machine.read ⟨level, opened⟩ =
      some ⟨f.told.normalTops.foldl joinStep level, opened⟩ := by
  -- What is open above a level is never read, so each level can start from any other.
  induction f with
  | nil => exact fun _ _ => rfl
  | cons c below rest ihBelow ihRest =>
      intro level opened
      rw [Token.encode, List.foldlM_append]
      cases c with
      | element tag space attrs =>
          rw [Forest.told_element, Forest.normalTops, List.foldl_cons, joinStep_other _ _ rfl]
          cases void : isVoidElement tag space with
          | true =>
              have ignored : ∀ m : Machine, (if below = .nil then []
                  else [Token.problem "Void element has children"]).foldlM Machine.read m = some m := by
                intro m
                split <;> rfl
              simp [Token.around, void, Machine.read, ignored, Machine.put, ihRest,
                Attr.ofPairs_toPairs, Forest.normalTops, joinRuns, Forest.ofTrees]
          | false =>
              simp [Token.around, void, Machine.read, ihBelow, ihRest, Attr.ofPairs_toPairs,
                Machine.close, joinRuns]
      | text value =>
          rw [Forest.told_leaf rfl rfl, Forest.normalTops, List.foldl_cons]
          simp only [Token.around, foldlM_ofText, Option.bind_eq_bind, Option.bind_some, ihRest,
            joinStep_getD]
          rfl
      | comment data =>
          rw [Forest.told_leaf rfl rfl, Forest.normalTops, List.foldl_cons, joinStep_other _ _ rfl]
          simp [Token.around, Machine.read, Machine.put, ihRest, Forest.normalTops, joinRuns,
            Forest.ofTrees]
      | doctype name publicId systemId =>
          rw [Forest.told_leaf rfl rfl, Forest.normalTops, List.foldl_cons, joinStep_other _ _ rfl]
          simp [Token.around, Machine.read, Machine.put, ihRest, optional_getD, Forest.normalTops,
            joinRuns, Forest.ofTrees]
      | document | fragment =>
          rw [Forest.told_holder rfl, Forest.normalTops_append, List.foldl_append]
          simp [Token.around, ihBelow, ihRest]
      | alien name =>
          rw [Forest.told_alien]
          simp [Token.around, Machine.read, ihRest]

theorem rebuild_encode (f : Forest Content) : rebuild (Token.encode f) = some f.normalForm := by
  rw [rebuild, foldlM_encode]
  rfl

theorem problems_encode (f : Forest Content) :
    (Token.encode f).filterMap Token.problem? = f.losses := by
  induction f with
  | nil => rfl
  | cons c below rest ihBelow ihRest =>
      rw [Token.encode, List.filterMap_append, ihRest, Forest.losses_cons, ← List.append_assoc]
      congr 1
      cases c with
      | element tag space attrs =>
          cases void : isVoidElement tag space with
          | true =>
              cases below <;> simp [Token.around, List.filterMap_cons, Token.problem?, Forest.loss?,
                Content.isOpen, void]
          | false =>
              cases below <;> simp [Token.around, List.filterMap_cons, Token.problem?, Forest.loss?,
                Content.isOpen, void, ihBelow]
      | text value =>
          have pieces : (Token.ofText (value.getD "")).filterMap Token.problem? = [] := by
            rw [List.filterMap_eq_nil_iff]
            intro t member
            have piece := Walk.isPiece_of_mem_ofText _ t member
            cases t with
            | problem text => cases piece
            | _ => rfl
          simpa [Token.around, Forest.loss?, Content.isOpen] using pieces
      | document | fragment => simp [Token.around, Forest.loss?, Content.isOpen, ihBelow]
      | _ => simp [Token.around, List.filterMap_cons, Token.problem?, Forest.loss?, Content.isOpen]

theorem encode_marked (s : Store) (f : Forest NodeId) : ∀ container,
    Token.encode ((s.marked container f).map (·.1)) = Token.encode (s.contents f) := by
  induction f with
  | nil => exact fun _ => rfl
  | cons i below rest ihBelow ihRest =>
      intro container
      rw [Store.marked, Forest.map, Token.encode, ihBelow, ihRest, Store.contents, Token.encode]
      congr 1
      have empty : (s.marked (some i) below).map (·.1) = .nil ↔ s.contents below = .nil := by
        cases below <;> simp [Store.marked, Forest.map, Store.contents]
      cases content : s.content i with
      | element tag space attrs =>
          have owner : s.isContainer i = true := by
            rw [Store.isContainer, content]
            rfl
          simp only [Token.around, owner, if_true, empty]
      | document | fragment =>
          have owner : s.isContainer i = true := by
            rw [Store.isContainer, content]
            rfl
          simp only [Token.around, owner, if_true]
      | _ => rfl

/-- The walk over a node finds the tokens of what is shown of it. -/
theorem tokens_eq_encode (s : Store) (root : NodeId) (f : Forest NodeId)
    (listed : s.children root = f.tops) (unfolded : s.Unfolds f) :
    tokens s root false = Token.encode (s.shown root f) := by
  rw [tokens_eq_spell s false root f listed unfolded, spell_unescaped, Store.markedShown,
    Store.shown]
  cases owner : s.isContainer root with
  | true => exact encode_marked s f (some root)
  | false => rfl

/-- The tokens of a node, whatever its kind and whoever is said to be whose parent, can be read back:
the machine never stops short and has closed all elements at the end, and what it has built is the
normal form of what is shown of the node. What cannot be told is reported, each void element that
holds something and each node of no known kind once, in the order of the walk; where nothing is
reported, nothing is lost. -/
theorem rebuild_tokens (s : Store) (root : NodeId) (acyclic : s.Acyclic root) :
    ∃ f : Forest NodeId, s.children root = f.tops ∧ s.Unfolds f ∧
      rebuild (tokens s root false) = some (s.shown root f).normalForm ∧
      (tokens s root false).filterMap Token.problem? = (s.shown root f).losses ∧
      ((∀ text, .problem text ∉ tokens s root false) →
        (s.shown root f).reached = s.shown root f) := by
  obtain ⟨f, listed, unfolded⟩ := s.exists_unfolds root acyclic
  refine ⟨f, listed, unfolded, ?_⟩
  rw [tokens_eq_encode s root f listed unfolded]
  refine ⟨rebuild_encode _, problems_encode _, ?_⟩
  intro silent
  apply Forest.reached_eq _ (s.leafy_shown root f)
  rw [← problems_encode, List.filterMap_eq_nil_iff]
  intro t member
  cases t with
  | problem text => exact absurd member (silent text)
  | _ => rfl

/-- A fragment with a repeated attribute, texts apart by a fragment, a line break that holds a text
and a node of no known kind. -/
def tangledNodes : Store where
  nodes := #[
    ⟨.fragment, none, [1, 6, 8]⟩,
    ⟨.element "p" (some htmlNamespace) [⟨"id", "1"⟩, ⟨"class", "c"⟩, ⟨"id", "2"⟩], some 0, [2, 3, 5]⟩,
    ⟨.text (some "x "), none, []⟩, ⟨.fragment, some 6, [4]⟩, ⟨.text (some "y"), some 3, []⟩,
    ⟨.text none, some 1, []⟩, ⟨.element "br" (some htmlNamespace) [], some 0, [7]⟩,
    ⟨.text (some "lost"), some 6, []⟩, ⟨.alien "x", none, []⟩]

def tangledForest : Forest NodeId :=
  .cons 1 (.cons 2 .nil (.cons 3 (.cons 4 .nil .nil) (.cons 5 .nil .nil)))
    (.cons 6 (.cons 7 .nil .nil) (.cons 8 .nil .nil))

theorem unfolds_tangledForest : tangledNodes.Unfolds tangledForest := by
  simp [tangledNodes, tangledForest, Store.Unfolds, Store.children, Store.node, Forest.tops]

theorem rebuild_tangledNodes : tangledNodes.Acyclic 0 ∧
    rebuild (tokens tangledNodes 0 false) = some (.cons
      (.element "p" (some htmlNamespace) [⟨"id", "2"⟩, ⟨"class", "c"⟩])
      (.cons (.text (some "x y")) .nil .nil)
      (.cons (.element "br" (some htmlNamespace) []) .nil .nil)) ∧
    (tokens tangledNodes 0 false).filterMap Token.problem? =
      ["Void element has children", "Unknown node type: x"] := by
  have listed : tangledNodes.children 0 = tangledForest.tops := rfl
  have whole : tangledNodes.Unfolds (.cons 0 tangledForest .nil) :=
    ⟨listed, unfolds_tangledForest, trivial⟩
  have acyclic := whole.acyclic 0 List.mem_cons_self
  obtain ⟨f, tops, unfolded, rebuilt, problems, _⟩ := rebuild_tokens tangledNodes 0 acyclic
  obtain rfl := unfolded.unique unfolds_tangledForest (tops.symm.trans listed)
  refine ⟨acyclic, rebuilt.trans ?_, problems.trans ?_⟩
  · decide
  · decide

end HtmlTree.Markup
