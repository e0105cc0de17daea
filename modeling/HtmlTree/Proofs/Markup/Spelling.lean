import HtmlTree.Proofs.Markup.NormalForm
import HtmlTree.Proofs.Markup.Walk

/-! The tokens of trees by recursion over them. The walk finds just these: beside the contents of the
nodes it looks only at which texts belong to the raw text element that lists them. It takes the nodes up
in preorder. -/

namespace HtmlTree

open Markup (isLinkedRawText isVoidElement Token)
open Markup.Walk (Runs Visit Task State rawAfter tokensOf entered)

namespace Content

def isRawText : Content → Bool
  | element tag _ _ => Tag.isRawText tag
  | _ => false

theorem isRawText_of_isHolder {c : Content} (holder : c.isHolder = true) : c.isRawText = false := by
  cases c with
  | element tag space attrs => cases holder
  | _ => rfl

/-- A text as it is written where markup is read. -/
def shielded : Content → Content
  | text value => text (some (Markup.escapeString (value.getD "")))
  | c => c

end Content

namespace Store

/-- Whether a node is a text that belongs to the raw text element listing it. -/
def isKeptRaw (s : Store) (container : Option NodeId) (i : NodeId) : Bool :=
  s.isText i && isLinkedRawText s i container

theorem isKeptRaw_eq (s : Store) (p i : NodeId) : s.isKeptRaw (some p) i =
    (s.isText i && ((s.content p).isRawText && s.parent i == some p)) := by
  rw [isKeptRaw, isLinkedRawText]
  cases s.content p <;> rfl

/-- The contents of trees, and which texts belong to the raw text elements listing them. -/
def marked (s : Store) : Option NodeId → Forest NodeId → Forest (Content × Bool)
  | _, .nil => .nil
  | container, .cons i below rest =>
    .cons (s.content i, s.isKeptRaw container i) (s.marked (some i) below) (s.marked container rest)

/-- What is written of a node, with the same marks. -/
def markedShown (s : Store) (root : NodeId) (f : Forest NodeId) : Forest (Content × Bool) :=
  if s.isContainer root then s.marked (some root) f else .cons (s.content root, false) .nil .nil

def trimmed (s : Store) : Forest NodeId → Forest NodeId
  | .nil => .nil
  | .cons i below rest =>
    .cons i (if (s.content i).isOpen then s.trimmed below else .nil) (s.trimmed rest)

end Store

namespace Markup

namespace Token

def around (c : Content) (below : Forest Content) (inside : List Token) : List Token :=
  match c with
  | .element tag space attrs =>
    if isVoidElement tag space then
      .emptyTag tag space (Attr.toPairs attrs) ::
        (if below = .nil then [] else [.problem "Void element has children"])
    else .startTag tag space (Attr.toPairs attrs) :: (inside ++ [.endTag tag space])
  | .text value => ofText (value.getD "")
  | .comment data => [.comment data]
  | .doctype name publicId systemId =>
    [.doctype name (Walk.optional publicId) (Walk.optional systemId)]
  | .document | .fragment => inside
  | .alien name => [.problem ("Unknown node type: " ++ name)]

theorem around_holder {c : Content} (holder : c.isHolder = true) (below : Forest Content)
    (inside : List Token) : around c below inside = inside := by
  cases c with
  | document => rfl
  | fragment => rfl
  | _ => cases holder

def encode : Forest Content → List Token
  | .nil => []
  | .cons c below rest => around c below (encode below) ++ encode rest

def told (escape raw : Bool) (c : Content × Bool) : Content :=
  if raw && escape && !c.2 then c.1.shielded else c.1

/-- The tokens of trees, found with raw text open or not. -/
def spell (escape : Bool) : Bool → Forest (Content × Bool) → List Token
  | _, .nil => []
  | raw, .cons c below rest =>
    let first := around (told escape raw c) (below.map (·.1)) (spell escape (raw || c.1.isRawText) below)
    first ++ spell escape (rawAfter raw first) rest

def spellNode (escape raw : Bool) (c : Content × Bool) (below : Forest (Content × Bool)) :
    List Token :=
  around (told escape raw c) (below.map (·.1)) (spell escape (raw || c.1.isRawText) below)

theorem spell_cons (escape raw : Bool) (c : Content × Bool) (below rest : Forest (Content × Bool)) :
    spell escape raw (.cons c below rest) = spellNode escape raw c below ++
      spell escape (rawAfter raw (spellNode escape raw c below)) rest := rfl

theorem spell_append (escape : Bool) (f g : Forest (Content × Bool)) : ∀ raw,
    spell escape raw (f.append g) =
      spell escape raw f ++ spell escape (rawAfter raw (spell escape raw f)) g := by
  induction f with
  | nil => exact fun _ => rfl
  | cons c below rest _ ih =>
      intro raw
      rw [Forest.append, spell_cons, spell_cons, ih, Walk.rawAfter_append, List.append_assoc]

theorem told_of_isOpen (escape raw : Bool) {c : Content × Bool} (opened : c.1.isOpen = true) :
    told escape raw c = c.1 := by
  obtain ⟨c, linked⟩ := c
  rw [told]
  cases c with
  | text value => cases opened
  | _ => exact ite_self _

theorem spellNode_holder (escape raw : Bool) {c : Content × Bool} (holder : c.1.isHolder = true)
    (below : Forest (Content × Bool)) : spellNode escape raw c below = spell escape raw below := by
  obtain ⟨c, linked⟩ := c
  have shown : told escape raw (c, linked) = c := by
    apply told_of_isOpen
    cases c <;> first | rfl | cases holder
  rw [spellNode, shown, around_holder holder, Content.isRawText_of_isHolder holder, Bool.or_false]

theorem spellNode_element (escape raw : Bool) {c : Content × Bool} {tag : String}
    {space : Option String} {attrs : List Attr} (content : c.1 = .element tag space attrs)
    (plain : isVoidElement tag space = false) (below : Forest (Content × Bool)) :
    spellNode escape raw c below = .startTag tag space (Attr.toPairs attrs) ::
      (spell escape (raw || Tag.isRawText tag) below ++ [Token.endTag tag space]) := by
  have opened : c.1.isOpen = true := by
    rw [content, Content.isOpen, plain]
    rfl
  rw [spellNode, told_of_isOpen escape raw opened, content, around, plain,
    if_neg Bool.false_ne_true]
  rfl

end Token

open Token (around told spell spellNode)
open Walk (Runs Visit Task State rawAfter tokensOf entered enter tasks)

/-- Where nothing is escaped, the marks and the flag for raw text make no difference. -/
theorem spell_unescaped (f : Forest (Content × Bool)) :
    ∀ raw, Token.spell false raw f = Token.encode (f.map (·.1)) := by
  induction f with
  | nil => exact fun _ => rfl
  | cons c below rest ihBelow ihRest =>
      intro raw
      rw [Token.spell_cons, ihRest, Token.spellNode, ihBelow, Token.told, Bool.and_false,
        Bool.false_and, if_neg Bool.false_ne_true]
      rfl

section Walking

variable {s : Store} {escape raw : Bool} {i : NodeId} {container : Option NodeId}
  {pending : List Task} {below : Forest NodeId}

theorem step_past (listed : s.children i = below.tops) (closed : (s.content i).isOpen = false) :
    Walk.step s escape ⟨raw, .enter i container :: pending⟩ =
      some (spellNode escape raw (s.content i, s.isKeptRaw container i) (s.marked (some i) below),
        ⟨raw, pending⟩) := by
  rw [spellNode]
  cases content : s.content i with
  | element tag space attrs =>
      have void : isVoidElement tag space = true := by
        simpa [Content.isOpen, content] using closed
      have empty : (s.marked (some i) below).map (·.1) = .nil ↔ below.tops = [] := by
        cases below <;> simp [Store.marked, Forest.map, Forest.tops]
      simp [Walk.step, enter, content, void, told, Content.shielded, around, listed, empty]
  | text value =>
      have kept : s.isKeptRaw container i = isLinkedRawText s i container := by
        simp [Store.isKeptRaw, Store.isText, content, Content.isText]
      simp only [Walk.step, enter, content, Walk.textTokens, kept, told]
      split <;> rfl
  | document => simp [content, Content.isOpen] at closed
  | fragment => simp [content, Content.isOpen] at closed
  | _ => simp [Walk.step, enter, content, told, Content.shielded, around]

theorem step_element {tag : String} {space : Option String} {attrs : List Attr}
    (listed : s.children i = below.tops) (content : s.content i = .element tag space attrs)
    (plain : isVoidElement tag space = false) :
    Walk.step s escape ⟨raw, .enter i container :: pending⟩ =
      some ([.startTag tag space (Attr.toPairs attrs)], ⟨raw || Tag.isRawText tag,
        (below.tops.map fun c => Task.enter c (some i)) ++ .leave tag space :: pending⟩) := by
  simp [Walk.step, enter, content, plain, tasks, listed]

theorem step_holder (listed : s.children i = below.tops) (holder : (s.content i).isHolder = true) :
    Walk.step s escape ⟨raw, .enter i container :: pending⟩ =
      some ([], ⟨raw, (below.tops.map fun c => Task.enter c (some i)) ++ pending⟩) := by
  cases content : s.content i with
  | document => simp [Walk.step, enter, content, tasks, listed]
  | fragment => simp [Walk.step, enter, content, tasks, listed]
  | _ => simp [content, Content.isHolder] at holder

/-- Over the tasks the walk finds the tokens and takes the nodes up, in so many rounds at most,
whatever waits behind them. -/
def Covers (s : Store) (escape raw : Bool) (todo : List Task) (found : List Token)
    (nodes : List NodeId) (rounds : Nat) : Prop :=
  ∀ pending, ∃ visits,
    Runs s escape ⟨raw, todo ++ pending⟩ visits ⟨rawAfter raw found, pending⟩ ∧
      tokensOf visits = found ∧ entered visits = nodes ∧ visits.length ≤ rounds

variable {todo others : List Task} {found more : List Token} {nodes beside : List NodeId}
  {rounds further : Nat}

theorem covers_nil (s : Store) (escape raw : Bool) : Covers s escape raw [] [] [] 0 :=
  fun _ => ⟨[], Runs.rest _, rfl, rfl, Nat.le_refl 0⟩

theorem Covers.append (first : Covers s escape raw todo found nodes rounds)
    (later : Covers s escape (rawAfter raw found) others more beside further) :
    Covers s escape raw (todo ++ others) (found ++ more) (nodes ++ beside) (rounds + further) := by
  intro pending
  obtain ⟨here, runs, tokens, taken, short⟩ := first (others ++ pending)
  obtain ⟨there, onwards, tokens', taken', short'⟩ := later pending
  refine ⟨here ++ there, ?_, ?_, ?_, ?_⟩
  · rw [List.append_assoc, Walk.rawAfter_append]
    exact runs.append onwards
  · rw [Walk.tokensOf_append, tokens, tokens']
  · rw [Walk.entered_append, taken, taken']
  · rw [List.length_append]
    exact Nat.add_le_add short short'

theorem Covers.le (covers : Covers s escape raw todo found nodes rounds) (more : rounds ≤ further) :
    Covers s escape raw todo found nodes further := by
  intro pending
  obtain ⟨visits, runs, tokens, taken, short⟩ := covers pending
  exact ⟨visits, runs, tokens, taken, short.trans more⟩

theorem Covers.round {task : Task} {next : Bool}
    (moved : ∀ pending, Walk.step s escape ⟨raw, task :: pending⟩ =
      some (found, ⟨next, todo ++ pending⟩))
    (onward : Covers s escape next todo more nodes rounds) :
    Covers s escape raw [task] (found ++ more) (entered [⟨task, found⟩] ++ nodes) (rounds + 1) := by
  intro pending
  have flag : next = rawAfter raw found := Walk.step_rawText s escape _ _ _ (moved pending)
  obtain ⟨visits, runs, tokens, taken, short⟩ := onward pending
  refine ⟨⟨task, found⟩ :: visits, ?_, ?_, ?_, Nat.succ_le_succ short⟩
  · rw [Walk.rawAfter_append, ← flag]
    exact Runs.round (moved pending) runs
  · rw [Walk.tokensOf_cons, tokens]
  · rw [← List.singleton_append, Walk.entered_append, taken]

theorem Covers.past (listed : s.children i = below.tops) (closed : (s.content i).isOpen = false) :
    Covers s escape raw [.enter i container]
      (spellNode escape raw (s.content i, s.isKeptRaw container i) (s.marked (some i) below)) [i] 1 := by
  rw [← List.append_nil (spellNode ..)]
  exact Covers.round (fun _ => step_past listed closed) (covers_nil s escape raw)

theorem covers_leave (s : Store) (escape raw : Bool) (tag : String) (space : Option String) :
    Covers s escape raw [.leave tag space] [.endTag tag space] [] 1 := by
  have moved : ∀ pending, Walk.step s escape ⟨raw, .leave tag space :: pending⟩ =
      some ([.endTag tag space], ⟨raw && !Tag.isRawText tag, [] ++ pending⟩) := fun _ => rfl
  exact Covers.round moved (covers_nil s escape _)

theorem Covers.holder (listed : s.children i = below.tops) (holder : (s.content i).isHolder = true)
    (inside : Covers s escape raw (below.tops.map fun c => Task.enter c (some i)) found nodes rounds) :
    Covers s escape raw [.enter i container] found (i :: nodes) (rounds + 1) :=
  Covers.round (fun _ => step_holder listed holder) inside

theorem Covers.element {tag : String} {space : Option String} {attrs : List Attr}
    (listed : s.children i = below.tops) (content : s.content i = .element tag space attrs)
    (plain : isVoidElement tag space = false)
    (inside : Covers s escape (raw || Tag.isRawText tag)
      (below.tops.map fun c => Task.enter c (some i)) found nodes rounds) :
    Covers s escape raw [.enter i container]
      (.startTag tag space (Attr.toPairs attrs) :: (found ++ [.endTag tag space])) (i :: nodes)
      (rounds + 2) := by
  have through := inside.append (covers_leave s escape (rawAfter (raw || Tag.isRawText tag) found) tag
    space)
  rw [List.append_nil] at through
  have moved : ∀ pending, Walk.step s escape ⟨raw, .enter i container :: pending⟩ =
      some ([.startTag tag space (Attr.toPairs attrs)], ⟨raw || Tag.isRawText tag,
        ((below.tops.map fun c => Task.enter c (some i)) ++ [.leave tag space]) ++ pending⟩) := by
    intro pending
    rw [step_element listed content plain, List.append_assoc]
    rfl
  exact Covers.round moved through

end Walking

/-- The walk over trees finds their tokens, and takes the nodes up that it can reach. -/
theorem covers_spell (s : Store) (escape : Bool) (f : Forest NodeId) (unfolded : s.Unfolds f) :
    ∀ (container : Option NodeId) (raw : Bool),
      Covers s escape raw (f.tops.map fun c => Task.enter c container)
        (spell escape raw (s.marked container f)) (s.trimmed f).labels (2 * f.labels.length) := by
  induction f with
  | nil => exact fun _ raw => covers_nil s escape raw
  | cons i below rest ihBelow ihRest =>
      intro container raw
      obtain ⟨listed, deeper, beside⟩ := unfolded
      -- The node and all below it is one part of the walk, and the rest is the other.
      have here : Covers s escape raw [.enter i container]
          (spellNode escape raw (s.content i, s.isKeptRaw container i) (s.marked (some i) below))
          (i :: (if (s.content i).isOpen then s.trimmed below else Forest.nil).labels)
          (2 * below.labels.length + 2) := by
        cases opened : (s.content i).isOpen with
        | false => exact (Covers.past listed opened).le (by omega)
        | true =>
            rcases Content.isHolder_or_element opened with
              holder | ⟨tag, space, attrs, content, plain⟩
            · rw [Token.spellNode_holder escape raw holder]
              exact (Covers.holder listed holder (ihBelow deeper (some i) raw)).le (by omega)
            · rw [Token.spellNode_element escape raw content plain]
              exact Covers.element listed content plain (ihBelow deeper (some i) _)
      rw [Store.marked, Token.spell_cons, Store.trimmed, Forest.labels, Forest.labels]
      apply (here.append (ihRest beside container _)).le
      rw [List.length_cons, List.length_append]
      omega

/-- The walk over a node comes to its end. It has then found the tokens of what is written of the
node, and has taken up what it can reach below a container, or the leaf. -/
theorem exists_walk_spell (s : Store) (escape : Bool) (root : NodeId) (f : Forest NodeId)
    (listed : s.children root = f.tops) (unfolded : s.Unfolds f) : ∃ visits after,
      Runs s escape (Walk.start s root) visits ⟨after, []⟩ ∧
      tokensOf visits = spell escape false (s.markedShown root f) ∧
      entered visits = (if s.isContainer root then (s.trimmed f).labels else [root]) ∧
      visits.length ≤ 2 * s.reach root := by
  have reach := unfolded.reach_eq root listed
  cases owner : s.isContainer root with
  | true =>
      obtain ⟨visits, runs, found, nodes, short⟩ :=
        covers_spell s escape f unfolded (some root) false []
      have started : Walk.start s root =
          ⟨false, (f.tops.map fun c => Task.enter c (some root)) ++ []⟩ := by
        simp [Walk.start, owner, tasks, listed]
      rw [started, Store.markedShown, if_pos owner]
      exact ⟨visits, _, runs, found, nodes, by omega⟩
  | false =>
      have whole : s.Unfolds (.cons root f .nil) := ⟨listed, unfolded, trivial⟩
      obtain ⟨visits, runs, found, nodes, short⟩ := covers_spell s escape _ whole none false []
      have started : Walk.start s root =
          ⟨false, ((Forest.cons root f .nil).tops.map fun c => Task.enter c none) ++ []⟩ := by
        simp [Walk.start, owner, Forest.tops]
      have counted : (Forest.cons root f .nil).labels.length = 1 + f.labels.length := by
        simp [Forest.labels]
        omega
      have leaf : ∀ inner more, around (s.content root) inner more = around (s.content root) .nil [] := by
        intro inner more
        cases content : s.content root <;>
          simp [Store.isContainer, content, Content.isContainer] at owner <;> rfl
      have closed : (s.content root).isOpen = false := by
        cases content : s.content root <;>
          simp [Store.isContainer, content, Content.isContainer] at owner <;> rfl
      have unlinked : s.isKeptRaw none root = false := by
        rw [Store.isKeptRaw, isLinkedRawText, Bool.and_false]
      rw [started]
      refine ⟨visits, _, runs, ?_, ?_, by omega⟩
      · rw [found, Store.markedShown, owner]
        simp only [Store.marked, unlinked, spell, told, Bool.false_and, Bool.false_eq_true, if_false,
          leaf ((s.marked (some root) f).map _), Forest.map]
      · rw [nodes, Store.trimmed, closed]
        rfl

theorem tokens_eq_spell (s : Store) (escape : Bool) (root : NodeId) (f : Forest NodeId)
    (listed : s.children root = f.tops) (unfolded : s.Unfolds f) :
    tokens s root escape = spell escape false (s.markedShown root f) := by
  obtain ⟨visits, _, runs, found, _, short⟩ := exists_walk_spell s escape root f listed unfolded
  rw [tokens, runs.run_eq rfl _ (by omega), found]

end Markup

end HtmlTree
