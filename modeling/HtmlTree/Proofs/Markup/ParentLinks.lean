import HtmlTree.Proofs.Dom.Outline
import HtmlTree.Proofs.Markup.Pieces
import HtmlTree.Proofs.Markup.Spelling

/-! What parents have to do with the output. Trees that are found equal are written the same, whatever
their nodes say of their parents, unless text may be written raw; and then only the links of texts to
the raw text elements that list them count. -/

namespace HtmlTree.Store

open Markup (Style Token isLinkedRawText renderBy serializeBy_of_accepted spell_unescaped tokens
  tokens_eq_spell)
open Markup.Walk (IsRawText)

/-- Two nodes in the same place of two trees: the roots, or what is listed side by side by nodes in the
same place. -/
inductive SamePlace (s t : Store) (a b : NodeId) : NodeId → NodeId → Prop
  | root : SamePlace s t a b a b
  | child {p q i j : NodeId} (above : SamePlace s t a b p q)
      (listed : (i, j) ∈ (s.children p).zip (t.children q)) : SamePlace s t a b i j

/-- Texts in the same place that raw text elements list are linked to these in both trees or in
neither. -/
def SameLinks (s t : Store) (a b : NodeId) : Prop :=
  ∀ p q, SamePlace s t a b p q → IsRawText s p →
    ∀ i j, (i, j) ∈ (s.children p).zip (t.children q) → s.isText i = true →
      (s.parent i = some p ↔ t.parent j = some q)

theorem isKeptRaw_iff (s : Store) (p i : NodeId) :
    s.isKeptRaw (some p) i = true ↔ s.isText i = true ∧ IsRawText s p ∧ s.parent i = some p := by
  rw [isKeptRaw, Bool.and_eq_true, Markup.Walk.isLinkedRawText_iff]
  simp only [Option.some.injEq, exists_eq_left']

theorem SameLinks.isKeptRaw_eq {s t : Store} {a b p q i j : NodeId} (same : SameLinks s t a b)
    (place : SamePlace s t a b p q) (lister : s.content p = t.content q)
    (content : s.content i = t.content j) (listed : (i, j) ∈ (s.children p).zip (t.children q)) :
    s.isKeptRaw (some p) i = t.isKeptRaw (some q) j := by
  have text : s.isText i = t.isText j := by
    rw [isText, isText, content]
  have raw : IsRawText s p ↔ IsRawText t q := by
    rw [IsRawText, IsRawText, lister]
  rw [Bool.eq_iff_iff, isKeptRaw_iff, isKeptRaw_iff, ← text, ← raw]
  constructor
  · rintro ⟨isText, isRaw, linked⟩
    exact ⟨isText, isRaw, (same p q place isRaw i j listed isText).mp linked⟩
  · rintro ⟨isText, isRaw, linked⟩
    exact ⟨isText, isRaw, (same p q place isRaw i j listed isText).mpr linked⟩

/-- The marks of equal trees agree where the links do. -/
theorem SameLinks.marked_eq {s t : Store} {a b : NodeId} (same : SameLinks s t a b)
    {f : Forest NodeId} (left : s.Unfolds f) :
    ∀ {g : Forest NodeId} {p q : NodeId}, t.Unfolds g → SamePlace s t a b p q →
      s.content p = t.content q → f.map s.content = g.map t.content →
      (∀ pair ∈ f.tops.zip g.tops, pair ∈ (s.children p).zip (t.children q)) →
      s.marked (some p) f = t.marked (some q) g := by
  induction f with
  | nil =>
      intro g p q _ _ _ contents _
      cases g with
      | nil => rfl
      | cons j below rest => cases contents
  | cons i below rest ihBelow ihRest =>
      intro g p q right place lister contents listed
      obtain ⟨j, below', rest', rfl, content, inside, beside⟩ := Forest.map_eq_cons contents.symm
      rw [Forest.tops, Forest.tops, List.zip_cons_cons, List.forall_mem_cons] at listed
      have here : SamePlace s t a b i j := place.child listed.1
      have deeper : s.marked (some i) below = t.marked (some j) below' := by
        apply ihBelow left.2.1 right.2.1 here content.symm inside.symm
        intro pair member
        rwa [left.1, right.1]
      rw [marked, marked, content.symm, same.isKeptRaw_eq place lister content.symm listed.1, deeper,
        ihRest left.2.2 right.2.2 place lister beside.symm listed.2]

theorem marked_fst (s : Store) (f : Forest NodeId) : ∀ container,
    (s.marked container f).map (·.1) = f.map s.content := by
  induction f with
  | nil => exact fun _ => rfl
  | cons i below rest ihBelow ihRest =>
      intro container
      rw [marked, Forest.map, ihBelow, ihRest, Forest.map]

/-- Nodes with the same kind and data and the same contents below them have the same tokens, if
nothing is escaped or the links agree. -/
theorem tokens_eq_of_map_eq {s t : Store} {a b : NodeId} {f g : Forest NodeId}
    (left : s.Unfolds f) (right : t.Unfolds g) (tops : s.children a = f.tops)
    (tops' : t.children b = g.tops) (content : s.content a = t.content b)
    (contents : f.map s.content = g.map t.content) (escape : Bool)
    (linked : escape = true → SameLinks s t a b) : tokens s a escape = tokens t b escape := by
  have owner : s.isContainer a = t.isContainer b := by
    rw [isContainer, isContainer, content]
  rw [tokens_eq_spell s escape a f tops left, tokens_eq_spell t escape b g tops' right, markedShown,
    markedShown, owner]
  cases escape with
  | false =>
      rw [spell_unescaped, spell_unescaped]
      split
      · rw [s.marked_fst, t.marked_fst, contents]
      · rw [content]
  | true =>
      have marks : s.marked (some a) f = t.marked (some b) g := by
        apply (linked rfl).marked_eq left right SamePlace.root content contents
        rw [tops, tops']
        exact fun pair member => member
      rw [marks, content]

/-- Equal trees give the same tokens and the same output, the problems reported or the failure
included, under all settings, wherever their nodes are said to belong and whatever a sanitizer makes of
the tokens. Only if raw text is left unescaped do links count: those of texts to the raw text elements
that list them. The second store has the nodes of the first with other parents, as it may be. -/
theorem serialize_eq_of_isEqualNode (sanitizer : List Token → List Token) (c : Settings) (s t : Store)
    (a b : NodeId)
    (reparented : ∀ i, t.content i = s.content i ∧ t.children i = s.children i)
    (left : s.Acyclic a) (right : s.Acyclic b) (equal : s.isEqualNode a b = true)
    (linked : ∀ st, Style.ofSettings c = .ok st → st.escapeRaw = false → SameLinks s t a b) :
    (∀ st, Style.ofSettings c = .ok st →
      tokens s a (!st.escapeRaw) = tokens t b (!st.escapeRaw)) ∧
    serializeBy sanitizer c s a = serializeBy sanitizer c t b := by
  obtain ⟨f, tops, unfolded⟩ := s.exists_unfolds a left
  obtain ⟨g, tops', unfolded'⟩ := s.exists_unfolds b right
  obtain ⟨content, contents⟩ := (isEqualNode_iff_map_eq unfolded unfolded' tops tops').mp equal
  have moved : t.Unfolds g := unfolded'.congr fun i _ => (reparented i).2
  have same : ∀ st, Style.ofSettings c = .ok st →
      tokens s a (!st.escapeRaw) = tokens t b (!st.escapeRaw) := by
    intro st accepted
    apply tokens_eq_of_map_eq unfolded moved tops
    · rw [(reparented b).2, tops']
    · rw [(reparented b).1, content]
    · rw [contents]
      exact Forest.map_congr fun i _ => (reparented i).1.symm
    · intro escapes
      exact linked st accepted (by simpa using escapes)
  refine ⟨same, ?_⟩
  cases accepted : Style.ofSettings c with
  | error failure =>
      rw [serializeBy, serializeBy, accepted]
      rfl
  | ok st =>
      rw [serializeBy_of_accepted accepted, serializeBy_of_accepted accepted, renderBy, renderBy,
        same st accepted]

def sharedStyles : Store :=
  ⟨#[⟨.fragment, none, [1]⟩, ⟨.element "style" none [], some 0, [2, 3]⟩,
    ⟨.text (some "a<b"), some 1, []⟩, ⟨.text (some "c<d"), none, []⟩,
    ⟨.fragment, none, [5]⟩, ⟨.element "style" none [], some 4, [6, 3]⟩,
    ⟨.text (some "a<b"), some 5, []⟩]⟩

def movedStyles (p : NodeId) : Store :=
  ⟨#[⟨.fragment, some 6, [1]⟩, ⟨.element "style" none [], none, [2, 3]⟩,
    ⟨.text (some "a<b"), none, []⟩, ⟨.text (some "c<d"), some p, []⟩,
    ⟨.fragment, some 1, [5]⟩, ⟨.element "style" none [], some 0, [6, 3]⟩,
    ⟨.text (some "a<b"), some 5, []⟩]⟩

theorem movedStyles_reparented (p : NodeId) : ∀ i,
    (movedStyles p).content i = sharedStyles.content i ∧
      (movedStyles p).children i = sharedStyles.children i
  | 0 | 1 | 2 | 3 | 4 | 5 | 6 | _ + 7 => ⟨rfl, rfl⟩

theorem sharedStyles_acyclic : sharedStyles.Acyclic 0 ∧ sharedStyles.Acyclic 4 := by
  have first : sharedStyles.Unfolds (.cons 0 (.cons 1 (.cons 2 .nil (.cons 3 .nil .nil)) .nil) .nil) :=
    ⟨rfl, ⟨rfl, ⟨rfl, trivial, rfl, trivial, trivial⟩, trivial⟩, trivial⟩
  have second : sharedStyles.Unfolds (.cons 4 (.cons 5 (.cons 6 .nil (.cons 3 .nil .nil)) .nil) .nil) :=
    ⟨rfl, ⟨rfl, ⟨rfl, trivial, rfl, trivial, trivial⟩, trivial⟩, trivial⟩
  exact ⟨first.acyclic 0 List.mem_cons_self, second.acyclic 4 List.mem_cons_self⟩

theorem sameLinks_styles : SameLinks sharedStyles (movedStyles 4) 0 4 := by
  have places : ∀ p q, SamePlace sharedStyles (movedStyles 4) 0 4 p q →
      (p, q) ∈ [(0, 4), (1, 5), (2, 6), (3, 3)] := by
    intro p q place
    induction place with
    | root => decide
    | child above listed ih =>
        simp only [List.mem_cons, Prod.mk.injEq, List.not_mem_nil, or_false] at ih
        rcases ih with ⟨rfl, rfl⟩ | ⟨rfl, rfl⟩ | ⟨rfl, rfl⟩ | ⟨rfl, rfl⟩ <;>
          simp [sharedStyles, movedStyles, children, node] at listed
        · simp [listed]
        · rcases listed with listed | listed <;> simp [listed]
  intro p q place raw i j listed text
  obtain ⟨tag, space, attrs, content, _⟩ := raw
  have member := places p q place
  simp only [List.mem_cons, Prod.mk.injEq, List.not_mem_nil, or_false] at member
  rcases member with ⟨rfl, rfl⟩ | ⟨rfl, rfl⟩ | ⟨rfl, rfl⟩ | ⟨rfl, rfl⟩
  · cases content
  · simp [sharedStyles, movedStyles, children, node] at listed
    rcases listed with ⟨rfl, rfl⟩ | ⟨rfl, rfl⟩ <;> decide
  · cases content
  · cases content

/-- A sanitizer that does not allow style elements and makes their tags text. -/
def styleTagsAsText : List Token → List Token :=
  List.map fun
    | .startTag "style" _ _ => .characters "<style>"
    | .endTag "style" _ => .characters "</style>"
    | t => t

/-- With links that agree the output is the same; with the shared text linked in one tree only, it is
the same where raw text is escaped, and not otherwise. -/
theorem serialize_styles :
    sharedStyles.isEqualNode 0 4 = true ∧ SameLinks sharedStyles (movedStyles 4) 0 4 ∧
      serialize .standard sharedStyles 0 = serialize .standard (movedStyles 4) 4 ∧
      stringify .standard sharedStyles 0 = .ok "<style>a<bc&lt;d</style>" ∧
      stringify .standard (movedStyles 5) 4 = .ok "<style>a<bc<d</style>" ∧
      serialize (Settings.standard.set "serializer.escape_rcdata" (.bool true)) sharedStyles 0 =
        serialize (Settings.standard.set "serializer.escape_rcdata" (.bool true)) (movedStyles 5) 4 ∧
      serializeBy styleTagsAsText (Settings.standard.set "serializer.sanitize" (.bool true))
          sharedStyles 0 =
        .ok ⟨"&lt;style&gt;a&lt;bc&amp;lt;d&lt;/style&gt;".toList, []⟩ ∧
      serializeBy styleTagsAsText (Settings.standard.set "serializer.sanitize" (.bool true))
          sharedStyles 0 =
        serializeBy styleTagsAsText (Settings.standard.set "serializer.sanitize" (.bool true))
          (movedStyles 4) 4 := by
  obtain ⟨first, second⟩ := sharedStyles_acyclic
  have equal : sharedStyles.isEqualNode 0 4 = true := by decide
  have moved := fun sanitizer c => (serialize_eq_of_isEqualNode sanitizer c _ _ 0 4
    (movedStyles_reparented 4) first second equal fun _ _ _ => sameLinks_styles).2
  refine ⟨equal, sameLinks_styles, moved id _, rfl, rfl, ?_, rfl, moved styleTagsAsText _⟩
  refine (serialize_eq_of_isEqualNode id _ _ _ 0 4 (movedStyles_reparented 5) first second equal ?_).2
  intro st accepted keeps
  cases accepted
  cases keeps

end HtmlTree.Store
