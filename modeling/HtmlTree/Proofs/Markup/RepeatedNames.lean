import HtmlTree.Proofs.Markup.Attributes

/-! Writing and removing an attribute of an element that may have names more than once. The call goes to
the first place of the name, and so does one reader; the dictionary and the tags have the value of the
last place. -/

namespace HtmlTree.Store

open Markup (tokens)
open Markup.Walk (Runs Visit tokensOf openingTag)

/-- What all readers of an element's attributes find for a name: the one that looks for it alone, the
dictionary of all attributes, and every walk that comes to the element, in the tag. -/
structure ReadsAs (s : Store) (i : NodeId) (name : String) (value : Option String) : Prop where
  alone : s.getAttribute i name = value
  listed : lookup name (s.attributesOf i) = value
  tagged : ∀ root escape visits last, Runs s escape (Markup.Walk.start s root) visits last →
    ∀ container found, ⟨.enter i container, found⟩ ∈ visits →
      ∃ tag space dict, found.filter Markup.Token.isMarkup = [openingTag tag space dict] ∧
        lookup name dict = value

variable {s : Store} {i : NodeId} {tag : String} {space : Option String} {attrs : List Attr}

theorem readsAs_iff (element : s.content i = .element tag space attrs) (name : String)
    (value : Option String) : s.ReadsAs i name value ↔
      Attr.value? name attrs = value ∧ Attr.value? name attrs.reverse = value := by
  have own : (s.content i).attrs = attrs := by rw [element, Content.attrs]
  have listed : lookup name (s.attributesOf i) = Attr.value? name attrs.reverse := by
    rw [attributesOf, own, Attr.lookup_toPairs]
  constructor
  · intro reads
    have alone := reads.alone
    rw [getAttribute, own] at alone
    exact ⟨alone, listed.symm.trans reads.listed⟩
  · rintro ⟨first, last⟩
    refine ⟨?_, listed.trans last, ?_⟩
    · rw [getAttribute, own, first]
    · intro root escape visits state runs container found met
      exact ⟨tag, space, _, runs.markup_of_element met element, (Attr.lookup_toPairs name attrs).trans last⟩

theorem setAttrs_eq (element : s.content i = .element tag space attrs) (others : List Attr) :
    s.setAttrs i others = s.setContent i (.element tag space others) := by
  rw [setAttrs, element]

theorem exists_walk_to_setAttrs (element : s.content i = .element tag space attrs)
    (others : List Attr) {root : NodeId} (holder : s.isContainer root = true)
    (listed : i ∈ s.children root) (acyclic : s.Acyclic root) (escape : Bool) :
    ∃ visits raw, Runs (s.setAttrs i others) escape
      (Markup.Walk.start (s.setAttrs i others) root) visits ⟨raw, []⟩ ∧
        tokens (s.setAttrs i others) root escape = tokensOf visits ∧
        ∃ found, ⟨.enter i (some root), found⟩ ∈ visits := by
  rw [setAttrs_eq element]
  have children : (s.setContent i (.element tag space others)).children = s.children := by
    funext j
    rw [children_setContent]
  refine Markup.Walk.exists_walk_to ?_ (by rw [children]; exact listed) ?_ escape
  · rw [isContainer] at holder ⊢
    rw [content_setContent]
    split
    · rfl
    · exact holder
  · rw [Acyclic, children]
    exact acyclic

/-- After an attribute was written, the reader that looks for it alone finds the value. All readers find
it just if the name was not there more than once, or the last place had that value before. After an
attribute was removed, all readers find nothing just if the name was not there more than once. Otherwise
the dictionary and the tags have what was in the last place, as if nothing had been called, and what was
removed is still found. A walk over what lists the element comes to it. -/
theorem write_read_iff (s : Store) (i : NodeId) (tag : String) (space : Option String)
    (attrs : List Attr) (element : s.content i = .element tag space attrs) (name value : String) :
    let written := s.setAttribute i name value
    let removed := s.removeAttribute i name
    written.getAttribute i name = some value ∧
    (written.ReadsAs i name (some value) ↔
      Attr.repeats name attrs ≤ 1 ∨ Attr.value? name attrs.reverse = some value) ∧
    (removed.ReadsAs i name none ↔ Attr.repeats name attrs ≤ 1) ∧
    (1 < Attr.repeats name attrs →
      lookup name (written.attributesOf i) = lookup name (s.attributesOf i) ∧
      lookup name (removed.attributesOf i) = lookup name (s.attributesOf i) ∧
      removed.getAttribute i name ≠ none) ∧
    ∀ root, s.isContainer root = true → i ∈ s.children root → s.Acyclic root →
      ∀ after ∈ [written, removed], ∀ escape,
        ∃ visits raw, Runs after escape (Markup.Walk.start after root) visits ⟨raw, []⟩ ∧
          tokens after root escape = tokensOf visits ∧
          ∃ found, ⟨.enter i (some root), found⟩ ∈ visits := by
  intro written removed
  have known := lt_size_of_element element
  have before : (s.content i).attrs = attrs := by rw [element, Content.attrs]
  have content : ∀ others, (s.setAttrs i others).content i = .element tag space others := by
    intro others
    rw [setAttrs_eq element, content_setContent, if_pos ⟨rfl, known⟩]
  have writes : written.content i = .element tag space (Attr.assign name value attrs) := by
    rw [← content, ← before]
    rfl
  have removes : removed.content i = .element tag space (Attr.drop name attrs) := by
    rw [← content, ← before]
    rfl
  have last : ∀ {t : Store} {others : List Attr}, t.content i = .element tag space others →
      lookup name (t.attributesOf i) = Attr.value? name others.reverse := by
    intro t others found
    rw [attributesOf, found, Content.attrs, Attr.lookup_toPairs]
  -- A write changes the first attribute with the name, and the dictionary reads the last one.
  refine ⟨?_, ?_, ?_, ?_, ?_⟩
  · rw [getAttribute, writes, Content.attrs, Attr.value?_assign]
  · rw [readsAs_iff writes, Attr.value?_assign, Attr.value?_reverse_assign]
    split
    · next single => exact iff_of_true ⟨rfl, rfl⟩ (Or.inl single)
    · next several => exact ⟨fun both => Or.inr both.2, fun either => ⟨rfl, either.resolve_left several⟩⟩
  · rw [readsAs_iff removes, Attr.value?_drop_eq_none_iff, Attr.value?_reverse_drop]
    exact ⟨fun both => both.1, fun single => ⟨single, if_pos single⟩⟩
  · intro several
    have many : ¬ Attr.repeats name attrs ≤ 1 := Nat.not_le_of_lt several
    refine ⟨?_, ?_, ?_⟩
    · rw [last writes, last element, Attr.value?_reverse_assign, if_neg many]
    · rw [last removes, last element, Attr.value?_reverse_drop, if_neg many]
    · rw [getAttribute, removes, Content.attrs, Ne, Attr.value?_drop_eq_none_iff]
      exact many
  · intro root holder listed acyclic after either escape
    have attributed : ∃ others, after = s.setAttrs i others := by
      rcases List.mem_cons.mp either with rfl | either
      · exact ⟨_, rfl⟩
      · rw [List.mem_singleton.mp either]
        exact ⟨_, rfl⟩
    obtain ⟨others, rfl⟩ := attributed
    exact exists_walk_to_setAttrs element others holder listed acyclic escape

def twiceNamed : Store where
  nodes := #[
    ⟨.fragment, none, [1]⟩,
    ⟨.element "div" (some htmlNamespace) [⟨"id", "first"⟩, ⟨"class", "c"⟩, ⟨"id", "second"⟩], some 0, []⟩]

theorem write_read_twiceNamed :
    twiceNamed.content 1 = .element "div" (some htmlNamespace)
      [⟨"id", "first"⟩, ⟨"class", "c"⟩, ⟨"id", "second"⟩] ∧
    (twiceNamed.setAttribute 1 "id" "second").ReadsAs 1 "id" (some "second") ∧
    (twiceNamed.setAttribute 1 "class" "d").ReadsAs 1 "class" (some "d") ∧
    (twiceNamed.removeAttribute 1 "class").ReadsAs 1 "class" none ∧
    twiceNamed.isContainer 0 = true ∧ twiceNamed.children 0 = [1] ∧ twiceNamed.Acyclic 0 ∧
    ∃ visits raw, Runs (twiceNamed.setAttribute 1 "class" "d") true
      (Markup.Walk.start (twiceNamed.setAttribute 1 "class" "d") 0) visits ⟨raw, []⟩ ∧
        tokens (twiceNamed.setAttribute 1 "class" "d") 0 true = tokensOf visits ∧
        ∃ found, ⟨.enter 1 (some 0), found⟩ ∈ visits := by
  have whole : twiceNamed.Unfolds (.cons 0 (.cons 1 .nil .nil) .nil) := by
    simp [twiceNamed, Unfolds, children, node, Forest.tops]
  have acyclic := whole.acyclic 0 List.mem_cons_self
  have seen := write_read_iff twiceNamed 1 "div" (some htmlNamespace)
    [⟨"id", "first"⟩, ⟨"class", "c"⟩, ⟨"id", "second"⟩] rfl
  obtain ⟨_, again, _⟩ := seen "id" "second"
  obtain ⟨_, written, removed, _, walked⟩ := seen "class" "d"
  exact ⟨rfl, again.mpr (Or.inr (by decide)), written.mpr (Or.inl (by decide)),
    removed.mpr (by decide), rfl, rfl, acyclic,
    walked 0 rfl List.mem_cons_self acyclic _ List.mem_cons_self true⟩

/-- A value that is written to the first of two places is not seen by all readers, and a name that is
removed from there is still found by all. -/
theorem write_unread_twiceNamed :
    (twiceNamed.setAttribute 1 "id" "third").getAttribute 1 "id" = some "third" ∧
    lookup "id" ((twiceNamed.setAttribute 1 "id" "third").attributesOf 1) = some "second" ∧
    ¬ (twiceNamed.setAttribute 1 "id" "third").ReadsAs 1 "id" (some "third") ∧
    (twiceNamed.removeAttribute 1 "id").ReadsAs 1 "id" (some "second") := by
  have listed : lookup "id" ((twiceNamed.setAttribute 1 "id" "third").attributesOf 1) =
      some "second" := by decide
  refine ⟨rfl, listed, fun reads => ?_, (readsAs_iff rfl "id" (some "second")).mpr ⟨rfl, rfl⟩⟩
  have other := reads.listed
  rw [listed] at other
  exact absurd other (by decide)

end HtmlTree.Store
