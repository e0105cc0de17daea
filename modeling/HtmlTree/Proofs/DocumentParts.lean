import HtmlTree.Dom.Compare
import HtmlTree.Proofs.RoundTrip
import HtmlTree.Proofs.Html.Mentions

/-! What every document has that a text is parsed into: a root element with a head in it, and with a
body unless framesets are spoken of. Foreign content aside, every text is parsed into one. -/

namespace HtmlTree

open Html

namespace Html

namespace Parsed

def tag? : Parsed → Option String
  | element tag _ _ _ => some tag
  | _ => none

def elements (ts : List Parsed) : List (String × Forest Content) :=
  ts.filterMap fun t => t.tag?.map fun tag => (tag, forest "" t.children)

end Parsed

/-- The trees of a document with its parts. The body may be lost to a frameset. -/
structure Parted (lost : Prop) (ts : List Parsed) : Prop where
  rooted : ∃ t ∈ ts, t.tag? = some "html"
  root : ∀ t ∈ ts, ∀ tag, t.tag? = some tag → tag = "html"
  head : ∀ t ∈ ts, t.tag? = some "html" → ∃ c ∈ t.children, c.tag? = some "head"
  body : lost ∨ ∀ t ∈ ts, t.tag? = some "html" → ∃ c ∈ t.children, c.tag? = some "body"

section Trees

variable {lost : Prop} {k : Anchors} {a : Arena} {b : Builder}

theorem tag_parsed (part : Part) (below : List Parsed) : (part.parsed below).tag? = part.tag? := by
  cases part <;> rfl

theorem children_parsed {part : Part} {tag : String} (tagged : part.tag? = some tag)
    (below : List Parsed) : (part.parsed below).children = below := by
  cases part
  case element => rfl
  all_goals cases tagged

namespace Planted

theorem mem_root (planted : Planted k a) {i : Nat} (part : k.head = some i ∨ k.body = some i) :
    i ∈ a.listed k.root := by
  have tagged : (a.tag? i).isSome ∧ a.tag? i ≠ some "html" := by
    rcases part with head | body
    · rw [planted.head i head]
      exact ⟨rfl, by decide⟩
    · rw [planted.body i body]
      exact ⟨rfl, by decide⟩
  rw [planted.stands i (Or.inr (Or.inr part)), Anchors.home, if_neg, if_neg]
  · rintro rfl
    exact tagged.2 planted.root
  · rintro rfl
    rw [planted.document] at tagged
    cases tagged.1

theorem root_mem (planted : Planted k a) : k.root ∈ a.listed Arena.document := by
  rw [planted.stands k.root (Or.inr (Or.inl rfl)), Anchors.home, if_neg planted.root_ne, if_pos rfl]

theorem exists_size (planted : Planted k a) : ∃ n, a.size = n + 2 := by
  have first := planted.document_lt
  have second := Arena.lt_size_of_tag planted.root
  have apart := planted.root_ne
  obtain ⟨n, size⟩ : ∃ n, a.size = n + 2 := ⟨a.size - 2, by omega⟩
  exact ⟨n, size⟩

theorem exists_below (planted : Planted k a) {i : Nat} (part : k.head = some i ∨ k.body = some i)
    (depth : Nat) : ∃ c ∈ a.below (depth + 1) k.root, c.tag? = a.tag? i := by
  rw [Arena.below_succ]
  exact ⟨_, List.mem_map.mpr ⟨i, planted.mem_root part, rfl⟩, tag_parsed _ _⟩

theorem parted (planted : Planted k a) (head : k.head.isSome) (body : lost ∨ k.body.isSome) :
    Parted lost (a.contents Arena.document) := by
  obtain ⟨n, size⟩ := planted.exists_size
  have shape : a.contents Arena.document = (a.listed Arena.document).map fun c =>
      (a.part c).parsed (a.below (n + 1) c) := by
    rw [← Arena.below_succ, Arena.contents, ← size]
    rfl
  have only : ∀ t ∈ a.contents Arena.document, ∀ tag, t.tag? = some tag →
      tag = "html" ∧ t.children = a.below (n + 1) k.root := by
    intro t member tag tagged
    rw [shape] at member
    obtain ⟨c, inside, rfl⟩ := List.mem_map.mp member
    rw [tag_parsed] at tagged
    have root := planted.single c inside (by rw [Arena.tag?, tagged]; rfl)
    subst root
    refine ⟨?_, children_parsed tagged _⟩
    have named := planted.root
    rw [Arena.tag?, tagged, Option.some.injEq] at named
    exact named
  constructor
  case rooted =>
    rw [shape]
    exact ⟨_, List.mem_map.mpr ⟨k.root, planted.root_mem, rfl⟩, (tag_parsed _ _).trans planted.root⟩
  case root => exact fun t member tag tagged => (only t member tag tagged).1
  case head =>
    intro t member tagged
    obtain ⟨i, found⟩ := Option.isSome_iff_exists.mp head
    rw [(only t member _ tagged).2, ← planted.head i found]
    exact planted.exists_below (Or.inl found) n
  case body =>
    refine body.imp_right fun there t member tagged => ?_
    obtain ⟨i, found⟩ := Option.isSome_iff_exists.mp there
    rw [(only t member _ tagged).2, ← planted.body i found]
    exact planted.exists_below (Or.inr found) n

end Planted

theorem Staged.parted (staged : Staged lost b) : Parted lost (b.arena.contents Arena.document) := by
  obtain ⟨k, furnished | raw⟩ := staged
  · exact furnished.planted.parted furnished.head furnished.body
  · exact raw.rooted.planted.parted raw.back.head raw.back.body

end Trees

end Html

def Content.tag? : Content → Option String
  | element tag _ _ => some tag
  | _ => none

def Forest.elements (f : Forest Content) : List (String × Forest Content) :=
  f.trees.filterMap fun u => u.1.tag?.map fun tag => (tag, u.2)

namespace Html.Parsed

theorem elements_flush (run : String) (rest : Forest Content) :
    (flush run rest).elements = rest.elements := by
  rw [flush]
  split
  · rfl
  · rfl

theorem elements_forest (run : String) (ts : List Parsed) :
    (forest run ts).elements = elements ts := by
  induction run, ts using forest.induct with
  | case1 run =>
      rw [forest, elements_flush]
      rfl
  | case2 run tag space attrs below ts _ ih =>
      rw [forest, elements_flush]
      exact congrArg (List.cons (tag, forest "" below)) ih
  | case3 run data ts ih | case4 run data ts ih =>
      rw [forest]
      exact ih
  | case5 run data ts ih | case6 run name publicId systemId ts ih =>
      rw [forest, elements_flush]
      exact ih
  | case7 run kind below ts ih =>
      rw [forest]
      exact ih

theorem mem_elements_iff {ts : List Parsed} {tag : String} {below : Forest Content} :
    (tag, below) ∈ elements ts ↔ ∃ t ∈ ts, t.tag? = some tag ∧ forest "" t.children = below := by
  simp only [elements, List.mem_filterMap, Option.map_eq_some_iff, Prod.mk.injEq]
  constructor
  · rintro ⟨t, member, _, tagged, rfl, same⟩
    exact ⟨t, member, tagged, same⟩
  · rintro ⟨t, member, tagged, same⟩
    exact ⟨t, member, tag, tagged, rfl, same⟩

end Html.Parsed

namespace Store

variable {s : Store} {f : Forest NodeId} {p : NodeId}

theorem hasTag_iff (tag : String) (i : NodeId) :
    s.hasTag tag i = true ↔ (s.content i).tag? = some tag := by
  rw [hasTag]
  cases s.content i <;> simp [Content.tag?]

theorem isElement_iff (i : NodeId) : s.isElement i = true ↔ (s.content i).tag?.isSome = true := by
  rw [isElement]
  cases s.content i <;> rfl

theorem exists_hasTag (tops : s.children p = f.tops) {tag : String} {below : Forest Content}
    (member : (tag, below) ∈ (f.map s.content).elements) : ∃ c ∈ s.children p, s.hasTag tag c = true := by
  rw [Forest.elements, Forest.trees_map, List.mem_filterMap] at member
  obtain ⟨v, mapped, found⟩ := member
  obtain ⟨u, inside, rfl⟩ := List.mem_map.mp mapped
  obtain ⟨name, tagged, same⟩ := Option.map_eq_some_iff.mp found
  rw [Prod.mk.injEq] at same
  refine ⟨u.1, ?_, (hasTag_iff _ _).mpr (tagged.trans (congrArg some same.1))⟩
  rw [tops, Forest.tops_eq]
  exact List.mem_map.mpr ⟨u, inside, rfl⟩

theorem exists_element (tops : s.children p = f.tops) (unfolded : s.Unfolds f) {c : NodeId}
    (inside : c ∈ s.children p) {tag : String} (tagged : (s.content c).tag? = some tag) :
    ∃ g : Forest NodeId, s.children c = g.tops ∧ (tag, g.map s.content) ∈ (f.map s.content).elements := by
  rw [tops, Forest.tops_eq] at inside
  obtain ⟨u, entry, rfl⟩ := List.mem_map.mp inside
  refine ⟨u.2, (unfolded.of_mem_trees u entry).1, ?_⟩
  rw [Forest.elements, Forest.trees_map, List.mem_filterMap]
  exact ⟨_, List.mem_map.mpr ⟨u, entry, rfl⟩, by rw [tagged]; rfl⟩

/-- A document in which the parts of one are found. The body may be lost to a frameset. -/
structure HasParts (lost : Prop) (s : Store) (i : NodeId) : Prop where
  document : s.content i = .document
  root : ∃ r, (s.landmarks i).root = some r ∧ s.hasTag "html" r = true
  head : (s.landmarks i).head.isSome
  body : lost ∨ (s.landmarks i).body.isSome

theorem hasParts_of_parted {lost : Prop} {ts : List Parsed} (document : s.content p = .document)
    (tops : s.children p = f.tops) (unfolded : s.Unfolds f)
    (shape : f.map s.content = Parsed.forest "" ts) (parted : Parted lost ts) : HasParts lost s p := by
  have read : (f.map s.content).elements = Parsed.elements ts := by
    rw [shape, Parsed.elements_forest]
  have rooted : ((s.children p).find? s.isElement).isSome := by
    obtain ⟨t, member, tagged⟩ := parted.rooted
    have top := Parsed.mem_elements_iff.mpr ⟨t, member, tagged, rfl⟩
    rw [← read] at top
    obtain ⟨c, inside, isRoot⟩ := exists_hasTag tops top
    rw [List.find?_isSome]
    exact ⟨c, inside, (isElement_iff c).mpr (by rw [(hasTag_iff _ _).mp isRoot]; rfl)⟩
  obtain ⟨root, found⟩ := Option.isSome_iff_exists.mp rooted
  obtain ⟨tag, tagged⟩ := Option.isSome_iff_exists.mp ((isElement_iff root).mp (List.find?_some found))
  obtain ⟨g, listed, top⟩ := exists_element tops unfolded (List.mem_of_find?_eq_some found) tagged
  rw [read, Parsed.mem_elements_iff] at top
  obtain ⟨t, member, named, below⟩ := top
  obtain rfl := parted.root t member tag named
  have under : ∀ {name : String}, (∃ c ∈ t.children, c.tag? = some name) →
      ((s.children root).find? (s.hasTag name)).isSome := by
    rintro name ⟨c, inside, here⟩
    have deeper := Parsed.mem_elements_iff.mpr ⟨c, inside, here, rfl⟩
    rw [← Parsed.elements_forest "", below] at deeper
    rw [List.find?_isSome]
    exact exists_hasTag listed deeper
  constructor
  case document => exact document
  case root => exact ⟨root, found, (hasTag_iff _ _).mpr tagged⟩
  case head =>
    simp only [landmarks, found, Option.bind_some]
    exact under (parted.head t member named)
  case body =>
    simp only [landmarks, found, Option.bind_some]
    exact parted.body.imp_right fun body => under (body t member named)

theorem HasParts.imp {lost lost' : Prop} (h : HasParts lost s p) (mono : lost → lost') :
    HasParts lost' s p where
  document := h.document
  root := h.root
  head := h.head
  body := h.body.imp_left mono

theorem parseDocument_standard (s : Store) (text : String) :
    parseDocument .standard s (some (.text text)) =
      conclude s .document (Parse.ofText ⟨false, .html⟩ .document none text.toList) :=
  rfl

/-- A text in which no foreign content begins is parsed into a document. Whatever text is parsed into
one, its root element is for HTML and has a head in it, and a body, unless a frameset begins in the
text. -/
theorem hasParts_parseDocument (s : Store) (text : String) :
    (¬ Mentions text.toList "svg" → ¬ Mentions text.toList "math" →
      ∃ i, (parseDocument .standard s (some (.text text))).result = .ok i) ∧
    ∀ i, (parseDocument .standard s (some (.text text))).result = .ok i →
      HasParts (Mentions text.toList "frameset")
        (parseDocument .standard s (some (.text text))).store i := by
  have ends := Parse.ends_ofText text.toList
  rw [parseDocument_standard]
  generalize Parse.ofText ⟨false, .html⟩ .document none text.toList = p at ends ⊢
  rcases ends with ⟨complete, staged⟩ | ⟨⟨c, collapsed⟩, foreign⟩
  · obtain ⟨result, store⟩ := conclude_of_complete s .document p complete
    obtain ⟨f, holds, shape, root, _⟩ := exists_normal_ofParsed s .document rfl (p.result .document)
    rw [Parsed.normal_nodes] at shape
    have parts := hasParts_of_parted root holds.tops holds.unfolds shape staged.parted
    rw [result, store]
    refine ⟨fun _ _ => ⟨_, rfl⟩, fun i same => ?_⟩
    cases same
    exact parts.imp Framing.mentions
  · have failed : (conclude s .document p).result = .error (.collapsed c) := by
      rw [conclude, collapsed]
    rw [failed]
    constructor
    · exact fun svg math => absurd (native_of_not_mentions svg math) foreign
    · intro i absurd
      cases absurd

theorem hasParts_paragraph :
    ¬ Mentions "<P>a".toList "svg" ∧ ¬ Mentions "<P>a".toList "math" ∧
      ¬ Mentions "<P>a".toList "frameset" ∧
      ∃ i, (parseDocument .standard empty (some (.text "<P>a"))).result = .ok i ∧
        HasParts False (parseDocument .standard empty (some (.text "<P>a"))).store i := by
  have svg : ¬ Mentions "<P>a".toList "svg" := by decide
  have math : ¬ Mentions "<P>a".toList "math" := by decide
  have frameset : ¬ Mentions "<P>a".toList "frameset" := by decide
  obtain ⟨i, result⟩ := (hasParts_parseDocument empty "<P>a").1 svg math
  exact ⟨svg, math, frameset, i, result,
    ((hasParts_parseDocument empty "<P>a").2 i result).imp frameset⟩

/-- In a document of framesets there is no body, and construction may break down over foreign
content. -/
theorem parseDocument_without_parts :
    ((parseDocument .standard empty (some (.text "<frameset></frameset>"))).result = .ok 0 ∧
      (parseDocument .standard empty (some (.text "<frameset></frameset>"))).store.landmarks 0 =
        ⟨none, some 1, some 2, none⟩) ∧
    (parseDocument .standard empty
      (some (.text "<svg><select><foreignObject><table></table>"))).result =
        .error (.collapsed .impossible) := by
  decide +kernel

end Store

end HtmlTree
