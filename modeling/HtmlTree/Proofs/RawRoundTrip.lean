import HtmlTree.Proofs.RoundTrip

/-! Elements whose text is written as it stands. All but one of them are read that way too; the one
for readers without scripts is read as markup. -/

namespace HtmlTree

open Html
open Markup

namespace Markup

theorem verbatim_of_isRawText {tag : String} (raw : Tag.isRawText tag = true)
    (read : tag ≠ "noscript") : Verbatim false tag := by
  have listed : tag ∈ Tag.rawTextTags := by
    simpa [Tag.isRawText] using raw
  simp only [Tag.rawTextTags, List.mem_cons, List.not_mem_nil, or_false] at listed
  rcases listed with rfl | rfl | rfl | rfl | rfl | rfl | rfl
  · exact .style false
  · exact .script false
  · exact .sample
  · exact .frame false
  · exact .noEmbed false
  · exact .noFrames false
  · exact absurd rfl read

def single (tag : String) (attrs : List Attr) (value : String) : Forest Content :=
  .cons (.element tag (some htmlNamespace) attrs) (.cons (.text (some value)) .nil .nil) .nil

theorem write_single {tag : String} (verbatim : Verbatim false tag) (attrs : List Attr)
    (value : String) : write false (single tag attrs value) =
      startMarkup tag attrs ++ (value.toList ++ endMarkup tag) := by
  simp [single, write, writeText, verbatim.raw]

theorem no_return_single {tag : String} (verbatim : Verbatim false tag) {attrs : List Attr}
    (listed : StableAttrs attrs) {value : String} (stable : StableRaw value) :
    '\r' ∉ write false (single tag attrs value) := by
  have start := no_return_startMarkup verbatim.no_return listed
  have close := no_return_endMarkup verbatim.no_return
  rw [write_single verbatim, List.mem_append, List.mem_append]
  rintro (member | member | member)
  · exact start member
  · exact stable.intact.no_return member
  · exact close member

end Markup

namespace Store

theorem exists_parsed_equal (s : Store) (i : NodeId) (f : Forest NodeId)
    (fragment : s.content i = .fragment) (tops : s.children i = f.tops) (unfolded : s.Unfolds f)
    (known : ∀ j ∈ f.labels, j < s.size) (markup : List Char)
    (complete : (Parse.ofText ⟨false, .html⟩ (.fragment "div") none markup).ending = some .complete)
    (shape : Parsed.forest "" ((Parse.ofText ⟨false, .html⟩ (.fragment "div") none markup).result
      (.fragment "div")) = f.map s.content) :
    ∃ j, (parseFragment .standard s (some (.text (String.ofList markup))) none).result = .ok j ∧
      (parseFragment .standard s (some (.text (String.ofList markup))) none).store.isEqualNode i j =
        true := by
  have parsed := parseFragment_standard s (String.ofList markup)
  rw [String.toList_ofList] at parsed
  obtain ⟨result, store⟩ := conclude_of_complete s (.fragment "div") _ complete
  rw [← parsed] at result store
  refine ⟨_, result, ?_⟩
  rw [store]
  exact isEqualNode_ofParsed s i f fragment tops unfolded known _ shape

/-- A fragment with one element of HTML in it, and in that one text, which is linked to it. -/
structure HoldsText (s : Store) (i e t : NodeId) (tag : String) (attrs : List Attr)
    (value : String) : Prop where
  fragment : s.content i = .fragment
  holds : s.children i = [e]
  element : s.content e = .element tag (some htmlNamespace) attrs
  inside : s.children e = [t]
  text : s.content t = .text (some value)
  bare : s.children t = []
  linked : s.parent t = some e

namespace HoldsText

variable {s : Store} {i e t : NodeId} {tag value : String} {attrs : List Attr}

def trees (e t : NodeId) : Forest NodeId := .cons e (.cons t .nil .nil) .nil

theorem unfolds (given : HoldsText s i e t tag attrs value) : s.Unfolds (trees e t) :=
  ⟨given.inside, ⟨given.bare, trivial, trivial⟩, trivial⟩

theorem contents (given : HoldsText s i e t tag attrs value) :
    (trees e t).map s.content = single tag attrs value := by
  simp [trees, Forest.map, given.element, given.text, single]

theorem known (given : HoldsText s i e t tag attrs value) : ∀ j ∈ (trees e t).labels, j < s.size := by
  have elementKnown : e < s.size := by
    apply s.lt_size_of_isContainer e
    rw [isContainer, given.element]
    rfl
  have textKnown : t < s.size := by
    apply s.lt_size_of_text t value
    rw [given.text]
    rfl
  simp [trees, Forest.labels, elementKnown, textKnown]

theorem stringify_eq (given : HoldsText s i e t tag attrs value) (verbatim : Verbatim false tag)
    (listed : StableAttrs attrs) (nonempty : value ≠ "") (stable : StableRaw value) :
    stringify .standard s i = .ok (String.ofList (write false (single tag attrs value))) := by
  have below : (Forest.cons t .nil .nil).map s.content = .cons (.text (some value)) .nil .nil := by
    simp [Forest.map, given.text]
  have element := verbatim.writes s e given.element listed (.cons t .nil .nil)
    ⟨given.linked, trivial, trivial⟩ (Or.inr ⟨value, nonempty, stable, below⟩)
    (s.isKeptRaw (some i) e)
  rw [below, verbatim.raw.2] at element
  have whole := stringify_of_writes s i (trees e t) given.fragment given.holds given.unfolds
    (element.beside (writes_nil false))
  rw [write_single verbatim]
  simpa [write, writeText] using whole

end HoldsText

/-- A text that is written as it stands is read back, in all elements but the one for readers without
scripts: the fragment's markup is parsed into an equal fragment. -/
theorem parseFragment_rawText (s : Store) (i e t : NodeId) (tag value : String) (attrs : List Attr)
    (given : HoldsText s i e t tag attrs value) (raw : Tag.isRawText tag = true)
    (read : tag ≠ "noscript") (listed : StableAttrs attrs) (nonempty : value ≠ "")
    (stable : StableRaw value) :
    ∃ markup j, stringify .standard s i = .ok markup ∧
      (parseFragment .standard s (some (.text markup)) none).result = .ok j ∧
      (parseFragment .standard s (some (.text markup)) none).store.isEqualNode i j = true := by
  have verbatim := verbatim_of_isRawText raw read
  have rebuilt : Rebuilds false (single tag attrs value) :=
    rebuilds_verbatim verbatim listed (Or.inr ⟨value, nonempty, stable, rfl⟩) (.nil false)
      (rebuilds_stable (.nil false))
  obtain ⟨complete, parsed⟩ := forest_of_rebuilds (no_return_single verbatim listed stable) rebuilt
  obtain ⟨j, result, equal⟩ := s.exists_parsed_equal i (HoldsText.trees e t) given.fragment
    given.holds given.unfolds given.known _ complete (parsed.trans given.contents.symm)
  exact ⟨_, j, given.stringify_eq verbatim listed nonempty stable, result, equal⟩

def framedMarkup : Store :=
  ⟨#[⟨.fragment, none, [1]⟩, ⟨.element "iframe" (some htmlNamespace) [], some 0, [2]⟩,
    ⟨.text (some "<b>&amp;"), some 1, []⟩]⟩

theorem stableAttrs_nil : StableAttrs [] :=
  ⟨List.nodup_nil, (fun _ absurd => nomatch absurd), (fun _ absurd => nomatch absurd)⟩

theorem parseFragment_framedMarkup :
    HoldsText framedMarkup 0 1 2 "iframe" [] "<b>&amp;" ∧ Tag.isRawText "iframe" = true ∧
      "iframe" ≠ "noscript" ∧ StableAttrs [] ∧ "<b>&amp;" ≠ "" ∧ StableRaw "<b>&amp;" ∧
      ∃ markup j, stringify .standard framedMarkup 0 = .ok markup ∧
        (parseFragment .standard framedMarkup (some (.text markup)) none).result = .ok j ∧
        (parseFragment .standard framedMarkup (some (.text markup)) none).store.isEqualNode 0 j =
          true := by
  have given : HoldsText framedMarkup 0 1 2 "iframe" [] "<b>&amp;" :=
    ⟨rfl, rfl, rfl, rfl, rfl, rfl, rfl⟩
  have raw : Tag.isRawText "iframe" = true := by decide
  have read : "iframe" ≠ "noscript" := by decide
  have nonempty : "<b>&amp;" ≠ "" := by decide
  have stable : StableRaw "<b>&amp;" :=
    ⟨intact_of_all rfl, by decide +kernel, by decide +kernel⟩
  exact ⟨given, raw, read, stableAttrs_nil, nonempty, stable,
    parseFragment_rawText framedMarkup 0 1 2 "iframe" "<b>&amp;" [] given raw read stableAttrs_nil
      nonempty stable⟩

def unscriptedMarkup : Store :=
  ⟨#[⟨.fragment, none, [1]⟩, ⟨.element "noscript" (some htmlNamespace) [], some 0, [2]⟩,
    ⟨.text (some "<b>"), some 1, []⟩]⟩

/-- Text for readers without scripts is written as it stands and read as markup. -/
theorem parseFragment_unscriptedMarkup :
    HoldsText unscriptedMarkup 0 1 2 "noscript" [] "<b>" ∧ Tag.isRawText "noscript" = true ∧
      StableAttrs [] ∧ "<b>" ≠ "" ∧ StableRaw "<b>" ∧
      stringify .standard unscriptedMarkup 0 = .ok "<noscript><b></noscript>" ∧
      ¬ ∃ markup j, stringify .standard unscriptedMarkup 0 = .ok markup ∧
        (parseFragment .standard unscriptedMarkup (some (.text markup)) none).result = .ok j ∧
        (parseFragment .standard unscriptedMarkup (some (.text markup)) none).store.isEqualNode 0 j =
          true := by
  have written : stringify .standard unscriptedMarkup 0 = .ok "<noscript><b></noscript>" := rfl
  refine ⟨⟨rfl, rfl, rfl, rfl, rfl, rfl, rfl⟩, by decide, stableAttrs_nil, by decide,
    ⟨intact_of_all rfl, by decide +kernel, by decide +kernel⟩, written, ?_⟩
  rintro ⟨markup, j, same, parsed, equal⟩
  rw [written] at same
  cases same
  have different : ((parseFragment .standard unscriptedMarkup
      (some (.text "<noscript><b></noscript>")) none).result.toOption.map fun j =>
        (parseFragment .standard unscriptedMarkup
          (some (.text "<noscript><b></noscript>")) none).store.isEqualNode 0 j) = some false := by
    decide +kernel
  rw [parsed, Except.toOption, Option.map_some, equal] at different
  cases different

end Store

end HtmlTree
