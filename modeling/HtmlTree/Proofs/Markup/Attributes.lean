import HtmlTree.Dom.Operations
import HtmlTree.Proofs.Dom.Attributes
import HtmlTree.Proofs.Dom.Store
import HtmlTree.Proofs.Markup.Order

/-! Calls that change the attributes of an element. As long as no name is there twice they do to the
element what they do to a dictionary, and whatever is read from the element afterwards, its tags
included, is read from that dictionary. -/

namespace HtmlTree

inductive AttrCall where
  | set (name value : String)
  | remove (name : String)
  deriving DecidableEq, Repr

namespace AttrCall

def onDict (dict : List (String × String)) : AttrCall → List (String × String)
  | set name value => put name value dict
  | remove name => erase name dict

def onNode (node : Operand) (s : Store) : AttrCall → Store
  | set name value => node.setAttribute s name value
  | remove name => node.removeAttribute s name

def runDict (dict : List (String × String)) (calls : List AttrCall) : List (String × String) :=
  calls.foldl onDict dict

def runNode (s : Store) (node : Operand) (calls : List AttrCall) : Store :=
  calls.foldl (onNode node) s

variable {s : Store} {i : NodeId} {tag : String} {space : Option String}

theorem nodup_keys_onDict (call : AttrCall) {dict : List (String × String)}
    (distinct : (dict.map (·.1)).Nodup) : ((call.onDict dict).map (·.1)).Nodup := by
  cases call with
  | set name value => exact nodup_keys_put name value dict distinct
  | remove name =>
      rw [onDict, keys_erase]
      exact distinct.erase name

theorem nodup_keys_runDict (calls : List AttrCall) : ∀ dict : List (String × String),
    (dict.map (·.1)).Nodup → ((runDict dict calls).map (·.1)).Nodup := by
  induction calls with
  | nil => exact fun _ distinct => distinct
  | cons call calls ih => exact fun dict distinct => ih _ (call.nodup_keys_onDict distinct)

theorem onNode_of_element (call : AttrCall) {dict : List (String × String)}
    (element : s.content i = .element tag space (Attr.ofPairs dict)) :
    call.onNode (.node i) s = s.setContent i (.element tag space (Attr.ofPairs (call.onDict dict))) := by
  cases call with
  | set name value =>
      rw [onNode, Operand.setAttribute, Store.setAttribute, Store.setAttrs, element]
      simp only [Content.attrs, Attr.assign_ofPairs, onDict]
  | remove name =>
      rw [onNode, Operand.removeAttribute, Store.removeAttribute, Store.setAttrs, element]
      simp only [Content.attrs, Attr.drop_ofPairs, onDict]

theorem runNode_of_element (calls : List AttrCall) : ∀ (s : Store) (dict : List (String × String)),
    s.content i = .element tag space (Attr.ofPairs dict) →
      runNode s (.node i) calls =
        s.setContent i (.element tag space (Attr.ofPairs (runDict dict calls))) := by
  induction calls with
  | nil =>
      intro s dict element
      rw [runDict, List.foldl_nil, ← element, Store.setContent_content]
      rfl
  | cons call calls ih =>
      intro s dict element
      let next := s.setContent i (.element tag space (Attr.ofPairs (call.onDict dict)))
      have still : next.content i = .element tag space (Attr.ofPairs (call.onDict dict)) := by
        rw [Store.content_setContent, if_pos ⟨rfl, Store.lt_size_of_element element⟩]
      calc
        runNode s (.node i) (call :: calls) = runNode next (.node i) calls := by
          rw [runNode, List.foldl_cons, call.onNode_of_element element]
          rfl
        _ = next.setContent i (.element tag space (Attr.ofPairs (runDict dict (call :: calls)))) :=
          ih next (call.onDict dict) still
        _ = _ := s.setContent_setContent i _ _

theorem onNode_of_not_element (call : AttrCall) {node : Operand}
    (other : ∀ i, node = .node i → s.isElement i = false) : call.onNode node s = s := by
  cases node with
  | value v => cases call <;> rfl
  | node i =>
      have plain := other i rfl
      have kept : ∀ attrs, s.setAttrs i attrs = s := by
        intro attrs
        rw [Store.isElement] at plain
        rw [Store.setAttrs]
        cases content : s.content i with
        | element tag space own => simp [content, Content.isElement] at plain
        | _ => rfl
      cases call with
      | set name value => exact kept _
      | remove name => exact kept _

theorem runNode_of_not_element (calls : List AttrCall) {node : Operand}
    (other : ∀ i, node = .node i → s.isElement i = false) : runNode s node calls = s := by
  induction calls with
  | nil => rfl
  | cons call calls ih =>
      rw [runNode, List.foldl_cons, call.onNode_of_not_element other]
      exact ih

end AttrCall

namespace Markup.Walk

variable {s : Store} {escape : Bool} {first last : State} {visits : List Visit}

/-- The tag that an element begins with, which is all there is of a void one. -/
def openingTag (tag : String) (space : Option String) (attrs : Pairs) : Token :=
  if isVoidElement tag space then .emptyTag tag space attrs else .startTag tag space attrs

theorem Runs.markup_of_element (runs : Runs s escape first visits last) {i : NodeId}
    {container : Option NodeId} {found : List Token}
    (met : ⟨.enter i container, found⟩ ∈ visits) {tag : String} {space : Option String}
    {attrs : List Attr} (element : s.content i = .element tag space attrs) :
    found.filter Token.isMarkup = [openingTag tag space (Attr.toPairs attrs)] := by
  obtain ⟨before, later, rfl⟩ := List.mem_iff_append.mp met
  obtain ⟨middle, _, onward⟩ := runs.split
  cases onward with
  | round moved _ =>
      simp only [step, enter, element, Option.some.injEq] at moved
      cases void : isVoidElement tag space with
      | true =>
          rw [if_pos void] at moved
          cases moved
          rw [openingTag, if_pos void]
          split <;> rfl
      | false =>
          rw [if_neg (ne_true_of_eq_false void)] at moved
          cases moved
          rw [openingTag, if_neg (ne_true_of_eq_false void)]
          rfl

theorem pending_of_step {raw : Bool} {task : Task} {pending : List Task} {found : List Token}
    {next : State} (moved : step s escape ⟨raw, task :: pending⟩ = some (found, next)) :
    ∃ more, next.pending = more ++ pending := by
  cases task with
  | leave tag space =>
      cases moved
      exact ⟨[], rfl⟩
  | enter i container =>
      cases entered_of_step moved with
      | element tag space attrs content => exact ⟨_, List.append_cons _ _ _⟩
      | inside other => exact ⟨_, rfl⟩
      | past _ plain => exact ⟨[], rfl⟩

/-- A walk that has come to its end has taken up all that waited. -/
theorem Runs.exists_visit (runs : Runs s escape first visits last) (ended : last.pending = []) :
    ∀ task ∈ first.pending, ∃ found, ⟨task, found⟩ ∈ visits := by
  induction runs with
  | rest w =>
      intro task waiting
      rw [ended] at waiting
      cases waiting
  | @round raw taken pending found next _ visits moved _ ih =>
      intro task waiting
      rcases List.mem_cons.mp waiting with rfl | waiting
      · exact ⟨found, List.mem_cons_self⟩
      · obtain ⟨more, kept⟩ := pending_of_step moved
        obtain ⟨later, met⟩ := ih ended task (by rw [kept]; exact List.mem_append_right more waiting)
        exact ⟨later, List.mem_cons_of_mem _ met⟩

theorem exists_walk_to {root i : NodeId} (holder : s.isContainer root = true)
    (listed : i ∈ s.children root) (acyclic : s.Acyclic root) (escape : Bool) :
    ∃ visits raw, Runs s escape (start s root) visits ⟨raw, []⟩ ∧
      tokens s root escape = tokensOf visits ∧ ∃ found, ⟨.enter i (some root), found⟩ ∈ visits := by
  obtain ⟨visits, raw, runs, found, _⟩ := exists_walk s root escape acyclic
  have waiting : Task.enter i (some root) ∈ (start s root).pending := by
    rw [start, if_pos holder]
    exact List.mem_map_of_mem listed
  exact ⟨visits, raw, runs, found, runs.exists_visit rfl _ waiting⟩

end Markup.Walk

namespace Store

open Markup (tokens)
open Markup.Walk (Runs Visit tokensOf openingTag)

/-- What is read from an element is read from a dictionary. -/
structure HasDict (s : Store) (i : NodeId) (dict : List (String × String)) : Prop where
  listed : s.attributesOf i = dict
  distinct : ((s.content i).attrs.map (·.name)).Nodup
  read : ∀ name, s.getAttribute i name = lookup name dict
  rebuilt : Attr.ofPairs (s.attributesOf i) = (s.content i).attrs

theorem hasDict_ofPairs {s : Store} {i : NodeId} {dict : List (String × String)}
    (attrs : (s.content i).attrs = Attr.ofPairs dict) (distinct : (dict.map (·.1)).Nodup) :
    s.HasDict i dict := by
  have listed : s.attributesOf i = dict := by
    rw [attributesOf, attrs, Attr.toPairs_ofPairs dict distinct]
  constructor
  · exact listed
  · rw [attrs, Attr.names_ofPairs]
    exact distinct
  · intro name
    rw [getAttribute, attrs, Attr.value?_ofPairs]
  · rw [listed, attrs]

/-- Calls on an element without a name twice. What is read from it afterwards is what the same calls make
of the dictionary that was read before, and nothing else in the store is different. Every walk that
comes to the element finds its tag with that dictionary, and a walk over what lists it does come there.
Calls on anything that is no element make no difference. -/
theorem attributes_run_as_dict (s : Store) (i : NodeId) (tag : String) (space : Option String)
    (attrs : List Attr) (element : s.content i = .element tag space attrs)
    (distinct : (attrs.map (·.name)).Nodup) (calls : List AttrCall) :
    let dict := AttrCall.runDict (s.attributesOf i) calls
    let after := AttrCall.runNode s (.node i) calls
    after = s.setContent i (.element tag space (Attr.ofPairs dict)) ∧
    after.HasDict i dict ∧
    (∀ root escape visits last, Runs after escape (Markup.Walk.start after root) visits last →
      ∀ container found, ⟨.enter i container, found⟩ ∈ visits →
        found.filter Markup.Token.isMarkup = [openingTag tag space dict]) ∧
    (∀ root, s.isContainer root = true → i ∈ s.children root → s.Acyclic root → ∀ escape,
      ∃ visits raw, Runs after escape (Markup.Walk.start after root) visits ⟨raw, []⟩ ∧
        tokens after root escape = tokensOf visits ∧
        ∃ found, ⟨.enter i (some root), found⟩ ∈ visits) ∧
    ∀ node : Operand, (∀ j, node = .node j → s.isElement j = false) →
      ∀ others, AttrCall.runNode s node others = s := by
  intro dict after
  have before : s.content i = .element tag space (Attr.ofPairs (s.attributesOf i)) := by
    rw [attributesOf, element, Content.attrs, Attr.ofPairs_toPairs_of_nodup attrs distinct]
  have changed : after = s.setContent i (.element tag space (Attr.ofPairs dict)) :=
    AttrCall.runNode_of_element calls s (s.attributesOf i) before
  have content : after.content i = .element tag space (Attr.ofPairs dict) := by
    rw [changed, content_setContent, if_pos ⟨rfl, lt_size_of_element element⟩]
  have keys : (dict.map (·.1)).Nodup :=
    AttrCall.nodup_keys_runDict calls (s.attributesOf i) (nodup_keys_collect _)
  have children : after.children = s.children := by
    funext j
    rw [changed, children_setContent]
  refine ⟨changed, hasDict_ofPairs (by rw [content, Content.attrs]) keys, ?_, ?_, ?_⟩
  · intro root escape visits last runs container found met
    rw [runs.markup_of_element met content, Attr.toPairs_ofPairs dict keys]
  · intro root holder listed acyclic escape
    have owner : after.isContainer root = true := by
      rw [isContainer] at holder ⊢
      rw [changed, content_setContent]
      split
      · rfl
      · exact holder
    have still : after.Acyclic root := by
      rw [Acyclic, children]
      exact acyclic
    exact Markup.Walk.exists_walk_to owner (by rw [children]; exact listed) still escape
  · intro node other others
    exact AttrCall.runNode_of_not_element others other

def linkAndText : Store where
  nodes := #[
    ⟨.fragment, none, [1, 2]⟩,
    ⟨.element "a" (some htmlNamespace) [⟨"href", "/x"⟩, ⟨"title", "t"⟩, ⟨"class", "c"⟩], some 0, []⟩,
    ⟨.text (some "x"), some 0, []⟩]

def movedTitle : List AttrCall :=
  [.set "href" "/y", .remove "title", .remove "lang", .set "title" "u"]

theorem attributes_linkAndText :
    linkAndText.content 1 = .element "a" (some htmlNamespace)
      [⟨"href", "/x"⟩, ⟨"title", "t"⟩, ⟨"class", "c"⟩] ∧
    ["href", "title", "class"].Nodup ∧
    (AttrCall.runNode linkAndText (.node 1) movedTitle).HasDict 1
      [("href", "/y"), ("class", "c"), ("title", "u")] ∧
    linkAndText.isContainer 0 = true ∧ linkAndText.children 0 = [1, 2] ∧ linkAndText.Acyclic 0 ∧
    (∃ visits raw found, Runs (AttrCall.runNode linkAndText (.node 1) movedTitle) true
      (Markup.Walk.start (AttrCall.runNode linkAndText (.node 1) movedTitle) 0) visits ⟨raw, []⟩ ∧
        ⟨.enter 1 (some 0), found⟩ ∈ visits ∧ found.filter Markup.Token.isMarkup =
          [.startTag "a" (some htmlNamespace) [("href", "/y"), ("class", "c"), ("title", "u")]]) ∧
    linkAndText.isElement 2 = false ∧
    AttrCall.runNode linkAndText (.node 2) movedTitle = linkAndText := by
  have distinct : ["href", "title", "class"].Nodup := by decide
  have whole : linkAndText.Unfolds (.cons 0 (.cons 1 .nil (.cons 2 .nil .nil)) .nil) := by
    simp [linkAndText, Unfolds, children, node, Forest.tops]
  have acyclic := whole.acyclic 0 List.mem_cons_self
  obtain ⟨_, held, tags, walked, others⟩ := attributes_run_as_dict linkAndText 1 "a"
    (some htmlNamespace) [⟨"href", "/x"⟩, ⟨"title", "t"⟩, ⟨"class", "c"⟩] rfl distinct movedTitle
  obtain ⟨visits, raw, runs, _, found, met⟩ := walked 0 rfl List.mem_cons_self acyclic true
  have text : ∀ j, Operand.node 2 = .node j → linkAndText.isElement j = false := by
    rintro j ⟨⟩
    rfl
  exact ⟨rfl, distinct, held, rfl, rfl, acyclic,
    ⟨visits, raw, found, runs, met, tags 0 true visits _ runs (some 0) found met⟩, rfl,
    others (.node 2) text movedTitle⟩

end Store

end HtmlTree
