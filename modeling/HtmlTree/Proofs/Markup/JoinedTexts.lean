import HtmlTree.Proofs.Dom.Preorder
import HtmlTree.Proofs.Markup.Interchange
import HtmlTree.Proofs.Markup.Spelling

/-! Merging texts does not show in the output. Of trees whose nodes refer to those that list them, the
tokens before and after are interchangeable list by list: all texts of one list are escaped or none, and
what is written for a run of them is what is written for the one text they become. -/

namespace HtmlTree

open Markup (Interchangeable Style)

namespace Forest

/-- The marks of trees in which every node refers to the one that lists it. -/
def linkMarks (lister : Content) : Forest Content → Forest (Content × Bool)
  | nil => nil
  | cons c below rest =>
    cons (c, c.isText && lister.isRawText) (below.linkMarks c) (rest.linkMarks lister)

theorem linkMarks_append (lister : Content) (f g : Forest Content) :
    (f.append g).linkMarks lister = (f.linkMarks lister).append (g.linkMarks lister) := by
  induction f with
  | nil => rfl
  | cons c below rest _ ih => rw [append, linkMarks, ih, linkMarks, append]

theorem ofTrees_append {α : Type} (us vs : List (α × Forest α)) :
    ofTrees (us ++ vs) = (ofTrees us).append (ofTrees vs) := by
  induction us with
  | nil => rfl
  | cons u us ih => rw [List.cons_append, ofTrees, ofTrees, append, ih]

end Forest

theorem Store.marked_eq_linkMarks (s : Store) (f : Forest NodeId) : ∀ p, s.LinkedTo (some p) f →
    s.marked (some p) f = (f.map s.content).linkMarks (s.content p) := by
  induction f with
  | nil => exact fun _ _ => rfl
  | cons i below rest ihBelow ihRest =>
      intro p linked
      obtain ⟨parent, inside, beside⟩ := linked
      have mark : s.isKeptRaw (some p) i = ((s.content i).isText && (s.content p).isRawText) := by
        rw [isKeptRaw_eq, isText, parent, beq_self_eq_true, Bool.and_true]
      rw [marked, Forest.map, Forest.linkMarks, mark, ihBelow i inside, ihRest p beside]

namespace Markup

open Token (around told spell spellNode)
open Walk (rawAfter)

/-- The tokens of marked trees may stand for each other, found with raw text open or not. -/
def ReadsAlike (f g : Forest (Content × Bool)) : Prop :=
  ∀ escape raw, Interchangeable (spell escape raw f) (spell escape raw g)

namespace ReadsAlike

variable {f g h f' g' : Forest (Content × Bool)}

theorem refl (f : Forest (Content × Bool)) : ReadsAlike f f := fun _ _ => Interchangeable.refl _

theorem trans (first : ReadsAlike f g) (second : ReadsAlike g h) : ReadsAlike f h :=
  fun escape raw => (first escape raw).trans (second escape raw)

theorem append (left : ReadsAlike f g) (right : ReadsAlike f' g') :
    ReadsAlike (f.append f') (g.append g') := by
  intro escape raw
  rw [Token.spell_append, Token.spell_append, (left escape raw).flag raw]
  exact (left escape raw).append (right escape _)

theorem cons (c : Content × Bool) (below : ReadsAlike f g) (rest : ReadsAlike f' g') :
    ReadsAlike (.cons c f f') (.cons c g g') := by
  intro escape raw
  have first : Interchangeable (spellNode escape raw c f) (spellNode escape raw c g) := by
    have inside := below escape (raw || c.1.isRawText)
    rw [spellNode, spellNode]
    cases told escape raw c with
    | element tag space attrs =>
        rw [around, around]
        split
        · have said := interchangeable_problem tag space (Attr.toPairs attrs)
            "Void element has children"
          -- A void element may have lost all it held.
          split
          · split
            · exact Interchangeable.refl _
            · exact said.symm
          · split
            · exact said
            · exact Interchangeable.refl _
        · exact Interchangeable.cons _ (inside.append (Interchangeable.refl _))
    | document => exact inside
    | fragment => exact inside
    | _ => exact Interchangeable.refl _
  rw [Token.spell_cons, Token.spell_cons, first.flag raw]
  exact first.append (rest escape _)

end ReadsAlike

def toldText (escape raw linked : Bool) (text : String) : String :=
  if raw && escape && !linked then escapeString text else text

theorem toldText_empty (escape raw linked : Bool) : toldText escape raw linked "" = "" := by
  rw [toldText]
  split <;> rfl

theorem toldText_append (escape raw linked : Bool) (first second : String) :
    toldText escape raw linked (first ++ second) =
      toldText escape raw linked first ++ toldText escape raw linked second := by
  simp only [toldText]
  split
  · rw [escapeString, escapeString, escapeString, String.toList_append, escapeText, escapeText,
      escapeText, List.flatMap_append, String.ofList_append]
  · rfl

theorem spell_text (escape raw linked : Bool) (value : Option String)
    (below rest : Forest (Content × Bool)) :
    spell escape raw (.cons (.text value, linked) below rest) =
      Token.ofText (toldText escape raw linked (value.getD "")) ++ spell escape raw rest := by
  have first : spellNode escape raw (.text value, linked) below =
      Token.ofText (toldText escape raw linked (value.getD "")) := by
    rw [spellNode, told, toldText]
    split <;> rfl
  rw [Token.spell_cons, first, rawAfter_ofText]

theorem readsAlike_drop (linked : Bool) (value : Option String) (empty : value.getD "" = "")
    (below rest : Forest (Content × Bool)) :
    ReadsAlike (.cons (.text value, linked) below rest) rest := by
  intro escape raw
  rw [spell_text, empty, toldText_empty, ofText_empty, List.nil_append]
  exact Interchangeable.refl _

theorem readsAlike_join (linked : Bool) (first second : Option String)
    (below below' below'' rest : Forest (Content × Bool)) :
    ReadsAlike (.cons (.text first, linked) below (.cons (.text second, linked) below' rest))
      (.cons (.text (some (first.getD "" ++ second.getD "")), linked) below'' rest) := by
  intro escape raw
  rw [spell_text, spell_text, spell_text, Option.getD_some, toldText_append, ← List.append_assoc]
  exact (interchangeable_ofText _ _).append (Interchangeable.refl _)

def siblings (lister : Content) (entries : List (Forest Content × Content)) :
    Forest (Content × Bool) :=
  (Forest.ofTrees (entries.map Prod.swap)).linkMarks lister

theorem siblings_append (lister : Content) (left right : List (Forest Content × Content)) :
    siblings lister (left ++ right) = (siblings lister left).append (siblings lister right) := by
  rw [siblings, List.map_append, Forest.ofTrees_append, Forest.linkMarks_append]
  rfl

theorem siblings_cons (lister : Content) (entry : Forest Content × Content)
    (rest : List (Forest Content × Content)) :
    siblings lister (entry :: rest) = .cons (entry.2, entry.2.isText && lister.isRawText)
      (entry.1.linkMarks entry.2) (siblings lister rest) := rfl

theorem exists_of_text? {c : Content} {value : String} (text : c.text? = some value) :
    ∃ v : Option String, c = .text v ∧ v.getD "" = value := by
  cases c with
  | text v => exact ⟨v, rfl, Option.some.inj text⟩
  | _ => cases text

theorem readsAlike_joinStep (lister : Content) (kept rest : List (Forest Content × Content))
    (entry : Forest Content × Content) :
    ReadsAlike (siblings lister (kept.reverse ++ entry :: rest))
      (siblings lister ((joinStep kept entry).reverse ++ rest)) := by
  have whole : ∀ apart : joinStep kept entry = entry :: kept,
      ReadsAlike (siblings lister (kept.reverse ++ entry :: rest))
        (siblings lister ((joinStep kept entry).reverse ++ rest)) := by
    intro apart
    rw [apart, List.reverse_cons, List.append_assoc, List.singleton_append]
    exact ReadsAlike.refl _
  cases text : entry.2.text? with
  | none => exact whole (joinStep_other kept entry text)
  | some value =>
      obtain ⟨v, content, same⟩ := exists_of_text? text
      by_cases blank : value = ""
      · rw [joinStep_empty_text kept entry (by rw [text, blank]), siblings_append, siblings_append]
        apply (ReadsAlike.refl _).append
        rw [siblings_cons, content]
        exact readsAlike_drop _ v (same.trans blank) _ _
      · have filled : entry.2.text? ≠ some "" := by
          rw [text]
          exact fun empty => blank (Option.some.inj empty)
        cases kept with
        | nil => exact whole (joinStep_apart [] entry filled fun _ absurd => nomatch absurd)
        | cons last before =>
            cases prior : last.2.text? with
            | none =>
                apply whole (joinStep_apart _ entry filled _)
                intro other here
                cases here
                exact prior
            | some first =>
                obtain ⟨w, lastContent, lastSame⟩ := exists_of_text? prior
                have joined : joinStep (last :: before) entry =
                    (last.1, .text (some (w.getD "" ++ v.getD ""))) :: before := by
                  simp only [joinStep, text, blank, if_false, prior, lastSame, same]
                rw [joined, List.reverse_cons, List.reverse_cons, List.append_assoc,
                  List.append_assoc, siblings_append lister before.reverse,
                  siblings_append lister before.reverse]
                apply (ReadsAlike.refl _).append
                simp only [List.singleton_append, siblings_cons, lastContent, content]
                exact readsAlike_join _ w v _ _ _ _

theorem readsAlike_joinRuns (lister : Content) (entries : List (Forest Content × Content)) :
    ReadsAlike (siblings lister entries) (siblings lister (joinRuns entries)) := by
  have folded : ∀ kept, ReadsAlike (siblings lister (kept.reverse ++ entries))
      (siblings lister (entries.foldl joinStep kept).reverse) := by
    induction entries with
    | nil =>
        intro kept
        rw [List.append_nil]
        exact ReadsAlike.refl _
    | cons entry rest ih =>
        exact fun kept => (readsAlike_joinStep lister kept rest entry).trans (ih _)
  exact folded []

theorem readsAlike_siblings {α : Type} (lister : Content) (below below' : α → Forest Content)
    (entries : List (α × Content))
    (same : ∀ e ∈ entries, ReadsAlike ((below e.1).linkMarks e.2) ((below' e.1).linkMarks e.2)) :
    ReadsAlike (siblings lister (entries.map (Prod.map below id)))
      (siblings lister (entries.map (Prod.map below' id))) := by
  induction entries with
  | nil => exact ReadsAlike.refl _
  | cons e rest ih =>
      obtain ⟨here, others⟩ := List.forall_mem_cons.mp same
      rw [List.map_cons, List.map_cons, siblings_cons, siblings_cons]
      exact ReadsAlike.cons _ here (ih others)

/-- A list that is kept or has its texts joined is one of the same nodes, and reads alike with any
trees below them. -/
theorem exists_readsAlike_entries {α β : Type} (f : α → β) (before : List (α × Content))
    (new : List (β × Content)) (lists : new = before.map (Prod.map f id) ∨
      new = joinRuns (before.map (Prod.map f id))) :
    ∃ after : List (α × Content), (after.map (·.1)).Sublist (before.map (·.1)) ∧
      new = after.map (Prod.map f id) ∧ ∀ lister (below : α → Forest Content),
        ReadsAlike (siblings lister (before.map (Prod.map below id)))
          (siblings lister (after.map (Prod.map below id))) := by
  rcases lists with kept | joined
  · exact ⟨before, List.Sublist.refl _, kept, fun _ _ => ReadsAlike.refl _⟩
  · refine ⟨joinRuns before, joinRuns_sublist before, ?_, ?_⟩
    · rw [joined, joinRuns_map]
    · intro lister below
      rw [← joinRuns_map]
      exact readsAlike_joinRuns lister _

end Markup

namespace Store

open Markup (ReadsAlike siblings tokens tokens_eq_spell writtenText)

theorem siblings_of_trees (s : Store) (lister : Content) (f : Forest NodeId) :
    siblings lister ((f.trees.map fun u => (u, s.content u.1)).map
      (Prod.map (fun u => u.2.map s.content) id)) = (f.map s.content).linkMarks lister := by
  rw [siblings, List.map_map, List.map_map]
  change (Forest.ofTrees (f.trees.map fun u => (s.content u.1, u.2.map s.content))).linkMarks lister = _
  rw [← Forest.trees_map, Forest.ofTrees_trees]

/-- The trees below a node whose list is kept or has its texts joined, once those below its children
are known. -/
theorem exists_readsAlike_below {s t : Store} (i : NodeId) (below : Forest NodeId)
    (tops : s.children i = below.tops)
    (lists : (t.children i).map t.entry = (s.children i).map s.entry ∨
      (t.children i).map t.entry = joinRuns ((s.children i).map s.entry))
    (deeper : ∀ u ∈ below.trees, ∃ g : Forest NodeId, t.children u.1 = g.tops ∧ t.Unfolds g ∧
      g.labels.Sublist u.2.labels ∧
      ∀ lister, ReadsAlike ((u.2.map s.content).linkMarks lister)
        ((g.map t.content).linkMarks lister)) :
    ∃ g : Forest NodeId, t.children i = g.tops ∧ t.Unfolds g ∧ g.labels.Sublist below.labels ∧
      ∀ lister, ReadsAlike ((below.map s.content).linkMarks lister)
        ((g.map t.content).linkMarks lister) := by
  classical
  choose! grown listed unfolds sublist alike using deeper
  obtain ⟨before, beforeEq⟩ : ∃ before : List ((NodeId × Forest NodeId) × Content),
    before = below.trees.map fun u => (u, s.content u.1) := ⟨_, rfl⟩
  have old : (s.children i).map s.entry = before.map (Prod.map (·.1) id) := by
    rw [beforeEq, tops, below.tops_eq, List.map_map, List.map_map]
    rfl
  have nodes : before.map (·.1) = below.trees := by
    rw [beforeEq, List.map_map]
    exact List.map_id' _
  rw [old] at lists
  obtain ⟨after, firsts, new, joined⟩ := Markup.exists_readsAlike_entries (·.1) before _ lists
  rw [nodes] at firsts
  -- What is below the children may be exchanged first, and then the texts among them joined.
  have inner : ∀ lister, ReadsAlike ((below.map s.content).linkMarks lister)
      (siblings lister (before.map (Prod.map (fun u => (grown u).map t.content) id))) := by
    intro lister
    rw [← s.siblings_of_trees lister below, ← beforeEq]
    apply Markup.readsAlike_siblings
    intro e inside
    apply alike
    rw [← nodes]
    exact List.mem_map_of_mem inside
  obtain ⟨g, gTops, gUnfolds, gLabels, gContents⟩ := t.exists_regrown i below.trees after grown
    firsts new fun v inside => ⟨listed v inside, unfolds v inside, sublist v inside⟩
  refine ⟨g, gTops, gUnfolds, ?_, ?_⟩
  · rw [below.labels_eq]
    exact gLabels
  · intro lister
    have shape : (g.map t.content).linkMarks lister =
        siblings lister (after.map (Prod.map (fun u => (grown u).map t.content) id)) := by
      rw [gContents, siblings, List.map_map]
      rfl
    rw [shape]
    exact (inner lister).trans (joined lister _)

/-- Where every list is kept or has its texts joined, the trees below a node read as they did. -/
theorem exists_readsAlike {s t : Store} (f : Forest NodeId) (unfolded : s.Unfolds f)
    (lists : ∀ q ∈ f.labels, (t.children q).map t.entry = (s.children q).map s.entry ∨
      (t.children q).map t.entry = joinRuns ((s.children q).map s.entry)) :
    ∀ u ∈ f.trees, ∃ g : Forest NodeId, t.children u.1 = g.tops ∧ t.Unfolds g ∧
      g.labels.Sublist u.2.labels ∧
      ∀ lister, ReadsAlike ((u.2.map s.content).linkMarks lister)
        ((g.map t.content).linkMarks lister) := by
  induction f with
  | nil => exact fun u member => nomatch member
  | cons i below rest ihBelow ihRest =>
      rw [Forest.labels, List.forall_mem_cons, List.forall_mem_append] at lists
      intro u member
      rcases List.mem_cons.mp member with rfl | member
      · exact exists_readsAlike_below i below unfolded.1 lists.1 (ihBelow unfolded.2.1 lists.2.1)
      · exact ihRest unfolded.2.2 lists.2.2 u member

theorem tokens_of_linked (s : Store) (escape : Bool) (root : NodeId) (f : Forest NodeId)
    (open_ : s.isContainer root = true) (tops : s.children root = f.tops) (unfolded : s.Unfolds f)
    (linked : ∀ q ∈ root :: f.labels, ∀ c ∈ s.children q, s.parent c = some q) :
    tokens s root escape =
      Markup.Token.spell escape false ((f.map s.content).linkMarks (s.content root)) := by
  obtain ⟨listed, deeper⟩ := List.forall_mem_cons.mp linked
  rw [tops] at listed
  rw [tokens_eq_spell s escape root f tops unfolded, markedShown, if_pos open_,
    s.marked_eq_linkMarks f root ((unfolded.linkedTo_iff (some root)).mpr ⟨listed, deeper⟩)]

theorem stringify_eq_writtenText (c : Settings) (st : Style) (accepted : Style.ofSettings c = .ok st)
    (s : Store) (root : NodeId) :
    stringify c s root = (writtenText st (tokens s root (!st.escapeRaw))).map String.ofList := by
  rw [stringify, Markup.serialize_of_accepted accepted, Markup.render_eq_renderTokens, writtenText]
  cases Markup.renderTokens st false (Markup.filterTokens st (tokens s root (!st.escapeRaw))) <;> rfl

/-- In a tree whose nodes refer to those that list them, and in which no node is listed twice, merging
texts at any node leaves what is written of any node that holds others as it is, optional tags left out
or not. Only stripped white space could tell. -/
theorem stringify_normalize (c : Settings) (st : Style) (accepted : Style.ofSettings c = .ok st)
    (keeps : st.stripSpaces = false) (s : Store) (top : NodeId) (acyclic : s.Acyclic top)
    (once : (s.flatten top).Nodup) (bare : s.Bare (s.flatten top))
    (linked : ∀ p ∈ s.flatten top, ∀ i ∈ s.children p, s.parent i = some p) (root n : NodeId)
    (rootInside : root ∈ s.flatten top) (open_ : s.isContainer root = true)
    (inside : n ∈ s.flatten top) : stringify c (s.normalize n) root = stringify c s root := by
  obtain ⟨f, tops, unfolded⟩ := s.exists_unfolds top acyclic
  have whole : s.Unfolds (.cons top f .nil) := ⟨tops, unfolded, trivial⟩
  have labels : s.flatten top = (Forest.cons top f .nil).labels := by
    rw [unfolded.flatten_eq top tops, Forest.labels_single]
  rw [labels] at once bare linked rootInside inside
  obtain ⟨below, nTops, nUnfolds, region⟩ := whole.exists_subtree n inside
  have normalized := normalized_normalize s n below nUnfolds nTops (once.sublist region)
    fun p member => bare p (region.subset member)
  have linkedAfter := normalized.parent_of_listed (fun p member => region.subset member) linked
  have lists := normalized.kept_or_joined (fun p member => region.subset member) bare linked
  obtain ⟨deeper, rTops, rUnfolds, rRegion⟩ := whole.exists_subtree root rootInside
  have alone : s.Unfolds (.cons root deeper .nil) := ⟨rTops, rUnfolds, trivial⟩
  obtain ⟨g, gTops, gUnfolds, gLabels, alike⟩ := exists_readsAlike (.cons root deeper .nil) alone
    (fun q member => by
      rw [Forest.labels_single] at member
      exact lists q (rRegion.subset member)) (root, deeper) List.mem_cons_self
  have content : (s.normalize n).content root = s.content root := by
    apply normalized.other
    rw [isContainer] at open_
    cases here : s.content root with
    | text value =>
        rw [here] at open_
        cases open_
    | _ => rfl
  have before := s.tokens_of_linked (!st.escapeRaw) root deeper open_ rTops rUnfolds
    fun q member => linked q (rRegion.subset member)
  have after := (s.normalize n).tokens_of_linked (!st.escapeRaw) root g
    (by rw [isContainer, content]; exact open_) gTops gUnfolds
    fun q member => linkedAfter q (rRegion.subset ((gLabels.cons_cons root).subset member))
  have same := (alike (s.content root) (!st.escapeRaw) false).written st keeps [] []
  rw [List.nil_append, List.nil_append, List.append_nil, List.append_nil, ← before, ← content,
    ← after] at same
  rw [stringify_eq_writtenText c st accepted, stringify_eq_writtenText c st accepted, same]

/-- A script and a list item, with texts to be merged in raw text, between implied tags and around
white space. -/
def scatteredTexts : Store where
  nodes := #[
    ⟨.fragment, none, [1, 5]⟩, ⟨.element "script" (some htmlNamespace) [], some 0, [2, 3, 4]⟩,
    ⟨.text (some "a<"), some 1, []⟩, ⟨.text none, some 1, []⟩, ⟨.text (some "b"), some 1, []⟩,
    ⟨.element "li" (some htmlNamespace) [], some 0, [6, 7, 8]⟩, ⟨.text (some ""), some 5, []⟩,
    ⟨.text (some " <"), some 5, []⟩, ⟨.text (some "c "), some 5, []⟩]

theorem scatteredTexts_acyclic : scatteredTexts.Acyclic 0 := by
  have unfolded : scatteredTexts.Unfolds (.cons 0 (.cons 1 (.cons 2 .nil (.cons 3 .nil
      (.cons 4 .nil .nil))) (.cons 5 (.cons 6 .nil (.cons 7 .nil (.cons 8 .nil .nil))) .nil)) .nil) := by
    simp [scatteredTexts, Unfolds, children, node, Forest.tops]
  exact unfolded.acyclic 0 List.mem_cons_self

def omittingTags : Settings := Settings.standard.set "serializer.omit_optional_tags" (.bool true)

theorem stringify_scatteredTexts :
    Style.ofSettings omittingTags = .ok { Style.standard with omitOptional := true } ∧
      scatteredTexts.Acyclic 0 ∧ (scatteredTexts.flatten 0).Nodup ∧
      scatteredTexts.Bare (scatteredTexts.flatten 0) ∧
      (∀ p ∈ scatteredTexts.flatten 0, ∀ i ∈ scatteredTexts.children p,
        scatteredTexts.parent i = some p) ∧
      stringify omittingTags scatteredTexts 0 = .ok "<script>a<b</script><li> &lt;c " ∧
      (scatteredTexts.normalize 0).children 1 = [2] ∧ (scatteredTexts.normalize 0).children 5 = [7] ∧
      stringify omittingTags (scatteredTexts.normalize 0) 0 =
        .ok "<script>a<b</script><li> &lt;c " ∧
      stringify omittingTags (scatteredTexts.normalize 0) 5 = .ok " &lt;c " := by
  have accepted : Style.ofSettings omittingTags =
      .ok { Style.standard with omitOptional := true } := rfl
  have once : (scatteredTexts.flatten 0).Nodup := by decide
  have bare : scatteredTexts.Bare (scatteredTexts.flatten 0) := by
    rw [Bare]
    decide
  have linked : ∀ p ∈ scatteredTexts.flatten 0, ∀ i ∈ scatteredTexts.children p,
      scatteredTexts.parent i = some p := by decide
  have same := fun root inside open_ => stringify_normalize omittingTags _ accepted rfl scatteredTexts 0
    scatteredTexts_acyclic once bare linked root 0 inside open_ (by decide)
  refine ⟨accepted, scatteredTexts_acyclic, once, bare, linked, rfl, by decide, by decide, ?_, ?_⟩
  · rw [same 0 (by decide) rfl]
    rfl
  · rw [same 5 (by decide) rfl]
    rfl

end Store

end HtmlTree
