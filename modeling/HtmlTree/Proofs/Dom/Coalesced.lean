import HtmlTree.Proofs.Dom.Conversion
import HtmlTree.Proofs.Dom.Preorder
import Mathlib.Data.List.SplitBy

/-! What merging texts does at a node and below it, said list by list: empty texts go, and of each run
of texts that are then next to each other the first stays, with the values of all. Nothing else is
touched, and merging a second time finds nothing to do. -/

namespace HtmlTree

theorem Content.isText_eq (c : Content) : c.isText = c.text?.isSome := by
  cases c <;> rfl

section Lists

variable {α : Type}

def joinGroup : List (α × Content) → Option (α × Content)
  | [] => none
  | first :: others =>
    if first.2.isText then
      some (first.1, .text (some (String.join ((first :: others).map fun e => e.2.text?.getD ""))))
    else some first

/-- The entries of a list without the empty texts, and each run of texts that are then next to each
other as one entry. -/
def coalesce (entries : List (α × Content)) : List (α × Content) :=
  ((entries.filter fun e => e.2.text? ≠ some "").splitBy fun a b =>
    a.2.isText && b.2.isText).filterMap joinGroup

theorem joinGroup_single (entry : α × Content) (filled : entry.2.text? ≠ some "") :
    joinGroup [entry] = some entry := by
  obtain ⟨label, content⟩ := entry
  cases content with
  | text value =>
      cases value with
      | none => exact absurd rfl filled
      | some value => simp [joinGroup, Content.isText, Content.text?]
  | _ => rfl

theorem joinGroup_concat (group : List (α × Content)) (entry joined : α × Content)
    (first value : String) (found : joinGroup group = some joined)
    (text : joined.2.text? = some first) (more : entry.2.text? = some value) :
    joinGroup (group ++ [entry]) = some (joined.1, .text (some (first ++ value))) := by
  cases group with
  | nil => cases found
  | cons head others =>
      rw [joinGroup] at found
      rw [List.cons_append, joinGroup]
      cases isText : head.2.isText with
      | false =>
          rw [isText, if_neg Bool.false_ne_true] at found
          cases found
          rw [Content.isText_eq, text] at isText
          cases isText
      | true =>
          rw [isText, if_pos rfl] at found
          cases found
          cases text
          simp [more, String.append_assoc]

theorem joinStep_text (last entry : α × Content) (kept : List (α × Content)) (first value : String)
    (text : last.2.text? = some first) (more : entry.2.text? = some value) (filled : value ≠ "") :
    joinStep (last :: kept) entry = (last.1, .text (some (first ++ value))) :: kept := by
  simp only [joinStep, more, filled, if_false, text]

theorem joinStep_next (last entry : α × Content) (kept : List (α × Content))
    (filled : entry.2.text? ≠ some "") (apart : (last.2.isText && entry.2.isText) = false) :
    joinStep (last :: kept) entry = entry :: last :: kept := by
  cases entryText : entry.2.isText with
  | false =>
      apply joinStep_other
      rw [Content.isText_eq] at entryText
      simpa using entryText
  | true =>
      apply joinStep_apart _ entry filled
      rintro other ⟨⟩
      rw [entryText, Bool.and_true, Content.isText_eq] at apart
      simpa using apart

theorem foldl_joinStep_loop (entries : List (α × Content))
    (filled : ∀ e ∈ entries, e.2.text? ≠ some "") :
    ∀ (last joined : α × Content) (group : List (α × Content)) (groups : List (List (α × Content))),
      joinGroup (last :: group).reverse = some joined →
      joined.2.isText = last.2.isText → (last.2.isText = false → group = []) →
      (entries.foldl joinStep (joined :: groups.filterMap joinGroup)).reverse =
        (List.splitBy.loop (fun a b => a.2.isText && b.2.isText) entries last group groups).filterMap
          joinGroup := by
  -- The group in progress is kept joined; both loops close it at the same entry.
  induction entries with
  | nil =>
      intro last joined group groups found _ _
      rw [List.splitBy.loop, List.filterMap_reverse, List.filterMap_cons, found, List.foldl_nil]
  | cons entry entries ih =>
      intro last joined group groups found kind alone
      obtain ⟨here, rest⟩ := List.forall_mem_cons.mp filled
      rw [List.foldl_cons, List.splitBy.loop]
      cases both : last.2.isText && entry.2.isText with
      | true =>
          obtain ⟨lastText, entryText⟩ := Bool.and_eq_true_iff.mp both
          rw [← kind, Content.isText_eq, Option.isSome_iff_exists] at lastText
          rw [Content.isText_eq, Option.isSome_iff_exists] at entryText
          obtain ⟨first, text⟩ := lastText
          obtain ⟨value, more⟩ := entryText
          have nonempty : value ≠ "" := by
            rintro rfl
            exact here more
          rw [joinStep_text joined entry _ first value text more nonempty]
          apply ih rest
          · rw [List.reverse_cons]
            exact joinGroup_concat _ entry joined first value found text more
          · rw [Content.isText_eq entry.2, more]
            rfl
          · intro notText
            rw [Content.isText_eq, more] at notText
            cases notText
      | false =>
          rw [← kind] at both
          have before : joined :: groups.filterMap joinGroup =
              ((last :: group).reverse :: groups).filterMap joinGroup := by
            rw [List.filterMap_cons, found]
          rw [joinStep_next joined entry _ here both, before]
          exact ih rest entry entry [] _ (joinGroup_single entry here) rfl fun _ => rfl

/-- Joining entry by entry gives what joining run by run gives. -/
theorem joinRuns_eq_coalesce (entries : List (α × Content)) : joinRuns entries = coalesce entries := by
  have skipped : entries.foldl joinStep [] =
      (entries.filter fun e => e.2.text? ≠ some "").foldl joinStep [] := by
    rw [List.foldl_filter]
    congr 1
    funext kept e
    split
    · rfl
    · next empty => exact joinStep_empty_text kept e (by simpa using empty)
  have filled : ∀ e ∈ entries.filter fun e => e.2.text? ≠ some "", e.2.text? ≠ some "" := by
    intro e member
    simpa using (List.mem_filter.mp member).2
  rw [joinRuns, coalesce, skipped]
  cases first : entries.filter fun e => e.2.text? ≠ some "" with
  | nil => rfl
  | cons entry rest =>
      rw [first, List.forall_mem_cons] at filled
      rw [List.foldl_cons, joinStep_apart [] entry filled.1 (by simp)]
      exact foldl_joinStep_loop rest filled.2 entry entry [] [] (joinGroup_single entry filled.1) rfl
        fun _ => rfl

theorem mem_joinRuns (entries : List (α × Content)) (e : α × Content) (member : e ∈ entries)
    (other : e.2.text? = none) : e ∈ joinRuns entries := by
  have stays : ∀ kept entry, e ∈ kept → e ∈ joinStep kept entry := by
    intro kept entry inside
    unfold joinStep
    split
    · exact List.mem_cons_of_mem entry inside
    · cases inside
    · next last before _ =>
      split
      · exact inside
      · split
        · exact List.mem_cons_of_mem entry inside
        · next text =>
          rcases List.mem_cons.mp inside with rfl | earlier
          · rw [other] at text
            cases text
          · exact List.mem_cons_of_mem _ earlier
  have folded : ∀ kept : List (α × Content), e ∈ entries ∨ e ∈ kept →
      e ∈ entries.foldl joinStep kept := by
    clear member
    induction entries with
    | nil => exact fun kept inside => inside.resolve_left List.not_mem_nil
    | cons entry rest ih =>
        intro kept inside
        apply ih
        rcases inside with inside | inside
        · rcases List.mem_cons.mp inside with rfl | later
          · rw [joinStep_other kept e other]
            exact Or.inr List.mem_cons_self
          · exact Or.inl later
        · exact Or.inr (stays kept entry inside)
  rw [joinRuns, List.mem_reverse]
  exact folded [] (Or.inl member)

end Lists

namespace Store

/-- The second store is the first one with the texts merged in every list at and below a node. -/
structure Coalesced (s t : Store) (n : NodeId) : Prop where
  lists : ∀ p ∈ s.flatten n, (t.children p).map t.entry = coalesce ((s.children p).map s.entry)
  /-- Only texts are dropped. -/
  dropped : ∀ p c, c ∈ s.children p → c ∉ t.children p → s.isText c = true
  /-- What is dropped is detached, and all else has the parent it had. -/
  parents : ∀ c, t.parent c =
    if ∃ p ∈ s.flatten n, c ∈ s.children p ∧ c ∉ t.children p then none else s.parent c
  /-- What is no text that stays in one of the lists has the data it had. -/
  contents : ∀ c, (s.isText c = true → ∀ p ∈ s.flatten n, c ∉ t.children p) → t.content c = s.content c
  outside : ∀ c, c ∉ s.flatten n → t.node c = s.node c
  size : t.size = s.size

theorem Normalized.coalesced {s t : Store} {n : NodeId} (normalized : Normalized s t (s.flatten n))
    (bare : s.Bare (s.flatten n)) (closed : ∀ p ∈ s.flatten n, ∀ c ∈ s.children p, c ∈ s.flatten n) :
    Coalesced s t n := by
  have lists : ∀ p ∈ s.flatten n,
      (t.children p).map t.entry = joinRuns ((s.children p).map s.entry) := by
    intro p inside
    cases open_ : s.isContainer p with
    | true => exact normalized.entries p inside open_
    | false =>
        have empty := normalized.sublist p
        rw [bare p inside open_, List.sublist_nil] at empty
        rw [empty, bare p inside open_]
        rfl
  refine ⟨?_, ?_, normalized.parent, ?_, ?_, normalized.size⟩
  · intro p inside
    rw [lists p inside, joinRuns_eq_coalesce]
  · intro p c listed gone
    by_contra notText
    rw [isText_eq, Bool.not_eq_true, Option.isSome_eq_false_iff, Option.isNone_iff_eq_none] at notText
    by_cases inside : p ∈ s.flatten n
    · have kept := mem_joinRuns _ (s.entry c) (List.mem_map_of_mem listed) notText
      rw [← lists p inside] at kept
      obtain ⟨d, member, same⟩ := List.mem_map.mp kept
      cases (Prod.mk.inj same).1
      exact gone member
    · rw [normalized.children p fun member => absurd member inside] at gone
      exact gone listed
  · intro c still
    cases text : (s.content c).text? with
    | none => exact normalized.other c text
    | some value =>
        apply normalized.unmerged
        apply still
        rw [isText_eq, text]
        rfl
  · intro c away
    have unlisted : ∀ p ∈ s.flatten n, c ∉ s.children p :=
      fun p inside listed => away (closed p inside c listed)
    apply node_eq (normalized.content c unlisted)
    · rw [normalized.parent, if_neg]
      rintro ⟨p, inside, listed, _⟩
      exact unlisted p inside listed
    · exact normalized.children c fun inside => absurd inside away

theorem setChildren_self (s : Store) (i : NodeId) : s.setChildren i (s.children i) = s := by
  have nodes : (s.setChildren i (s.children i)).nodes = s.nodes := by
    apply Array.ext
    · exact size_setChildren s i _
    · intro j bound bound'
      have here : s.node j = s.nodes[j] := by
        rw [node, Array.getElem?_eq_getElem bound', Option.getD_some]
      have there : (s.setChildren i (s.children i)).node j =
          (s.setChildren i (s.children i)).nodes[j] := by
        rw [node, Array.getElem?_eq_getElem bound, Option.getD_some]
      rw [← here, ← there, setChildren, node_modify]
      split
      · next same =>
        rw [same.1]
        rfl
      · rfl
  cases s
  exact congrArg Store.mk nodes

theorem exists_mergeChild_eq (s : Store) (kept below : List NodeId) (c : NodeId)
    (filled : (s.content c).text? ≠ some "")
    (apart : ∀ last ∈ kept.head?, (s.content last).text? = none ∨ (s.content c).text? = none) :
    ∃ below', mergeChild ⟨s, kept, below⟩ c = ⟨s, c :: kept, below'⟩ := by
  rw [mergeChild]
  cases text : (s.content c).text? with
  | none =>
      have notText : s.isText c = false := by rw [isText_eq, text]; rfl
      simp only [notText, Bool.false_eq_true, if_false]
      split
      · exact ⟨_, rfl⟩
      · exact ⟨_, rfl⟩
  | some value =>
      have isText : s.isText c = true := by rw [isText_eq, text]; rfl
      have nonempty : s.textValue c ≠ "" := by
        rw [textValue_eq, text]
        rintro rfl
        exact filled text
      simp only [isText, if_true, nonempty, if_false]
      cases kept with
      | nil => exact ⟨_, rfl⟩
      | cons last before =>
          have other : s.isText last = false := by
            rcases apart last rfl with absent | absent
            · rw [isText_eq, absent]
              rfl
            · rw [text] at absent
              cases absent
          simp only [other, Bool.false_eq_true, if_false]
          exact ⟨_, rfl⟩

theorem foldl_mergeChild_of_tidy (s : Store) (rest : List NodeId) : ∀ kept below : List NodeId,
    Tidy ((kept.reverse ++ rest).map s.entry) →
      (rest.foldl mergeChild ⟨s, kept, below⟩).store = s ∧
        (rest.foldl mergeChild ⟨s, kept, below⟩).kept = rest.reverse ++ kept := by
  induction rest with
  | nil => exact fun _ _ _ => ⟨rfl, rfl⟩
  | cons c rest ih =>
      intro kept below tidy
      obtain ⟨filled, chain⟩ := tidy
      have apart : ∀ last ∈ kept.head?,
          (s.content last).text? = none ∨ (s.content c).text? = none := by
        rw [List.map_append, List.isChain_append] at chain
        intro last top
        apply chain.2.2 (s.entry last) _ (s.entry c) rfl
        rw [List.map_reverse, List.getLast?_reverse, List.head?_map]
        exact Option.mem_map_of_mem s.entry top
      obtain ⟨below', step⟩ := s.exists_mergeChild_eq kept below c
        (filled (s.entry c) (List.mem_map_of_mem (by simp))) apart
      have onward := ih (c :: kept) below' (by
        rw [List.reverse_cons, List.append_assoc]
        exact ⟨filled, chain⟩)
      rw [List.foldl_cons, step, List.reverse_cons, List.append_assoc]
      exact onward

theorem mergeChildren_of_tidy (s : Store) (i : NodeId) (tidy : Tidy ((s.children i).map s.entry)) :
    (s.mergeChildren i).store = s := by
  obtain ⟨same, kept⟩ := s.foldl_mergeChild_of_tidy (s.children i) [] [] tidy
  rw [mergeChildren]
  simp only [same, kept, List.append_nil, List.reverse_reverse]
  exact s.setChildren_self i

theorem normalizeLoop_of_tidy (s : Store) (region : List NodeId)
    (tidy : ∀ p ∈ region, Tidy ((s.children p).map s.entry))
    (closed : ∀ p ∈ region, ∀ c ∈ s.children p, c ∈ region)
    (distinct : ∀ p ∈ region, (s.children p).Nodup) (fuel : Nat) :
    ∀ pending : List NodeId, (∀ i ∈ pending, i ∈ region) → normalizeLoop fuel s pending = s := by
  induction fuel with
  | zero => exact fun _ _ => rfl
  | succ fuel ih =>
      intro pending inside
      cases pending with
      | nil => rfl
      | cons i pending =>
          obtain ⟨here, rest⟩ := List.forall_mem_cons.mp inside
          rw [normalizeLoop, normalizeStep]
          simp only [s.mergeChildren_of_tidy i (tidy i here)]
          apply ih
          rw [(merged_mergeChildren s i (distinct i here)).below, List.forall_mem_append]
          refine ⟨?_, rest⟩
          intro c member
          exact closed i here c (List.mem_filter.mp (List.mem_reverse.mp member)).1

/-- In trees in which no node is listed twice and leaves list nothing, merging at a node gives every
list at and below it in its joined form, drops and detaches empty texts and those that others have
taken up, and leaves all else alone. No empty texts and no neighbouring texts remain, and a second
time nothing changes. -/
theorem coalesced_normalize (s : Store) (n : NodeId) (acyclic : s.Acyclic n)
    (once : (s.flatten n).Nodup) (bare : s.Bare (s.flatten n)) :
    Coalesced s (s.normalize n) n ∧
      (∀ p ∈ (s.normalize n).flatten n,
        Tidy (((s.normalize n).children p).map (s.normalize n).entry)) ∧
      (s.normalize n).normalize n = s.normalize n := by
  obtain ⟨f, tops, unfolded⟩ := s.exists_unfolds n acyclic
  have region := unfolded.flatten_eq n tops
  have whole : s.Unfolds (.cons n f .nil) := ⟨tops, unfolded, trivial⟩
  have labels : (Forest.cons n f .nil).labels = s.flatten n := by
    rw [region, Forest.labels_single]
  have closed : ∀ p ∈ s.flatten n, ∀ c ∈ s.children p, c ∈ s.flatten n := by
    rw [← labels]
    exact fun p inside c listed => whole.children_subset p c inside listed
  have normalized : Normalized s (s.normalize n) (s.flatten n) := by
    rw [region] at once bare ⊢
    exact normalized_normalize s n f unfolded tops once bare
  have tidy : ∀ p ∈ s.flatten n, Tidy (((s.normalize n).children p).map (s.normalize n).entry) := by
    intro p inside
    rw [(normalized.coalesced bare closed).lists p inside, ← joinRuns_eq_coalesce]
    exact tidy_joinRuns _
  refine ⟨normalized.coalesced bare closed, ?_, ?_⟩
  · intro p inside
    obtain ⟨g, listed, grown, sublist, _⟩ := normalized.exists_below (.cons n f .nil) whole
      (fun i member => by rw [← labels]; exact member) (by rw [labels]; exact bare) (n, f)
      List.mem_cons_self
    rw [grown.flatten_eq n listed] at inside
    apply tidy
    rw [region]
    exact (sublist.cons_cons n).subset inside
  · rw [normalize]
    split
    · apply normalizeLoop_of_tidy _ (s.flatten n) tidy
      · exact fun p inside c kept => closed p inside c ((normalized.sublist p).subset kept)
      · intro p inside
        have distinct : (s.children p).Nodup := by
          rw [← labels] at once inside
          exact whole.nodup_children once p inside
        exact distinct.sublist (normalized.sublist p)
      · intro i top
        rw [List.mem_singleton.mp top, region]
        exact List.mem_cons_self
    · rfl

def brokenTexts : Store where
  nodes := #[
    ⟨.fragment, none, [1, 2, 3, 4, 10, 11]⟩, ⟨.text (some "a"), some 0, []⟩,
    ⟨.text none, some 0, []⟩, ⟨.text (some "b"), some 0, []⟩,
    ⟨.element "p" none [⟨"k", "v"⟩], some 0, [5, 6, 7, 8, 9]⟩, ⟨.text (some ""), some 4, []⟩,
    ⟨.text (some "c"), none, []⟩, ⟨.comment "", some 4, []⟩, ⟨.text (some "d"), some 4, []⟩,
    ⟨.text (some "e"), some 4, []⟩, ⟨.text (some ""), some 0, []⟩, ⟨.text (some "f"), some 0, []⟩,
    ⟨.text (some "g"), none, []⟩]

theorem brokenTexts_acyclic : brokenTexts.Acyclic 0 := by
  have unfolded : brokenTexts.Unfolds (.cons 0 (.cons 1 .nil (.cons 2 .nil (.cons 3 .nil (.cons 4
      (.cons 5 .nil (.cons 6 .nil (.cons 7 .nil (.cons 8 .nil (.cons 9 .nil .nil)))))
      (.cons 10 .nil (.cons 11 .nil .nil)))))) .nil) := by
    simp [brokenTexts, Unfolds, children, node, Forest.tops]
  exact unfolded.acyclic 0 List.mem_cons_self

theorem coalesced_brokenTexts :
    brokenTexts.Acyclic 0 ∧ (brokenTexts.flatten 0).Nodup ∧ brokenTexts.Bare (brokenTexts.flatten 0) ∧
      Coalesced brokenTexts (brokenTexts.normalize 0) 0 ∧
      ((brokenTexts.normalize 0).children 0).map (brokenTexts.normalize 0).entry =
        [(1, .text (some "ab")), (4, .element "p" none [⟨"k", "v"⟩]), (11, .text (some "f"))] ∧
      ((brokenTexts.normalize 0).children 4).map (brokenTexts.normalize 0).entry =
        [(6, .text (some "c")), (7, .comment ""), (8, .text (some "de"))] := by
  have once : (brokenTexts.flatten 0).Nodup := by decide
  have bare : brokenTexts.Bare (brokenTexts.flatten 0) := by
    rw [Bare]
    decide
  obtain ⟨coalesced, _, _⟩ := coalesced_normalize brokenTexts 0 brokenTexts_acyclic once bare
  refine ⟨brokenTexts_acyclic, once, bare, coalesced, ?_, ?_⟩
  · rw [coalesced.lists 0 (by decide)]
    decide
  · rw [coalesced.lists 4 (by decide)]
    decide

end Store

end HtmlTree
