import HtmlTree.Dom.Normalize
import HtmlTree.Proofs.Dom.Linked

/-! What one round of merging texts does to a list of children: its entries afterwards are those of
a plain walk over the list, in which an empty text is left out and a text behind another one is
added to it. -/

namespace HtmlTree

def Content.text? : Content → Option String
  | text value => some (value.getD "")
  | _ => none

/-- Takes up one more entry of a list; entries are kept last first. -/
def joinStep {α : Type} (kept : List (α × Content)) (entry : α × Content) : List (α × Content) :=
  match entry.2.text?, kept with
  | none, kept => entry :: kept
  | some value, [] => if value = "" then [] else [entry]
  | some value, last :: before =>
    if value = "" then last :: before
    else
      match last.2.text? with
      | none => entry :: last :: before
      | some first => (last.1, .text (some (first ++ value))) :: before

/-- The entries of a list with its runs of texts joined and empty texts left out. -/
def joinRuns {α : Type} (entries : List (α × Content)) : List (α × Content) :=
  (entries.foldl joinStep []).reverse

theorem joinStep_other {α : Type} (kept : List (α × Content)) (entry : α × Content)
    (other : entry.2.text? = none) : joinStep kept entry = entry :: kept := by
  cases kept <;> simp only [joinStep, other]

theorem joinStep_empty_text {α : Type} (kept : List (α × Content)) (entry : α × Content)
    (empty : entry.2.text? = some "") : joinStep kept entry = kept := by
  cases kept <;> simp only [joinStep, empty, if_true]

theorem joinStep_apart {α : Type} (kept : List (α × Content)) (entry : α × Content)
    (filled : entry.2.text? ≠ some "") (apart : ∀ last ∈ kept.head?, last.2.text? = none) :
    joinStep kept entry = entry :: kept := by
  cases text : entry.2.text? with
  | none => exact joinStep_other kept entry text
  | some value =>
      have nonempty : value ≠ "" := by
        rintro rfl
        exact filled text
      cases kept with
      | nil => simp only [joinStep, text, nonempty, if_false]
      | cons last before => simp only [joinStep, text, nonempty, if_false, apart last rfl]

theorem joinStep_map {α β : Type} (f : α → β) (kept : List (α × Content)) (entry : α × Content) :
    joinStep (kept.map (Prod.map f id)) (Prod.map f id entry) =
      (joinStep kept entry).map (Prod.map f id) := by
  cases kept with
  | nil =>
      simp only [joinStep, Prod.map, List.map_nil, id_eq]
      cases entry.2.text? with
      | none => rfl
      | some value =>
          simp only
          split <;> rfl
  | cons last before =>
      simp only [joinStep, Prod.map, List.map_cons, id_eq]
      cases entry.2.text? with
      | none => rfl
      | some value =>
          simp only
          split
          · rfl
          · cases last.2.text? <;> rfl

theorem joinRuns_map {α β : Type} (f : α → β) (entries : List (α × Content)) :
    joinRuns (entries.map (Prod.map f id)) = (joinRuns entries).map (Prod.map f id) := by
  have folded : ∀ kept : List (α × Content),
      (entries.map (Prod.map f id)).foldl joinStep (kept.map (Prod.map f id)) =
        (entries.foldl joinStep kept).map (Prod.map f id) := by
    induction entries with
    | nil => intro kept; rfl
    | cons entry rest ih =>
        intro kept
        rw [List.map_cons, List.foldl_cons, List.foldl_cons, joinStep_map]
        exact ih (joinStep kept entry)
  rw [joinRuns, joinRuns, List.map_reverse]
  exact congrArg List.reverse (folded [])

namespace Store

theorem isText_eq (s : Store) (i : NodeId) : s.isText i = (s.content i).text?.isSome := by
  unfold isText
  cases s.content i <;> rfl

theorem textValue_eq (s : Store) (i : NodeId) : s.textValue i = (s.content i).text?.getD "" := by
  unfold textValue
  cases s.content i <;> rfl

theorem lt_size_of_text (s : Store) (i : NodeId) (value : String)
    (text : (s.content i).text? = some value) : i < s.size := by
  apply Nat.lt_of_not_le
  intro outside
  rw [content, node_of_size_le s i outside] at text
  cases text

theorem isContainer_of_text (s : Store) (i : NodeId) (value : String)
    (text : (s.content i).text? = some value) : s.isContainer i = false := by
  unfold isContainer
  cases content : s.content i with
  | text _ => rfl
  | _ => rw [content] at text; cases text

def entry (s : Store) (i : NodeId) : NodeId × Content := (i, s.content i)

theorem entry_congr (s t : Store) (content : ∀ i, t.content i = s.content i) :
    t.entry = s.entry := by
  funext i
  rw [entry, entry, content]

/-- A round under way: which children of the list were looked at, and what came of them. -/
structure MergedSoFar (s : Store) (done : List NodeId) (m : Merge) : Prop where
  size : m.store.size = s.size
  entries : m.kept.map m.store.entry = (done.map s.entry).foldl joinStep []
  sublist : m.kept.reverse.Sublist done
  unmerged : ∀ i, i ∉ m.kept → m.store.content i = s.content i
  other : ∀ i, (s.content i).text? = none → m.store.content i = s.content i
  container : ∀ i, m.store.isContainer i = s.isContainer i
  children : ∀ i, m.store.children i = s.children i
  parent : ∀ i, m.store.parent i = if i ∈ done ∧ i ∉ m.kept then none else s.parent i
  below : m.below = (done.filter s.isContainer).reverse

namespace MergedSoFar

variable {s : Store} {done : List NodeId} {m : Merge} {c : NodeId}

theorem kept_subset (so : MergedSoFar s done m) (i : NodeId) (member : i ∈ m.kept) : i ∈ done :=
  so.sublist.subset (List.mem_reverse.mpr member)

theorem content (so : MergedSoFar s done m) (i : NodeId) (outside : i ∉ done) :
    m.store.content i = s.content i :=
  so.unmerged i fun member => outside (so.kept_subset i member)

theorem folded (so : MergedSoFar s done m) (c : NodeId) :
    ((done ++ [c]).map s.entry).foldl joinStep [] =
      joinStep (m.kept.map m.store.entry) (s.entry c) := by
  rw [List.map_append, List.foldl_append, ← so.entries]
  rfl

theorem filtered (so : MergedSoFar s done m) (c : NodeId) :
    ((done ++ [c]).filter s.isContainer).reverse =
      if s.isContainer c then c :: m.below else m.below := by
  rw [List.filter_append, List.reverse_append, ← so.below]
  cases container : s.isContainer c <;> simp [container]

theorem keep (so : MergedSoFar s done m) (fresh : c ∉ done)
    (joined : joinStep (m.kept.map m.store.entry) (s.entry c) =
      s.entry c :: m.kept.map m.store.entry) :
    MergedSoFar s (done ++ [c])
      ⟨m.store, c :: m.kept, if s.isContainer c then c :: m.below else m.below⟩ where
  size := so.size
  entries := by
    rw [so.folded c, joined, List.map_cons, entry, so.content c fresh]
    rfl
  sublist := by
    rw [List.reverse_cons]
    exact List.Sublist.append so.sublist (List.Sublist.refl [c])
  unmerged i outside := so.unmerged i fun member => outside (List.mem_cons_of_mem c member)
  other := so.other
  container := so.container
  children := so.children
  parent i := by
    rw [so.parent]
    by_cases here : i = c
    · subst here
      simp [fresh]
    · simp [here]
  below := (so.filtered c).symm

theorem drop (so : MergedSoFar s done m) (fresh : c ∉ done) (leaf : s.isContainer c = false)
    (t : Store) (size : t.size = s.size) (content : ∀ i, i ∉ m.kept → t.content i = m.store.content i)
    (other : ∀ i, (m.store.content i).text? = none → t.content i = m.store.content i)
    (container : ∀ i, t.isContainer i = s.isContainer i)
    (children : ∀ i, t.children i = s.children i)
    (parent : ∀ i, t.parent i = if i = c then none else m.store.parent i)
    (joined : joinStep (m.kept.map m.store.entry) (s.entry c) = m.kept.map t.entry) :
    MergedSoFar s (done ++ [c]) ⟨t, m.kept, m.below⟩ where
  size := size
  entries := by rw [so.folded c, joined]
  sublist := List.Sublist.trans so.sublist (List.sublist_append_left done [c])
  unmerged i outside := by rw [content i outside, so.unmerged i outside]
  other i notText := by
    have same := so.other i notText
    rw [← same] at notText ⊢
    exact other i notText
  container := container
  children := children
  parent i := by
    rw [parent, so.parent]
    by_cases here : i = c
    · subst here
      have unkept : i ∉ m.kept := fun member => fresh (so.kept_subset i member)
      simp [unkept]
    · simp [here]
  below := by
    rw [so.filtered c, leaf]
    rfl

theorem keep_other (so : MergedSoFar s done m) (fresh : c ∉ done)
    (other : (s.content c).text? = none) : MergedSoFar s (done ++ [c]) (mergeChild m c) := by
  have kept := so.keep fresh (joinStep_other _ (s.entry c) other)
  have notText : m.store.isText c = false := by
    rw [isText_eq, so.content c fresh, other]
    rfl
  simp only [mergeChild, notText, Bool.false_eq_true, if_false, so.container c]
  cases container : s.isContainer c with
  | false => simpa only [container, Bool.false_eq_true, if_false] using kept
  | true => simpa only [container, if_true] using kept

theorem keep_text (so : MergedSoFar s done m) (fresh : c ∉ done) (value : String)
    (text : (s.content c).text? = some value) (nonempty : value ≠ "")
    (first : ∀ last, m.kept.head? = some last → (m.store.content last).text? = none) :
    MergedSoFar s (done ++ [c]) (mergeChild m c) := by
  have leaf := isContainer_of_text s c value text
  have isText : m.store.isText c = true := by
    rw [isText_eq, so.content c fresh, text]
    rfl
  have read : m.store.textValue c = value := by
    rw [textValue_eq, so.content c fresh, text]
    rfl
  have joined : joinStep (m.kept.map m.store.entry) (s.entry c) =
      s.entry c :: m.kept.map m.store.entry := by
    apply joinStep_apart
    · change (s.content c).text? ≠ some ""
      rw [text]
      exact fun blank => nonempty (Option.some.inj blank)
    · intro last here
      rw [List.head?_map, Option.mem_def, Option.map_eq_some_iff] at here
      obtain ⟨i, top, rfl⟩ := here
      exact first i top
  have kept := so.keep fresh joined
  rw [leaf] at kept
  simp only [Bool.false_eq_true, if_false] at kept
  simp only [mergeChild, isText, if_true, read, nonempty, if_false]
  cases listed : m.kept with
  | nil => simpa only [listed] using kept
  | cons last before =>
      have other : m.store.isText last = false := by
        rw [isText_eq, first last (by rw [listed]; rfl)]
        rfl
      simpa only [listed, other, Bool.false_eq_true, if_false] using kept

theorem parent_detached (so : MergedSoFar s done m) (t : Store) (size : t.size = m.store.size)
    (parent : ∀ i, t.parent i = m.store.parent i) (known : c < s.size) (i : NodeId) :
    (t.setParent c none).parent i = if i = c then none else m.store.parent i := by
  rw [parent_setParent, size, so.size, parent]
  by_cases here : i = c
  · subst here
    rw [if_pos ⟨rfl, known⟩, if_pos rfl]
  · rw [if_neg (fun both => here both.1.symm), if_neg here]

theorem drop_empty (so : MergedSoFar s done m) (fresh : c ∉ done)
    (text : (s.content c).text? = some "") : MergedSoFar s (done ++ [c]) (mergeChild m c) := by
  have isText : m.store.isText c = true := by
    rw [isText_eq, so.content c fresh, text]
    rfl
  have read : m.store.textValue c = "" := by
    rw [textValue_eq, so.content c fresh, text]
    rfl
  simp only [mergeChild, isText, if_true, read]
  apply so.drop fresh (isContainer_of_text s c "" text)
  · rw [size_setParent, so.size]
  · intro i _
    exact content_setParent m.store c i none
  · intro i _
    exact content_setParent m.store c i none
  · intro i
    rw [isContainer, content_setParent]
    exact so.container i
  · intro i
    rw [children_setParent, so.children]
  · exact so.parent_detached m.store rfl (fun _ => rfl) (lt_size_of_text s c "" text)
  · rw [entry_congr _ _ (fun i => content_setParent m.store c i none)]
    exact joinStep_empty_text _ (s.entry c) text

theorem join_text (so : MergedSoFar s done m) (distinct : done.Nodup) (fresh : c ∉ done)
    (value prior : String) (last : NodeId) (before : List NodeId)
    (text : (s.content c).text? = some value) (nonempty : value ≠ "")
    (kept : m.kept = last :: before) (lastText : (m.store.content last).text? = some prior) :
    MergedSoFar s (done ++ [c]) (mergeChild m c) := by
  have isText : m.store.isText c = true := by
    rw [isText_eq, so.content c fresh, text]
    rfl
  have read : m.store.textValue c = value := by
    rw [textValue_eq, so.content c fresh, text]
    rfl
  have lastIsText : m.store.isText last = true := by
    rw [isText_eq, lastText]
    rfl
  have lastRead : m.store.textValue last = prior := by
    rw [textValue_eq, lastText]
    rfl
  have lastKnown := lt_size_of_text m.store last prior lastText
  have once : last ∉ before := by
    have keptOnce := List.nodup_reverse.mp (distinct.sublist so.sublist)
    rw [kept, List.nodup_cons] at keptOnce
    exact keptOnce.1
  simp only [mergeChild, isText, if_true, read, nonempty, if_false, kept, lastIsText, lastRead]
  rw [← kept]
  -- Only the last text that was kept changes, and a text it remains.
  apply so.drop fresh (isContainer_of_text s c value text)
  · rw [size_setParent, size_setContent, so.size]
  · intro i outside
    rw [content_setParent, content_setContent, if_neg]
    rintro ⟨rfl, _⟩
    exact outside (by rw [kept]; exact List.mem_cons_self)
  · intro i notText
    rw [content_setParent, content_setContent, if_neg]
    rintro ⟨rfl, _⟩
    rw [lastText] at notText
    cases notText
  · intro i
    rw [isContainer, content_setParent, content_setContent, ← so.container]
    split
    · next here =>
      rw [← here.1, isContainer_of_text m.store last prior lastText]
      rfl
    · rfl
  · intro i
    rw [children_setParent, children_setContent, so.children]
  · exact so.parent_detached _ (size_setContent _ _ _) (fun i => parent_setContent _ _ i _)
      (lt_size_of_text s c value text)
  · have others : before.map ((m.store.setContent last (.text (some (prior ++ value)))).setParent c
        none).entry = before.map m.store.entry := by
      apply List.map_congr_left
      intro i member
      have other : last ≠ i := by
        rintro rfl
        exact once member
      simp only [entry, content_setParent, content_setContent, other, false_and, if_false]
    rw [kept, List.map_cons, List.map_cons, others]
    simp only [joinStep, entry, text, lastText, nonempty, if_false, content_setParent,
      content_setContent, lastKnown, and_self, if_true]

theorem step (so : MergedSoFar s done m) (distinct : (done ++ [c]).Nodup) :
    MergedSoFar s (done ++ [c]) (mergeChild m c) := by
  rw [List.nodup_append_comm, List.singleton_append, List.nodup_cons] at distinct
  obtain ⟨fresh, distinct⟩ := distinct
  cases text : (s.content c).text? with
  | none => exact so.keep_other fresh text
  | some value =>
      by_cases blank : value = ""
      · subst blank
        exact so.drop_empty fresh text
      · cases kept : m.kept with
        | nil =>
            apply so.keep_text fresh value text blank
            intro last first
            rw [kept] at first
            cases first
        | cons last before =>
            cases prior : (m.store.content last).text? with
            | none =>
                apply so.keep_text fresh value text blank
                intro other first
                rw [kept] at first
                cases first
                exact prior
            | some joined =>
                exact so.join_text distinct fresh value joined last before text blank kept prior

theorem start (s : Store) : MergedSoFar s [] ⟨s, [], []⟩ where
  size := rfl
  entries := rfl
  sublist := List.Sublist.refl []
  unmerged _ _ := rfl
  other _ _ := rfl
  container _ := rfl
  children _ := rfl
  parent i := by simp
  below := rfl

theorem walk (rest : List NodeId) : ∀ {done : List NodeId} {m : Merge}, MergedSoFar s done m →
    (done ++ rest).Nodup → MergedSoFar s (done ++ rest) (rest.foldl mergeChild m) := by
  induction rest with
  | nil =>
      intro done m so _
      rw [List.append_nil]
      exact so
  | cons c rest ih =>
      intro done m so distinct
      rw [List.append_cons] at distinct ⊢
      exact ih (so.step distinct.of_append_left) distinct

end MergedSoFar

/-- A round at a node: its list keeps the texts that others were added to and all that is no text,
with the contents that joining gives. -/
structure Merged (s : Store) (i : NodeId) (m : Merge) : Prop where
  size : m.store.size = s.size
  entries : (m.store.children i).map m.store.entry = joinRuns ((s.children i).map s.entry)
  unmerged : ∀ j, j ∉ m.store.children i → m.store.content j = s.content j
  other : ∀ j, (s.content j).text? = none → m.store.content j = s.content j
  container : ∀ j, m.store.isContainer j = s.isContainer j
  pruned : Pruned s m.store i (m.store.children i)
  below : m.below = ((s.children i).filter s.isContainer).reverse

theorem merged_mergeChildren (s : Store) (i : NodeId) (distinct : (s.children i).Nodup) :
    Merged s i (s.mergeChildren i) := by
  have so := MergedSoFar.walk (s.children i) (MergedSoFar.start s) distinct
  rw [List.nil_append] at so
  rw [mergeChildren]
  generalize (s.children i).foldl mergeChild ⟨s, [], []⟩ = m at so ⊢
  have listed : ∀ j, (m.store.setChildren i m.kept.reverse).children j =
      if j = i then m.kept.reverse else s.children j := by
    intro j
    rw [children_setChildren, so.children]
    by_cases here : j = i
    · subst here
      rw [if_pos rfl]
      split
      · rfl
      · next outside =>
        have none : s.children j = [] := by
          rw [List.eq_nil_iff_forall_not_mem]
          intro c member
          exact outside ⟨rfl, by rw [so.size]; exact lt_size_of_mem_children s j c member⟩
        have sublist := so.sublist
        rw [none, List.sublist_nil] at sublist
        rw [none, sublist]
    · rw [if_neg (fun both => here both.1.symm), if_neg here]
  refine ⟨?_, ?_, ?_, ?_, ?_, ⟨?_, ?_, ?_⟩, so.below⟩
  · rw [size_setChildren, so.size]
  · rw [listed, if_pos rfl, List.map_reverse, joinRuns, ← so.entries,
      entry_congr _ _ (fun j => content_setChildren m.store i j _)]
  · intro j outside
    rw [listed, if_pos rfl, List.mem_reverse] at outside
    rw [content_setChildren]
    exact so.unmerged j outside
  · intro j notText
    rw [content_setChildren]
    exact so.other j notText
  · intro j
    rw [isContainer, content_setChildren]
    exact so.container j
  · rw [listed, if_pos rfl]
    exact so.sublist
  · intro j
    rw [listed, listed, if_pos rfl]
  · intro j
    rw [parent_setChildren, so.parent, listed, if_pos rfl]
    simp only [List.mem_reverse]

theorem WellLinked.mergeChildren {s : Store} (linked : s.WellLinked) (i : NodeId) :
    (s.mergeChildren i).store.WellLinked :=
  linked.prune (merged_mergeChildren s i (linked.nodup_children i)).pruned

theorem WellLinked.normalizeLoop {s : Store} (linked : s.WellLinked) (fuel : Nat)
    (pending : List NodeId) : (Store.normalizeLoop fuel s pending).WellLinked := by
  induction fuel generalizing s pending with
  | zero => exact linked
  | succ fuel ih =>
      cases pending with
      | nil => exact linked
      | cons i pending => exact ih (linked.mergeChildren i) _

theorem WellLinked.normalize {s : Store} (linked : s.WellLinked) (i : NodeId) :
    (s.normalize i).WellLinked := by
  rw [Store.normalize]
  split
  · exact linked.normalizeLoop _ _
  · exact linked

end Store

end HtmlTree
