import HtmlTree.Proofs.Dom.Merging
import HtmlTree.Proofs.Dom.Trees
import Mathlib.Data.List.Chain
import Mathlib.Data.List.Flatten

/-! Merging texts at a node and everywhere below it. The rounds do not disturb each other: the
outcome is that of one round at each container, and the trees become those in which every run of
texts is one text. -/

namespace HtmlTree

/-- No text is empty and none follows another. -/
def Tidy {α : Type} (entries : List (α × Content)) : Prop :=
  (∀ e ∈ entries, e.2.text? ≠ some "") ∧
    entries.IsChain fun a b => a.2.text? = none ∨ b.2.text? = none

theorem Tidy.cons {α : Type} {kept : List (α × Content)} (tidy : Tidy kept) (entry : α × Content)
    (filled : entry.2.text? ≠ some "")
    (apart : ∀ last ∈ kept.head?, entry.2.text? = none ∨ last.2.text? = none) :
    Tidy (entry :: kept) :=
  ⟨List.forall_mem_cons.mpr ⟨filled, tidy.1⟩, tidy.2.cons apart⟩

theorem Tidy.retext {α : Type} {last : α × Content} {before : List (α × Content)} {prior : String}
    (tidy : Tidy (last :: before)) (text : last.2.text? = some prior) (label : α) (value : String)
    (nonempty : value ≠ "") : Tidy ((label, .text (some value)) :: before) := by
  have rest : Tidy before := ⟨(List.forall_mem_cons.mp tidy.1).2, tidy.2.tail⟩
  apply rest.cons
  · exact fun blank => nonempty (Option.some.inj blank)
  · intro second first
    rcases tidy.2.rel_head? first with absent | absent
    · rw [text] at absent
      cases absent
    · exact Or.inr absent

theorem tidy_joinStep {α : Type} (kept : List (α × Content)) (entry : α × Content)
    (tidy : Tidy kept) : Tidy (joinStep kept entry) := by
  by_cases blank : entry.2.text? = some ""
  · rw [joinStep_empty_text kept entry blank]
    exact tidy
  by_cases apart : ∀ last ∈ kept.head?, entry.2.text? = none ∨ last.2.text? = none
  · have joined : joinStep kept entry = entry :: kept := by
      cases text : entry.2.text? with
      | none => exact joinStep_other kept entry text
      | some value =>
          apply joinStep_apart kept entry blank
          intro last first
          rcases apart last first with absent | absent
          · rw [text] at absent
            cases absent
          · exact absent
    rw [joined]
    exact tidy.cons entry blank apart
  · push Not at apart
    obtain ⟨last, first, texts⟩ := apart
    obtain ⟨value, text⟩ := Option.ne_none_iff_exists'.mp texts.1
    obtain ⟨prior, before⟩ := Option.ne_none_iff_exists'.mp texts.2
    cases kept with
    | nil => cases first
    | cons top others =>
        cases first
        have filled : value ≠ "" := by
          rintro rfl
          exact blank text
        simp only [joinStep, text, filled, if_false, before]
        apply tidy.retext before
        rw [Ne, String.append_eq_empty_iff]
        exact fun both => filled both.2

theorem tidy_joinRuns {α : Type} (entries : List (α × Content)) : Tidy (joinRuns entries) := by
  have folded : ∀ kept : List (α × Content), Tidy kept → Tidy (entries.foldl joinStep kept) := by
    induction entries with
    | nil => exact fun _ tidy => tidy
    | cons entry rest ih => exact fun kept tidy => ih _ (tidy_joinStep kept entry tidy)
  obtain ⟨filled, chain⟩ := folded [] ⟨List.forall_mem_nil _, List.IsChain.nil⟩
  refine ⟨fun e member => filled e (List.mem_reverse.mp member), ?_⟩
  rw [joinRuns, List.isChain_reverse]
  exact chain.imp fun _ _ => Or.symm

theorem joinStep_sublist {α : Type} (kept : List (α × Content)) (entry : α × Content) :
    ((joinStep kept entry).map (·.1)).Sublist (entry.1 :: kept.map (·.1)) := by
  unfold joinStep
  split
  · exact List.Sublist.refl _
  · split
    · exact List.nil_sublist _
    · exact List.Sublist.refl _
  · split
    · exact List.sublist_cons_self _ _
    · split
      · exact List.Sublist.refl _
      · exact List.sublist_cons_self _ _

theorem joinRuns_sublist {α : Type} (entries : List (α × Content)) :
    ((joinRuns entries).map (·.1)).Sublist (entries.map (·.1)) := by
  have folded : ∀ kept : List (α × Content),
      ((entries.foldl joinStep kept).map (·.1)).Sublist
        ((entries.map (·.1)).reverse ++ kept.map (·.1)) := by
    induction entries with
    | nil => exact fun kept => List.Sublist.refl _
    | cons entry rest ih =>
        intro kept
        rw [List.foldl_cons, List.map_cons, List.reverse_cons, List.append_assoc]
        exact (ih _).trans ((List.Sublist.refl _).append (joinStep_sublist kept entry))
  have all := (folded []).reverse
  rw [List.map_nil, List.append_nil, List.reverse_reverse] at all
  rw [joinRuns, List.map_reverse]
  exact all

namespace Forest

def normalTops : Forest Content → List (Forest Content × Content)
  | nil => []
  | cons c below rest =>
    (ofTrees ((joinRuns below.normalTops).map Prod.swap), c) :: rest.normalTops

def normal (f : Forest Content) : Forest Content :=
  ofTrees ((joinRuns f.normalTops).map Prod.swap)

theorem normalTops_eq (f : Forest Content) :
    f.normalTops = f.trees.map fun u => (u.2.normal, u.1) := by
  induction f with
  | nil => rfl
  | cons c below rest _ ih =>
      rw [normalTops, trees, List.map_cons, ih]
      rfl

theorem trees_map {α β : Type} (g : α → β) (f : Forest α) :
    (f.map g).trees = f.trees.map fun u => (g u.1, u.2.map g) := by
  induction f with
  | nil => rfl
  | cons a below rest _ ih => rw [map, trees, trees, List.map_cons, ih]

end Forest

namespace Store

/-- The first store with the texts merged in the list of every container of a region. -/
structure Normalized (s t : Store) (region : List NodeId) : Prop where
  size : t.size = s.size
  entries : ∀ p ∈ region, s.isContainer p = true →
    (t.children p).map t.entry = joinRuns ((s.children p).map s.entry)
  sublist : ∀ p, (t.children p).Sublist (s.children p)
  children : ∀ p, (p ∈ region → s.isContainer p = false) → t.children p = s.children p
  unmerged : ∀ j, (∀ p ∈ region, j ∉ t.children p) → t.content j = s.content j
  other : ∀ j, (s.content j).text? = none → t.content j = s.content j
  container : ∀ j, t.isContainer j = s.isContainer j
  parent : ∀ c, t.parent c =
    if ∃ p ∈ region, c ∈ s.children p ∧ c ∉ t.children p then none else s.parent c

theorem normalized_refl (s : Store) : Normalized s s [] where
  size := rfl
  entries p absurd := nomatch absurd
  sublist _ := List.Sublist.refl _
  children _ _ := rfl
  unmerged _ _ := rfl
  other _ _ := rfl
  container _ := rfl
  parent c := by rw [if_neg]; rintro ⟨p, absurd, _⟩; cases absurd

theorem Normalized.content {s t : Store} {region : List NodeId} (normalized : Normalized s t region)
    (j : NodeId) (outside : ∀ p ∈ region, j ∉ s.children p) : t.content j = s.content j :=
  normalized.unmerged j fun p inside kept => outside p inside ((normalized.sublist p).subset kept)

def Unshared (s : Store) (region : List NodeId) : Prop :=
  ∀ p ∈ region, ∀ q ∈ region, ∀ c, c ∈ s.children p → c ∈ s.children q → p = q

section Regions

variable {s t u : Store} {early later region : List NodeId}

theorem Normalized.children_of_notMem (normalized : Normalized s t region) {p : NodeId}
    (outside : p ∉ region) : t.children p = s.children p :=
  normalized.children p fun member => absurd member outside

theorem Normalized.map_entry (normalized : Normalized s t region) {cs : List NodeId}
    (apart : ∀ q ∈ region, cs.Disjoint (s.children q)) : cs.map t.entry = cs.map s.entry := by
  apply List.map_congr_left
  intro c listed
  rw [entry, entry, normalized.content c fun q member also => apart q member listed also]

theorem Normalized.dropped_iff (first : Normalized s t early) (second : Normalized t u later)
    (fresh : early.Disjoint later) (c : NodeId) :
    (∃ p ∈ early ++ later, c ∈ s.children p ∧ c ∉ u.children p) ↔
      (∃ p ∈ early, c ∈ s.children p ∧ c ∉ t.children p) ∨
        ∃ p ∈ later, c ∈ t.children p ∧ c ∉ u.children p := by
  have before : ∀ p ∈ early, u.children p = t.children p :=
    fun p member => second.children_of_notMem fun also => fresh member also
  have after : ∀ p ∈ later, t.children p = s.children p :=
    fun p member => first.children_of_notMem fun also => fresh also member
  constructor
  · rintro ⟨p, member, listed, gone⟩
    rcases List.mem_append.mp member with here | there
    · exact Or.inl ⟨p, here, listed, before p here ▸ gone⟩
    · exact Or.inr ⟨p, there, (after p there).symm ▸ listed, gone⟩
  · rintro (⟨p, here, listed, gone⟩ | ⟨p, there, listed, gone⟩)
    · exact ⟨p, List.mem_append_left _ here, listed, (before p here).symm ▸ gone⟩
    · exact ⟨p, List.mem_append_right _ there, after p there ▸ listed, gone⟩

theorem Normalized.trans (first : Normalized s t early) (second : Normalized t u later)
    (unshared : s.Unshared (early ++ later)) (fresh : early.Disjoint later) :
    Normalized s u (early ++ later) := by
  have apart : ∀ p ∈ early, ∀ q ∈ later, (s.children p).Disjoint (s.children q) := by
    intro p here q there c byP byQ
    have same := unshared p (List.mem_append_left _ here) q (List.mem_append_right _ there) c byP byQ
    exact fresh here (same ▸ there)
  refine ⟨second.size.trans first.size, ?entries, fun p => (second.sublist p).trans (first.sublist p),
    ?children, ?unmerged, ?other, fun j => (second.container j).trans (first.container j), ?parent⟩
  case entries =>
    intro p member open_
    rcases List.mem_append.mp member with here | there
    · rw [second.children_of_notMem fun also => fresh here also, second.map_entry,
        first.entries p here open_]
      exact fun q member c byP byQ =>
        apart p here q member ((first.sublist p).subset byP) ((first.sublist q).subset byQ)
    · rw [second.entries p there (by rw [first.container]; exact open_),
        first.children_of_notMem fun also => fresh also there, first.map_entry]
      exact fun q member => (apart q member p there).symm
  case children =>
    intro p closed
    rw [second.children, first.children]
    · exact fun member => closed (List.mem_append_left _ member)
    · intro member
      rw [first.container]
      exact closed (List.mem_append_right _ member)
  case unmerged =>
    intro j outside
    rw [second.unmerged, first.unmerged]
    · intro p here
      rw [← second.children_of_notMem fun also => fresh here also]
      exact outside p (List.mem_append_left _ here)
    · exact fun p there => outside p (List.mem_append_right _ there)
  case other =>
    intro j notText
    have same := first.other j notText
    rw [second.other j (by rw [same]; exact notText), same]
  case parent =>
    intro c
    rw [second.parent, first.parent]
    simp only [first.dropped_iff second fresh]
    by_cases last : ∃ p ∈ later, c ∈ t.children p ∧ c ∉ u.children p
    · simp only [last, or_true, if_true]
    · simp only [last, or_false, if_false]

theorem Normalized.widen (normalized : Normalized s t early) (inside : ∀ p ∈ early, p ∈ region)
    (missed : ∀ p ∈ region, s.isContainer p = true → p ∈ early) (bare : s.Bare region) :
    Normalized s t region := by
  refine ⟨normalized.size, fun p member open_ => normalized.entries p (missed p member open_) open_,
    normalized.sublist, fun p closed => normalized.children p fun member => closed (inside p member),
    fun j outside => normalized.unmerged j fun p member => outside p (inside p member),
    normalized.other, normalized.container, ?_⟩
  intro c
  have dropped : (∃ p ∈ region, c ∈ s.children p ∧ c ∉ t.children p) ↔
      ∃ p ∈ early, c ∈ s.children p ∧ c ∉ t.children p := by
    constructor
    · rintro ⟨p, member, listed, gone⟩
      cases open_ : s.isContainer p with
      | true => exact ⟨p, missed p member open_, listed, gone⟩
      | false =>
          rw [bare p member open_] at listed
          cases listed
    · rintro ⟨p, member, dropped⟩
      exact ⟨p, inside p member, dropped⟩
  rw [normalized.parent]
  simp only [dropped]

theorem Merged.normalized {i : NodeId} {m : Merge} (merged : Merged s i m) (bare : s.Bare [i]) :
    Normalized s m.store [i] := by
  have elsewhere : ∀ p, p ≠ i → m.store.children p = s.children p := by
    intro p other
    rw [merged.pruned.children, if_neg other]
  refine ⟨merged.size, ?_, ?_, ?_, fun j outside => merged.unmerged j (outside i List.mem_cons_self),
    merged.other, merged.container, ?_⟩
  · intro p member _
    rw [List.mem_singleton.mp member]
    exact merged.entries
  · intro p
    by_cases here : p = i
    · rw [here]
      exact merged.pruned.sublist
    · rw [elsewhere p here]
  · intro p closed
    by_cases here : p = i
    · subst here
      have empty := bare p List.mem_cons_self (closed List.mem_cons_self)
      have pruned := merged.pruned.sublist
      rw [empty] at pruned
      rw [List.sublist_nil.mp pruned, empty]
    · exact elsewhere p here
  · intro c
    rw [merged.pruned.parent]
    simp only [List.mem_singleton, exists_eq_left]

end Regions

theorem Unfolds.unshared {s : Store} {f : Forest NodeId} (unfolded : s.Unfolds f)
    (distinct : f.labels.Nodup) : s.Unshared f.labels := by
  intro p pInside q qInside c byP byQ
  have lists := (unfolded.labels_perm.nodup_iff.mp distinct).of_append_right
  rw [List.nodup_flatMap] at lists
  by_contra different
  have symmetric : Std.Symm (Function.onFun List.Disjoint s.children) :=
    ⟨fun _ _ disjoint => disjoint.symm⟩
  exact lists.2.forall pInside qInside different byP byQ

theorem Unfolds.nodup_children {s : Store} {f : Forest NodeId} (unfolded : s.Unfolds f)
    (distinct : f.labels.Nodup) (p : NodeId) (inside : p ∈ f.labels) : (s.children p).Nodup := by
  have lists := (unfolded.labels_perm.nodup_iff.mp distinct).of_append_right
  rw [List.nodup_flatMap] at lists
  exact lists.1 p inside

/-- The trees that a round at a node leaves on the stack: those of its containers, and all that
waited before. -/
def nextTrees (s : Store) (below rest : Forest NodeId) : Forest NodeId :=
  .ofTrees ((below.trees.filter fun u => s.isContainer u.1).reverse ++ rest.trees)

theorem labels_nextTrees (s : Store) (below rest : Forest NodeId) :
    ∃ kept : List NodeId, (s.nextTrees below rest).labels.Perm kept ∧
      kept.Sublist (below.labels ++ rest.labels) := by
  refine ⟨(below.trees.filter fun u => s.isContainer u.1).flatMap (fun u => u.1 :: u.2.labels) ++
    rest.labels, ?_, ?_⟩
  · rw [nextTrees, Forest.labels_ofTrees, List.flatMap_append, ← Forest.labels_eq]
    exact ((List.reverse_perm _).flatMap_right _).append_right _
  · rw [below.labels_eq]
    exact (List.Sublist.flatMap List.filter_sublist _).append (List.Sublist.refl _)

theorem mem_nextTrees (s : Store) (below rest : Forest NodeId) (unfolded : s.Unfolds below)
    (bare : s.Bare below.labels) (p : NodeId) (inside : p ∈ below.labels ++ rest.labels)
    (open_ : s.isContainer p = true) : p ∈ (s.nextTrees below rest).labels := by
  rw [nextTrees, Forest.labels_ofTrees, List.flatMap_append, ← Forest.labels_eq, List.mem_append]
  rcases List.mem_append.mp inside with inBelow | inRest
  · left
    rw [Forest.labels_eq, List.mem_flatMap] at inBelow
    obtain ⟨u, member, here⟩ := inBelow
    rw [List.mem_flatMap]
    refine ⟨u, ?_, here⟩
    rw [List.mem_reverse, List.mem_filter]
    refine ⟨member, ?_⟩
    rcases List.mem_cons.mp here with rfl | deeper
    · exact open_
    · by_contra closed
      rw [Bool.not_eq_true] at closed
      have top : u.1 ∈ below.tops := by
        rw [Forest.tops_eq]
        exact List.mem_map_of_mem member
      have listed := (unfolded.of_mem_trees u member).1
      rw [bare u.1 (below.mem_labels_of_mem_tops u.1 top) closed] at listed
      cases flat : u.2 with
      | nil =>
          rw [flat] at deeper
          cases deeper
      | cons j deeper beside =>
          rw [flat] at listed
          cases listed
  · exact Or.inr inRest

theorem tops_nextTrees (s : Store) (below rest : Forest NodeId) :
    (s.nextTrees below rest).tops = (below.tops.filter s.isContainer).reverse ++ rest.tops := by
  rw [nextTrees, Forest.tops_ofTrees, List.map_append, ← Forest.tops_eq, List.map_reverse,
    below.tops_eq, List.filter_map]
  rfl

theorem unfolds_nextTrees (s : Store) (below rest : Forest NodeId) (unfolded : s.Unfolds below)
    (beside : s.Unfolds rest) : s.Unfolds (s.nextTrees below rest) := by
  rw [nextTrees, unfolds_ofTrees]
  intro u member
  rw [List.mem_append, List.mem_reverse, List.mem_filter] at member
  rcases member with member | member
  · exact unfolded.of_mem_trees u member.1
  · exact beside.of_mem_trees u member

/-- A round at a node and then merging in the trees that it leaves is merging in all of them. -/
theorem Unfolds.normalized_of_round {s t : Store} {i : NodeId} {below rest : Forest NodeId}
    (unfolded : s.Unfolds (.cons i below rest)) (distinct : (Forest.cons i below rest).labels.Nodup)
    (bare : s.Bare (Forest.cons i below rest).labels)
    (later : Normalized (s.mergeChildren i).store t (s.nextTrees below rest).labels) :
    Normalized s t (Forest.cons i below rest).labels := by
  have round := (merged_mergeChildren s i
    (unfolded.nodup_children distinct i List.mem_cons_self)).normalized fun p member =>
      bare p (List.mem_singleton.mp member ▸ List.mem_cons_self)
  obtain ⟨kept, perm, sublist⟩ := labels_nextTrees s below rest
  have inside : ∀ p ∈ (s.nextTrees below rest).labels, p ∈ below.labels ++ rest.labels :=
    fun p member => sublist.subset (perm.subset member)
  have within : ∀ p ∈ [i] ++ (s.nextTrees below rest).labels,
      p ∈ (Forest.cons i below rest).labels := by
    intro p member
    rcases List.mem_append.mp member with here | there
    · exact List.mem_singleton.mp here ▸ List.mem_cons_self
    · exact List.mem_cons_of_mem i (inside p there)
  have both := round.trans later
    (fun p pInside q qInside =>
      unfolded.unshared distinct p (within p pInside) q (within q qInside))
    (fun p here there =>
      (List.nodup_cons.mp distinct).1 (inside i (List.mem_singleton.mp here ▸ there)))
  apply both.widen within ?_ bare
  intro p member open_
  rcases List.mem_cons.mp member with rfl | member
  · exact List.mem_append_left _ List.mem_cons_self
  · have bareBelow : s.Bare below.labels :=
      fun q member => bare q (List.mem_cons_of_mem i (List.mem_append_left _ member))
    exact List.mem_append_right _
      (mem_nextTrees s below rest unfolded.2.1 bareBelow p member open_)

theorem normalized_normalizeLoop (fuel : Nat) : ∀ {s : Store} {f : Forest NodeId}, s.Unfolds f →
    f.labels.Nodup → s.Bare f.labels → f.labels.length < fuel →
    Normalized s (s.normalizeLoop fuel f.tops) f.labels := by
  induction fuel with
  | zero =>
      intro s f _ _ _ enough
      exact absurd enough (Nat.not_lt_zero _)
  | succ fuel ih =>
      intro s f unfolded distinct bare enough
      cases f with
      | nil => exact normalized_refl s
      | cons i below rest =>
          have merged := merged_mergeChildren s i
            (unfolded.nodup_children distinct i List.mem_cons_self)
          obtain ⟨kept, perm, sublist⟩ := labels_nextTrees s below rest
          have once := List.nodup_cons.mp distinct
          have inside : ∀ p ∈ (s.nextTrees below rest).labels, p ∈ below.labels ++ rest.labels :=
            fun p member => sublist.subset (perm.subset member)
          have elsewhere : ∀ p ∈ (s.nextTrees below rest).labels,
              (s.mergeChildren i).store.children p = s.children p := by
            intro p member
            rw [merged.pruned.children, if_neg]
            rintro rfl
            exact once.1 (inside p member)
          have stack : (s.mergeChildren i).below ++ rest.tops = (s.nextTrees below rest).tops := by
            rw [merged.below, unfolded.1, tops_nextTrees]
          apply unfolded.normalized_of_round distinct bare
          change Normalized _ (normalizeLoop fuel _ ((s.mergeChildren i).below ++ rest.tops)) _
          rw [stack]
          -- The round leaves a forest with fewer labels, all of them among those that were there.
          apply ih
          · exact (unfolds_nextTrees s below rest unfolded.2.1 unfolded.2.2).congr elsewhere
          · exact perm.nodup_iff.mpr (once.2.sublist sublist)
          · intro p member closed
            rw [merged.container] at closed
            rw [elsewhere p member]
            exact bare p (List.mem_cons_of_mem i (inside p member)) closed
          · have shorter := sublist.length_le
            rw [perm.length_eq]
            rw [Forest.labels, List.length_cons] at enough
            omega

theorem normalized_normalize (s : Store) (i : NodeId) (f : Forest NodeId) (unfolded : s.Unfolds f)
    (tops : s.children i = f.tops) (distinct : (i :: f.labels).Nodup)
    (bare : s.Bare (i :: f.labels)) : Normalized s (s.normalize i) (i :: f.labels) := by
  have whole : s.Unfolds (.cons i f .nil) := ⟨tops, unfolded, trivial⟩
  have labels := Forest.labels_single i f
  rw [normalize]
  split
  · have looped := normalized_normalizeLoop (s.reach i + 1) whole (by rw [labels]; exact distinct)
      (by rw [labels]; exact bare) (by rw [labels, unfolded.reach_eq i tops, List.length_cons]; omega)
    rw [labels] at looped
    exact looped
  · next closed =>
    rw [Bool.not_eq_true] at closed
    have empty := bare i List.mem_cons_self closed
    rw [tops] at empty
    cases f with
    | cons j below rest => cases empty
    | nil =>
        have childless : ∀ p ∈ [i], s.children p = [] := by
          intro p member
          rw [List.mem_singleton.mp member]
          exact tops
        refine ⟨rfl, ?_, fun _ => List.Sublist.refl _, fun _ _ => rfl, fun _ _ => rfl,
          fun _ _ => rfl, fun _ => rfl, ?_⟩
        · intro p member _
          rw [childless p member]
          rfl
        · intro c
          rw [if_neg]
          rintro ⟨p, member, listed, gone⟩
          exact gone listed

/-- The trees below a node that lists some of the given nodes, in their order and with new contents,
once those below these nodes are known. -/
theorem exists_regrown (t : Store) (i : NodeId) (us : List (NodeId × Forest NodeId))
    (kept : List ((NodeId × Forest NodeId) × Content))
    (grown : NodeId × Forest NodeId → Forest NodeId) (firsts : (kept.map (·.1)).Sublist us)
    (entries : (t.children i).map t.entry = kept.map (Prod.map (·.1) id))
    (deeper : ∀ u ∈ us, t.children u.1 = (grown u).tops ∧ t.Unfolds (grown u) ∧
      (grown u).labels.Sublist u.2.labels) :
    ∃ g : Forest NodeId, t.children i = g.tops ∧ t.Unfolds g ∧
      g.labels.Sublist (us.flatMap fun u => u.1 :: u.2.labels) ∧
      g.map t.content = .ofTrees (kept.map fun w => (w.2, (grown w.1).map t.content)) := by
  have known : ∀ w ∈ kept, w.1 ∈ us ∧ t.content w.1.1 = w.2 := by
    intro w member
    refine ⟨firsts.subset (List.mem_map_of_mem member), ?_⟩
    have image : (w.1.1, w.2) ∈ (t.children i).map t.entry := by
      rw [entries]
      exact List.mem_map_of_mem member
    obtain ⟨c, _, same⟩ := List.mem_map.mp image
    obtain ⟨here, held⟩ := Prod.mk.inj same
    rw [← here]
    exact held
  refine ⟨.ofTrees (kept.map fun w => (w.1.1, grown w.1)), ?_, ?_, ?_, ?_⟩
  · have ids := congrArg (List.map Prod.fst) entries
    rw [List.map_map, List.map_map] at ids
    rw [Forest.tops_ofTrees, List.map_map]
    simpa only [Function.comp_def, Prod.map, entry, List.map_id'] using ids
  · rw [unfolds_ofTrees]
    intro u member
    obtain ⟨w, inKept, rfl⟩ := List.mem_map.mp member
    obtain ⟨listed, unfolded, _⟩ := deeper w.1 (known w inKept).1
    exact ⟨listed, unfolded⟩
  · rw [Forest.labels_ofTrees, List.flatMap_map]
    calc
      (kept.flatMap fun w => w.1.1 :: (grown w.1).labels).Sublist
          (kept.flatMap fun w => w.1.1 :: w.1.2.labels) := by
        apply List.Sublist.flatMap_right
        intro w member
        exact (deeper w.1 (known w member).1).2.2.cons_cons _
      List.Sublist _ (us.flatMap fun u => u.1 :: u.2.labels) := by
        have wider := firsts.flatMap fun u => u.1 :: u.2.labels
        rw [List.flatMap_map] at wider
        exact wider
  · rw [Forest.map_ofTrees, List.map_map]
    apply congrArg Forest.ofTrees
    apply List.map_congr_left
    intro w member
    change (t.content w.1.1, (grown w.1).map t.content) = _
    rw [(known w member).2]

theorem Normalized.exists_siblings {s t : Store} {region : List NodeId}
    (normalized : Normalized s t region) (i : NodeId) (inside : i ∈ region)
    (open_ : s.isContainer i = true) (below : Forest NodeId) (tops : s.children i = below.tops)
    (deeper : ∀ u ∈ below.trees, ∃ g : Forest NodeId, t.children u.1 = g.tops ∧ t.Unfolds g ∧
      g.labels.Sublist u.2.labels ∧ g.map t.content = (u.2.map s.content).normal) :
    ∃ g : Forest NodeId, t.children i = g.tops ∧ t.Unfolds g ∧ g.labels.Sublist below.labels ∧
      g.map t.content = (below.map s.content).normal := by
  classical
  choose! grown listed unfolded sublist contents using deeper
  have entries := normalized.entries i inside open_
  obtain ⟨joined, joinedEq⟩ : ∃ joined, joined =
    joinRuns (below.trees.map fun u => (u, s.content u.1)) := ⟨_, rfl⟩
  have firsts : (joined.map (·.1)).Sublist below.trees := by
    have all := joinRuns_sublist (below.trees.map fun u => (u, s.content u.1))
    rw [← joinedEq, List.map_map] at all
    simpa only [Function.comp_def, List.map_id'] using all
  have kept : (t.children i).map t.entry = joined.map (Prod.map (·.1) id) := by
    rw [entries, joinedEq, ← joinRuns_map, List.map_map, tops, below.tops_eq, List.map_map]
    rfl
  obtain ⟨g, gTops, gUnfolded, gLabels, gContents⟩ := t.exists_regrown i below.trees joined grown
    firsts kept fun u member => ⟨listed u member, unfolded u member, sublist u member⟩
  refine ⟨g, gTops, gUnfolded, ?_, ?_⟩
  · rw [below.labels_eq]
    exact gLabels
  · have shapes : (below.map s.content).normalTops =
        (below.trees.map fun u => (u, s.content u.1)).map
          (Prod.map (fun u => (u.2.map s.content).normal) id) := by
      rw [Forest.normalTops_eq, Forest.trees_map, List.map_map, List.map_map]
      rfl
    rw [gContents, Forest.normal, shapes, joinRuns_map, ← joinedEq, List.map_map]
    apply congrArg Forest.ofTrees
    apply List.map_congr_left
    intro w member
    rw [contents w.1 (firsts.subset (List.mem_map_of_mem member))]
    rfl

/-- After normalizing, the trees below the nodes of a region are the old ones in normal form. -/
theorem Normalized.exists_below {s t : Store} {region : List NodeId}
    (normalized : Normalized s t region) (f : Forest NodeId) (unfolded : s.Unfolds f)
    (inside : ∀ i ∈ f.labels, i ∈ region) (bare : s.Bare f.labels) :
    ∀ u ∈ f.trees, ∃ g : Forest NodeId, t.children u.1 = g.tops ∧ t.Unfolds g ∧
      g.labels.Sublist u.2.labels ∧ g.map t.content = (u.2.map s.content).normal := by
  induction f with
  | nil => exact fun u member => nomatch member
  | cons i below rest ihBelow ihRest =>
      intro u member
      rcases List.mem_cons.mp member with rfl | member
      · have deeper := ihBelow unfolded.2.1
          (fun j inBelow => inside j (List.mem_cons_of_mem i (List.mem_append_left _ inBelow)))
          (fun j inBelow => bare j (List.mem_cons_of_mem i (List.mem_append_left _ inBelow)))
        cases open_ : s.isContainer i with
        | true =>
            exact normalized.exists_siblings i (inside i List.mem_cons_self) open_ below unfolded.1
              deeper
        | false =>
            have empty := bare i List.mem_cons_self open_
            have still := normalized.sublist i
            rw [empty, List.sublist_nil] at still
            rw [unfolded.1] at empty
            cases below with
            | nil => exact ⟨.nil, still, trivial, List.Sublist.refl _, rfl⟩
            | cons j deeper beside => cases empty
      · exact ihRest unfolded.2.2
          (fun j inRest => inside j (List.mem_cons_of_mem i (List.mem_append_right _ inRest)))
          (fun j inRest => bare j (List.mem_cons_of_mem i (List.mem_append_right _ inRest)))
          u member

theorem Normalized.parent_of_listed {s t : Store} {region nodes : List NodeId}
    (normalized : Normalized s t region) (inside : ∀ p ∈ region, p ∈ nodes)
    (linked : ∀ q ∈ nodes, ∀ c ∈ s.children q, s.parent c = some q) :
    ∀ q ∈ nodes, ∀ c ∈ t.children q, t.parent c = some q := by
  intro q member c kept
  have before := linked q member c ((normalized.sublist q).subset kept)
  rw [normalized.parent, if_neg, before]
  rintro ⟨p, inRegion, byP, gone⟩
  rw [linked p (inside p inRegion) c byP] at before
  cases before
  exact gone kept

/-- Where nodes refer to those that list them, each list is kept or has its texts joined. -/
theorem Normalized.kept_or_joined {s t : Store} {region nodes : List NodeId}
    (normalized : Normalized s t region) (inside : ∀ p ∈ region, p ∈ nodes) (bare : s.Bare nodes)
    (linked : ∀ q ∈ nodes, ∀ c ∈ s.children q, s.parent c = some q) :
    ∀ q ∈ nodes, (t.children q).map t.entry = (s.children q).map s.entry ∨
      (t.children q).map t.entry = joinRuns ((s.children q).map s.entry) := by
  intro q member
  by_cases merged : q ∈ region ∧ s.isContainer q = true
  · exact Or.inr (normalized.entries q merged.1 merged.2)
  · left
    have closed : q ∈ region → s.isContainer q = false := by
      intro within
      simpa [within] using merged
    rw [normalized.children q closed]
    apply List.map_congr_left
    intro i listed
    rw [entry, entry, normalized.content i]
    intro p within also
    -- Each child has one lister, and a leaf lists nothing.
    have parents := (linked p (inside p within) i also).symm.trans (linked q member i listed)
    cases parents
    rw [bare q member (closed within)] at listed
    cases listed

/-- All that is below a node: each node stands in one place and refers to the one that lists it, and
no list holds an empty text or two texts in a row. -/
structure Holds (t : Store) (i : NodeId) (f : Forest NodeId) : Prop where
  tops : t.children i = f.tops
  unfolds : t.Unfolds f
  distinct : (i :: f.labels).Nodup
  listed_once : ∀ c ∈ f.labels, ((i :: f.labels).flatMap t.children).count c = 1
  linked : t.LinkedTo (some i) f
  tidy : ∀ p ∈ i :: f.labels, Tidy ((t.children p).map t.entry)

theorem Normalized.exists_holds {s t : Store} {i : NodeId} {f : Forest NodeId}
    (normalized : Normalized s t (i :: f.labels)) (unfolded : s.Unfolds f)
    (tops : s.children i = f.tops) (distinct : (i :: f.labels).Nodup)
    (bare : s.Bare (i :: f.labels)) (linked : s.LinkedTo (some i) f) :
    ∃ g : Forest NodeId, Holds t i g ∧ g.labels.Sublist f.labels ∧
      g.map t.content = (f.map s.content).normal := by
  have whole : s.Unfolds (.cons i f .nil) := ⟨tops, unfolded, trivial⟩
  have labels := Forest.labels_single i f
  obtain ⟨g, listed, grown, sublist, shape⟩ := normalized.exists_below (.cons i f .nil) whole
    (fun j inside => by rw [labels] at inside; exact inside) (by rw [labels]; exact bare)
    (i, f) List.mem_cons_self
  have inside : ∀ q ∈ i :: g.labels, q ∈ i :: f.labels :=
    fun q member => (sublist.cons_cons i).subset member
  have distinctStill := distinct.sublist (sublist.cons_cons i)
  obtain ⟨topsLinked, deeperLinked⟩ := (unfolded.linkedTo_iff (some i)).mp linked
  have linkedBefore : ∀ q ∈ i :: f.labels, ∀ c ∈ s.children q, s.parent c = some q := by
    rw [List.forall_mem_cons, tops]
    exact ⟨topsLinked, deeperLinked⟩
  have linkedAfter := normalized.parent_of_listed (fun p member => member) linkedBefore
  refine ⟨g, ⟨listed, grown, distinctStill, ?_, ?_, ?_⟩, sublist, shape⟩
  · intro c member
    rw [List.flatMap_cons, listed, ← grown.labels_perm.count_eq]
    exact List.count_eq_one_of_mem distinctStill.of_cons member
  · rw [grown.linkedTo_iff]
    refine ⟨?_, fun q member => linkedAfter q (inside q (List.mem_cons_of_mem i member))⟩
    intro c top
    rw [← listed] at top
    exact linkedAfter i List.mem_cons_self c top
  · intro p member
    cases open_ : s.isContainer p with
    | true =>
        rw [normalized.entries p (inside p member) open_]
        exact tidy_joinRuns _
    | false =>
        have empty := normalized.sublist p
        rw [bare p (inside p member) open_, List.sublist_nil] at empty
        rw [empty]
        exact ⟨List.forall_mem_nil _, List.IsChain.nil⟩

end Store

end HtmlTree
