import HtmlTree.Dom.Build
import HtmlTree.Proofs.Dom.Edits
import HtmlTree.Proofs.Dom.Normal
import Mathlib.Data.List.Forall2

/-! What a parse result becomes. The worklist fills the lists in another order than the document's
and the texts are merged afterwards, in place; what stands in the store at the end is what a plain
recursion over the parsed trees gives. -/

namespace HtmlTree

open Html (Parsed)

/-- Nothing stands below what owns no children. -/
def Forest.Leafy : Forest Content → Prop
  | nil => True
  | cons c below rest => (c.isContainer = false → below = nil) ∧ below.Leafy ∧ rest.Leafy

namespace Html.Parsed

def flush (run : String) (rest : Forest Content) : Forest Content :=
  if run = "" then rest else .cons (.text (some run)) .nil rest

def forest (run : String) : List Parsed → Forest Content
  | [] => flush run .nil
  | element tag space attrs below :: ts =>
    flush run (.cons (.element tag space (attrs.map fun pair => ⟨pair.1, pair.2⟩)) (forest "" below)
      (forest "" ts))
  | text data :: ts => forest (run ++ data) ts
  | cdata data :: ts => forest (run ++ data) ts
  | comment data :: ts => flush run (.cons (.comment data) .nil (forest "" ts))
  | doctype name publicId systemId :: ts =>
    flush run (.cons (.doctype (name.getD "") (publicId.getD "") (systemId.getD "")) .nil
      (forest "" ts))
  | other _ _ :: ts => forest run ts

def nodes : List Parsed → Forest Content
  | [] => .nil
  | element tag space attrs below :: ts =>
    .cons (.element tag space (Attr.ofPairs attrs)) (nodes below) (nodes ts)
  | text data :: ts => .cons (.text (some data)) .nil (nodes ts)
  | cdata data :: ts => .cons (.text (some data)) .nil (nodes ts)
  | comment data :: ts => .cons (.comment data) .nil (nodes ts)
  | doctype name publicId systemId :: ts =>
    .cons (.doctype (name.getD "") (publicId.getD "") (systemId.getD "")) .nil (nodes ts)
  | other _ _ :: ts => nodes ts

theorem leafy_nodes (ts : List Parsed) : (nodes ts).Leafy := by
  induction ts using nodes.induct with
  | case1 =>
      rw [nodes]
      trivial
  | case2 tag space attrs below ts ihBelow ihRest =>
      rw [nodes]
      exact ⟨(fun absurd => nomatch absurd), ihBelow, ihRest⟩
  | case7 kind below ts ih =>
      rw [nodes]
      exact ih
  | _ =>
      rw [nodes]
      exact ⟨fun _ => rfl, trivial, ‹_›⟩

def started (run : String) (kept : List (Forest Content × Content)) :
    List (Forest Content × Content) :=
  if run = "" then kept else (.nil, .text (some run)) :: kept

theorem joinStep_started (run data : String) (kept : List (Forest Content × Content))
    (closed : ∀ last ∈ kept.head?, last.2.text? = none) :
    joinStep (started run kept) (.nil, .text (some data)) = started (run ++ data) kept := by
  have text : (Content.text (some data)).text? = some data := rfl
  unfold started
  by_cases blank : data = ""
  · subst blank
    rw [String.append_empty]
    split
    · cases kept <;> simp only [joinStep, text, if_true]
    · simp only [joinStep, text, if_true]
  · by_cases first : run = ""
    · subst first
      rw [String.empty_append, if_pos rfl, if_neg blank]
      cases kept with
      | nil => simp only [joinStep, text, blank, if_false]
      | cons last before =>
          simp only [joinStep, text, blank, if_false, closed last rfl]
    · have joined : run ++ data ≠ "" := by
        rw [Ne, String.append_eq_empty_iff]
        exact fun both => first both.1
      rw [if_neg first, if_neg joined]
      simp only [joinStep, blank, if_false, Content.text?, Option.getD_some]

theorem trees_flush (run : String) (rest : Forest Content) (kept : List (Forest Content × Content)) :
    kept.reverse ++ (flush run rest).trees.map Prod.swap =
      (started run kept).reverse ++ rest.trees.map Prod.swap := by
  unfold flush started
  split
  · rfl
  · rw [Forest.trees, List.map_cons, List.reverse_cons, List.append_assoc]
    rfl

theorem foldl_joinStep_other (run : String) (entry : Forest Content × Content)
    (entries : List (Forest Content × Content)) (rest : Forest Content)
    (other : entry.2.text? = none)
    (after : ∀ kept : List (Forest Content × Content), (∀ last ∈ kept.head?, last.2.text? = none) →
      (entries.foldl joinStep (started "" kept)).reverse =
        kept.reverse ++ rest.trees.map Prod.swap)
    (kept : List (Forest Content × Content)) :
    ((entry :: entries).foldl joinStep (started run kept)).reverse =
      kept.reverse ++ (flush run (.cons entry.2 entry.1 rest)).trees.map Prod.swap := by
  rw [List.foldl_cons, joinStep_other _ _ other, trees_flush]
  have closed : ∀ last ∈ (entry :: started run kept).head?, last.2.text? = none := by
    intro last first
    cases first
    exact other
  have folded := after (entry :: started run kept) closed
  rw [started, if_pos rfl] at folded
  rw [folded, List.reverse_cons, List.append_assoc]
  rfl

theorem ofTrees_of_reverse (entries : List (Forest Content × Content)) (f : Forest Content)
    (folded : entries = [].reverse ++ f.trees.map Prod.swap) :
    Forest.ofTrees (entries.map Prod.swap) = f := by
  rw [folded, List.reverse_nil, List.nil_append, List.map_map]
  simp only [Prod.swap_swap_eq, List.map_id, Forest.ofTrees_trees]

theorem foldl_joinStep_nodes (run : String) (ts : List Parsed) :
    ∀ kept : List (Forest Content × Content), (∀ last ∈ kept.head?, last.2.text? = none) →
      ((nodes ts).normalTops.foldl joinStep (started run kept)).reverse =
        kept.reverse ++ (forest run ts).trees.map Prod.swap := by
  induction run, ts using forest.induct with
  | case1 run =>
      intro kept _
      rw [nodes, forest, trees_flush]
      exact (List.append_nil _).symm
  | case2 run tag space attrs below ts ihBelow ihRest =>
      intro kept _
      have inner := ofTrees_of_reverse _ _ (ihBelow [] (fun _ absurd => nomatch absurd))
      rw [nodes, Forest.normalTops, forest, ← inner]
      exact foldl_joinStep_other run (_, .element tag space (Attr.ofPairs attrs)) _ _ rfl ihRest kept
  | case3 run data ts ih | case4 run data ts ih =>
      intro kept closed
      rw [nodes, Forest.normalTops, List.foldl_cons, forest, ← ih kept closed,
        ← joinStep_started run data kept closed]
      rfl
  | case5 run data ts ih =>
      intro kept _
      rw [nodes, Forest.normalTops, forest]
      exact foldl_joinStep_other run (.nil, .comment data) _ _ rfl ih kept
  | case6 run name publicId systemId ts ih =>
      intro kept _
      rw [nodes, Forest.normalTops, forest]
      exact foldl_joinStep_other run
        (.nil, .doctype (name.getD "") (publicId.getD "") (systemId.getD "")) _ _ rfl ih kept
  | case7 run kind below ts ih =>
      intro kept closed
      rw [nodes, forest]
      exact ih kept closed

/-- Merging the texts of what was put in gives what the recursion gives. -/
theorem normal_nodes (ts : List Parsed) : (nodes ts).normal = forest "" ts :=
  ofTrees_of_reverse _ _ (foldl_joinStep_nodes "" ts [] (fun _ absurd => nomatch absurd))

end Html.Parsed

namespace Store

theorem forall₂_imp_of_mem {α β : Type} {r q : α → β → Prop} {as : List α} {bs : List β}
    (related : List.Forall₂ r as bs) (step : ∀ a ∈ as, ∀ b, r a b → q a b) :
    List.Forall₂ q as bs := by
  induction related with
  | nil => exact List.Forall₂.nil
  | cons first _ ih =>
      refine List.Forall₂.cons (step _ List.mem_cons_self _ first) (ih ?_)
      intro a member
      exact step a (List.mem_cons_of_mem _ member)

/-- At the end these trees stand behind what a node listed before. -/
structure Received (s t : Store) (e : NodeId × List Parsed) (f : Forest NodeId) : Prop where
  children : t.children e.1 = s.children e.1 ++ f.tops
  unfolds : t.Unfolds f
  linked : t.LinkedTo (some e.1) f
  contents : f.map t.content = Parsed.nodes e.2

/-- The second store is the first one with all that waited put in: new nodes only, each in one
place, and the old ones as they were. -/
structure Filled (s : Store) (pending : Backlog) (t : Store) : Prop where
  received : ∃ fs : List (Forest NodeId), List.Forall₂ (Received s t) pending fs ∧
    (fs.flatMap Forest.labels).Perm (List.range' s.size (t.size - s.size))
  size_le : s.size ≤ t.size
  content : ∀ j < s.size, t.content j = s.content j
  parent : ∀ j < s.size, t.parent j = s.parent j
  children : ∀ j < s.size, (∀ e ∈ pending, e.1 ≠ j) → t.children j = s.children j

theorem filled_refl (s : Store) : Filled s [] s where
  received := ⟨[], List.Forall₂.nil, by rw [Nat.sub_self]; exact List.Perm.refl []⟩
  size_le := Nat.le_refl _
  content _ _ := rfl
  parent _ _ := rfl
  children _ _ _ := rfl

theorem attach_snd (s : Store) (p : NodeId) (c : Content) :
    (s.attach p c).2 = (s.make c).2.append p s.size := rfl

@[simp] theorem size_attach (s : Store) (p : NodeId) (c : Content) :
    (s.attach p c).2.size = s.size + 1 := by
  rw [attach_snd, Store.append, size_link, size_make]

theorem content_attach (s : Store) (p : NodeId) (c : Content) (i : NodeId) :
    (s.attach p c).2.content i = if i = s.size then c else s.content i := by
  rw [attach_snd, Store.append, content_link, content_make]

theorem parent_attach (s : Store) (p : NodeId) (c : Content) (i : NodeId) :
    (s.attach p c).2.parent i = if i = s.size then some p else s.parent i := by
  rw [attach_snd, Store.append, parent_link, parent_make, size_make]
  by_cases here : i = s.size
  · subst here
    simp
  · simp [here, Ne.symm here]

theorem children_attach (s : Store) (p : NodeId) (c : Content) (known : p < s.size) (i : NodeId) :
    (s.attach p c).2.children i =
      if i = p then s.children p ++ [s.size] else s.children i := by
  rw [attach_snd, Store.append, children_link, children_make, size_make]
  by_cases here : i = p
  · subst here
    rw [if_pos ⟨rfl, Nat.lt_succ_of_lt known⟩, if_pos rfl]
  · rw [if_neg (fun both => here both.1.symm), if_neg here]

theorem Filled.with_nothing {s t : Store} {pending : Backlog} {n : NodeId}
    (filled : Filled s pending t) (known : n < s.size) (apart : ∀ e ∈ pending, e.1 ≠ n) :
    Filled s ((n, []) :: pending) t := by
  obtain ⟨fs, received, perm⟩ := filled.received
  refine ⟨⟨.nil :: fs, List.Forall₂.cons ⟨?_, trivial, trivial, ?_⟩ received, perm⟩,
    filled.size_le, filled.content, filled.parent, ?_⟩
  · exact (filled.children n known apart).trans (List.append_nil _).symm
  · rw [Parsed.nodes]
    rfl
  · intro j low outside
    exact filled.children j low fun e member => outside e (List.mem_cons_of_mem _ member)

theorem Filled.rename {s t : Store} {p : NodeId} {ts whole : List Parsed} {pending : Backlog}
    (filled : Filled s ((p, ts) :: pending) t) (same : Parsed.nodes whole = Parsed.nodes ts) :
    Filled s ((p, whole) :: pending) t := by
  obtain ⟨fs, received, perm⟩ := filled.received
  refine ⟨?_, filled.size_le, filled.content, filled.parent, ?_⟩
  · cases received with
    | @cons _ f _ fs here received =>
        refine ⟨f :: fs, List.Forall₂.cons ⟨here.children, here.unfolds, here.linked, ?_⟩ received,
          perm⟩
        rw [here.contents, same]
  · intro j low outside
    apply filled.children j low
    rw [List.forall_mem_cons] at outside ⊢
    exact outside

theorem Filled.swap {s t : Store} {first second : NodeId × List Parsed} {pending : Backlog}
    (filled : Filled s (first :: second :: pending) t) :
    Filled s (second :: first :: pending) t := by
  obtain ⟨fs, received, perm⟩ := filled.received
  refine ⟨?_, filled.size_le, filled.content, filled.parent, ?_⟩
  · cases received with
    | @cons _ f _ _ here received =>
        cases received with
        | @cons _ g _ fs there received =>
            refine ⟨g :: f :: fs, List.Forall₂.cons there (List.Forall₂.cons here received), ?_⟩
            exact (List.perm_append_comm_assoc _ _ _).trans perm
  · intro j low outside
    apply filled.children j low
    intro e member
    exact outside e ((List.Perm.swap first second pending).mem_iff.mpr member)

theorem Filled.attach {s t : Store} {p : NodeId} {c : Content} {ts below whole : List Parsed}
    {pending : Backlog} (filled : Filled (s.attach p c).2 ((p, ts) :: (s.size, below) :: pending) t)
    (known : p < s.size) (others : ∀ e ∈ pending, e.1 < s.size ∧ e.1 ≠ p)
    (shape : Parsed.nodes whole = .cons c (Parsed.nodes below) (Parsed.nodes ts)) :
    Filled s ((p, whole) :: pending) t := by
  obtain ⟨⟨fs, received, perm⟩, larger, content, parent, children⟩ := filled
  rw [size_attach] at perm larger content parent children
  have away : p ≠ s.size := Nat.ne_of_lt known
  refine ⟨?_, Nat.le_of_succ_le larger, ?_, ?_, ?_⟩
  · cases received with
    | @cons _ fp _ _ here received =>
        cases received with
        | @cons _ fn _ fs inner received =>
            refine ⟨.cons s.size fn fp :: fs, List.Forall₂.cons ⟨?_, ?_, ?_, ?_⟩ ?_, ?_⟩
            · rw [here.children, children_attach s p c known, if_pos rfl, List.append_assoc]
              rfl
            · refine ⟨?_, inner.unfolds, here.unfolds⟩
              rw [inner.children, children_attach s p c known, if_neg away.symm, children_of_size,
                List.nil_append]
            · refine ⟨?_, inner.linked, here.linked⟩
              rw [parent s.size (Nat.lt_succ_self _), parent_attach, if_pos rfl]
            · rw [Forest.map, inner.contents, here.contents, content s.size (Nat.lt_succ_self _),
                content_attach, if_pos rfl]
              exact shape.symm
            · apply forall₂_imp_of_mem received
              intro e member f got
              refine ⟨?_, got.unfolds, got.linked, got.contents⟩
              rw [got.children, children_attach s p c known, if_neg (others e member).2]
            · have count : t.size - s.size = t.size - (s.size + 1) + 1 := by omega
              rw [count, List.range'_succ, List.flatMap_cons, Forest.labels, List.cons_append]
              apply List.Perm.cons
              rw [List.append_assoc]
              exact (List.perm_append_comm_assoc _ _ _).trans perm
  · intro j low
    rw [content j (Nat.lt_succ_of_lt low), content_attach, if_neg (Nat.ne_of_lt low)]
  · intro j low
    rw [parent j (Nat.lt_succ_of_lt low), parent_attach, if_neg (Nat.ne_of_lt low)]
  · intro j low outside
    have notParent := outside _ List.mem_cons_self
    rw [children j (Nat.lt_succ_of_lt low), children_attach s p c known, if_neg notParent.symm]
    intro e member
    rcases List.mem_cons.mp member with rfl | member
    · exact notParent
    · rcases List.mem_cons.mp member with rfl | member
      · exact (Nat.ne_of_lt low).symm
      · exact outside e (List.mem_cons_of_mem _ member)

theorem nodes_cons (t : Parsed) (ts : List Parsed) (c : Content) (becomes : t.content? = some c) :
    Parsed.nodes (t :: ts) =
      .cons c (Parsed.nodes (if c.isElement then t.children else [])) (Parsed.nodes ts) := by
  cases t with
  | other kind below => cases becomes
  | _ =>
      cases becomes
      simp only [Parsed.nodes, Content.isElement, Parsed.children, Bool.false_eq_true, if_true,
        if_false]

theorem nodes_skip (t : Parsed) (ts : List Parsed) (skipped : t.content? = none) :
    Parsed.nodes (t :: ts) = Parsed.nodes ts := by
  cases t with
  | other kind below => rw [Parsed.nodes]
  | _ => cases skipped

theorem Filled.attach_waiting {s t : Store} {p : NodeId} {c : Content} {first : Parsed}
    {ts : List Parsed} {pending : Backlog}
    (filled : Filled (s.attach p c).2 ((p, ts) :: (s.size, first.children) :: pending) t)
    (known : p < s.size) (others : ∀ e ∈ pending, e.1 < s.size ∧ e.1 ≠ p)
    (becomes : first.content? = some c) (element : c.isElement = true) :
    Filled s ((p, first :: ts) :: pending) t := by
  apply filled.attach known others
  rw [nodes_cons first ts c becomes, if_pos element]

theorem Filled.attach_settled {s t : Store} {p : NodeId} {c : Content} {first : Parsed}
    {ts : List Parsed} {pending : Backlog} (filled : Filled (s.attach p c).2 ((p, ts) :: pending) t)
    (known : p < s.size) (others : ∀ e ∈ pending, e.1 < s.size ∧ e.1 ≠ p)
    (becomes : first.content? = some c) (bare : c.isElement = true → first.children = []) :
    Filled s ((p, first :: ts) :: pending) t := by
  have nothing : (if c.isElement then first.children else []) = [] := by
    split
    · next element => exact bare element
    · rfl
  have new : s.size < (s.attach p c).2.size := by
    rw [size_attach]
    exact Nat.lt_succ_self _
  refine Filled.attach ?_ known others (nodes_cons first ts c becomes)
  rw [nothing]
  apply (filled.with_nothing new _).swap
  rw [List.forall_mem_cons]
  exact ⟨Nat.ne_of_lt known, fun e member => Nat.ne_of_lt (others e member).1⟩

/-- How many rounds what waits can take. -/
def weight (pending : Backlog) : Nat :=
  (pending.map fun e => 1 + Parsed.sizeAll e.2).foldr (· + ·) 0

theorem weight_cons (e : NodeId × List Parsed) (pending : Backlog) :
    weight (e :: pending) = 1 + Parsed.sizeAll e.2 + weight pending := by
  rw [weight, List.map_cons, List.foldr_cons]
  rfl

theorem attachAll_skip (p : NodeId) (first : Parsed) (ts : List Parsed) (s : Store)
    (pending : Backlog) (skipped : first.content? = none) :
    Store.attachAll p (first :: ts) s pending = Store.attachAll p ts s pending := by
  rw [Store.attachAll, skipped]

theorem attachAll_attach (p : NodeId) (first : Parsed) (ts : List Parsed) (s : Store)
    (pending : Backlog) (c : Content) (becomes : first.content? = some c) :
    Store.attachAll p (first :: ts) s pending = Store.attachAll p ts (s.attach p c).2
      (if c.isElement && !first.children.isEmpty then (s.size, first.children) :: pending
        else pending) := by
  rw [Store.attachAll, becomes]
  rfl

theorem size_of_element (t : Parsed) (c : Content) (becomes : t.content? = some c)
    (element : c.isElement = true) : t.size = 1 + Parsed.sizeAll t.children := by
  cases t with
  | element tag space attrs below => rw [Parsed.size, Parsed.children]
  | other kind below => cases becomes
  | _ => cases becomes; cases element

theorem Filled.attachAll (p : NodeId) (ts : List Parsed) : ∀ {s t : Store} {pending : Backlog},
    p < s.size → (∀ e ∈ pending, e.1 < s.size ∧ e.1 ≠ p) → (pending.map (·.1)).Nodup →
    ((∀ e ∈ (Store.attachAll p ts s pending).2, e.1 < (Store.attachAll p ts s pending).1.size) →
      ((Store.attachAll p ts s pending).2.map (·.1)).Nodup →
      weight (Store.attachAll p ts s pending).2 ≤ weight pending + Parsed.sizeAll ts →
      Filled (Store.attachAll p ts s pending).1 (Store.attachAll p ts s pending).2 t) →
    Filled s ((p, ts) :: pending) t := by
  -- A child with children of its own joins the backlog; the weight says how much is then still to be
  -- filled.
  induction ts with
  | nil =>
      intro s t pending known others distinct after
      exact (after (fun e member => (others e member).1) distinct (Nat.le_add_right _ _)).with_nothing
        known fun e member => (others e member).2
  | cons first ts ih =>
      intro s t pending known others distinct after
      have sized : Parsed.sizeAll (first :: ts) = Parsed.size first + Parsed.sizeAll ts := by
        rw [Parsed.sizeAll]
      cases becomes : first.content? with
      | none =>
          rw [attachAll_skip p first ts s pending becomes] at after
          apply (ih known others distinct fun bound once light => after bound once ?_).rename
          · exact nodes_skip first ts becomes
          · omega
      | some c =>
          rw [attachAll_attach p first ts s pending c becomes] at after
          have knownStill : p < (s.attach p c).2.size := by
            rw [size_attach]
            exact Nat.lt_succ_of_lt known
          have othersStill : ∀ e ∈ pending, e.1 < (s.attach p c).2.size ∧ e.1 ≠ p := by
            intro e member
            rw [size_attach]
            exact ⟨Nat.lt_succ_of_lt (others e member).1, (others e member).2⟩
          cases waits : c.isElement && !first.children.isEmpty with
          | true =>
              rw [waits, if_pos rfl] at after
              have element : c.isElement = true := (Bool.and_eq_true_iff.mp waits).1
              refine Filled.attach_waiting (ih knownStill ?_ ?_ ?_) known others becomes element
              · rw [List.forall_mem_cons, size_attach]
                exact ⟨⟨Nat.lt_succ_self _, (Nat.ne_of_lt known).symm⟩, size_attach s p c ▸ othersStill⟩
              · rw [List.map_cons, List.nodup_cons, List.mem_map]
                refine ⟨?_, distinct⟩
                rintro ⟨e, member, same⟩
                exact Nat.ne_of_lt (others e member).1 same
              · intro bound once light
                apply after bound once
                have grown := size_of_element first c becomes element
                simp only [weight_cons] at light
                omega
          | false =>
              rw [waits, if_neg Bool.false_ne_true] at after
              have bare : c.isElement = true → first.children = [] := by
                intro element
                rw [element, Bool.true_and, Bool.not_eq_false', List.isEmpty_iff] at waits
                exact waits
              refine Filled.attach_settled (ih knownStill othersStill distinct ?_) known others becomes
                bare
              intro bound once light
              apply after bound once
              omega

theorem filled_fillLoop (fuel : Nat) : ∀ {s : Store} {pending : Backlog},
    (∀ e ∈ pending, e.1 < s.size) → (pending.map (·.1)).Nodup → weight pending < fuel →
    Filled s pending (s.fillLoop fuel pending) := by
  induction fuel with
  | zero =>
      intro s pending _ _ enough
      exact absurd enough (Nat.not_lt_zero _)
  | succ fuel ih =>
      intro s pending known distinct enough
      cases pending with
      | nil => exact filled_refl s
      | cons e pending =>
          rw [List.map_cons, List.nodup_cons] at distinct
          rw [weight_cons] at enough
          apply Filled.attachAll e.1 e.2 (known e List.mem_cons_self)
          · intro other member
            refine ⟨known other (List.mem_cons_of_mem e member), ?_⟩
            intro same
            exact distinct.1 (List.mem_map.mpr ⟨other, member, same⟩)
          · exact distinct.2
          · intro bound once light
            exact ih bound once (by omega)

theorem Unfolds.bare {t : Store} {f : Forest NodeId} (unfolded : t.Unfolds f)
    (leaves : (f.map t.content).Leafy) : t.Bare f.labels := by
  induction f with
  | nil => exact fun _ absurd => nomatch absurd
  | cons i below rest ihBelow ihRest =>
      intro j inside closed
      rw [Forest.labels, List.mem_cons, List.mem_append] at inside
      rcases inside with rfl | inside | inside
      · rw [unfolded.1]
        have empty := leaves.1 closed
        cases below with
        | nil => rfl
        | cons k deeper beside => cases empty
      · exact ihBelow unfolded.2.1 leaves.2.1 j inside closed
      · exact ihRest unfolded.2.2 leaves.2.2 j inside closed

/-- Filling a new container puts what the trees become below it, each new node in one place. -/
theorem exists_filled (s : Store) (root : Content) (ts : List Parsed) :
    ∃ f : Forest NodeId, ∃ t : Store, t = (s.make root).2.fill s.size ts ∧
      t.children s.size = f.tops ∧ t.Unfolds f ∧ t.LinkedTo (some s.size) f ∧
      f.map t.content = Parsed.nodes ts ∧ (s.size :: f.labels).Nodup ∧
      (∀ j ∈ f.labels, s.size < j) ∧ t.content s.size = root ∧ t.parent s.size = none ∧
      ∀ j < s.size, t.node j = s.node j := by
  have filled : Filled (s.make root).2 [(s.size, ts)] ((s.make root).2.fill s.size ts) := by
    apply filled_fillLoop
    · rw [List.forall_mem_singleton, size_make]
      exact Nat.lt_succ_self _
    · exact List.nodup_singleton _
    · rw [weight_cons]
      change 1 + Parsed.sizeAll ts + 0 < Parsed.sizeAll ts + 2
      omega
  obtain ⟨⟨fs, received, perm⟩, _, content, parent, children⟩ := filled
  rw [size_make] at perm content parent children
  cases received with
  | @cons _ f _ _ here none =>
      cases none with
      | nil =>
          rw [List.flatMap_cons, List.flatMap_nil, List.append_nil] at perm
          have new : ∀ j ∈ f.labels, s.size < j := by
            intro j inside
            exact (List.mem_range'_1.mp (perm.subset inside)).1
          refine ⟨f, _, rfl, ?_, here.unfolds, here.linked, here.contents, ?_, new, ?_, ?_, ?_⟩
          · rw [here.children, children_make, children_of_size, List.nil_append]
          · rw [List.nodup_cons, perm.nodup_iff]
            exact ⟨fun inside => Nat.lt_irrefl _ (new s.size inside), List.nodup_range'⟩
          · rw [content s.size (Nat.lt_succ_self _), content_make, if_pos rfl]
          · rw [parent s.size (Nat.lt_succ_self _), parent_make, Store.parent,
              node_of_size_le s s.size (Nat.le_refl _)]
            rfl
          · intro j low
            apply node_eq
            · rw [content j (Nat.lt_succ_of_lt low), content_make, if_neg (Nat.ne_of_lt low)]
            · rw [parent j (Nat.lt_succ_of_lt low), parent_make]
            · rw [children j (Nat.lt_succ_of_lt low), children_make]
              rw [List.forall_mem_singleton]
              exact (Nat.ne_of_lt low).symm

/-- What is put into a new container stands there in normal form; the nodes made before are as they
were. -/
theorem exists_normal_ofParsed (s : Store) (root : Content) (container : root.isContainer = true)
    (ts : List Parsed) :
    ∃ f : Forest NodeId, Holds (s.ofParsed root ts).2 (s.ofParsed root ts).1 f ∧
      f.map (s.ofParsed root ts).2.content = (Parsed.nodes ts).normal ∧
      (s.ofParsed root ts).2.content (s.ofParsed root ts).1 = root ∧
      (s.ofParsed root ts).2.parent (s.ofParsed root ts).1 = none ∧
      ∀ j < s.size, (s.ofParsed root ts).2.node j = s.node j := by
  obtain ⟨f, filled, rfl, tops, unfolded, linked, contents, distinct, new, rootContent, rootParent,
    old⟩ := exists_filled s root ts
  have leafy : (f.map ((s.make root).2.fill s.size ts).content).Leafy := by
    rw [contents]
    exact Parsed.leafy_nodes ts
  have open_ : ((s.make root).2.fill s.size ts).isContainer s.size = true := by
    rw [isContainer, rootContent]
    exact container
  have bare : ((s.make root).2.fill s.size ts).Bare (s.size :: f.labels) := by
    intro j inside closed
    rcases List.mem_cons.mp inside with rfl | inside
    · rw [open_] at closed
      cases closed
    · exact unfolded.bare leafy j inside closed
  have normalized := normalized_normalize _ s.size f unfolded tops distinct bare
  obtain ⟨g, holds, _, shape⟩ := normalized.exists_holds unfolded tops distinct bare linked
  have unlisted : ∀ j ≤ s.size, ∀ p ∈ s.size :: f.labels,
      j ∉ ((s.make root).2.fill s.size ts).children p := by
    intro j low p inside listed
    have below : j ∈ f.labels := by
      rcases List.mem_cons.mp inside with rfl | inside
      · rw [tops] at listed
        exact f.mem_labels_of_mem_tops j listed
      · exact unfolded.children_subset p j inside listed
    exact Nat.not_le_of_lt (new j below) low
  have sameContent : ∀ j ≤ s.size, (s.ofParsed root ts).2.content j =
      ((s.make root).2.fill s.size ts).content j :=
    fun j low => normalized.content j (unlisted j low)
  have sameParent : ∀ j ≤ s.size, (s.ofParsed root ts).2.parent j =
      ((s.make root).2.fill s.size ts).parent j := by
    intro j low
    refine (normalized.parent j).trans (if_neg ?_)
    rintro ⟨p, inside, listed, _⟩
    exact unlisted j low p inside listed
  refine ⟨g, holds, ?_, ?_, ?_, ?_⟩
  · rw [← contents]
    exact shape
  · exact (sameContent s.size (Nat.le_refl _)).trans rootContent
  · exact (sameParent s.size (Nat.le_refl _)).trans rootParent
  · intro j low
    refine Eq.trans ?_ (old j low)
    apply node_eq (sameContent j (Nat.le_of_lt low)) (sameParent j (Nat.le_of_lt low))
    apply normalized.children j
    intro inside
    rcases List.mem_cons.mp inside with rfl | inside
    · exact absurd low (Nat.lt_irrefl _)
    · exact absurd (new j inside) (Nat.lt_asymm low)

/-- What is put into a new container is what the recursion over the parsed trees gives, in the order
of the document, linked, with every run of texts as one; the nodes made before are as they were. -/
theorem ofParsed_forest (s : Store) (root : Content) (container : root.isContainer = true)
    (ts : List Parsed) :
    ∃ f : Forest NodeId, Holds (s.ofParsed root ts).2 (s.ofParsed root ts).1 f ∧
      f.map (s.ofParsed root ts).2.content = Parsed.forest "" ts ∧
      (s.ofParsed root ts).2.content (s.ofParsed root ts).1 = root ∧
      (s.ofParsed root ts).2.parent (s.ofParsed root ts).1 = none ∧
      ∀ j < s.size, (s.ofParsed root ts).2.node j = s.node j := by
  obtain ⟨f, holds, shape, rest⟩ := exists_normal_ofParsed s root container ts
  exact ⟨f, holds, shape.trans (Parsed.normal_nodes ts), rest⟩

def mixedNodes : List Parsed :=
  [.text "a", .other 7 [.text "x"], .cdata "b", .element "p" none [("k", "v"), ("j", "")] [.text ""],
    .text "", .comment "c"]

theorem ofParsed_mixedNodes : Content.fragment.isContainer = true ∧ ∃ f : Forest NodeId,
    Holds (empty.ofParsed .fragment mixedNodes).2 (empty.ofParsed .fragment mixedNodes).1 f ∧
      f.map (empty.ofParsed .fragment mixedNodes).2.content =
        .cons (.text (some "ab")) .nil (.cons (.element "p" none [⟨"k", "v"⟩, ⟨"j", ""⟩]) .nil
          (.cons (.comment "c") .nil .nil)) := by
  obtain ⟨f, holds, shape, _⟩ := ofParsed_forest empty .fragment rfl mixedNodes
  refine ⟨rfl, f, holds, shape.trans ?_⟩
  simp [mixedNodes, Parsed.forest, Parsed.flush]

end Store

end HtmlTree
