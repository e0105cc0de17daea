import HtmlTree.Proofs.Dom.Trees

/-! A tree as a list of rows: its nodes in document order, each with its depth, its kind and its own
data. The depths tell the shape, so that two trees are found equal just when their rows are. -/

namespace HtmlTree

namespace Forest

variable {α : Type}

/-- The labels in document order, each with its depth, the tops being at the given one. -/
def rows (depth : Nat) : Forest α → List (Nat × α)
  | nil => []
  | cons a below rest => (depth, a) :: (below.rows (depth + 1) ++ rest.rows depth)

/-- What follows the rows of a forest belongs higher up. -/
def Shallower (depth : Nat) (rows : List (Nat × α)) : Prop := ∀ row ∈ rows.head?, row.1 < depth

theorem shallower_rows (f : Forest α) (depth : Nat) (later : List (Nat × α))
    (shallow : Shallower depth later) : Shallower (depth + 1) (f.rows depth ++ later) := by
  cases f with
  | nil => exact fun row first => Nat.lt_succ_of_lt (shallow row first)
  | cons a below rest =>
      intro row first
      rw [rows, List.cons_append, List.head?_cons, Option.mem_some_iff] at first
      rw [← first]
      exact Nat.lt_succ_self depth

/-- A forest can be told from the beginning of a list, up to where the rows go higher. -/
theorem rows_append_inj (f : Forest α) : ∀ (g : Forest α) (depth : Nat) (x y : List (Nat × α)),
    Shallower depth x → Shallower depth y → f.rows depth ++ x = g.rows depth ++ y →
      f = g ∧ x = y := by
  have absurdTop : ∀ (depth : Nat) (a : α) (rest x : List (Nat × α)), Shallower depth x →
      x ≠ (depth, a) :: rest := by
    rintro depth a rest _ shallow rfl
    exact Nat.lt_irrefl depth (shallow (depth, a) rfl)
  induction f with
  | nil =>
      intro g depth x y shallowX _ same
      cases g with
      | nil => exact ⟨rfl, same⟩
      | cons b below rest => exact absurd same (absurdTop depth b _ x shallowX)
  | cons a below rest ihBelow ihRest =>
      intro g depth x y shallowX shallowY same
      cases g with
      | nil => exact absurd same.symm (absurdTop depth a _ y shallowY)
      | cons b below' rest' =>
          simp only [rows, List.cons_append, List.append_assoc, List.cons.injEq, Prod.mk.injEq,
            true_and] at same
          obtain ⟨rfl, same⟩ := same
          obtain ⟨rfl, beside⟩ := ihBelow below' (depth + 1) _ _
            (rest.shallower_rows depth x shallowX) (rest'.shallower_rows depth y shallowY) same
          obtain ⟨rfl, later⟩ := ihRest rest' depth x y shallowX shallowY beside
          exact ⟨rfl, later⟩

theorem rows_inj {f g : Forest α} {depth : Nat} (same : f.rows depth = g.rows depth) : f = g := by
  have nothing : Shallower depth ([] : List (Nat × α)) := fun _ first => nomatch first
  have appended : f.rows depth ++ [] = g.rows depth ++ [] := by rw [same]
  exact (rows_append_inj f g depth [] [] nothing nothing appended).1

end Forest

namespace Store

def rowsTo (s : Store) : Nat → Nat → NodeId → List (Nat × Content)
  | 0, _, _ => []
  | steps + 1, depth, i =>
    (depth, s.content i) :: (s.children i).flatMap (s.rowsTo steps (depth + 1))

/-- A node and all below it in document order: the depth of each, its kind and its own data. -/
def outline (s : Store) (i : NodeId) : List (Nat × Content) := s.rowsTo (s.size + 1) 0 i

theorem Unfolds.flatMap_rowsTo {s : Store} {f : Forest NodeId} (unfolded : s.Unfolds f) :
    ∀ steps depth, f.depth ≤ steps →
      f.tops.flatMap (s.rowsTo steps depth) = (f.map s.content).rows depth := by
  induction f with
  | nil => exact fun _ _ _ => rfl
  | cons i below rest ihBelow ihRest =>
      intro steps depth deep
      rw [Forest.depth] at deep
      obtain ⟨n, rfl⟩ : ∃ n, steps = n + 1 := ⟨steps - 1, by omega⟩
      rw [Forest.tops, List.flatMap_cons, ihRest unfolded.2.2 (n + 1) depth (by omega), rowsTo,
        unfolded.1, ihBelow unfolded.2.1 n (depth + 1) (by omega)]
      rfl

theorem outline_eq {s : Store} {f : Forest NodeId} (unfolded : s.Unfolds f) (i : NodeId)
    (tops : s.children i = f.tops) :
    s.outline i = (Forest.cons (s.content i) (f.map s.content) .nil).rows 0 := by
  rw [outline, rowsTo, tops, unfolded.flatMap_rowsTo s.size 1 (unfolded.depth_le_size i tops)]
  simp only [Forest.rows, List.append_nil]

theorem Unfolds.map_eq_of_sameTree {s : Store} {f : Forest NodeId} (left : s.Unfolds f) :
    ∀ (g : Forest NodeId) (depth : Nat), s.Unfolds g → f.tops.length = g.tops.length →
      ((f.tops.zip g.tops).all fun pair => s.sameTree depth pair.1 pair.2) = true →
      f.map s.content = g.map s.content := by
  induction f with
  | nil =>
      intro g depth _ few _
      cases g with
      | nil => rfl
      | cons j below rest => cases few
  | cons i below rest ihBelow ihRest =>
      intro g depth right few same
      cases g with
      | nil => cases few
      | cons j below' rest' =>
          rw [Forest.tops, Forest.tops, List.zip_cons_cons, List.all_cons, Bool.and_eq_true] at same
          have beside := ihRest left.2.2 rest' depth right.2.2 (Nat.succ.inj few) same.2
          cases depth with
          | zero => cases same.1
          | succ depth =>
              have here := same.1
              rw [sameTree, left.1, right.1, Bool.and_eq_true, Bool.and_eq_true, beq_iff_eq,
                beq_iff_eq] at here
              obtain ⟨⟨content, length⟩, inside⟩ := here
              rw [Forest.map, Forest.map, content, beside,
                ihBelow left.2.1 below' depth right.2.1 length inside]

theorem isEqualNode_iff_map_eq {s : Store} {a b : NodeId} {f g : Forest NodeId}
    (left : s.Unfolds f) (right : s.Unfolds g) (tops : s.children a = f.tops)
    (tops' : s.children b = g.tops) :
    s.isEqualNode a b = true ↔ s.content a = s.content b ∧ f.map s.content = g.map s.content := by
  constructor
  · intro equal
    rw [isEqualNode, sameTree, tops, tops', Bool.and_eq_true, Bool.and_eq_true, beq_iff_eq,
      beq_iff_eq] at equal
    obtain ⟨⟨content, length⟩, inside⟩ := equal
    exact ⟨content, left.map_eq_of_sameTree g s.size right length inside⟩
  · rintro ⟨content, same⟩
    exact isEqualNode_of_map_eq content left right tops tops' same

theorem isEqualNode_iff {s : Store} {a b : NodeId} (left : s.Acyclic a) (right : s.Acyclic b) :
    s.isEqualNode a b = true ↔ s.outline a = s.outline b := by
  obtain ⟨f, tops, unfolded⟩ := s.exists_unfolds a left
  obtain ⟨g, tops', unfolded'⟩ := s.exists_unfolds b right
  rw [isEqualNode_iff_map_eq unfolded unfolded' tops tops', outline_eq unfolded a tops,
    outline_eq unfolded' b tops']
  constructor
  · rintro ⟨content, same⟩
    rw [content, same]
  · intro same
    have whole := Forest.rows_inj same
    rw [Forest.cons.injEq] at whole
    exact ⟨whole.1, whole.2.1⟩

/-- Equality of nodes is equality of their outlines. So it is an equivalence, and a row in which two
outlines differ keeps the nodes apart. -/
theorem isEqualNode_iff_outline (s : Store) (a b : NodeId) (left : s.Acyclic a)
    (right : s.Acyclic b) :
    (s.isEqualNode a b = true ↔ s.outline a = s.outline b) ∧
      s.isEqualNode a a = true ∧
      (s.isEqualNode a b = true → s.isEqualNode b a = true) ∧
      (∀ c, s.Acyclic c → s.isEqualNode a b = true → s.isEqualNode b c = true →
        s.isEqualNode a c = true) ∧
      ∀ n : Nat, (s.outline a)[n]? ≠ (s.outline b)[n]? → s.isEqualNode a b = false := by
  refine ⟨isEqualNode_iff left right, (isEqualNode_iff left left).mpr rfl, ?_, ?_, ?_⟩
  · intro equal
    rw [isEqualNode_iff left right] at equal
    exact (isEqualNode_iff right left).mpr equal.symm
  · intro c last first second
    rw [isEqualNode_iff left right] at first
    rw [isEqualNode_iff right last] at second
    exact (isEqualNode_iff left last).mpr (first.trans second)
  · intro n different
    rw [← Bool.not_eq_true, isEqualNode_iff left right]
    intro same
    exact different (by rw [same])

/-- Three fragments. The text comes third in each, beside the element in the first one and inside
it in the others, which share the element. -/
def movedText : Store :=
  ⟨#[⟨.fragment, none, [1, 2]⟩, ⟨.element "b" none [], some 0, []⟩, ⟨.text none, some 4, []⟩,
    ⟨.fragment, none, [4]⟩, ⟨.element "b" none [], some 3, [2]⟩, ⟨.fragment, none, [4]⟩]⟩

theorem movedText_acyclic :
    movedText.Acyclic 0 ∧ movedText.Acyclic 3 ∧ movedText.Acyclic 5 := by
  have beside : movedText.Unfolds (.cons 0 (.cons 1 .nil (.cons 2 .nil .nil)) .nil) :=
    ⟨rfl, ⟨rfl, trivial, rfl, trivial, trivial⟩, trivial⟩
  have inside : movedText.Unfolds (.cons 3 (.cons 4 (.cons 2 .nil .nil) .nil) .nil) :=
    ⟨rfl, ⟨rfl, ⟨rfl, trivial, trivial⟩, trivial⟩, trivial⟩
  have shared : movedText.Unfolds (.cons 5 (.cons 4 (.cons 2 .nil .nil) .nil) .nil) :=
    ⟨rfl, inside.2.1, trivial⟩
  exact ⟨beside.acyclic 0 List.mem_cons_self, inside.acyclic 3 List.mem_cons_self,
    shared.acyclic 5 List.mem_cons_self⟩

theorem isEqualNode_movedText :
    movedText.Acyclic 0 ∧ movedText.Acyclic 3 ∧ movedText.Acyclic 5 ∧
      movedText.outline 0 = [(0, .fragment), (1, .element "b" none []), (1, .text none)] ∧
      movedText.outline 3 = [(0, .fragment), (1, .element "b" none []), (2, .text none)] ∧
      movedText.isEqualNode 0 3 = false ∧ movedText.isEqualNode 3 5 = true ∧
      movedText.isEqualNode 5 3 = true := by
  obtain ⟨beside, inside, shared⟩ := movedText_acyclic
  have equal := (isEqualNode_iff_outline movedText 3 5 inside shared).1.mpr rfl
  have apart := (isEqualNode_iff_outline movedText 0 3 beside inside).2.2.2.2 2 (by decide)
  have back := (isEqualNode_iff_outline movedText 3 5 inside shared).2.2.1 equal
  exact ⟨beside, inside, shared, rfl, rfl, apart, equal, back⟩

end Store

end HtmlTree
