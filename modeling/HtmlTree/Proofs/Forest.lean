import Mathlib.Data.List.Basic
import Mathlib.Data.List.Perm.Basic

/-! Lists of trees: the label of the first tree, the trees below that label, and the trees beside
it. -/

namespace HtmlTree

inductive Forest (α : Type) where
  | nil
  | cons (label : α) (below rest : Forest α)
  deriving DecidableEq, Inhabited, Repr

namespace Forest

variable {α β : Type}

def tops : Forest α → List α
  | nil => []
  | cons a _ rest => a :: rest.tops

def labels : Forest α → List α
  | nil => []
  | cons a below rest => a :: (below.labels ++ rest.labels)

def depth : Forest α → Nat
  | nil => 0
  | cons _ below rest => max (below.depth + 1) rest.depth

def map (f : α → β) : Forest α → Forest β
  | nil => nil
  | cons a below rest => cons (f a) (below.map f) (rest.map f)

def append : Forest α → Forest α → Forest α
  | nil, g => g
  | cons a below rest, g => cons a below (rest.append g)

def trees : Forest α → List (α × Forest α)
  | nil => []
  | cons a below rest => (a, below) :: rest.trees

def ofTrees : List (α × Forest α) → Forest α
  | [] => nil
  | (a, below) :: rest => cons a below (ofTrees rest)

theorem tops_eq (f : Forest α) : f.tops = f.trees.map (·.1) := by
  induction f with
  | nil => rfl
  | cons a below rest _ ih => rw [tops, trees, List.map_cons, ih]

theorem labels_eq (f : Forest α) : f.labels = f.trees.flatMap fun u => u.1 :: u.2.labels := by
  induction f with
  | nil => rfl
  | cons a below rest _ ih =>
      rw [labels, trees, List.flatMap_cons, ← ih]
      rfl

theorem labels_single (a : α) (below : Forest α) : (cons a below nil).labels = a :: below.labels := by
  rw [labels, labels, List.append_nil]

@[simp] theorem trees_ofTrees (us : List (α × Forest α)) : (ofTrees us).trees = us := by
  induction us with
  | nil => rfl
  | cons u us ih => rw [ofTrees, trees, ih]

@[simp] theorem ofTrees_trees (f : Forest α) : ofTrees f.trees = f := by
  induction f with
  | nil => rfl
  | cons a below rest _ ih => rw [trees, ofTrees, ih]

theorem tops_ofTrees (us : List (α × Forest α)) : (ofTrees us).tops = us.map (·.1) := by
  rw [tops_eq, trees_ofTrees]

theorem labels_ofTrees (us : List (α × Forest α)) :
    (ofTrees us).labels = us.flatMap fun u => u.1 :: u.2.labels := by
  rw [labels_eq, trees_ofTrees]

theorem map_ofTrees (f : α → β) (us : List (α × Forest α)) :
    (ofTrees us).map f = ofTrees (us.map fun u => (f u.1, u.2.map f)) := by
  induction us with
  | nil => rfl
  | cons u us ih => rw [ofTrees, map, ih, List.map_cons, ofTrees]

theorem trees_append (f g : Forest α) : (f.append g).trees = f.trees ++ g.trees := by
  induction f with
  | nil => rfl
  | cons a below rest _ ih => rw [append, trees, ih, trees, List.cons_append]

theorem tops_append (f g : Forest α) : (f.append g).tops = f.tops ++ g.tops := by
  rw [tops_eq, trees_append, List.map_append, ← tops_eq, ← tops_eq]

theorem labels_append (f g : Forest α) : (f.append g).labels = f.labels ++ g.labels := by
  rw [labels_eq, trees_append, List.flatMap_append, ← labels_eq, ← labels_eq]

theorem map_append (h : α → β) (f g : Forest α) :
    (f.append g).map h = (f.map h).append (g.map h) := by
  induction f with
  | nil => rfl
  | cons a below rest _ ih => rw [append, map, ih, map, append]

theorem map_eq_cons {g : α → β} {f : Forest α} {c : β} {b r : Forest β}
    (shape : f.map g = .cons c b r) : ∃ i below rest, f = .cons i below rest ∧ g i = c ∧
      below.map g = b ∧ rest.map g = r := by
  cases f with
  | nil => cases shape
  | cons i below rest =>
      cases shape
      exact ⟨i, below, rest, rfl, rfl, rfl, rfl⟩

theorem labels_map (g : α → β) (f : Forest α) : (f.map g).labels = f.labels.map g := by
  induction f with
  | nil => rfl
  | cons a below rest ihBelow ihRest =>
      rw [map, labels, labels, ihBelow, ihRest, List.map_cons, List.map_append]

theorem map_congr {g h : α → β} {f : Forest α} (same : ∀ a ∈ f.labels, g a = h a) :
    f.map g = f.map h := by
  induction f with
  | nil => rfl
  | cons a below rest ihBelow ihRest =>
      rw [labels, List.forall_mem_cons, List.forall_mem_append] at same
      rw [map, map, same.1, ihBelow same.2.1, ihRest same.2.2]

theorem mem_labels_of_mem_tops (f : Forest α) (a : α) (top : a ∈ f.tops) : a ∈ f.labels := by
  rw [tops_eq, List.mem_map] at top
  obtain ⟨u, member, rfl⟩ := top
  rw [labels_eq, List.mem_flatMap]
  exact ⟨u, member, List.mem_cons_self⟩

end Forest

end HtmlTree
