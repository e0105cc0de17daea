import HtmlTree.Html.Parsed
import HtmlTree.Proofs.Forest

/-! What is added to the tree that a parse builds when nodes only ever go to the end of the list of
an open element. -/

namespace HtmlTree.Html

def Part.parsed : Part → List Parsed → Parsed
  | .document, below => .other 9 below
  | .element name space attrs, below =>
    .element name space.uri (attrs.map fun attr => (attr.name, attr.value)) below
  | .text value, _ => .text value
  | .comment data, _ => .comment data
  | .doctype name publicId systemId, _ => .doctype name publicId systemId

namespace Arena

def size (a : Arena) : Nat := a.cells.size

def part (a : Arena) (i : Nat) : Part := (a.cell i).part

def listed (a : Arena) (i : Nat) : List Nat := (a.children i).toList

def insert (a : Arena) (p : Nat) (part : Part) : Arena := (a.make part).2.append p a.size

theorem cell_modify (a : Arena) (i j : Nat) (f : Cell → Cell) :
    (a.modify i f).cell j = if i = j ∧ j < a.size then f (a.cell j) else a.cell j := by
  simp only [modify, cell, Array.getElem?_modify, size]
  by_cases same : i = j
  · subst same
    by_cases bound : i < a.cells.size
    · have found : a.cells[i]? = some a.cells[i] := Array.getElem?_eq_getElem bound
      simp only [found, bound, and_self, if_true, Option.map_some, Option.getD_some]
    · have absent : a.cells[i]? = none := Array.getElem?_eq_none (Nat.le_of_not_lt bound)
      simp only [absent, bound, and_false, if_true, if_false, Option.map_none]
  · simp only [same, false_and, if_false]

theorem cell_make (a : Arena) (part : Part) (j : Nat) :
    (a.make part).2.cell j = if j = a.size then ⟨part, none, #[]⟩ else a.cell j := by
  have pushed : (a.cells.push ⟨part, none, #[]⟩)[j]? =
      if j = a.size then some ⟨part, none, #[]⟩ else a.cells[j]? := Array.getElem?_push
  simp only [make, cell, pushed]
  split <;> rfl

theorem size_modify (a : Arena) (i : Nat) (f : Cell → Cell) : (a.modify i f).size = a.size :=
  Array.size_modify

theorem insert_eq (a : Arena) (p : Nat) (part : Part) :
    a.insert p part = ((a.make part).2.modify p fun cell =>
      { cell with children := cell.children.push a.size }).modify a.size fun cell =>
        { cell with parent := some p } := by
  have loose : (a.make part).2.parent a.size = none := by
    rw [parent, cell_make, if_pos rfl]
  have free : (a.make part).2.detach a.size = (a.make part).2 := by
    rw [detach, loose]
  rw [insert, append, free]

theorem size_insert (a : Arena) (p : Nat) (part : Part) : (a.insert p part).size = a.size + 1 := by
  rw [insert_eq, size_modify, size_modify]
  exact Array.size_push _

variable {a : Arena} {p : Nat}

theorem cell_insert_new (known : p < a.size) (part : Part) :
    (a.insert p part).cell a.size = ⟨part, some p, #[]⟩ := by
  have apart : ¬ (p = a.size ∧ a.size < (a.make part).2.size) := fun both => by omega
  have bound : a.size < (a.make part).2.size := by
    change a.size < (a.cells.push _).size
    rw [Array.size_push]
    exact Nat.lt_succ_self _
  rw [insert_eq, cell_modify, size_modify, if_pos ⟨rfl, bound⟩, cell_modify, if_neg apart, cell_make,
    if_pos rfl]

theorem cell_insert_old (part : Part) (j : Nat) (old : j < a.size) :
    (a.insert p part).cell j =
      if p = j then { a.cell j with children := (a.cell j).children.push a.size } else a.cell j := by
  have bound : j < (a.make part).2.size := by
    change j < (a.cells.push _).size
    rw [Array.size_push]
    exact Nat.lt_succ_of_lt old
  have apart : ¬ (a.size = j ∧ j < ((a.make part).2.modify p fun cell =>
      { cell with children := cell.children.push a.size }).size) := fun both => by omega
  rw [insert_eq, cell_modify, if_neg apart, cell_modify, cell_make, if_neg (Nat.ne_of_lt old)]
  simp only [bound, and_true]

theorem part_insert_new (known : p < a.size) (part : Part) :
    (a.insert p part).part a.size = part := by
  rw [Arena.part, cell_insert_new known]

theorem part_insert_old (part : Part) (j : Nat) (old : j < a.size) :
    (a.insert p part).part j = a.part j := by
  rw [Arena.part, cell_insert_old part j old]
  split <;> rfl

theorem listed_insert_new (known : p < a.size) (part : Part) :
    (a.insert p part).listed a.size = [] := by
  rw [listed, children, cell_insert_new known]

theorem listed_insert_old (part : Part) (j : Nat) (old : j < a.size) :
    (a.insert p part).listed j = if j = p then a.listed p ++ [a.size] else a.listed j := by
  rw [listed, children, cell_insert_old part j old]
  by_cases same : p = j
  · subst same
    rw [if_pos rfl, if_pos rfl]
    exact Array.toList_push
  · rw [if_neg same, if_neg (Ne.symm same)]
    rfl

/-- The forest follows the lists of children down to where they end. -/
def Unfolds (a : Arena) : Forest Nat → Prop
  | .nil => True
  | .cons i below rest => a.listed i = below.tops ∧ a.Unfolds below ∧ a.Unfolds rest

def parsed (a : Arena) : Forest Nat → List Parsed
  | .nil => []
  | .cons i below rest => (a.part i).parsed (a.parsed below) :: a.parsed rest

theorem Unfolds.congr {b : Arena} {f : Forest Nat} (unfolded : a.Unfolds f)
    (same : ∀ i ∈ f.labels, b.listed i = a.listed i) : b.Unfolds f := by
  induction f with
  | nil => trivial
  | cons i below rest ihBelow ihRest =>
      obtain ⟨here, deeper, beside⟩ := unfolded
      rw [Forest.labels, List.forall_mem_cons, List.forall_mem_append] at same
      exact ⟨same.1.trans here, ihBelow deeper same.2.1, ihRest beside same.2.2⟩

theorem parsed_congr {b : Arena} {f : Forest Nat} (same : ∀ i ∈ f.labels, b.part i = a.part i) :
    b.parsed f = a.parsed f := by
  induction f with
  | nil => rfl
  | cons i below rest ihBelow ihRest =>
      rw [Forest.labels, List.forall_mem_cons, List.forall_mem_append] at same
      rw [parsed, parsed, same.1, ihBelow same.2.1, ihRest same.2.2]

theorem below_succ (a : Arena) (depth i : Nat) :
    a.below (depth + 1) i = (a.listed i).map fun c => (a.part c).parsed (a.below depth c) := by
  rw [below, listed]
  apply List.map_congr_left
  intro c _
  rw [Arena.part]
  cases (a.cell c).part <;> rfl

theorem Unfolds.map_tops {f : Forest Nat} (unfolded : a.Unfolds f) : ∀ depth, f.depth ≤ depth + 1 →
    (f.tops.map fun c => (a.part c).parsed (a.below depth c)) = a.parsed f := by
  induction f with
  | nil => exact fun _ _ => rfl
  | cons i below rest ihBelow ihRest =>
      intro depth deep
      obtain ⟨here, deeper, beside⟩ := unfolded
      rw [Forest.depth] at deep
      have inside : a.below depth i = a.parsed below := by
        cases depth with
        | zero =>
            cases below with
            | nil => rfl
            | cons j further others =>
                rw [Forest.depth] at deep
                omega
        | succ depth =>
            rw [below_succ, here]
            exact ihBelow deeper depth (by omega)
      rw [Forest.tops, List.map_cons, inside, ihRest beside depth (by omega), parsed]

theorem Unfolds.below_eq {f : Forest Nat} (unfolded : a.Unfolds f) (i depth : Nat)
    (tops : a.listed i = f.tops) (deep : f.depth ≤ depth) : a.below depth i = a.parsed f := by
  cases depth with
  | zero =>
      cases f with
      | nil => rfl
      | cons j below rest =>
          rw [Forest.depth] at deep
          omega
  | succ depth =>
      rw [below_succ, tops]
      exact unfolded.map_tops depth deep

/-- A tree that has more at the end of one node's list, all of it new, and is else as it was. -/
structure Grown (a : Arena) (p : Nat) (f : Forest Nat) (b : Arena) : Prop where
  part : ∀ j < a.size, b.part j = a.part j
  listed : ∀ j < a.size, b.listed j = if j = p then a.listed p ++ f.tops else a.listed j
  new : ∀ j ∈ f.labels, a.size ≤ j ∧ j < b.size
  unfolds : b.Unfolds f
  room : a.size + f.depth ≤ b.size

theorem grown_refl (a : Arena) (p : Nat) : Grown a p .nil a where
  part _ _ := rfl
  listed j _ := by
    split
    · next same => rw [same, Forest.tops, List.append_nil]
    · rfl
  new _ absurd := nomatch absurd
  unfolds := trivial
  room := Nat.le_refl _

theorem Grown.size_le {a b : Arena} {p : Nat} {f : Forest Nat} (grown : Grown a p f b) :
    a.size ≤ b.size := Nat.le_trans (Nat.le_add_right _ _) grown.room

theorem Grown.cons {a b c : Arena} {p : Nat} {part : Part} {below rest : Forest Nat}
    (known : p < a.size) (first : Grown (a.insert p part) a.size below b) (second : Grown b p rest c) :
    Grown a p (.cons a.size below rest) c where
  part j old := by
    have between := first.size_le
    rw [size_insert] at between
    rw [second.part j (by omega), first.part j (by rw [size_insert]; omega), part_insert_old part j old]
  listed j old := by
    have between := first.size_le
    rw [size_insert] at between
    have was : ∀ k < a.size, b.listed k = (a.insert p part).listed k := by
      intro k older
      rw [first.listed k (by rw [size_insert]; omega), if_neg (by omega)]
    rw [second.listed j (by omega), was p known, was j old, listed_insert_old part p known, if_pos rfl,
      listed_insert_old part j old]
    split
    · rw [List.append_assoc, Forest.tops, List.singleton_append]
    · rfl
  new j inside := by
    have between := first.size_le
    have after := second.size_le
    rw [size_insert] at between
    rw [Forest.labels, List.mem_cons, List.mem_append] at inside
    rcases inside with rfl | inside | inside
    · omega
    · have range := first.new j inside
      rw [size_insert] at range
      omega
    · have range := second.new j inside
      omega
  unfolds := by
    have between := first.size_le
    rw [size_insert] at between
    refine ⟨?_, ?_, second.unfolds⟩
    · rw [second.listed a.size (by omega), if_neg (by omega),
        first.listed a.size (by rw [size_insert]; omega), if_pos rfl, listed_insert_new known,
        List.nil_append]
    · apply first.unfolds.congr
      intro j inside
      have range := first.new j inside
      rw [size_insert] at range
      rw [second.listed j range.2, if_neg (by omega)]
  room := by
    have inner := first.room
    have outer := second.room
    rw [size_insert] at inner
    rw [Forest.depth]
    omega

/-- The tree has more at the end of one node's list, which reads as these parsed nodes. -/
def Gains (a : Arena) (p : Nat) (ts : List Parsed) (b : Arena) : Prop :=
  ∃ f, Grown a p f b ∧ b.parsed f = ts

theorem gains_nothing (a : Arena) (p : Nat) : Gains a p [] a := ⟨.nil, grown_refl a p, rfl⟩

theorem Gains.size_le {a b : Arena} {p : Nat} {ts : List Parsed} (gains : Gains a p ts b) :
    a.size ≤ b.size := by
  obtain ⟨f, grown, _⟩ := gains
  exact grown.size_le

theorem Gains.cons {a b c : Arena} {p : Nat} {part : Part} {below rest : List Parsed}
    (known : p < a.size) (first : Gains (a.insert p part) a.size below b) (second : Gains b p rest c) :
    Gains a p (part.parsed below :: rest) c := by
  obtain ⟨f, inside, rfl⟩ := first
  obtain ⟨g, after, rfl⟩ := second
  refine ⟨.cons a.size f g, inside.cons known after, ?_⟩
  have between := inside.size_le
  rw [size_insert] at between
  have same : ∀ j ∈ f.labels, c.part j = b.part j := fun j member =>
    after.part j (inside.new j member).2
  rw [parsed, after.part a.size (by omega), inside.part a.size (by rw [size_insert]; omega),
    part_insert_new known, parsed_congr same]

theorem Gains.contents_eq {a b : Arena} {p : Nat} {ts : List Parsed} (gains : Gains a p ts b)
    (known : p < a.size) (bare : a.listed p = []) : b.contents p = ts := by
  obtain ⟨f, grown, rfl⟩ := gains
  apply grown.unfolds.below_eq
  · rw [grown.listed p known, if_pos rfl, bare, List.nil_append]
  · exact Nat.le_trans (Nat.le_add_left _ _) grown.room

end Arena

end HtmlTree.Html
