import HtmlTree.Html.Construction
import HtmlTree.Proofs.Html.Moving

/-! The elements that the parts of a document are found by, and why they stay where they are while
the rest of a document is built: whatever is moved is something else. -/

namespace HtmlTree.Html

open Arena (Moved)

/-- The root element of a document and, once they are there, its head and its body. -/
structure Anchors where
  root : Nat
  head : Option Nat
  body : Option Nat
  deriving DecidableEq, Repr

namespace Anchors

def Holds (k : Anchors) (i : Nat) : Prop :=
  i = Arena.document ∨ i = k.root ∨ k.head = some i ∨ k.body = some i

def home (k : Anchors) (i : Nat) : Option Nat :=
  if i = Arena.document then none else if i = k.root then some Arena.document else some k.root

theorem holds_of_without_body {k : Anchors} {i : Nat} (held : { k with body := none }.Holds i) :
    k.Holds i := by
  rcases held with here | here | here | here
  · exact Or.inl here
  · exact Or.inr (Or.inl here)
  · exact Or.inr (Or.inr (Or.inl here))
  · cases here

end Anchors

variable {k : Anchors} {a a' : Arena}

/-- The parts stand where they belong and nowhere else, and the root has no element beside it. -/
structure Planted (k : Anchors) (a : Arena) : Prop where
  document : a.tag? Arena.document = none
  root : a.tag? k.root = some "html"
  head : ∀ i, k.head = some i → a.tag? i = some "head"
  body : ∀ i, k.body = some i → a.tag? i = some "body"
  stands : ∀ i, k.Holds i → ∀ j, i ∈ a.listed j ↔ k.home i = some j
  known : ∀ j, ∀ i ∈ a.listed j, i < a.size
  single : ∀ i ∈ a.listed Arena.document, (a.tag? i).isSome → i = k.root
  rooted : ∀ i, a.parent i = some Arena.document → (a.tag? i).isSome → i = k.root

namespace Planted

theorem root_ne (planted : Planted k a) : k.root ≠ Arena.document := by
  intro same
  have tagged := planted.root
  rw [same, planted.document] at tagged
  cases tagged

theorem document_lt (planted : Planted k a) : Arena.document < a.size := by
  have inside := (planted.stands k.root (Or.inr (Or.inl rfl)) Arena.document).mpr (by
    rw [Anchors.home, if_neg planted.root_ne, if_pos rfl])
  exact Arena.lt_size_of_listed inside

theorem lt_size (planted : Planted k a) {i : Nat} (held : k.Holds i) : i < a.size := by
  rcases held with rfl | rfl | head | body
  · exact planted.document_lt
  · exact Arena.lt_size_of_tag planted.root
  · exact Arena.lt_size_of_tag (planted.head i head)
  · exact Arena.lt_size_of_tag (planted.body i body)

theorem free_size (planted : Planted k a) : ¬ k.Holds a.size :=
  fun held => Nat.lt_irrefl _ (planted.lt_size held)

/-- A tree in which every node is tagged as before, the parts are listed as before, and no other
element has come beside the root. -/
theorem transfer (planted : Planted k a) (grows : a.size ≤ a'.size)
    (tags : ∀ i < a.size, a'.tag? i = a.tag? i)
    (stands : ∀ i, k.Holds i → ∀ j, i ∈ a'.listed j ↔ i ∈ a.listed j)
    (known : ∀ j, ∀ i ∈ a'.listed j, i < a.size)
    (single : ∀ i ∈ a'.listed Arena.document, (a.tag? i).isSome → i ∈ a.listed Arena.document)
    (rooted : ∀ i, a'.parent i = some Arena.document →
      i < a.size ∧ ((a.tag? i).isSome → a.parent i = some Arena.document)) : Planted k a' where
  document := (tags _ planted.document_lt).trans planted.document
  root := (tags _ (Arena.lt_size_of_tag planted.root)).trans planted.root
  head i head := (tags _ (planted.lt_size (Or.inr (Or.inr (Or.inl head))))).trans (planted.head i head)
  body i body := (tags _ (planted.lt_size (Or.inr (Or.inr (Or.inr body))))).trans (planted.body i body)
  stands i held j := (stands i held j).trans (planted.stands i held j)
  known j i inside := Nat.lt_of_lt_of_le (known j i inside) grows
  single i inside tagged := by
    rw [tags i (known _ i inside)] at tagged
    exact planted.single i (single i inside tagged) tagged
  rooted i attached tagged := by
    obtain ⟨old, before⟩ := rooted i attached
    rw [tags i old] at tagged
    exact planted.rooted i (before tagged) tagged

theorem make (planted : Planted k a) (part : Part) : Planted k (a.make part).2 := by
  apply planted.transfer
  · rw [Arena.size_make]
    exact Nat.le_succ _
  · intro i old
    rw [Arena.tag_make, if_neg (Nat.ne_of_lt old)]
  · intro i _ j
    rw [Arena.listed_make]
  · intro j i inside
    rw [Arena.listed_make] at inside
    exact planted.known j i inside
  · intro i inside _
    rwa [Arena.listed_make] at inside
  · intro i attached
    rw [Arena.parent_make] at attached
    exact ⟨Arena.lt_size_of_parent attached, fun _ => attached⟩

/-- What is no part can be put anywhere, an element only not beside the root. -/
theorem moved (planted : Planted k a) {i p : Nat} (moved : Moved a i p a') (free : ¬ k.Holds i)
    (old : i < a.size) (safe : p ≠ Arena.document ∨ a.tag? i = none) : Planted k a' := by
  have apart : (a.tag? i).isSome → Arena.document ≠ p := by
    intro tagged same
    rcases safe with apart | bare
    · exact apart same.symm
    · rw [bare] at tagged
      cases tagged
  apply planted.transfer
  · exact Nat.le_of_eq moved.size.symm
  · exact fun j _ => moved.tag? j
  · exact fun x held j => moved.others x j fun same => free (same ▸ held)
  · intro j x inside
    by_cases same : x = i
    · exact same ▸ old
    · exact planted.known j x ((moved.others x j same).mp inside)
  · intro x inside tagged
    by_cases same : x = i
    · subst same
      exact (moved.itself _ inside).resolve_left (apart tagged)
    · exact (moved.others x _ same).mp inside
  · intro x attached
    rcases moved.parent x _ attached with ⟨rfl, here⟩ | before
    · exact ⟨old, fun tagged => (apart tagged here).elim⟩
    · exact ⟨Arena.lt_size_of_parent before, fun _ => before⟩

theorem setAttrs (planted : Planted k a) (i : Nat) (attrs : List BuiltAttr) :
    Planted k (a.setAttrs i attrs) := by
  apply planted.transfer
  · exact Nat.le_of_eq (Arena.size_setAttrs a i attrs).symm
  · exact fun j _ => Arena.tag_setAttrs a i j attrs
  · intro x _ j
    rw [Arena.listed_setAttrs]
  · intro j x inside
    rw [Arena.listed_setAttrs] at inside
    exact planted.known j x inside
  · intro x inside _
    rwa [Arena.listed_setAttrs] at inside
  · intro x attached
    rw [Arena.parent_setAttrs] at attached
    exact ⟨Arena.lt_size_of_parent attached, fun _ => attached⟩

theorem detach (planted : Planted k a) {i : Nat} (free : ¬ k.Holds i) : Planted k (a.detach i) := by
  apply planted.transfer
  · exact Nat.le_of_eq (Arena.size_detach a i).symm
  · intro j _
    rw [Arena.tag?, Arena.part_detach, ← Arena.tag?]
  · intro x held j
    have other : x ≠ i := fun same => free (same ▸ held)
    exact Arena.mem_listed_detach j other
  · exact fun j x inside => planted.known j x (Arena.listed_detach_subset a i j inside)
  · exact fun x inside _ => Arena.listed_detach_subset a i _ inside
  · intro x attached
    rw [Arena.parent_detach] at attached
    split at attached
    · cases attached
    · exact ⟨Arena.lt_size_of_parent attached, fun _ => attached⟩

theorem without_body (planted : Planted k a) : Planted { k with body := none } a where
  document := planted.document
  root := planted.root
  head := planted.head
  body _ absurd := by cases absurd
  stands i held := planted.stands i (Anchors.holds_of_without_body held)
  known := planted.known
  single := planted.single
  rooted := planted.rooted

theorem appendAll {target : Nat} (apart : target ≠ Arena.document) (l : List Nat) : ∀ {a : Arena},
    Planted k a → (∀ i ∈ l, ¬ k.Holds i ∧ i < a.size) →
      Planted k (l.foldl (fun a i => a.append target i) a) := by
  induction l with
  | nil => exact fun planted _ => planted
  | cons i l ih =>
      intro a planted free
      have moved := Arena.moved_append a target i
      obtain ⟨here, old⟩ := free i List.mem_cons_self
      refine ih (planted.moved moved here old (Or.inl apart)) fun j inside => ?_
      obtain ⟨there, known⟩ := free j (List.mem_cons_of_mem _ inside)
      exact ⟨there, moved.size.symm ▸ known⟩

theorem free_listed (planted : Planted k a) {source i : Nat} (free : ¬ k.Holds source)
    (inside : i ∈ a.listed source) : ¬ k.Holds i := by
  intro held
  have home := (planted.stands i held source).mp inside
  rw [Anchors.home] at home
  split at home
  · cases home
  · split at home
    · cases home
      exact free (Or.inl rfl)
    · cases home
      exact free (Or.inr (Or.inl rfl))

theorem moveChildren (planted : Planted k a) {source target : Nat} (free : ¬ k.Holds source)
    (apart : target ≠ Arena.document) : Planted k (a.moveChildren source target) := by
  rw [Arena.moveChildren_eq]
  exact appendAll apart _ planted fun i inside =>
    ⟨planted.free_listed free inside, planted.known source i inside⟩

theorem insert (planted : Planted k a) {p : Nat} {part : Part}
    (safe : p ≠ Arena.document ∨ part.tag? = none) : Planted k (a.insert p part) := by
  apply (planted.make part).moved (Arena.moved_append _ p a.size) planted.free_size
  · rw [Arena.size_make]
    exact Nat.lt_succ_self _
  · rwa [Arena.tag_make, if_pos rfl]

theorem plant (planted : Planted k a) {k' : Anchors} (root : k'.root = k.root) {part : Part}
    (held : ∀ i, k'.Holds i → i = a.size ∨ k.Holds i)
    (head : ∀ i, k'.head = some i → (a.insert k.root part).tag? i = some "head")
    (body : ∀ i, k'.body = some i → (a.insert k.root part).tag? i = some "body") :
    Planted k' (a.insert k.root part) := by
  have inserted : Planted k (a.insert k.root part) := planted.insert (Or.inl planted.root_ne)
  constructor
  case document => exact inserted.document
  case root =>
    rw [root]
    exact inserted.root
  case head => exact head
  case body => exact body
  case known => exact inserted.known
  case single =>
    rw [root]
    exact inserted.single
  case rooted =>
    rw [root]
    exact inserted.rooted
  case stands =>
    intro i holds j
    have home : k'.home i = k.home i := by rw [Anchors.home, Anchors.home, root]
    rw [home]
    rcases held i holds with rfl | before
    · have apart : a.size ≠ Arena.document ∧ a.size ≠ k.root :=
        ⟨fun same => planted.free_size (Or.inl same),
          fun same => planted.free_size (Or.inr (Or.inl same))⟩
      have new : ∀ j, a.size ∉ a.listed j := fun j inside =>
        Nat.lt_irrefl _ (planted.known j _ inside)
      rw [Anchors.home, if_neg apart.1, if_neg apart.2, Option.some.injEq]
      exact Arena.new_listed_insert (Arena.lt_size_of_tag planted.root) part new j
    · exact inserted.stands i before j

end Planted

/-- A document before its root is there: nothing in it is an element. -/
structure Bare (a : Arena) : Prop where
  room : Arena.document < a.size
  plain : ∀ i, a.tag? i = none
  known : ∀ j, ∀ i ∈ a.listed j, i < a.size ∧ i ≠ Arena.document

namespace Bare

theorem initial : Bare .initial where
  room := Nat.zero_lt_one
  plain i := by
    cases i <;> rfl
  known j := by
    cases j <;> exact fun _ absurd => by cases absurd

theorem known_insert (bare : Bare a) (part : Part) (j : Nat) :
    ∀ i ∈ (a.insert Arena.document part).listed j, i < a.size + 1 ∧ i ≠ Arena.document := by
  intro i inside
  have moved := Arena.moved_append (a.make part).2 Arena.document a.size
  by_cases new : i = a.size
  · subst new
    exact ⟨Nat.lt_succ_self _, Nat.ne_of_gt bare.room⟩
  · have before := (moved.others i j new).mp inside
    rw [Arena.listed_make] at before
    exact ⟨Nat.lt_succ_of_lt (bare.known j i before).1, (bare.known j i before).2⟩

theorem insert (bare : Bare a) {part : Part} (plain : part.tag? = none) :
    Bare (a.insert Arena.document part) where
  room := by
    rw [Arena.size_insert]
    exact Nat.succ_pos _
  plain i := by
    rw [Arena.tag_insert]
    split
    · exact plain
    · exact bare.plain i
  known j := by
    rw [Arena.size_insert]
    exact bare.known_insert part j

theorem plant (bare : Bare a) (space : Space) (attrs : List BuiltAttr) :
    Planted ⟨a.size, none, none⟩ (a.insert Arena.document (.element "html" space attrs)) := by
  have apart : a.size ≠ Arena.document := Nat.ne_of_gt bare.room
  have tag : ∀ i, (a.insert Arena.document (.element "html" space attrs)).tag? i =
      if i = a.size then some "html" else none := by
    intro i
    rw [Arena.tag_insert, bare.plain]
    rfl
  have is_root : ∀ i, ((a.insert Arena.document (.element "html" space attrs)).tag? i).isSome →
      i = a.size := by
    intro i tagged
    rw [tag] at tagged
    split at tagged
    · assumption
    · cases tagged
  constructor
  case document => rw [tag, if_neg apart.symm]
  case root => rw [tag, if_pos rfl]
  case head => exact fun _ absurd => by cases absurd
  case body => exact fun _ absurd => by cases absurd
  case known =>
    intro j i inside
    rw [Arena.size_insert]
    exact (bare.known_insert _ j i inside).1
  case single => exact fun i _ tagged => is_root i tagged
  case rooted => exact fun i _ tagged => is_root i tagged
  case stands =>
    rintro i (rfl | rfl | absurd | absurd) j
    · constructor
      · exact fun inside => absurd rfl (bare.known_insert _ j _ inside).2
      · intro home
        cases home
    · have new : ∀ j, a.size ∉ a.listed j := fun j inside =>
        Nat.lt_irrefl _ (bare.known j _ inside).1
      rw [Anchors.home, if_neg apart, if_pos rfl, Option.some.injEq]
      exact Arena.new_listed_insert bare.room _ new j
    · cases absurd
    · cases absurd

end Bare

end HtmlTree.Html
