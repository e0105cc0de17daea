import HtmlTree.Html.OpenElements
import Mathlib.Data.List.TakeWhile

/-! What is left of a stack of open elements when some of them are closed. -/

namespace HtmlTree.Html

variable {s t u : List Open} {o : Open} {wanted : Open → Bool}

theorem popTo_eq (wanted : Open → Bool) (s : List Open) :
    popTo wanted s = s.dropWhile fun o => !wanted o := by
  induction s with
  | nil => rfl
  | cons o s ih =>
      rw [popTo, List.dropWhile_cons]
      cases wanted o
      · exact ih
      · rfl

theorem popThrough_eq (wanted : Open → Bool) (s : List Open) :
    popThrough wanted s = (popTo wanted s).tail := by
  induction s with
  | nil => rfl
  | cons o s ih =>
      rw [popThrough, popTo]
      cases wanted o
      · exact ih
      · rfl

theorem dropImplied_eq (except : Option String) (s : List Open) : dropImplied except s =
    s.dropWhile fun o => impliedEndTags.contains o.name && some o.name ≠ except := by
  induction s with
  | nil => rfl
  | cons o s ih =>
      rw [dropImplied, List.dropWhile_cons]
      split
      · exact ih
      · rfl

theorem popTo_suffix (wanted : Open → Bool) (s : List Open) : popTo wanted s <:+ s := by
  rw [popTo_eq]
  exact List.dropWhile_suffix _

theorem mem_dropWhile {p : Open → Bool} (inside : o ∈ s) (stays : p o = false) :
    o ∈ s.dropWhile p := by
  rw [← List.takeWhile_append_dropWhile (p := p) (l := s), List.mem_append] at inside
  rcases inside with front | rest
  · rw [List.mem_takeWhile_imp front] at stays
    cases stays
  · exact rest

theorem mem_popTo (inside : o ∈ s) (stops : wanted o = true) : o ∈ popTo wanted s := by
  rw [popTo_eq]
  apply mem_dropWhile inside
  rw [stops]
  rfl

theorem mem_dropImplied {except : Option String} (inside : o ∈ s)
    (lasts : impliedEndTags.contains o.name = false ∨ some o.name = except) :
    o ∈ dropImplied except s := by
  rw [dropImplied_eq]
  apply mem_dropWhile inside
  rcases lasts with other | spared
  · rw [other, Bool.false_and]
  · rw [Bool.and_eq_false_iff]
    exact Or.inr (decide_eq_false fun other => other spared)

theorem exists_of_findInScope {scope : Scope} : ∀ {s : List Open},
    findInScope scope wanted s = true → ∃ o ∈ s, wanted o = true
  | [], found => nomatch found
  | o :: s, found => by
      rw [findInScope, Bool.or_eq_true, Bool.and_eq_true] at found
      rcases found with here | ⟨_, further⟩
      · exact ⟨o, List.mem_cons_self, here⟩
      · obtain ⟨p, inside, here⟩ := exists_of_findInScope further
        exact ⟨p, List.mem_cons_of_mem o inside, here⟩

/-- Elements are taken off the stack, and the outermost one stays. -/
structure Trims (s t : List Open) : Prop where
  sublist : t.Sublist s
  last : t.getLast? = s.getLast?

theorem Trims.refl (s : List Open) : Trims s s := ⟨List.Sublist.refl s, rfl⟩

theorem Trims.trans (first : Trims s t) (second : Trims t u) : Trims s u :=
  ⟨second.sublist.trans first.sublist, second.last.trans first.last⟩

theorem trims_of_suffix (suffix : t <:+ s) (left : t ≠ []) : Trims s t := by
  refine ⟨suffix.sublist, ?_⟩
  obtain ⟨front, rfl⟩ := suffix
  rw [List.getLast?_append, List.getLast?_eq_some_getLast left, Option.some_or]

theorem trims_dropWhile {p : Open → Bool} (stays : ∀ o, s.getLast? = some o → p o = false) :
    Trims s (s.dropWhile p) := by
  cases s with
  | nil => exact Trims.refl []
  | cons o s =>
      apply trims_of_suffix (List.dropWhile_suffix p)
      have last := List.getLast_mem (List.cons_ne_nil o s)
      exact List.ne_nil_of_mem (mem_dropWhile last (stays _ (List.getLast?_eq_some_getLast _)))

theorem trims_tail (other : s.head? ≠ s.getLast?) : Trims s s.tail := by
  apply trims_of_suffix (List.tail_suffix s)
  intro nothing
  match s, nothing with
  | [], _ => exact other rfl
  | [_], _ => exact other rfl

theorem trims_popTo (stays : ∀ o, s.getLast? = some o → wanted o = true) :
    Trims s (popTo wanted s) := by
  rw [popTo_eq]
  apply trims_dropWhile
  intro o last
  rw [stays o last]
  rfl

theorem trims_dropImplied {except : Option String}
    (stays : ∀ o, s.getLast? = some o → impliedEndTags.contains o.name = false) :
    Trims s (dropImplied except s) := by
  rw [dropImplied_eq]
  apply trims_dropWhile
  intro o last
  rw [stays o last, Bool.false_and]

theorem head_popTo (first : (popTo wanted s).head? = some o) : wanted o = true := by
  rw [popTo_eq] at first
  have stops := List.head?_dropWhile_not (fun o => !wanted o) s
  rw [first] at stops
  exact Bool.not_eq_false' .. ▸ stops

theorem trims_popThrough (found : ∃ o ∈ s, wanted o = true)
    (stays : ∀ o, s.getLast? = some o → wanted o = false) : Trims s (popThrough wanted s) := by
  obtain ⟨o, inside, here⟩ := found
  have left : popTo wanted s ≠ [] := List.ne_nil_of_mem (mem_popTo inside here)
  have first := trims_of_suffix (popTo_suffix wanted s) left
  rw [popThrough_eq]
  apply first.trans (trims_tail _)
  intro same
  obtain ⟨p, rest, shape⟩ := List.exists_cons_of_ne_nil left
  have head : (popTo wanted s).head? = some p := by rw [shape, List.head?_cons]
  have stops := head_popTo head
  rw [stays p (by rw [← first.last, ← same, head])] at stops
  cases stops

theorem trims_eraseP (stays : ∀ o, s.getLast? = some o → wanted o = false) :
    Trims s (s.eraseP wanted) := by
  refine ⟨List.eraseP_sublist, ?_⟩
  induction s with
  | nil => rfl
  | cons o s ih =>
      cases s with
      | nil => rw [List.eraseP_cons, stays o rfl, cond_false, List.eraseP_nil]
      | cons p s =>
          have kept := ih fun q last => stays q (by rw [List.getLast?_cons_cons, last])
          rw [List.eraseP_cons]
          cases wanted o
          · rw [cond_false, List.getLast?_cons, kept, List.getLast?_cons_cons, ← List.getLast?_cons,
              List.getLast?_cons_cons]
          · rw [cond_true, List.getLast?_cons_cons]

end HtmlTree.Html
