import HtmlTree.Json.Reader
import HtmlTree.Proofs.Values

/-! What is read from JSON is a proper value: of a key that is given again one entry is left. -/

namespace HtmlTree.Json

open Value (Proper anyReal)

variable {τ : Type}

theorem proper_number {negative : Bool} {s rest : List Char} {v : Value τ}
    (found : number negative s = some (v, rest)) : Proper anyReal v := by
  rw [number] at found
  split at found
  · cases found
  · simp only at found
    split at found
    · cases found
      exact .int _
    · cases found
      exact .real _ trivial

theorem proper_scalar {s rest : List Char} {v : Value τ} (found : scalar? s = some (v, rest)) :
    Proper anyReal v := by
  have named : ∀ word ∈ (words : List (List Char × Value τ)), Proper anyReal word.2 := by
    simp only [words, List.forall_mem_cons, List.not_mem_nil, false_implies, implies_true, and_true]
    exact ⟨.null, .bool true, .bool false, .real _ trivial, .real _ trivial, .real _ trivial⟩
  unfold scalar? at found
  split at found
  · next word =>
    cases found
    obtain ⟨⟨name, value⟩, member, same⟩ := List.exists_of_findSome?_eq_some word
    obtain ⟨_, _, result⟩ := Option.map_eq_some_iff.mp same
    cases result
    exact named _ member
  · split at found
    · exact proper_number found
    · exact proper_number found

variable [DecidableEq τ] {text : Points → τ}

section Deeper

variable {fuel : Nat}
  (value : ∀ s v rest, value? text fuel s = some (v, rest) → Proper anyReal v)
  (items : ∀ s vs rest, items? text fuel s = some (vs, rest) → ∀ v ∈ vs, Proper anyReal v)
  (entries : ∀ s es rest, entries? text fuel s = some (es, rest) → ∀ e ∈ es, Proper anyReal e.2)

include items entries in
theorem proper_value (s : List Char) (v : Value τ) (rest : List Char)
    (found : value? text (fuel + 1) s = some (v, rest)) : Proper anyReal v := by
  unfold value? at found
  split at found
  · obtain ⟨⟨text, more⟩, _, result⟩ := Option.map_eq_some_iff.mp found
    cases result
    exact .text _
  · split at found
    · cases found
      exact .list [] fun _ absurd => nomatch absurd
    · obtain ⟨⟨inside, more⟩, read, result⟩ := Option.map_eq_some_iff.mp found
      cases result
      exact .list inside (items _ _ _ read)
  · split at found
    · cases found
      exact Value.proper_nil
    · obtain ⟨⟨inside, more⟩, read, result⟩ := Option.map_eq_some_iff.mp found
      cases result
      exact .collect inside (entries _ _ _ read)
  · exact proper_scalar found

include value items in
theorem proper_items (s : List Char) (vs : List (Value τ)) (rest : List Char)
    (found : items? text (fuel + 1) s = some (vs, rest)) : ∀ v ∈ vs, Proper anyReal v := by
  unfold items? at found
  split at found
  · cases found
  · next v more first =>
    have proper := value _ _ _ first
    split at found
    · obtain ⟨⟨others, more⟩, read, result⟩ := Option.map_eq_some_iff.mp found
      cases result
      exact List.forall_mem_cons.mpr ⟨proper, items _ _ _ read⟩
    · cases found
      exact List.forall_mem_singleton.mpr proper
    · cases found

include value entries in
theorem proper_entries (s : List Char) (es : List (τ × Value τ)) (rest : List Char)
    (found : entries? text (fuel + 1) s = some (es, rest)) : ∀ e ∈ es, Proper anyReal e.2 := by
  unfold entries? at found
  split at found
  · split at found
    · cases found
    · split at found
      · split at found
        · cases found
        · next v more first =>
          have proper := value _ _ _ first
          split at found
          · obtain ⟨⟨others, more⟩, read, result⟩ := Option.map_eq_some_iff.mp found
            cases result
            exact List.forall_mem_cons.mpr ⟨proper, entries _ _ _ read⟩
          · cases found
            exact List.forall_mem_singleton.mpr proper
          · cases found
      · cases found
  · cases found

end Deeper

theorem proper_read (fuel : Nat) :
    (∀ s v rest, value? text fuel s = some (v, rest) → Proper anyReal v) ∧
      (∀ s vs rest, items? text fuel s = some (vs, rest) → ∀ v ∈ vs, Proper anyReal v) ∧
      ∀ s es rest, entries? text fuel s = some (es, rest) → ∀ e ∈ es, Proper anyReal e.2 := by
  induction fuel with
  | zero =>
      refine ⟨?_, ?_, ?_⟩
      · intro s v rest found
        cases found
      · intro s vs rest found
        cases found
      · intro s es rest found
        cases found
  | succ fuel ih =>
      obtain ⟨value, items, entries⟩ := ih
      exact ⟨proper_value items entries, proper_items value items, proper_entries value entries⟩

theorem proper_of_read {s : String} {v : Value τ} (found : readAs text s = some v) : Proper anyReal v := by
  rw [readAs] at found
  split at found
  · next first =>
    split at found
    · cases found
      exact (proper_read _).1 _ _ _ first
    · cases found
  · cases found

end HtmlTree.Json
