import HtmlTree.Proofs.Html.Course

/-! The start tags that a text speaks of, looked for in the text itself: what the lexer takes for the
name of one stands there behind a bracket, in some case. -/

namespace HtmlTree.Html

open Text (lower)

/-- The opening of a start tag with this name stands somewhere in the text, in any case. -/
def Mentions (text : List Char) (tag : String) : Prop := '<' :: tag.toList <:+: text.map lower

instance (text : List Char) (tag : String) : Decidable (Mentions text tag) :=
  inferInstanceAs (Decidable (List.IsInfix _ _))

variable {text word name : List Char} {tag : String}

theorem eq_nil_of_prefix_newline {rest : List Char} (free : '\n' ∉ word)
    (front : word <+: '\n' :: rest) : word = [] := by
  cases word with
  | nil => rfl
  | cons c word =>
      rw [List.cons_prefix_cons] at front
      exact absurd (front.1 ▸ List.mem_cons_self) free

theorem prefix_of_unifyLines (free : '\n' ∉ word) (front : word <+: unifyLines text) :
    word <+: text := by
  induction text using unifyLines.induct generalizing word with
  | case1 => exact front
  | case2 rest ih =>
      rw [unifyLines] at front
      rw [eq_nil_of_prefix_newline free front]
      exact List.nil_prefix
  | case3 rest single ih =>
      rw [unifyLines] at front
      · rw [eq_nil_of_prefix_newline free front]
        exact List.nil_prefix
      · exact single
  | case4 c rest other plain ih =>
      rw [unifyLines] at front
      · cases word with
        | nil => exact List.nil_prefix
        | cons d word =>
            rw [List.cons_prefix_cons] at front ⊢
            rw [List.mem_cons, not_or] at free
            exact ⟨front.1, ih free.2 front.2⟩
      · exact other
      · exact plain

/-- What has no end of a line in it stands in the text, if it does after the ends are unified. -/
theorem infix_of_unifyLines (free : '\n' ∉ word) (inside : word <:+: unifyLines text) :
    word <:+: text := by
  have blank : ∀ {rest rest' : List Char}, (word <:+: unifyLines rest → word <:+: rest') →
      word <:+: '\n' :: unifyLines rest → word <:+: rest' := by
    intro rest rest' further inside
    rcases List.infix_cons_iff.mp inside with front | behind
    · rw [eq_nil_of_prefix_newline free front]
      exact List.nil_infix
    · exact further behind
  induction text using unifyLines.induct with
  | case1 => exact inside
  | case2 rest ih =>
      rw [unifyLines] at inside
      exact blank (fun behind => (List.infix_cons (List.infix_cons (ih behind)))) inside
  | case3 rest single ih =>
      rw [unifyLines] at inside
      · exact blank (fun behind => List.infix_cons (ih behind)) inside
      · exact single
  | case4 c rest other plain ih =>
      have shape : unifyLines (c :: rest) = c :: unifyLines rest := by
        rw [unifyLines]
        · exact other
        · exact plain
      rw [shape] at inside
      rcases List.infix_cons_iff.mp inside with front | behind
      · rw [← shape] at front
        exact (prefix_of_unifyLines free front).isInfix
      · exact List.infix_cons (ih behind)

/-- The name of a start tag that is read stands behind its bracket, if no character of it was lost. -/
theorem mentions_of_opened (opened : Opened (unifyLines text) name)
    (named : Lexer.lowerText name = tag) (kept : Lexer.lost ∉ tag.toList) (free : '\n' ∉ tag.toList) :
    Mentions text tag := by
  obtain ⟨written, inside, reversed⟩ := opened
  have spelt : tag.toList = written.map fun c => lower (shown c) := by
    rw [← named, Lexer.lowerText, textOf, String.toList_ofList, ← List.map_reverse, reversed,
      List.map_map]
    rfl
  have plain : written.map (fun c => lower (shown c)) = written.map lower := by
    apply List.map_congr_left
    intro c member
    rw [shown_of_ne]
    rintro rfl
    apply kept
    rw [spelt]
    exact List.mem_map.mpr ⟨_, member, rfl⟩
  rw [plain] at spelt
  have single : '\n' ∉ '<' :: written := by
    intro member
    apply free
    rw [spelt]
    rcases List.mem_cons.mp member with absurd | member
    · cases absurd
    · exact List.mem_map.mpr ⟨_, member, rfl⟩
  have found := (infix_of_unifyLines single inside).map lower
  rw [Mentions, spelt]
  exact found

theorem Framing.mentions (frames : Framing (unifyLines text)) : Mentions text "frameset" := by
  obtain ⟨name, opened, named⟩ := frames
  exact mentions_of_opened opened named (by decide) (by decide)

theorem native_of_not_mentions (svg : ¬ Mentions text "svg") (math : ¬ Mentions text "math") :
    Native (unifyLines text) := by
  intro name opened
  constructor
  · intro named
    exact math (mentions_of_opened opened named (by decide) (by decide))
  · intro named
    exact svg (mentions_of_opened opened named (by decide) (by decide))

end HtmlTree.Html
