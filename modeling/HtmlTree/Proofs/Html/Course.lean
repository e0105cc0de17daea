import HtmlTree.Proofs.Html.Leads
import HtmlTree.Proofs.Html.Lexed
import HtmlTree.Proofs.Html.Sound
import HtmlTree.Proofs.Html.Strict

/-! The parse of a document from its start to its end, with lexer and construction together. It is
complete if the text has no start tags of foreign content, and if it is complete the document has
its parts. -/

namespace HtmlTree.Html

def Framing (text : List Char) : Prop :=
  ∃ name, Opened text name ∧ Lexer.lowerText name = "frameset"

/-- No start tag of foreign content stands in the text. -/
def Native (text : List Char) : Prop :=
  ∀ name, Opened text name → Lexer.lowerText name ≠ "math" ∧ Lexer.lowerText name ≠ "svg"

section Items

variable {text : List Char} {items : List Item} {item : Item} {t : Token} {tag : Tag}

theorem Emits.opened (emits : Emits text items) (inside : .token (.startTag tag) ∈ items) :
    ∃ name, tag.name = Lexer.lowerText name ∧ Opened text name := by
  rcases emits with none | ⟨other, name, alone, named, opened⟩
  · exact (none tag inside).elim
  · have found : Token.startTag tag ∈ items.filterMap Item.token? :=
      List.mem_filterMap.mpr ⟨_, inside, rfl⟩
    rw [alone, List.mem_singleton, Token.startTag.injEq] at found
    subst found
    exact ⟨name, named, opened⟩

theorem Emits.no_start (emits : Emits text (.token t :: items)) (tag : Tag) :
    Item.token (.startTag tag) ∉ items := by
  intro inside
  rcases emits with none | ⟨_, _, alone, _⟩
  · exact none tag (List.mem_cons_of_mem _ inside)
  · have found : Token.startTag tag ∈ items.filterMap Item.token? :=
      List.mem_filterMap.mpr ⟨_, inside, rfl⟩
    have shape : (Item.token t :: items).filterMap Item.token? = t :: items.filterMap Item.token? := rfl
    rw [shape, List.cons.injEq] at alone
    rw [alone.2] at found
    cases found

theorem Emits.tail (emits : Emits text (item :: items)) : Emits text items := by
  cases item with
  | token t => exact Or.inl emits.no_start
  | fault f =>
      rcases emits with none | ⟨tag, name, alone, rest⟩
      · exact Or.inl fun tag inside => none tag (List.mem_cons_of_mem _ inside)
      · exact Or.inr ⟨tag, name, alone, rest⟩

theorem mem_drain {l : Lexer} : Item.token t ∈ l.drain.1 ↔ Item.token t ∈ l.out := by
  rw [Lexer.drain, List.mem_append, List.mem_reverse]
  refine or_iff_right fun absurd => ?_
  cases List.eq_of_mem_replicate absurd

theorem Emits.drain {l : Lexer} (emits : Emits text l.out) : Emits text l.drain.1 := by
  rcases emits with none | ⟨tag, name, alone, rest⟩
  · exact Or.inl fun tag inside => none tag (mem_drain.mp inside)
  · refine Or.inr ⟨tag, name, ?_, rest⟩
    have silent : (List.replicate l.input.alerts (Item.fault .invalidCodepoint)).filterMap Item.token? =
        [] := by
      rw [List.filterMap_eq_nil_iff]
      intro item inside
      rw [List.eq_of_mem_replicate inside]
      rfl
    rw [Lexer.drain, List.filterMap_append, silent, List.filterMap_reverse, alone]
    rfl

end Items

/-- A parse under way, with items that have not been taken up yet. -/
structure Going (text : List Char) (items : List Item) (l : Lexer) (b : Builder) : Prop where
  lexed : Lexed text l
  quiet : l.out = []
  emits : Emits text items
  alive : b.collapse = none
  untold : b.lexerState = none
  underway : Underway (Framing text) b
  sound : Native text → Sound b
  confined : Native text → b.mode = .text → (∀ tag, Item.token (.startTag tag) ∉ items) ∧
    (Confined text l ∨ ∃ name, Item.token (.endTag name) ∈ items)

variable {text : List Char} {items : List Item} {l : Lexer} {b : Builder} {t : Token}

namespace Going

theorem fault {f : Fault} (h : Going text (.fault f :: items) l b) : Going text items l b := by
  refine { h with emits := h.emits.tail, confined := fun native mode => ?_ }
  obtain ⟨none, confined⟩ := h.confined native mode
  refine ⟨fun tag inside => none tag (List.mem_cons_of_mem _ inside), ?_⟩
  rcases confined with confined | ⟨name, inside⟩
  · exact Or.inl confined
  · rcases List.mem_cons.mp inside with absurd | inside
    · cases absurd
    · exact Or.inr ⟨name, inside⟩

variable (h : Going text (.token t :: items) l b)
include h

theorem frames (tag : Tag) (start : t = .startTag tag) (name : tag.name = "frameset") : Framing text := by
  subst start
  obtain ⟨written, named, opened⟩ := h.emits.opened List.mem_cons_self
  exact ⟨written, opened, named.symm.trans name⟩

theorem bears (native : Native text) : b.Bears t := by
  rintro tag rfl
  refine ⟨fun mode => (h.confined native mode).1 tag List.mem_cons_self, ?_⟩
  obtain ⟨written, named, opened⟩ := h.emits.opened List.mem_cons_self
  rw [named]
  exact native written opened

theorem token (alive : (b.step t).collapse = none) : Going text items
    (l.goto (((b.step t).lexerState.map TextKind.state).getD l.state)) (b.step t).cleared := by
  have lexed : Lexed text (l.goto (((b.step t).lexerState.map TextKind.state).getD l.state)) := by
    cases (b.step t).lexerState with
    | none => exact h.lexed
    | some kind => exact (h.lexed.goto h.quiet kind).1
  constructor
  case lexed => exact lexed
  case quiet => exact h.quiet
  case emits => exact h.emits.tail
  case alive => exact alive
  case untold => rfl
  case underway => exact (h.underway.step h.alive t h.frames).adjust rfl rfl rfl rfl rfl id id
  case sound =>
    intro native
    exact ((h.sound native).step (h.bears native)).1.adjust rfl rfl rfl rfl rfl rfl id
  case confined =>
    intro native mode
    refine ⟨h.emits.no_start, ?_⟩
    rcases ((h.sound native).step (h.bears native)).2 with tells | ⟨before, untold, goesOn⟩
    · obtain ⟨kind, told, verbatim⟩ := tells mode
      rw [told]
      exact Or.inl ((h.lexed.goto h.quiet kind).2 verbatim)
    · rw [untold, h.untold]
      rcases (h.confined native before).2 with confined | ⟨name, inside⟩
      · exact Or.inl confined
      · rcases List.mem_cons.mp inside with same | inside
        · exact (goesOn name (Item.token.inj same).symm).elim
        · exact Or.inr ⟨name, inside⟩

omit h in
theorem round {next : Lexer} {foreign : Bool} (h : Going text [] l b)
    (stepped : l.step foreign = some next) : Going text next.drain.1 next.drain.2 b := by
  have yields := h.lexed.step h.quiet stepped
  constructor
  case lexed => exact yields.lexed
  case quiet => rfl
  case emits => exact yields.emits.drain
  case alive => exact h.alive
  case untold => exact h.untold
  case underway => exact h.underway
  case sound => exact h.sound
  case confined =>
    intro native mode
    rcases (h.confined native mode).2 with confined | ⟨_, absurd⟩
    · obtain ⟨none, goesOn⟩ := confined.step h.quiet stepped
      refine ⟨fun tag inside => none tag (mem_drain.mp inside), ?_⟩
      rcases goesOn with confined | ⟨name, inside⟩
      · exact Or.inl confined
      · exact Or.inr ⟨name, mem_drain.mpr inside⟩
    · cases absurd

omit h in
theorem begin (text : List Char) :
    Going (unifyLines text) [] (.start .data text) (Builder.document .html).cleared := by
  have blank : Blank (Builder.document .html).cleared := Blank.initial.adjust rfl (Or.inl rfl)
  constructor
  case lexed => exact .plain ⟨List.suffix_rfl, (fun _ absurd => by cases absurd), rfl, trivial⟩
  case quiet => rfl
  case emits => exact Or.inl fun _ absurd => by cases absurd
  case alive => rfl
  case untold => rfl
  case underway => exact Or.inl (.blank blank)
  case sound => exact fun _ => .blank blank rfl
  case confined => exact fun _ absurd => by cases absurd

end Going

namespace Parse

theorem exists_settle_of_collapse (l : Lexer) (b : Builder) (reports : List Report) {c : Collapse}
    (broken : b.collapse = some c) : (settle ⟨false, none, l, b, reports, none⟩).ending =
      some (.collapsed c) := by
  obtain ⟨others, reported⟩ := exists_report l { b with faults := [] } b.faults.reverse reports
  rw [settle_eq]
  dsimp only
  rw [reported, proceed, broken]
  rfl

/-- How a parse ends: the document has its parts, or else foreign content made it break down. -/
def Ends (text : List Char) (p : Parse) : Prop :=
  p.ending = some .complete ∧ Staged (Framing text) p.builder ∨
    (∃ c, p.ending = some (.collapsed c)) ∧ ¬ Native text

/-- A parse goes on, or it has broken down. -/
def Goes (text : List Char) (items : List Item) (p : Parse) : Prop :=
  (∃ l b reports, p = ⟨false, none, l, b, reports, none⟩ ∧ Going text items l b) ∨
    (∃ c, p.ending = some (.collapsed c)) ∧ ¬ Native text

theorem Goes.take {item : Item} {p : Parse} (h : Goes text (item :: items) p) :
    Goes text items (p.take item) := by
  rcases h with ⟨l, b, reports, rfl, going⟩ | ⟨⟨c, broken⟩, foreign⟩
  · cases item with
    | fault f => exact Or.inl ⟨l, b, _, rfl, going.fault⟩
    | token t =>
        cases broken : (b.step t).collapse with
        | none =>
            obtain ⟨others, settled⟩ := exists_settle l (b.step t) reports broken
            exact Or.inl ⟨_, _, others, settled, going.token broken⟩
        | some c =>
            refine Or.inr ⟨⟨c, exists_settle_of_collapse l (b.step t) reports broken⟩, fun native => ?_⟩
            have alive := ((going.sound native).step (going.bears native)).1.alive
            rw [alive] at broken
            cases broken
  · have ended : p.ending.isSome = true := by rw [broken, Option.isSome_some]
    rw [take_of_ended ended]
    exact Or.inr ⟨⟨c, broken⟩, foreign⟩

theorem Goes.foldl_take (items : List Item) : ∀ {p : Parse}, Goes text items p →
    Goes text [] (items.foldl Parse.take p) := by
  induction items with
  | nil => exact fun h => h
  | cons item items ih => exact fun h => ih h.take

theorem ends_finish (h : Going text [] l b) (reports : List Report) :
    Ends text (Parse.finish ⟨false, none, l, b, reports, none⟩) := by
  rw [finish_eq]
  cases broken : b.finish.collapse with
  | none =>
      obtain ⟨others, settled⟩ := exists_settle l b.finish reports broken
      have staged := (h.underway.finish h.alive).adjust (c := b.finish.cleared) rfl rfl rfl rfl rfl id
      rw [settled]
      exact Or.inl ⟨rfl, staged⟩
  | some c =>
      have collapsed := exists_settle_of_collapse l b.finish reports broken
      refine Or.inr ⟨⟨c, ?_⟩, fun native => ?_⟩
      · rw [complete, if_pos]
        · exact collapsed
        · rw [collapsed, Option.isSome_some]
      · have alive := (h.sound native).finish.alive
        rw [alive] at broken
        cases broken

theorem Goes.run (fuel : Nat) : ∀ {p : Parse}, Goes text [] p → Ends text (p.run fuel) := by
  induction fuel with
  | zero =>
      intro p h
      rcases h with ⟨l, b, reports, rfl, going⟩ | ⟨⟨c, broken⟩, foreign⟩
      · exact ends_finish going reports
      · refine Or.inr ⟨⟨c, ?_⟩, foreign⟩
        rw [(run_of_ended (by rw [broken, Option.isSome_some]) 0).1, broken]
  | succ fuel ih =>
      intro p h
      rcases h with ⟨l, b, reports, rfl, going⟩ | ⟨⟨c, broken⟩, foreign⟩
      · simp only [Parse.run, Option.isSome_none, Bool.false_eq_true, if_false]
        split
        · exact ends_finish going reports
        · next lexer stepped =>
          exact ih (Goes.foldl_take _ (Or.inl ⟨_, b, reports, rfl, going.round stepped⟩))
      · refine Or.inr ⟨⟨c, ?_⟩, foreign⟩
        rw [(run_of_ended (by rw [broken, Option.isSome_some]) (fuel + 1)).1, broken]

/-- The parse of a document in any text. -/
theorem ends_ofText (text : List Char) :
    Ends (unifyLines text) (ofText ⟨false, .html⟩ .document none text) := by
  obtain ⟨others, settled⟩ := exists_settle (.start .data text) (Builder.document .html) [] rfl
  exact Goes.run _ (Or.inl ⟨_, _, others, settled, Going.begin text⟩)

end Parse

end HtmlTree.Html
