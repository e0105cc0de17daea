import HtmlTree.Html.Construction
import HtmlTree.Proofs.Html.Arena
import HtmlTree.Proofs.Html.Leads
import HtmlTree.Proofs.Markup.Stable

/-! What single tokens do to a tree under construction, inside elements that need nothing else to be
opened, closed or moved. -/

namespace HtmlTree.Html.Builder

open Markup (Nests Stands Verbatim)

/-- Construction is in an element of HTML, in this mode, and has nothing left to do. -/
structure Inside (b : Builder) (mode : Mode) (o : Open) (around : List Open) : Prop where
  stack : b.stack = o :: around
  mode : b.mode = mode
  back : b.mode = .text → b.textReturn = .inBody
  space : o.space = .html
  known : o.id < b.arena.size
  standard : b.standard = .html
  formatting : b.formatting = []
  fostering : b.fostering = false
  dropNewline : b.dropNewline = false
  collapse : b.collapse = none
  lexerState : b.lexerState = none

def fresh (b : Builder) : Builder := { b with acknowledged := false, again := false }

variable {b : Builder} {mode : Mode} {o : Open} {around : List Open}

theorem Inside.fresh (inside : Inside b mode o around) : Inside b.fresh mode o around where
  stack := inside.stack
  mode := inside.mode
  back := inside.back
  space := inside.space
  known := inside.known
  standard := inside.standard
  formatting := inside.formatting
  fostering := inside.fostering
  dropNewline := inside.dropNewline
  collapse := inside.collapse
  lexerState := inside.lexerState

theorem Inside.current (inside : Inside b mode o around) : b.current = o := by
  rw [Builder.current, inside.stack]
  rfl

def hasSolidus : Token → Bool
  | .startTag tag => tag.selfClosing
  | _ => false

theorem Inside.step_eq (inside : Inside b mode o around) (t : Token) (plain : hasSolidus t = false)
    (once : (b.fresh.ordinary t).again = false) : b.step t = b.fresh.ordinary t := by
  have home : b.fresh.isForeign t = false := by
    unfold isForeign
    apply if_pos
    rw [inside.fresh.current, inside.space, inside.fresh.standard]
    exact Bool.or_true _
  obtain ⟨n, turns⟩ : ∃ n, b.turns = n + 1 := ⟨21 + 22 * b.stack.length, by
    rw [turns, modeCount]
    omega⟩
  have taken : consumeWithin b.turns t { b with acknowledged := false } = b.fresh.ordinary t := by
    have consumed : consume b.fresh t = b.fresh.ordinary t := by
      rw [consume, home, if_neg Bool.false_ne_true]
    rw [turns, consumeWithin]
    change (if (consume b.fresh t).again && _ then _ else consume b.fresh t) = _
    rw [consumed, once, Bool.false_and, if_neg Bool.false_ne_true]
  rw [step, taken]
  cases t with
  | startTag tag =>
      rw [hasSolidus] at plain
      rw [checkSolidus, plain, Bool.false_and, if_neg Bool.false_ne_true]
  | _ => rfl

theorem reconstruct_eq (nothing : b.formatting = []) : b.reconstruct = b := by
  rw [reconstruct, nothing]
  rfl

theorem Inside.placeNode_eq (inside : Inside b mode o around) (i : Nat) (arena : Arena) :
    { b with arena }.placeNode i = { b with arena := arena.append o.id i } := by
  have placed : isMisplaced { b with arena } = false := by
    rw [isMisplaced]
    simp only [inside.fostering, Bool.false_and]
  have here : Builder.current { b with arena } = o := inside.current
  rw [placeNode, placed, if_neg Bool.false_ne_true, here]

theorem Inside.insertText_eq (inside : Inside b mode o around) (text : String) :
    b.insertText text = { b with arena := b.arena.insert o.id (.text text) } :=
  inside.placeNode_eq _ _

theorem Inside.insertComment_eq (inside : Inside b mode o around) (data : String) :
    b.insertComment b.current.id data = { b with arena := b.arena.insert o.id (.comment data) } := by
  rw [inside.current]
  rfl

def opened (b : Builder) (o : Open) : Builder := { b with stack := o :: b.stack }

theorem Inside.insert_eq (inside : Inside b mode o around) (t : Tag) :
    b.insert t = { b with
      arena := b.arena.insert o.id
        (.element t.name .html (Foreign.builtAttrs .html false t.attrs))
      stack := ⟨b.arena.size, t.name, .html⟩ :: b.stack } := by
  have placed := inside.placeNode_eq b.arena.size
    (b.arena.make (.element t.name b.standard (Foreign.builtAttrs b.standard false t.attrs))).2
  have inserted : b.insert t = opened (placeNode { b with
      arena := (b.arena.make
        (.element t.name b.standard (Foreign.builtAttrs b.standard false t.attrs))).2 } b.arena.size)
      ⟨b.arena.size, t.name, b.standard⟩ := rfl
  rw [inserted, placed, inside.standard]
  rfl

/-- A token leads to another state, with nothing that would end the parse, and may set the state of
the lexer. -/
def Turns (b : Builder) (t : Token) (kind : Option TextKind) (next : Builder) : Prop :=
  (b.step t).collapse = none ∧ (b.step t).lexerState = kind ∧ (b.step t).cleared = next

theorem Inside.turns (inside : Inside b mode o around) {t : Token} {c : Builder}
    {kind : Option TextKind} (plain : hasSolidus t = false) (taken : b.fresh.ordinary t = c)
    (once : c.again = false) (holds : c.collapse = none) (set : c.lexerState = kind) :
    Turns b t kind c.cleared := by
  have stepped : b.step t = c := by
    rw [inside.step_eq t plain (by rw [taken, once]), taken]
  rw [Turns, stepped]
  exact ⟨holds, set, rfl⟩

theorem Inside.cleared (inside : Inside { b with lexerState := none } mode o around) :
    Inside b.cleared mode o around where
  stack := inside.stack
  mode := inside.mode
  back := inside.back
  space := inside.space
  known := inside.known
  standard := inside.standard
  formatting := inside.formatting
  fostering := inside.fostering
  dropNewline := inside.dropNewline
  collapse := inside.collapse
  lexerState := rfl

theorem Inside.adds (inside : Inside b mode o around) {t : Token} {part : Part} {ok : Bool}
    (plain : hasSolidus t = false) (taken : b.fresh.ordinary t =
      { b.fresh with arena := b.arena.insert o.id part, framesetOk := ok }) :
    ∃ next, Turns b t none next ∧ Inside next mode o around ∧
      next.arena = b.arena.insert o.id part := by
  refine ⟨_, inside.turns plain taken rfl inside.collapse inside.lexerState, Inside.cleared ?_, rfl⟩
  exact {
    stack := inside.stack
    mode := inside.mode
    back := inside.back
    space := inside.space
    known := by
      change o.id < (b.arena.insert o.id part).size
      rw [Arena.size_insert]
      exact Nat.lt_succ_of_lt inside.known
    standard := inside.standard
    formatting := inside.formatting
    fostering := inside.fostering
    dropNewline := inside.dropNewline
    collapse := inside.collapse
    lexerState := rfl }

theorem markText_eq (b : Builder) (text : String) :
    b.markText text = { b with framesetOk := b.framesetOk && isBlank text } := by
  rw [markText]
  split
  · next blank => rw [blank, Bool.and_true]
  · next visible => rw [Bool.eq_false_of_not_eq_true visible, Bool.and_false]

theorem Inside.turns_characters (inside : Inside b .inBody o around) (text : String)
    (visible : text ≠ nul) : ∃ next, Turns b (.characters text) none next ∧
      Inside next .inBody o around ∧ next.arena = b.arena.insert o.id (.text text) := by
  apply inside.adds rfl
  change b.fresh.characters text = _
  rw [characters, inside.fresh.mode]
  change b.fresh.bodyText text = _
  rw [bodyText, if_neg (by rw [beq_iff_eq]; exact visible), reconstruct_eq inside.fresh.formatting,
    inside.fresh.insertText_eq, markText_eq]
  rfl

theorem Inside.turns_spaces (inside : Inside b .inBody o around) (text : String)
    (nonempty : text ≠ "") : ∃ next, Turns b (.spaces text) none next ∧
      Inside next .inBody o around ∧ next.arena = b.arena.insert o.id (.text text) := by
  have kept : b.fresh.leadingLine text.toList = text.toList := by
    unfold leadingLine
    split
    · rw [inside.fresh.dropNewline, Bool.false_and, Bool.false_and, if_neg Bool.false_ne_true]
    · rfl
  have visible : text.toList.isEmpty = false := by
    rw [List.isEmpty_eq_false_iff]
    intro empty
    exact nonempty (String.toList_eq_nil_iff.mp empty)
  have still : { b.fresh with dropNewline := false } = b.fresh := by
    rw [← inside.fresh.dropNewline]
  apply inside.adds rfl
  change b.fresh.spaces text = _
  rw [spaces, inside.fresh.mode]
  change b.fresh.bodySpaces text = _
  rw [bodySpaces, kept, visible, if_neg Bool.false_ne_true, still,
    reconstruct_eq inside.fresh.formatting, inside.fresh.insertText_eq, String.ofList_toList]
  rfl

theorem Inside.turns_comment (inside : Inside b .inBody o around) (data : String) :
    ∃ next, Turns b (.comment data) none next ∧
      Inside next .inBody o around ∧ next.arena = b.arena.insert o.id (.comment data) := by
  apply inside.adds rfl
  change b.fresh.comment data = _
  rw [comment, inside.fresh.mode]
  change b.fresh.insertComment b.fresh.current.id data = _
  rw [inside.fresh.insertComment_eq]
  rfl

theorem Inside.turns_raw_characters (inside : Inside b .text o around) (text : String) :
    ∃ next, Turns b (.characters text) none next ∧
      Inside next .text o around ∧ next.arena = b.arena.insert o.id (.text text) := by
  apply inside.adds rfl
  change b.fresh.characters text = _
  rw [characters, inside.fresh.mode]
  change b.fresh.insertText text = _
  rw [inside.fresh.insertText_eq]
  rfl

theorem findInScope_eq_false (scope : Scope) (wanted : Open → Bool) (stack : List Open)
    (absent : ∀ q ∈ stack, wanted q = false) : findInScope scope wanted stack = false := by
  induction stack with
  | nil => rfl
  | cons q stack ih =>
      rw [List.forall_mem_cons] at absent
      rw [findInScope, absent.1, ih absent.2, Bool.and_false, Bool.or_false]

theorem leaveParagraph_eq (b : Builder) (free : ∀ q ∈ b.stack, q.name ≠ "p") :
    b.leaveParagraph = b := by
  have absent : b.inScope .button "p" = false := by
    apply findInScope_eq_false
    intro q member
    rw [Open.isHtml, beq_eq_false_iff_ne.mpr (free q member), Bool.and_false]
  rw [leaveParagraph, absent, if_neg Bool.false_ne_true]

theorem bodyStart_nests {within inner : Bool} {tag : String} (nests : Nests within tag inner)
    (b : Builder) (nothing : b.formatting = [])
    (free : within = false → ∀ q ∈ b.stack, q.name ≠ "p") (attrs : List (String × String)) :
    b.bodyStart ⟨tag, attrs, false⟩ = b.insert ⟨tag, attrs, false⟩ := by
  cases nests with
  | span =>
      change b.startOther _ = _
      rw [startOther, reconstruct_eq nothing]
  | _ =>
      change b.startBlock _ = _
      rw [startBlock, leaveParagraph_eq b (free rfl)]

theorem Inside.turns_nests (inside : Inside b .inBody o around) {within inner : Bool} {tag : String}
    (nests : Nests within tag inner) (free : within = false → ∀ q ∈ o :: around, q.name ≠ "p")
    (attrs : List (String × String)) :
    ∃ next, Turns b (.startTag ⟨tag, attrs, false⟩) none next ∧
      Inside next .inBody ⟨b.arena.size, tag, .html⟩ (o :: around) ∧ next.arena =
        b.arena.insert o.id (.element tag .html (Foreign.builtAttrs .html false attrs)) := by
  have taken : b.fresh.ordinary (.startTag ⟨tag, attrs, false⟩) = { b.fresh with
      arena := b.arena.insert o.id (.element tag .html (Foreign.builtAttrs .html false attrs))
      stack := ⟨b.arena.size, tag, .html⟩ :: b.stack } := by
    change b.fresh.startTag _ = _
    rw [startTag, inside.fresh.mode]
    change b.fresh.bodyStart _ = _
    rw [bodyStart_nests nests b.fresh inside.fresh.formatting
      (by rw [inside.fresh.stack]; exact free), inside.fresh.insert_eq]
    rfl
  refine ⟨_, inside.turns rfl taken rfl inside.collapse inside.lexerState, Inside.cleared ?_, rfl⟩
  exact {
    stack := congrArg _ inside.stack
    mode := inside.mode
    back := inside.back
    space := rfl
    known := by
      change b.arena.size < (b.arena.insert o.id _).size
      rw [Arena.size_insert]
      exact Nat.lt_succ_self _
    standard := inside.standard
    formatting := inside.formatting
    fostering := inside.fostering
    dropNewline := inside.dropNewline
    collapse := inside.collapse
    lexerState := rfl }

theorem bodyStart_stands {within : Bool} {tag : String} (stands : Stands within tag) (b : Builder)
    (nothing : b.formatting = []) (free : within = false → ∀ q ∈ b.stack, q.name ≠ "p")
    (attrs : List (String × String)) : b.bodyStart ⟨tag, attrs, false⟩ =
      { (b.insert ⟨tag, attrs, false⟩).pop with framesetOk := false, acknowledged := true } := by
  cases stands with
  | rule =>
      change (b.leaveParagraph.insertVoid _).ruleOutFrameset.acknowledge = _
      rw [leaveParagraph_eq b (free rfl)]
      rfl
  | _ =>
      change (b.reconstruct.insertVoid _).ruleOutFrameset.acknowledge = _
      rw [reconstruct_eq nothing]
      rfl

theorem Inside.turns_stands (inside : Inside b .inBody o around) {within : Bool} {tag : String}
    (stands : Stands within tag) (free : within = false → ∀ q ∈ o :: around, q.name ≠ "p")
    (attrs : List (String × String)) :
    ∃ next, Turns b (.startTag ⟨tag, attrs, false⟩) none next ∧
      Inside next .inBody o around ∧ next.arena =
        b.arena.insert o.id (.element tag .html (Foreign.builtAttrs .html false attrs)) := by
  have taken : b.fresh.ordinary (.startTag ⟨tag, attrs, false⟩) = { b.fresh with
      arena := b.arena.insert o.id (.element tag .html (Foreign.builtAttrs .html false attrs))
      framesetOk := false
      acknowledged := true } := by
    change b.fresh.startTag _ = _
    rw [startTag, inside.fresh.mode]
    change b.fresh.bodyStart _ = _
    rw [bodyStart_stands stands b.fresh inside.fresh.formatting
      (by rw [inside.fresh.stack]; exact free), inside.fresh.insert_eq]
    rfl
  refine ⟨_, inside.turns rfl taken rfl inside.collapse inside.lexerState, Inside.cleared ?_, rfl⟩
  exact {
    stack := inside.stack
    mode := inside.mode
    back := inside.back
    space := inside.space
    known := by
      change o.id < (b.arena.insert o.id _).size
      rw [Arena.size_insert]
      exact Nat.lt_succ_of_lt inside.known
    standard := inside.standard
    formatting := inside.formatting
    fostering := inside.fostering
    dropNewline := inside.dropNewline
    collapse := inside.collapse
    lexerState := rfl }

def rawKindOf (tag : String) : RawKind := if tag = "script" then .script else .plain

def textKindOf (tag : String) : TextKind := if tag = "script" then .script else .rawText

theorem state_textKindOf (tag : String) :
    (textKindOf tag).state = Lexer.RawKind.home (rawKindOf tag) := by
  rw [textKindOf, rawKindOf]
  split <;> rfl

theorem bodyStart_verbatim {within : Bool} {tag : String} (verbatim : Verbatim within tag)
    (b : Builder) (nothing : b.formatting = [])
    (free : within = false → ∀ q ∈ b.stack, q.name ≠ "p") (attrs : List (String × String)) :
    ∃ ok, b.bodyStart ⟨tag, attrs, false⟩ =
      { b with framesetOk := ok }.insertRaw ⟨tag, attrs, false⟩
        (textKindOf tag) := by
  cases verbatim with
  | frame => exact ⟨false, rfl⟩
  | sample =>
      refine ⟨false, ?_⟩
      change b.startExample _ = _
      rw [startExample, leaveParagraph_eq b (free rfl), reconstruct_eq nothing]
      rfl
  | _ => exact ⟨b.framesetOk, rfl⟩

theorem Inside.turns_verbatim (inside : Inside b .inBody o around) {within : Bool} {tag : String}
    (verbatim : Verbatim within tag) (free : within = false → ∀ q ∈ o :: around, q.name ≠ "p")
    (attrs : List (String × String)) :
    ∃ next, Turns b (.startTag ⟨tag, attrs, false⟩) (some (textKindOf tag)) next ∧
      Inside next .text ⟨b.arena.size, tag, .html⟩ (o :: around) ∧ next.arena =
        b.arena.insert o.id (.element tag .html (Foreign.builtAttrs .html false attrs)) := by
  obtain ⟨ok, started⟩ := bodyStart_verbatim verbatim b.fresh inside.fresh.formatting
    (by rw [inside.fresh.stack]; exact free) attrs
  have home : Inside { b.fresh with framesetOk := ok } .inBody o around :=
    { inside.fresh with }
  have taken : b.fresh.ordinary (.startTag ⟨tag, attrs, false⟩) = { b.fresh with
      arena := b.arena.insert o.id (.element tag .html (Foreign.builtAttrs .html false attrs))
      stack := ⟨b.arena.size, tag, .html⟩ :: b.stack
      framesetOk := ok
      lexerState := some (textKindOf tag)
      textReturn := b.mode
      mode := .text } := by
    change b.fresh.startTag _ = _
    rw [startTag, inside.fresh.mode]
    change b.fresh.bodyStart _ = _
    rw [started, insertRaw, home.insert_eq]
    rfl
  refine ⟨_, inside.turns rfl taken rfl inside.collapse rfl, Inside.cleared ?_, rfl⟩
  exact {
    stack := congrArg _ inside.stack
    mode := rfl
    back := fun _ => inside.mode
    space := rfl
    known := by
      change b.arena.size < (b.arena.insert o.id _).size
      rw [Arena.size_insert]
      exact Nat.lt_succ_self _
    standard := inside.standard
    formatting := inside.formatting
    fostering := inside.fostering
    dropNewline := inside.dropNewline
    collapse := inside.collapse
    lexerState := rfl }

theorem endOther_eq (b : Builder) (i : Nat) (stack : b.stack = ⟨i, "span", .html⟩ :: around) :
    b.endOther "span" = { b with stack := around } := by
  have found : b.stack.find? (fun o => o.name == "span" || isSpecial o) =
      some ⟨i, "span", .html⟩ := by
    rw [stack]
    rfl
  have kept : b.dropImplied (some "span") = b := by
    have same : Html.dropImplied (some "span") b.stack = b.stack := by
      rw [stack]
      rfl
    rw [Builder.dropImplied, same]
  have here : b.isCurrent "span" = true := by
    rw [isCurrent, Builder.current, stack]
    rfl
  have left : popThrough (fun p => p.id == i) b.stack = around := by
    rw [stack, popThrough, beq_self_eq_true, if_pos rfl]
  rw [endOther, found]
  simp only [beq_self_eq_true, if_true, kept, here, left]

theorem bodyEnd_nests {within inner : Bool} {tag : String} (nests : Nests within tag inner)
    (b : Builder) (i : Nat) (stack : b.stack = ⟨i, tag, .html⟩ :: around) :
    b.bodyEnd tag = { b with stack := around } := by
  cases nests with
  | span => exact endOther_eq b i stack
  | _ =>
      obtain ⟨arena, standard, context, _, _⟩ := b
      cases stack
      rfl

theorem Inside.turns_end {q : Open} (inside : Inside b .inBody o (q :: around)) {within inner : Bool}
    {tag : String} (nests : Nests within tag inner) (named : o.name = tag) (space : q.space = .html)
    (known : q.id < b.arena.size) : ∃ next, Turns b (.endTag tag) none next ∧
      Inside next .inBody q around ∧ next.arena = b.arena := by
  have taken : b.fresh.ordinary (.endTag tag) = { b.fresh with stack := q :: around } := by
    have top : o = ⟨o.id, tag, .html⟩ := by
      rw [← named, ← inside.space]
    change b.fresh.endTag _ = _
    rw [endTag, inside.fresh.mode]
    exact bodyEnd_nests nests b.fresh o.id (by rw [inside.fresh.stack, ← top])
  refine ⟨_, inside.turns rfl taken rfl inside.collapse inside.lexerState, Inside.cleared ?_, rfl⟩
  exact {
    stack := rfl
    mode := inside.mode
    back := inside.back
    space := space
    known := known
    standard := inside.standard
    formatting := inside.formatting
    fostering := inside.fostering
    dropNewline := inside.dropNewline
    collapse := inside.collapse
    lexerState := rfl }

theorem Inside.turns_raw_end {q : Open} (inside : Inside b .text o (q :: around)) (tag : String)
    (space : q.space = .html) (known : q.id < b.arena.size) :
    ∃ next, Turns b (.endTag tag) none next ∧ Inside next .inBody q around ∧
      next.arena = b.arena := by
  have taken : b.fresh.ordinary (.endTag tag) =
      { b.fresh with stack := b.fresh.stack.tail, mode := b.fresh.textReturn } := by
    change b.fresh.endTag _ = _
    rw [endTag, inside.fresh.mode]
    rfl
  refine ⟨_, inside.turns rfl taken rfl inside.collapse inside.lexerState, Inside.cleared ?_, rfl⟩
  exact {
    stack := congrArg List.tail inside.stack
    mode := inside.back inside.mode
    back := fun _ => inside.back inside.mode
    space := space
    known := known
    standard := inside.standard
    formatting := inside.formatting
    fostering := inside.fostering
    dropNewline := inside.dropNewline
    collapse := inside.collapse
    lexerState := rfl }

theorem Inside.finish_eq (inside : Inside b .inBody o around) :
    b.finish.collapse = none ∧ b.finish.arena = b.arena ∧ b.finish.stack = b.stack := by
  have closed : b.finish = checkClosed { b with again := false } := by
    have once : (checkClosed { b with again := false }).again = false := by
      rw [checkClosed]
      split
      · rfl
      · rw [report]
        split <;> rfl
    have first : finishMode { b with again := false } = checkClosed { b with again := false } := by
      rw [finishMode]
      simp only [inside.mode]
    rw [finish, modeCount, finishWithin]
    simp only [first, once, Bool.false_and, Bool.false_eq_true, if_false]
  rw [closed, checkClosed]
  split
  · exact ⟨inside.collapse, rfl, rfl⟩
  · rw [report]
    simp only [inside.collapse, Option.isSome_none, Bool.false_eq_true, if_false, and_self]

theorem localPart_eq (name : String) (free : ':' ∉ name.toList) : BuiltAttr.localPart name = name := by
  have whole : name.toList.dropWhile (· ≠ ':') = [] := by
    rw [List.dropWhile_eq_nil_iff]
    intro c member
    rw [decide_eq_true_eq]
    rintro rfl
    exact free member
  rw [BuiltAttr.localPart, whole]

theorem foldl_add (attrs : List (String × String)) : ∀ done : List (String × String),
    ((done ++ attrs).map (·.1)).Nodup → (∀ a ∈ done ++ attrs, ':' ∉ a.1.toList) →
      attrs.foldl (fun built a => BuiltAttr.add built ⟨a.1, none, a.2⟩)
          (done.map fun a => ⟨a.1, none, a.2⟩) =
        (done ++ attrs).map fun a => ⟨a.1, none, a.2⟩ := by
  induction attrs with
  | nil =>
      intro done _ _
      rw [List.append_nil]
      rfl
  | cons a attrs ih =>
      intro done distinct free
      have kept : (done.map fun a => (⟨a.1, none, a.2⟩ : BuiltAttr)).filter
          (fun e => !BuiltAttr.excludes ⟨a.1, none, a.2⟩ e) = done.map fun a => ⟨a.1, none, a.2⟩ := by
        rw [List.filter_eq_self]
        intro e member
        obtain ⟨d, earlier, rfl⟩ := List.mem_map.mp member
        have apart : a.1 ≠ d.1 := by
          rw [List.map_append, List.nodup_append] at distinct
          exact Ne.symm (distinct.2.2 d.1 (List.mem_map_of_mem earlier) a.1 List.mem_cons_self)
        have left := localPart_eq d.1 (free d (List.mem_append_left _ earlier))
        have right := localPart_eq a.1 (free a (List.mem_append_right _ List.mem_cons_self))
        simp only [BuiltAttr.excludes, left, right, apart, decide_false, Bool.and_false,
          Bool.or_self, Bool.not_false]
      have grouped : done ++ a :: attrs = (done ++ [a]) ++ attrs := by
        rw [List.append_assoc, List.singleton_append]
      rw [grouped] at distinct free ⊢
      rw [List.foldl_cons, BuiltAttr.add, kept, ← ih (done ++ [a]) distinct free, List.map_append]
      rfl

theorem builtAttrs_eq (attrs : List (String × String)) (distinct : (attrs.map (·.1)).Nodup)
    (free : ∀ a ∈ attrs, ':' ∉ a.1.toList) :
    (Foreign.builtAttrs .html false attrs).map (fun a => (a.name, a.value)) = attrs := by
  have built : Foreign.builtAttrs .html false attrs = attrs.map fun a => ⟨a.1, none, a.2⟩ :=
    foldl_add attrs [] distinct free
  rw [built, List.map_map]
  exact List.map_id' attrs

end HtmlTree.Html.Builder
