import HtmlTree.Markup.Walk
import HtmlTree.Proofs.Dom.Trees

/-! Runs of the walk over a tree. The walk keeps a flag for raw text; at every node it is on only if
the start tag of the element that lists the node was found and no raw text element was closed
since, when that element is one of raw text. -/

namespace HtmlTree.Markup.Walk

structure Visit where
  task : Task
  tokens : List Token
  deriving DecidableEq, Repr

def tokensOf (visits : List Visit) : List Token := visits.flatMap (·.tokens)

def Visit.node? (v : Visit) : Option NodeId :=
  match v.task with
  | .enter i _ => some i
  | .leave .. => none

def entered (visits : List Visit) : List NodeId := visits.filterMap Visit.node?

/-- A walk from one state to another, round by round. -/
inductive Runs (s : Store) (escape : Bool) : State → List Visit → State → Prop
  | rest (w : State) : Runs s escape w [] w
  | round {raw : Bool} {task : Task} {pending : List Task} {found : List Token} {next last : State}
      {visits : List Visit} (moved : step s escape ⟨raw, task :: pending⟩ = some (found, next))
      (onward : Runs s escape next visits last) :
      Runs s escape ⟨raw, task :: pending⟩ (⟨task, found⟩ :: visits) last

def rawStep (raw : Bool) : Token → Bool
  | .startTag name _ _ => raw || Tag.isRawText name
  | .endTag name _ => raw && !Tag.isRawText name
  | _ => raw

def rawAfter (raw : Bool) (ts : List Token) : Bool := ts.foldl rawStep raw

/-- Whether a raw text element is closed among the tokens. -/
def ClosesRaw (ts : List Token) : Prop :=
  ∃ name space, Token.endTag name space ∈ ts ∧ Tag.isRawText name = true

def IsRawText (s : Store) (c : NodeId) : Prop :=
  ∃ tag space attrs, s.content c = .element tag space attrs ∧ Tag.isRawText tag = true

/-- The start tag of the element was found, and no raw text element was closed since. -/
def OpenedBy (visits : List Visit) (c : NodeId) : Prop :=
  ∃ before container name space attrs since,
    visits = before ++ ⟨.enter c container, [.startTag name space attrs]⟩ :: since ∧
      ¬ ClosesRaw (tokensOf since)

theorem tokensOf_append (left right : List Visit) :
    tokensOf (left ++ right) = tokensOf left ++ tokensOf right := List.flatMap_append

theorem tokensOf_cons (v : Visit) (visits : List Visit) :
    tokensOf (v :: visits) = v.tokens ++ tokensOf visits := List.flatMap_cons

theorem entered_append (left right : List Visit) :
    entered (left ++ right) = entered left ++ entered right := List.filterMap_append

theorem rawAfter_append (raw : Bool) (left right : List Token) :
    rawAfter raw (left ++ right) = rawAfter (rawAfter raw left) right := List.foldl_append

theorem closesRaw_append (left right : List Token) :
    ClosesRaw (left ++ right) ↔ ClosesRaw left ∨ ClosesRaw right := by
  simp only [ClosesRaw, List.mem_append]
  constructor
  · rintro ⟨name, space, member | member, raw⟩
    · exact Or.inl ⟨name, space, member, raw⟩
    · exact Or.inr ⟨name, space, member, raw⟩
  · rintro (⟨name, space, member, raw⟩ | ⟨name, space, member, raw⟩)
    · exact ⟨name, space, Or.inl member, raw⟩
    · exact ⟨name, space, Or.inr member, raw⟩

theorem closesRaw_end (name : String) (space : Option String) :
    ClosesRaw [.endTag name space] ↔ Tag.isRawText name = true := by
  simp [ClosesRaw]

theorem Runs.append {s : Store} {escape : Bool} {first middle last : State}
    {left right : List Visit} (before : Runs s escape first left middle)
    (after : Runs s escape middle right last) : Runs s escape first (left ++ right) last := by
  induction before with
  | rest w => exact after
  | round moved _ ih => exact Runs.round moved (ih after)

theorem Runs.split {s : Store} {escape : Bool} {first last : State} {left right : List Visit}
    (runs : Runs s escape first (left ++ right) last) :
    ∃ middle, Runs s escape first left middle ∧ Runs s escape middle right last := by
  induction left generalizing first with
  | nil => exact ⟨first, Runs.rest first, runs⟩
  | cons v left ih =>
      cases runs with
      | round moved onward =>
          obtain ⟨middle, before, after⟩ := ih onward
          exact ⟨middle, Runs.round moved before, after⟩

/-- With fuel for one round more than there are, the walk comes to its end. -/
theorem Runs.run_eq {s : Store} {escape : Bool} {first last : State} {visits : List Visit}
    (runs : Runs s escape first visits last) (ended : last.pending = []) (fuel : Nat)
    (enough : visits.length < fuel) : run s escape fuel first = tokensOf visits := by
  induction runs generalizing fuel with
  | rest w =>
      cases fuel with
      | zero => exact absurd enough (Nat.not_lt_zero _)
      | succ fuel =>
          rw [run, step, ended]
          rfl
  | round moved _ ih =>
      cases fuel with
      | zero => exact absurd enough (Nat.not_lt_zero _)
      | succ fuel =>
          rw [List.length_cons] at enough
          rw [run, moved, tokensOf_cons]
          simp only
          rw [ih ended fuel (by omega)]

def isPlain : Token → Bool
  | .startTag .. | .endTag .. => false
  | .emptyTag name _ _ => Tag.isVoid name
  | _ => true

def isPiece : Token → Bool
  | .characters _ | .spaces _ => true
  | _ => false

theorem isPlain_of_isPiece (t : Token) (piece : isPiece t = true) : isPlain t = true := by
  cases t with
  | characters text => rfl
  | spaces text => rfl
  | _ => cases piece

theorem exists_pieces (text : String) : ∃ front middle back : List Char,
    text.toList = front ++ (middle ++ back) ∧
      Token.ofText text = Token.nonempty Token.spaces front ++
        Token.nonempty Token.characters middle ++ Token.nonempty Token.spaces back ∧
      (∀ c ∈ front, Text.isSpace c = true) ∧ ∀ c ∈ back, Text.isSpace c = true := by
  have whole := List.takeWhile_append_dropWhile (p := Text.isSpace) (l := text.toList)
  have frontSpaces : ∀ c ∈ text.toList.takeWhile Text.isSpace, Text.isSpace c = true :=
    List.all_eq_true.mp List.all_takeWhile
  rw [Token.ofText]
  generalize text.toList.takeWhile Text.isSpace = front at whole frontSpaces ⊢
  generalize text.toList.dropWhile Text.isSpace = rest at whole ⊢
  have split : (rest.reverse.dropWhile Text.isSpace).reverse ++
      (rest.reverse.takeWhile Text.isSpace).reverse = rest := by
    rw [← List.reverse_append, List.takeWhile_append_dropWhile, List.reverse_reverse]
  have backSpaces : ∀ c ∈ (rest.reverse.takeWhile Text.isSpace).reverse, Text.isSpace c = true :=
    fun c member => List.all_eq_true.mp List.all_takeWhile c (List.mem_reverse.mp member)
  generalize (rest.reverse.dropWhile Text.isSpace).reverse = middle at split ⊢
  generalize (rest.reverse.takeWhile Text.isSpace).reverse = back at split backSpaces
  refine ⟨front, middle, back, ?_, ?_, frontSpaces, backSpaces⟩
  · rw [split, whole]
  · rw [← split, List.drop_left]

theorem isPiece_of_mem_ofText (text : String) : ∀ t ∈ Token.ofText text, isPiece t = true := by
  have single : ∀ (make : String → Token) (chars : List Char), isPiece (make (String.ofList chars)) →
      ∀ t ∈ Token.nonempty make chars, isPiece t = true := by
    intro make chars piece t inside
    rw [Token.nonempty] at inside
    split at inside
    · cases inside
    · rw [List.mem_singleton.mp inside]
      exact piece
  intro t member
  rw [Token.ofText, List.mem_append, List.mem_append] at member
  rcases member with (member | member) | member
  · exact single Token.spaces _ rfl t member
  · exact single Token.characters _ rfl t member
  · exact single Token.spaces _ rfl t member

theorem textTokens_eq (s : Store) (escape raw : Bool) (i : NodeId) (container : Option NodeId)
    (value : String) : ∃ text, textTokens s escape raw i container value = Token.ofText text := by
  rw [textTokens]
  split
  · exact ⟨_, rfl⟩
  · exact ⟨_, rfl⟩

theorem rawAfter_of_plain {ts : List Token} (plain : ∀ t ∈ ts, isPlain t = true) (raw : Bool) :
    rawAfter raw ts = raw := by
  induction ts with
  | nil => rfl
  | cons t ts ih =>
      have still : rawStep raw t = raw := by
        have here := plain t List.mem_cons_self
        cases t with
        | startTag name space attrs => cases here
        | endTag name space => cases here
        | _ => rfl
      rw [rawAfter, List.foldl_cons, still]
      exact ih fun u member => plain u (List.mem_cons_of_mem t member)

theorem not_closesRaw_of_plain {ts : List Token} (plain : ∀ t ∈ ts, isPlain t = true) :
    ¬ ClosesRaw ts := by
  rintro ⟨name, space, member, _⟩
  cases plain _ member

/-- What the walk does at a node: it goes into an element or a container, or past all else. -/
inductive Entered (s : Store) (i : NodeId) (w : State) : List Token → State → Prop
  | element (tag : String) (space : Option String) (attrs : List Attr)
      (content : s.content i = .element tag space attrs) :
      Entered s i w [.startTag tag space (Attr.toPairs attrs)]
        ⟨w.rawText || Tag.isRawText tag, tasks (s.children i) i ++ .leave tag space :: w.pending⟩
  | inside (other : s.isElement i = false) :
      Entered s i w [] ⟨w.rawText, tasks (s.children i) i ++ w.pending⟩
  | past (found : List Token) (plain : ∀ t ∈ found, isPlain t = true) : Entered s i w found w

theorem entered_enter (s : Store) (escape : Bool) (i : NodeId) (container : Option NodeId)
    (w : State) :
    Entered s i w (enter s escape i container w).1 (enter s escape i container w).2 := by
  unfold enter
  cases content : s.content i with
  | element tag space attrs =>
      simp only
      cases void : isVoidElement tag space with
      | true =>
          rw [if_pos rfl]
          apply Entered.past
          have voidTag : Tag.isVoid tag = true := (Bool.and_eq_true_iff.mp void).2
          rw [List.forall_mem_cons]
          refine ⟨voidTag, ?_⟩
          intro t member
          split at member
          · cases member
          · rw [List.mem_singleton.mp member]
            rfl
      | false =>
          rw [if_neg Bool.false_ne_true]
          exact Entered.element tag space attrs content
  | text value =>
      obtain ⟨text, tokens⟩ := textTokens_eq s escape w.rawText i container (value.getD "")
      simp only [tokens]
      apply Entered.past
      exact fun t member => isPlain_of_isPiece t (isPiece_of_mem_ofText text t member)
  | document =>
      apply Entered.inside
      rw [Store.isElement, content]
      rfl
  | fragment =>
      apply Entered.inside
      rw [Store.isElement, content]
      rfl
  | _ =>
      apply Entered.past
      rw [List.forall_mem_singleton]
      rfl

theorem entered_of_step {s : Store} {escape raw : Bool} {i : NodeId} {container : Option NodeId}
    {pending : List Task} {found : List Token} {next : State}
    (moved : step s escape ⟨raw, .enter i container :: pending⟩ = some (found, next)) :
    Entered s i ⟨raw, pending⟩ found next := by
  have entered := entered_enter s escape i container ⟨raw, pending⟩
  rw [step, Option.some.injEq] at moved
  simp only at moved
  rw [moved] at entered
  exact entered

theorem step_rawText (s : Store) (escape : Bool) (w next : State) (found : List Token)
    (moved : step s escape w = some (found, next)) :
    next.rawText = rawAfter w.rawText found := by
  obtain ⟨raw, pending⟩ := w
  cases pending with
  | nil => cases moved
  | cons task pending =>
      cases task with
      | leave tag space =>
          cases moved
          rfl
      | enter i container =>
          cases entered_of_step moved with
          | element tag space attrs content => rfl
          | inside other => rfl
          | past _ plain => exact (rawAfter_of_plain plain raw).symm

theorem Runs.rawText_eq {s : Store} {escape : Bool} {first last : State} {visits : List Visit}
    (runs : Runs s escape first visits last) :
    last.rawText = rawAfter first.rawText (tokensOf visits) := by
  induction runs with
  | rest w => rfl
  | round moved _ ih =>
      rw [ih, step_rawText s escape _ _ _ moved, tokensOf_cons, rawAfter_append]

theorem Runs.void_of_emptyTag {s : Store} {escape : Bool} {first last : State}
    {visits : List Visit} (runs : Runs s escape first visits last) (name : String)
    (space : Option String) (attrs : Pairs) (found : .emptyTag name space attrs ∈ tokensOf visits) :
    Tag.isVoid name = true := by
  induction runs with
  | rest w => cases found
  | @round raw task pending tokens next _ _ moved _ ih =>
      rw [tokensOf_cons, List.mem_append] at found
      rcases found with here | later
      · cases task with
        | leave tag space =>
            cases moved
            cases List.mem_singleton.mp here
        | enter i container =>
            cases entered_of_step moved with
            | element tag space attrs content => cases List.mem_singleton.mp here
            | inside other => cases here
            | past _ plain => exact plain _ here
      · exact ih later

/-- Raw text is open where an element of raw text lists a node only if that element opened it. -/
def Governed (s : Store) (before : List Visit) (container : Option NodeId) : Prop :=
  rawAfter false (tokensOf before) = true →
    ∀ c, container = some c → IsRawText s c → OpenedBy before c

/-- A part of a walk that leaves whatever it opened: if raw text is open after it, it was open
before and nothing of it closed, and wherever a node was met the one that lists it governs. -/
structure Passed (s : Store) (container : Option NodeId) (raw : Bool) (visits : List Visit)
    (after : Bool) : Prop where
  flag : rawAfter raw (tokensOf visits) = after
  closed : after = true → raw = true ∧ ¬ ClosesRaw (tokensOf visits)
  governed : ∀ before, rawAfter false (tokensOf before) = raw → Governed s before container →
    ∀ left i lister found right, visits = left ++ ⟨.enter i lister, found⟩ :: right →
      Governed s (before ++ left) lister

theorem OpenedBy.append {before : List Visit} {c : NodeId} (opened : OpenedBy before c)
    (since : List Visit) (unclosed : ¬ ClosesRaw (tokensOf since)) : OpenedBy (before ++ since) c := by
  obtain ⟨first, container, name, space, attrs, rest, rfl, still⟩ := opened
  refine ⟨first, container, name, space, attrs, rest ++ since, ?_, ?_⟩
  · rw [List.append_assoc, List.cons_append]
  · rw [tokensOf_append, closesRaw_append]
    exact fun closes => closes.elim still unclosed

theorem Passed.governs {s : Store} {container : Option NodeId} {raw after : Bool}
    {visits : List Visit} (passed : Passed s container raw visits after) (before : List Visit)
    (here : rawAfter false (tokensOf before) = raw) (governed : Governed s before container) :
    Governed s (before ++ visits) container := by
  intro open_ c lister rawText
  rw [tokensOf_append, rawAfter_append, here, passed.flag] at open_
  obtain ⟨was, unclosed⟩ := passed.closed open_
  exact (governed (here.trans was) c lister rawText).append visits unclosed

theorem passed_nil (s : Store) (container : Option NodeId) (raw : Bool) :
    Passed s container raw [] raw where
  flag := rfl
  closed on := ⟨on, fun ⟨_, _, absurd, _⟩ => nomatch absurd⟩
  governed _ _ _ left _ _ _ _ split := by
    cases left <;> cases split

theorem Passed.append {s : Store} {container : Option NodeId} {raw middle after : Bool}
    {left right : List Visit} (first : Passed s container raw left middle)
    (second : Passed s container middle right after) :
    Passed s container raw (left ++ right) after where
  flag := by rw [tokensOf_append, rawAfter_append, first.flag, second.flag]
  closed on := by
    obtain ⟨between, rightUnclosed⟩ := second.closed on
    obtain ⟨was, leftUnclosed⟩ := first.closed between
    rw [tokensOf_append, closesRaw_append]
    exact ⟨was, fun closes => closes.elim leftUnclosed rightUnclosed⟩
  governed before here governed front i lister found back split := by
    have there : rawAfter false (tokensOf (before ++ left)) = middle := by
      rw [tokensOf_append, rawAfter_append, here, first.flag]
    have between := first.governs before here governed
    rcases List.append_eq_append_iff.mp split with ⟨gap, rfl, rest⟩ | ⟨gap, whole, rest⟩
    · rw [← List.append_assoc]
      exact second.governed (before ++ left) there between gap i lister found back rest
    · cases gap with
      | nil =>
          have atStart := second.governed (before ++ left) there between [] i lister found back
            rest.symm
          rw [whole, List.append_nil, List.append_nil] at atStart
          exact atStart
      | cons v gap =>
          cases rest
          exact first.governed before here governed front i lister found gap whole

theorem passed_past (s : Store) (i : NodeId) (container : Option NodeId) (raw : Bool)
    (found : List Token) (plain : ∀ t ∈ found, isPlain t = true) :
    Passed s container raw [⟨.enter i container, found⟩] raw where
  flag := by
    rw [tokensOf, List.flatMap_singleton]
    exact rawAfter_of_plain plain raw
  closed on := by
    rw [tokensOf, List.flatMap_singleton]
    exact ⟨on, not_closesRaw_of_plain plain⟩
  governed before _ governed left j lister other right split := by
    cases left with
    | nil =>
        cases split
        rw [List.append_nil]
        exact governed
    | cons v left => cases left <;> cases split

theorem governed_of_first {s : Store} {container : Option NodeId} {raw after : Bool} {i : NodeId}
    {tokens : List Token} {visits : List Visit}
    (passed : Passed s (some i) (rawAfter raw tokens) visits after)
    (opened : ∀ before, IsRawText s i →
      rawAfter false (tokensOf (before ++ [⟨.enter i container, tokens⟩])) = true →
      OpenedBy (before ++ [⟨.enter i container, tokens⟩]) i)
    (before : List Visit) (here : rawAfter false (tokensOf before) = raw)
    (governed : Governed s before container) (left : List Visit) (j : NodeId)
    (lister : Option NodeId) (found : List Token) (right : List Visit)
    (split : ⟨.enter i container, tokens⟩ :: visits = left ++ ⟨.enter j lister, found⟩ :: right) :
    Governed s (before ++ left) lister := by
  cases left with
  | nil =>
      cases split
      rw [List.append_nil]
      exact governed
  | cons v left =>
      cases split
      rw [List.append_cons]
      apply passed.governed _ _ _ left j lister found right rfl
      · rw [tokensOf_append, rawAfter_append, here, tokensOf, List.flatMap_singleton]
      · intro on c same rawText
        cases same
        exact opened before rawText on

theorem passed_inside {s : Store} {i : NodeId} {container : Option NodeId} {raw after : Bool}
    {visits : List Visit} (other : s.isElement i = false)
    (passed : Passed s (some i) raw visits after) :
    Passed s container raw (⟨.enter i container, []⟩ :: visits) after where
  flag := passed.flag
  closed := passed.closed
  governed := by
    apply governed_of_first passed
    rintro before ⟨tag, space, attrs, content, _⟩
    rw [Store.isElement, content] at other
    cases other

theorem passed_element {s : Store} {i : NodeId} {container : Option NodeId} {raw after : Bool}
    {visits : List Visit} {tag : String} {space : Option String} {attrs : Pairs}
    (passed : Passed s (some i) (raw || Tag.isRawText tag) visits after) :
    Passed s container raw (⟨.enter i container, [.startTag tag space attrs]⟩ :: visits ++
      [⟨.leave tag space, [.endTag tag space]⟩]) (after && !Tag.isRawText tag) where
  flag := by
    rw [List.cons_append, tokensOf_cons, tokensOf_append, rawAfter_append, rawAfter_append]
    have inner := passed.flag
    rw [show rawAfter raw [.startTag tag space attrs] = (raw || Tag.isRawText tag) from rfl, inner]
    rfl
  closed on := by
    rw [Bool.and_eq_true, Bool.not_eq_true'] at on
    obtain ⟨was, unclosed⟩ := passed.closed on.1
    rw [on.2, Bool.or_false] at was
    rw [List.cons_append, tokensOf_cons, tokensOf_append, closesRaw_append, closesRaw_append]
    refine ⟨was, ?_⟩
    rintro (⟨name, _, member, _⟩ | closes | closes)
    · cases List.mem_singleton.mp member
    · exact unclosed closes
    · rw [tokensOf, List.flatMap_singleton, closesRaw_end, on.2] at closes
      cases closes
  governed before here governed left j lister found right split := by
    have ended : ∃ rest, ⟨.enter i container, [.startTag tag space attrs]⟩ :: visits =
        left ++ ⟨.enter j lister, found⟩ :: rest := by
      rcases List.append_eq_append_iff.mp split with ⟨gap, _, rest⟩ | ⟨gap, whole, rest⟩
      · cases gap with
        | nil => cases rest
        | cons v gap => cases gap <;> cases rest
      · cases gap with
        | nil => cases rest
        | cons v gap =>
            cases rest
            exact ⟨gap, whole⟩
    obtain ⟨rest, inner⟩ := ended
    apply governed_of_first passed _ before here governed left j lister found rest inner
    intro before _ _
    exact ⟨before, container, tag, space, attrs, [], rfl, fun ⟨_, _, absurd, _⟩ => nomatch absurd⟩

theorem tasks_eq (s : Store) (i : NodeId) (f : Forest NodeId) (tops : s.children i = f.tops) :
    tasks (s.children i) i = f.tops.map fun c => Task.enter c (some i) := by
  rw [tasks, tops]

/-- Over the tasks, of nodes that one node lists, the walk comes to their end, in so many rounds at
most and whatever waits behind them. -/
def Crosses (s : Store) (escape : Bool) (container : Option NodeId) (todo : List Task)
    (rounds : Nat) : Prop :=
  ∀ raw pending, ∃ visits after, Runs s escape ⟨raw, todo ++ pending⟩ visits ⟨after, pending⟩ ∧
    Passed s container raw visits after ∧ visits.length ≤ rounds

section Crossing

variable {s : Store} {escape : Bool} {i : NodeId} {container : Option NodeId}
  {todo others : List Task} {rounds further : Nat}

theorem crosses_nil (s : Store) (escape : Bool) (container : Option NodeId) :
    Crosses s escape container [] 0 :=
  fun raw _ => ⟨[], raw, Runs.rest _, passed_nil s container raw, Nat.le_refl 0⟩

theorem Crosses.append (first : Crosses s escape container todo rounds)
    (later : Crosses s escape container others further) :
    Crosses s escape container (todo ++ others) (rounds + further) := by
  intro raw pending
  obtain ⟨here, between, runs, passed, short⟩ := first raw (others ++ pending)
  obtain ⟨there, after, onwards, passedOn, short'⟩ := later between pending
  refine ⟨here ++ there, after, ?_, passed.append passedOn, ?_⟩
  · rw [List.append_assoc]
    exact runs.append onwards
  · rw [List.length_append]
    exact Nat.add_le_add short short'

theorem Crosses.node (below : Forest NodeId) (tops : s.children i = below.tops)
    (inside : Crosses s escape (some i) (below.tops.map fun c => Task.enter c (some i)) rounds) :
    Crosses s escape container [.enter i container] (rounds + 2) := by
  intro raw pending
  have moved : step s escape ⟨raw, .enter i container :: pending⟩ =
      some (enter s escape i container ⟨raw, pending⟩) := rfl
  have entered := entered_enter s escape i container ⟨raw, pending⟩
  generalize enter s escape i container _ = result at moved entered
  obtain ⟨found, next⟩ := result
  cases entered with
  | element tag space attrs content =>
      rw [tasks_eq s i below tops] at moved
      obtain ⟨visits, after, runs, passed, short⟩ :=
        inside (raw || Tag.isRawText tag) (.leave tag space :: pending)
      have left : Runs s escape ⟨after, .leave tag space :: pending⟩
          [⟨.leave tag space, [.endTag tag space]⟩] ⟨after && !Tag.isRawText tag, pending⟩ :=
        Runs.round rfl (Runs.rest _)
      refine ⟨_, _, Runs.round moved (runs.append left), passed_element passed, ?_⟩
      simp only [List.length_cons, List.length_append, List.length_nil]
      omega
  | inside other =>
      rw [tasks_eq s i below tops] at moved
      obtain ⟨visits, after, runs, passed, short⟩ := inside raw pending
      refine ⟨_, after, Runs.round moved runs, passed_inside other passed, ?_⟩
      rw [List.length_cons]
      omega
  | past _ plain =>
      refine ⟨_, raw, Runs.round moved (Runs.rest _), passed_past s i container raw found plain, ?_⟩
      rw [List.length_singleton]
      omega

end Crossing

/-- The trees below a list of nodes are walked one after the other, to the end of each. -/
theorem crosses_tops (s : Store) (escape : Bool) (f : Forest NodeId) (unfolded : s.Unfolds f) :
    ∀ container : Option NodeId,
      Crosses s escape container (f.tops.map fun c => Task.enter c container)
        (2 * f.labels.length) := by
  induction f with
  | nil => exact fun container => crosses_nil s escape container
  | cons i below rest ihBelow ihRest =>
      intro container
      obtain ⟨tops, deeper, beside⟩ := unfolded
      have whole := (Crosses.node below tops (ihBelow deeper (some i))).append
        (ihRest beside container)
      have count : 2 * (Forest.cons i below rest).labels.length =
          2 * below.labels.length + 2 + 2 * rest.labels.length := by
        rw [Forest.labels, List.length_cons, List.length_append]
        omega
      rw [count]
      exact whole

/-- The walk over a node comes to its end, all its tokens are those of its rounds, and every node
was met where the one that lists it governs. -/
theorem exists_walk (s : Store) (root : NodeId) (escape : Bool) (acyclic : s.Acyclic root) :
    ∃ visits after, Runs s escape (start s root) visits ⟨after, []⟩ ∧
      tokens s root escape = tokensOf visits ∧
      ∀ before i container found later, visits = before ++ ⟨.enter i container, found⟩ :: later →
        Governed s before container := by
  obtain ⟨f, tops, unfolded⟩ := s.exists_unfolds root acyclic
  have reach := unfolded.reach_eq root tops
  have started : ∃ g container, s.Unfolds g ∧ g.labels.length ≤ 1 + f.labels.length ∧
      (start s root).rawText = false ∧
      (start s root).pending = (g.tops.map fun c => Task.enter c container) ++ [] := by
    rw [start]
    split
    · exact ⟨f, some root, unfolded, by omega, rfl, by
        rw [List.append_nil]; exact tasks_eq s root f tops⟩
    · refine ⟨.cons root f .nil, none, ⟨tops, unfolded, trivial⟩, ?_, rfl, rfl⟩
      simp only [Forest.labels, List.append_nil, List.length_cons]
      omega
  obtain ⟨g, container, grown, short, off, pending⟩ := started
  obtain ⟨visits, after, runs, passed, length⟩ := crosses_tops s escape g grown container false []
  rw [← off, ← pending] at runs
  refine ⟨visits, after, runs, ?_, ?_⟩
  · rw [tokens]
    apply runs.run_eq rfl
    omega
  · have unraw : ¬ rawAfter false (tokensOf []) = true := Bool.false_ne_true
    intro before i lister found later split
    exact passed.governed [] rfl (fun raw => absurd raw unraw) before i lister found later split

theorem Runs.tokens_of_text {s : Store} {escape : Bool} {first last : State}
    {before later : List Visit} {i : NodeId} {container : Option NodeId} {found : List Token}
    (runs : Runs s escape first (before ++ ⟨.enter i container, found⟩ :: later) last)
    (value : Option String) (text : s.content i = .text value) :
    found = textTokens s escape (rawAfter first.rawText (tokensOf before)) i container
      (value.getD "") := by
  obtain ⟨middle, earlier, onward⟩ := runs.split
  have flag := earlier.rawText_eq
  cases onward with
  | round moved _ =>
      simp only [step, enter, text, Option.some.injEq, Prod.mk.injEq] at moved
      rw [← moved.1, ← flag]

theorem Runs.content_of_startTag {s : Store} {escape : Bool} {first last : State}
    {before later : List Visit} {c : NodeId} {container : Option NodeId} {name : String}
    {space : Option String} {attrs : Pairs}
    (runs : Runs s escape first
      (before ++ ⟨.enter c container, [.startTag name space attrs]⟩ :: later) last) :
    ∃ own, s.content c = .element name space own := by
  obtain ⟨middle, _, onward⟩ := runs.split
  generalize same : [Token.startTag name space attrs] = found at onward
  cases onward with
  | round moved _ =>
      cases entered_of_step moved with
      | element tag space own content =>
          cases same
          exact ⟨own, content⟩
      | inside other => cases same
      | past _ plain =>
          rw [← same, List.forall_mem_singleton] at plain
          cases plain

/-- A node is met among the children of the one that is said to list it. -/
theorem Runs.mem_children {s : Store} {escape : Bool} {first last : State} {visits : List Visit}
    (runs : Runs s escape first visits last)
    (listed : ∀ i c, .enter i (some c) ∈ first.pending → i ∈ s.children c) (i c : NodeId)
    (found : List Token) (met : ⟨.enter i (some c), found⟩ ∈ visits) : i ∈ s.children c := by
  induction runs with
  | rest w => cases met
  | @round raw task pending tokens next _ _ moved _ ih =>
      rcases List.mem_cons.mp met with here | later
      · cases here
        exact listed i c List.mem_cons_self
      · apply ih _ later
        intro j d waiting
        have below : ∀ k, .enter j (some d) ∈ tasks (s.children k) k → j ∈ s.children d := by
          intro k member
          obtain ⟨child, inside, same⟩ := List.mem_map.mp member
          cases same
          exact inside
        have before : .enter j (some d) ∈ pending → j ∈ s.children d :=
          fun member => listed j d (List.mem_cons_of_mem _ member)
        cases task with
        | leave tag space =>
            cases moved
            exact before waiting
        | enter k container =>
            cases entered_of_step moved with
            | element tag space attrs content =>
                rcases List.mem_append.mp waiting with inside | outside
                · exact below k inside
                · rcases List.mem_cons.mp outside with absurd | outside
                  · cases absurd
                  · exact before outside
            | inside other =>
                rcases List.mem_append.mp waiting with inside | outside
                · exact below k inside
                · exact before outside
            | past _ plain => exact before waiting

theorem start_rawText (s : Store) (root : NodeId) : (start s root).rawText = false := by
  rw [start]
  split <;> rfl

theorem mem_children_of_start (s : Store) (root i c : NodeId)
    (waiting : .enter i (some c) ∈ (start s root).pending) : i ∈ s.children c := by
  rw [start] at waiting
  split at waiting
  · obtain ⟨child, inside, same⟩ := List.mem_map.mp waiting
    cases same
    exact inside
  · cases List.mem_singleton.mp waiting

theorem rawAfter_of_unclosed (ts : List Token) (unclosed : ¬ ClosesRaw ts) :
    rawAfter true ts = true := by
  induction ts with
  | nil => rfl
  | cons t ts ih =>
      have still : rawStep true t = true := by
        cases t with
        | startTag name space attrs => rfl
        | endTag name space =>
            rw [rawStep, Bool.true_and, Bool.not_eq_true']
            by_contra raw
            rw [Bool.not_eq_false] at raw
            exact unclosed ⟨name, space, List.mem_cons_self, raw⟩
        | _ => rfl
      rw [rawAfter, List.foldl_cons, still]
      apply ih
      rintro ⟨name, space, member, raw⟩
      exact unclosed ⟨name, space, List.mem_cons_of_mem t member, raw⟩

theorem Runs.rawAfter_of_openedBy {s : Store} {escape : Bool} {first last : State}
    {before later : List Visit} (runs : Runs s escape first (before ++ later) last) (c : NodeId)
    (rawText : IsRawText s c) (opened : OpenedBy before c) (raw : Bool) :
    rawAfter raw (tokensOf before) = true := by
  obtain ⟨front, container, name, space, attrs, since, rfl, unclosed⟩ := opened
  rw [List.append_assoc, List.cons_append] at runs
  obtain ⟨own, content⟩ := runs.content_of_startTag
  obtain ⟨tag, _, _, same, isRaw⟩ := rawText
  rw [content] at same
  cases same
  rw [tokensOf_append, tokensOf_cons, rawAfter_append, rawAfter_append]
  have opens : rawAfter (rawAfter raw (tokensOf front)) [.startTag name space attrs] = true := by
    rw [rawAfter, List.foldl_cons, List.foldl_nil, rawStep, isRaw, Bool.or_true]
  rw [opens]
  exact rawAfter_of_unclosed _ unclosed

theorem isLinkedRawText_iff (s : Store) (i : NodeId) (container : Option NodeId) :
    isLinkedRawText s i container = true ↔
      ∃ c, container = some c ∧ IsRawText s c ∧ s.parent i = some c := by
  cases container with
  | none => simp [isLinkedRawText]
  | some c =>
      simp only [isLinkedRawText, Option.some.injEq]
      cases content : s.content c with
      | element tag space attrs =>
          simp only [Bool.and_eq_true, beq_iff_eq]
          constructor
          · rintro ⟨raw, linked⟩
            exact ⟨c, rfl, ⟨tag, space, attrs, content, raw⟩, linked⟩
          · rintro ⟨_, rfl, ⟨tag', space', attrs', same, raw⟩, linked⟩
            rw [content] at same
            cases same
            exact ⟨raw, linked⟩
      | _ =>
          simp only [Bool.false_eq_true, false_iff]
          rintro ⟨_, rfl, ⟨tag', space', attrs', same, _⟩, _⟩
          rw [content] at same
          cases same

end HtmlTree.Markup.Walk
