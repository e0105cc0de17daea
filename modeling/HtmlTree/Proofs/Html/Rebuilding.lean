import HtmlTree.Proofs.Dom.Conversion
import HtmlTree.Proofs.Html.Lexing

/-! Written trees read back into a tree under construction. A text may come back in pieces. -/

namespace HtmlTree.Html

open Builder (Inside)
open Markup
open Text (isSpace)

def textsOf (pieces : List (List Char)) : List Parsed :=
  pieces.map fun piece => .text (String.ofList piece)

theorem forest_textsOf (pieces : List (List Char)) (ts : List Parsed) : ∀ run,
    Parsed.forest run (textsOf pieces ++ ts) =
      Parsed.forest (run ++ String.ofList pieces.flatten) ts := by
  induction pieces with
  | nil =>
      intro run
      rw [List.flatten_nil, String.ofList_nil, String.append_empty]
      rfl
  | cons piece pieces ih =>
      intro run
      have first : textsOf (piece :: pieces) ++ ts =
          .text (String.ofList piece) :: (textsOf pieces ++ ts) := rfl
      rw [first, Parsed.forest, ih, List.flatten_cons, String.ofList_append, String.append_assoc]

/-- What text ends at: the end of all, or a tag or comment. -/
def Breaks (more : List Char) : Prop := ∀ d ∈ more.head?, d = '<'

theorem escapeChar_cases (c : Char) : (∃ name, escapeChar c = '&' :: name ∧ StandsFor name c) ∨
    escapeChar c = [c] ∧ c ≠ '&' ∧ c ≠ '<' ∧ c ≠ '>' := by
  unfold escapeChar
  split
  · next ampersand =>
    rw [ampersand]
    exact Or.inl ⟨_, rfl, standsFor_ampersand⟩
  · split
    · next less =>
      rw [less]
      exact Or.inl ⟨_, rfl, standsFor_less⟩
    · split
      · next greater =>
        rw [greater]
        exact Or.inl ⟨_, rfl, standsFor_greater⟩
      · next ampersand less greater => exact Or.inr ⟨rfl, ampersand, less, greater⟩

def isPlainText (c : Char) : Bool := Lexer.isPlainData c && c ≠ '>'

theorem escapeChar_of_space {c : Char} (space : isSpace c = true) : escapeChar c = [c] := by
  rcases escapeChar_cases c with ⟨name, _, stands⟩ | ⟨written, _⟩
  · rw [stands.shown] at space
    cases space
  · exact written

theorem spacesRun_eq (text more : List Char) (breaks : Breaks more) :
    (escapeText text ++ more).takeWhile isSpace = text.takeWhile isSpace ∧
      (escapeText text ++ more).dropWhile isSpace = escapeText (text.dropWhile isSpace) ++ more := by
  apply run_eq
  · exact fun c _ space => ⟨escapeChar_of_space space, space⟩
  · intro c _ visible
    rcases escapeChar_cases c with ⟨name, written, _⟩ | ⟨written, _⟩
    · exact ⟨'&', name, written, rfl⟩
    · exact ⟨c, [], written, visible⟩
  · intro d first
    rw [breaks d first]
    rfl

theorem textRun_eq (text more : List Char) (free : ∀ c ∈ text, c ≠ '\x00') (breaks : Breaks more) :
    (escapeText text ++ more).takeWhile Lexer.isPlainData = text.takeWhile isPlainText ∧
      (escapeText text ++ more).dropWhile Lexer.isPlainData =
        escapeText (text.dropWhile isPlainText) ++ more := by
  apply run_eq
  · intro c _ plain
    rw [isPlainText, Bool.and_eq_true, decide_eq_true_eq] at plain
    refine ⟨?_, plain.1⟩
    obtain ⟨data, greater⟩ := plain
    simp only [Lexer.isPlainData, Bool.and_eq_true, decide_eq_true_eq] at data
    rw [escapeChar, if_neg data.1.1, if_neg data.1.2, if_neg greater]
  · intro c member special
    rcases escapeChar_cases c with ⟨name, written, _⟩ | ⟨_, ampersand, less, greater⟩
    · exact ⟨'&', name, written, rfl⟩
    · simp only [isPlainText, Lexer.isPlainData, ampersand, less, greater, free c member, ne_eq,
        not_false_eq_true, decide_true, Bool.and_self] at special
      cases special
  · intro d first
    rw [breaks d first]
    rfl

/-- These parsed nodes at the end of an element, whatever comes after them. -/
def Continues (a : Arena) (p : Nat) (ts : List Parsed) (b : Arena) : Prop :=
  ∀ rest c, Arena.Gains b p rest c → Arena.Gains a p (ts ++ rest) c

theorem continues_one {a b : Arena} {p : Nat} {part : Part} {ts : List Parsed} (known : p < a.size)
    (below : Arena.Gains (a.insert p part) a.size ts b) : Continues a p [part.parsed ts] b :=
  fun _ _ gains => Arena.Gains.cons known below gains

theorem Continues.append {a b c : Arena} {p : Nat} {ts us : List Parsed}
    (first : Continues a p ts b) (second : Continues b p us c) : Continues a p (ts ++ us) c := by
  intro rest d gains
  rw [List.append_assoc]
  exact first _ d (second rest d gains)

theorem Continues.gains {a b : Arena} {p : Nat} {ts : List Parsed} (continues : Continues a p ts b) :
    Arena.Gains a p ts b := by
  have whole := continues [] b (Arena.gains_nothing b p)
  rwa [List.append_nil] at whole

/-- From one point of a parse to another, at which these parsed nodes more stand at the end of the
current element. -/
structure Puts (mode : Mode) (o : Open) (around : List Open) (v : View) (ts : List Parsed)
    (w : View) : Prop where
  leads : Leads v w
  inside : Inside w.builder mode o around
  continues : Continues v.builder.arena o.id ts w.builder.arena

theorem puts_nothing {mode : Mode} {o : Open} {around : List Open} {v : View}
    (inside : Inside v.builder mode o around) : Puts mode o around v [] v where
  leads := Leads.refl v
  inside := inside
  continues _ _ gains := gains

theorem Puts.append {mode : Mode} {o : Open} {around : List Open} {u v w : View}
    {ts us : List Parsed} (first : Puts mode o around u ts v) (second : Puts mode o around v us w) :
    Puts mode o around u (ts ++ us) w where
  leads := first.leads.trans second.leads
  inside := second.inside
  continues := first.continues.append second.continues

theorem puts_leaf {mode : Mode} {o : Open} {around : List Open} {v w : View} {part : Part}
    (leads : Leads v w) (known : o.id < v.builder.arena.size)
    (inside : Inside w.builder mode o around)
    (put : w.builder.arena = v.builder.arena.insert o.id part) :
    Puts mode o around v [part.parsed []] w where
  leads := leads
  inside := inside
  continues := by
    rw [put]
    exact continues_one known (Arena.gains_nothing _ _)

theorem puts_piece {mode : Mode} {o : Open} {around : List Open} {v w : View} {piece : List Char}
    (leads : Leads v w) (known : o.id < v.builder.arena.size)
    (inside : Inside w.builder mode o around)
    (put : w.builder.arena = v.builder.arena.insert o.id (.text (String.ofList piece))) :
    Puts mode o around v (textsOf [piece]) w := by
  have leaf : Puts mode o around v [(Part.text (String.ofList piece)).parsed []] w :=
    puts_leaf leads known inside put
  exact leaf

theorem ofList_ne_nul {c : Char} (visible : c ≠ '\x00') (text : List Char) :
    String.ofList (c :: text) ≠ Builder.nul := by
  intro same
  have chars := congrArg String.toList same
  rw [String.toList_ofList] at chars
  exact visible (List.cons.inj chars).1

theorem StandsFor.length_lt {name : List Char} {c : Char} (stands : StandsFor name c)
    (rest : List Char) : rest.length < (name ++ rest).length := by
  obtain ⟨first, others, rfl, _⟩ := stands.named
  exact length_word_lt first others rest

variable {draft : Draft} {buffer more : List Char} {o : Open} {around : List Open}

theorem exists_first_piece (breaks : Breaks more) (c : Char) (text : List Char)
    (free : ∀ d ∈ c :: text, d ≠ '\x00') (b : Builder) (inside : Inside b .inBody o around) :
    ∃ next piece others,
      Puts .inBody o around ⟨⟨.data, draft, buffer, escapeText (c :: text) ++ more⟩, b⟩
        (textsOf [piece]) ⟨⟨.data, draft, buffer, escapeText others ++ more⟩, next⟩ ∧
      piece ++ others = c :: text ∧ others <:+ text := by
  rw [List.forall_mem_cons] at free
  rcases escapeChar_cases c with ⟨word, written, stands⟩ | ⟨written, ampersand, less, greater⟩
  · obtain ⟨next, turns, still, put⟩ :=
      inside.turns_characters (String.ofList [c]) (ofList_ne_nul free.1 [])
    refine ⟨next, [c], text, puts_piece ?_ inside.known still put, rfl, List.suffix_rfl⟩
    rw [escapeText, List.flatMap_cons, written, List.cons_append, List.cons_append,
      List.append_assoc]
    exact (leads_silent reads_ampersand (by simp) b).trans
      (leads_turn (reads_reference stands) (stands.length_lt _) turns)
  · have start : escapeText (c :: text) ++ more = c :: (escapeText text ++ more) := by
      rw [escapeText, List.flatMap_cons, written]
      rfl
    rw [start]
    by_cases space : isSpace c = true
    · obtain ⟨next, turns, still, put⟩ :=
        inside.turns_spaces (String.ofList (c :: text.takeWhile isSpace)) (by simp)
      refine ⟨next, c :: text.takeWhile isSpace, text.dropWhile isSpace,
        puts_piece ?_ inside.known still put, ?_, List.dropWhile_suffix _⟩
      · obtain ⟨run, rest⟩ := spacesRun_eq text more breaks
        rw [← run] at turns
        rw [← rest]
        exact leads_turn (reads_spaces space) (length_run_lt isSpace c _) turns
      · rw [List.cons_append, List.takeWhile_append_dropWhile]
    · have plain : Lexer.isPlainData c = true := by
        simp only [Lexer.isPlainData, ampersand, less, free.1, ne_eq, not_false_eq_true, decide_true,
          Bool.and_self]
      obtain ⟨next, turns, still, put⟩ := inside.turns_characters
        (String.ofList (c :: text.takeWhile isPlainText)) (ofList_ne_nul free.1 _)
      refine ⟨next, c :: text.takeWhile isPlainText, text.dropWhile isPlainText,
        puts_piece ?_ inside.known still put, ?_, List.dropWhile_suffix _⟩
      · obtain ⟨run, rest⟩ := textRun_eq text more free.2 breaks
        rw [← run] at turns
        rw [← rest]
        exact leads_turn (reads_characters plain (Bool.eq_false_of_not_eq_true space))
          (length_run_lt Lexer.isPlainData c _) turns
      · rw [List.cons_append, List.takeWhile_append_dropWhile]

theorem exists_puts_text (breaks : Breaks more) (text : List Char) : ∀ b : Builder,
    (∀ c ∈ text, c ≠ '\x00') → Inside b .inBody o around → ∃ next pieces,
      Puts .inBody o around ⟨⟨.data, draft, buffer, escapeText text ++ more⟩, b⟩ (textsOf pieces)
        ⟨⟨.data, draft, buffer, more⟩, next⟩ ∧ pieces.flatten = text := by
  induction text using suffix_induction with
  | nil => exact fun b _ inside => ⟨b, [], puts_nothing inside, rfl⟩
  | cons c text ih =>
      intro b free inside
      obtain ⟨middle, piece, others, first, whole, ends⟩ :=
        exists_first_piece breaks c text free b inside
      have later : ∀ d ∈ others, d ≠ '\x00' := fun d member =>
        free d (List.mem_cons_of_mem c (ends.sublist.mem member))
      obtain ⟨next, pieces, onward, rest⟩ := ih others ends middle later first.inside
      refine ⟨next, piece :: pieces, first.append onward, ?_⟩
      rw [List.flatten_cons, rest, whole]

theorem exists_after_bracket (tag : String) (more text : List Char)
    (closers : ¬ ['<', '/'] <:+: '<' :: text) (comments : ¬ ['<', '!'] <:+: '<' :: text) :
    ∃ d after, text ++ (endMarkup tag ++ more) = d :: after ∧ d ≠ '/' ∧ d ≠ '!' := by
  cases text with
  | nil => exact ⟨'<', _, rfl, by decide, by decide⟩
  | cons d text =>
      refine ⟨d, _, rfl, ?_, ?_⟩
      · rintro rfl
        exact closers (List.prefix_append ['<', '/'] text).isInfix
      · rintro rfl
        exact comments (List.prefix_append ['<', '!'] text).isInfix

/-- The first piece of a text that is read as it stands: a bracket or a run without brackets. -/
theorem exists_first_raw_piece {kind : RawKind} (isRaw : IsRawKind kind) (tag : String)
    (more : List Char) (c : Char) (text : List Char) (free : c ≠ '\x00')
    (closers : ¬ ['<', '/'] <:+: c :: text) (comments : ¬ ['<', '!'] <:+: c :: text) (b : Builder)
    (inside : Inside b .text o around) :
    ∃ next piece others,
      Puts .text o around
        ⟨⟨Lexer.RawKind.home kind, draft, buffer, c :: text ++ (endMarkup tag ++ more)⟩, b⟩
        (textsOf [piece])
        ⟨⟨Lexer.RawKind.home kind, draft, buffer, others ++ (endMarkup tag ++ more)⟩, next⟩ ∧
      piece ++ others = c :: text ∧ others <:+ text := by
  by_cases bracket : c = '<'
  · subst bracket
    obtain ⟨next, turns, still, put⟩ := inside.turns_raw_characters (String.ofList ['<'])
    refine ⟨next, ['<'], text, puts_piece ?_ inside.known still put, rfl, List.suffix_rfl⟩
    obtain ⟨d, after, same, solidus, bang⟩ := exists_after_bracket tag more text closers comments
    rw [List.cons_append, same]
    exact leads_back_turn (reads_rawBracket isRaw) (reads_rawLess isRaw solidus bang)
      (Nat.lt_succ_self _) rfl turns
  · have plain : Lexer.isPlainRaw c = true := by
      simp only [Lexer.isPlainRaw, bracket, free, ne_eq, not_false_eq_true, decide_true,
        Bool.and_self]
    obtain ⟨next, turns, still, put⟩ :=
      inside.turns_raw_characters (String.ofList (c :: text.takeWhile Lexer.isPlainRaw))
    refine ⟨next, c :: text.takeWhile Lexer.isPlainRaw, text.dropWhile Lexer.isPlainRaw,
      puts_piece ?_ inside.known still put, ?_, List.dropWhile_suffix _⟩
    · obtain ⟨run, left⟩ := plain_run_eq Lexer.isPlainRaw text (endMarkup tag ++ more)
        (by rintro d ⟨⟩; rfl)
      rw [← run] at turns
      rw [← left]
      exact leads_turn (reads_rawRun isRaw plain) (length_run_lt Lexer.isPlainRaw c _) turns
    · rw [List.cons_append, List.takeWhile_append_dropWhile]

theorem exists_puts_raw {kind : RawKind} (isRaw : IsRawKind kind) (tag : String)
    (more text : List Char) : ∀ b : Builder, (∀ c ∈ text, c ≠ '\x00') →
      ¬ ['<', '/'] <:+: text → ¬ ['<', '!'] <:+: text → Inside b .text o around →
      ∃ next pieces,
        Puts .text o around ⟨⟨Lexer.RawKind.home kind, draft, buffer, text ++ (endMarkup tag ++ more)⟩, b⟩
          (textsOf pieces) ⟨⟨Lexer.RawKind.home kind, draft, buffer, endMarkup tag ++ more⟩, next⟩ ∧
        pieces.flatten = text := by
  induction text using suffix_induction with
  | nil => exact fun b _ _ _ inside => ⟨b, [], puts_nothing inside, rfl⟩
  | cons c text ih =>
      intro b free closers comments inside
      rw [List.forall_mem_cons] at free
      obtain ⟨middle, piece, others, first, whole, ends⟩ :=
        exists_first_raw_piece isRaw tag more c text free.1 closers comments b inside
      have within := (ends.trans (List.suffix_cons c text)).isInfix
      obtain ⟨next, pieces, onward, rest⟩ := ih others ends middle
        (fun d member => free.2 d (ends.sublist.mem member))
        (fun inner => closers (inner.trans within)) (fun inner => comments (inner.trans within))
        first.inside
      refine ⟨next, piece :: pieces, first.append onward, ?_⟩
      rw [List.flatten_cons, rest, whole]

def behind (run : String) : Forest Content → Forest Content
  | .cons (.text value) _ rest => Parsed.flush (run ++ value.getD "") rest
  | shape => Parsed.flush run shape

theorem behind_of_apart (run : String) (shape : Forest Content)
    (apart : ∀ c ∈ shape.tops.head?, c.isText = false) :
    behind run shape = Parsed.flush run shape := by
  cases shape with
  | nil => rfl
  | cons c below rest =>
      cases c with
      | text value => exact nomatch apart _ rfl
      | _ => rfl

theorem behind_nothing {within : Bool} {shape : Forest Content} (stable : Stable within shape) :
    behind "" shape = shape := by
  cases stable with
  | text nonempty _ _ _ =>
      rw [behind, String.empty_append, Option.getD_some, Parsed.flush, if_neg nonempty]
  | _ => simp only [behind, Parsed.flush, if_true]

theorem breaks_write {within : Bool} {shape : Forest Content} (stable : Stable within shape)
    (apart : ∀ c ∈ shape.tops.head?, c.isText = false) (breaks : Breaks more) :
    Breaks (write false shape ++ more) := by
  cases stable with
  | nil => exact breaks
  | text => exact nomatch apart _ rfl
  | _ =>
      rintro d ⟨⟩
      rfl

theorem forest_element (run tag : String) (attrs : List Attr) (below ts : List Parsed) :
    Parsed.forest run
        (.element tag (some htmlNamespace) (attrs.map fun a => (a.name, a.value)) below :: ts) =
      Parsed.flush run (.cons (.element tag (some htmlNamespace) attrs) (Parsed.forest "" below)
        (Parsed.forest "" ts)) := by
  rw [Parsed.forest, List.map_map]
  congr 3
  exact List.map_id' attrs

theorem parsed_element (tag : String) {attrs : List Attr} (listed : StableAttrs attrs)
    (below : List Parsed) :
    (Part.element tag .html
        (Foreign.builtAttrs .html false (attrs.map fun a => (a.name, a.value)))).parsed below =
      .element tag (some htmlNamespace) (attrs.map fun a => (a.name, a.value)) below := by
  have distinct : ((attrs.map fun a => (a.name, a.value)).map (·.1)).Nodup := by
    rw [List.map_map]
    exact listed.distinct
  have free : ∀ pair ∈ attrs.map fun a => (a.name, a.value), ':' ∉ pair.1.toList := by
    intro pair member
    obtain ⟨a, inside, rfl⟩ := List.mem_map.mp member
    exact (listed.names a inside).not_mem rfl rfl (by decide)
  rw [Part.parsed, Builder.builtAttrs_eq _ distinct free]
  rfl

theorem Nests.isTagName {within inner : Bool} {tag : String} (nests : Nests within tag inner) :
    IsTagName tag := by
  cases nests <;> exact ⟨_, _, rfl, List.all_eq_true.mp rfl⟩

theorem Stands.isTagName {within : Bool} {tag : String} (stands : Stands within tag) :
    IsTagName tag := by
  cases stands <;> exact ⟨_, _, rfl, List.all_eq_true.mp rfl⟩

theorem Verbatim.isTagName {within : Bool} {tag : String} (verbatim : Verbatim within tag) :
    IsTagName tag := by
  cases verbatim <;> exact ⟨_, _, rfl, List.all_eq_true.mp rfl⟩

theorem isRawKind_rawKindOf (tag : String) : IsRawKind (Builder.rawKindOf tag) := by
  rw [Builder.rawKindOf]
  split
  · exact Or.inl rfl
  · exact Or.inr rfl

/-- Below an element a paragraph is open only where one may be. -/
theorem Nests.free {within inner : Bool} {tag : String} (nests : Nests within tag inner) (i : Nat)
    (stack : List Open) (free : within = false → ∀ q ∈ stack, q.name ≠ "p") :
    inner = false → ∀ q ∈ ⟨i, tag, .html⟩ :: stack, q.name ≠ "p" := by
  intro outside
  rw [List.forall_mem_cons]
  cases nests with
  | division => exact ⟨ne_of_beq_false rfl, free rfl⟩
  | part => exact ⟨ne_of_beq_false rfl, free rfl⟩
  | paragraph => cases outside
  | span => exact ⟨ne_of_beq_false rfl, free outside⟩

theorem Puts.size_le {mode : Mode} {v w : View} {ts : List Parsed} (puts : Puts mode o around v ts w) :
    v.builder.arena.size ≤ w.builder.arena.size := puts.continues.gains.size_le

theorem puts_element {mode : Mode} {u v w x : View} {tag : String} {attrs : List Attr}
    {ts : List Parsed} (listed : StableAttrs attrs) (known : o.id < u.builder.arena.size)
    (opened : Leads u v)
    (made : v.builder.arena = u.builder.arena.insert o.id (.element tag .html
      (Foreign.builtAttrs .html false (attrs.map fun a => (a.name, a.value)))))
    (filled : Puts mode ⟨u.builder.arena.size, tag, .html⟩ (o :: around) v ts w)
    (closed : Leads w x) (inside : Inside x.builder .inBody o around)
    (still : x.builder.arena = w.builder.arena) :
    Puts .inBody o around u
      [.element tag (some htmlNamespace) (attrs.map fun a => (a.name, a.value)) ts] x where
  leads := (opened.trans filled.leads).trans closed
  inside := inside
  continues := by
    have below := filled.continues.gains
    rw [made] at below
    rw [still, ← parsed_element tag listed ts]
    exact continues_one known below

/-- The trees are read back wherever they stand. -/
def Rebuilds (within : Bool) (shape : Forest Content) : Prop :=
  ∀ (b : Builder) (o : Open) (around : List Open) (draft : Draft) (buffer more : List Char),
    Breaks more → Inside b .inBody o around → (within = false → ∀ q ∈ o :: around, q.name ≠ "p") →
      ∃ draft' buffer' next ts,
        Puts .inBody o around ⟨⟨.data, draft, buffer, write false shape ++ more⟩, b⟩ ts
          ⟨⟨.data, draft', buffer', more⟩, next⟩ ∧
        ∀ run, Parsed.forest run ts = behind run shape

theorem Rebuilds.beside_element {within : Bool} {below rest : Forest Content}
    (beside : Rebuilds within rest) (stable : Stable within rest) {tag : String} {attrs : List Attr}
    {us : List Parsed} (contents : Parsed.forest "" us = below) {u : View} {middle : Builder}
    (breaks : Breaks more) (free : within = false → ∀ q ∈ o :: around, q.name ≠ "p")
    (head : Puts .inBody o around u
      [.element tag (some htmlNamespace) (attrs.map fun a => (a.name, a.value)) us]
      ⟨⟨.data, draft, buffer, write false rest ++ more⟩, middle⟩) :
    ∃ draft' buffer' next ts,
      Puts .inBody o around u ts ⟨⟨.data, draft', buffer', more⟩, next⟩ ∧
      ∀ run, Parsed.forest run ts =
        behind run (.cons (.element tag (some htmlNamespace) attrs) below rest) := by
  obtain ⟨draft', buffer', next, ts, onward, same⟩ :=
    beside middle o around draft buffer more breaks head.inside free
  refine ⟨draft', buffer', next, _, head.append onward, ?_⟩
  intro run
  rw [List.singleton_append, forest_element, contents, same "", behind_nothing stable]
  rfl

theorem rebuilds_nest {within inner : Bool} {tag : String} {attrs : List Attr}
    {below rest : Forest Content} (nests : Nests within tag inner) (listed : StableAttrs attrs)
    (inside : Stable inner below) (beside : Stable within rest) (rebuilt : Rebuilds inner below)
    (after : Rebuilds within rest) :
    Rebuilds within (.cons (.element tag (some htmlNamespace) attrs) below rest) := by
  intro b o around draft buffer more breaks home free
  obtain ⟨open_, unraw⟩ := nests.plain
  have named := Nests.isTagName nests
  have markup : write false (.cons (.element tag (some htmlNamespace) attrs) below rest) ++ more =
      startMarkup tag attrs ++
        (write false below ++ (endMarkup tag ++ (write false rest ++ more))) := by
    rw [write, open_, if_neg Bool.false_ne_true, unraw]
    simp only [List.append_assoc]
  obtain ⟨entered, opens, within', made⟩ := home.turns_nests nests free
    (attrs.map fun a => (a.name, a.value))
  obtain ⟨draft', buffer', full, us, filled, contents⟩ := rebuilt entered _ _
    (tagDraft false tag.toList.reverse (attrs.map draftOf).reverse) buffer
    (endMarkup tag ++ (write false rest ++ more)) (by rintro d ⟨⟩; rfl) within'
    (Nests.free nests b.arena.size (o :: around) free)
  have known : o.id < full.arena.size := by
    have grown : entered.arena.size ≤ full.arena.size := filled.size_le
    rw [made, Arena.size_insert] at grown
    exact Nat.lt_trans home.known grown
  obtain ⟨left, closes, back, still⟩ := filled.inside.turns_end nests rfl home.space known
  have head : Puts .inBody o around ⟨⟨.data, draft, buffer, startMarkup tag attrs ++ _⟩, b⟩ _ _ :=
    puts_element listed home.known (leads_startTag named listed opens) made filled
      (leads_endTag named closes) back still
  rw [markup]
  exact after.beside_element beside ((contents "").trans (behind_nothing inside)) breaks free head

theorem rebuilds_void {within : Bool} {tag : String} {attrs : List Attr} {rest : Forest Content}
    (stands : Stands within tag) (listed : StableAttrs attrs) (beside : Stable within rest)
    (after : Rebuilds within rest) :
    Rebuilds within (.cons (.element tag (some htmlNamespace) attrs) .nil rest) := by
  intro b o around draft buffer more breaks home free
  obtain ⟨void, _⟩ := stands.void
  have markup : write false (.cons (.element tag (some htmlNamespace) attrs) .nil rest) ++ more =
      startMarkup tag attrs ++ (write false rest ++ more) := by
    rw [write, void, if_pos rfl, List.nil_append, List.append_assoc]
  obtain ⟨next, opens, still, made⟩ := home.turns_stands stands free
    (attrs.map fun a => (a.name, a.value))
  rw [markup]
  have passed : Leads ⟨⟨.data, draft, buffer, startMarkup tag attrs ++ (write false rest ++ more)⟩, b⟩
      _ := leads_startTag (Stands.isTagName stands) listed opens
  have head := puts_leaf passed home.known still made
  rw [parsed_element tag listed] at head
  have bare : Parsed.forest "" [] = .nil := by
    rw [Parsed.forest]
    rfl
  exact after.beside_element beside bare breaks free head

theorem exists_rawText {below : Forest Content} (inside : below = .nil ∨ ∃ value, value ≠ "" ∧
    StableRaw value ∧ below = .cons (.text (some value)) .nil .nil) :
    ∃ value, StableRaw value ∧ write true below = value.toList ∧
      Parsed.flush value .nil = below := by
  rcases inside with rfl | ⟨value, nonempty, stable, rfl⟩
  · have bare : ∀ c d : Char, ¬ [c, d] <:+: "".toList := by
      intro c d inner
      cases List.infix_nil.mp inner
    refine ⟨"", ⟨(fun c member => nomatch member), bare _ _, bare _ _⟩, rfl, if_pos rfl⟩
  · refine ⟨value, stable, ?_, if_neg nonempty⟩
    rw [write, write, List.append_nil]
    rfl

theorem rebuilds_verbatim {within : Bool} {tag : String} {attrs : List Attr}
    {below rest : Forest Content} (verbatim : Verbatim within tag)
    (listed : StableAttrs attrs) (inside : below = .nil ∨ ∃ value, value ≠ "" ∧ StableRaw value ∧
      below = .cons (.text (some value)) .nil .nil)
    (beside : Stable within rest) (after : Rebuilds within rest) :
    Rebuilds within (.cons (.element tag (some htmlNamespace) attrs) below rest) := by
  intro b o around draft buffer more breaks home free
  obtain ⟨open_, raw⟩ := verbatim.raw
  obtain ⟨value, stable, written, same⟩ := exists_rawText inside
  have isRaw := isRawKind_rawKindOf tag
  have tagged := Verbatim.isTagName verbatim
  have markup : write false (.cons (.element tag (some htmlNamespace) attrs) below rest) ++ more =
      startMarkup tag attrs ++
        (value.toList ++ (endMarkup tag ++ (write false rest ++ more))) := by
    rw [write, open_, if_neg Bool.false_ne_true, raw, written]
    simp only [List.append_assoc]
  obtain ⟨entered, opens, within', made⟩ := home.turns_verbatim verbatim free
    (attrs.map fun a => (a.name, a.value))
  obtain ⟨full, pieces, filled, whole⟩ := exists_puts_raw isRaw tag (write false rest ++ more)
    value.toList entered (fun c member => (stable.intact c member).1) stable.closers
    stable.comments within'
  have known : o.id < full.arena.size := by
    have grown : entered.arena.size ≤ full.arena.size := filled.size_le
    rw [made, Arena.size_insert] at grown
    exact Nat.lt_trans home.known grown
  obtain ⟨left, closes, back, still⟩ := filled.inside.turns_raw_end tag home.space known
  have opened : Leads ⟨⟨.data, draft, buffer, startMarkup tag attrs ++
      (value.toList ++ (endMarkup tag ++ (write false rest ++ more)))⟩, b⟩ _ :=
    leads_startTag tagged listed opens
  rw [Option.map_some, Option.getD_some, Builder.state_textKindOf] at opened
  have head : Puts .inBody o around ⟨⟨.data, draft, buffer, startMarkup tag attrs ++ _⟩, b⟩ _ _ :=
    puts_element listed home.known opened made filled
      (leads_rawEnd isRaw tagged closes) back still
  have contents : Parsed.forest "" (textsOf pieces) = below := by
    have texts := forest_textsOf pieces [] ""
    rw [List.append_nil, whole, String.empty_append, String.ofList_toList, Parsed.forest, same] at texts
    exact texts
  rw [markup]
  exact after.beside_element beside contents breaks free head

theorem rebuilds_text {within : Bool} {value : String} {rest : Forest Content} (intact : Intact value)
    (apart : ∀ c ∈ rest.tops.head?, c.isText = false) (beside : Stable within rest)
    (after : Rebuilds within rest) : Rebuilds within (.cons (.text (some value)) .nil rest) := by
  intro b o around draft buffer more breaks home free
  have markup : write false (.cons (.text (some value)) .nil rest) ++ more =
      escapeText value.toList ++ (write false rest ++ more) := List.append_assoc _ _ _
  obtain ⟨middle, pieces, head, whole⟩ := exists_puts_text (breaks_write beside apart breaks)
    value.toList b (fun c member => (intact c member).1) home
  obtain ⟨draft', buffer', next, ts, onward, same⟩ :=
    after middle o around draft buffer more breaks head.inside free
  rw [markup]
  refine ⟨draft', buffer', next, _, head.append onward, ?_⟩
  intro run
  rw [forest_textsOf, whole, String.ofList_toList, same, behind_of_apart _ _ apart]
  rfl

theorem rebuilds_comment {within : Bool} {data : String} {rest : Forest Content}
    (quiet : StableComment data) (beside : Stable within rest) (after : Rebuilds within rest) :
    Rebuilds within (.cons (.comment data) .nil rest) := by
  intro b o around draft buffer more breaks home free
  have markup : write false (.cons (.comment data) .nil rest) ++ more =
      commentMarkup data ++ (write false rest ++ more) := List.append_assoc _ _ _
  obtain ⟨middle, turns, still, made⟩ := home.turns_comment data
  rw [markup]
  have passed : Leads ⟨⟨.data, draft, buffer, commentMarkup data ++ (write false rest ++ more)⟩, b⟩ _ :=
    leads_comment quiet turns
  have head := puts_leaf passed home.known still made
  obtain ⟨draft', buffer', next, ts, onward, same⟩ :=
    after middle o around _ buffer more breaks still free
  refine ⟨draft', buffer', next, _, head.append onward, ?_⟩
  intro run
  rw [List.singleton_append, Part.parsed, Parsed.forest, same, behind_nothing beside]
  rfl

/-- Stable trees are read back wherever their markup stands. -/
theorem rebuilds_stable {within : Bool} {shape : Forest Content} (stable : Stable within shape) :
    Rebuilds within shape := by
  induction stable with
  | nil within =>
      intro b o around draft buffer more _ home _
      refine ⟨draft, buffer, b, [], puts_nothing home, ?_⟩
      intro run
      rw [Parsed.forest]
      rfl
  | nest nests listed inside beside ihInside ihBeside =>
      exact rebuilds_nest nests listed inside beside ihInside ihBeside
  | void stands listed beside ihBeside => exact rebuilds_void stands listed beside ihBeside
  | @raw within _ _ _ _ named listed inside beside ihBeside =>
      exact rebuilds_verbatim (verbatim_of_named named within) listed inside beside ihBeside
  | text _ intact apart beside ihBeside => exact rebuilds_text intact apart beside ihBeside
  | comment quiet beside ihBeside => exact rebuilds_comment quiet beside ihBeside

end HtmlTree.Html
