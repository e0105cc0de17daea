import HtmlTree.Proofs.Dom.Attributes
import HtmlTree.Proofs.Markup.Pieces
import HtmlTree.Proofs.Markup.Siblings
import HtmlTree.Text.Ascii

/-! Trees whose markup says all there is to say about them, and the markup that they are written as
under the standard settings. -/

namespace HtmlTree.Markup

open Text (isLower isDigit)
open Token (around told spell spellNode)

/-- A text that comes out of a file as it was put in. -/
def Intact (text : String) : Prop := ∀ c ∈ text.toList, c ≠ '\x00' ∧ c ≠ '\r'

theorem intact_of_all {text : String}
    (plain : (text.toList.all fun c => c ≠ '\x00' && c ≠ '\r') = true) : Intact text := by
  intro c member
  have here := List.all_eq_true.mp plain c member
  rwa [Bool.and_eq_true, decide_eq_true_eq, decide_eq_true_eq] at here

def IsAttrName (name : String) : Prop :=
  ∃ first rest, name.toList = first :: rest ∧ isLower first = true ∧
    ∀ c ∈ rest, isLower c = true ∨ isDigit c = true ∨ c = '-'

theorem isAttrName_of_all {name : String} {first : Char} {rest : List Char}
    (whole : name.toList = first :: rest) (small : isLower first = true)
    (others : (rest.all fun c => isLower c || isDigit c || c = '-') = true) : IsAttrName name := by
  refine ⟨first, rest, whole, small, ?_⟩
  intro c member
  have here := List.all_eq_true.mp others c member
  rwa [Bool.or_eq_true, Bool.or_eq_true, decide_eq_true_eq, or_assoc] at here

theorem IsAttrName.not_mem {name : String} (named : IsAttrName name) {c : Char}
    (letter : isLower c = false) (digit : isDigit c = false) (dash : c ≠ '-') : c ∉ name.toList := by
  obtain ⟨first, rest, whole, small, others⟩ := named
  rw [whole, List.mem_cons, not_or]
  constructor
  · rintro rfl
    rw [letter] at small
    cases small
  · intro member
    rcases others c member with small | number | same
    · rw [letter] at small
      cases small
    · rw [digit] at number
      cases number
    · exact dash same

structure StableAttrs (attrs : List Attr) : Prop where
  distinct : (attrs.map (·.name)).Nodup
  names : ∀ a ∈ attrs, IsAttrName a.name
  values : ∀ a ∈ attrs, Intact a.value

/-- Data in which nothing looks like the end of a comment. -/
structure StableComment (data : String) : Prop where
  intact : Intact data
  dashes : ¬ ['-', '-'] <:+: data.toList
  first : ¬ ['-'] <+: data.toList ∧ ¬ ['>'] <+: data.toList
  last : ¬ ['-'] <:+ data.toList

/-- Text in which nothing looks like an end tag or a comment. -/
structure StableRaw (text : String) : Prop where
  intact : Intact text
  closers : ¬ ['<', '/'] <:+: text.toList
  comments : ¬ ['<', '!'] <:+: text.toList

/-- Elements that hold others, by whether they stand below a paragraph and their contents do. -/
inductive Nests : Bool → String → Bool → Prop
  | division : Nests false "div" false
  | part : Nests false "section" false
  | paragraph : Nests false "p" true
  | span (within : Bool) : Nests within "span" within

/-- Elements that hold nothing, by whether they stand below a paragraph. -/
inductive Stands : Bool → String → Prop
  | line (within : Bool) : Stands within "br"
  | image (within : Bool) : Stands within "img"
  | rule : Stands false "hr"

/-- Elements whose text is read as it stands, by whether they stand below a paragraph. -/
inductive Verbatim : Bool → String → Prop
  | script (within : Bool) : Verbatim within "script"
  | style (within : Bool) : Verbatim within "style"
  | frame (within : Bool) : Verbatim within "iframe"
  | noEmbed (within : Bool) : Verbatim within "noembed"
  | noFrames (within : Bool) : Verbatim within "noframes"
  | sample : Verbatim false "xmp"

/-- Trees that stand below a paragraph or not and are read as they are written. -/
inductive Stable : Bool → Forest Content → Prop
  | nil (within : Bool) : Stable within .nil
  | nest {within inner : Bool} {tag : String} {attrs : List Attr} {below rest : Forest Content}
      (nests : Nests within tag inner) (listed : StableAttrs attrs) (inside : Stable inner below)
      (beside : Stable within rest) :
      Stable within (.cons (.element tag (some htmlNamespace) attrs) below rest)
  | void {within : Bool} {tag : String} {attrs : List Attr} {rest : Forest Content}
      (stands : Stands within tag) (listed : StableAttrs attrs) (beside : Stable within rest) :
      Stable within (.cons (.element tag (some htmlNamespace) attrs) .nil rest)
  | raw {within : Bool} {tag : String} {attrs : List Attr} {below rest : Forest Content}
      (named : tag = "script" ∨ tag = "style") (listed : StableAttrs attrs)
      (inside : below = .nil ∨ ∃ value, value ≠ "" ∧ StableRaw value ∧
        below = .cons (.text (some value)) .nil .nil)
      (beside : Stable within rest) :
      Stable within (.cons (.element tag (some htmlNamespace) attrs) below rest)
  | text {within : Bool} {value : String} {rest : Forest Content} (nonempty : value ≠ "")
      (intact : Intact value) (apart : ∀ c ∈ rest.tops.head?, c.isText = false)
      (beside : Stable within rest) : Stable within (.cons (.text (some value)) .nil rest)
  | comment {within : Bool} {data : String} {rest : Forest Content} (quiet : StableComment data)
      (beside : Stable within rest) : Stable within (.cons (.comment data) .nil rest)

def valueChar (c : Char) : List Char :=
  if c = '&' then ['&', 'a', 'm', 'p', ';']
  else if c = '"' then ['&', 'q', 'u', 'o', 't', ';']
  else [c]

def writeValue (value : String) : List Char := value.toList.flatMap valueChar

def writeAttrs : List Attr → List Char
  | [] => []
  | a :: attrs => ' ' :: (a.name.toList ++ '=' :: '"' :: (writeValue a.value ++ '"' :: writeAttrs attrs))

def startMarkup (tag : String) (attrs : List Attr) : List Char :=
  '<' :: (tag.toList ++ (writeAttrs attrs ++ ['>']))

def endMarkup (tag : String) : List Char := '<' :: '/' :: (tag.toList ++ ['>'])

def commentMarkup (data : String) : List Char :=
  '<' :: '!' :: '-' :: '-' :: (data.toList ++ ['-', '-', '>'])

def writeText (raw : Bool) (value : String) : List Char :=
  if raw then value.toList else escapeText value.toList

def write (raw : Bool) : Forest Content → List Char
  | .nil => []
  | .cons (.element tag _ attrs) below rest =>
    startMarkup tag attrs ++ ((if Tag.isVoid tag then [] else
      write (Tag.isRawText tag) below ++ endMarkup tag) ++ write raw rest)
  | .cons (.text value) _ rest => writeText raw (value.getD "") ++ write raw rest
  | .cons (.comment data) _ rest => commentMarkup data ++ write raw rest
  | .cons _ _ rest => write raw rest

theorem Intact.no_return {text : String} (intact : Intact text) : '\r' ∉ text.toList :=
  fun member => (intact '\r' member).2 rfl

theorem no_return_flatMap {written : Char → List Char} {text : List Char}
    (itself : ∀ c, '\r' ∈ written c → c = '\r') (free : '\r' ∉ text) :
    '\r' ∉ text.flatMap written := by
  rw [List.mem_flatMap]
  rintro ⟨c, member, inside⟩
  exact free (itself c inside ▸ member)

theorem no_return_escapeText {text : List Char} (free : '\r' ∉ text) : '\r' ∉ escapeText text := by
  apply no_return_flatMap _ free
  intro c inside
  unfold escapeChar at inside
  split_ifs at inside <;> simp at inside
  exact inside.symm

theorem no_return_writeValue {value : String} (intact : Intact value) : '\r' ∉ writeValue value := by
  apply no_return_flatMap _ intact.no_return
  intro c inside
  unfold valueChar at inside
  split_ifs at inside <;> simp at inside
  exact inside.symm

theorem no_return_writeAttrs (attrs : List Attr) (names : ∀ a ∈ attrs, IsAttrName a.name)
    (values : ∀ a ∈ attrs, Intact a.value) : '\r' ∉ writeAttrs attrs := by
  induction attrs with
  | nil => exact List.not_mem_nil
  | cons a attrs ih =>
      rw [List.forall_mem_cons] at names values
      have name : '\r' ∉ a.name.toList := names.1.not_mem rfl rfl (by decide)
      simp [writeAttrs, name, no_return_writeValue values.1, ih names.2 values.2]

theorem no_return_startMarkup {tag : String} {attrs : List Attr} (free : '\r' ∉ tag.toList)
    (listed : StableAttrs attrs) : '\r' ∉ startMarkup tag attrs := by
  simp [startMarkup, free, no_return_writeAttrs attrs listed.names listed.values]

theorem no_return_endMarkup {tag : String} (free : '\r' ∉ tag.toList) : '\r' ∉ endMarkup tag := by
  simp [endMarkup, free]

theorem Nests.plain {within inner : Bool} {tag : String} (nests : Nests within tag inner) :
    Tag.isVoid tag = false ∧ Tag.isRawText tag = false := by
  cases nests <;> exact ⟨rfl, rfl⟩

theorem Stands.void {within : Bool} {tag : String} (stands : Stands within tag) :
    Tag.isVoid tag = true ∧ Tag.isRawText tag = false := by
  cases stands <;> exact ⟨rfl, rfl⟩

theorem verbatim_of_named {tag : String} (named : tag = "script" ∨ tag = "style") (within : Bool) :
    Verbatim within tag := by
  rcases named with rfl | rfl
  · exact .script within
  · exact .style within

theorem Verbatim.raw {within : Bool} {tag : String} (verbatim : Verbatim within tag) :
    Tag.isVoid tag = false ∧ Tag.isRawText tag = true := by
  cases verbatim <;> exact ⟨rfl, rfl⟩

theorem Nests.no_return {within inner : Bool} {tag : String} (nests : Nests within tag inner) :
    '\r' ∉ tag.toList := by
  cases nests <;> decide

theorem Stands.no_return {within : Bool} {tag : String} (stands : Stands within tag) :
    '\r' ∉ tag.toList := by
  cases stands <;> decide

theorem Verbatim.no_return {within : Bool} {tag : String} (verbatim : Verbatim within tag) :
    '\r' ∉ tag.toList := by
  cases verbatim <;> decide

/-- There is nothing in the markup that is read as a line feed but line feeds. -/
theorem Stable.no_return {within : Bool} {shape : Forest Content} (stable : Stable within shape) :
    '\r' ∉ write false shape := by
  induction stable with
  | nil within => exact List.not_mem_nil
  | @nest _ _ tag _ _ _ nests listed _ _ ihInside ihBeside =>
      have start := no_return_startMarkup nests.no_return listed
      have close := no_return_endMarkup nests.no_return
      simp [write, nests.plain, start, close, ihInside, ihBeside]
  | void stands listed _ ihBeside =>
      have start := no_return_startMarkup stands.no_return listed
      simp [write, stands.void, start, ihBeside]
  | @raw within _ _ _ _ named listed inside _ ihBeside =>
      have verbatim := verbatim_of_named named within
      have start := no_return_startMarkup verbatim.no_return listed
      have close := no_return_endMarkup verbatim.no_return
      rcases inside with rfl | ⟨value, _, stable, rfl⟩
      · simp [write, verbatim.raw, start, close, ihBeside]
      · simp [write, writeText, verbatim.raw, start, close, stable.intact.no_return, ihBeside]
  | text _ intact _ _ ihBeside =>
      simp [write, writeText, no_return_escapeText intact.no_return, ihBeside]
  | comment quiet _ ihBeside =>
      simp [write, commentMarkup, quiet.intact.no_return, ihBeside]

theorem Stable.alien_not_mem {within : Bool} {shape : Forest Content} (stable : Stable within shape)
    (name : String) : .alien name ∉ shape.labels := by
  induction stable with
  | nil => exact List.not_mem_nil
  | nest _ _ _ _ ihInside ihBeside => simp [Forest.labels, ihInside, ihBeside]
  | raw _ _ inside _ ihBeside =>
      rcases inside with rfl | ⟨value, _, _, rfl⟩
      · simp [Forest.labels, ihBeside]
      · simp [Forest.labels, ihBeside]
  | _ => simp [Forest.labels, *]

theorem valueChars (value : List Char) :
    replaceChar '"' ['&', 'q', 'u', 'o', 't', ';'] (replaceChar '&' ['&', 'a', 'm', 'p', ';'] value) =
      value.flatMap valueChar := by
  rw [replaceChar, replaceChar, List.flatMap_assoc]
  apply List.flatMap_congr
  intro c _
  unfold valueChar
  split
  · rfl
  · rw [List.flatMap_singleton]

theorem renderValue_standard (value : String) :
    renderValue .standard value.toList = .ok ('"' :: (writeValue value ++ ['"'])) := by
  change Except.ok (quoteValue _ _) = _
  change Except.ok ('"' :: (replaceChar '"' _ (replaceChar '&' _ value.toList) ++ ['"'])) = _
  rw [valueChars, writeValue]

theorem renderAttrs_standard (tag : String) (attrs : List Attr) :
    renderAttrs .standard tag (attrs.map fun a => (a.name, a.value)) = .ok (writeAttrs attrs) := by
  induction attrs with
  | nil => rfl
  | cons a attrs ih =>
      have first : renderAttr .standard tag (a.name, a.value) =
          .ok (' ' :: (a.name.toList ++ '=' :: '"' :: (writeValue a.value ++ ['"']))) := by
        rw [renderAttr, renderValue_standard]
        rfl
      rw [List.map_cons, renderAttrs, first, ih, writeAttrs]
      change Except.ok _ = _
      simp only [List.cons_append, List.append_assoc, List.nil_append]

/-- The tokens are written as this text, whatever stands around them. -/
def Writes (raw : Bool) (ts : List Token) (next : Bool) (text : List Char) : Prop :=
  ∀ after previous, ∃ problems,
    writeTokens .standard after raw previous ts = .ok (⟨text, problems⟩, next)

theorem writes_nil (raw : Bool) : Writes raw [] raw [] := fun _ _ => ⟨[], rfl⟩

theorem writes_one {raw next : Bool} {t : Token} {text : List Char} {problems : List String}
    (rendered : renderToken .standard raw t = .ok (⟨text, problems⟩, next)) :
    Writes raw [t] next text := by
  intro after previous
  refine ⟨problems, ?_⟩
  rw [writeTokens_cons, leftOut, rendered]
  change Except.ok (Rendered.append ⟨text, problems⟩ .none, next) = _
  rw [Rendered.append_none]

theorem Writes.append {raw middle next : Bool} {left right : List Token} {text more : List Char}
    (first : Writes raw left middle text) (second : Writes middle right next more) :
    Writes raw (left ++ right) next (text ++ more) := by
  intro after previous
  obtain ⟨problems, here⟩ := first (right ++ after) previous
  obtain ⟨others, there⟩ := second after (left.getLast?.or previous)
  refine ⟨problems ++ others, ?_⟩
  rw [writeTokens_append, here]
  simp only [Except.bind]
  rw [there]
  rfl

theorem writes_ofText (raw : Bool) (text : String) :
    Writes raw (Token.ofText text) raw (writeText raw text) := by
  intro after previous
  obtain ⟨problems, written⟩ := writeTokens_ofText .standard after raw previous text
  have same : (Token.ofText text).map (ordered .standard) = Token.ofText text := List.map_id' _
  rw [same] at written
  exact ⟨problems, written⟩

theorem renderTag_standard (raw : Bool) (tag : String) (attrs : List Attr) :
    renderTag .standard raw tag (attrs.map fun a => (a.name, a.value)) =
      .ok (⟨startMarkup tag attrs, if !Tag.isRawText tag && raw then [childInRaw] else []⟩,
        Tag.isRawText tag || raw) := by
  have opens : (Tag.isRawText tag && !Style.standard.escapeRaw) = Tag.isRawText tag :=
    Bool.and_true _
  have plain : solidus .standard tag = [] := if_neg (by
    rw [Style.standard, Bool.and_false]
    exact Bool.false_ne_true)
  have shape : '<' :: tag.toList ++ writeAttrs attrs ++ [] ++ ['>'] = startMarkup tag attrs := by
    rw [startMarkup, List.append_nil, List.append_assoc, List.cons_append]
  rw [renderTag, renderAttrs_standard, opens, plain, ← shape]
  rfl

theorem writes_startTag (raw : Bool) (tag : String) (space : Option String) {attrs : List Attr}
    (distinct : (attrs.map (·.name)).Nodup) :
    Writes raw [.startTag tag space (Attr.toPairs attrs)] (Tag.isRawText tag || raw)
      (startMarkup tag attrs) := by
  have rendered := renderTag_standard raw tag attrs
  rw [← Attr.toPairs_of_nodup attrs distinct] at rendered
  exact writes_one rendered

theorem writes_emptyTag (raw : Bool) (tag : String) (space : Option String) {attrs : List Attr}
    (distinct : (attrs.map (·.name)).Nodup) :
    Writes raw [.emptyTag tag space (Attr.toPairs attrs)] (Tag.isRawText tag || raw)
      (startMarkup tag attrs) := by
  have rendered := renderTag_standard raw tag attrs
  rw [← Attr.toPairs_of_nodup attrs distinct] at rendered
  exact writes_one rendered

theorem writes_endTag (raw : Bool) (tag : String) (space : Option String) :
    Writes raw [.endTag tag space] (raw && !Tag.isRawText tag) (endMarkup tag) := writes_one rfl

theorem writes_comment (raw : Bool) (data : String) :
    Writes raw [.comment data] raw (commentMarkup data) := by
  apply writes_one
  rw [renderToken]
  congr 3

theorem writes_element (tag : String) (space : Option String) {attrs : List Attr} {ts : List Token}
    {text : List Char} (distinct : (attrs.map (·.name)).Nodup)
    (inside : Writes (Tag.isRawText tag) ts (Tag.isRawText tag) text) :
    Writes false (.startTag tag space (Attr.toPairs attrs) :: (ts ++ [Token.endTag tag space])) false
      (startMarkup tag attrs ++ (text ++ endMarkup tag)) := by
  have opened := writes_startTag false tag space distinct
  have closed := writes_endTag (Tag.isRawText tag) tag space
  rw [Bool.or_false] at opened
  rw [Bool.and_not_self] at closed
  exact opened.append (inside.append closed)

theorem Writes.beside {c : Content × Bool} {below rest : Forest (Content × Bool)}
    {text more : List Char} (first : Writes false (spellNode true false c below) false text)
    (later : Writes false (spell true false rest) false more) :
    Writes false (spell true false (.cons c below rest)) false (text ++ more) := by
  rw [Token.spell_cons, rawAfter_spellNode]
  exact first.append later

theorem Writes.node {c : Content × Bool} {below : Forest (Content × Bool)} {tag : String}
    {attrs : List Attr} {text : List Char} (content : c.1 = .element tag (some htmlNamespace) attrs)
    (open_ : Tag.isVoid tag = false) (listed : StableAttrs attrs)
    (inside : Writes (Tag.isRawText tag) (spell true (Tag.isRawText tag) below)
      (Tag.isRawText tag) text) :
    Writes false (spellNode true false c below) false
      (startMarkup tag attrs ++ (text ++ endMarkup tag)) := by
  have plain : isVoidElement tag (some htmlNamespace) = false := by
    rw [isVoidElement, open_, Bool.and_false]
  rw [Token.spellNode_element true false content plain, Bool.false_or]
  exact writes_element tag (some htmlNamespace) listed.distinct inside

theorem writes_inRaw (s : Store) (i : NodeId) {tag : String} {attrs : List Attr}
    (content : s.content i = .element tag (some htmlNamespace) attrs)
    (raw : Tag.isRawText tag = true) (below : Forest NodeId) (linked : s.LinkedTo (some i) below)
    (inside : below.map s.content = .nil ∨ ∃ value, value ≠ "" ∧ StableRaw value ∧
      below.map s.content = .cons (.text (some value)) .nil .nil) :
    Writes true (spell true true (s.marked (some i) below)) true
      (write true (below.map s.content)) := by
  rcases inside with same | ⟨value, _, _, same⟩
  · rw [same]
    cases below with
    | nil => exact writes_nil true
    | cons j deeper beside => cases same
  · rw [same]
    obtain ⟨j, deeper, beside, rfl, text, _, last⟩ := Forest.map_eq_cons same
    have kept : s.isKeptRaw (some i) j = true := by
      simp [Store.isKeptRaw_eq, Store.isText, text, Content.isText, content, Content.isRawText, raw,
        linked.1]
    cases beside with
    | nil =>
        simp only [Store.marked, Token.spell_cons, spellNode, told, kept, text, Bool.not_true,
          Bool.and_false, Bool.false_eq_true, if_false, around, Option.getD_some, spell, write,
          List.append_nil]
        exact writes_ofText true value
    | cons k deeper beside => cases last

theorem Verbatim.writes {within : Bool} {tag : String} (verbatim : Verbatim within tag)
    (s : Store) (i : NodeId) {attrs : List Attr}
    (content : s.content i = .element tag (some htmlNamespace) attrs) (listed : StableAttrs attrs)
    (below : Forest NodeId) (linked : s.LinkedTo (some i) below)
    (inside : below.map s.content = .nil ∨ ∃ value, value ≠ "" ∧ StableRaw value ∧
      below.map s.content = .cons (.text (some value)) .nil .nil) (kept : Bool) :
    Writes false (spellNode true false (s.content i, kept) (s.marked (some i) below)) false
      (startMarkup tag attrs ++
        (write (Tag.isRawText tag) (below.map s.content) ++ endMarkup tag)) := by
  obtain ⟨open_, raw⟩ := verbatim.raw
  apply Writes.node content open_ listed
  rw [raw]
  exact writes_inRaw s i content raw below linked inside

theorem Stable.writes {within : Bool} {shape : Forest Content} (stable : Stable within shape)
    (s : Store) : ∀ (f : Forest NodeId) (container : NodeId), f.map s.content = shape →
      s.LinkedTo (some container) f →
      Writes false (spell true false (s.marked (some container) f)) false (write false shape) := by
  -- After each node no raw text is open, so what stands beside it is written as if it came first.
  induction stable with
  | nil within =>
      intro f container same _
      cases f with
      | nil => exact writes_nil false
      | cons i below rest => cases same
  | @nest within inner tag attrs _ _ nests listed _ _ ihInside ihBeside =>
      intro f container same linked
      obtain ⟨i, below, rest, rfl, content, belowSame, restSame⟩ := Forest.map_eq_cons same
      obtain ⟨open_, unraw⟩ := nests.plain
      have inside := ihInside below i belowSame linked.2.1
      rw [← unraw] at inside
      have whole := (Writes.node (c := (s.content i, s.isKeptRaw (some container) i)) content open_
        listed inside).beside (ihBeside rest container restSame linked.2.2)
      rw [List.append_assoc] at whole
      rwa [write, open_, if_neg Bool.false_ne_true]
  | @void within tag attrs _ stands listed _ ihBeside =>
      intro f container same linked
      obtain ⟨i, below, rest, rfl, content, belowSame, restSame⟩ := Forest.map_eq_cons same
      obtain ⟨void, unraw⟩ := stands.void
      have voidTag : isVoidElement tag (some htmlNamespace) = true := by
        rw [isVoidElement, void]
        rfl
      have first := writes_emptyTag false tag (some htmlNamespace) listed.distinct
      rw [unraw, Bool.false_or] at first
      rw [write, void, if_pos rfl]
      cases below with
      | nil =>
          apply Writes.beside _ (ihBeside rest container restSame linked.2.2)
          simpa [Store.marked, spellNode, told, content, around, voidTag, Forest.map] using first
      | cons j deeper beside => cases belowSame
  | @raw within tag attrs shapeBelow _ named listed inside _ ihBeside =>
      intro f container same linked
      obtain ⟨i, below, rest, rfl, content, belowSame, restSame⟩ := Forest.map_eq_cons same
      have verbatim := verbatim_of_named named within
      rw [← belowSame] at inside
      have whole := (verbatim.writes s i content listed below linked.2.1 inside
        (s.isKeptRaw (some container) i)).beside (ihBeside rest container restSame linked.2.2)
      rw [List.append_assoc, belowSame] at whole
      rwa [write, verbatim.raw.1, if_neg Bool.false_ne_true]
  | @text within value _ nonempty intact apart _ ihBeside =>
      intro f container same linked
      obtain ⟨i, below, rest, rfl, content, _, restSame⟩ := Forest.map_eq_cons same
      rw [write]
      apply Writes.beside _ (ihBeside rest container restSame linked.2.2)
      rw [content]
      exact writes_ofText false value
  | @comment within data _ quiet _ ihBeside =>
      intro f container same linked
      obtain ⟨i, below, rest, rfl, content, _, restSame⟩ := Forest.map_eq_cons same
      rw [write]
      apply Writes.beside _ (ihBeside rest container restSame linked.2.2)
      rw [content]
      exact writes_comment false data

theorem stringify_of_writes (s : Store) (root : NodeId) (f : Forest NodeId)
    (fragment : s.content root = .fragment) (tops : s.children root = f.tops)
    (unfolded : s.Unfolds f) {text : List Char}
    (writes : Writes false (spell true false (s.marked (some root) f)) false text) :
    stringify .standard s root = .ok (String.ofList text) := by
  have found : tokens s root true = spell true false (s.marked (some root) f) := by
    rw [tokens_eq_spell s true root f tops unfolded, Store.markedShown, Store.isContainer, fragment]
    rfl
  obtain ⟨problems, written⟩ := writes [] none
  have rendered : render .standard s root = .ok ⟨text, problems⟩ := by
    have filtered : render .standard s root = renderTokens .standard false (tokens s root true) := rfl
    have plain := renderTokens_dropImplied .standard (tokens s root true) false none
    rw [found] at filtered plain
    rw [written] at plain
    rw [filtered]
    exact plain
  rw [stringify, serialize_of_accepted Style.ofSettings_standard, rendered]
  rfl

/-- A fragment that holds stable trees, properly linked, is written as their markup. -/
theorem stringify_stable (s : Store) (root : NodeId) (f : Forest NodeId)
    (fragment : s.content root = .fragment) (tops : s.children root = f.tops)
    (unfolded : s.Unfolds f) (linked : s.LinkedTo (some root) f)
    (stable : Stable false (f.map s.content)) :
    stringify .standard s root = .ok (String.ofList (write false (f.map s.content))) :=
  stringify_of_writes s root f fragment tops unfolded (stable.writes s f root rfl linked)

end HtmlTree.Markup
