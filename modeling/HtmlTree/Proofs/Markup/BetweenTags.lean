import HtmlTree.Parse
import HtmlTree.Proofs.Dom.Attributes
import HtmlTree.Proofs.Markup.Siblings
import HtmlTree.Proofs.Markup.Stable

/-! What an element holds, written from the element and written between its tags. Raw text is open
between the tags of a raw text element, but not at the start of a walk, so the two differ by the texts
that stand as they are in the one and are escaped in the other. -/

namespace HtmlTree

namespace Markup

open Token (spell spellNode)
open Walk (rawAfter rawStep)

def tokenText (raw : Bool) : Token → List Char
  | .startTag name _ attrs | .emptyTag name _ attrs => startMarkup name (Attr.ofPairs attrs)
  | .endTag name _ => endMarkup name
  | .comment data => commentMarkup data
  | .doctype name publicId systemId => (renderDoctype name publicId systemId).text
  | t => pieceText raw t

def tokensText : Bool → List Token → List Char
  | _, [] => []
  | raw, t :: ts => tokenText raw t ++ tokensText (rawStep raw t) ts

theorem tokensText_append (left right : List Token) : ∀ raw,
    tokensText raw (left ++ right) = tokensText raw left ++ tokensText (rawAfter raw left) right := by
  induction left with
  | nil => exact fun _ => rfl
  | cons t left ih =>
      intro raw
      rw [List.cons_append, tokensText, tokensText, ih, List.append_assoc]
      rfl

theorem tokensText_element (raw : Bool) (tag : String) (space : Option String) (attrs : List Attr)
    (inside : List Token) :
    tokensText raw (.startTag tag space (Attr.toPairs attrs) :: (inside ++ [Token.endTag tag space])) =
      startMarkup tag (Attr.collapse attrs) ++
        (tokensText (raw || Tag.isRawText tag) inside ++ endMarkup tag) := by
  have start : tokenText raw (.startTag tag space (Attr.toPairs attrs)) =
      startMarkup tag (Attr.collapse attrs) := by
    rw [← Attr.ofPairs_toPairs]
    rfl
  have close : ∀ open_, tokensText open_ [.endTag tag space] = endMarkup tag :=
    fun _ => List.append_nil _
  rw [tokensText, start, tokensText_append, close]
  rfl

theorem renderToken_standard (raw : Bool) (t : Token)
    (void : ∀ name space attrs, t = .emptyTag name space attrs → Tag.isVoid name = true) :
    ∃ problems, renderToken .standard raw t = .ok (⟨tokenText raw t, problems⟩, rawStep raw t) := by
  cases t with
  | startTag name space attrs =>
      have rendered := renderTag_standard raw name (Attr.ofPairs attrs)
      rw [Attr.pairs_ofPairs, Bool.or_comm] at rendered
      exact ⟨_, rendered⟩
  | emptyTag name space attrs =>
      have rendered := renderTag_standard raw name (Attr.ofPairs attrs)
      rw [Attr.pairs_ofPairs, isRawText_of_isVoid name (void name space attrs rfl), Bool.false_or]
        at rendered
      exact ⟨_, rendered⟩
  | comment data => exact ⟨_, rfl⟩
  | characters text => cases raw <;> exact ⟨_, rfl⟩
  | spaces text => cases raw <;> exact ⟨_, rfl⟩
  | _ => exact ⟨_, rfl⟩

theorem renderTokens_standard (ts : List Token)
    (void : ∀ name space attrs, .emptyTag name space attrs ∈ ts → Tag.isVoid name = true) :
    ∀ raw, ∃ problems, renderTokens .standard raw ts = .ok ⟨tokensText raw ts, problems⟩ := by
  induction ts with
  | nil => exact fun _ => ⟨[], rfl⟩
  | cons t ts ih =>
      intro raw
      obtain ⟨problems, first⟩ := renderToken_standard raw t fun name space attrs same =>
        void name space attrs (same ▸ List.mem_cons_self)
      obtain ⟨others, rest⟩ := ih (fun name space attrs member =>
        void name space attrs (List.mem_cons_of_mem t member)) (rawStep raw t)
      refine ⟨problems ++ others, ?_⟩
      rw [renderTokens_cons, first]
      simp only [Except.bind]
      rw [rest]
      rfl

theorem tokensText_ofText (raw : Bool) (text : String) :
    tokensText raw (Token.ofText text) = if raw then text.toList else escapeText text.toList := by
  rw [← flatMap_pieceText_ofText]
  have pieces := Walk.isPiece_of_mem_ofText text
  generalize Token.ofText text = ts at pieces
  induction ts with
  | nil => rfl
  | cons t ts ih =>
      obtain ⟨here, others⟩ := List.forall_mem_cons.mp pieces
      have one : tokenText raw t = pieceText raw t ∧ rawStep raw t = raw := by
        cases t <;> first | exact ⟨rfl, rfl⟩ | cases here
      rw [tokensText, List.flatMap_cons, one.1, one.2, ih others]

theorem stringify_standard (s : Store) (root : NodeId) (acyclic : s.Acyclic root) :
    stringify .standard s root = .ok (String.ofList (tokensText false (tokens s root true))) := by
  obtain ⟨visits, after, runs, found, _⟩ := Walk.exists_walk s root true acyclic
  obtain ⟨problems, written⟩ := renderTokens_standard (tokens s root true)
    (found ▸ runs.void_of_emptyTag) false
  rw [stringify, serialize_of_accepted Style.ofSettings_standard]
  change (renderTokens .standard false (tokens s root true)).map _ = _
  rw [written]
  rfl

/-- The second text is no shorter than the first, and is the first in just one case. -/
structure Lengthens (short long : List Char) (same : Prop) : Prop where
  length_le : short.length ≤ long.length
  eq_iff : short = long ↔ same

namespace Lengthens

variable {short long short' long' : List Char} {same same' : Prop}

theorem refl (text : List Char) : Lengthens text text True := ⟨Nat.le_refl _, by simp⟩

theorem append (first : Lengthens short long same) (second : Lengthens short' long' same') :
    Lengthens (short ++ short') (long ++ long') (same ∧ same') where
  length_le := by
    rw [List.length_append, List.length_append]
    exact Nat.add_le_add first.length_le second.length_le
  eq_iff := by
    rw [← first.eq_iff, ← second.eq_iff]
    constructor
    · intro whole
      have lengths := congrArg List.length whole
      rw [List.length_append, List.length_append] at lengths
      have here := first.length_le
      have there := second.length_le
      exact List.append_inj whole (by omega)
    · rintro ⟨rfl, rfl⟩
      rfl

theorem congr (lengthens : Lengthens short long same) (iff : same ↔ same') :
    Lengthens short long same' := ⟨lengthens.length_le, lengthens.eq_iff.trans iff⟩

end Lengthens

theorem lengthens_escapeText (text : List Char) :
    Lengthens text (escapeText text) (escapeText text = text) where
  length_le := by
    induction text with
    | nil => exact Nat.le_refl 0
    | cons c text ih =>
        have one : 1 ≤ (escapeChar c).length := by
          unfold escapeChar
          split_ifs <;> simp
        change _ ≤ (escapeChar c ++ escapeText text).length
        rw [List.length_cons, List.length_append]
        omega
  eq_iff := eq_comm

/-- Tokens written where raw text is open, and tokens written where it is not: how their texts compare,
and whether raw text is still open after the first. -/
structure RawContrast (opened closed : List Token) (same : Prop) (still : Bool) : Prop where
  text : Lengthens (tokensText true opened) (tokensText false closed) same
  flag : rawAfter true opened = still
  shut : rawAfter false closed = false

namespace RawContrast

variable {opened closed opened' closed' after : List Token} {same same' : Prop} {still : Bool}

theorem nil : RawContrast [] [] True true := ⟨.refl _, rfl, rfl⟩

theorem append (first : RawContrast opened closed same true)
    (second : RawContrast opened' closed' same' still) :
    RawContrast (opened ++ opened') (closed ++ closed') (same ∧ same') still where
  text := by
    rw [tokensText_append, tokensText_append, first.flag, first.shut]
    exact first.text.append second.text
  flag := by rw [Walk.rawAfter_append, first.flag, second.flag]
  shut := by rw [Walk.rawAfter_append, first.shut, second.shut]

theorem append_same (first : RawContrast opened closed same false)
    (settled : rawAfter false after = false) :
    RawContrast (opened ++ after) (closed ++ after) same false where
  text := by
    rw [tokensText_append, tokensText_append, first.flag, first.shut]
    exact (first.text.append (.refl _)).congr (and_iff_left trivial)
  flag := by rw [Walk.rawAfter_append, first.flag, settled]
  shut := by rw [Walk.rawAfter_append, first.shut, settled]

theorem congr (contrast : RawContrast opened closed same still) (iff : same ↔ same') :
    RawContrast opened closed same' still := ⟨contrast.text.congr iff, contrast.flag, contrast.shut⟩

end RawContrast

theorem rawContrast_text (kept : Bool) (value : Option String) (below : Forest (Content × Bool)) :
    RawContrast (spellNode true true (.text value, kept) below)
      (spellNode true false (.text value, kept) below)
      (kept = true → escapeText (value.getD "").toList = (value.getD "").toList) true := by
  have closed : spellNode true false (.text value, kept) below = Token.ofText (value.getD "") := rfl
  rw [closed]
  cases kept with
  | true =>
      have opened : spellNode true true (.text value, true) below = Token.ofText (value.getD "") := rfl
      rw [opened]
      refine ⟨?_, rawAfter_ofText true _, rawAfter_ofText false _⟩
      rw [tokensText_ofText, tokensText_ofText]
      exact (lengthens_escapeText _).congr ⟨fun inert _ => inert, fun inert => inert rfl⟩
  | false =>
      have opened : spellNode true true (.text value, false) below =
          Token.ofText (escapeString (value.getD "")) := rfl
      rw [opened]
      refine ⟨?_, rawAfter_ofText true _, rawAfter_ofText false _⟩
      rw [tokensText_ofText, tokensText_ofText, if_pos rfl, toList_escapeString]
      exact (Lengthens.refl _).congr (iff_of_true trivial fun marked => (Bool.false_ne_true marked).elim)

/-- What is neither a text nor gone into is written the same in raw text. -/
theorem rawContrast_closed {c : Content} (closed : c.isOpen = false) (other : c.isText = false)
    (kept : Bool) (below : Forest (Content × Bool)) :
    RawContrast (spellNode true true (c, kept) below) (spellNode true false (c, kept) below) True
      true := by
  cases c with
  | element tag space attrs =>
      have void : isVoidElement tag space = true := by simpa [Content.isOpen] using closed
      have tokens : ∀ raw, spellNode true raw (.element tag space attrs, kept) below =
          .emptyTag tag space (Attr.toPairs attrs) ::
            (if below.map (·.1) = .nil then [] else [.problem "Void element has children"]) := by
        intro raw
        rw [spellNode, Token.told]
        change Token.around (if _ then .element tag space attrs else .element tag space attrs) _ _ = _
        rw [ite_self, Token.around, void, if_pos rfl]
      rw [tokens, tokens]
      split <;> exact ⟨.refl _, rfl, rfl⟩
  | text value => cases other
  | document => cases closed
  | fragment => cases closed
  | _ => cases kept <;> exact ⟨.refl _, rfl, rfl⟩

theorem rawContrast_element {tag : String} (plain : Tag.isRawText tag = false) (space : Option String)
    (attrs : Pairs) {opened closed : List Token} {same : Prop} {still : Bool}
    (inside : RawContrast opened closed same still) :
    RawContrast (.startTag tag space attrs :: (opened ++ [Token.endTag tag space]))
      (.startTag tag space attrs :: (closed ++ [Token.endTag tag space])) same still := by
  have start : RawContrast [.startTag tag space attrs] [.startTag tag space attrs] True true :=
    ⟨.refl _, rfl, plain⟩
  have close : ∀ raw, rawAfter raw [Token.endTag tag space] = raw := by
    intro raw
    change (raw && !Tag.isRawText tag) = raw
    rw [plain, Bool.not_false, Bool.and_true]
  have whole : RawContrast (opened ++ [Token.endTag tag space]) (closed ++ [Token.endTag tag space]) same
      still := by
    cases still with
    | false => exact inside.append_same (close false)
    | true =>
        have stop : RawContrast [Token.endTag tag space] [Token.endTag tag space] True true :=
          ⟨.refl _, close true, close false⟩
        exact (inside.append stop).congr (and_iff_left trivial)
  exact (start.append whole).congr (and_iff_right trivial)

theorem rawContrast_raw {tag : String} (raw : Tag.isRawText tag = true) (space : Option String)
    (attrs : Pairs) (inside : List Token) :
    RawContrast (.startTag tag space attrs :: (inside ++ [Token.endTag tag space]))
      (.startTag tag space attrs :: (inside ++ [Token.endTag tag space])) True false := by
  have shut : ∀ before, rawAfter before (inside ++ [Token.endTag tag space]) = false := by
    intro before
    rw [Walk.rawAfter_append]
    change (_ && !Tag.isRawText tag) = false
    rw [raw, Bool.not_true, Bool.and_false]
  have opens : rawStep true (.startTag tag space attrs) = rawStep false (.startTag tag space attrs) := by
    change (true || Tag.isRawText tag) = (false || Tag.isRawText tag)
    rw [raw]
    rfl
  refine ⟨?_, shut _, shut _⟩
  rw [tokensText, tokensText, opens]
  exact .refl _

end Markup

namespace Store

open Markup (RawContrast rawContrast_closed rawContrast_element rawContrast_raw rawContrast_text
  escapeText tokensText isVoidElement startMarkup endMarkup tokens tokens_eq_spell)
open Markup.Token (spell spellNode told around)
open Markup.Walk (rawAfter)

def entersRaw (s : Store) : Forest NodeId → Bool
  | .nil => false
  | .cons i below rest =>
    ((s.content i).isOpen && ((s.content i).isRawText || s.entersRaw below)) || s.entersRaw rest

/-- The texts that belong to the raw text element listing them, up to where another is gone into. -/
def ownTexts (s : Store) (p : NodeId) : Forest NodeId → List NodeId
  | .nil => []
  | .cons i below rest =>
    (if s.isKeptRaw (some p) i then [i] else []) ++
      (if s.entersRaw (.cons i below .nil) then [] else s.ownTexts p rest)

def IsInert (s : Store) (i : NodeId) : Prop :=
  ∀ value, s.content i = .text value → escapeText (value.getD "").toList = (value.getD "").toList

theorem ownTexts_of_isRawText (s : Store) (p : NodeId) (plain : (s.content p).isRawText = false)
    (f : Forest NodeId) : s.ownTexts p f = [] := by
  induction f with
  | nil => rfl
  | cons i below rest _ ih =>
      rw [ownTexts, s.isKeptRaw_of_isRawText p i plain, if_neg Bool.false_ne_true, ih, ite_self,
        List.append_nil]

theorem rawContrast_node (s : Store) (p i : NodeId) (below : Forest NodeId)
    (inside : RawContrast (spell true true (s.marked (some i) below))
      (spell true false (s.marked (some i) below)) (∀ j ∈ s.ownTexts i below, s.IsInert j)
      (!s.entersRaw below)) :
    RawContrast (spellNode true true (s.content i, s.isKeptRaw (some p) i) (s.marked (some i) below))
      (spellNode true false (s.content i, s.isKeptRaw (some p) i) (s.marked (some i) below))
      (s.isKeptRaw (some p) i = true → s.IsInert i) (!s.entersRaw (.cons i below .nil)) := by
  have unkept : ∀ other : (s.content i).isText = false,
      (True ↔ (s.isKeptRaw (some p) i = true → s.IsInert i)) := by
    intro other
    rw [isKeptRaw, isText, other, Bool.false_and]
    exact iff_of_true trivial fun marked => (Bool.false_ne_true marked).elim
  rw [entersRaw, entersRaw, Bool.or_false]
  cases opened : (s.content i).isOpen with
  | false =>
      rw [Bool.false_and, Bool.not_false]
      cases text : (s.content i).isText with
      | false => exact (rawContrast_closed opened text _ _).congr (unkept text)
      | true =>
          cases content : s.content i with
          | text value =>
              refine (rawContrast_text _ value _).congr (imp_congr_right fun _ => ?_)
              simp [IsInert, content]
          | _ =>
              rw [content] at text
              cases text
  | true =>
      have other := Content.isText_of_isOpen opened
      have nothing : ∀ plain : (s.content i).isRawText = false,
          ((∀ j ∈ s.ownTexts i below, s.IsInert j) ↔ (s.isKeptRaw (some p) i = true → s.IsInert i)) := by
        intro plain
        rw [s.ownTexts_of_isRawText i plain, ← unkept other]
        exact iff_of_true (List.forall_mem_nil _) trivial
      rw [Bool.true_and]
      rcases Content.isHolder_or_element opened with holder | ⟨tag, space, attrs, content, plain⟩
      · have tagless := Content.isRawText_of_isHolder holder
        rw [Markup.Token.spellNode_holder true true holder,
          Markup.Token.spellNode_holder true false holder, tagless, Bool.false_or]
        exact inside.congr (nothing tagless)
      · rw [Markup.Token.spellNode_element true true content plain,
          Markup.Token.spellNode_element true false content plain]
        have name : (s.content i).isRawText = Tag.isRawText tag := by rw [content]; rfl
        rw [name]
        cases raw : Tag.isRawText tag with
        | true => exact (rawContrast_raw raw space _ _).congr (unkept other)
        | false =>
            rw [Bool.false_or]
            exact (rawContrast_element raw space _ inside).congr (nothing (name.trans raw))

theorem rawContrast_marked (s : Store) (f : Forest NodeId) : ∀ p,
    RawContrast (spell true true (s.marked (some p) f)) (spell true false (s.marked (some p) f))
      (∀ i ∈ s.ownTexts p f, s.IsInert i) (!s.entersRaw f) := by
  induction f with
  | nil => exact fun _ => RawContrast.nil.congr (iff_of_true trivial (List.forall_mem_nil _))
  | cons i below rest ihBelow ihRest =>
      intro p
      have first := s.rawContrast_node p i below (ihBelow i)
      rw [marked, Markup.Token.spell_cons, Markup.Token.spell_cons, first.flag, first.shut]
      have here : s.entersRaw (.cons i below rest) =
          (s.entersRaw (.cons i below .nil) || s.entersRaw rest) := by
        simp only [entersRaw, Bool.or_false]
      have kept : (∀ j ∈ if s.isKeptRaw (some p) i then [i] else [], s.IsInert j) ↔
          (s.isKeptRaw (some p) i = true → s.IsInert i) := by
        split <;> simp [*]
      rw [here, ownTexts]
      simp only [List.forall_mem_append, kept]
      cases entered : s.entersRaw (.cons i below .nil) with
      | true =>
          rw [entered] at first
          refine (first.append_same (Markup.rawAfter_spell true (s.marked (some p) rest))).congr ?_
          simp
      | false =>
          rw [entered] at first
          exact first.append (ihRest p)

/-- What stands between the tags of an element is what is written from the element itself, in a raw
text element just if none of its own texts would be written otherwise where markup is read. -/
theorem stringify_between_tags (s : Store) (e root : NodeId) (tag : String) (space : Option String)
    (attrs : List Attr) (content : s.content e = .element tag space attrs)
    (open_ : isVoidElement tag space = false) (fragment : s.content root = .fragment)
    (only : s.children root = [e]) (acyclic : s.Acyclic e) :
    ∃ f inner outer, s.children e = f.tops ∧ s.Unfolds f ∧ stringify .standard s e = .ok inner ∧
      stringify .standard s root = .ok outer ∧
      (outer = String.ofList (startMarkup tag (Attr.collapse attrs)) ++ inner ++
          String.ofList (endMarkup tag) ↔
        (Tag.isRawText tag = true → ∀ i ∈ s.ownTexts e f, s.IsInert i)) := by
  obtain ⟨f, tops, unfolded⟩ := s.exists_unfolds e acyclic
  have above : s.Acyclic root := Acc.intro root fun x listed => by
    rw [only, List.mem_singleton] at listed
    exact listed ▸ acyclic
  have inside : tokens s e true = spell true false (s.marked (some e) f) := by
    have owner : s.isContainer e = true := by
      rw [isContainer, content]
      rfl
    rw [tokens_eq_spell s true e f tops unfolded, markedShown, if_pos owner]
  have outside : tokens s root true = .startTag tag space (Attr.toPairs attrs) ::
      (spell true (Tag.isRawText tag) (s.marked (some e) f) ++ [.endTag tag space]) := by
    have owner : s.isContainer root = true := by
      rw [isContainer, fragment]
      rfl
    have whole : s.Unfolds (.cons e f .nil) := ⟨tops, unfolded, trivial⟩
    have single : s.marked (some root) (.cons e f .nil) =
        .cons (s.content e, s.isKeptRaw (some root) e) (s.marked (some e) f) .nil := rfl
    rw [tokens_eq_spell s true root (.cons e f .nil) only whole, markedShown, if_pos owner, single,
      Markup.Token.spell_cons, Markup.Token.spellNode_element true false content open_, spell,
      List.append_nil, Bool.false_or]
  refine ⟨f, _, _, tops, unfolded, Markup.stringify_standard s e acyclic,
    Markup.stringify_standard s root above, ?_⟩
  rw [outside, inside, Markup.tokensText_element, Bool.false_or, ← String.ofList_append,
    ← String.ofList_append, String.ofList_inj, List.append_assoc, List.append_cancel_left_eq,
    List.append_cancel_right_eq]
  cases raw : Tag.isRawText tag with
  | false => exact iff_of_true rfl fun opens => (Bool.false_ne_true opens).elim
  | true =>
      exact (s.rawContrast_marked f e).text.eq_iff.trans
        ⟨fun inert _ => inert, fun inert => inert rfl⟩

def styledScript : Store where
  nodes := #[
    ⟨.fragment, none, [1]⟩,
    ⟨.element "script" (some htmlNamespace) [⟨"type", "\"x\""⟩], some 0, [2, 3, 5]⟩,
    ⟨.text (some "a b"), some 1, []⟩, ⟨.element "style" (some htmlNamespace) [], some 1, [4]⟩,
    ⟨.text (some "c<d"), some 3, []⟩, ⟨.text (some "e&f"), some 1, []⟩]

def styledScriptTrees : Forest NodeId :=
  .cons 2 .nil (.cons 3 (.cons 4 .nil .nil) (.cons 5 .nil .nil))

theorem styledScript_unfolds : styledScript.Unfolds (.cons 1 styledScriptTrees .nil) := by
  simp [styledScript, styledScriptTrees, Unfolds, children, node, Forest.tops]

theorem styledScript_inert : ∀ i ∈ styledScript.ownTexts 1 styledScriptTrees, styledScript.IsInert i := by
  have own : styledScript.ownTexts 1 styledScriptTrees = [2] := by decide
  rw [own, List.forall_mem_singleton]
  intro value content
  cases content
  decide

theorem stringify_styledScript :
    isVoidElement "script" (some htmlNamespace) = false ∧ styledScript.Acyclic 1 ∧
      stringify .standard styledScript 1 = .ok "a b<style>c<d</style>e&amp;f" ∧
      stringify .standard styledScript 0 =
        .ok "<script type=\"&quot;x&quot;\">a b<style>c<d</style>e&amp;f</script>" := by
  have acyclic : styledScript.Acyclic 1 := styledScript_unfolds.acyclic 1 List.mem_cons_self
  have inner : stringify .standard styledScript 1 = .ok "a b<style>c<d</style>e&amp;f" := rfl
  refine ⟨rfl, acyclic, inner, ?_⟩
  obtain ⟨f, found, outer, tops, unfolded, here, written, between⟩ := stringify_between_tags
    styledScript 1 0 "script" (some htmlNamespace) [⟨"type", "\"x\""⟩] rfl rfl rfl rfl acyclic
  have trees : f = styledScriptTrees :=
    unfolded.unique styledScript_unfolds.2.1 (tops.symm.trans styledScript_unfolds.1)
  rw [inner] at here
  cases here
  rw [written, between.mpr fun _ => trees ▸ styledScript_inert]
  decide +kernel

def comparingScript : Store where
  nodes := #[⟨.fragment, none, [1]⟩, ⟨.element "script" (some htmlNamespace) [], some 0, [2]⟩,
    ⟨.text (some "a<b"), some 1, []⟩]

/-- A script is read with its text as it stands, and written from the script its text is escaped. -/
theorem stringify_comparingScript :
    comparingScript.content 1 = .element "script" (some htmlNamespace) [] ∧
      isVoidElement "script" (some htmlNamespace) = false ∧ comparingScript.content 0 = .fragment ∧
      comparingScript.children 0 = [1] ∧ comparingScript.Acyclic 1 ∧
      (∀ p ∈ comparingScript.flatten 0, ∀ i ∈ comparingScript.children p,
        comparingScript.parent i = some p) ∧
      ((parseFragment .standard comparingScript
          (some (.text "<script>a<b</script>")) none).result.toOption.map fun j =>
        (parseFragment .standard comparingScript
          (some (.text "<script>a<b</script>")) none).store.isEqualNode 0 j) = some true ∧
      stringify .standard comparingScript 0 = .ok "<script>a<b</script>" ∧
      stringify .standard comparingScript 1 = .ok "a&lt;b" ∧
      ¬ ∃ inner, stringify .standard comparingScript 1 = .ok inner ∧
        stringify .standard comparingScript 0 = .ok ("<script>" ++ inner ++ "</script>") := by
  have unfolded : comparingScript.Unfolds (.cons 1 (.cons 2 .nil .nil) .nil) := by
    simp [comparingScript, Unfolds, children, node, Forest.tops]
  have whole : stringify .standard comparingScript 0 = .ok "<script>a<b</script>" := rfl
  have alone : stringify .standard comparingScript 1 = .ok "a&lt;b" := rfl
  refine ⟨rfl, rfl, rfl, rfl, unfolded.acyclic 1 List.mem_cons_self, by decide, ?_, whole, alone, ?_⟩
  · decide +kernel
  · rintro ⟨inner, found, framed⟩
    rw [alone] at found
    cases found
    rw [whole] at framed
    revert framed
    decide

end Store

end HtmlTree
