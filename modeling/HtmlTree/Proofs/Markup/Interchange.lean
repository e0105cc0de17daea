import HtmlTree.Proofs.Markup.Pieces
import Mathlib.Data.List.TakeWhile

/-! Tokens that may stand for others. Two runs of tokens are interchangeable if, whatever stands before
and behind them, the same text is written; what is reported on the way may differ. A text may be cut in
two, and what is said of a void element may be left out. -/

namespace HtmlTree.Markup

open OptionalTag (Next impliedStart)
open Text (isSpace)
open Walk (rawAfter)

/-- The text written for tokens that others follow, and whether raw text is open then. -/
def writeChars (st : Style) (after : List Token) (raw : Bool) (previous : Option Token)
    (ts : List Token) : Except RenderFailure (List Char × Bool) :=
  (writeTokens st after raw previous ts).map fun r => (r.1.text, r.2)

def writtenText (st : Style) (ts : List Token) : Except RenderFailure (List Char) :=
  (renderTokens st false (filterTokens st ts)).map (·.text)

structure Interchangeable (ts us : List Token) : Prop where
  flag : ∀ raw, rawAfter raw ts = rawAfter raw us
  written : ∀ st : Style, st.stripSpaces = false → ∀ before after,
    writtenText st (before ++ (ts ++ after)) = writtenText st (before ++ (us ++ after))

namespace Interchangeable

variable {ts us vs ts' us' : List Token}

theorem refl (ts : List Token) : Interchangeable ts ts := ⟨fun _ => rfl, fun _ _ _ _ => rfl⟩

theorem symm (same : Interchangeable ts us) : Interchangeable us ts :=
  ⟨fun raw => (same.flag raw).symm,
    fun st keeps before after => (same.written st keeps before after).symm⟩

theorem trans (first : Interchangeable ts us) (second : Interchangeable us vs) :
    Interchangeable ts vs :=
  ⟨fun raw => (first.flag raw).trans (second.flag raw),
    fun st keeps before after =>
      (first.written st keeps before after).trans (second.written st keeps before after)⟩

theorem append (left : Interchangeable ts us) (right : Interchangeable ts' us') :
    Interchangeable (ts ++ ts') (us ++ us') where
  flag raw := by rw [Walk.rawAfter_append, Walk.rawAfter_append, left.flag, right.flag]
  written st keeps before after := by
    calc
      writtenText st (before ++ (ts ++ ts' ++ after))
          = writtenText st (before ++ (ts ++ (ts' ++ after))) := by rw [List.append_assoc ts]
      _ = writtenText st (before ++ us ++ (ts' ++ after)) := by
          rw [left.written st keeps, List.append_assoc]
      _ = writtenText st (before ++ us ++ (us' ++ after)) := right.written st keeps _ after
      _ = writtenText st (before ++ (us ++ us' ++ after)) := by simp only [List.append_assoc]

theorem cons (t : Token) (same : Interchangeable ts us) : Interchangeable (t :: ts) (t :: us) :=
  (refl [t]).append same

end Interchangeable

theorem writeChars_append (st : Style) (left right after : List Token) (raw : Bool)
    (previous : Option Token) :
    writeChars st after raw previous (left ++ right) =
      (writeChars st (right ++ after) raw previous left).bind fun first =>
        (writeChars st after first.2 (left.getLast?.or previous) right).map fun second =>
          (first.1 ++ second.1, second.2) := by
  simp only [writeChars]
  rw [writeTokens_append]
  cases writeTokens st (right ++ after) raw previous left with
  | error failure => rfl
  | ok first =>
      simp only [Except.bind, Except.map]
      cases writeTokens st after first.2 (left.getLast?.or previous) right <;> rfl

theorem writtenText_eq (st : Style) (keeps : st.stripSpaces = false) (ts : List Token) :
    writtenText st ts = (writeChars st [] false none (ts.map (ordered st))).map (·.1) := by
  rw [writtenText, filterTokens_eq st keeps, renderTokens_dropImplied, writeChars]
  cases writeTokens st [] false none (ts.map (ordered st)) <;> rfl

/-- Of what follows only the first token counts, and of that only its kind and name. -/
theorem writeTokens_congr_after (st : Style) (after after' : List Token)
    (same : Next.of after.head? = Next.of after'.head?) (ts : List Token) : ∀ raw previous,
    writeTokens st after raw previous ts = writeTokens st after' raw previous ts := by
  induction ts with
  | nil => exact fun _ _ => rfl
  | cons t ts ih =>
      intro raw previous
      have next : Next.of (ts ++ after).head? = Next.of (ts ++ after').head? := by
        cases ts with
        | nil => exact same
        | cons u ts => rfl
      have left : leftOut st previous t (ts ++ after) = leftOut st previous t (ts ++ after') := by
        rw [leftOut, leftOut, next]
      rw [writeTokens_cons, writeTokens_cons, left]
      simp only [ih]

def endsNoRows : Token → Bool
  | .endTag name _ => !OptionalTag.isRowGroup name
  | _ => true

theorem impliedStart_eq (tag : String) (previous : Option Token) (next : Next)
    (plain : ∀ t ∈ previous, endsNoRows t = true) :
    impliedStart tag previous next = impliedStart tag none next := by
  cases previous with
  | none => rfl
  | some t =>
      cases t with
      | endTag name space =>
          have other : (!OptionalTag.isRowGroup name) = true := plain _ rfl
          simp only [impliedStart, other]
      | _ => rfl

/-- Of what stands before only the end of a group of rows counts. -/
theorem writeTokens_congr_previous (st : Style) (after : List Token) (raw : Bool)
    (previous previous' : Option Token) (plain : ∀ t ∈ previous, endsNoRows t = true)
    (plain' : ∀ t ∈ previous', endsNoRows t = true) (ts : List Token) :
    writeTokens st after raw previous ts = writeTokens st after raw previous' ts := by
  cases ts with
  | nil => rfl
  | cons t ts =>
      have left : ∀ rest, leftOut st previous t rest = leftOut st previous' t rest := by
        intro rest
        rw [leftOut, leftOut]
        cases t with
        | startTag name space attrs =>
            simp only [OptionalTag.implied]
            rw [impliedStart_eq name previous _ plain, impliedStart_eq name previous' _ plain']
        | _ => rfl
      rw [writeTokens_cons, writeTokens_cons, left]

theorem interchangeable_of_writeChars {ts us : List Token} (nonempty : ts ≠ []) (nonempty' : us ≠ [])
    (flag : ∀ raw, rawAfter raw ts = rawAfter raw us)
    (first : ∀ st, Next.of (ts.map (ordered st)).head? = Next.of (us.map (ordered st)).head?)
    (last : ∀ st, ∀ t ∈ (ts.map (ordered st)).getLast?, endsNoRows t = true)
    (last' : ∀ st, ∀ t ∈ (us.map (ordered st)).getLast?, endsNoRows t = true)
    (written : ∀ st after raw previous, writeChars st after raw previous (ts.map (ordered st)) =
      writeChars st after raw previous (us.map (ordered st))) : Interchangeable ts us where
  flag := flag
  written st keeps before after := by
    have head_append : ∀ l r : List Token, l ≠ [] → (l ++ r).head? = l.head? := by
      intro l r filled
      cases l with
      | nil => exact absurd rfl filled
      | cons t l => rfl
    have ends : ∀ l : List Token, l ≠ [] → ∀ previous : Option Token,
        l.getLast?.or previous = l.getLast? := by
      intro l filled previous
      rw [List.getLast?_eq_some_getLast filled, Option.some_or]
    have filled : ts.map (ordered st) ≠ [] := by simpa using nonempty
    have filled' : us.map (ordered st) ≠ [] := by simpa using nonempty'
    have begin_ : ∀ raw previous l, writeTokens st
        (ts.map (ordered st) ++ after.map (ordered st) ++ []) raw previous l =
          writeTokens st (us.map (ordered st) ++ after.map (ordered st) ++ []) raw previous l := by
      intro raw previous l
      apply writeTokens_congr_after
      rw [List.append_assoc, List.append_assoc, head_append _ _ filled, head_append _ _ filled']
      exact first st
    have onward : ∀ raw previous, writeChars st [] raw previous
        (ts.map (ordered st) ++ after.map (ordered st)) =
          writeChars st [] raw previous (us.map (ordered st) ++ after.map (ordered st)) := by
      intro raw previous
      rw [writeChars_append, writeChars_append, written, ends _ filled, ends _ filled']
      cases writeChars st (after.map (ordered st) ++ []) raw previous (us.map (ordered st)) with
      | error failure => rfl
      | ok r =>
          simp only [Except.bind, writeChars]
          rw [writeTokens_congr_previous st [] r.2 _ _ (last st) (last' st)]
    rw [writtenText_eq st keeps, writtenText_eq st keeps]
    simp only [List.map_append]
    rw [writeChars_append, writeChars_append]
    simp only [onward]
    simp only [writeChars, begin_]

theorem next_ofText {text : String} {c : Char} {rest : List Char} (begins : text.toList = c :: rest) :
    Next.of (Token.ofText text).head? = if isSpace c then .gap else .other := by
  rw [Token.ofText, begins]
  cases space : isSpace c with
  | true =>
      simp only [List.takeWhile_cons, space, if_true, Token.nonempty, List.isEmpty_cons,
        Bool.false_eq_true, if_false]
      rfl
  | false =>
      have middle : ((c :: rest).reverse.dropWhile isSpace).reverse.isEmpty = false := by
        rw [List.isEmpty_eq_false_iff, Ne, List.reverse_eq_nil_iff, List.dropWhile_eq_nil_iff]
        intro spaces
        have here := spaces c (List.mem_reverse.mpr List.mem_cons_self)
        rw [space] at here
        cases here
      simp only [List.takeWhile_cons, List.dropWhile_cons, space, Bool.false_eq_true, if_false,
        Token.nonempty, List.isEmpty_nil, if_true, List.nil_append, middle]
      rfl

theorem ofText_ne_nil {text : String} (filled : text ≠ "") : Token.ofText text ≠ [] := by
  intro empty
  cases chars : text.toList with
  | nil => exact filled (String.toList_eq_nil_iff.mp chars)
  | cons c rest =>
      have next := next_ofText chars
      rw [empty] at next
      split at next <;> cases next

theorem map_ordered_ofText (st : Style) (text : String) :
    (Token.ofText text).map (ordered st) = Token.ofText text := by
  have same : ∀ t ∈ Token.ofText text, ordered st t = id t :=
    fun t member => ordered_of_isPiece st t (Walk.isPiece_of_mem_ofText text t member)
  rw [List.map_congr_left same, List.map_id]

theorem writeChars_ofText (st : Style) (after : List Token) (raw : Bool) (previous : Option Token)
    (text : String) : writeChars st after raw previous (Token.ofText text) =
      .ok (if raw then text.toList else escapeText text.toList, raw) := by
  obtain ⟨problems, written⟩ := writeTokens_ofText st after raw previous text
  rw [map_ordered_ofText] at written
  rw [writeChars, written]
  rfl

theorem endsNoRows_of_isPiece (t : Token) (piece : Walk.isPiece t = true) : endsNoRows t = true := by
  cases t with
  | endTag name space => cases piece
  | _ => rfl

theorem ofText_empty : Token.ofText "" = [] := rfl

theorem interchangeable_ofText (first second : String) :
    Interchangeable (Token.ofText first ++ Token.ofText second) (Token.ofText (first ++ second)) := by
  by_cases noFirst : first = ""
  · rw [noFirst, ofText_empty, List.nil_append, String.empty_append]
    exact Interchangeable.refl _
  have whole : first ++ second ≠ "" := by
    rw [Ne, String.append_eq_empty_iff]
    exact fun both => noFirst both.1
  apply interchangeable_of_writeChars
  · exact List.append_ne_nil_of_left_ne_nil (ofText_ne_nil noFirst) _
  · exact ofText_ne_nil whole
  · intro raw
    rw [Walk.rawAfter_append, rawAfter_ofText, rawAfter_ofText, rawAfter_ofText]
  · intro st
    cases chars : first.toList with
    | nil => exact absurd (String.toList_eq_nil_iff.mp chars) noFirst
    | cons c rest =>
        have begins : (first ++ second).toList = c :: (rest ++ second.toList) := by
          rw [String.toList_append, chars, List.cons_append]
        rw [List.map_append, map_ordered_ofText, map_ordered_ofText, map_ordered_ofText,
          List.head?_append_of_ne_nil _ (ofText_ne_nil noFirst), next_ofText chars,
          next_ofText begins]
  · intro st t final
    rw [List.map_append, map_ordered_ofText, map_ordered_ofText] at final
    apply endsNoRows_of_isPiece
    rcases List.mem_append.mp (List.mem_of_mem_getLast? final) with inside | inside
    · exact Walk.isPiece_of_mem_ofText first t inside
    · exact Walk.isPiece_of_mem_ofText second t inside
  · intro st t final
    rw [map_ordered_ofText] at final
    exact endsNoRows_of_isPiece t
      (Walk.isPiece_of_mem_ofText _ t (List.mem_of_mem_getLast? final))
  · intro st after raw previous
    rw [List.map_append, map_ordered_ofText, map_ordered_ofText, map_ordered_ofText,
      writeChars_append, writeChars_ofText, writeChars_ofText, String.toList_append]
    simp only [Except.bind, writeChars_ofText, Except.map]
    cases raw with
    | true => rfl
    | false =>
        simp only [Bool.false_eq_true, if_false]
        rw [escapeText, escapeText, escapeText, List.flatMap_append]

theorem interchangeable_problem (name : String) (space : Option String) (attrs : Pairs)
    (text : String) :
    Interchangeable [.emptyTag name space attrs, .problem text] [.emptyTag name space attrs] := by
  have silent : ∀ st after raw previous, writeChars st after raw previous [.problem text] =
      .ok ([], raw) := by
    intro st after raw previous
    have kept : leftOut st previous (.problem text) ([] ++ after) = false := Bool.and_false _
    rw [writeChars, writeTokens_cons, kept]
    rfl
  have unordered : ∀ st, ordered st (.problem text) = .problem text := by
    intro st
    rw [ordered]
    split <;> rfl
  have next : ∀ st after after', leftOut st after (ordered st (.emptyTag name space attrs)) after' =
      false := by
    intro st after after'
    rw [ordered]
    split <;> exact Bool.and_false _
  apply interchangeable_of_writeChars (List.cons_ne_nil _ _) (List.cons_ne_nil _ _)
  · exact fun _ => rfl
  · exact fun _ => rfl
  · intro st t final
    rw [List.map_cons, List.map_cons, unordered] at final
    cases final
    rfl
  · intro st t final
    rw [List.map_cons, List.map_nil, ordered] at final
    split at final <;> (cases final; rfl)
  · intro st after raw previous
    have one : ∀ after, writeChars st after raw previous [ordered st (.emptyTag name space attrs)] =
        (renderToken st raw (ordered st (.emptyTag name space attrs))).map
          fun r => (r.1.text, r.2) := by
      intro after
      rw [writeChars, writeTokens_cons, next, if_neg Bool.false_ne_true]
      cases renderToken st raw (ordered st (.emptyTag name space attrs)) with
      | error failure => rfl
      | ok r => simp only [Except.bind, Except.map, writeTokens, Rendered.append_none]
    simp only [List.map_cons, List.map_nil, unordered]
    rw [← List.singleton_append, writeChars_append, one, one]
    cases renderToken st raw (ordered st (.emptyTag name space attrs)) with
    | error failure => rfl
    | ok r => simp only [Except.bind, Except.map, silent, List.append_nil]

end HtmlTree.Markup
