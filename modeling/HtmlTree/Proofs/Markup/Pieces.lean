import HtmlTree.Markup.Render
import HtmlTree.Proofs.Markup.Walk

/-! The output in pieces, one for each round of the walk: the rendering of the tokens found in that
round, in the place where they stand. -/

namespace HtmlTree.Markup

open Walk (Visit tokensOf rawStep rawAfter)

def Style.standard : Style where
  quoting := .always
  quote := some "\""
  bestQuote := false
  omitOptional := false
  minimizeBoolean := false
  trailingSolidus := false
  spaceBeforeSolidus := true
  escapeLtInAttrs := false
  escapeRaw := false
  sortAttributes := false
  stripSpaces := false
  sanitize := false

theorem Style.ofSettings_standard : Style.ofSettings .standard = .ok .standard := rfl

theorem render_eq_renderTokens (st : Style) (s : Store) (root : NodeId) :
    render st s root = renderTokens st false (filterTokens st (tokens s root (!st.escapeRaw))) := rfl

theorem serializeBy_of_accepted {c : Settings} {st : Style} (accepted : Style.ofSettings c = .ok st)
    (sanitizer : List Token → List Token) (s : Store) (i : NodeId) :
    serializeBy sanitizer c s i = renderBy sanitizer st s i := by
  rw [serializeBy, accepted]
  rfl

theorem serialize_of_accepted {c : Settings} {st : Style} (accepted : Style.ofSettings c = .ok st)
    (s : Store) (i : NodeId) : serialize c s i = render st s i :=
  serializeBy_of_accepted accepted id s i

namespace Rendered

def none : Rendered := ⟨[], []⟩

def append (first second : Rendered) : Rendered :=
  ⟨first.text ++ second.text, first.problems ++ second.problems⟩

theorem none_append (r : Rendered) : none.append r = r := rfl

theorem append_none (r : Rendered) : r.append none = r := by
  simp only [append, none, List.append_nil]

theorem append_assoc (a b c : Rendered) : (a.append b).append c = a.append (b.append c) := by
  simp only [append, List.append_assoc]

def joined : List Rendered → Rendered
  | [] => none
  | piece :: pieces => piece.append (joined pieces)

theorem text_joined (pieces : List Rendered) :
    (joined pieces).text = pieces.flatMap (·.text) := by
  induction pieces with
  | nil => rfl
  | cons piece pieces ih => rw [List.flatMap_cons, ← ih, joined, append]

end Rendered

def ordered (st : Style) (t : Token) : Token := if st.sortAttributes then sortAttributes t else t

/-- Whether a token is not written, given the one before it and all that follow. -/
def leftOut (st : Style) (previous : Option Token) (t : Token) (rest : List Token) : Bool :=
  st.omitOptional && OptionalTag.implied previous t (.of rest.head?)

/-- Tokens written where others stand before and after them, with raw text open or not; and whether
it is open then. -/
def writeTokens (st : Style) (after : List Token) :
    Bool → Option Token → List Token → Except RenderFailure (Rendered × Bool)
  | raw, _, [] => .ok (.none, raw)
  | raw, previous, t :: ts =>
    if leftOut st previous t (ts ++ after) then writeTokens st after raw (some t) ts
    else do
      let (first, raw) ← renderToken st raw t
      let (others, raw) ← writeTokens st after raw (some t) ts
      return (first.append others, raw)

/-- What is written for each round of a walk. -/
def writeVisits (st : Style) : Bool → Option Token → List Visit → Except RenderFailure (List Rendered)
  | _, _, [] => .ok []
  | raw, previous, v :: visits => do
    let ts := v.tokens.map (ordered st)
    let (piece, raw) ← writeTokens st ((tokensOf visits).map (ordered st)) raw previous ts
    let pieces ← writeVisits st raw (ts.getLast?.or previous) visits
    return piece :: pieces

theorem ok_of_bind {α β : Type} {x : Except RenderFailure α} {f : α → Except RenderFailure β} {b : β}
    (bound : x >>= f = .ok b) : ∃ a, x = .ok a ∧ f a = .ok b := by
  cases x with
  | error failure => cases bound
  | ok a => exact ⟨a, rfl, bound⟩

theorem renderTokens_cons (st : Style) (raw : Bool) (t : Token) (ts : List Token) :
    renderTokens st raw (t :: ts) = (renderToken st raw t).bind fun first =>
      (renderTokens st first.2 ts).map first.1.append := by
  rw [renderTokens]
  rfl

theorem writeTokens_cons (st : Style) (after : List Token) (raw : Bool) (previous : Option Token)
    (t : Token) (ts : List Token) :
    writeTokens st after raw previous (t :: ts) =
      if leftOut st previous t (ts ++ after) then writeTokens st after raw (some t) ts
      else (renderToken st raw t).bind fun first =>
        (writeTokens st after first.2 (some t) ts).map fun others =>
          (first.1.append others.1, others.2) := by
  rw [writeTokens]
  rfl

theorem renderTokens_dropImplied (st : Style) (ts : List Token) : ∀ raw previous,
    renderTokens st raw (if st.omitOptional then OptionalTag.dropImplied previous ts else ts) =
      (writeTokens st [] raw previous ts).map (·.1) := by
  induction ts with
  | nil =>
      intro raw previous
      rw [OptionalTag.dropImplied, ite_self]
      rfl
  | cons t ts ih =>
      intro raw previous
      rw [writeTokens_cons, leftOut, List.append_nil]
      have written : (renderToken st raw t).bind (fun first => (renderTokens st first.2
          (if st.omitOptional then OptionalTag.dropImplied (some t) ts else ts)).map
            first.1.append) =
          ((renderToken st raw t).bind fun first => (writeTokens st [] first.2 (some t) ts).map
            fun others => (first.1.append others.1, others.2)).map (·.1) := by
        cases renderToken st raw t with
        | error failure => rfl
        | ok first =>
            simp only [Except.bind]
            rw [ih]
            cases writeTokens st [] first.2 (some t) ts <;> rfl
      cases omits : st.omitOptional with
      | false =>
          simp only [omits, Bool.false_eq_true, if_false, Bool.false_and] at written ⊢
          rw [renderTokens_cons]
          exact written
      | true =>
          simp only [omits, if_true, Bool.true_and] at ih written ⊢
          rw [OptionalTag.dropImplied]
          split
          · exact ih raw (some t)
          · rw [renderTokens_cons]
            exact written

theorem writeTokens_append (st : Style) (left right after : List Token) : ∀ raw previous,
    writeTokens st after raw previous (left ++ right) =
      (writeTokens st (right ++ after) raw previous left).bind fun first =>
        (writeTokens st after first.2 (left.getLast?.or previous) right).map fun second =>
          (first.1.append second.1, second.2) := by
  induction left with
  | nil =>
      intro raw previous
      rw [List.nil_append, writeTokens]
      simp only [Except.bind, List.getLast?_nil, Option.none_or, Rendered.none_append]
      cases writeTokens st after raw previous right <;> rfl
  | cons t left ih =>
      intro raw previous
      have last : (t :: left).getLast?.or previous = left.getLast?.or (some t) := by
        rw [List.getLast?_cons]
        cases left.getLast? <;> rfl
      rw [List.cons_append, writeTokens_cons, writeTokens_cons, last, List.append_assoc]
      split
      · exact ih raw (some t)
      · cases renderToken st raw t with
        | error failure => rfl
        | ok first =>
            simp only [Except.bind]
            rw [ih]
            cases writeTokens st (right ++ after) first.2 (some t) left with
            | error failure => rfl
            | ok others =>
                simp only [Except.bind, Except.map]
                cases writeTokens st after others.2 (left.getLast?.or (some t)) right with
                | error failure => rfl
                | ok second => simp only [Rendered.append_assoc]

theorem writeTokens_tokensOf (st : Style) (visits : List Visit) : ∀ raw previous,
    (writeTokens st [] raw previous ((tokensOf visits).map (ordered st))).map (·.1) =
      (writeVisits st raw previous visits).map Rendered.joined := by
  induction visits with
  | nil =>
      intro raw previous
      rfl
  | cons v visits ih =>
      intro raw previous
      rw [Walk.tokensOf_cons, List.map_append, writeTokens_append, List.append_nil, writeVisits]
      simp only [bind]
      cases writeTokens st ((tokensOf visits).map (ordered st)) raw previous
          (v.tokens.map (ordered st)) with
      | error failure => rfl
      | ok first =>
          have onward : ∀ result : Except RenderFailure (Rendered × Bool),
              (result.map fun second => (first.1.append second.1, second.2)).map (·.1) =
                (result.map (·.1)).map first.1.append := by
            intro result
            cases result <;> rfl
          simp only [Except.bind]
          rw [onward, ih]
          cases writeVisits st first.2 ((v.tokens.map (ordered st)).getLast?.or previous) visits <;>
            rfl

/-- How a token changes whether text is written as it stands. -/
def flagStep (st : Style) (raw : Bool) : Token → Bool
  | .startTag name _ _ | .emptyTag name _ _ => (Tag.isRawText name && !st.escapeRaw) || raw
  | .endTag name _ => raw && !Tag.isRawText name
  | _ => raw

theorem renderToken_flag (st : Style) (raw : Bool) (t : Token) (r : Rendered × Bool)
    (rendered : renderToken st raw t = .ok r) : r.2 = flagStep st raw t := by
  have tag : ∀ name attrs, renderTag st raw name attrs = .ok r →
      r.2 = ((Tag.isRawText name && !st.escapeRaw) || raw) := by
    intro name attrs written
    rw [renderTag] at written
    cases inner : renderAttrs st name attrs with
    | error failure =>
        rw [inner] at written
        cases written
    | ok text =>
        rw [inner] at written
        cases written
        rfl
  cases t with
  | startTag name space attrs => exact tag name attrs rendered
  | emptyTag name space attrs => exact tag name attrs rendered
  | _ =>
      cases rendered
      rfl

theorem eq_of_isRawText (tag : String) (raw : Tag.isRawText tag = true) :
    tag = "style" ∨ tag = "script" ∨ tag = "xmp" ∨ tag = "iframe" ∨ tag = "noembed" ∨
      tag = "noframes" ∨ tag = "noscript" := by
  simpa [Tag.isRawText, Tag.rawTextTags] using raw

/-- The tags of raw text elements are never implied. -/
theorem isRawText_of_impliedStart (tag : String) (previous : Option Token)
    (next : OptionalTag.Next) (implied : OptionalTag.impliedStart tag previous next = true) :
    Tag.isRawText tag = false := by
  by_contra raw
  rw [Bool.not_eq_false] at raw
  rcases eq_of_isRawText tag raw with rfl | rfl | rfl | rfl | rfl | rfl | rfl <;> cases implied

theorem isRawText_of_impliedEnd (tag : String) (next : OptionalTag.Next)
    (implied : OptionalTag.impliedEnd tag next = true) : Tag.isRawText tag = false := by
  by_contra raw
  rw [Bool.not_eq_false] at raw
  rcases eq_of_isRawText tag raw with rfl | rfl | rfl | rfl | rfl | rfl | rfl <;> cases implied

theorem isRawText_of_isVoid (tag : String) (void : Tag.isVoid tag = true) :
    Tag.isRawText tag = false := by
  by_contra raw
  rw [Bool.not_eq_false] at raw
  rcases eq_of_isRawText tag raw with rfl | rfl | rfl | rfl | rfl | rfl | rfl <;> cases void

theorem leftOut_flag (st : Style) (previous : Option Token) (t : Token) (rest : List Token)
    (raw : Bool) (left : leftOut st previous t rest = true) : flagStep st raw t = raw := by
  have implied := (Bool.and_eq_true_iff.mp left).2
  cases t with
  | startTag name space attrs =>
      have plain := isRawText_of_impliedStart name previous _ (Bool.and_eq_true_iff.mp implied).2
      rw [flagStep, plain, Bool.false_and, Bool.false_or]
  | endTag name space =>
      have plain := isRawText_of_impliedEnd name _ implied
      rw [flagStep, plain, Bool.not_false, Bool.and_true]
  | _ => cases implied

theorem writeTokens_flag (st : Style) (after ts : List Token) : ∀ raw previous r,
    writeTokens st after raw previous ts = .ok r → r.2 = ts.foldl (flagStep st) raw := by
  induction ts with
  | nil =>
      intro raw previous r written
      cases written
      rfl
  | cons t ts ih =>
      intro raw previous r written
      rw [writeTokens_cons] at written
      rw [List.foldl_cons]
      split at written
      · next left =>
        rw [leftOut_flag st previous t _ raw left]
        exact ih raw _ r written
      · cases first : renderToken st raw t with
        | error failure =>
            rw [first] at written
            cases written
        | ok one =>
            rw [first] at written
            simp only [Except.bind] at written
            cases others : writeTokens st after one.2 (some t) ts with
            | error failure =>
                rw [others] at written
                cases written
            | ok rest =>
                rw [others] at written
                cases written
                rw [← renderToken_flag st raw t one first]
                exact ih one.2 _ rest others

theorem flagStep_ordered (st : Style) (raw : Bool) (t : Token) :
    flagStep st raw (ordered st t) = flagStep st raw t := by
  rw [ordered]
  split
  · cases t <;> rfl
  · rfl

theorem writeVisits_cons_ok (st : Style) (raw : Bool) (previous : Option Token) (v : Visit)
    (visits : List Visit) (pieces : List Rendered)
    (written : writeVisits st raw previous (v :: visits) = .ok pieces) :
    ∃ piece rest, pieces = piece :: rest ∧
      writeTokens st ((tokensOf visits).map (ordered st)) raw previous (v.tokens.map (ordered st)) =
        .ok (piece, v.tokens.foldl (flagStep st) raw) ∧
      ∃ last, writeVisits st (v.tokens.foldl (flagStep st) raw) last visits = .ok rest := by
  rw [writeVisits] at written
  obtain ⟨⟨piece, open_⟩, first, written⟩ := ok_of_bind written
  obtain ⟨rest, others, written⟩ := ok_of_bind written
  have flag := writeTokens_flag st _ _ raw previous _ first
  have unordered : (v.tokens.map (ordered st)).foldl (flagStep st) raw =
      v.tokens.foldl (flagStep st) raw := by
    rw [List.foldl_map]
    simp only [flagStep_ordered]
  rw [unordered] at flag
  cases written
  rw [← flag]
  exact ⟨piece, rest, rfl, first, _, others⟩

theorem writeVisits_split (st : Style) (v : Visit) (later before : List Visit) :
    ∀ (raw : Bool) (previous : Option Token) (pieces : List Rendered),
      writeVisits st raw previous (before ++ v :: later) = .ok pieces →
      ∃ piece last closed, pieces[before.length]? = some piece ∧
        writeTokens st ((tokensOf later).map (ordered st))
          ((tokensOf before).foldl (flagStep st) raw) last (v.tokens.map (ordered st)) =
            .ok (piece, closed) := by
  induction before with
  | nil =>
      intro raw previous pieces written
      obtain ⟨piece, rest, rfl, first, _⟩ := writeVisits_cons_ok st raw previous v later pieces written
      exact ⟨piece, previous, _, rfl, first⟩
  | cons u before ih =>
      intro raw previous pieces written
      obtain ⟨first, rest, rfl, _, last, onward⟩ :=
        writeVisits_cons_ok st raw previous u (before ++ v :: later) pieces written
      obtain ⟨piece, last, closed, found, here⟩ := ih _ last rest onward
      refine ⟨piece, last, closed, found, ?_⟩
      rw [Walk.tokensOf_cons, List.foldl_append]
      exact here

theorem length_of_writeVisits (st : Style) (visits : List Visit) : ∀ raw previous pieces,
    writeVisits st raw previous visits = .ok pieces → pieces.length = visits.length := by
  induction visits with
  | nil =>
      intro raw previous pieces written
      cases written
      rfl
  | cons v visits ih =>
      intro raw previous pieces written
      obtain ⟨piece, rest, rfl, _, last, onward⟩ :=
        writeVisits_cons_ok st raw previous v visits pieces written
      rw [List.length_cons, List.length_cons, ih _ last rest onward]

theorem filterTokens_eq (st : Style) (keeps : st.stripSpaces = false) (ts : List Token) :
    filterTokens st ts =
      if st.omitOptional then OptionalTag.dropImplied none (ts.map (ordered st))
      else ts.map (ordered st) := by
  have sorted : ts.map (ordered st) = if st.sortAttributes then ts.map sortAttributes else ts := by
    cases sorts : st.sortAttributes with
    | true =>
        rw [if_pos rfl]
        apply List.map_congr_left
        intro t _
        rw [ordered, sorts, if_pos rfl]
    | false =>
        rw [if_neg Bool.false_ne_true]
        have same : ∀ t ∈ ts, ordered st t = id t := by
          intro t _
          rw [ordered, sorts, if_neg Bool.false_ne_true, id]
        rw [List.map_congr_left same, List.map_id]
  rw [sorted]
  simp only [filterTokens, filterTokensBy, keeps, id_eq, ite_self, Bool.false_eq_true, if_false, omitOptional]

/-- The output of a tree is what is written for the rounds of its walk, one after the other. -/
theorem render_eq (st : Style) (keeps : st.stripSpaces = false) (s : Store) (root : NodeId)
    (visits : List Visit) (found : tokens s root (!st.escapeRaw) = tokensOf visits) :
    render st s root = (writeVisits st false none visits).map Rendered.joined := by
  rw [render_eq_renderTokens, found, filterTokens_eq st keeps, renderTokens_dropImplied,
    writeTokens_tokensOf]

theorem rawAfter_ofText (raw : Bool) (text : String) : rawAfter raw (Token.ofText text) = raw :=
  Walk.rawAfter_of_plain (fun t member =>
    Walk.isPlain_of_isPiece t (Walk.isPiece_of_mem_ofText text t member)) raw

def pieceText (raw : Bool) : Token → List Char
  | .characters text => if raw then text.toList else escapeText text.toList
  | .spaces text => text.toList
  | _ => []

theorem ordered_of_isPiece (st : Style) (t : Token) (piece : Walk.isPiece t = true) :
    ordered st t = t := by
  rw [ordered]
  split
  · cases t <;> first | rfl | cases piece
  · rfl

theorem writeTokens_pieces (st : Style) (after : List Token) (raw : Bool) (ts : List Token)
    (pieces : ∀ t ∈ ts, Walk.isPiece t = true) : ∀ previous : Option Token, ∃ problems,
    writeTokens st after raw previous (ts.map (ordered st)) =
      .ok (⟨ts.flatMap (pieceText raw), problems⟩, raw) := by
  induction ts with
  | nil =>
      intro previous
      exact ⟨[], rfl⟩
  | cons t ts ih =>
      intro previous
      obtain ⟨here, rest⟩ := List.forall_mem_cons.mp pieces
      have one : ∃ problems, renderToken st raw t = .ok (⟨pieceText raw t, problems⟩, raw) := by
        cases t with
        | characters text =>
            cases raw with
            | true => exact ⟨_, rfl⟩
            | false => exact ⟨_, rfl⟩
        | spaces text =>
            cases raw with
            | true => exact ⟨_, rfl⟩
            | false => exact ⟨_, rfl⟩
        | _ => cases here
      have kept : leftOut st previous t (ts.map (ordered st) ++ after) = false := by
        cases t with
        | characters text => exact Bool.and_false _
        | spaces text => exact Bool.and_false _
        | _ => cases here
      obtain ⟨problems, rendered⟩ := one
      obtain ⟨others, written⟩ := ih rest (some t)
      refine ⟨problems ++ others, ?_⟩
      rw [List.map_cons, ordered_of_isPiece st t here, writeTokens_cons, kept,
        if_neg Bool.false_ne_true, rendered, List.flatMap_cons]
      simp only [Except.bind, written]
      rfl

theorem flatMap_nonempty (make : String → Token) (chars : List Char) (raw : Bool)
    (blank : pieceText raw (make "") = []) :
    (Token.nonempty make chars).flatMap (pieceText raw) = pieceText raw (make (String.ofList chars)) := by
  rw [Token.nonempty]
  split
  · next empty =>
    rw [List.isEmpty_iff.mp empty]
    exact blank.symm
  · exact List.flatMap_singleton _ _

theorem escapeText_spaces (chars : List Char) (spaces : ∀ c ∈ chars, Text.isSpace c = true) :
    escapeText chars = chars := by
  induction chars with
  | nil => rfl
  | cons c chars ih =>
      obtain ⟨here, rest⟩ := List.forall_mem_cons.mp spaces
      have single : escapeChar c = [c] := by
        unfold escapeChar
        split
        · next same => subst same; cases here
        · split
          · next same => subst same; cases here
          · split
            · next same => subst same; cases here
            · rfl
      rw [escapeText, List.flatMap_cons, single]
      exact congrArg (c :: ·) (ih rest)

theorem flatMap_pieceText_ofText (raw : Bool) (text : String) :
    (Token.ofText text).flatMap (pieceText raw) =
      if raw then text.toList else escapeText text.toList := by
  obtain ⟨front, middle, back, whole, pieces, frontSpaces, backSpaces⟩ := Walk.exists_pieces text
  rw [pieces, List.flatMap_append, List.flatMap_append,
    flatMap_nonempty Token.spaces _ _ rfl, flatMap_nonempty Token.spaces _ _ rfl,
    flatMap_nonempty Token.characters _ _ (by cases raw <;> rfl), whole]
  cases raw with
  | true => simp [pieceText]
  | false =>
      simp only [pieceText, String.toList_ofList, Bool.false_eq_true, if_false]
      rw [escapeText, escapeText, List.flatMap_append, List.flatMap_append, ← escapeText, ← escapeText,
        ← escapeText, escapeText_spaces _ frontSpaces, escapeText_spaces _ backSpaces,
        List.append_assoc]

theorem writeTokens_ofText (st : Style) (after : List Token) (raw : Bool) (previous : Option Token)
    (text : String) : ∃ problems,
    writeTokens st after raw previous ((Token.ofText text).map (ordered st)) =
      .ok (⟨if raw then text.toList else escapeText text.toList, problems⟩, raw) := by
  obtain ⟨problems, written⟩ :=
    writeTokens_pieces st after raw _ (Walk.isPiece_of_mem_ofText text) previous
  rw [flatMap_pieceText_ofText] at written
  exact ⟨problems, written⟩

end HtmlTree.Markup
