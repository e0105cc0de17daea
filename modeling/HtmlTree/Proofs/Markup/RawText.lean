import HtmlTree.Proofs.Markup.Pieces

/-! Two flags decide how a text is written: the walk's, by which it escapes what does not belong
into raw text, and the writer's, by which it leaves text as it stands. They agree at every token, so
that each text is escaped once, or not at all where a raw text element may hold it. -/

namespace HtmlTree.Markup

open Walk (Visit Runs tokensOf rawStep rawAfter IsRawText OpenedBy)

theorem foldl_flagStep_escaping (st : Style) (escapes : st.escapeRaw = true) (ts : List Token) :
    ts.foldl (flagStep st) false = false := by
  induction ts with
  | nil => rfl
  | cons t ts ih =>
      have still : flagStep st false t = false := by
        cases t <;> simp [flagStep, escapes]
      rw [List.foldl_cons, still]
      exact ih

/-- The writer's flag follows the walk's. -/
theorem foldl_flagStep_eq (st : Style) (keeps : st.escapeRaw = false) (ts : List Token)
    (voids : ∀ name space attrs, .emptyTag name space attrs ∈ ts → Tag.isVoid name = true) :
    ∀ raw, ts.foldl (flagStep st) raw = rawAfter raw ts := by
  induction ts with
  | nil => exact fun raw => rfl
  | cons t ts ih =>
      intro raw
      have same : flagStep st raw t = rawStep raw t := by
        cases t with
        | startTag name space attrs =>
            rw [flagStep, rawStep, keeps, Bool.not_false, Bool.and_true, Bool.or_comm]
        | emptyTag name space attrs =>
            have void := voids name space attrs List.mem_cons_self
            change ((Tag.isRawText name && !st.escapeRaw) || raw) = raw
            rw [isRawText_of_isVoid name void, Bool.false_and, Bool.false_or]
        | _ => rfl
      rw [List.foldl_cons, same, ih fun name space attrs member =>
        voids name space attrs (List.mem_cons_of_mem t member)]
      rfl

theorem toList_escapeString (text : String) : (escapeString text).toList = escapeText text.toList :=
  String.toList_ofList

theorem text_of_piece (st : Style) (s : Store) (raw : Bool) (i : NodeId) (container : Option NodeId)
    (text : String) (after : List Token) (previous : Option Token) (piece : Rendered) (closed : Bool)
    (written : writeTokens st after (!st.escapeRaw && raw) previous
      ((Walk.textTokens s (!st.escapeRaw) raw i container text).map (ordered st)) =
        .ok (piece, closed)) :
    piece.text = if !st.escapeRaw && raw && isLinkedRawText s i container then text.toList
      else escapeText text.toList := by
  have whole : ∀ (open_ : Bool) (shown : String),
      writeTokens st after open_ previous ((Token.ofText shown).map (ordered st)) =
        .ok (piece, closed) →
      piece.text = if open_ then shown.toList else escapeText shown.toList := by
    intro open_ shown found
    obtain ⟨problems, expected⟩ := writeTokens_ofText st after open_ previous shown
    rw [expected] at found
    cases found
    rfl
  rw [Walk.textTokens] at written
  cases escapes : st.escapeRaw with
  | true =>
      rw [escapes, Bool.not_true, Bool.false_and, Bool.and_false, Bool.false_and,
        if_neg Bool.false_ne_true] at written
      exact whole false text written
  | false =>
      cases raw with
      | false =>
          rw [escapes, Bool.and_false, Bool.false_and, Bool.false_and,
            if_neg Bool.false_ne_true] at written
          exact whole false text written
      | true =>
          cases linked : isLinkedRawText s i container with
          | true =>
              rw [escapes, linked, Bool.not_true, Bool.and_false, if_neg Bool.false_ne_true]
                at written
              exact whole true text written
          | false =>
              rw [escapes, linked, Bool.not_false, Bool.true_and, Bool.true_and, if_pos rfl]
                at written
              rw [← toList_escapeString]
              exact whole true (escapeString text) written

theorem Walk.Runs.foldl_flagStep {st : Style} {s : Store} {first last : Walk.State}
    {before later : List Visit} (runs : Runs s (!st.escapeRaw) first (before ++ later) last) :
    (tokensOf before).foldl (flagStep st) false =
      (!st.escapeRaw && rawAfter false (tokensOf before)) := by
  cases escapes : st.escapeRaw with
  | true => exact foldl_flagStep_escaping st escapes _
  | false =>
      rw [Bool.not_false, Bool.true_and]
      apply foldl_flagStep_eq st escapes
      intro name space attrs member
      apply runs.void_of_emptyTag name space attrs
      rw [Walk.tokensOf_append]
      exact List.mem_append_left _ member

/-- The output of a tree, piece by piece; the piece for a text is the text, escaped or not, and it
is unescaped only for a text that belongs to the raw text element that lists it, while that element
is open. -/
theorem text_escaped_once (c : Settings) (st : Style) (accepted : Style.ofSettings c = .ok st)
    (keeps : st.stripSpaces = false) (s : Store) (root : NodeId) (acyclic : s.Acyclic root) :
    ∃ visits after, Runs s (!st.escapeRaw) (Walk.start s root) visits ⟨after, []⟩ ∧
      stringify c s root = (writeVisits st false none visits).map
        (fun pieces => String.ofList (pieces.flatMap (·.text))) ∧
      ∀ pieces, writeVisits st false none visits = .ok pieces →
        pieces.length = visits.length ∧
        ∀ before i container found later,
          visits = before ++ ⟨.enter i container, found⟩ :: later →
          ∀ value, s.content i = .text value →
            ∃ piece, pieces[before.length]? = some piece ∧
              (piece.text = (value.getD "").toList ∨
                piece.text = escapeText (value.getD "").toList) ∧
              ((value.getD "").toList ≠ escapeText (value.getD "").toList →
                (piece.text = (value.getD "").toList ↔
                  st.escapeRaw = false ∧ ∃ p, container = some p ∧ IsRawText s p ∧
                    i ∈ s.children p ∧ s.parent i = some p ∧ OpenedBy before p)) := by
  obtain ⟨visits, after, runs, found, governed⟩ :=
    Walk.exists_walk s root (!st.escapeRaw) acyclic
  refine ⟨visits, after, runs, ?_, ?_⟩
  · rw [stringify, serialize_of_accepted accepted, render_eq st keeps s root visits found]
    cases writeVisits st false none visits with
    | error failure => rfl
    | ok pieces => exact congrArg (fun text => Except.ok (String.ofList text)) (Rendered.text_joined pieces)
  · intro pieces written
    refine ⟨length_of_writeVisits st visits false none pieces written, ?_⟩
    intro before i container tokens later split value text
    subst split
    obtain ⟨piece, last, closed, placed, here⟩ :=
      writeVisits_split st ⟨.enter i container, tokens⟩ later before false none pieces written
    rw [runs.foldl_flagStep, runs.tokens_of_text value text, Walk.start_rawText] at here
    have shape := text_of_piece st s _ i container (value.getD "") _ last piece closed here
    refine ⟨piece, placed, ?_, ?_⟩
    · rw [shape]
      split
      · exact Or.inl rfl
      · exact Or.inr rfl
    · intro special
      rw [shape]
      constructor
      · intro verbatim
        split at verbatim
        · next allowed =>
          rw [Bool.and_eq_true, Bool.and_eq_true, Bool.not_eq_true'] at allowed
          obtain ⟨⟨unescaped, open_⟩, linked⟩ := allowed
          obtain ⟨p, rfl, rawText, attached⟩ := (Walk.isLinkedRawText_iff s i _).mp linked
          have listed := runs.mem_children (Walk.mem_children_of_start s root) i p tokens
            (List.mem_append_right _ List.mem_cons_self)
          have opened := governed before i _ tokens later rfl open_ p rfl rawText
          exact ⟨unescaped, p, rfl, rawText, listed, attached, opened⟩
        · exact absurd verbatim.symm special
      · rintro ⟨unescaped, p, rfl, rawText, _, attached, opened⟩
        have linked := (Walk.isLinkedRawText_iff s i (some p)).mpr ⟨p, rfl, rawText, attached⟩
        rw [unescaped, linked, runs.rawAfter_of_openedBy p rawText opened]
        rfl

def listedTexts : Store :=
  ⟨#[⟨.fragment, none, [1]⟩, ⟨.element "style" none [], some 0, [2, 3]⟩,
    ⟨.text (some "a<b"), some 1, []⟩, ⟨.text (some "c<d"), none, []⟩]⟩

theorem listedTexts_acyclic : listedTexts.Acyclic 0 := by
  have unfolded : listedTexts.Unfolds
      (.cons 0 (.cons 1 (.cons 2 .nil (.cons 3 .nil .nil)) .nil) .nil) :=
    ⟨rfl, ⟨rfl, ⟨rfl, trivial, rfl, trivial, trivial⟩, trivial⟩, trivial⟩
  exact unfolded.acyclic 0 List.mem_cons_self

theorem listedTexts_written :
    Style.ofSettings .standard = .ok .standard ∧ Style.standard.stripSpaces = false ∧
      listedTexts.Acyclic 0 ∧ stringify .standard listedTexts 0 = .ok "<style>a<bc&lt;d</style>" ∧
      ∃ visits after, Runs listedTexts true (Walk.start listedTexts 0) visits ⟨after, []⟩ ∧
        stringify .standard listedTexts 0 = (writeVisits .standard false none visits).map
          (fun pieces => String.ofList (pieces.flatMap (·.text))) := by
  obtain ⟨visits, after, runs, output, _⟩ :=
    text_escaped_once .standard .standard rfl rfl listedTexts 0 listedTexts_acyclic
  exact ⟨rfl, rfl, listedTexts_acyclic, rfl, visits, after, runs, output⟩

end HtmlTree.Markup
