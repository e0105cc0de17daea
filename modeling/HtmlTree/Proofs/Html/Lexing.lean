import HtmlTree.Proofs.Html.Building
import HtmlTree.Proofs.Html.ReadingRaw

/-! Markup read back: what the lexer makes of tags, comments and text that were written. -/

namespace HtmlTree.Html

open Markup (StableAttrs IsAttrName writeAttrs writeValue valueChar escapeText escapeChar startMarkup
  endMarkup commentMarkup StableComment)
open Text (isSpace isLetter isLower isDigit lower)

theorem leads_turn {r q : Reading} {t : Token} {b next : Builder} {kind : Option TextKind}
    (reads : Reads r [t] q) (shorter : q.rest.length < r.rest.length)
    (turns : b.Turns t kind next) :
    Leads ⟨r, b⟩ ⟨{ q with state := (kind.map TextKind.state).getD q.state }, next⟩ := by
  obtain ⟨holds, rfl, rfl⟩ := turns
  exact leads_token reads shorter b holds

theorem leads_back_turn {r m q : Reading} {t : Token} {b next : Builder} {kind : Option TextKind}
    (first : Reads r [] m) (second : Reads m [t] q) (shorter : m.rest.length < r.rest.length)
    (same : q.rest.length = m.rest.length) (turns : b.Turns t kind next) :
    Leads ⟨r, b⟩ ⟨{ q with state := (kind.map TextKind.state).getD q.state }, next⟩ := by
  obtain ⟨holds, rfl, rfl⟩ := turns
  exact leads_back first second shorter same b holds

/-- A run that is written character by character is cut off where a character is not written as
itself, or is none of the run. -/
theorem run_eq {write : Char → List Char} {p q : Char → Bool} {text more : List Char}
    (plain : ∀ c ∈ text, q c = true → write c = [c] ∧ p c = true)
    (special : ∀ c ∈ text, q c = false → ∃ d others, write c = d :: others ∧ p d = false)
    (stop : ∀ d ∈ more.head?, p d = false) :
    (text.flatMap write ++ more).takeWhile p = text.takeWhile q ∧
      (text.flatMap write ++ more).dropWhile p = (text.dropWhile q).flatMap write ++ more := by
  induction text with
  | nil =>
      cases more with
      | nil => exact ⟨rfl, rfl⟩
      | cons d more =>
          have ends := stop d rfl
          rw [List.flatMap_nil, List.nil_append, List.takeWhile_cons, List.dropWhile_cons, ends]
          exact ⟨rfl, rfl⟩
  | cons c text ih =>
      rw [List.forall_mem_cons] at plain special
      obtain ⟨same, rest⟩ := ih plain.2 special.2
      rw [List.flatMap_cons, List.append_assoc, List.takeWhile_cons, List.dropWhile_cons]
      cases runs : q c with
      | true =>
          obtain ⟨itself, goes⟩ := plain.1 runs
          rw [itself, List.singleton_append, List.takeWhile_cons, List.dropWhile_cons, goes, same, rest]
          exact ⟨rfl, rfl⟩
      | false =>
          obtain ⟨d, others, written, ends⟩ := special.1 runs
          rw [written, List.cons_append, List.takeWhile_cons, List.dropWhile_cons, ends]
          refine ⟨rfl, ?_⟩
          rw [if_neg Bool.false_ne_true, if_neg Bool.false_ne_true, List.flatMap_cons, written,
            List.append_assoc, List.cons_append]

theorem plain_run_eq (p : Char → Bool) (text more : List Char) (stop : ∀ d ∈ more.head?, p d = false) :
    (text ++ more).takeWhile p = text.takeWhile p ∧
      (text ++ more).dropWhile p = text.dropWhile p ++ more := by
  have runs : (text.flatMap (fun c => [c]) ++ more).takeWhile p = text.takeWhile p ∧
      (text.flatMap (fun c => [c]) ++ more).dropWhile p =
        (text.dropWhile p).flatMap (fun c => [c]) ++ more :=
    run_eq (fun _ _ inside => ⟨rfl, inside⟩) (fun c _ outside => ⟨c, [], rfl, outside⟩) stop
  rwa [List.flatMap_singleton', List.flatMap_singleton'] at runs

theorem length_run_lt (p : Char → Bool) (c : Char) (rest : List Char) :
    (rest.dropWhile p).length < (c :: rest).length :=
  Nat.lt_succ_of_le (List.dropWhile_sublist p).length_le

theorem length_word_lt (c : Char) (word rest : List Char) :
    rest.length < (c :: (word ++ rest)).length := by
  rw [List.length_cons, List.length_append]
  omega

/-- Induction over a text that is read in runs: what holds of all ends of a text holds of it with
another character in front. -/
theorem suffix_induction {P : List Char → Prop} (text : List Char) (nil : P [])
    (cons : ∀ c text, (∀ others, others <:+ text → P others) → P (c :: text)) : P text := by
  have all : ∀ others, others <:+ text → P others := by
    induction text with
    | nil =>
        intro others ends
        rw [List.suffix_nil.mp ends]
        exact nil
    | cons c text ih =>
        intro others ends
        rcases List.suffix_cons_iff.mp ends with rfl | ends
        · exact cons c text ih
        · exact ih others ends
  exact all text List.suffix_rfl

section Tags

variable {draft : Draft} {buffer more : List Char} {b : Builder}

theorem leads_name (isEnd : Bool) (text : List Char) (small : ∀ c ∈ text, isLower c = true) :
    ∀ name, Leads ⟨⟨.tagName, tagDraft isEnd name [], buffer, text ++ more⟩, b⟩
      ⟨⟨.tagName, tagDraft isEnd (text.reverse ++ name) [], buffer, more⟩, b⟩ := by
  induction text with
  | nil => exact fun name => Leads.refl _
  | cons c text ih =>
      intro name
      rw [List.forall_mem_cons] at small
      rw [List.reverse_cons, List.append_assoc, List.singleton_append]
      exact (leads_silent (reads_nameChar small.1) (by simp) b).trans (ih small.2 (c :: name))

def IsTagName (tag : String) : Prop :=
  ∃ first others, tag.toList = first :: others ∧ ∀ c ∈ first :: others, isLower c = true

theorem IsTagName.small {tag : String} (named : IsTagName tag) :
    ∀ c ∈ tag.toList.reverse, isLower c = true := by
  obtain ⟨first, others, whole, small⟩ := named
  intro c member
  rw [List.mem_reverse, whole] at member
  exact small c member

theorem textOf_reverse (text : String) : textOf text.toList.reverse = text := by
  rw [textOf, List.reverse_reverse, String.ofList_toList]

theorem leads_openName {tag : String} (named : IsTagName tag) :
    Leads ⟨⟨.data, draft, buffer, '<' :: (tag.toList ++ more)⟩, b⟩
      ⟨⟨.tagName, tagDraft false tag.toList.reverse [], buffer, more⟩, b⟩ := by
  obtain ⟨first, others, whole, small⟩ := named
  rw [List.forall_mem_cons] at small
  rw [whole, List.reverse_cons]
  exact ((leads_silent reads_bracket (by simp) b).trans
    (leads_silent (reads_startName small.1) (by simp) b)).trans (leads_name false others small.2 _)

theorem leads_closeName {tag : String} (named : IsTagName tag) :
    Leads ⟨⟨.data, draft, buffer, '<' :: '/' :: (tag.toList ++ more)⟩, b⟩
      ⟨⟨.tagName, tagDraft true tag.toList.reverse [], buffer, more⟩, b⟩ := by
  obtain ⟨first, others, whole, small⟩ := named
  rw [List.forall_mem_cons] at small
  rw [whole, List.reverse_cons]
  exact (((leads_silent reads_bracket (by simp) b).trans
    (leads_silent reads_solidus (by simp) b)).trans
      (leads_silent (reads_endName small.1) (by simp) b)).trans (leads_name true others small.2 _)

def isNameChar (c : Char) : Bool := isLower c || isNameMark c

theorem lower_of_isNameChar {c : Char} (named : isNameChar c = true) : lower c = c := by
  rcases Bool.or_eq_true_iff.mp named with letter | mark
  · exact lower_of_isLower letter
  · exact lower_of_isNameMark mark

theorem leads_attrName {name value : List Char} {attrs : List AttrDraft} (text : List Char) :
    ∀ done : List Char, (∀ c ∈ text, isNameChar c = true) →
      Leads ⟨⟨.attrName, tagDraft false name (⟨done, value⟩ :: attrs), buffer, text ++ '=' :: more⟩, b⟩
        ⟨⟨.attrName, tagDraft false name (⟨text.reverse ++ done, value⟩ :: attrs), buffer,
          '=' :: more⟩, b⟩ := by
  induction text using suffix_induction with
  | nil => exact fun done _ => Leads.refl _
  | cons c text ih =>
      intro done named
      rw [List.forall_mem_cons] at named
      rcases Bool.or_eq_true_iff.mp named.1 with letter | mark
      · have run := plain_run_eq isLetter text ('=' :: more) (by rintro d ⟨⟩; rfl)
        have onward := ih (text.dropWhile isLetter) (List.dropWhile_suffix _)
          ((c :: text.takeWhile isLetter).reverse ++ done)
          (fun d member => named.2 d ((List.dropWhile_sublist _).mem member))
        have whole : (c :: text).reverse ++ done =
            (text.dropWhile isLetter).reverse ++ ((c :: text.takeWhile isLetter).reverse ++ done) := by
          rw [← List.append_assoc, ← List.reverse_append, List.cons_append,
            List.takeWhile_append_dropWhile]
        rw [whole]
        refine Leads.trans ?_ onward
        rw [← run.1, ← run.2]
        exact leads_silent (reads_nameRun letter) (length_run_lt isLetter c _) b
      · have onward := ih text List.suffix_rfl (c :: done) named.2
        rw [List.reverse_cons, List.append_assoc, List.singleton_append]
        exact (leads_silent (reads_nameMark mark) (by simp) b).trans onward

theorem valueChar_cases (c : Char) : (∃ name, valueChar c = '&' :: name ∧ StandsFor name c) ∨
    valueChar c = [c] ∧ c ≠ '&' ∧ c ≠ '"' := by
  unfold valueChar
  split
  · next ampersand =>
    rw [ampersand]
    exact Or.inl ⟨_, rfl, standsFor_ampersand⟩
  · split
    · next quote =>
      rw [quote]
      exact Or.inl ⟨_, rfl, standsFor_quote⟩
    · next ampersand quote => exact Or.inr ⟨rfl, ampersand, quote⟩

theorem valueRun_eq (text more : List Char) (free : ∀ c ∈ text, c ≠ '\x00') :
    (text.flatMap valueChar ++ '"' :: more).takeWhile isPlainValue = text.takeWhile isPlainValue ∧
      (text.flatMap valueChar ++ '"' :: more).dropWhile isPlainValue =
        (text.dropWhile isPlainValue).flatMap valueChar ++ '"' :: more := by
  apply run_eq
  · intro c _ plain
    refine ⟨?_, plain⟩
    simp only [isPlainValue, Bool.and_eq_true, decide_eq_true_eq] at plain
    rw [valueChar, if_neg plain.1.2, if_neg plain.1.1]
  · intro c member special
    rcases valueChar_cases c with ⟨word, written, _⟩ | ⟨_, ampersand, quote⟩
    · exact ⟨'&', word, written, rfl⟩
    · simp only [isPlainValue, ampersand, quote, free c member, ne_eq, not_false_eq_true, decide_true,
        Bool.and_self] at special
      cases special
  · rintro d ⟨⟩
    rfl

theorem leads_attrValue {name done : List Char} {attrs : List AttrDraft} (text : List Char) :
    ∀ value : List Char, (∀ c ∈ text, c ≠ '\x00') →
      Leads ⟨⟨.quotedValue '"', tagDraft false name (⟨done, value⟩ :: attrs), buffer,
          text.flatMap valueChar ++ '"' :: more⟩, b⟩
        ⟨⟨.quotedValue '"', tagDraft false name (⟨done, text.reverse ++ value⟩ :: attrs), buffer,
          '"' :: more⟩, b⟩ := by
  induction text using suffix_induction with
  | nil => exact fun value _ => Leads.refl _
  | cons c text ih =>
      intro value free
      rw [List.forall_mem_cons] at free
      rcases valueChar_cases c with ⟨word, written, stands⟩ | ⟨written, ampersand, quote⟩
      · have onward := ih text List.suffix_rfl (c :: value) free.2
        rw [List.flatMap_cons, written, List.cons_append, List.cons_append, List.append_assoc,
          List.reverse_cons, List.append_assoc, List.singleton_append]
        exact (leads_silent (reads_valueReference stands) (length_word_lt _ _ _) b).trans onward
      · have plain : isPlainValue c = true := by
          simp only [isPlainValue, ampersand, quote, free.1, ne_eq, not_false_eq_true, decide_true,
            Bool.and_self]
        have run := valueRun_eq text more free.2
        have onward := ih (text.dropWhile isPlainValue) (List.dropWhile_suffix _)
          ((c :: text.takeWhile isPlainValue).reverse ++ value)
          (fun d member => free.2 d ((List.dropWhile_sublist _).mem member))
        have whole : (c :: text).reverse ++ value =
            (text.dropWhile isPlainValue).reverse ++
              ((c :: text.takeWhile isPlainValue).reverse ++ value) := by
          rw [← List.append_assoc, ← List.reverse_append, List.cons_append,
            List.takeWhile_append_dropWhile]
        rw [whole, List.flatMap_cons, written, List.singleton_append, List.cons_append]
        refine Leads.trans ?_ onward
        rw [← run.1, ← run.2]
        exact leads_silent (reads_valueRun plain) (length_run_lt isPlainValue c _) b

def draftOf (a : Attr) : AttrDraft := ⟨a.name.toList.reverse, a.value.toList.reverse⟩

theorem exists_nameChars {name : String} (named : IsAttrName name) : ∃ first others,
    name.toList = first :: others ∧ isLower first = true ∧ ∀ c ∈ others, isNameChar c = true := by
  obtain ⟨first, others, whole, letter, rest⟩ := named
  refine ⟨first, others, whole, letter, ?_⟩
  intro c member
  rcases rest c member with small | digit | rfl
  · rw [isNameChar, small, Bool.true_or]
  · rw [isNameChar, isNameMark, digit, Bool.true_or, Bool.or_true]
  · rfl

theorem leads_attr {name : List Char} {attrs : List AttrDraft} (a : Attr) (named : IsAttrName a.name)
    (free : ∀ c ∈ a.value.toList, c ≠ '\x00') (fresh : ∀ d ∈ attrs, d.name ≠ (draftOf a).name)
    (state : LexState) (gap : IsGap state) :
    Leads ⟨⟨state, tagDraft false name attrs, buffer,
        ' ' :: (a.name.toList ++ '=' :: '"' :: (writeValue a.value ++ '"' :: more))⟩, b⟩
      ⟨⟨.afterAttrValue, tagDraft false name (draftOf a :: attrs), buffer, more⟩, b⟩ := by
  obtain ⟨first, others, whole, letter, chars⟩ := exists_nameChars named
  have reversed : (draftOf a).name = others.reverse ++ [first] := by
    rw [draftOf, whole, List.reverse_cons]
  have small : (draftOf a).name.map lower = (draftOf a).name := by
    have same : ∀ c ∈ (draftOf a).name, lower c = id c := by
      intro c member
      rw [reversed, List.mem_append, List.mem_reverse, List.mem_singleton] at member
      rcases member with member | rfl
      · exact lower_of_isNameChar (chars c member)
      · exact lower_of_isLower letter
    rw [List.map_congr_left same, List.map_id]
  have value : (⟨others.reverse ++ [first], a.value.toList.reverse ++ []⟩ : AttrDraft) = draftOf a := by
    rw [← reversed, List.append_nil, draftOf]
  rw [whole, writeValue]
  calc
    Leads _ ⟨⟨.beforeAttrName, tagDraft false name attrs, buffer, _⟩, b⟩ :=
      leads_silent (reads_gap gap) (by simp) b
    Leads _ ⟨⟨.attrName, tagDraft false name (⟨[first], []⟩ :: attrs), buffer, _⟩, b⟩ :=
      leads_silent (reads_firstChar letter) (by simp) b
    Leads _ ⟨⟨.attrName, tagDraft false name (⟨others.reverse ++ [first], []⟩ :: attrs), buffer, _⟩, b⟩ :=
      leads_attrName others [first] chars
    Leads _ ⟨⟨.beforeAttrValue, tagDraft false name (⟨others.reverse ++ [first], []⟩ :: attrs), buffer,
        _⟩, b⟩ :=
      leads_silent (reads_equals (by rw [← reversed]; exact small) (by rw [← reversed]; exact fresh))
        (by simp) b
    Leads _ ⟨⟨.quotedValue '"', tagDraft false name (⟨others.reverse ++ [first], []⟩ :: attrs), buffer,
        _⟩, b⟩ :=
      leads_silent reads_openQuote (by simp) b
    Leads _ ⟨⟨.quotedValue '"', tagDraft false name (⟨others.reverse ++ [first],
        a.value.toList.reverse ++ []⟩ :: attrs), buffer, _⟩, b⟩ :=
      leads_attrValue a.value.toList [] free
    Leads _ ⟨⟨.afterAttrValue, tagDraft false name (draftOf a :: attrs), buffer, more⟩, b⟩ := by
      rw [value]
      exact leads_silent reads_closeQuote (by simp) b

theorem exists_leads_attrs {name : List Char} (attrs : List Attr) :
    ∀ (done : List AttrDraft) (state : LexState), IsGap state →
      (attrs.map (·.name)).Nodup → (∀ a ∈ attrs, IsAttrName a.name) →
      (∀ a ∈ attrs, ∀ c ∈ a.value.toList, c ≠ '\x00') →
      (∀ a ∈ attrs, ∀ d ∈ done, d.name ≠ (draftOf a).name) →
      ∃ last, IsGap last ∧
        Leads ⟨⟨state, tagDraft false name done, buffer, writeAttrs attrs ++ more⟩, b⟩
          ⟨⟨last, tagDraft false name ((attrs.map draftOf).reverse ++ done), buffer, more⟩, b⟩ := by
  induction attrs with
  | nil => exact fun done state gap _ _ _ _ => ⟨state, gap, Leads.refl _⟩
  | cons a attrs ih =>
      intro done state gap distinct named free fresh
      rw [List.map_cons, List.nodup_cons] at distinct
      rw [List.forall_mem_cons] at named free fresh
      have later : ∀ c ∈ attrs, ∀ d ∈ draftOf a :: done, d.name ≠ (draftOf c).name := by
        intro c member
        rw [List.forall_mem_cons]
        refine ⟨?_, fresh.2 c member⟩
        intro same
        have names : a.name = c.name := String.toList_inj.mp (List.reverse_injective same)
        exact distinct.1 (names ▸ List.mem_map_of_mem member)
      obtain ⟨last, ends, onward⟩ := ih (draftOf a :: done) .afterAttrValue (Or.inr rfl) distinct.2
        named.2 free.2 later
      refine ⟨last, ends, ?_⟩
      have first : Leads _ ⟨⟨.afterAttrValue, tagDraft false name (draftOf a :: done), buffer,
          writeAttrs attrs ++ more⟩, b⟩ := leads_attr a named.1 free.1 fresh.1 state gap
      rw [List.map_cons, List.reverse_cons, List.append_assoc, List.singleton_append, writeAttrs]
      simp only [List.cons_append, List.append_assoc] at first ⊢
      exact first.trans onward

theorem foldl_finish (attrs : List Attr) : ∀ done : List (String × String),
    (done.map (·.1) ++ attrs.map (·.name)).Nodup →
      attrs.foldl (fun done a => if done.any fun entry => entry.1 = a.name then done
        else done ++ [(a.name, a.value)]) done = done ++ attrs.map fun a => (a.name, a.value) := by
  induction attrs with
  | nil => exact fun done _ => (List.append_nil done).symm
  | cons a attrs ih =>
      intro done distinct
      have fresh : (done.any fun entry => decide (entry.1 = a.name)) = false := by
        rw [List.any_eq_false]
        intro entry member
        rw [decide_eq_true_eq]
        exact (List.nodup_append.mp distinct).2.2 entry.1 (List.mem_map_of_mem member) a.name
          List.mem_cons_self
      have grouped : ((done ++ [(a.name, a.value)]).map (·.1) ++ attrs.map (·.name)).Nodup := by
        rw [List.map_append, List.append_assoc]
        exact distinct
      rw [List.foldl_cons, fresh, if_neg Bool.false_ne_true, ih _ grouped, List.append_assoc]
      rfl

theorem finishAttrs_eq (attrs : List Attr) (distinct : (attrs.map (·.name)).Nodup) :
    Lexer.finishAttrs (attrs.map draftOf).reverse = attrs.map fun a => (a.name, a.value) := by
  rw [Lexer.finishAttrs, List.reverse_reverse, List.foldl_map]
  simp only [draftOf, textOf_reverse]
  exact foldl_finish attrs [] distinct

theorem leads_startTag {tag : String} (named : IsTagName tag) {attrs : List Attr}
    (listed : StableAttrs attrs) {kind : Option TextKind} {next : Builder}
    (turns : b.Turns (.startTag ⟨tag, attrs.map fun a => (a.name, a.value), false⟩) kind next) :
    Leads ⟨⟨.data, draft, buffer, startMarkup tag attrs ++ more⟩, b⟩
      ⟨⟨(kind.map TextKind.state).getD .data, tagDraft false tag.toList.reverse (attrs.map draftOf).reverse, buffer, more⟩,
        next⟩ := by
  obtain ⟨last, gap, through⟩ : ∃ last, IsGap last ∧
      Leads ⟨⟨.tagName, tagDraft false tag.toList.reverse [], buffer, writeAttrs attrs ++ '>' :: more⟩, b⟩
        ⟨⟨last, tagDraft false tag.toList.reverse ((attrs.map draftOf).reverse ++ []), buffer,
          '>' :: more⟩, b⟩ :=
    exists_leads_attrs attrs [] .tagName (Or.inl rfl) listed.distinct listed.names
      (fun a member c inside => (listed.values a member c inside).1) fun _ _ _ absurd => nomatch absurd
  have finished : Reads ⟨last, tagDraft false tag.toList.reverse (attrs.map draftOf).reverse, buffer,
      '>' :: more⟩ [finishedTag false tag.toList.reverse (attrs.map draftOf).reverse]
      ⟨.data, tagDraft false tag.toList.reverse (attrs.map draftOf).reverse, buffer, more⟩ :=
    reads_tagEnd gap named.small fun absurd => nomatch absurd
  rw [finishedTag, if_neg Bool.false_ne_true, textOf_reverse, finishAttrs_eq attrs listed.distinct]
    at finished
  have split : startMarkup tag attrs ++ more =
      '<' :: (tag.toList ++ (writeAttrs attrs ++ '>' :: more)) := by
    rw [startMarkup]
    simp only [List.cons_append, List.append_assoc, List.nil_append]
  rw [List.append_nil] at through
  rw [split]
  exact ((leads_openName named).trans through).trans (leads_turn finished (by simp) turns)

theorem leads_endTag {tag : String} (named : IsTagName tag) {next : Builder}
    (turns : b.Turns (.endTag tag) none next) :
    Leads ⟨⟨.data, draft, buffer, endMarkup tag ++ more⟩, b⟩
      ⟨⟨.data, tagDraft true tag.toList.reverse [], buffer, more⟩, next⟩ := by
  have finished : Reads ⟨.tagName, tagDraft true tag.toList.reverse [], buffer, '>' :: more⟩
      [finishedTag true tag.toList.reverse []]
      ⟨.data, tagDraft true tag.toList.reverse [], buffer, more⟩ :=
    reads_tagEnd (Or.inl rfl) named.small fun _ => rfl
  rw [finishedTag, if_pos rfl, textOf_reverse] at finished
  have split : endMarkup tag ++ more = '<' :: '/' :: (tag.toList ++ '>' :: more) := by
    rw [endMarkup]
    simp only [List.cons_append, List.append_assoc, List.nil_append]
  rw [split]
  exact (leads_closeName named).trans (leads_turn finished (by simp) turns)

theorem leads_rawName {kind : RawKind} (text : List Char) (small : ∀ c ∈ text, isLower c = true) :
    ∀ name, Leads ⟨⟨.rawEndTagName kind, draft, name, text ++ more⟩, b⟩
      ⟨⟨.rawEndTagName kind, draft, text.reverse ++ name, more⟩, b⟩ := by
  induction text with
  | nil => exact fun name => Leads.refl _
  | cons c text ih =>
      intro name
      rw [List.forall_mem_cons] at small
      rw [List.reverse_cons, List.append_assoc, List.singleton_append]
      exact (leads_silent (reads_rawEndChar small.1) (by simp) b).trans (ih small.2 (c :: name))

theorem leads_rawEnd {kind : RawKind} (isRaw : IsRawKind kind) {tag : String} (named : IsTagName tag)
    {isEnd : Bool} {attrs : List AttrDraft} {next : Builder} (turns : b.Turns (.endTag tag) none next) :
    Leads ⟨⟨Lexer.RawKind.home kind, tagDraft isEnd tag.toList.reverse attrs, buffer,
        endMarkup tag ++ more⟩, b⟩
      ⟨⟨.data, tagDraft true tag.toList.reverse [], tag.toList.reverse, more⟩, next⟩ := by
  have finished : Reads ⟨.rawEndTagName kind, tagDraft isEnd tag.toList.reverse attrs,
      tag.toList.reverse, '>' :: more⟩ [.endTag (textOf tag.toList.reverse)]
      ⟨.data, tagDraft true tag.toList.reverse [], tag.toList.reverse, more⟩ :=
    reads_rawEnd named.small
  rw [textOf_reverse] at finished
  have split : endMarkup tag ++ more = '<' :: '/' :: (tag.toList ++ '>' :: more) := by
    rw [endMarkup]
    simp only [List.cons_append, List.append_assoc, List.nil_append]
  have through : Leads ⟨⟨Lexer.RawKind.home kind, tagDraft isEnd tag.toList.reverse attrs, buffer,
        endMarkup tag ++ more⟩, b⟩
      ⟨⟨.rawEndTagName kind, tagDraft isEnd tag.toList.reverse attrs, tag.toList.reverse,
        '>' :: more⟩, b⟩ := by
    obtain ⟨first, others, whole, small⟩ := named
    rw [List.forall_mem_cons] at small
    rw [split, whole, List.reverse_cons]
    exact (((leads_silent (reads_rawBracket isRaw) (by simp) b).trans
      (leads_silent reads_rawSolidus (by simp) b)).trans
        (leads_silent (reads_rawEndFirst small.1) (by simp) b)).trans
          (leads_rawName others small.2 [first])
  exact through.trans (leads_turn finished (by simp) turns)

end Tags

section Comments

variable {draft : Draft} {buffer more : List Char} {b : Builder}

theorem leads_commentText (text : List Char) : ∀ done : List Char, (∀ c ∈ text, c ≠ '\x00') →
    ¬ ['-', '-'] <:+: text → ¬ ['-'] <:+ text →
      Leads ⟨⟨.comment, .comment done, buffer, text ++ '-' :: '-' :: '>' :: more⟩, b⟩
        ⟨⟨.commentEnd, .comment (text.reverse ++ done), buffer, '>' :: more⟩, b⟩ := by
  -- A dash is read together with the character behind it, a run of others at once, so the induction is
  -- over all suffixes.
  induction text using suffix_induction with
  | nil =>
      intro done _ _ _
      exact (leads_silent reads_commentDash (by simp) b).trans
        (leads_silent reads_commentDashes (by simp) b)
  | cons c text ih =>
      intro done free dashes last
      rw [List.forall_mem_cons] at free
      have within : ∀ others, others <:+ text → ¬ ['-', '-'] <:+: others ∧ ¬ ['-'] <:+ others := by
        intro others ends
        have whole := ends.trans (List.suffix_cons c text)
        exact ⟨fun inside => dashes (inside.trans whole.isInfix), fun inside => last (inside.trans whole)⟩
      by_cases dash : c = '-'
      · subst dash
        cases text with
        | nil => exact absurd List.suffix_rfl last
        | cons d text =>
            have other : d ≠ '-' := by
              rintro rfl
              exact dashes (List.prefix_append ['-', '-'] text).isInfix
            obtain ⟨apart, ends⟩ := within text (List.suffix_cons d text)
            have onward := ih text (List.suffix_cons d text) (d :: '-' :: done)
              (fun e member => free.2 e (List.mem_cons_of_mem d member)) apart ends
            rw [List.reverse_cons, List.reverse_cons, List.append_assoc, List.append_assoc]
            exact ((leads_silent reads_commentDash (by simp) b).trans
              (leads_silent (reads_commentOn other (free.2 d List.mem_cons_self)) (by simp) b)).trans
                onward
      · have plain : isPlainComment c = true := by
          simp only [isPlainComment, dash, free.1, ne_eq, not_false_eq_true, decide_true, Bool.and_self]
        have run := plain_run_eq isPlainComment text ('-' :: '-' :: '>' :: more) (by rintro d ⟨⟩; rfl)
        obtain ⟨apart, ends⟩ := within _ (List.dropWhile_suffix isPlainComment)
        have onward := ih (text.dropWhile isPlainComment) (List.dropWhile_suffix _)
          ((c :: text.takeWhile isPlainComment).reverse ++ done)
          (fun d member => free.2 d ((List.dropWhile_sublist _).mem member)) apart ends
        have whole : (c :: text).reverse ++ done = (text.dropWhile isPlainComment).reverse ++
            ((c :: text.takeWhile isPlainComment).reverse ++ done) := by
          rw [← List.append_assoc, ← List.reverse_append, List.cons_append,
            List.takeWhile_append_dropWhile]
        rw [whole]
        refine Leads.trans ?_ onward
        rw [← run.1, ← run.2]
        exact leads_silent (reads_commentRun plain) (length_run_lt isPlainComment c _) b

theorem leads_comment {data : String} (quiet : StableComment data) {next : Builder}
    (turns : b.Turns (.comment data) none next) :
    Leads ⟨⟨.data, draft, buffer, commentMarkup data ++ more⟩, b⟩
      ⟨⟨.data, .comment data.toList.reverse, buffer, more⟩, next⟩ := by
  have opened : Leads ⟨⟨.data, draft, buffer, commentMarkup data ++ more⟩, b⟩
      ⟨⟨.commentStart, .comment [], buffer, data.toList ++ '-' :: '-' :: '>' :: more⟩, b⟩ := by
    rw [commentMarkup]
    simp only [List.cons_append, List.append_assoc, List.nil_append]
    exact ((leads_silent reads_bracket (by simp) b).trans (leads_silent reads_bang (by simp) b)).trans
      (leads_silent reads_openComment (Nat.lt_succ_of_lt (Nat.lt_succ_self _)) b)
  have through : Leads ⟨⟨.commentStart, .comment [], buffer, data.toList ++ '-' :: '-' :: '>' :: more⟩, b⟩
      ⟨⟨.commentEnd, .comment data.toList.reverse, buffer, '>' :: more⟩, b⟩ := by
    obtain ⟨intact, dashes, first, last⟩ := quiet
    rw [Markup.Intact] at intact
    cases whole : data.toList with
    | nil =>
        exact (leads_silent reads_commentStartDash (by simp) b).trans
          (leads_silent reads_commentStartEnd (by simp) b)
    | cons c text =>
        rw [whole] at intact dashes first last
        rw [List.forall_mem_cons] at intact
        have dash : c ≠ '-' := by
          rintro rfl
          exact first.1 (List.prefix_append ['-'] text)
        have bracket : c ≠ '>' := by
          rintro rfl
          exact first.2 (List.prefix_append ['>'] text)
        rw [List.reverse_cons]
        exact (leads_silent (reads_commentFirst dash bracket intact.1.1) (by simp) b).trans
          (leads_commentText text [c] (fun d member => (intact.2 d member).1)
            (fun inside => dashes (inside.trans (List.suffix_cons c text).isInfix))
            (fun ends => last (ends.trans (List.suffix_cons c text))))
  have finished : Reads ⟨.commentEnd, .comment data.toList.reverse, buffer, '>' :: more⟩ [.comment data]
      ⟨.data, .comment data.toList.reverse, buffer, more⟩ := by
    have closed : Reads ⟨.commentEnd, .comment data.toList.reverse, buffer, '>' :: more⟩
        [.comment (textOf data.toList.reverse)]
        ⟨.data, .comment data.toList.reverse, buffer, more⟩ := reads_closeComment
    rwa [textOf_reverse] at closed
  exact (opened.trans through).trans (leads_turn finished (by simp) turns)

end Comments

end HtmlTree.Html
