import HtmlTree.Proofs.Html.Reading

/-! What a lexer keeps to over many steps: it reads on in one text, in certain states, with certain
tokens put out and a certain token under construction. -/

namespace HtmlTree.Html

structure Regime where
  text : List Char
  admits : Token → Bool
  states : LexState → Bool
  drafts : Draft → Prop

/-- A lexer keeps to a regime, and so it does with what it has read last put back. -/
structure Under (g : Regime) (held : List Char) (l : Lexer) : Prop where
  rest : held ++ l.input.rest <:+ g.text
  out : ∀ t, Item.token t ∈ l.out → g.admits t = true
  state : g.states l.state = true
  draft : g.drafts l.draft

namespace Under

variable {g : Regime} {held : List Char} {l : Lexer} {c : Option Char}

theorem weaken (h : Under g held l) : Under g [] l :=
  { h with rest := (List.suffix_append held l.input.rest).trans h.rest }

theorem drop {before : List Char} (h : Under g (before ++ held) l) : Under g held l := by
  have rest := h.rest
  rw [List.append_assoc] at rest
  exact { h with rest := (List.suffix_append before (held ++ l.input.rest)).trans rest }

theorem onward (h : Under g held l) {i : Input} (rest : held ++ i.rest <:+ held ++ l.input.rest) :
    Under g held { l with input := i } :=
  ⟨rest.trans h.rest, h.out, h.state, h.draft⟩

@[grind ←]
theorem fault (h : Under g held l) (f : Fault) : Under g held (l.fault f) := by
  refine ⟨h.rest, fun t inside => h.out t ?_, h.state, h.draft⟩
  rcases List.mem_cons.mp inside with absurd | inside
  · cases absurd
  · exact inside

theorem put (h : Under g held l) {t : Token} (admitted : g.admits t = true) :
    Under g held (l.put t) := by
  refine ⟨h.rest, fun u inside => ?_, h.state, h.draft⟩
  rcases List.mem_cons.mp inside with same | inside
  · cases same
    exact admitted
  · exact h.out u inside

theorem goto (h : Under g held l) {state : LexState} (known : g.states state = true) :
    Under g held (l.goto state) :=
  ⟨h.rest, h.out, known, h.draft⟩

theorem read (h : Under g held l) : ∃ c m, l.read = (c, m) ∧ Under g (held ++ c.toList) m ∧
    (c = none → m.input.rest = []) := by
  cases left : l.input.rest with
  | nil =>
      refine ⟨l.input.read.1, _, rfl, ?_, fun _ => ?_⟩
      · have none := Input.read_of_end left
        have rest := l.input.rest_read
        rw [left] at rest
        refine ⟨?_, h.out, h.state, h.draft⟩
        have kept := h.rest
        rw [left] at kept
        change (held ++ l.input.read.1.toList) ++ l.input.read.2.rest <:+ g.text
        rw [none, rest]
        simpa using kept
      · have rest := l.input.rest_read
        rw [left] at rest
        exact rest
  | cons c rest =>
      obtain ⟨i, read, after⟩ := Input.exists_read left
      refine ⟨some c, { l with input := i }, by rw [Lexer.read, read], ?_, fun absurd => by cases absurd⟩
      refine ⟨?_, h.out, h.state, h.draft⟩
      have kept := h.rest
      rw [left] at kept
      change (held ++ [c]) ++ i.rest <:+ g.text
      rwa [after, List.append_assoc]

@[grind ←]
theorem unread (h : Under g (held ++ c.toList) l) : Under g held (l.unread c) := by
  have rest := h.rest
  rw [List.append_assoc] at rest
  cases c with
  | none => exact ⟨rest, h.out, h.state, h.draft⟩
  | some c => exact ⟨rest, h.out, h.state, h.draft⟩

theorem unread_all (done : List (Option Char)) : ∀ {held : List Char} {l : Lexer},
    Under g (held ++ done.reverse.flatMap Option.toList) l → Under g held (done.foldl Lexer.unread l) := by
  induction done with
  | nil =>
      intro held l h
      simpa using h
  | cons c done ih =>
      intro held l h
      rw [List.reverse_cons, List.flatMap_append, List.flatMap_singleton, ← List.append_assoc] at h
      exact ih h.unread

@[grind ←]
theorem readWhile (h : Under g [] l) (p : Char → Bool) : Under g [] (l.readWhile p).2 := by
  obtain ⟨i, read, rest⟩ := Input.exists_readWhile (rfl : l.input.rest = l.input.rest) p
  rw [Lexer.readWhile, read]
  apply h.onward
  rw [rest]
  exact List.dropWhile_suffix p

theorem skip (h : Under g [] l) (n : Nat) : Under g [] (Lexer.skip n l) := by
  obtain ⟨i, skipped, rest⟩ := exists_skip n l
  rw [skipped]
  apply h.onward
  rw [rest]
  exact List.drop_suffix n l.input.rest

theorem peek (h : Under g [] l) : Under g [] l.peek.2 := by
  obtain ⟨i, peeked, rest⟩ := exists_peek l
  have same : [] ++ i.rest = [] ++ l.input.rest := congrArg ([] ++ ·) rest
  rw [peeked]
  exact h.onward (same ▸ List.suffix_rfl)

section References

theorem numberReference (h : Under g [] l) (base : Nat) (isDigitOf : Char → Bool) :
    Under g [] (l.numberReference base isDigitOf).2 := by
  obtain ⟨c, m, read, onward, _⟩ := (h.skip (l.input.rest.takeWhile isDigitOf).length).read
  simp only [Lexer.numberReference, read]
  generalize (Reference.ofNumber (Text.readDigits base (l.input.rest.takeWhile isDigitOf))).2 = fault
  cases fault with
  | none =>
      split
      · exact onward.weaken
      · exact (onward.fault _).unread
  | some f =>
      split
      · exact (onward.fault f).weaken
      · exact ((onward.fault f).fault _).unread

theorem noNumber (h : Under g c.toList l) (text : List Char) : Under g [] (l.noNumber c text).2 :=
  (h.fault .expectedNumber).unread

theorem signedReference (h : Under g [] l) : Under g [] l.signedReference.2 := by
  obtain ⟨c, m, read, first, _⟩ := h.read
  simp only [Lexer.signedReference, read]
  split
  · obtain ⟨d, n, read, second, _⟩ := first.weaken.read
    simp only [read]
    split
    · exact second.unread.numberReference 16 _
    · exact second.noNumber _
  · split
    · exact first.unread.numberReference 10 _
    · exact first.noNumber _

theorem namedReference (h : Under g [] l) (inAttr : Bool) :
    Under g [] (l.namedReference inAttr).2 := by
  have passed := (h.skip (Reference.scan l.input.rest).length).peek
  rw [Lexer.namedReference]
  dsimp only
  split
  · exact passed.fault _
  · split
    · split
      · exact passed
      · exact passed.fault _
    · split
      · exact passed
      · exact passed.fault _

theorem reference (h : Under g [] l) (stop : Option Char) (inAttr : Bool) :
    Under g [] (l.reference stop inAttr).2 := by
  obtain ⟨c, m, read, onward, _⟩ := h.read
  simp only [Lexer.reference, read]
  split
  · exact onward.weaken
  · exact onward.weaken.signedReference
  · split
    · exact onward.unread
    · exact onward.unread.namedReference inAttr

end References

end Under

end HtmlTree.Html
