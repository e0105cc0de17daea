import HtmlTree.Html.Parser
import HtmlTree.Proofs.Html.Reading

/-! Stretches of a parse that only reports its faults. Where the parse is in the text and what it
has reported so far decide nothing about how it goes on. -/

namespace HtmlTree.Html

/-- A parse apart from its place in the text and from its reports. -/
structure View where
  reading : Reading
  builder : Builder

/-- A parse under way that stops at no fault. -/
def View.Shows (v : View) (p : Parse) : Prop :=
  ∃ i reports, i.rest = v.reading.rest ∧
    p = ⟨false, none, ⟨v.reading.state, i, v.reading.draft, v.reading.buffer, []⟩, v.builder,
      reports, none⟩

/-- Every parse at one point comes to the other, in at most two rounds for each character. -/
def Leads (v w : View) : Prop :=
  ∃ rounds, rounds + 2 * w.reading.rest.length ≤ 2 * v.reading.rest.length ∧
    ∀ p, v.Shows p → ∃ q, w.Shows q ∧ ∀ fuel, Parse.run (fuel + rounds) p = Parse.run fuel q

theorem Leads.refl (v : View) : Leads v v :=
  ⟨0, by omega, fun p shown => ⟨p, shown, fun _ => rfl⟩⟩

theorem Leads.trans {u v w : View} (first : Leads u v) (second : Leads v w) : Leads u w := by
  obtain ⟨m, few, onward⟩ := first
  obtain ⟨n, fewer, further⟩ := second
  refine ⟨n + m, by omega, ?_⟩
  intro p shown
  obtain ⟨q, between, same⟩ := onward p shown
  obtain ⟨r, last, alike⟩ := further q between
  refine ⟨r, last, ?_⟩
  intro fuel
  rw [← Nat.add_assoc, same, alike]

instance : Trans Leads Leads Leads where
  trans := Leads.trans

namespace Builder

def cleared (b : Builder) : Builder := { b with faults := [], lexerState := none, declaration := none }

end Builder

namespace Parse

theorem exists_report (l : Lexer) (b : Builder) (faults : List Fault) : ∀ reports, ∃ others,
    faults.foldl report ⟨false, none, l, b, reports, none⟩ = ⟨false, none, l, b, others, none⟩ := by
  induction faults with
  | nil => exact fun reports => ⟨reports, rfl⟩
  | cons f faults ih => exact fun reports => ih _

theorem exists_settle (l : Lexer) (b : Builder) (reports : List Report)
    (holds : b.collapse = none) : ∃ others,
    settle ⟨false, none, l, b, reports, none⟩ =
      ⟨false, none, l.goto ((b.lexerState.map TextKind.state).getD l.state), b.cleared, others, none⟩ := by
  obtain ⟨others, reported⟩ := exists_report l { b with faults := [] } b.faults.reverse reports
  refine ⟨others, ?_⟩
  rw [settle]
  simp only [reported]
  simp only [holds, redeclare, Builder.cleared]
  cases b.lexerState with
  | none => rfl
  | some state => rfl

theorem exists_take_faults (l : Lexer) (b : Builder) (f : Fault) (n : Nat) : ∀ reports, ∃ others,
    (List.replicate n (Item.fault f)).foldl take ⟨false, none, l, b, reports, none⟩ =
      ⟨false, none, l, b, others, none⟩ := by
  induction n with
  | zero => exact fun reports => ⟨reports, rfl⟩
  | succ n ih => exact fun reports => ih _

theorem exists_round {r q : Reading} {out : List Token} (reads : Reads r out q) (b : Builder)
    (p : Parse) (shown : View.Shows ⟨r, b⟩ p) : ∃ (j : Input) (reports : List Report),
      j.rest = q.rest ∧ ∀ fuel, run (fuel + 1) p = run fuel ((out.map Item.token).foldl take
        ⟨false, none, ⟨q.state, j, q.draft, q.buffer, []⟩, b, reports, none⟩) := by
  obtain ⟨i, reports, left, rfl⟩ := shown
  obtain ⟨j, after, stepped⟩ := reads (inForeign ⟨false, none, ⟨r.state, i, r.draft, r.buffer, []⟩, b,
    reports, none⟩) i left
  obtain ⟨others, reported⟩ := exists_take_faults
    ⟨q.state, { j with alerts := 0 }, q.draft, q.buffer, []⟩ b .invalidCodepoint j.alerts reports
  refine ⟨{ j with alerts := 0 }, others, after, ?_⟩
  intro fuel
  rw [run]
  simp only [Option.isSome_none, Bool.false_eq_true, if_false, stepped, Lexer.drain,
    List.reverse_reverse, List.foldl_append, reported]

end Parse

theorem leads_silent {r q : Reading} (reads : Reads r [] q) (shorter : q.rest.length < r.rest.length)
    (b : Builder) : Leads ⟨r, b⟩ ⟨q, b⟩ := by
  refine ⟨1, by simp only; omega, ?_⟩
  intro p shown
  obtain ⟨j, reports, after, same⟩ := Parse.exists_round reads b p shown
  exact ⟨_, ⟨j, reports, after, rfl⟩, same⟩

def View.after (q : Reading) (b : Builder) : View :=
  ⟨{ q with state := (b.lexerState.map TextKind.state).getD q.state }, b.cleared⟩

theorem exists_token_round {r q : Reading} {t : Token} (reads : Reads r [t] q) (b : Builder)
    (holds : (b.step t).collapse = none) (p : Parse) (shown : View.Shows ⟨r, b⟩ p) :
    ∃ p', (View.after q (b.step t)).Shows p' ∧
      ∀ fuel, Parse.run (fuel + 1) p = Parse.run fuel p' := by
  obtain ⟨j, reports, after, same⟩ := Parse.exists_round reads b p shown
  obtain ⟨others, settled⟩ := Parse.exists_settle ⟨q.state, j, q.draft, q.buffer, []⟩ (b.step t)
    reports holds
  refine ⟨_, ⟨j, others, after, ?_⟩, same⟩
  exact settled

theorem leads_token {r q : Reading} {t : Token} (reads : Reads r [t] q)
    (shorter : q.rest.length < r.rest.length) (b : Builder) (holds : (b.step t).collapse = none) :
    Leads ⟨r, b⟩ (View.after q (b.step t)) := by
  refine ⟨1, by simp only [View.after]; omega, ?_⟩
  intro p shown
  exact exists_token_round reads b holds p shown

/-- Two rounds of which only the first gets on in the text. -/
theorem leads_back {r m q : Reading} {t : Token} (first : Reads r [] m) (second : Reads m [t] q)
    (shorter : m.rest.length < r.rest.length) (same : q.rest.length = m.rest.length) (b : Builder)
    (holds : (b.step t).collapse = none) : Leads ⟨r, b⟩ (View.after q (b.step t)) := by
  refine ⟨2, by simp only [View.after]; omega, ?_⟩
  intro p shown
  obtain ⟨j, reports, after, once⟩ := Parse.exists_round first b p shown
  obtain ⟨p', last, twice⟩ := exists_token_round second b holds _ ⟨j, reports, after, rfl⟩
  exact ⟨p', last, fun fuel => (once (fuel + 1)).trans (twice fuel)⟩

end HtmlTree.Html
