import HtmlTree.Parse
import Mathlib.Data.List.Basic

/-! Two parses of one text, of which one stops at the first fault and the other goes on. -/

namespace HtmlTree.Html.Parse

def proceed (b : Builder) (p : Parse) : Parse :=
  if p.ending.isSome then p
  else
    match b.collapse with
    | some c => { p with ending := some (.collapsed c) }
    | none =>
      let p := p.redeclare
      let lexer :=
        match b.lexerState with
        | some kind => p.lexer.goto kind.state
        | none => p.lexer
      { p with lexer, builder := { p.builder with lexerState := none, declaration := none } }

theorem settle_eq (p : Parse) : p.settle = proceed p.builder
    (p.builder.faults.reverse.foldl report { p with builder := { p.builder with faults := [] } }) :=
  rfl

section Reports

/-! No report is taken back. -/

theorem reports_report (p : Parse) (f : Fault) : p.reports <:+ (p.report f).reports := by
  rw [report]
  split
  · exact List.suffix_rfl
  · exact List.suffix_cons _ _

theorem reports_foldl_report (faults : List Fault) :
    ∀ p : Parse, p.reports <:+ (faults.foldl report p).reports := by
  induction faults with
  | nil => exact fun p => List.suffix_rfl
  | cons f faults ih => exact fun p => (reports_report p f).trans (ih (p.report f))

theorem reports_redeclare (p : Parse) : p.redeclare.reports = p.reports := by
  unfold redeclare
  repeat' split
  all_goals rfl

theorem reports_proceed (b : Builder) (p : Parse) : (proceed b p).reports = p.reports := by
  unfold proceed
  split
  · rfl
  · split
    · rfl
    · exact reports_redeclare p

theorem reports_settle (p : Parse) : p.reports <:+ p.settle.reports := by
  rw [settle_eq, reports_proceed]
  exact reports_foldl_report p.builder.faults.reverse
    { p with builder := { p.builder with faults := [] } }

theorem reports_take (p : Parse) (item : Item) : p.reports <:+ (p.take item).reports := by
  unfold take
  split
  · exact List.suffix_rfl
  · cases item with
    | fault f => exact reports_report p f
    | token t => exact reports_settle { p with builder := p.builder.step t }

theorem reports_foldl_take (items : List Item) :
    ∀ p : Parse, p.reports <:+ (items.foldl take p).reports := by
  induction items with
  | nil => exact fun p => List.suffix_rfl
  | cons item items ih => exact fun p => (reports_take p item).trans (ih (p.take item))

theorem reports_finish (p : Parse) : p.reports <:+ p.finish.reports := by
  have settled := reports_settle { p with builder := p.builder.finish }
  unfold finish
  dsimp only
  split
  · exact settled
  · exact settled

theorem reports_run (fuel : Nat) : ∀ p : Parse, p.reports <:+ (run fuel p).reports := by
  induction fuel with
  | zero => exact reports_finish
  | succ fuel ih =>
      intro p
      rw [run]
      split
      · exact List.suffix_rfl
      · split
        · exact reports_finish p
        · next lexer _ =>
          have taken := reports_foldl_take lexer.drain.1 { p with lexer := lexer.drain.2 }
          exact taken.trans (ih _)

end Reports

section Ended

/-! A parse that has ended stays as it is. -/

variable {p : Parse} (stopped : p.ending.isSome = true)

include stopped

theorem report_of_ended (f : Fault) : p.report f = p := by
  rw [report, if_pos stopped]

theorem foldl_report_of_ended (faults : List Fault) : faults.foldl report p = p := by
  induction faults with
  | nil => rfl
  | cons f faults ih => rw [List.foldl_cons, report_of_ended stopped, ih]

theorem settle_of_ended : p.settle = { p with builder := { p.builder with faults := [] } } := by
  have still := foldl_report_of_ended (p := { p with builder := { p.builder with faults := [] } })
    stopped p.builder.faults.reverse
  rw [settle_eq, still, proceed, if_pos stopped]

theorem take_of_ended (item : Item) : p.take item = p := by
  unfold take
  exact if_pos stopped

theorem finish_of_ended :
    p.finish = { p with builder := { p.builder.finish with faults := [] } } := by
  have settled := settle_of_ended (p := { p with builder := p.builder.finish }) stopped
  unfold finish
  rw [settled]
  exact if_pos stopped

theorem run_of_ended (fuel : Nat) :
    (run fuel p).ending = p.ending ∧ (run fuel p).reports = p.reports := by
  cases fuel with
  | zero =>
      rw [run, finish_of_ended stopped]
      exact ⟨rfl, rfl⟩
  | succ fuel =>
      rw [run, if_pos stopped]
      exact ⟨rfl, rfl⟩

end Ended

/-- The second parse is the first one as long as that has reported nothing; at the first report the
second one was refused, and it holds that report alone. -/
inductive Cut (p : Parse) : Parse → Prop
  | whole (goesOn : p.strict = false) (silent : p.reports = []) : Cut p { p with strict := true }
  | broken (q : Parse) (first : Report) (earliest : p.reports.getLast? = some first)
      (refused : q.ending = some (.refused first.fault)) (alone : q.reports = [first]) : Cut p q

theorem getLast?_of_suffix {α : Type} {a : α} {short long : List α} (suffix : short <:+ long)
    (last : short.getLast? = some a) : long.getLast? = some a := by
  obtain ⟨before, rfl⟩ := suffix
  rw [List.getLast?_append, last, Option.some_or]

/-- Where one parse was refused, the other one may go on with anything that takes no report back. -/
theorem Cut.onward {p q p' q' : Parse} {first : Report} (earliest : p.reports.getLast? = some first)
    (refused : q.ending = some (.refused first.fault)) (alone : q.reports = [first])
    (kept : p.reports <:+ p'.reports) (ending : q'.ending = q.ending)
    (reports : q'.reports = q.reports) : Cut p' q' :=
  .broken q' first (getLast?_of_suffix kept earliest) (ending.trans refused) (reports.trans alone)

theorem ended_of_refused {q : Parse} {f : Fault} (refused : q.ending = some (.refused f)) :
    q.ending.isSome = true := by
  rw [refused, Option.isSome_some]

theorem Cut.report {p q : Parse} (cut : Cut p q) (f : Fault) : Cut (p.report f) (q.report f) := by
  cases cut with
  | whole goesOn silent =>
      cases stopped : p.ending.isSome with
      | true =>
          rw [report_of_ended stopped, report_of_ended (p := { p with strict := true }) stopped]
          exact .whole goesOn silent
      | false =>
          have lenient : p.report f = { p with
              reports := [⟨p.lexer.input.position, f⟩]
              ending := none } := by
            simp only [Parse.report, stopped, goesOn, silent, Bool.false_eq_true, if_false]
          have strict : Parse.report { p with strict := true } f = { p with
              strict := true
              reports := [⟨p.lexer.input.position, f⟩]
              ending := some (.refused f) } := by
            simp only [Parse.report, stopped, silent, Bool.false_eq_true, if_false, if_true]
          rw [lenient, strict]
          exact .broken _ ⟨p.lexer.input.position, f⟩ rfl rfl rfl
  | broken _ first earliest refused alone =>
      rw [report_of_ended (ended_of_refused refused)]
      exact .onward earliest refused alone (reports_report p f) rfl rfl

theorem Cut.foldl_report (faults : List Fault) : ∀ {p q : Parse}, Cut p q →
    Cut (faults.foldl Parse.report p) (faults.foldl Parse.report q) := by
  induction faults with
  | nil => exact fun cut => cut
  | cons f faults ih => exact fun cut => ih (cut.report f)

theorem redeclare_strict (p : Parse) (strict : Bool) :
    redeclare { p with strict } = { p.redeclare with strict } := by
  unfold redeclare
  dsimp only
  repeat' split
  all_goals rfl

theorem proceed_strict (b : Builder) (p : Parse) (strict : Bool) :
    proceed b { p with strict } = { proceed b p with strict } := by
  unfold proceed
  simp only [redeclare_strict]
  repeat' split
  all_goals rfl

theorem strict_proceed (b : Builder) (p : Parse) : (proceed b p).strict = p.strict := by
  calc
    (proceed b p).strict = ({ proceed b p with strict := p.strict } : Parse).strict :=
      congrArg Parse.strict (proceed_strict b p p.strict)
    _ = p.strict := rfl

theorem Cut.proceed {p q : Parse} (cut : Cut p q) (b c : Builder) (same : p.reports = [] → b = c) :
    Cut (proceed b p) (proceed c q) := by
  cases cut with
  | whole goesOn silent =>
      rw [← same silent, proceed_strict b p true]
      exact .whole ((strict_proceed b p).trans goesOn) ((reports_proceed b p).trans silent)
  | broken _ first earliest refused alone =>
      have still : Parse.proceed c q = q := if_pos (ended_of_refused refused)
      have kept : p.reports <:+ (Parse.proceed b p).reports := by
        simp [reports_proceed]
      rw [still]
      exact .onward earliest refused alone kept rfl rfl

theorem Cut.settle {p q : Parse} (cut : Cut p q) : Cut p.settle q.settle := by
  cases cut with
  | whole goesOn silent =>
      have start : Cut { p with builder := { p.builder with faults := [] } }
          { p with strict := true, builder := { p.builder with faults := [] } } :=
        .whole goesOn silent
      have reported := start.foldl_report p.builder.faults.reverse
      rw [settle_eq, settle_eq]
      exact reported.proceed p.builder p.builder fun _ => rfl
  | broken _ first earliest refused alone =>
      rw [settle_of_ended (ended_of_refused refused)]
      exact .onward earliest refused alone (reports_settle p) rfl rfl

theorem Cut.take {p q : Parse} (cut : Cut p q) (item : Item) : Cut (p.take item) (q.take item) := by
  cases cut with
  | whole goesOn silent =>
      have same : Cut p { p with strict := true } := .whole goesOn silent
      unfold Parse.take
      split
      · exact same
      · cases item with
        | fault f => exact same.report f
        | token t =>
            have stepped : Cut { p with builder := p.builder.step t }
                { p with strict := true, builder := p.builder.step t } := .whole goesOn silent
            exact stepped.settle
  | broken _ first earliest refused alone =>
      rw [take_of_ended (ended_of_refused refused)]
      exact .onward earliest refused alone (reports_take p item) rfl rfl

theorem Cut.foldl_take (items : List Item) : ∀ {p q : Parse}, Cut p q →
    Cut (items.foldl Parse.take p) (items.foldl Parse.take q) := by
  induction items with
  | nil => exact fun cut => cut
  | cons item items ih => exact fun cut => ih (cut.take item)

def complete (p : Parse) : Parse :=
  if p.ending.isSome then p else { p with ending := some .complete }

theorem finish_eq (p : Parse) : p.finish = complete (settle { p with builder := p.builder.finish }) :=
  rfl

theorem Cut.complete {p q : Parse} (cut : Cut p q) : Cut p.complete q.complete := by
  cases cut with
  | whole goesOn silent =>
      unfold Parse.complete
      split
      · exact .whole goesOn silent
      · exact .whole goesOn silent
  | broken _ first earliest refused alone =>
      have kept : p.reports <:+ p.complete.reports := by
        unfold Parse.complete
        split <;> exact List.suffix_rfl
      have still : q.complete = q := if_pos (ended_of_refused refused)
      rw [still]
      exact .onward earliest refused alone kept rfl rfl

theorem Cut.finish {p q : Parse} (cut : Cut p q) : Cut p.finish q.finish := by
  cases cut with
  | whole goesOn silent =>
      have finished : Cut { p with builder := p.builder.finish }
          { p with strict := true, builder := p.builder.finish } := .whole goesOn silent
      exact finished.settle.complete
  | broken _ first earliest refused alone =>
      rw [finish_of_ended (ended_of_refused refused)]
      exact .onward earliest refused alone (reports_finish p) rfl rfl

/-- The two stay together to the end of the text. -/
theorem Cut.run (fuel : Nat) : ∀ {p q : Parse}, Cut p q →
    Cut (Parse.run fuel p) (Parse.run fuel q) := by
  induction fuel with
  | zero => exact Cut.finish
  | succ fuel ih =>
      intro p q cut
      cases cut with
      | whole goesOn silent =>
          have foreign : Parse.inForeign { p with strict := true } = p.inForeign := rfl
          cases stopped : p.ending.isSome with
          | true =>
              simp only [Parse.run, stopped, if_true]
              exact .whole goesOn silent
          | false =>
              cases moved : p.lexer.step p.inForeign with
              | none =>
                  simp only [Parse.run, stopped, foreign, moved, Bool.false_eq_true, if_false]
                  exact Cut.finish (.whole goesOn silent)
              | some lexer =>
                  have drained : Cut { p with lexer := lexer.drain.2 }
                      { p with strict := true, lexer := lexer.drain.2 } := .whole goesOn silent
                  simp only [Parse.run, stopped, foreign, moved, Bool.false_eq_true, if_false]
                  exact ih (drained.foldl_take lexer.drain.1)
      | broken _ first earliest refused alone =>
          obtain ⟨ending, reports⟩ := run_of_ended (ended_of_refused refused) (fuel + 1)
          exact .onward earliest refused alone (reports_run (fuel + 1) p) ending reports

theorem cut_ofText (standard : Space) (goal : Goal) (text : List Char) :
    Cut (ofText ⟨false, standard⟩ goal none text) (ofText ⟨true, standard⟩ goal none text) := by
  unfold ofText
  refine Cut.run _ (Cut.settle ?_)
  exact .whole rfl rfl

end HtmlTree.Html.Parse
