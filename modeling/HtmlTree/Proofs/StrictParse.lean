import HtmlTree.Proofs.Entries
import HtmlTree.Proofs.Html.Strict

/-! Strict parsing next to lenient parsing of the same text under the same settings otherwise. -/

namespace HtmlTree

open Html

namespace Settings

def strictKey : String := "parser.strict"

def parserEntries (c : Settings) : Entries :=
  match lookup "parser" c.entries with
  | some (.dict inner) => inner
  | _ => []

theorem entries_set_strict (c : Settings) (b : Bool) : (c.set strictKey (.bool b)).entries =
    put "parser" (.dict (put "strict" (.bool b) c.parserEntries)) c.entries := by
  have path : segments strictKey = ["parser", "strict"] := by decide
  cases found : lookup "parser" c.entries with
  | none => simp only [set, path, setPath, parserEntries, found]
  | some value =>
      cases value with
      | dict inner => simp only [set, path, setPath, parserEntries, found]
      | _ => simp only [set, path, setPath, parserEntries, found]

theorem parserOptions_set_strict (c : Settings) (b : Bool) :
    (c.set strictKey (.bool b)).parserOptions = .ok
      ((put "strict" (.bool b) c.parserEntries).map fun entry => (.text entry.1, entry.2)) := by
  have path : segments "parser" = ["parser"] := by decide
  simp only [parserOptions, get, path, getPath, entries_set_strict, lookup_put_self,
    Option.getD_some, Options.ofSection]

theorem exists_parseOptions (c : Settings) :
    ∃ standard, ∀ b, (c.set strictKey (.bool b)).parseOptions = .ok ⟨b, standard⟩ := by
  refine ⟨if Options.flagOf c.parserEntries "namespace_html_elements" true then .html else .bare, ?_⟩
  intro b
  have strict : Options.flagOf (put "strict" (.bool b) c.parserEntries) "strict" false = b := by
    simp [Options.flagOf, Value.truthy]
  have other : Options.flagOf (put "strict" (.bool b) c.parserEntries) "namespace_html_elements" true =
      Options.flagOf c.parserEntries "namespace_html_elements" true := by
    simp [Options.flagOf, lookup_put_of_ne]
  rw [parseOptions, parserOptions_set_strict]
  change Except.ok (ParseOptions.mk (Options.flag _ _ _) (if Options.flag _ _ _ then _ else _)) = _
  rw [Options.flag_ofEntries, Options.flag_ofEntries, strict, other]

theorem container_set_strict (c : Settings) (name : Option String) (b other : Bool) :
    (c.set strictKey (.bool b)).container name = (c.set strictKey (.bool other)).container name := by
  have path : segments "parser.fragment_container" = ["parser", "fragment_container"] := by decide
  have apart : ("fragment_container" : String) ≠ "strict" := by decide
  simp only [container, get, path, getPath, entries_set_strict, lookup_put_self,
    lookup_put_of_ne apart]

end Settings

/-- An outcome of strict parsing: that of lenient parsing, if it reported nothing, and otherwise a
refusal at the first fault, with that as the only report and nothing added to the store. -/
structure CutAtFirst (s : Store) (lenient strict : ParseOutcome) : Prop where
  clean : lenient.errors = [] → strict = lenient
  refused : ∀ first rest, lenient.errors = first :: rest → ∃ report : Report,
    first = report.shown ∧ strict.result = .error (.refused report.fault) ∧ strict.store = s ∧
      strict.errors = [first]

theorem conclude_errors (s : Store) (goal : Goal) (p : Parse) :
    (conclude s goal p).errors = p.reports.reverse.map Report.shown := by
  unfold conclude
  dsimp only
  split <;> rfl

theorem conclude_refused (s : Store) (goal : Goal) (p : Parse) (fault : Fault)
    (refused : p.ending = some (.refused fault)) :
    (conclude s goal p).result = .error (.refused fault) ∧ (conclude s goal p).store = s := by
  unfold conclude
  simp only [refused, and_self]

theorem conclude_cut (s : Store) (goal : Goal) {p q : Parse} (cut : p.Cut q) :
    CutAtFirst s (conclude s goal p) (conclude s goal q) := by
  cases cut with
  | whole _ silent =>
      refine ⟨fun _ => rfl, ?_⟩
      intro first rest found
      rw [conclude_errors, silent] at found
      cases found
  | broken _ first earliest refused alone =>
      have shown : (conclude s goal p).errors.head? = some first.shown := by
        rw [conclude_errors, List.head?_map, List.head?_reverse, earliest, Option.map_some]
      constructor
      · intro silent
        rw [silent] at shown
        cases shown
      · intro earlier rest found
        rw [found, List.head?_cons, Option.some.injEq] at shown
        have result := conclude_refused s goal q first.fault refused
        refine ⟨first, shown, result.1, result.2, ?_⟩
        rw [conclude_errors, alone, shown]
        rfl

theorem parseGoal_cut (c : Settings) (s : Store) (goal : Goal) (text : String) :
    CutAtFirst s (parseGoal (c.set Settings.strictKey (.bool false)) s goal (.text text))
      (parseGoal (c.set Settings.strictKey (.bool true)) s goal (.text text)) := by
  obtain ⟨standard, options⟩ := c.exists_parseOptions
  simp only [parseGoal, options, Parse.ofSource]
  exact conclude_cut s goal (Parse.cut_ofText standard goal text.toList)

/-- Strict parsing is lenient parsing as far as that reports nothing, and is refused at its first
report. -/
theorem parse_cut_at_first_fault (c : Settings) (s : Store) (text : String) :
    CutAtFirst s (parseDocument (c.set Settings.strictKey (.bool false)) s (some (.text text)))
      (parseDocument (c.set Settings.strictKey (.bool true)) s (some (.text text))) ∧
    ∀ container : Option String,
      CutAtFirst s
        (parseFragment (c.set Settings.strictKey (.bool false)) s (some (.text text)) container)
        (parseFragment (c.set Settings.strictKey (.bool true)) s (some (.text text)) container) := by
  constructor
  · exact parseGoal_cut c s .document text
  · intro container
    have same := c.container_set_strict container true false
    obtain ⟨standard, options⟩ := c.exists_parseOptions
    simp only [parseFragment, same]
    cases (c.set Settings.strictKey (.bool false)).container container with
    | some name => exact parseGoal_cut c s (.fragment name) text
    | none =>
        simp only [options]
        refine ⟨fun _ => rfl, ?_⟩
        intro first rest found
        cases found

example : (parseFragment (.set .standard Settings.strictKey (.bool false)) .empty
    (some (.text "a</b></i>")) none).errors =
      ["line 1, col 5: unexpected-end-tag", "line 1, col 9: unexpected-end-tag"] := by rfl

example : (parseFragment (.set .standard Settings.strictKey (.bool true)) .empty
    (some (.text "a</b></i>")) none).errors = ["line 1, col 5: unexpected-end-tag"] := by rfl

end HtmlTree
