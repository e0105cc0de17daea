import HtmlTree.Logging.Registry
import HtmlTree.Proofs.Entries
import Mathlib.Order.Lattice

/-! What one set-up leaves behind. A logger that is set up stays as it is. Any other gets its level
and its console first, so that only levels that cannot be looked up are found out in time: when the
file fails, the console stays, and counts as a set-up that was done. -/

namespace HtmlTree.Logging

namespace Setup

def fileHandlers (s : Setup) : List Handler :=
  match s.logFile with
  | .text path => if path = "" then [] else [.file s.file path]
  | _ => []

def withConsole (s : Setup) (l : Logger) : Logger :=
  ⟨min s.console s.file, l.handlers ++ [.console s.console s.colour.truthy]⟩

def installed (s : Setup) (l : Logger) : Logger :=
  { s.withConsole l with handlers := (s.withConsole l).handlers ++ s.fileHandlers }

variable (s : Setup) (l : Logger)

theorem levelOf_pos (fallback : Nat) (positive : 0 < fallback) (v : Value) :
    0 < levelOf fallback v := by
  cases v with
  | text name =>
      have named : ∀ entry ∈ Level.named, 0 < entry.2 := by decide
      rw [levelOf]
      cases found : Level.named.lookup name with
      | none => exact positive
      | some level =>
          obtain ⟨before, after, split, _⟩ := List.lookup_eq_some_iff.mp found
          exact named (name, level) (split ▸ List.mem_append_right _ List.mem_cons_self)
  | _ => exact positive

theorem level_installed_pos : 0 < (s.installed l).level :=
  lt_min (levelOf_pos Level.info (by decide) _) (levelOf_pos Level.debug (by decide) _)

end Setup

namespace Registry

variable {g h : Registry} {s t : Setup} {name other : String} {failure : SetupFailure}

@[simp] theorem logger_setLogger_self (g : Registry) (name : String) (l : Logger) :
    (g.setLogger name l).logger name = l := by
  rw [logger, setLogger, lookup_put_self, Option.getD_some]

theorem logger_setLogger_of_ne (different : other ≠ name) (g : Registry) (l : Logger) :
    (g.setLogger name l).logger other = g.logger other := by
  rw [logger, setLogger, lookup_put_of_ne different, logger]

theorem logger_congr (same : h.loggers = g.loggers) (name : String) :
    h.logger name = g.logger name := by
  rw [logger, logger, same]

@[simp] theorem logger_meet (g : Registry) (name other : String) :
    (g.meet name).logger other = g.logger other := by
  rw [meet]
  split
  · rfl
  · next unknown =>
    by_cases same : other = name
    · subst same
      rw [knows, Bool.not_eq_true, Option.isSome_eq_false_iff, Option.isNone_iff_eq_none] at unknown
      rw [logger_setLogger_self, logger, unknown, Option.getD_none]
    · exact logger_setLogger_of_ne same g _

theorem knows_setLogger_self (g : Registry) (name : String) (l : Logger) :
    (g.setLogger name l).knows name = true := by
  rw [knows, setLogger, lookup_put_self, Option.isSome_some]

theorem knows_setLogger_of_knows (known : g.knows other = true) (name : String) (l : Logger) :
    (g.setLogger name l).knows other = true := by
  by_cases same : other = name
  · rw [same, knows_setLogger_self]
  · rwa [knows, setLogger, lookup_put_of_ne same]

theorem knows_meet_self (g : Registry) (name : String) : (g.meet name).knows name = true := by
  rw [meet]
  split
  · assumption
  · exact knows_setLogger_self g name _

theorem knows_meet_of_knows (known : g.knows other = true) (name : String) :
    (g.meet name).knows other = true := by
  rw [meet]
  split
  · exact known
  · exact knows_setLogger_of_knows known name _

theorem meet_of_knows (known : g.knows name = true) : g.meet name = g := if_pos known

@[simp] theorem meet_meet (g : Registry) (name : String) : (g.meet name).meet name = g.meet name :=
  meet_of_knows (g.knows_meet_self name)

theorem logger_addConsole_self (g : Registry) (s : Setup) :
    (g.addConsole s).logger s.name = s.withConsole (g.logger s.name) := by
  rw [addConsole, addHandler, logger_setLogger_self, logger_setLogger_self, Setup.withConsole]

theorem logger_addConsole_of_ne (different : other ≠ s.name) (g : Registry) :
    (g.addConsole s).logger other = g.logger other := by
  rw [addConsole, addHandler, logger_setLogger_of_ne different, logger_setLogger_of_ne different]

theorem knows_addConsole (known : g.knows other = true) (s : Setup) :
    (g.addConsole s).knows other = true :=
  knows_setLogger_of_knows (knows_setLogger_of_knows known _ _) _ _

theorem loggers_openFile (g : Registry) (path : String) :
    (g.openFile path).1.loggers = g.loggers := by
  rw [openFile]
  split
  · rfl
  · split <;> rfl

theorem addFile_cases (g : Registry) (s : Setup) : ∃ after, after.loggers = g.loggers ∧
    ((∃ failure, g.addFile s = (after, .error failure)) ∨
      (s.fileHandlers = [] ∧ g.addFile s = (after, .ok ())) ∨
      ∃ f, s.fileHandlers = [f] ∧ g.addFile s = (after.addHandler s.name f, .ok ())) := by
  rw [addFile]
  by_cases asked : s.logFile.truthy = true
  · rw [if_pos asked]
    split
    · next path given =>
      have named : path ≠ "" := by
        rintro rfl
        rw [given] at asked
        exact absurd asked (by decide)
      have opened := loggers_openFile g path
      split
      · next after found =>
        rw [found] at opened
        exact ⟨after, opened, Or.inr (Or.inr ⟨.file s.file path,
          by rw [Setup.fileHandlers, given]; exact if_neg named, rfl⟩)⟩
      · next after failure found =>
        rw [found] at opened
        exact ⟨after, opened, Or.inl ⟨failure, rfl⟩⟩
    · exact ⟨g, rfl, Or.inl ⟨.unusable, rfl⟩⟩
  · rw [if_neg asked]
    refine ⟨g, rfl, Or.inr (Or.inl ⟨?_, rfl⟩)⟩
    rw [Setup.fileHandlers]
    split
    · next path given =>
      rw [given, Value.truthy, Bool.not_eq_true, bne_eq_false_iff_eq] at asked
      rw [asked, if_pos rfl]
    · rfl

/-- What a set-up does: nothing where one was done, nothing where it is refused, or all it can. -/
theorem setUp_cases (g : Registry) (s : Setup) :
    (isSetUp (g.logger s.name) = true ∧ g.setUp s = (g.meet s.name, .ok ())) ∨
      (isSetUp (g.logger s.name) = false ∧ s.hasLevels = false ∧
        g.setUp s = (g.meet s.name, .error .unusable)) ∨
      (isSetUp (g.logger s.name) = false ∧ s.hasLevels = true ∧
        g.setUp s = ((g.meet s.name).addConsole s).addFile s) := by
  rw [setUp, logger_meet]
  by_cases done : isSetUp (g.logger s.name) = true
  · exact Or.inl ⟨done, if_pos done⟩
  · have fresh := Bool.eq_false_iff.mpr done
    rw [if_neg done]
    by_cases levels : s.hasLevels = true
    · exact Or.inr (Or.inr ⟨fresh, levels, if_pos levels⟩)
    · exact Or.inr (Or.inl ⟨fresh, Bool.eq_false_iff.mpr levels, if_neg levels⟩)

theorem isSetUp_of_console {l : Logger} (level : Nat) (colour : Bool)
    (shown : .console level colour ∈ l.handlers) : isSetUp l = true :=
  List.any_eq_true.mpr ⟨_, shown, rfl⟩

theorem isSetUp_withConsole (s : Setup) (l : Logger) : isSetUp (s.withConsole l) = true :=
  isSetUp_of_console s.console s.colour.truthy
    (List.mem_append_right l.handlers (List.mem_singleton.mpr rfl))

theorem isSetUp_installed (s : Setup) (l : Logger) : isSetUp (s.installed l) = true :=
  isSetUp_of_console s.console s.colour.truthy (List.mem_append_left s.fileHandlers
    (List.mem_append_right l.handlers (List.mem_singleton.mpr rfl)))

theorem setUp_of_isSetUp (done : isSetUp (g.logger s.name) = true) :
    g.setUp s = (g.meet s.name, .ok ()) := by
  rcases setUp_cases g s with ⟨_, same⟩ | ⟨fresh, _⟩ | ⟨fresh, _⟩
  · exact same
  · rw [done] at fresh
    cases fresh
  · rw [done] at fresh
    cases fresh

theorem logger_addFile_addConsole (g : Registry) (s : Setup) :
    (∀ failure, ((g.addConsole s).addFile s).2 = .error failure →
      ((g.addConsole s).addFile s).1.logger s.name = s.withConsole (g.logger s.name)) ∧
      (((g.addConsole s).addFile s).2 = .ok () →
        ((g.addConsole s).addFile s).1.logger s.name = s.installed (g.logger s.name)) := by
  obtain ⟨after, same, ⟨failure, done⟩ | ⟨none, done⟩ | ⟨f, one, done⟩⟩ :=
    addFile_cases (g.addConsole s) s
  all_goals
    have console := (logger_congr same s.name).trans (logger_addConsole_self g s)
    rw [done]
  · exact ⟨fun _ _ => console, nofun⟩
  · refine ⟨nofun, fun _ => ?_⟩
    rw [console, Setup.installed, none, List.append_nil]
  · refine ⟨nofun, fun _ => ?_⟩
    rw [addHandler, logger_setLogger_self, console, Setup.installed, one]

theorem logger_setUp_of_ne (different : other ≠ s.name) (g : Registry) :
    (g.setUp s).1.logger other = g.logger other := by
  rcases setUp_cases g s with ⟨_, done⟩ | ⟨_, _, done⟩ | ⟨_, _, done⟩
  · rw [done, logger_meet]
  · rw [done, logger_meet]
  · have console : ((g.meet s.name).addConsole s).logger other = g.logger other := by
      rw [logger_addConsole_of_ne different, logger_meet]
    rw [done]
    obtain ⟨after, same, ⟨failure, added⟩ | ⟨none, added⟩ | ⟨f, one, added⟩⟩ :=
      addFile_cases ((g.meet s.name).addConsole s) s
    all_goals rw [added]
    · exact (logger_congr same other).trans console
    · exact (logger_congr same other).trans console
    · rw [addHandler, logger_setLogger_of_ne different]
      exact (logger_congr same other).trans console

theorem logger_setUp_of_ok (fresh : isSetUp (g.logger s.name) = false)
    (done : (g.setUp s).2 = .ok ()) :
    (g.setUp s).1.logger s.name = s.installed (g.logger s.name) := by
  rcases setUp_cases g s with ⟨already, _⟩ | ⟨_, _, refused⟩ | ⟨_, _, whole⟩
  · rw [fresh] at already
    cases already
  · rw [refused] at done
    cases done
  · rw [whole] at done ⊢
    rw [(logger_addFile_addConsole _ s).2 done, logger_meet]

theorem knows_setUp (known : g.knows other = true) (s : Setup) :
    (g.setUp s).1.knows other = true := by
  have met := knows_meet_of_knows known s.name
  rcases setUp_cases g s with ⟨_, done⟩ | ⟨_, _, done⟩ | ⟨_, _, done⟩
  · rwa [done]
  · rwa [done]
  · rw [done]
    have console := knows_addConsole met s
    obtain ⟨after, same, added⟩ := addFile_cases ((g.meet s.name).addConsole s) s
    have kept : after.knows other = true := by rwa [knows, same]
    rcases added with ⟨failure, added⟩ | ⟨none, added⟩ | ⟨f, one, added⟩
    all_goals rw [added]
    · exact kept
    · exact kept
    · exact knows_setLogger_of_knows kept _ _

theorem knows_setUp_self (g : Registry) (s : Setup) : (g.setUp s).1.knows s.name = true := by
  have met := knows_meet_self g s.name
  have again : g.setUp s = (g.meet s.name).setUp s := by
    rw [setUp, setUp, meet_meet]
  rw [again]
  exact knows_setUp met s

/-- A set-up that fails leaves its logger alone just if a level could not be looked up. Then nothing
came of it, and one that is asked for later does what it would have done before. Otherwise the level
and the console stay, and whatever is asked for later is passed over. -/
theorem failed_setUp_undone_iff (failed : (g.setUp s).2 = .error failure) :
    ((g.setUp s).1.logger s.name = g.logger s.name ↔ s.hasLevels = false) ∧
      (∀ other, other ≠ s.name → (g.setUp s).1.logger other = g.logger other) ∧
      (s.hasLevels = false → ∀ t : Setup, t.name = s.name →
        (g.setUp s).1.setUp t = g.setUp t ∧ ((g.setUp t).2 = .ok () →
          (g.setUp t).1.logger t.name = t.installed (g.logger t.name))) ∧
      (s.hasLevels = true →
        (g.setUp s).1.logger s.name = s.withConsole (g.logger s.name) ∧
          ∀ t : Setup, t.name = s.name → (g.setUp s).1.setUp t = ((g.setUp s).1, .ok ())) := by
  have others := fun other (different : other ≠ s.name) => logger_setUp_of_ne different g
  rcases setUp_cases g s with ⟨_, done⟩ | ⟨fresh, refused, done⟩ | ⟨fresh, levels, done⟩
  · rw [done] at failed
    cases failed
  · have unmoved : (g.setUp s).1.logger s.name = g.logger s.name := by rw [done, logger_meet]
    refine ⟨iff_of_true unmoved refused, others, fun _ t same => ⟨?_, fun well => ?_⟩, fun levels => ?_⟩
    · rw [done, setUp, same, meet_meet, ← same]
      rfl
    · rw [← same] at fresh
      exact logger_setUp_of_ok fresh well
    · rw [levels] at refused
      cases refused
  · have half : (g.setUp s).1.logger s.name = s.withConsole (g.logger s.name) := by
      rw [done] at failed ⊢
      rw [(logger_addFile_addConsole _ s).1 _ failed, logger_meet]
    refine ⟨iff_of_false ?_ (by rw [levels]; exact Bool.noConfusion), others, ?_, fun _ => ⟨half, ?_⟩⟩
    · intro same
      have longer := congrArg (fun l => l.handlers.length) (half.symm.trans same)
      simp [Setup.withConsole] at longer
    · intro refused
      rw [levels] at refused
      cases refused
    · intro t same
      have stays : isSetUp ((g.setUp s).1.logger t.name) = true := by
        rw [same, half]
        exact isSetUp_withConsole s _
      rw [setUp_of_isSetUp stays, same, meet_of_knows (knows_setUp_self g s)]

/-- A list is no file's name. The console that was added before this is found stays. -/
theorem failed_setUp_listedPath :
    let s : Setup := { logFile := .list [.text "app.log"] }
    let g := Registry.initial
    (g.setUp s).2 = .error .unusable ∧ s.hasLevels = true ∧
      (g.setUp s).1.logger s.name = s.withConsole (g.logger s.name) ∧
      (g.setUp s).1.setUp { logFile := .text "app.log" } = ((g.setUp s).1, .ok ()) := by
  have failed : (Registry.initial.setUp { logFile := .list [.text "app.log"] }).2 =
      .error .unusable := rfl
  have kept := (failed_setUp_undone_iff failed).2.2.2 rfl
  exact ⟨failed, rfl, kept.1, kept.2 _ rfl⟩

theorem fileless_after_listedPath :
    let s : Setup := { logFile := .list [.text "app.log"] }
    let t : Setup := { logFile := .text "app.log" }
    let g := Registry.initial
    (g.setUp s).2 ≠ .ok () ∧ (g.setUp s).1.logger Record.top ≠ g.logger Record.top ∧
      ((g.setUp t).1.logger Record.top).handlers =
        [.null, .console Level.info true, .file Level.debug "app.log"] ∧
      (((g.setUp s).1.setUp t).1.logger Record.top).handlers = [.null, .console Level.info true] := by
  decide +kernel

end Registry

end HtmlTree.Logging
