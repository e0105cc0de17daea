import HtmlTree.Proofs.Logging.SetUp

/-! The way of records to the console. A logger is what its first set-up made of it. A record passes if
the nearest logger that was set up lets it pass, and is then shown by each one on the way up whose own
console takes it. -/

namespace HtmlTree.Logging

inductive SetupCall where
  | given (s : Setup)
  | settings (c : Settings)

def SetupCall.setup : SetupCall → Setup
  | given s => s
  | settings c => Setup.ofSettings c

/-- The first call for a logger's name. -/
def firstFor (calls : List SetupCall) (name : String) : Option Setup :=
  (calls.map SetupCall.setup).find? fun s => s.name = name

theorem firstFor_cons_self (call : SetupCall) (calls : List SetupCall) :
    firstFor (call :: calls) call.setup.name = some call.setup := by
  simp [firstFor]

theorem firstFor_cons_of_ne {call : SetupCall} {name : String} (different : call.setup.name ≠ name)
    (calls : List SetupCall) : firstFor (call :: calls) name = firstFor calls name := by
  simp [firstFor, different]

theorem Setup.name_ne_empty (s : Setup) : s.name ≠ "" := by
  intro empty
  have longer := congrArg String.length empty
  rw [Setup.name] at longer
  split at longer
  · rw [String.length_append, String.length_append] at longer
    exact absurd longer (by simp [Record.top])
  · exact absurd longer (by decide)

theorem ne_empty_of_first {calls : List SetupCall} {name : String}
    (called : (firstFor calls name).isSome = true) : name ≠ "" := by
  obtain ⟨s, first⟩ := Option.isSome_iff_exists.mp called
  rw [firstFor] at first
  have named : s.name = name := by simpa using List.find?_some first
  rw [← named]
  exact s.name_ne_empty

def Setup.line (s : Setup) (m : Moment) (r : Record) : List Char :=
  format .console s.colour.truthy m r ++ ['\n']

/-- What the consoles of loggers on the way up show of a record, of which the first is the nearest. -/
def shownBy (m : Moment) (r : Record) : List Setup → List Char
  | [] => []
  | nearest :: above =>
    if r.level < min nearest.console nearest.file then []
    else ((nearest :: above).filter fun s => s.console ≤ r.level).flatMap fun s => s.line m r

namespace Registry

variable {g h : Registry} {name : String} {calls : List SetupCall} {r : Record}

/-- Set-ups that return, and records between them. -/
inductive Runs : Registry → List SetupCall → Registry → Prop
  | done (g : Registry) : Runs g [] g
  | setUp {g h : Registry} {call : SetupCall} {calls : List SetupCall}
      (well : (g.setUp call.setup).2 = .ok ()) (later : Runs (g.setUp call.setup).1 calls h) :
      Runs g (call :: calls) h
  | emit {g h : Registry} {calls : List SetupCall} (m : Moment) (r : Record)
      (later : Runs (g.emit m r).2 calls h) : Runs g calls h

theorem loggers_emit (g : Registry) (m : Moment) (r : Record) :
    (g.emit m r).2.loggers = (g.meet r.logger).loggers := by
  rw [emit]
  dsimp only
  split
  · rfl
  · split
    · split <;> rfl
    · rfl

theorem logger_emit (g : Registry) (m : Moment) (r : Record) (name : String) :
    (g.emit m r).2.logger name = g.logger name :=
  (logger_congr (loggers_emit g m r) name).trans (logger_meet g r.logger name)

theorem knows_emit (known : g.knows name = true) (m : Moment) (r : Record) :
    (g.emit m r).2.knows name = true := by
  rw [knows, loggers_emit]
  exact knows_meet_of_knows known r.logger

namespace Runs

theorem knows (run : Runs g calls h) (known : g.knows name = true) : h.knows name = true := by
  induction run with
  | done => exact known
  | setUp _ _ ih => exact ih (knows_setUp known _)
  | emit m r _ ih => exact ih (knows_emit known m r)

theorem knows_of_first (run : Runs g calls h) (called : (firstFor calls name).isSome = true) :
    h.knows name = true := by
  induction run with
  | done => cases called
  | @setUp g h call calls _ later ih =>
      by_cases same : call.setup.name = name
      · rw [← same]
        exact later.knows (knows_setUp_self g call.setup)
      · rw [firstFor, List.map_cons, List.find?_cons_of_neg (by simpa using same)] at called
        exact ih called
  | emit _ _ _ ih => exact ih called

theorem logger_of_isSetUp (run : Runs g calls h) (done : isSetUp (g.logger name) = true) :
    h.logger name = g.logger name := by
  induction run with
  | done => rfl
  | @setUp g h call calls _ _ ih =>
      have kept : (g.setUp call.setup).1.logger name = g.logger name := by
        by_cases same : name = call.setup.name
        · rw [same] at done ⊢
          rw [setUp_of_isSetUp done, logger_meet]
        · exact logger_setUp_of_ne same g
      rw [ih (by rwa [kept]), kept]
  | emit m r _ ih => rw [ih (by rwa [logger_emit]), logger_emit]

theorem logger_eq (run : Runs g calls h) (fresh : isSetUp (g.logger name) = false) :
    h.logger name = match firstFor calls name with
      | some s => s.installed (g.logger name)
      | none => g.logger name := by
  induction run with
  | done => rfl
  | @setUp g h call calls well later ih =>
      by_cases same : call.setup.name = name
      · subst same
        have made := logger_setUp_of_ok fresh well
        rw [firstFor_cons_self, later.logger_of_isSetUp (by rw [made]; exact isSetUp_installed _ _),
          made]
      · have kept := logger_setUp_of_ne (Ne.symm same) g
        rw [firstFor_cons_of_ne same, ih (by rwa [kept]), kept]
  | emit m r _ ih => rw [ih (by rwa [logger_emit]), logger_emit]

end Runs

theorem logger_initial (name : String) :
    initial.logger name = ⟨0, []⟩ ∨ name = Record.top ∧ initial.logger name = ⟨0, [.null]⟩ := by
  by_cases same : name = Record.top
  · exact Or.inr ⟨same, by rw [same]; rfl⟩
  · rw [logger, initial, lookup, if_neg (Ne.symm same)]
    exact Or.inl rfl

theorem not_isSetUp_initial (name : String) : isSetUp (initial.logger name) = false := by
  rcases logger_initial name with none | ⟨_, null⟩
  · rw [none]
    rfl
  · rw [null]
    rfl

def shown (m : Moment) (r : Record) : Handler → List Char
  | .console level colour =>
    if level ≤ r.level then format .console colour m r ++ ['\n'] else []
  | _ => []

theorem handle_fst (files : Files) (m : Moment) (r : Record) (h : Handler) :
    (handle files m r h).1 = shown m r h := by
  rw [handle.eq_def, shown.eq_def]
  split
  · next low =>
    cases h with
    | console level colour => exact (if_neg (Nat.not_le.mpr low)).symm
    | _ => rfl
  · next high =>
    cases h with
    | console level colour => exact (if_pos (Nat.not_lt.mp high)).symm
    | _ => rfl

theorem deliver_fst (files : Files) (m : Moment) (r : Record) (handlers : List Handler) :
    (deliver files m r handlers).1 = handlers.flatMap (shown m r) := by
  induction handlers generalizing files with
  | nil => rfl
  | cons h handlers ih =>
      rw [List.flatMap_cons, ← handle_fst files, ← ih (handle files m r h).2]
      rfl

theorem shown_initial (m : Moment) (r : Record) (name : String) :
    (initial.logger name).handlers.flatMap (shown m r) = [] := by
  rcases logger_initial name with none | ⟨_, only⟩
  · rw [none]
    rfl
  · rw [only]
    rfl

theorem shown_fileHandlers (m : Moment) (r : Record) (s : Setup) :
    s.fileHandlers.flatMap (shown m r) = [] := by
  rw [Setup.fileHandlers]
  split
  · split <;> rfl
  · rfl

theorem shown_installed (m : Moment) (r : Record) (s : Setup) (l : Logger) :
    (s.installed l).handlers.flatMap (shown m r) =
      l.handlers.flatMap (shown m r) ++ if s.console ≤ r.level then s.line m r else [] := by
  rw [Setup.installed, Setup.withConsole, List.flatMap_append, List.flatMap_append,
    shown_fileHandlers, List.append_nil, List.flatMap_singleton]
  rfl

/-- The consoles of loggers on the way up, if each is what the first call for it made of it. -/
theorem shown_way (m : Moment) (r : Record) (calls : List SetupCall)
    (made : ∀ name, h.logger name = match firstFor calls name with
      | some s => s.installed (initial.logger name)
      | none => initial.logger name) (way : List String) :
    (way.flatMap fun name => (h.logger name).handlers).flatMap (shown m r) =
      ((way.filterMap (firstFor calls)).filter fun s => s.console ≤ r.level).flatMap
        fun s => s.line m r := by
  induction way with
  | nil => rfl
  | cons name way ih =>
      rw [List.flatMap_cons, List.flatMap_append, ih, made, List.filterMap_cons]
      cases firstFor calls name with
      | none => rw [shown_initial, List.nil_append]
      | some s =>
          rw [shown_installed, shown_initial, List.nil_append, List.filter_cons]
          by_cases taken : s.console ≤ r.level
          · rw [if_pos taken, if_pos (decide_eq_true taken), List.flatMap_cons]
          · rw [if_neg taken, if_neg (by simpa using taken), List.nil_append]

/-- The level that counts is that of the nearest logger that was set up. -/
theorem level_way (calls : List SetupCall)
    (made : ∀ name, h.logger name = match firstFor calls name with
      | some s => s.installed (initial.logger name)
      | none => initial.logger name) (way : List String) :
    (way.map fun name => (h.logger name).level).find? (· ≠ 0) =
      (way.filterMap (firstFor calls)).head?.map fun s => min s.console s.file := by
  induction way with
  | nil => rfl
  | cons name way ih =>
      rw [List.map_cons, made, List.filterMap_cons]
      cases firstFor calls name with
      | none =>
          have zero : (initial.logger name).level = 0 := by
            rcases logger_initial name with none | ⟨_, null⟩
            · rw [none]
            · rw [null]
          rw [List.find?_cons_of_neg (by simp [zero]), ih]
      | some s =>
          have set := s.level_installed_pos (initial.logger name)
          rw [List.find?_cons_of_pos (by simpa using Nat.ne_of_gt set)]
          rfl

/-- A logger is above all whose names go on from its own with a dot, and nowhere have two in a row. -/
theorem mem_above (g : Registry) (c : Char) (name : List Char)
    (known : g.knows (String.ofList (c :: name).reverse) = true) :
    ∀ rest : List Char, ¬ ['.', '.'] <:+: rest ++ ['.'] →
      String.ofList (c :: name).reverse ∈ g.above (rest ++ '.' :: c :: name)
  | [], _ => by
      rw [List.nil_append, above, if_pos known]
      exact List.mem_cons_self
  | e :: rest, single => by
      have further : ¬ ['.', '.'] <:+: rest ++ ['.'] := fun two =>
        single (two.trans (List.suffix_cons e _).isInfix)
      by_cases dot : e = '.'
      · subst dot
        cases rest with
        | nil => exact absurd (List.infix_refl _) single
        | cons d rest =>
            rw [List.cons_append, List.cons_append, above]
            split
            · exact List.mem_cons_of_mem _ (mem_above g c name known (d :: rest) further)
            · exact mem_above g c name known rest fun two =>
                further (two.trans (List.suffix_cons d _).isInfix)
      · rw [List.cons_append, above]
        · exact mem_above g c name known rest further
        · rintro _ _ rfl
          exact absurd rfl dot
  termination_by rest => rest.length

theorem exists_of_mem_above (g : Registry) (l : List Char) (name : String) (member : name ∈ g.above l) :
    ∃ front, l = front ++ '.' :: name.toList.reverse := by
  fun_induction above g l with
  | case1 c rest first known ih =>
      rcases List.mem_cons.mp member with rfl | further
      · exact ⟨[], by rw [String.toList_ofList, List.reverse_reverse, List.nil_append]⟩
      · obtain ⟨front, shape⟩ := ih further
        exact ⟨'.' :: front, by rw [shape, List.cons_append]⟩
  | case2 c rest first unknown ih =>
      obtain ⟨front, shape⟩ := ih member
      exact ⟨'.' :: c :: front, by rw [shape, List.cons_append, List.cons_append]⟩
  | case3 c rest _ ih =>
      obtain ⟨front, shape⟩ := ih member
      exact ⟨c :: front, by rw [shape, List.cons_append]⟩
  | case4 => cases member

def Below (name top : String) : Prop := ∃ rest, name.toList = top.toList ++ '.' :: rest

theorem below_of_mem_above (g : Registry) (l : List Char) (name : String)
    (member : name ∈ g.above l) : Below (String.ofList l.reverse) name := by
  obtain ⟨front, rfl⟩ := exists_of_mem_above g l name member
  refine ⟨front.reverse, ?_⟩
  rw [String.toList_ofList, List.reverse_append, List.reverse_cons, List.reverse_reverse,
    List.append_assoc, List.singleton_append]

theorem pairwise_above (g : Registry) (l : List Char) : (g.above l).Pairwise Below := by
  fun_induction above g l with
  | case1 c rest name known ih =>
      exact List.pairwise_cons.mpr ⟨fun other member => below_of_mem_above g _ other member, ih⟩
  | case2 c rest name unknown ih => exact ih
  | case3 c rest _ ih => exact ih
  | case4 => exact List.Pairwise.nil

theorem pairwise_lineage (g : Registry) (name : String) : (g.lineage name).Pairwise Below := by
  refine List.pairwise_cons.mpr ⟨fun other member => ?_, pairwise_above g _⟩
  have below := below_of_mem_above g _ other member
  rwa [List.reverse_reverse, String.ofList_toList] at below

theorem mem_lineage {top : String} (known : g.knows top = true) (named : top ≠ "")
    (below : Below name top) (single : ¬ ['.', '.'] <:+: name.toList) : top ∈ g.lineage name := by
  obtain ⟨rest, shape⟩ := below
  have filled : top.toList.reverse ≠ [] := by
    rwa [ne_eq, List.reverse_eq_nil_iff, String.toList_eq_nil_iff]
  obtain ⟨c, front, reversed⟩ := List.exists_cons_of_ne_nil filled
  have same : String.ofList (c :: front).reverse = top := by
    rw [← reversed, List.reverse_reverse, String.ofList_toList]
  have single' : ¬ ['.', '.'] <:+: rest.reverse ++ ['.'] := by
    intro two
    rw [← List.reverse_cons] at two
    have turned : ['.', '.'].reverse <:+: ('.' :: rest).reverse := two
    rw [shape] at single
    exact single ((List.reverse_infix.mp turned).trans (List.suffix_append _ _).isInfix)
  have found := mem_above g c front (by rwa [same]) rest.reverse single'
  rw [same] at found
  rw [lineage, shape, List.reverse_append, List.reverse_cons, List.append_assoc, reversed]
  exact List.mem_cons_of_mem _ found

/-- What is shown of a record of a logger at or below the top one: its handler that drops records is
there, so that no record meets none. -/
theorem emit_fst (below : Record.top ∈ h.lineage r.logger)
    (null : .null ∈ (h.logger Record.top).handlers) (m : Moment) :
    (h.emit m r).1 = if r.level < h.effectiveLevel r.logger then []
      else (h.handlersOf r.logger).flatMap (shown m r) := by
  have met : .null ∈ h.handlersOf r.logger := List.mem_flatMap.mpr ⟨Record.top, below, null⟩
  rw [emit]
  split
  · rfl
  · split
    · next none =>
      rw [none] at met
      cases met
    · exact deliver_fst h.files m r _

/-- After set-ups, each logger is what the first call for it made of it, and later ones change nothing.
A record is shown by the loggers on its way up that were set up and whose console takes it, if it
reaches the lower level of the nearest one. -/
theorem console_after_setUps (run : Runs initial calls h) :
    (∀ name, h.logger name = match firstFor calls name with
      | some s => s.installed (initial.logger name)
      | none => initial.logger name) ∧
    (∀ t : Setup, (firstFor calls t.name).isSome = true → h.setUp t = (h, .ok ())) ∧
    (∀ name, (h.lineage name).Pairwise Below ∧ (¬ ['.', '.'] <:+: name.toList →
      ∀ top, (top = Record.top ∨ (firstFor calls top).isSome = true) → Below name top →
        top ∈ h.lineage name)) ∧
    (∀ (m : Moment) (r : Record), Record.top ∈ h.lineage r.logger →
      (h.emit m r).1 = shownBy m r ((h.lineage r.logger).filterMap (firstFor calls))) ∧
    (∀ (s : Setup) (name : String), name ∉ Level.named.map (·.1) →
      (s.consoleLevel = .text name → s.console = Level.info) ∧
        (s.fileLevel = .text name → s.file = Level.debug)) := by
  have made := fun name => run.logger_eq (not_isSetUp_initial name)
  refine ⟨made, fun t called => ?_, fun name => ⟨pairwise_lineage h name, fun single top is below => ?_⟩,
    fun m r below => ?_, fun s name unknown => ?_⟩
  · obtain ⟨s, first⟩ := Option.isSome_iff_exists.mp called
    have done : isSetUp (h.logger t.name) = true := by
      rw [made, first]
      exact isSetUp_installed s _
    rw [setUp_of_isSetUp done, meet_of_knows (run.knows_of_first called)]
  · rcases is with rfl | called
    · exact mem_lineage (run.knows rfl) (by decide) below single
    · exact mem_lineage (run.knows_of_first called) (ne_empty_of_first called) below single
  · have null : .null ∈ (h.logger Record.top).handlers := by
      rw [made]
      cases firstFor calls Record.top with
      | none => exact List.mem_singleton.mpr rfl
      | some s => exact List.mem_append_left _ (List.mem_append_left _ (List.mem_singleton.mpr rfl))
    have level := level_way calls made (h.lineage r.logger)
    have consoles := shown_way m r calls made (h.lineage r.logger)
    rw [emit_fst below null, handlersOf, consoles, effectiveLevel, level]
    cases (h.lineage r.logger).filterMap (firstFor calls) with
    | nil => exact ite_self _
    | cons nearest above => rfl
  · have fallback : ∀ standard, Setup.levelOf standard (.text name) = standard := by
      intro standard
      rw [Setup.levelOf, List.lookup_eq_none_iff.mpr, Option.getD_none]
      rintro entry member
      have other : name ≠ entry.1 := by
        rintro rfl
        exact unknown (List.mem_map_of_mem member)
      simpa using other
    constructor
    · intro given
      rw [Setup.console, given, fallback]
    · intro given
      rw [Setup.file, given, fallback]

/-- A component that takes errors only holds back what the top logger would show; an error is shown
by both. -/
theorem console_after_treeSetUp :
    let tree : Setup :=
      { component := .text "tree", consoleLevel := .text "ERROR", fileLevel := .text "ERROR" }
    let top := Setup.ofSettings .standard
    let m : Moment := ⟨"12:00:00", "tree.py", "1"⟩
    let warning : Record := ⟨"html_ast_utils.tree", Level.warning, "gone", none⟩
    let error := { warning with level := Level.error }
    ∃ h, Runs initial [.given tree, .settings .standard] h ∧ (h.emit m warning).1 = [] ∧
      (h.emit m error).1 = tree.line m error ++ top.line m error := by
  intro tree top m warning error
  have run : Runs initial [.given tree, .settings .standard]
      ((initial.setUp tree).1.setUp top).1 :=
    @Runs.setUp _ _ (.given tree) _ (by decide +kernel)
      (@Runs.setUp _ _ (.settings .standard) _ (by decide +kernel) (.done _))
  have way : (((initial.setUp tree).1.setUp top).1.lineage "html_ast_utils.tree").filterMap
      (firstFor [.given tree, .settings .standard]) = [tree, top] := by
    have names : ((initial.setUp tree).1.setUp top).1.lineage "html_ast_utils.tree" =
        ["html_ast_utils.tree", "html_ast_utils"] := by decide +kernel
    rw [names]
    rfl
  have shown := (console_after_setUps run).2.2.2.1 m
  refine ⟨_, run, ?_, ?_⟩
  · rw [shown warning (by decide +kernel), way]
    decide +kernel
  · rw [shown error (by decide +kernel), way]
    decide +kernel

end Registry

end HtmlTree.Logging
