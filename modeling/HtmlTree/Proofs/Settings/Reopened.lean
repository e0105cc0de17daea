import HtmlTree.Proofs.Files
import HtmlTree.Proofs.Settings.Calls

/-! Settings written to a file and opened again. The file gives back all that was written; what opening
adds are the defaults, so that of the settings nothing is lost but what was removed. -/

namespace HtmlTree.Settings

open Value (Proper anyReal noReal)
open Files (Writable)

/-- Every section of the defaults is there, and has all its options if it is a dictionary. -/
def Complete (entries : Entries) : Prop :=
  ∀ standard ∈ defaults, ∃ v, lookup standard.1 entries = some v ∧
    ∀ options kept, standard.2 = .dict options → v = .dict kept →
      ∀ key ∈ options.map (·.1), key ∈ kept.map (·.1)

theorem keeps_section_iff {options : Entries} (flat : ∀ option ∈ options, ∀ v, option.2.keeps v = true)
    (v : Value) : (Value.dict options).keeps v = true ↔
      ∀ kept, v = .dict kept → ∀ key ∈ options.map (·.1), key ∈ kept.map (·.1) := by
  cases v with
  | dict kept =>
      rw [Value.keeps, keepsEntries_iff]
      constructor
      · intro keeps _ same key member
        cases same
        obtain ⟨option, inside, rfl⟩ := List.mem_map.mp member
        obtain ⟨v, found, _⟩ := keeps option inside
        exact (exists_lookup_iff _ _).mp ⟨v, found⟩
      · intro keys option inside
        obtain ⟨v, found⟩ :=
          (exists_lookup_iff _ _).mpr (keys kept rfl option.1 (List.mem_map_of_mem inside))
        exact ⟨v, found, flat option inside v⟩
  | _ => exact iff_of_true rfl fun _ same => nomatch same

theorem flat_defaults : ∀ standard ∈ defaults, ∃ options, standard.2 = .dict options ∧
    ∀ option ∈ options, ∀ v, option.2.keeps v = true := by
  have flat : ∀ options ∈ [parserDefaults, serializerDefaults, loggingDefaults],
      ∀ option ∈ options, ∀ v, option.2.keeps v = true := by
    simp only [parserDefaults, serializerDefaults, loggingDefaults, List.forall_mem_cons,
      List.not_mem_nil, false_implies, implies_true, and_true, Value.keeps]
  simp only [List.forall_mem_cons, List.not_mem_nil, false_implies, implies_true, and_true] at flat
  simp only [defaults, List.forall_mem_cons, List.not_mem_nil, false_implies, implies_true, and_true]
  exact ⟨⟨_, rfl, flat.1⟩, ⟨_, rfl, flat.2.1⟩, ⟨_, rfl, flat.2.2⟩⟩

theorem complete_iff (entries : Entries) :
    Complete entries ↔ keepsEntries defaults entries = true := by
  rw [keepsEntries_iff]
  refine forall₂_congr fun standard member => exists_congr fun v => and_congr_right fun _ => ?_
  obtain ⟨options, same, flat⟩ := flat_defaults standard member
  rw [same, keeps_section_iff flat]
  constructor
  · exact fun keys kept => keys options kept rfl
  · intro keys options' kept same'
    cases same'
    exact keys kept

section Saved

variable {files : Files} {path : String} {c : Settings}

theorem target_of_ne_nil (c : Settings) (named : path ≠ "") : c.target (some path) = some path := by
  simp [target, named]

theorem save_of_writable (c : Settings) (writable : files.Writable path) :
    ∃ saved, saved.read path = .ok (Json.document c.all) ∧
      (save files c (some path)).map (·.value) = .ok (saved, path) := by
  obtain ⟨made, _, _, folders, tried⟩ := writable
  obtain ⟨saved, done⟩ := Files.write_other tried (Json.document c.all)
  have named : path ≠ "" := (Files.write_eq_ok_iff.mp done).1
  refine ⟨saved, Files.read_of_write done, ?_⟩
  unfold save
  rw [target_of_ne_nil c named]
  by_cases top : Files.directory path = ""
  · rw [top, Files.makeFolders_top] at folders
    cases folders
    simp only [if_pos top, done, Except.mapError, bind, Except.bind, pure, Except.pure, Except.map]
  · simp only [if_neg top, folders, done, Except.mapError, bind, Except.bind, pure, Except.pure,
      Except.map]

theorem make_saved {saved : Files} (named : path ≠ "") (read : readObject saved path = .ok c.entries) :
    (make saved (some path) []).map (·.value) = .ok ⟨mergeEntries defaults c.entries, some path⟩ := by
  unfold make
  simp only [Option.getD_some, if_neg named]
  rw [load_of_readObject ⟨defaults, some path⟩ read]
  rfl

theorem load_saved {saved : Files} (proper : Proper noReal c.all)
    (read : readObject saved path = .ok c.entries) :
    (load saved { c with path := some path }).map (·.value) = .ok { c with path := some path } := by
  rw [load_of_readObject c read, mergeEntries_self proper]
  rfl

end Saved

/-- Settings that calls lead to, saved and opened again. Opening succeeds and merges what was saved over
the defaults; the values are equal to those saved just if no default section or option was missing.
Loading the file back into the settings saved leaves them as they are. -/
theorem reopen_saved (calls : List Call)
    (given : ∀ call ∈ calls, ∀ w ∈ call.given, Proper anyReal w) (c : Settings)
    (reached : c = standard.after calls) (plain : c.all.isPlain = true) (files : Files) (path : String)
    (writable : files.Writable path) : ∃ saved reopened,
      (save files c (some path)).map (·.value) = .ok (saved, path) ∧
      (make saved (some path) []).map (·.value) = .ok reopened ∧
      reopened.entries = mergeEntries defaults c.entries ∧
      (reopened.all.equal c.all = true ↔ Complete c.entries) ∧
      (load saved { c with path := some path }).map (·.value) = .ok { c with path := some path } := by
  have reachable : Proper anyReal c.all := by
    rw [reached]
    exact proper_after calls given (fun call _ => proper_loaded call) (proper_defaults anyReal)
  have proper : Proper noReal c.all := reachable.of_isPlain plain
  obtain ⟨saved, content, done⟩ := save_of_writable c writable
  have read := readObject_document proper content
  have named : path ≠ "" := by
    rintro rfl
    cases content
  refine ⟨saved, _, done, make_saved named read, rfl, ?_, load_saved proper read⟩
  rw [complete_iff]
  exact equal_merge_iff proper (proper_defaults noReal)

def strictRemoved : List Call :=
  [.override [("logging", .text "off"), ("parser.tags.names", .list [.text "\u03c0", .int (-12)])],
    .remove "parser.strict"]

theorem strictRemoved_given : ∀ call ∈ strictRemoved, ∀ w ∈ call.given, Proper anyReal w := by
  simp only [strictRemoved, Call.given, List.map_cons, List.map_nil, List.forall_mem_cons,
    List.not_mem_nil, false_implies, implies_true, and_true]
  refine ⟨.text "off", .list _ ?_⟩
  simp only [List.forall_mem_cons, List.not_mem_nil, false_implies, implies_true, and_true]
  exact ⟨.text _, .int (-12)⟩

theorem after_strictRemoved : standard.after strictRemoved =
    ⟨[("parser", .dict [("fragment_container", .text "div"), ("namespace_html_elements", .bool true),
      ("tags", .dict [("names", .list [.text "\u03c0", .int (-12)])])]),
      ("serializer", .dict serializerDefaults), ("logging", .text "off")], none⟩ := rfl

theorem writable_inFolder : Files.empty.Writable "conf/c.json" := by
  have folder : Files.directory "conf/c.json" = "conf" := by decide
  have above : Files.steps "conf" = ["conf"] := by decide
  have place : Files.steps "conf/c.json" = ["conf", "c.json"] := by decide
  refine ⟨⟨[(["conf"], .folder)]⟩, "", _, ?_, Files.write_eq_ok_iff.mpr ⟨by decide, ?_, ?_, rfl⟩⟩
  · rw [folder, Files.makeFolders, above]
    rfl
  · rw [place]
    rfl
  · rw [place]
    decide

/-- The option that was removed is back, the section that was replaced is not. -/
theorem reopen_strictRemoved :
    (∀ call ∈ strictRemoved, ∀ w ∈ call.given, Proper anyReal w) ∧
      (standard.after strictRemoved).all.isPlain = true ∧ Files.empty.Writable "conf/c.json" ∧
      ∃ saved reopened,
        (save Files.empty (standard.after strictRemoved) (some "conf/c.json")).map (·.value) =
          .ok (saved, "conf/c.json") ∧
        (make saved (some "conf/c.json") []).map (·.value) = .ok reopened ∧
        ¬ reopened.all.equal (standard.after strictRemoved).all = true ∧
        reopened.get "parser.strict" .null = .bool false ∧
        reopened.get "logging" .null = .text "off" := by
  have plain : (standard.after strictRemoved).all.isPlain = true :=
    isPlain_after strictRemoved strictRemoved_given (by decide)
  refine ⟨strictRemoved_given, plain, writable_inFolder, ?_⟩
  obtain ⟨saved, reopened, done, opened, entries, same, _⟩ := reopen_saved strictRemoved
    strictRemoved_given _ rfl plain Files.empty "conf/c.json" writable_inFolder
  refine ⟨saved, reopened, done, opened, ?_, ?_, ?_⟩
  · rw [same, complete_iff, after_strictRemoved]
    decide
  · rw [get, entries, after_strictRemoved]
    rfl
  · rw [get, entries, after_strictRemoved]
    rfl

end HtmlTree.Settings
