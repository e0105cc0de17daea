import HtmlTree.Settings.File
import HtmlTree.Proofs.Json.Reading
import HtmlTree.Proofs.Json.RoundTrip
import HtmlTree.Proofs.Settings.Merge
import HtmlTree.Proofs.Settings.Paths

/-! Runs of the calls that change settings. Whatever their order, the settings they lead to are made of
proper values; where no number with a fraction comes in, none is found later. -/

namespace HtmlTree.Settings

open Decimal (Binary64)
open Value (Proper anyReal noReal)

inductive Call (τ : Type := String) where
  | set (key : τ) (v : Value τ)
  | remove (key : τ)
  | override (overrides : Entries τ)
  | load (files : Files) (path : Option String)

/-- The settings after a call; one that fails leaves the values as they were. -/
def perform (c : Settings) : Call → Settings
  | .set key v => c.set key v
  | .remove key => (c.remove key).1
  | .override overrides => c.override overrides
  | .load files path =>
    match load files { c with path } with
    | .ok loaded => loaded.value
    | .error _ => { c with path }

def after (c : Settings) (calls : List Call) : Settings := calls.foldl perform c

namespace Call

def given {τ : Type} : Call τ → List (Value τ)
  | set _ v => [v]
  | override overrides => overrides.map (·.2)
  | _ => []

def loaded : Call → List Value
  | load files (some path) =>
    match readObject files path with
    | .ok entries => [.dict entries]
    | .error _ => []
  | _ => []

end Call

section Reading

variable {τ : Type} [DecidableEq τ] {kind : Points → τ} {files : Files} {path text : String}
  {entries : Entries τ}

theorem readObjectAs_eq_ok (found : readObjectAs kind files path = .ok entries) :
    ∃ text, files.read path = .ok text ∧ Json.readAs kind text = some (.dict entries) := by
  unfold readObjectAs at found
  cases content : files.read path with
  | error failure => simp [content, Except.mapError, bind, Except.bind] at found
  | ok text =>
      refine ⟨text, rfl, ?_⟩
      simp only [content, Except.mapError, bind, Except.bind] at found
      split at found
      · cases found
      · split at found
        · next dict =>
          cases found
          exact dict
        · cases found
        · cases found

theorem readObjectAs_of_read (content : files.read path = .ok text)
    (plain : text.toList.head? ≠ some '\uFEFF') (dict : Json.readAs kind text = some (.dict entries)) :
    readObjectAs kind files path = .ok entries := by
  unfold readObjectAs
  simp only [content, Except.mapError, bind, Except.bind, if_neg plain, dict, pure, Except.pure]

theorem proper_readObjectAs (found : readObjectAs kind files path = .ok entries) :
    Proper anyReal (.dict entries) := by
  obtain ⟨text, _, read⟩ := readObjectAs_eq_ok found
  exact Json.proper_of_read read

end Reading

theorem head?_document (entries : Entries) :
    (Json.document (.dict entries)).toList.head? ≠ some '\uFEFF' := by
  rw [Json.document, String.toList_ofList]
  cases entries <;> exact fun same => absurd (Option.some.inj same) (by decide)

/-- A file that holds a dictionary as it is written gives it back. -/
theorem readObjectAs_document {τ : Type} [DecidableEq τ] {kind : Points → τ}
    (apart : Function.Injective (kind ∘ Points.ofString)) {files : Files} {path : String} {entries : Entries}
    (proper : Proper noReal (.dict entries))
    (content : files.read path = .ok (Json.document (.dict entries))) :
    readObjectAs kind files path = .ok (Value.mapEntries (kind ∘ Points.ofString) entries) :=
  readObjectAs_of_read content (head?_document entries) (Json.readAs_document apart proper)

theorem readObject_document {files : Files} {path : String} {entries : Entries}
    (proper : Proper noReal (.dict entries))
    (content : files.read path = .ok (Json.document (.dict entries))) :
    readObject files path = .ok entries :=
  readObjectAs_of_read content (head?_document entries) (Json.read?_document proper)

theorem load_of_readObject {files : Files} {path : String} {entries : Entries} (c : Settings)
    (read : readObject files path = .ok entries) :
    load files { c with path := some path } =
      .ok ⟨⟨mergeEntries c.entries entries, some path⟩,
        [.ofSettings Level.debug ("Configuration loaded from " ++ path)]⟩ := by
  unfold load
  simp only [read, bind, Except.bind, pure, Except.pure]

theorem load_eq_ok {files : Files} {c : Settings} {loaded : Logged Settings}
    (done : load files c = .ok loaded) : ∃ path entries, c.path = some path ∧
      readObject files path = .ok entries ∧
      loaded.value = { c with entries := mergeEntries c.entries entries } := by
  unfold load at done
  cases place : c.path with
  | none => simp [place, bind, Except.bind, throw, throwThe, MonadExceptOf.throw] at done
  | some path =>
      cases read : readObject files path with
      | error failure => simp [place, read, bind, Except.bind, pure, Except.pure] at done
      | ok entries =>
          simp only [place, read, bind, Except.bind, pure, Except.pure, Except.ok.injEq] at done
          exact ⟨path, entries, rfl, read, by rw [← done]⟩

section Proper

variable {fits : Binary64 → Prop} {c : Settings}

theorem proper_defaults (fits : Binary64 → Prop) : Proper fits (.dict defaults) := by
  have scalars : ∀ options ∈ [parserDefaults, serializerDefaults, loggingDefaults],
      Proper fits (.dict options) := by
    simp only [List.forall_mem_cons, List.not_mem_nil, false_implies, implies_true, and_true]
    refine ⟨.dict _ (by decide) ?_, .dict _ (by decide) ?_, .dict _ (by decide) ?_⟩ <;>
      simp only [parserDefaults, serializerDefaults, loggingDefaults, List.forall_mem_cons,
        List.not_mem_nil, false_implies, implies_true, and_true] <;>
      repeat' constructor
  simp only [List.forall_mem_cons, List.not_mem_nil, false_implies, implies_true, and_true] at scalars
  refine .dict _ (by decide) ?_
  simpa only [defaults, List.forall_mem_cons, List.not_mem_nil, false_implies, implies_true,
    and_true] using scalars

theorem proper_set (proper : Proper fits (.dict c.entries)) {v : Value} (value : Proper fits v)
    (key : String) : Proper fits (.dict (c.set key v).entries) := proper.setPath value _

theorem proper_remove (proper : Proper fits (.dict c.entries)) (key : String) :
    Proper fits (.dict (c.remove key).1.entries) := by
  rw [remove]
  split
  · next removed => exact proper.removePath removed
  · exact proper

theorem proper_override (proper : Proper fits (.dict c.entries)) (overrides : Entries)
    (values : ∀ e ∈ overrides, Proper fits e.2) :
    Proper fits (.dict (c.override overrides).entries) := by
  have set : ∀ (entries : Entries) {c : Settings}, Proper fits (.dict c.entries) →
      (∀ e ∈ entries, Proper fits e.2) →
      Proper fits (.dict (entries.foldl (fun c entry => c.set entry.1 entry.2) c).entries) := by
    intro entries
    induction entries with
    | nil => exact fun proper _ => proper
    | cons entry entries ih =>
        intro c proper values
        rw [List.forall_mem_cons] at values
        exact ih (proper_set proper values.1 entry.1) values.2
  cases Value.Proper.collect overrides values with
  | dict _ _ collected => exact set _ proper collected

theorem proper_perform (proper : Proper fits (.dict c.entries)) (call : Call)
    (given : ∀ v ∈ call.given, Proper fits v) (loaded : ∀ v ∈ call.loaded, Proper fits v) :
    Proper fits (.dict (c.perform call).entries) := by
  cases call with
  | set key v => exact proper_set proper (given v (List.mem_singleton.mpr rfl)) key
  | remove key => exact proper_remove proper key
  | override overrides =>
      exact proper_override proper overrides fun e member => given _ (List.mem_map_of_mem member)
  | load files path =>
      rw [perform]
      split
      · next done =>
        obtain ⟨place, entries, same, read, result⟩ := load_eq_ok done
        subst same
        rw [result]
        apply proper.merged (loaded _ _)
        rw [Call.loaded, read]
        exact List.mem_singleton.mpr rfl
      · exact proper

theorem proper_after (calls : List Call) (given : ∀ call ∈ calls, ∀ v ∈ call.given, Proper fits v)
    (loaded : ∀ call ∈ calls, ∀ v ∈ call.loaded, Proper fits v) :
    ∀ {c : Settings}, Proper fits (.dict c.entries) → Proper fits (.dict (c.after calls).entries) := by
  induction calls with
  | nil => exact fun proper => proper
  | cons call calls ih =>
      intro c proper
      rw [List.forall_mem_cons] at given loaded
      exact ih given.2 loaded.2 (proper_perform proper call given.1 loaded.1)

theorem proper_loaded (call : Call) : ∀ v ∈ call.loaded, Proper anyReal v := by
  intro v member
  cases call with
  | load files path =>
      cases path with
      | none => cases member
      | some path =>
          rw [Call.loaded] at member
          split at member
          · next read =>
            rw [List.mem_singleton.mp member]
            exact proper_readObjectAs read
          · cases member
  | _ => cases member

/-- Calls that bring in no number with a fraction lead to settings without one. -/
theorem isPlain_after (calls : List Call) (given : ∀ call ∈ calls, ∀ v ∈ call.given, Proper anyReal v)
    (plain : ∀ call ∈ calls, ∀ v ∈ call.given ++ call.loaded, v.isPlain = true) :
    (standard.after calls).all.isPlain = true := by
  have handed : ∀ call ∈ calls, ∀ v ∈ call.given, Proper noReal v := fun call member v brought =>
    (given call member v brought).of_isPlain (plain call member v (List.mem_append_left _ brought))
  have read : ∀ call ∈ calls, ∀ v ∈ call.loaded, Proper noReal v := fun call member v brought =>
    (proper_loaded call v brought).of_isPlain (plain call member v (List.mem_append_right _ brought))
  exact (proper_after calls handed read (proper_defaults noReal)).isPlain

end Proper

end HtmlTree.Settings
