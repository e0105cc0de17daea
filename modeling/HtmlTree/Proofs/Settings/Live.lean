import HtmlTree.Proofs.Settings.Calls
import HtmlTree.Proofs.Settings.Unshared

/-! What calls do to settings in which no dictionary stands in two places: each does to the values shown what
it says. Values that are made anew for a call leave it so, and so does a file. -/

namespace HtmlTree

open Value (Proper anyReal)
open Settings (Call)

theorem segmentsOf_ne_nil {α : Type} [DecidableEq α] (dot : α) (key : List α) : segmentsOf dot key ≠ [] := by
  induction key with
  | nil => exact List.cons_ne_nil [] []
  | cons c rest ih =>
      rw [segmentsOf]
      split
      · exact List.cons_ne_nil _ _
      · split
        · exact List.cons_ne_nil _ _
        · exact List.cons_ne_nil _ _

namespace Live

def perform (s : Live) : Call Points → Live
  | .set key v => s.setNew key v
  | .remove key => (s.remove key).1
  | .override overrides => s.override overrides
  | .load files path =>
    match load files { s with path } with
    | .ok loaded => loaded.value
    | .error _ => { s with path }

def after (s : Live) (calls : List (Call Points)) : Live := calls.foldl perform s

/-- The settings show these entries, and no dictionary stands in two places. -/
def Unshared (s : Live) (entries : Entries Points) : Prop :=
  ∃ r, s.objects.Unshared r (.dict s.root) (.dict entries)

variable {s : Live} {key : Points} {entries : Entries Points} {v : Value Points} {files : Files}

theorem segments_ne_nil (key : Points) : segments key ≠ [] := segmentsOf_ne_nil _ key

theorem find_eq_walk (s : Live) (key : Points) :
    s.find key = s.objects.walk (segments key) (.dict s.root) :=
  Objects.find_eq_walk (segments_ne_nil key)

theorem proper_standard : Proper anyReal (.dict standardEntries) := by
  have proper := (Settings.proper_defaults anyReal).mapTexts Points.ofString_injective
  rwa [Value.mapTexts] at proper

theorem unshared_standard (path : Option String) : (standard path).Unshared standardEntries :=
  ⟨_, Objects.unshared_build proper_standard []⟩

theorem Unshared.known (shown : s.Unshared entries) : ∃ r, (∀ n ∈ r, n < s.objects.length) ∧
    s.objects.Unshared r (.dict s.root) (.dict entries) := by
  obtain ⟨r, shown⟩ := shown
  exact ⟨_, fun n member => member.2, shown.known⟩

theorem Unshared.proper (shown : s.Unshared entries) : Proper anyReal (.dict entries) := by
  obtain ⟨r, shown⟩ := shown
  exact shown.proper

theorem unshared_setNew (shown : s.Unshared entries) (proper : Proper anyReal v) (key : Points) :
    (s.setNew key v).Unshared (setPath (segments key) v entries) := by
  obtain ⟨r, known, shown⟩ := shown.known
  have touched := Objects.touches_build proper known
  have old := (Objects.built_build proper s.objects).old
  have kept := shown.congr fun n member => Objects.getElem?_of_old old (known n member)
  obtain ⟨r', _, result⟩ := Objects.unshared_assign (segments_ne_nil key) kept
    (fun n member => (touched.region n member).1) (Objects.disjoint_added known _)
    (Objects.unshared_build proper s.objects)
  exact ⟨r', result⟩

theorem remove_none (nothing : s.objects.delete s.root (segments key) = none) : s.remove key = (s, false) := by
  rw [remove, nothing]

theorem remove_some {left : Objects Points}
    (removed : s.objects.delete s.root (segments key) = some left) :
    s.remove key = ({ s with objects := left }, true) := by
  rw [remove, removed]

/-- Removing takes away what is at the path and tells whether something was there. -/
theorem unshared_remove (shown : s.Unshared entries) (key : Points) :
    (s.remove key).1.Unshared (without (segments key) entries) ∧
      (s.remove key).2 = (removePath (segments key) entries).isSome := by
  obtain ⟨r, known, region⟩ := shown.known
  rw [without]
  cases removed : s.objects.delete s.root (segments key) with
  | none =>
      have nothing : removePath (segments key) entries = none := by
        rw [Objects.delete_eq_none_iff (segments_ne_nil key)] at removed
        rw [removePath_eq_none_iff (segments_ne_nil key)]
        rcases region.walk (segments key) with ⟨_, nothing⟩ | ⟨_, _, _, found, _⟩
        · exact nothing
        · rw [removed] at found
          cases found
      rw [remove_none removed, nothing]
      exact ⟨shown, rfl⟩
  | some left =>
      obtain ⟨rest, gone, _, result⟩ := Objects.unshared_delete region known removed
      rw [remove_some removed, gone]
      exact ⟨⟨r, result⟩, rfl⟩

theorem unshared_foldl_setNew (overrides : Entries Points) (proper : ∀ e ∈ overrides, Proper anyReal e.2) :
    ∀ {s : Live} {entries : Entries Points}, s.Unshared entries →
      (overrides.foldl (fun s entry => s.setNew entry.1 entry.2) s).Unshared
        (overrides.foldl (fun entries entry => setPath (segments entry.1) entry.2 entries) entries) := by
  induction overrides with
  | nil => exact fun shown => shown
  | cons entry overrides ih =>
      intro s entries shown
      rw [List.forall_mem_cons] at proper
      exact ih proper.2 (unshared_setNew shown proper.1 entry.1)

theorem unshared_override (shown : s.Unshared entries) (overrides : Entries Points)
    (proper : ∀ e ∈ overrides, Proper anyReal e.2) : (s.override overrides).Unshared
      ((collect overrides).foldl (fun entries entry => setPath (segments entry.1) entry.2 entries)
        entries) := by
  cases Value.Proper.collect overrides proper with
  | dict _ _ collected => exact unshared_foldl_setNew _ collected shown

theorem load_of_readObjectAs {path : String} {source : Entries Points} (place : s.path = some path)
    (read : Settings.readObjectAs id files path = .ok source) :
    load files s = .ok ⟨{ s with objects := s.objects.mergeInto s.root source },
      [.ofSettings Level.debug ("Configuration loaded from " ++ path)]⟩ := by
  unfold load
  simp only [place, read, bind, Except.bind, pure, Except.pure]

theorem load_of_readObjectAs_error {path : String} {failure : SettingsFailure} (place : s.path = some path)
    (failed : Settings.readObjectAs id files path = .error failure) : load files s = .error failure := by
  unfold load
  simp only [place, failed, bind, Except.bind, pure, Except.pure]

theorem load_eq_ok {loaded : Logged Live} (done : load files s = .ok loaded) : ∃ path source,
    s.path = some path ∧ Settings.readObjectAs id files path = .ok source ∧
      loaded.value = { s with objects := s.objects.mergeInto s.root source } := by
  cases place : s.path with
  | none =>
      unfold load at done
      simp [place, bind, Except.bind, throw, throwThe, MonadExceptOf.throw] at done
  | some path =>
      cases read : Settings.readObjectAs id files path with
      | error failure =>
          rw [load_of_readObjectAs_error place read] at done
          cases done
      | ok source =>
          rw [load_of_readObjectAs place read] at done
          cases done
          exact ⟨path, source, rfl, read, by rw [place]⟩

theorem unshared_loaded {path : String} {source : Entries Points} (shown : s.Unshared entries)
    (read : Settings.readObjectAs id files path = .ok source) :
    Live.Unshared { s with objects := s.objects.mergeInto s.root source } (mergeEntries entries source) := by
  obtain ⟨r, known, shown⟩ := shown.known
  obtain ⟨r', _, merged⟩ := Objects.unshared_merged (Settings.proper_readObjectAs read) shown known
  exact ⟨r', merged⟩

theorem exists_unshared_load {loaded : Logged Live} (shown : s.Unshared entries)
    (done : load files s = .ok loaded) : ∃ entries, loaded.value.Unshared entries := by
  obtain ⟨path, source, _, read, result⟩ := load_eq_ok done
  rw [result]
  exact ⟨_, unshared_loaded shown read⟩

theorem exists_unshared_perform (shown : s.Unshared entries) (call : Call Points)
    (given : ∀ v ∈ call.given, Proper anyReal v) : ∃ entries, (s.perform call).Unshared entries := by
  cases call with
  | set key v => exact ⟨_, unshared_setNew shown (given v (List.mem_singleton.mpr rfl)) key⟩
  | remove key => exact ⟨_, (unshared_remove shown key).1⟩
  | override overrides =>
      exact ⟨_, unshared_override shown overrides fun e member => given _ (List.mem_map_of_mem member)⟩
  | load files path =>
      rw [perform]
      split
      · next loaded done =>
        exact exists_unshared_load (s := { s with path }) shown done
      · exact ⟨entries, shown⟩

theorem exists_unshared_after (calls : List (Call Points))
    (given : ∀ call ∈ calls, ∀ v ∈ call.given, Proper anyReal v) :
    ∀ {s : Live} {entries : Entries Points}, s.Unshared entries →
      ∃ entries, (s.after calls).Unshared entries := by
  induction calls with
  | nil => exact fun shown => ⟨_, shown⟩
  | cons call calls ih =>
      intro s entries shown
      rw [List.forall_mem_cons] at given
      obtain ⟨_, result⟩ := exists_unshared_perform shown call given.1
      exact ih given.2 result

/-- Settings that calls lead to, also those that hand over what dictionaries there are. -/
inductive Reached : Live → Prop
  | standard (path : Option String) : Reached (standard path)
  | build (s : Live) (v : Value Points) (before : Reached s) (proper : Proper anyReal v) :
      Reached { s with objects := (s.objects.build v).2 }
  | set (s : Live) (key : Points) (item : Item Points) (before : Reached s)
      (there : Objects.Fits s.objects.length item) : Reached (s.set key item)
  | remove (s : Live) (key : Points) (before : Reached s) : Reached (s.remove key).1
  | load (s : Live) (files : Files) (path : Option String) (before : Reached s) :
      Reached (s.perform (.load files path))

theorem Reached.sound (reached : s.Reached) : s.objects.Sound ∧ s.root < s.objects.length := by
  induction reached with
  | standard path =>
      have built := Objects.built_build proper_standard []
      exact ⟨built.sound Objects.Sound.nil, built.fits.lt⟩
  | build s v _ proper ih =>
      have built := Objects.built_build proper s.objects
      exact ⟨built.sound ih.1, Nat.lt_of_lt_of_le ih.2 built.old.length_le⟩
  | set s key item _ there ih =>
      exact ⟨ih.1.assign there _ _, Nat.lt_of_lt_of_le ih.2 (Objects.length_le_assign _ _ _ _)⟩
  | remove s key _ ih =>
      cases removed : s.objects.delete s.root (segments key) with
      | none => rwa [remove_none removed]
      | some left =>
          rw [remove_some removed]
          refine ⟨ih.1.delete removed, ?_⟩
          obtain ⟨e, last, item, _, _, rfl⟩ := Objects.delete_eq_erase removed
          exact ih.2.trans_eq List.length_set.symm
  | load s files path _ ih =>
      rw [perform]
      split
      · next loaded done =>
        obtain ⟨_, source, _, read, result⟩ := load_eq_ok done
        obtain ⟨sound, longer⟩ := Objects.sound_merged (Settings.proper_readObjectAs read) ih.1 s.root
        rw [result]
        exact ⟨sound, Nat.lt_of_lt_of_le ih.2 longer⟩
      · exact ih

end Live

end HtmlTree
