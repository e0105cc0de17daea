import HtmlTree.Proofs.Settings.Live
import HtmlTree.Proofs.Settings.Shared

/-! Settings as a store of values under dotted keys. A key leads where its segments do; what is set or
removed under one key is seen under it, under the keys that go on from it, and under those that it goes
on from, and nowhere else. Where dictionaries stand in several places, it is seen by all keys that look up
the entry that was written. -/

namespace HtmlTree.Live

open Value (Proper anyReal)
open Settings (Call)
open Points (ofString)

/-- What is handed out for a key shows the value, or is the default where there is no value. -/
def Gives (s : Live) (key : Points) (d : Item Points) : Option (Value Points) → Prop
  | some w => ∃ r, s.objects.Unshared r (s.get key d) w
  | none => s.get key d = d

/-- The entries that a key looks up, each by its dictionary. -/
def trail (s : Live) (key : Points) : List (Nat × Points) := s.objects.trail s.root (segments key)

/-- Keys of which neither goes on from the other. -/
def Apart (first second : Points) : Prop :=
  ¬ segments first <+: segments second ∧ ¬ segments second <+: segments first

instance (first second : Points) : Decidable (Apart first second) :=
  inferInstanceAs (Decidable (_ ∧ _))

theorem Apart.symm {first second : Points} (apart : Apart first second) : Apart second first :=
  ⟨apart.2, apart.1⟩

variable {s : Live} {key other : Points} {entries : Entries Points} {v : Value Points} {item : Item Points}

theorem get_of_find_none (nothing : s.find key = none) (d : Item Points) : s.get key d = d := by
  rw [get, nothing, Option.getD_none]

theorem get_of_find_some (found : s.find key = some item) (d : Item Points) : s.get key d = item := by
  rw [get, found, Option.getD_some]

theorem Unshared.gives (shown : s.Unshared entries) (key : Points) (d : Item Points) :
    s.Gives key d ((Value.dict entries).walk (segments key)) := by
  obtain ⟨r, shown⟩ := shown
  rcases shown.walk (segments key) with ⟨nothing, absent⟩ | ⟨part, item, w, found, there, inner⟩
  · rw [absent]
    exact get_of_find_none ((find_eq_walk s key).trans nothing) d
  · rw [there, Gives, get_of_find_some ((find_eq_walk s key).trans found) d]
    exact ⟨part, inner⟩

section Removing

variable (s : Live) (key : Points)

theorem remove_true_iff : (s.remove key).2 = true ↔ ∃ item, s.find key = some item := by
  rw [find_eq_walk, ← Option.ne_none_iff_exists', ne_eq,
    ← Objects.delete_eq_none_iff (segments_ne_nil key)]
  cases removed : s.objects.delete s.root (segments key) with
  | none => simp [remove_none removed]
  | some left => simp [remove_some removed]

theorem remove_of_false (nothing : (s.remove key).2 = false) : (s.remove key).1 = s := by
  cases removed : s.objects.delete s.root (segments key) with
  | none => rw [remove_none removed]
  | some left =>
      rw [remove_some removed] at nothing
      cases nothing

end Removing

theorem laws_of_unshared (shown : s.Unshared entries) (proper : Proper anyReal v) (key : Points)
    (d : Item Points) :
    (∀ other q, segments other = segments key ++ q → (s.setNew key v).Gives other d (v.walk q)) ∧
    (s.remove key).1.get key d = d ∧
    ∀ other, ¬ segments key <+: segments other → ¬ segments other <+: segments key →
      ∃ w, s.Gives other d w ∧ (s.setNew key v).Gives other d w ∧ (s.remove key).1.Gives other d w := by
  have set := unshared_setNew shown proper key
  have removed := (unshared_remove shown key).1
  refine ⟨?_, ?_, ?_⟩
  · intro other q further
    have gives := set.gives other d
    rwa [further, walk_setPath v (segments_ne_nil key)] at gives
  · have gives := removed.gives key d
    rwa [walk_without shown.proper (segments_ne_nil key)] at gives
  · intro other apart apart'
    refine ⟨_, shown.gives other d, ?_, ?_⟩
    · have gives := set.gives other d
      rwa [walk_setPath_of_apart v apart apart'] at gives
    · have gives := removed.gives other d
      rwa [walk_without_of_apart apart apart'] at gives

section Sharing

variable (reached : s.Reached)
include reached

theorem find_set_of_once (once : (s.trail key).Nodup) (item : Item Points) {q : List Points}
    (further : segments other = segments key ++ q) :
    (s.set key item).find other = (s.set key item).objects.walk q item := by
  obtain ⟨sound, root⟩ := reached.sound
  have known : ∀ entry ∈ s.trail key, entry.1 < s.objects.length := fun entry member =>
    sound.lt_of_mem_trail root member
  have found : (s.set key item).objects.walk (segments key) (.dict (s.set key item).root) = some item :=
    Objects.walk_assign_self known once (segments_ne_nil key) item
  rw [find_eq_walk, further, Objects.walk_append, found, Option.bind_some]

/-- What does not look up the entry that is written does not change. -/
theorem find_set_of_not_mem {entry : Nat × Points} (written : (s.trail key).getLast? = some entry)
    (apart : entry ∉ s.trail other) (item : Item Points) : (s.set key item).find other = s.find other := by
  obtain ⟨sound, root⟩ := reached.sound
  rw [find_eq_walk, find_eq_walk]
  refine Objects.walk_congr fun looked member => ?_
  refine Objects.lookup_assign written (sound.lt_of_mem_trail root member) (fun same => apart ?_) item
  rwa [← same]

theorem find_set_of_same_trail (same : s.trail key = s.trail other) (apart : Apart key other)
    (item : Item Points) : (s.set key item).find other = s.find other := by
  obtain ⟨sound, root⟩ := reached.sound
  rw [find_eq_walk, find_eq_walk]
  exact Objects.walk_assign apart.1 apart.2 (Or.inl same) sound root item

omit reached in
theorem find_remove_of_same_trail (same : s.trail key = s.trail other) (apart : Apart key other)
    {entry : Nat × Points} (written : (s.trail key).getLast? = some entry) :
    (s.remove key).1.find other = s.find other := by
  rw [remove_none (Objects.stop_of_same_trail same apart.1 apart.2 written).2]

omit reached in
theorem find_remove_of_not_mem {entry : Nat × Points} (written : (s.trail key).getLast? = some entry)
    (apart : entry ∉ s.trail other) : (s.remove key).1.find other = s.find other := by
  cases removed : s.objects.delete s.root (segments key) with
  | none => rw [remove_none removed]
  | some left =>
      rw [remove_some removed, find_eq_walk, find_eq_walk]
      refine Objects.walk_congr fun looked member => ?_
      refine Objects.lookup_delete removed written fun same => apart ?_
      rwa [← same]

theorem get_remove_self (key : Points) (d : Item Points) : (s.remove key).1.get key d = d := by
  apply get_of_find_none
  cases removed : s.objects.delete s.root (segments key) with
  | none =>
      rw [remove_none removed, find_eq_walk]
      exact (Objects.delete_eq_none_iff (segments_ne_nil key)).mp removed
  | some left =>
      rw [remove_some removed, find_eq_walk]
      exact Objects.walk_delete_self reached.sound.1 removed

end Sharing

def overwritingEntries : Entries := [("parser", .int 7), ("x", .list [.dict []])]

def overwritingFiles : Files := ⟨[(["c.json"], .file (Json.document (.dict overwritingEntries)))]⟩

def overwritingCalls : List (Call Points) :=
  [.load overwritingFiles (some "c.json"), .set (ofString "a.b") (.int 5), .remove (ofString "logging")]

theorem overwritingCalls_given : ∀ call ∈ overwritingCalls, ∀ w ∈ call.given, Proper anyReal w := by
  simp only [overwritingCalls, Call.given, List.forall_mem_cons, List.not_mem_nil, false_implies,
    implies_true, and_true, true_and]
  exact .int 5

theorem read_overwritingFiles : Settings.readObjectAs id overwritingFiles "c.json" =
    .ok (Value.mapEntries ofString overwritingEntries) := by
  have place : Files.steps "c.json" = ["c.json"] := by decide
  have content : overwritingFiles.read "c.json" = .ok (Json.document (.dict overwritingEntries)) := by
    rw [Files.read, place]
    rfl
  have apart : Function.Injective (id ∘ ofString) := Points.ofString_injective
  refine Settings.readObjectAs_document apart (.dict _ (by decide) ?_) content
  simp only [overwritingEntries, List.forall_mem_cons, List.not_mem_nil, false_implies,
    implies_true, and_true]
  exact ⟨.int 7, .list _ fun _ member => List.mem_singleton.mp member ▸ Value.proper_nil⟩

def overwritten : Live := ⟨(standard none).objects.mergeInto (standard none).root
  (Value.mapEntries ofString overwritingEntries), (standard none).root, some "c.json"⟩

theorem after_overwritingCalls : (standard none).after overwritingCalls =
    ((overwritten.setNew (ofString "a.b") (.int 5)).remove (ofString "logging")).1 := by
  have loaded := load_of_readObjectAs (s := ⟨(standard none).objects, (standard none).root, some "c.json"⟩)
    rfl read_overwritingFiles
  simp only [after, overwritingCalls, List.foldl_cons, List.foldl_nil, perform, loaded]
  rfl

/-- One section stands under two keys. -/
def backedUp : Live := (standard none).set (ofString "backup") ((standard none).get (ofString "parser") .null)

theorem reached_backedUp : backedUp.Reached := by
  exact .set _ _ _ (.standard none) (.dict 0 (by decide))

end HtmlTree.Live
