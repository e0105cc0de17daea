import HtmlTree.Settings.Section
import Mathlib.Data.List.Induction
import Mathlib.Data.List.Nodup

/-! Dictionaries: their keys, and what is read from them, after a key was put or erased and after all
pairs of a list were put. -/

namespace HtmlTree

section Keys

variable {τ α : Type} [DecidableEq τ] {key other : τ}

@[simp] theorem lookup_put_self (key : τ) (value : α) (entries : List (τ × α)) :
    lookup key (put key value entries) = some value := by
  induction entries with
  | nil => simp [put, lookup]
  | cons entry entries ih =>
      by_cases same : entry.1 = key
      · simp [put, lookup, same]
      · simp [put, lookup, same, ih]

theorem lookup_put_of_ne (different : other ≠ key) (value : α) (entries : List (τ × α)) :
    lookup other (put key value entries) = lookup other entries := by
  induction entries with
  | nil => simp [put, lookup, Ne.symm different]
  | cons entry entries ih =>
      by_cases same : entry.1 = key
      · simp [put, lookup, same, Ne.symm different]
      · simp [put, lookup, same, ih]

theorem put_put_self (key : τ) (old new : α) (entries : List (τ × α)) :
    put key new (put key old entries) = put key new entries := by
  induction entries with
  | nil => simp [put]
  | cons entry entries ih =>
      by_cases same : entry.1 = key
      · simp [put, same]
      · simp [put, same, ih]

theorem put_put_of_mem (different : key ≠ other) (v w : α) {entries : List (τ × α)}
    (known : key ∈ entries.map (·.1)) :
    put key v (put other w entries) = put other w (put key v entries) := by
  induction entries with
  | nil => cases known
  | cons entry entries ih =>
      by_cases same : entry.1 = key
      · simp [put, same, different]
      · have later : key ∈ entries.map (·.1) := by
          simpa [Ne.symm same] using known
        by_cases also : entry.1 = other
        · simp [put, also, Ne.symm different]
        · simp [put, same, also, ih later]

theorem put_of_fresh (key : τ) (value : α) (entries : List (τ × α))
    (fresh : key ∉ entries.map (·.1)) : put key value entries = entries ++ [(key, value)] := by
  induction entries with
  | nil => rfl
  | cons entry entries ih =>
      rw [List.map_cons, List.mem_cons, not_or] at fresh
      rw [put, if_neg (Ne.symm fresh.1), ih fresh.2, List.cons_append]

theorem keys_put_of_mem (key : τ) (value : α) (entries : List (τ × α))
    (known : key ∈ entries.map (·.1)) :
    (put key value entries).map (·.1) = entries.map (·.1) := by
  induction entries with
  | nil => cases known
  | cons entry entries ih =>
      by_cases same : entry.1 = key
      · simp [put, same]
      · have later : key ∈ entries.map (·.1) := by
          simpa [Ne.symm same] using known
        simp [put, same, ih later]

theorem prefix_keys_put (key : τ) (value : α) (entries : List (τ × α)) :
    entries.map (·.1) <+: (put key value entries).map (·.1) := by
  by_cases known : key ∈ entries.map (·.1)
  · exact (keys_put_of_mem key value entries known).symm ▸ List.prefix_rfl
  · rw [put_of_fresh _ _ _ known, List.map_append]
    exact List.prefix_append _ _

theorem nodup_keys_put (key : τ) (value : α) (entries : List (τ × α))
    (distinct : (entries.map (·.1)).Nodup) : ((put key value entries).map (·.1)).Nodup := by
  by_cases known : key ∈ entries.map (·.1)
  · rwa [keys_put_of_mem _ _ _ known]
  · rw [put_of_fresh _ _ _ known, List.map_append]
    simpa using List.Nodup.concat known distinct

theorem mem_put {entry : τ × α} {key : τ} {value : α} {entries : List (τ × α)}
    (member : entry ∈ put key value entries) : entry = (key, value) ∨ entry ∈ entries := by
  induction entries with
  | nil => exact Or.inl (List.mem_singleton.mp member)
  | cons first entries ih =>
      rw [put] at member
      split at member
      · next same =>
        rcases List.mem_cons.mp member with rfl | later
        · exact Or.inl (by rw [same])
        · exact Or.inr (List.mem_cons_of_mem first later)
      · rcases List.mem_cons.mp member with rfl | later
        · exact Or.inr List.mem_cons_self
        · exact (ih later).imp_right (List.mem_cons_of_mem first)

theorem lookup_eq_none_iff (key : τ) (entries : List (τ × α)) :
    lookup key entries = none ↔ key ∉ entries.map (·.1) := by
  induction entries with
  | nil => simp [lookup]
  | cons entry entries ih =>
      by_cases same : entry.1 = key
      · simp [lookup, same]
      · simp [lookup, same, ih, Ne.symm same]

theorem exists_lookup_iff (key : τ) (entries : List (τ × α)) :
    (∃ value, lookup key entries = some value) ↔ key ∈ entries.map (·.1) := by
  rw [← Option.ne_none_iff_exists', ne_eq, lookup_eq_none_iff, not_not]

theorem mem_of_lookup {value : α} {entries : List (τ × α)}
    (found : lookup key entries = some value) : (key, value) ∈ entries := by
  induction entries with
  | nil => cases found
  | cons entry entries ih =>
      rw [lookup] at found
      split at found
      · next same =>
        cases found
        rw [← same]
        exact List.mem_cons_self
      · exact List.mem_cons_of_mem entry (ih found)

theorem lookup_of_mem {value : α} {entries : List (τ × α)}
    (distinct : (entries.map (·.1)).Nodup) (member : (key, value) ∈ entries) :
    lookup key entries = some value := by
  induction entries with
  | nil => cases member
  | cons entry entries ih =>
      rw [List.map_cons, List.nodup_cons] at distinct
      rcases List.mem_cons.mp member with rfl | later
      · rw [lookup, if_pos rfl]
      · rw [lookup, if_neg, ih distinct.2 later]
        rintro rfl
        exact distinct.1 (List.mem_map.mpr ⟨_, later, rfl⟩)

theorem put_of_lookup {value : α} {entries : List (τ × α)}
    (found : lookup key entries = some value) : put key value entries = entries := by
  induction entries with
  | nil => cases found
  | cons entry entries ih =>
      rw [lookup] at found
      rw [put]
      split at found
      · cases found
        rw [if_pos ‹_›]
      · rw [if_neg ‹_›, ih found]

theorem keys_erase (key : τ) (entries : List (τ × α)) :
    (erase key entries).map (·.1) = (entries.map (·.1)).erase key := by
  induction entries with
  | nil => rfl
  | cons entry entries ih =>
      by_cases same : entry.1 = key
      · simp [erase, same]
      · simp [erase, same, ih]

theorem mem_of_mem_erase {entry : τ × α} {entries : List (τ × α)}
    (member : entry ∈ erase key entries) : entry ∈ entries := by
  induction entries with
  | nil => cases member
  | cons first entries ih =>
      rw [erase] at member
      split at member
      · exact List.mem_cons_of_mem first member
      · rcases List.mem_cons.mp member with rfl | later
        · exact List.mem_cons_self
        · exact List.mem_cons_of_mem first (ih later)

theorem lookup_erase_self (key : τ) (entries : List (τ × α))
    (distinct : (entries.map (·.1)).Nodup) : lookup key (erase key entries) = none := by
  rw [lookup_eq_none_iff, keys_erase]
  exact distinct.not_mem_erase

theorem lookup_erase_of_ne (different : other ≠ key) (entries : List (τ × α)) :
    lookup other (erase key entries) = lookup other entries := by
  induction entries with
  | nil => rfl
  | cons entry entries ih =>
      by_cases same : entry.1 = key
      · simp [erase, lookup, same, Ne.symm different]
      · simp [erase, lookup, same, ih]

theorem erase_put_of_ne (different : key ≠ other) (v : α) (entries : List (τ × α)) :
    erase key (put other v entries) = put other v (erase key entries) := by
  induction entries with
  | nil => simp [put, erase, Ne.symm different]
  | cons entry entries ih =>
      by_cases same : entry.1 = key
      · simp [put, erase, same, different]
      · by_cases also : entry.1 = other
        · simp [put, erase, also, Ne.symm different]
        · simp [put, erase, same, also, ih]

theorem erase_erase (key other : τ) (entries : List (τ × α)) :
    erase key (erase other entries) = erase other (erase key entries) := by
  by_cases different : key = other
  · rw [different]
  · induction entries with
    | nil => rfl
    | cons entry entries ih =>
        by_cases same : entry.1 = key
        · simp [erase, same, different]
        · by_cases also : entry.1 = other
          · simp [erase, also, Ne.symm different]
          · simp [erase, same, also, ih]

theorem collect_concat (pairs : List (τ × α)) (pair : τ × α) :
    collect (pairs ++ [pair]) = put pair.1 pair.2 (collect pairs) := by
  simp [collect, List.foldl_append]

/-- Each key stands where it was first put. -/
theorem keys_collect (pairs : List (τ × α)) :
    (collect pairs).map (·.1) = (pairs.map (·.1)).eraseDups := by
  induction pairs using List.reverseRecOn with
  | nil => rfl
  | append_singleton pairs pair ih =>
      rw [collect_concat, List.map_append, List.map_singleton, List.eraseDups_append, ← ih]
      by_cases known : pair.1 ∈ pairs.map (·.1)
      · have before : pair.1 ∈ (collect pairs).map (·.1) := by
          rw [ih]
          exact List.mem_eraseDups.mpr known
        rw [keys_put_of_mem _ _ _ before]
        simp [List.removeAll, known]
      · have fresh : pair.1 ∉ (collect pairs).map (·.1) := by
          rw [ih]
          exact fun member => known (List.mem_eraseDups.mp member)
        rw [put_of_fresh _ _ _ fresh, List.map_append]
        simp [List.removeAll, known, List.eraseDups_cons]

theorem lookup_collect (key : τ) (pairs : List (τ × α)) :
    lookup key (collect pairs) = lookup key pairs.reverse := by
  induction pairs using List.reverseRecOn with
  | nil => rfl
  | append_singleton pairs pair ih =>
      rw [collect_concat, List.reverse_append, List.reverse_singleton, List.singleton_append,
        lookup]
      by_cases same : pair.1 = key
      · rw [if_pos same, same, lookup_put_self]
      · rw [if_neg same, lookup_put_of_ne (Ne.symm same), ih]

theorem nodup_keys_collect (pairs : List (τ × α)) : ((collect pairs).map (·.1)).Nodup := by
  induction pairs using List.reverseRecOn with
  | nil => exact List.nodup_nil
  | append_singleton pairs pair ih =>
      rw [collect_concat]
      exact nodup_keys_put _ _ _ ih

theorem collect_of_nodup (pairs : List (τ × α)) (distinct : (pairs.map (·.1)).Nodup) :
    collect pairs = pairs := by
  induction pairs using List.reverseRecOn with
  | nil => rfl
  | append_singleton pairs pair ih =>
      rw [List.map_append, List.map_singleton, List.nodup_append] at distinct
      have before := ih distinct.1
      have fresh : pair.1 ∉ (collect pairs).map (·.1) := by
        rw [before]
        exact fun member => distinct.2.2 pair.1 member pair.1 (List.mem_singleton.mpr rfl) rfl
      rw [collect_concat, put_of_fresh _ _ _ fresh, before]

theorem entries_eq_of_nodup (entries : List (τ × α)) (distinct : (entries.map (·.1)).Nodup)
    (standard : α) :
    entries = (entries.map (·.1)).map fun key => (key, (lookup key entries).getD standard) := by
  induction entries with
  | nil => rfl
  | cons entry entries ih =>
      rw [List.map_cons, List.nodup_cons] at distinct
      have later : ∀ key ∈ entries.map (·.1), lookup key (entry :: entries) = lookup key entries := by
        intro key member
        rw [lookup, if_neg]
        rintro rfl
        exact distinct.1 member
      rw [List.map_cons, List.map_cons, List.map_congr_left fun key member => by rw [later key member],
        ← ih distinct.2]
      simp [lookup]

end Keys

namespace Options

theorem get?_ofEntries (entries : Entries) (key : String) :
    Options.get? (entries.map fun entry => (.text entry.1, entry.2)) key = lookup key entries := by
  induction entries with
  | nil => rfl
  | cons entry entries ih =>
      by_cases same : entry.1 = key
      · simp [Options.get?, Options.sameKey, lookup, same]
      · simpa [Options.get?, Options.sameKey, lookup, same] using ih

def flagOf (entries : Entries) (name : String) (standard : Bool) : Bool :=
  match lookup name entries with
  | some v => v.truthy
  | none => standard

theorem flag_ofEntries (entries : Entries) (name : String) (standard : Bool) :
    flag (entries.map fun entry => (.text entry.1, entry.2)) name standard =
      flagOf entries name standard := by
  rw [flag, get?_ofEntries]
  rfl

end Options

end HtmlTree
