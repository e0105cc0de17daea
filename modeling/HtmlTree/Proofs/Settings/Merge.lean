import HtmlTree.Settings
import HtmlTree.Proofs.Values

/-! Merging dictionaries, told key by key. A merged dictionary is as proper as the two it is made of, and
one merged over itself stays as it is. What is merged over defaults comes out as it went in just if it
has all their keys. -/

namespace HtmlTree

open Decimal (Binary64)
open Value (Proper noReal equal_dict_iff equal_self)

section Merging

variable {τ : Type} [DecidableEq τ]

/-- What is under a key after a merge: the new value over the old one, or else the old one. -/
theorem lookup_mergeEntries (key : τ) (source : Entries τ)
    (distinct : (source.map (·.1)).Nodup) : ∀ target : Entries τ,
    lookup key (mergeEntries target source) = match lookup key source with
      | some v => some (mergeValue (lookup key target) v)
      | none => lookup key target := by
  induction source with
  | nil => exact fun _ => rfl
  | cons entry source ih =>
      intro target
      rw [List.map_cons, List.nodup_cons] at distinct
      rw [mergeEntries, ih distinct.2, lookup]
      by_cases same : entry.1 = key
      · subst same
        rw [(lookup_eq_none_iff _ source).mpr distinct.1, if_pos rfl]
        exact lookup_put_self _ _ _
      · rw [if_neg same, lookup_put_of_ne (Ne.symm same)]

theorem mergeEntries_eq_self (target source : Entries τ)
    (kept : ∀ entry ∈ source, ∃ old, lookup entry.1 target = some old ∧
      mergeValue (some old) entry.2 = old) : mergeEntries target source = target := by
  induction source with
  | nil => rfl
  | cons entry source ih =>
      rw [List.forall_mem_cons] at kept
      obtain ⟨⟨old, found, same⟩, later⟩ := kept
      rw [mergeEntries, found, same, put_of_lookup found]
      exact ih later

theorem mergeValue_self {fits : Binary64 → Prop} {v : Value τ} (proper : Proper fits v) :
    mergeValue (some v) v = v := by
  induction proper with
  | dict entries distinct _ ih =>
      rw [mergeValue, mergeEntries_eq_self]
      intro entry member
      exact ⟨entry.2, lookup_of_mem distinct member, ih entry member⟩
  | _ => rfl

theorem mergeEntries_self {fits : Binary64 → Prop} {entries : Entries τ}
    (proper : Proper fits (.dict entries)) : mergeEntries entries entries = entries := by
  have same := mergeValue_self proper
  rw [mergeValue] at same
  exact Value.dict.inj same

theorem Value.Proper.mergeEntries {fits : Binary64 → Prop} {source : Entries τ}
    (merge : ∀ entry ∈ source, ∀ old, (∀ v, old = some v → Proper fits v) →
      Proper fits (mergeValue old entry.2)) :
    ∀ {target : Entries τ}, Proper fits (.dict target) →
      Proper fits (.dict (mergeEntries target source)) := by
  induction source with
  | nil => exact fun target => target
  | cons entry source ih =>
      intro target dict
      rw [List.forall_mem_cons] at merge
      rw [HtmlTree.mergeEntries]
      apply ih merge.2
      exact dict.put (merge.1 _ fun v found => dict.of_lookup found) entry.1

theorem Value.Proper.mergeValue {fits : Binary64 → Prop} {v : Value τ} (proper : Proper fits v) :
    ∀ old, (∀ w, old = some w → Proper fits w) → Proper fits (mergeValue old v) := by
  induction proper with
  | dict entries distinct inside ih =>
      intro old fit
      unfold HtmlTree.mergeValue
      split
      · exact Value.Proper.mergeEntries ih (fit _ rfl)
      · exact .dict entries distinct inside
  | null => exact fun _ _ => .null
  | bool b => exact fun _ _ => .bool b
  | int n => exact fun _ _ => .int n
  | real x fit => exact fun _ _ => .real x fit
  | text s => exact fun _ _ => .text s
  | list items inside _ => exact fun _ _ => .list items inside

theorem Value.Proper.merged {fits : Binary64 → Prop} {target source : Entries τ}
    (old : Proper fits (.dict target)) (new : Proper fits (.dict source)) :
    Proper fits (.dict (HtmlTree.mergeEntries target source)) := by
  have whole := new.mergeValue (some (.dict target)) fun w same => by
    rw [← Option.some.inj same]
    exact old
  rwa [HtmlTree.mergeValue] at whole

theorem mergeValue_none (v : Value τ) : mergeValue none v = v := by
  cases v <;> rfl

theorem mergeValue_of_not_dict (source : Entries τ) {old : Option (Value τ)}
    (other : ∀ target, old ≠ some (.dict target)) : mergeValue old (.dict source) = .dict source := by
  unfold mergeValue
  split
  · next target => exact absurd rfl (other target)
  · rfl

theorem mergeValue_scalar {v : Value τ} (old : Option (Value τ)) (scalar : v.dict? = none) :
    mergeValue old v = v := by
  cases v with
  | dict entries => cases scalar
  | _ => rfl

end Merging

mutual

/-- Whether a value has all keys of some defaults, at every depth where both are dictionaries. -/
def Value.keeps : Value → Value → Bool
  | .dict defaults, .dict entries => keepsEntries defaults entries
  | _, _ => true

def keepsEntries : List (String × Value) → Entries → Bool
  | [], _ => true
  | (key, standard) :: defaults, entries =>
    (match lookup key entries with
      | some v => standard.keeps v
      | none => false) && keepsEntries defaults entries

end

theorem keepsEntries_iff (defaults entries : Entries) : keepsEntries defaults entries = true ↔
    ∀ standard ∈ defaults, ∃ v, lookup standard.1 entries = some v ∧ standard.2.keeps v = true := by
  induction defaults with
  | nil => simp [keepsEntries]
  | cons standard defaults ih =>
      rw [keepsEntries, Bool.and_eq_true, ih, List.forall_mem_cons]
      cases lookup standard.1 entries <;> simp

/-- A dictionary merged over defaults equals itself just if it has all their keys, given that this holds
of the values in it. -/
theorem equal_mergeEntries_iff {defaults entries : Entries} (standard : Proper noReal (.dict defaults))
    (proper : Proper noReal (.dict entries))
    (inside : ∀ entry ∈ entries, ∀ {standard : Value}, Proper noReal standard →
      ((mergeValue (some standard) entry.2).equal entry.2 = true ↔ standard.keeps entry.2 = true)) :
    (Value.dict (mergeEntries defaults entries)).equal (.dict entries) = true ↔
      keepsEntries defaults entries = true := by
  have merged := fun key => lookup_mergeEntries key entries proper.distinct defaults
  rw [equal_dict_iff, keepsEntries_iff]
  constructor
  -- An option that is missing from the entries comes back with the merge, and the two then differ.
  · rintro ⟨same, _⟩ option member
    have known : lookup option.1 defaults = some option.2 := lookup_of_mem standard.distinct member
    cases here : lookup option.1 entries with
    | none =>
        have restored : lookup option.1 (mergeEntries defaults entries) = some option.2 := by
          rw [merged, here, known]
        obtain ⟨v, there, _⟩ := same _ (mem_of_lookup restored)
        rw [here] at there
        cases there
    | some v =>
        have kept : lookup option.1 (mergeEntries defaults entries) =
            some (mergeValue (some option.2) v) := by
          rw [merged, here, known]
        obtain ⟨other, there, equal⟩ := same _ (mem_of_lookup kept)
        obtain rfl : v = other := Option.some.inj (here.symm.trans there)
        have fit : Proper noReal option.2 := standard.of_lookup known
        exact ⟨v, rfl, (inside (option.1, v) (mem_of_lookup here) fit).mp equal⟩
  · intro kept
    constructor
    · intro entry member
      have there := lookup_of_mem (standard.merged proper).distinct member
      rw [merged] at there
      cases here : lookup entry.1 entries with
      | none =>
          rw [here] at there
          obtain ⟨v, missing, _⟩ := kept _ (mem_of_lookup there)
          rw [here] at missing
          cases missing
      | some v =>
          rw [here] at there
          refine ⟨v, rfl, ?_⟩
          rw [← Option.some.inj there]
          cases known : lookup entry.1 defaults with
          | none =>
              rw [mergeValue_none]
              exact equal_self (proper.of_lookup here)
          | some option =>
              obtain ⟨other, found, keeps⟩ := kept _ (mem_of_lookup known)
              obtain rfl : v = other := Option.some.inj (here.symm.trans found)
              exact (inside (entry.1, v) (mem_of_lookup here) (standard.of_lookup known)).mpr keeps
    · intro entry member
      exact ⟨_, by rw [merged, lookup_of_mem proper.distinct member]⟩

/-- A value merged over defaults equals itself just if it has all their keys. -/
theorem equal_merge_iff {v : Value} (proper : Proper noReal v) :
    ∀ {standard : Value}, Proper noReal standard →
      ((mergeValue (some standard) v).equal v = true ↔ standard.keeps v = true) := by
  refine @(proper.dict_induction ?other ?dict)
  case other =>
    intro v proper scalar standard fit
    rw [mergeValue_scalar _ scalar]
    refine iff_of_true (equal_self proper) ?_
    cases v with
    | dict entries => cases scalar
    | _ => cases standard <;> rfl
  case dict =>
    intro entries proper ih standard fit
    cases standard with
    | dict defaults => exact equal_mergeEntries_iff fit proper ih
    | _ => exact iff_of_true (equal_self proper) rfl

end HtmlTree
