import HtmlTree.Proofs.Entries

/-! Values as they can be: no dictionary in them repeats a key. All that settings are made of is of this
kind. Two such values are equal if they differ in nothing but the order of keys. -/

namespace HtmlTree

open Decimal (Binary64)

namespace Value

variable {τ : Type}

/-- A value whose dictionaries repeat no key, and whose numbers with a fraction are all of a kind. -/
inductive Proper (fits : Binary64 → Prop) : Value τ → Prop
  | null : Proper fits .null
  | bool (b : Bool) : Proper fits (.bool b)
  | int (n : Int) : Proper fits (.int n)
  | real (x : Binary64) (fit : fits x) : Proper fits (.real x)
  | text (s : τ) : Proper fits (.text s)
  | list (items : List (Value τ)) (proper : ∀ v ∈ items, Proper fits v) : Proper fits (.list items)
  | dict (entries : Entries τ) (distinct : (entries.map (·.1)).Nodup)
      (proper : ∀ e ∈ entries, Proper fits e.2) : Proper fits (.dict entries)

def anyReal (_ : Binary64) : Prop := True

def noReal (_ : Binary64) : Prop := False

mutual

def isPlain : Value → Bool
  | .real _ => false
  | .list items => isPlainItems items
  | .dict entries => isPlainEntries entries
  | _ => true

def isPlainItems : List Value → Bool
  | [] => true
  | item :: items => item.isPlain && isPlainItems items

def isPlainEntries : List (String × Value) → Bool
  | [] => true
  | (_, v) :: entries => v.isPlain && isPlainEntries entries

end

mutual

/-- Equality of values. Dictionaries are equal if they have the same keys with equal values, in whatever
order; lists item by item; and all else as keys are. -/
def equal : Value → Value → Bool
  | .list items, .list others => equalItems items others
  | .dict entries, .dict others =>
    equalEntries entries others && others.all fun other => (lookup other.1 entries).isSome
  | v, other => Options.sameKey v other

def equalItems : List Value → List Value → Bool
  | [], [] => true
  | item :: items, other :: others => item.equal other && equalItems items others
  | _, _ => false

def equalEntries : List (String × Value) → Entries → Bool
  | [], _ => true
  | (key, v) :: entries, others =>
    (match lookup key others with
      | some other => v.equal other
      | none => false) && equalEntries entries others

end

end Value

open Value (Proper)

section

variable {τ : Type} {fits : Binary64 → Prop} {key : τ} {v : Value τ} {entries : Entries τ}

theorem Value.proper_nil : Proper fits (.dict [] : Value τ) :=
  .dict [] List.nodup_nil fun _ member => nomatch member

theorem Value.Proper.distinct (proper : Proper fits (.dict entries)) : (entries.map (·.1)).Nodup := by
  cases proper with
  | dict _ distinct _ => exact distinct

/-- What holds of dictionaries if it holds of what is in them, and of all else. -/
@[elab_as_elim]
theorem Value.Proper.dict_induction {motive : Value τ → Prop}
    (other : ∀ v, Proper fits v → v.dict? = none → motive v)
    (dict : ∀ entries, Proper fits (.dict entries) → (∀ e ∈ entries, motive e.2) → motive (.dict entries))
    (proper : Proper fits v) : motive v := by
  induction proper with
  | null => exact other .null .null rfl
  | bool b => exact other (.bool b) (.bool b) rfl
  | int n => exact other (.int n) (.int n) rfl
  | real x fit => exact other (.real x) (.real x fit) rfl
  | text s => exact other (.text s) (.text s) rfl
  | list items inside _ => exact other (.list items) (.list items inside) rfl
  | dict entries distinct inside ih => exact dict entries (.dict entries distinct inside) ih

variable [DecidableEq τ]

theorem Value.Proper.put (dict : Proper fits (.dict entries)) (value : Proper fits v) (key : τ) :
    Proper fits (.dict (put key v entries)) := by
  cases dict with
  | dict _ distinct proper =>
      refine .dict _ (nodup_keys_put key v entries distinct) ?_
      intro e member
      rcases mem_put member with rfl | member
      · exact value
      · exact proper e member

theorem Value.Proper.erase (dict : Proper fits (.dict entries)) (key : τ) :
    Proper fits (.dict (erase key entries)) := by
  cases dict with
  | dict _ distinct proper =>
      refine .dict _ ?_ fun e member => proper e (mem_of_mem_erase member)
      rw [keys_erase]
      exact distinct.erase key

theorem Value.Proper.of_lookup (dict : Proper fits (.dict entries)) (found : lookup key entries = some v) :
    Proper fits v := by
  cases dict with
  | dict _ _ proper => exact proper _ (mem_of_lookup found)

theorem Value.Proper.collect (pairs : Entries τ) (proper : ∀ e ∈ pairs, Proper fits e.2) :
    Proper fits (.dict (collect pairs)) := by
  induction pairs using List.reverseRecOn with
  | nil => exact Value.proper_nil
  | append_singleton pairs pair ih =>
      rw [collect_concat]
      rw [List.forall_mem_append, List.forall_mem_singleton] at proper
      exact (ih proper.1).put proper.2 pair.1

end

section Texts

variable {τ σ : Type} {f : τ → σ} {fits : Binary64 → Prop}

theorem Value.mapItems_eq_map (f : τ → σ) (items : List (Value τ)) :
    Value.mapItems f items = items.map (Value.mapTexts f) := by
  induction items with
  | nil => rfl
  | cons item items ih => rw [Value.mapItems, ih, List.map_cons]

theorem Value.mapEntries_eq_map (f : τ → σ) (entries : Entries τ) :
    Value.mapEntries f entries = entries.map fun entry => (f entry.1, entry.2.mapTexts f) := by
  induction entries with
  | nil => rfl
  | cons entry entries ih => rw [Value.mapEntries, ih, List.map_cons]

theorem Value.Proper.mapTexts (injective : Function.Injective f) {v : Value τ} (proper : Proper fits v) :
    Proper fits (v.mapTexts f) := by
  induction proper with
  | null => exact .null
  | bool b => exact .bool b
  | int n => exact .int n
  | real x fit => exact .real x fit
  | text s => exact .text (f s)
  | list items _ ih =>
      rw [Value.mapTexts, Value.mapItems_eq_map]
      exact .list _ (List.forall_mem_map.mpr ih)
  | dict entries distinct _ ih =>
      rw [Value.mapTexts, Value.mapEntries_eq_map]
      refine .dict _ ?_ (List.forall_mem_map.mpr ih)
      rw [List.map_map]
      have keys : entries.map ((·.1) ∘ fun entry => (f entry.1, entry.2.mapTexts f)) =
          (entries.map (·.1)).map f := by
        rw [List.map_map]
        rfl
      rw [keys]
      exact distinct.map injective

theorem Value.mapTexts_id (v : Value τ) (proper : Proper fits v) : v.mapTexts id = v := by
  induction proper with
  | list items _ ih =>
      rw [Value.mapTexts, Value.mapItems_eq_map, List.map_congr_left ih, List.map_id']
  | dict entries _ _ ih =>
      rw [Value.mapTexts, Value.mapEntries_eq_map]
      congr 1
      refine (List.map_congr_left fun entry member => ?_).trans (List.map_id' entries)
      exact Prod.ext rfl (ih entry member)
  | _ => rfl

theorem Points.ofString_injective : Function.Injective Points.ofString := by
  intro s t same
  rw [Points.ofString, Points.ofString, List.map_inj_right fun _ _ => CodePoint.char.inj] at same
  exact String.toList_inj.mp same

end Texts

section Plain

namespace Value

theorem isPlainItems_iff (items : List Value) :
    isPlainItems items = true ↔ ∀ item ∈ items, item.isPlain = true := by
  induction items with
  | nil => simp [isPlainItems]
  | cons item items ih => rw [isPlainItems, Bool.and_eq_true, ih, List.forall_mem_cons]

theorem isPlainEntries_iff (entries : Entries) :
    isPlainEntries entries = true ↔ ∀ entry ∈ entries, entry.2.isPlain = true := by
  induction entries with
  | nil => simp [isPlainEntries]
  | cons entry entries ih => rw [isPlainEntries, Bool.and_eq_true, ih, List.forall_mem_cons]

theorem Proper.of_isPlain {fits : Binary64 → Prop} {v : Value} (proper : Proper fits v)
    (plain : v.isPlain = true) : Proper noReal v := by
  induction proper with
  | null => exact .null
  | bool b => exact .bool b
  | int n => exact .int n
  | real x fit => cases plain
  | text s => exact .text s
  | list items _ ih =>
      rw [isPlain, isPlainItems_iff] at plain
      exact .list items fun item member => ih item member (plain item member)
  | dict entries distinct _ ih =>
      rw [isPlain, isPlainEntries_iff] at plain
      exact .dict entries distinct fun entry member => ih entry member (plain entry member)

theorem Proper.isPlain {v : Value} (proper : Proper noReal v) : v.isPlain = true := by
  induction proper with
  | real x fit => exact fit.elim
  | list items _ ih => exact (isPlainItems_iff items).mpr ih
  | dict entries _ _ ih => exact (isPlainEntries_iff entries).mpr ih
  | _ => rfl

end Value

end Plain

section Equality

namespace Value

variable {entries others : Entries}

theorem equalEntries_iff : equalEntries entries others = true ↔
    ∀ entry ∈ entries, ∃ other, lookup entry.1 others = some other ∧ entry.2.equal other = true := by
  induction entries with
  | nil => simp [equalEntries]
  | cons entry entries ih =>
      rw [equalEntries, Bool.and_eq_true, ih, List.forall_mem_cons]
      cases lookup entry.1 others <;> simp

theorem equal_dict_iff : (dict entries).equal (dict others) = true ↔
    (∀ entry ∈ entries, ∃ other, lookup entry.1 others = some other ∧ entry.2.equal other = true) ∧
      ∀ other ∈ others, ∃ v, lookup other.1 entries = some v := by
  rw [equal, Bool.and_eq_true, equalEntries_iff, List.all_eq_true]
  simp only [Option.isSome_iff_exists]

theorem equalItems_self {items : List Value} (each : ∀ item ∈ items, item.equal item = true) :
    equalItems items items = true := by
  induction items with
  | nil => rfl
  | cons item items ih =>
      rw [List.forall_mem_cons] at each
      rw [equalItems, each.1, ih each.2, Bool.and_true]

theorem equal_self {v : Value} (proper : Proper noReal v) : v.equal v = true := by
  induction proper with
  | null => rfl
  | bool b => cases b <;> decide +kernel
  | int n => simp [equal, Options.sameKey]
  | real x fit => cases fit
  | text s => simp [equal, Options.sameKey]
  | list items _ ih =>
      rw [equal]
      exact equalItems_self ih
  | dict entries distinct _ ih =>
      rw [equal_dict_iff]
      refine ⟨fun entry member => ⟨entry.2, lookup_of_mem distinct member, ih entry member⟩, ?_⟩
      exact fun entry member => ⟨entry.2, lookup_of_mem distinct member⟩

end Value

end Equality

end HtmlTree
