import HtmlTree.Proofs.Values

/-! Paths through nested dictionaries. What a path leads to is told by a walk that starts from any
value; reading, setting and removing are each told by the walks before and after. -/

namespace HtmlTree

open Decimal (Binary64)

variable {τ : Type} [DecidableEq τ]

namespace Value

def walk : List τ → Value τ → Option (Value τ)
  | [], v => some v
  | key :: path, .dict entries => (lookup key entries).bind (walk path)
  | _ :: _, _ => none

theorem walk_dict_cons (key : τ) (path : List τ) (entries : Entries τ) :
    (Value.dict entries).walk (key :: path) = (lookup key entries).bind (walk path) := rfl

theorem walk_append (front back : List τ) (v : Value τ) :
    v.walk (front ++ back) = (v.walk front).bind (walk back) := by
  induction front generalizing v with
  | nil => rfl
  | cons key front ih =>
      cases v with
      | dict entries =>
          rw [List.cons_append, walk_dict_cons, walk_dict_cons, Option.bind_assoc]
          exact Option.bind_congr fun inner _ => ih inner
      | _ => rfl

end Value

open Value (Proper walk walk_dict_cons)

/-- The dictionary under a key, or an empty one in its place. -/
def inner (key : τ) (entries : Entries τ) : Entries τ :=
  match lookup key entries with
  | some (.dict inner) => inner
  | _ => []

section Paths

variable {key : τ} {path other : List τ} {entries left : Entries τ}

theorem getPath_eq_walk (further : path ≠ []) :
    getPath path entries = (Value.dict entries).walk path := by
  induction path generalizing entries with
  | nil => exact absurd rfl further
  | cons key path ih =>
      rw [walk_dict_cons]
      cases path with
      | nil =>
          rw [getPath]
          cases lookup key entries <;> rfl
      | cons next path =>
          simp only [getPath]
          cases lookup key entries with
          | none => rfl
          | some v =>
              cases v with
              | dict inner => exact ih (List.cons_ne_nil next path)
              | _ => rfl

theorem setPath_cons (v : Value τ) (further : path ≠ []) :
    setPath (key :: path) v entries =
      put key (.dict (setPath path v (inner key entries))) entries := by
  obtain ⟨next, path, rfl⟩ := List.exists_cons_of_ne_nil further
  simp only [setPath, inner]
  cases lookup key entries with
  | none => rfl
  | some old => cases old <;> rfl

theorem walk_inner (further : path ≠ []) :
    (Value.dict (inner key entries)).walk path = (lookup key entries).bind (walk path) := by
  obtain ⟨next, rest, rfl⟩ := List.exists_cons_of_ne_nil further
  rw [inner]
  cases lookup key entries with
  | none => rfl
  | some old => cases old <;> rfl

theorem removePath_cons (further : path ≠ [])
    (removed : removePath (key :: path) entries = some left) :
    ∃ old new, lookup key entries = some (.dict old) ∧ removePath path old = some new ∧
      left = put key (.dict new) entries := by
  obtain ⟨next, path, rfl⟩ := List.exists_cons_of_ne_nil further
  simp only [removePath] at removed
  split at removed
  · next old found =>
    obtain ⟨new, inside, rfl⟩ := Option.map_eq_some_iff.mp removed
    exact ⟨old, new, found, inside, rfl⟩
  · cases removed

theorem removePath_single (removed : removePath [key] entries = some left) :
    left = erase key entries := by
  rw [removePath] at removed
  cases found : lookup key entries with
  | none => simp [found] at removed
  | some old =>
      rw [found] at removed
      exact (Option.some.inj removed).symm

theorem walk_setPath (v : Value τ) (further : path ≠ []) (q : List τ) :
    (Value.dict (setPath path v entries)).walk (path ++ q) = v.walk q := by
  induction path generalizing entries with
  | nil => exact absurd rfl further
  | cons key path ih =>
      rw [List.cons_append, walk_dict_cons]
      by_cases last : path = []
      · rw [last, setPath, lookup_put_self, List.nil_append, Option.bind_some]
      · rw [setPath_cons v last, lookup_put_self, Option.bind_some, ih last]

theorem walk_setPath_of_apart (v : Value τ) (apart : ¬ path <+: other) (apart' : ¬ other <+: path) :
    (Value.dict (setPath path v entries)).walk other = (Value.dict entries).walk other := by
  induction path generalizing other entries with
  | nil => exact absurd List.nil_prefix apart
  | cons key path ih =>
      cases other with
      | nil => exact absurd List.nil_prefix apart'
      | cons key' other =>
          rw [walk_dict_cons, walk_dict_cons]
          by_cases same : key' = key
          · subst same
            rw [List.prefix_cons_inj] at apart apart'
            have further : path ≠ [] := by
              rintro rfl
              exact apart List.nil_prefix
            have further' : other ≠ [] := by
              rintro rfl
              exact apart' List.nil_prefix
            rw [setPath_cons v further, lookup_put_self, Option.bind_some, ih apart apart',
              walk_inner further']
          · by_cases last : path = []
            · rw [last, setPath, lookup_put_of_ne same]
            · rw [setPath_cons v last, lookup_put_of_ne same]

theorem removePath_eq_none_iff (further : path ≠ []) :
    removePath path entries = none ↔ (Value.dict entries).walk path = none := by
  induction path generalizing entries with
  | nil => exact absurd rfl further
  | cons key path ih =>
      rw [walk_dict_cons]
      cases path with
      | nil =>
          rw [removePath]
          cases lookup key entries <;> simp [walk]
      | cons next path =>
          simp only [removePath]
          cases lookup key entries with
          | none => simp
          | some old =>
              cases old with
              | dict old =>
                  rw [Option.map_eq_none_iff, Option.bind_some]
                  exact ih (List.cons_ne_nil next path)
              | _ => simp [walk]

theorem walk_removePath {fits : Binary64 → Prop} (proper : Proper fits (.dict entries))
    (removed : removePath path entries = some left) : (Value.dict left).walk path = none := by
  induction path generalizing entries left with
  | nil => cases removed
  | cons key path ih =>
      cases proper with
      | dict _ distinct proper =>
          rw [walk_dict_cons]
          by_cases last : path = []
          · subst last
            rw [removePath_single removed, lookup_erase_self key entries distinct, Option.bind_none]
          · obtain ⟨old, new, found, inside, rfl⟩ := removePath_cons last removed
            rw [lookup_put_self, Option.bind_some]
            exact ih (proper _ (mem_of_lookup found)) inside

theorem walk_removePath_of_apart (removed : removePath path entries = some left)
    (apart : ¬ path <+: other) (apart' : ¬ other <+: path) :
    (Value.dict left).walk other = (Value.dict entries).walk other := by
  induction path generalizing other entries left with
  | nil => cases removed
  | cons key path ih =>
      cases other with
      | nil => exact absurd List.nil_prefix apart'
      | cons key' other =>
          rw [walk_dict_cons, walk_dict_cons]
          by_cases last : path = []
          · subst last
            have different : key' ≠ key := by
              rintro rfl
              exact apart (List.prefix_cons_inj _ |>.mpr List.nil_prefix)
            rw [removePath_single removed, lookup_erase_of_ne different]
          · obtain ⟨old, new, found, inside, rfl⟩ := removePath_cons last removed
            by_cases same : key' = key
            · subst same
              rw [List.prefix_cons_inj] at apart apart'
              rw [lookup_put_self, found, Option.bind_some, Option.bind_some,
                ih inside apart apart']
            · rw [lookup_put_of_ne same]

/-- The entries with nothing at the path. -/
def without (path : List τ) (entries : Entries τ) : Entries τ := (removePath path entries).getD entries

theorem walk_without {fits : Binary64 → Prop} (proper : Proper fits (.dict entries)) (further : path ≠ []) :
    (Value.dict (without path entries)).walk path = none := by
  rw [without]
  cases removed : removePath path entries with
  | none => exact (removePath_eq_none_iff further).mp removed
  | some left => exact walk_removePath proper removed

theorem walk_without_of_apart (apart : ¬ path <+: other) (apart' : ¬ other <+: path) :
    (Value.dict (without path entries)).walk other = (Value.dict entries).walk other := by
  rw [without]
  cases removed : removePath path entries with
  | none => rfl
  | some left => exact walk_removePath_of_apart removed apart apart'

end Paths

section Proper

variable {fits : Binary64 → Prop} {key : τ} {path : List τ} {v : Value τ}
  {entries left : Entries τ}

theorem Value.Proper.of_walk {w : Value τ} (proper : Proper fits v) (led : v.walk path = some w) :
    Proper fits w := by
  induction path generalizing v with
  | nil =>
      cases led
      exact proper
  | cons key path ih =>
      cases v with
      | dict entries =>
          rw [walk_dict_cons, Option.bind_eq_some_iff] at led
          obtain ⟨inner, found, deeper⟩ := led
          exact ih (proper.of_lookup found) deeper
      | _ => cases led

theorem Value.Proper.inner (dict : Proper fits (.dict entries)) (key : τ) :
    Proper fits (.dict (inner key entries)) := by
  rw [HtmlTree.inner]
  cases found : lookup key entries with
  | none => exact Value.proper_nil
  | some old =>
      cases old with
      | dict inner => exact dict.of_lookup found
      | _ => exact Value.proper_nil

theorem Value.Proper.setPath (dict : Proper fits (.dict entries)) (value : Proper fits v)
    (path : List τ) : Proper fits (.dict (setPath path v entries)) := by
  induction path generalizing entries with
  | nil => exact dict
  | cons key path ih =>
      by_cases last : path = []
      · rw [last, HtmlTree.setPath]
        exact dict.put value key
      · rw [setPath_cons v last]
        exact dict.put (ih (dict.inner key)) key

theorem Value.Proper.removePath (dict : Proper fits (.dict entries))
    (removed : removePath path entries = some left) : Proper fits (.dict left) := by
  induction path generalizing entries left with
  | nil => cases removed
  | cons key path ih =>
      by_cases last : path = []
      · subst last
        rw [removePath_single removed]
        exact dict.erase key
      · obtain ⟨old, new, found, inside, rfl⟩ := removePath_cons last removed
        exact dict.put (ih (dict.of_lookup found) inside) key

end Proper

end HtmlTree
