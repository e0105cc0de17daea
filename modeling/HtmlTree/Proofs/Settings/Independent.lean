import HtmlTree.Proofs.Settings.Keys

/-! Keys of which neither leads into what the other one leads to. What is done under one may change
places with what is done under the other. The values are then the same; only a section that gets new
keys from both may list them in another order. Where dictionaries stand in several places, this holds of keys
of which neither looks up the entry that is written under the other. -/

namespace HtmlTree

open Decimal (Binary64)

variable {τ : Type} [DecidableEq τ]

def alter (key : τ) (new : Option (Value τ)) (entries : Entries τ) : Entries τ :=
  match new with
  | some v => put key v entries
  | none => erase key entries

section Alter

variable {key other : τ} {entries : Entries τ}

theorem lookup_alter_of_ne (different : key ≠ other) (new : Option (Value τ)) (entries : Entries τ) :
    lookup key (alter other new entries) = lookup key entries := by
  cases new with
  | none => exact lookup_erase_of_ne different entries
  | some v => exact lookup_put_of_ne different v entries

theorem alter_alter (different : key ≠ other) (v : Option (Value τ)) (w : Option (Value τ))
    (known : key ∈ entries.map (·.1)) :
    alter key v (alter other w entries) = alter other w (alter key v entries) := by
  cases v with
  | none =>
      cases w with
      | none => exact erase_erase key other entries
      | some w => exact erase_put_of_ne different w entries
  | some v =>
      cases w with
      | none => exact (erase_put_of_ne (Ne.symm different) v entries).symm
      | some w => exact put_put_of_mem different v w known

theorem exists_setPath_cons (key : τ) (path : List τ) (v : Value τ) :
    ∃ become : Option (Value τ) → Value τ, ∀ entries : Entries τ,
      setPath (key :: path) v entries = alter key (some (become (lookup key entries))) entries := by
  by_cases last : path = []
  · subst last
    exact ⟨fun _ => v, fun _ => rfl⟩
  · refine ⟨fun old => .dict (setPath path v ((old.bind Value.dict?).getD [])), fun entries => ?_⟩
    rw [setPath_cons v last, inner]
    cases lookup key entries with
    | none => rfl
    | some old => cases old <;> rfl

theorem exists_removePath_cons (key : τ) (path : List τ) :
    ∃ become : Option (Value τ) → Option (Option (Value τ)), become none = none ∧ ∀ entries : Entries τ,
      removePath (key :: path) entries =
        (become (lookup key entries)).map fun new => alter key new entries := by
  by_cases last : path = []
  · subst last
    refine ⟨Option.map fun _ => none, rfl, fun entries => ?_⟩
    rw [removePath]
    cases lookup key entries <;> rfl
  · refine ⟨fun old => ((old.bind Value.dict?).bind (removePath path)).map fun new =>
      some (.dict new), rfl, fun entries => ?_⟩
    obtain ⟨next, path, rfl⟩ := List.exists_cons_of_ne_nil last
    simp only [removePath]
    cases lookup key entries with
    | none => rfl
    | some old =>
        cases old with
        | dict old =>
            rw [Option.map_map]
            rfl
        | _ => rfl

theorem inner_put_self (key : τ) (below entries : Entries τ) :
    inner key (put key (.dict below) entries) = below := by
  rw [inner, lookup_put_self]

theorem removePath_nil (path : List τ) : removePath path [] = none := by
  cases path with
  | nil => rfl
  | cons key path =>
      obtain ⟨become, nothing, same⟩ := exists_removePath_cons key path
      rw [same, lookup, nothing, Option.map_none]

theorem removePath_put_self {path : List τ} (further : path ≠ []) (key : τ)
    (below entries : Entries τ) :
    removePath (key :: path) (put key (.dict below) entries) =
      (removePath path below).map fun new => put key (.dict new) entries := by
  obtain ⟨next, path, rfl⟩ := List.exists_cons_of_ne_nil further
  simp only [removePath, lookup_put_self, put_put_self]

theorem removePath_of_inner {path : List τ} (further : path ≠ []) (key : τ)
    (entries : Entries τ) :
    removePath (key :: path) entries =
      (removePath path (inner key entries)).map fun new => put key (.dict new) entries := by
  obtain ⟨next, path, rfl⟩ := List.exists_cons_of_ne_nil further
  simp only [removePath, inner]
  cases lookup key entries with
  | none => rw [removePath_nil, Option.map_none]
  | some old =>
      cases old with
      | dict old => rfl
      | _ => simp only [removePath_nil, Option.map_none]

end Alter

namespace Value

/-- Values that differ at most in the order in which their dictionaries list the keys. -/
inductive Alike : Value τ → Value τ → Prop
  | refl (v : Value τ) : Alike v v
  | dict {entries others : Entries τ}
      (keys : ∀ key, lookup key entries = none ↔ lookup key others = none)
      (values : ∀ key v w, lookup key entries = some v → lookup key others = some w → Alike v w) :
      Alike (.dict entries) (.dict others)

namespace Alike

theorem trans {u v w : Value τ} (first : Alike u v) (second : Alike v w) : Alike u w := by
  induction first generalizing w with
  | refl v => exact second
  | @dict entries others keys values ih =>
      generalize middle : Value.dict others = v at second
      cases second with
      | refl =>
          subst middle
          exact .dict keys values
      | dict keys' values' =>
          cases middle
          refine .dict (fun key => (keys key).trans (keys' key)) fun key u w found there => ?_
          have kept : lookup key others ≠ none := fun nothing => by
            rw [(keys key).mpr nothing] at found
            cases found
          obtain ⟨v, between⟩ := Option.ne_none_iff_exists'.mp kept
          exact ih key u v found between (values' key v w between there)

theorem put {entries others : Entries τ} {v w : Value τ} (dict : Alike (.dict entries) (.dict others))
    (value : Alike v w) (key : τ) :
    Alike (.dict (put key v entries)) (.dict (HtmlTree.put key w others)) := by
  have alike : (∀ other, lookup other entries = none ↔ lookup other others = none) ∧
      ∀ other v w, lookup other entries = some v → lookup other others = some w → Alike v w := by
    cases dict with
    | refl =>
        refine ⟨fun _ => Iff.rfl, fun other v w found there => ?_⟩
        rw [found] at there
        cases there
        exact .refl v
    | dict keys values => exact ⟨keys, values⟩
  refine .dict (fun other => ?_) fun other v' w' found there => ?_
  · by_cases same : other = key
    · simp only [same, lookup_put_self, reduceCtorEq]
    · rw [lookup_put_of_ne same, lookup_put_of_ne same]
      exact alike.1 other
  · by_cases same : other = key
    · subst same
      rw [lookup_put_self] at found there
      cases found
      cases there
      exact value
    · rw [lookup_put_of_ne same] at found there
      exact alike.2 other v' w' found there

theorem inner {entries others : Entries τ} (dict : Alike (.dict entries) (.dict others))
    (key : τ) : Alike (.dict (inner key entries)) (.dict (HtmlTree.inner key others)) := by
  cases dict with
  | refl => exact .refl _
  | dict keys values =>
      rw [HtmlTree.inner, HtmlTree.inner]
      cases found : lookup key entries with
      | none =>
          rw [(keys key).mp found]
          exact .refl _
      | some v =>
          cases there : lookup key others with
          | none =>
              rw [(keys key).mpr there] at found
              cases found
          | some w =>
              cases values key v w found there with
              | refl => exact .refl _
              | dict keys values => exact .dict keys values

theorem put_put {key other : τ} (different : key ≠ other) (v w : Value τ) (entries : Entries τ) :
    Alike (.dict (HtmlTree.put key v (HtmlTree.put other w entries)))
      (.dict (HtmlTree.put other w (HtmlTree.put key v entries))) := by
  have same : ∀ wanted, lookup wanted (HtmlTree.put key v (HtmlTree.put other w entries)) =
      lookup wanted (HtmlTree.put other w (HtmlTree.put key v entries)) := by
    intro wanted
    by_cases first : wanted = key
    · rw [first, lookup_put_self, lookup_put_of_ne different, lookup_put_self]
    · by_cases second : wanted = other
      · rw [second, lookup_put_self, lookup_put_of_ne (Ne.symm different), lookup_put_self]
      · rw [lookup_put_of_ne first, lookup_put_of_ne second, lookup_put_of_ne second,
          lookup_put_of_ne first]
  refine .dict (fun wanted => by rw [same]) fun wanted a b found there => ?_
  rw [same, there] at found
  cases found
  exact .refl _

theorem setPath {entries others : Entries τ} (dict : Alike (.dict entries) (.dict others)) (v : Value τ)
    (path : List τ) :
    Alike (.dict (setPath path v entries)) (.dict (HtmlTree.setPath path v others)) := by
  induction path generalizing entries others with
  | nil => exact dict
  | cons key path ih =>
      by_cases last : path = []
      · subst last
        exact dict.put (.refl v) key
      · rw [setPath_cons v last, setPath_cons v last]
        exact dict.put (ih (dict.inner key)) key

end Alike

end Value

open Value (Alike)

section Paths

variable {path other : List τ} {entries : Entries τ}

theorem alike_setPath_setPath (v w : Value τ) (apart : ¬ path <+: other) (apart' : ¬ other <+: path) :
    Alike (.dict (setPath other w (setPath path v entries)))
      (.dict (setPath path v (setPath other w entries))) := by
  induction path generalizing other entries with
  | nil => exact absurd List.nil_prefix apart
  | cons key path ih =>
      obtain ⟨_, key', _, rest, shape, rfl, which⟩ := apart_cases apart apart'
      cases shape
      rcases which with different | ⟨rfl, further, further', apart, apart'⟩
      · obtain ⟨become, set⟩ := exists_setPath_cons key path v
        obtain ⟨become', set'⟩ := exists_setPath_cons key' rest w
        rw [set, set', set', set, lookup_alter_of_ne (Ne.symm different),
          lookup_alter_of_ne different]
        exact .put_put (Ne.symm different) _ _ entries
      · rw [setPath_cons v further, setPath_cons w further', setPath_cons w further',
          setPath_cons v further, inner_put_self, inner_put_self, put_put_self, put_put_self]
        exact Value.Alike.put (.refl _) (ih apart apart') key

theorem removePath_setPath (v : Value τ) (apart : ¬ path <+: other) (apart' : ¬ other <+: path) :
    removePath other (setPath path v entries) = (removePath other entries).map (setPath path v) := by
  induction path generalizing other entries with
  | nil => exact absurd List.nil_prefix apart
  | cons key path ih =>
      obtain ⟨_, key', _, rest, shape, rfl, which⟩ := apart_cases apart apart'
      cases shape
      rcases which with different | ⟨rfl, further, further', apart, apart'⟩
      · obtain ⟨become, set⟩ := exists_setPath_cons key path v
        obtain ⟨become', nothing, removed⟩ := exists_removePath_cons key' rest
        rw [removed, removed, set, lookup_alter_of_ne (Ne.symm different), Option.map_map]
        cases found : lookup key' entries with
        | none => rw [nothing, Option.map_none, Option.map_none]
        | some old =>
            have known : key' ∈ entries.map (·.1) := (exists_lookup_iff key' entries).mp ⟨old, found⟩
            congr 1
            funext new
            rw [Function.comp_apply, set, lookup_alter_of_ne different]
            exact alter_alter (Ne.symm different) new _ known
      · rw [setPath_cons v further, removePath_put_self further', ih apart apart',
          removePath_of_inner further', Option.map_map, Option.map_map]
        congr 1
        funext new
        rw [Function.comp_apply, Function.comp_apply, setPath_cons v further, inner_put_self,
          put_put_self]

theorem removePath_removePath {left right : Entries τ} (apart : ¬ path <+: other)
    (apart' : ¬ other <+: path) (first : removePath path entries = some left)
    (second : removePath other entries = some right) : removePath other left = removePath path right := by
  induction path generalizing other entries left right with
  | nil => cases first
  | cons key path ih =>
      obtain ⟨_, key', _, rest, shape, rfl, which⟩ := apart_cases apart apart'
      cases shape
      rcases which with different | ⟨rfl, further, further', apart, apart'⟩
      · obtain ⟨become, nothing, removed⟩ := exists_removePath_cons key path
        obtain ⟨become', nothing', removed'⟩ := exists_removePath_cons key' rest
        rw [removed, Option.map_eq_some_iff] at first
        rw [removed', Option.map_eq_some_iff] at second
        obtain ⟨new, here, rfl⟩ := first
        obtain ⟨new', there, rfl⟩ := second
        rw [removed, removed', lookup_alter_of_ne (Ne.symm different), lookup_alter_of_ne different,
          here, there, Option.map_some, Option.map_some]
        have known : key ∈ entries.map (·.1) := by
          rw [← exists_lookup_iff, ← Option.ne_none_iff_exists']
          intro missing
          rw [missing, nothing] at here
          cases here
        rw [alter_alter different new new' known]
      · rw [removePath_of_inner further, Option.map_eq_some_iff] at first
        rw [removePath_of_inner further', Option.map_eq_some_iff] at second
        obtain ⟨new, here, rfl⟩ := first
        obtain ⟨new', there, rfl⟩ := second
        rw [removePath_put_self further', removePath_put_self further, ih apart apart' here there]

theorem isSome_removePath_without (apart : ¬ path <+: other) (apart' : ¬ other <+: path) :
    (removePath other (without path entries)).isSome = (removePath other entries).isSome := by
  have further : other ≠ [] := by
    rintro rfl
    exact apart' List.nil_prefix
  rw [Bool.eq_iff_iff, ← not_iff_not, Option.not_isSome_iff_eq_none, Option.not_isSome_iff_eq_none,
    removePath_eq_none_iff further, removePath_eq_none_iff further, walk_without_of_apart apart apart']

theorem without_comm (apart : ¬ path <+: other) (apart' : ¬ other <+: path) :
    without other (without path entries) = without path (without other entries) := by
  have here : (removePath other (without path entries)).isSome = (removePath other entries).isSome :=
    isSome_removePath_without apart apart'
  have there : (removePath path (without other entries)).isSome = (removePath path entries).isSome :=
    isSome_removePath_without apart' apart
  cases first : removePath path entries with
  | none =>
      have kept : without path entries = entries := by rw [without, first, Option.getD_none]
      rw [first, Option.isSome_none, Option.isSome_eq_false_iff, Option.isNone_iff_eq_none] at there
      rw [kept, without.eq_1 path, there, Option.getD_none]
  | some left =>
      cases second : removePath other entries with
      | none =>
          have kept : without other entries = entries := by rw [without, second, Option.getD_none]
          rw [second, Option.isSome_none, Option.isSome_eq_false_iff, Option.isNone_iff_eq_none] at here
          rw [kept, without.eq_1 other, here, Option.getD_none]
      | some right =>
          have left' : without path entries = left := by rw [without, first, Option.getD_some]
          have right' : without other entries = right := by rw [without, second, Option.getD_some]
          have exchange := removePath_removePath apart apart' first second
          rw [left', second, Option.isSome_some, Option.isSome_iff_exists] at here
          obtain ⟨rest, done⟩ := here
          rw [left', right', without, without, ← exchange, done]
          rfl

theorem without_setPath (v : Value τ) (apart : ¬ path <+: other) (apart' : ¬ other <+: path) :
    without other (setPath path v entries) = setPath path v (without other entries) := by
  rw [without, without, removePath_setPath v apart apart']
  cases removePath other entries <;> rfl

end Paths

namespace Live

open Value (Proper anyReal)
open Settings (Call)
open Points (ofString)

/-- Both show the same values, up to the order of keys. -/
def Agree (s t : Live) : Prop :=
  ∃ entries others, s.Unshared entries ∧ t.Unshared others ∧ Alike (.dict entries) (.dict others)

/-- Both show the very same values. -/
def Same (s t : Live) : Prop := ∃ entries, s.Unshared entries ∧ t.Unshared entries

variable {s : Live} {first second : Points} {entries : Entries Points} {v w : Value Points}

theorem agree_set_set (shown : s.Unshared entries) (apart : Apart first second)
    (one : Proper anyReal v) (two : Proper anyReal w) :
    Agree ((s.setNew first v).setNew second w) ((s.setNew second w).setNew first v) :=
  ⟨_, _, unshared_setNew (unshared_setNew shown one first) two second,
    unshared_setNew (unshared_setNew shown two second) one first,
    alike_setPath_setPath v w apart.1 apart.2⟩

theorem same_set_remove (shown : s.Unshared entries) (apart : Apart first second)
    (proper : Proper anyReal v) :
    Same ((s.setNew first v).remove second).1 ((s.remove second).1.setNew first v) ∧
      ((s.setNew first v).remove second).2 = (s.remove second).2 := by
  have set := unshared_setNew shown proper first
  obtain ⟨removed, found⟩ := unshared_remove shown second
  obtain ⟨removed', found'⟩ := unshared_remove set second
  rw [without_setPath v apart.1 apart.2] at removed'
  rw [removePath_setPath v apart.1 apart.2, Option.isSome_map] at found'
  exact ⟨⟨_, removed', unshared_setNew removed proper first⟩, found'.trans found.symm⟩

theorem same_remove_remove (shown : s.Unshared entries) (apart : Apart first second) :
    Same ((s.remove first).1.remove second).1 ((s.remove second).1.remove first).1 ∧
      ((s.remove first).1.remove second).2 = (s.remove second).2 := by
  obtain ⟨one, _⟩ := unshared_remove shown first
  obtain ⟨two, found⟩ := unshared_remove shown second
  obtain ⟨both, found'⟩ := unshared_remove one second
  rw [without_comm apart.1 apart.2] at both
  rw [isSome_removePath_without apart.1 apart.2] at found'
  exact ⟨⟨_, both, (unshared_remove two first).1⟩, found'.trans found.symm⟩

theorem alike_foldl_setPath {others : Entries Points} (alike : Alike (.dict entries) (.dict others))
    (overrides : Entries Points) :
    Alike (.dict (overrides.foldl (fun entries entry => setPath (segments entry.1) entry.2 entries) entries))
      (.dict (overrides.foldl (fun entries entry => setPath (segments entry.1) entry.2 entries) others)) := by
  induction overrides generalizing entries others with
  | nil => exact alike
  | cons entry overrides ih => exact ih (alike.setPath entry.2 (segments entry.1))

theorem alike_foldl_perm {overrides others : Entries Points} (same : overrides.Perm others)
    (apart : overrides.Pairwise fun entry other => Apart entry.1 other.1) (entries : Entries Points) :
    Alike (.dict (overrides.foldl (fun entries entry => setPath (segments entry.1) entry.2 entries) entries))
      (.dict (others.foldl (fun entries entry => setPath (segments entry.1) entry.2 entries) entries)) := by
  induction same generalizing entries with
  | nil => exact .refl _
  | cons entry _ ih =>
      rw [List.pairwise_cons] at apart
      exact ih apart.2 _
  | swap entry other overrides =>
      rw [List.pairwise_cons, List.forall_mem_cons] at apart
      exact alike_foldl_setPath (alike_setPath_setPath other.2 entry.2 apart.1.1.1 apart.1.1.2) overrides
  | trans first second ih ih' =>
      have middle := first.pairwise apart fun apart => Apart.symm apart
      exact (ih apart entries).trans (ih' middle entries)

theorem agree_override {overrides others : Entries Points} (shown : s.Unshared entries)
    (same : overrides.Perm others) (apart : overrides.Pairwise fun entry other => Apart entry.1 other.1)
    (proper : ∀ e ∈ overrides, Proper anyReal e.2) : Agree (s.override overrides) (s.override others) := by
  have distinct : ∀ {entries : Entries Points}, (entries.Pairwise fun entry other =>
      Apart entry.1 other.1) → collect entries = entries := by
    intro entries apart
    apply collect_of_nodup
    rw [List.Nodup, List.pairwise_map]
    refine apart.imp fun {entry other} apart same => ?_
    rw [same] at apart
    exact apart.1 List.prefix_rfl
  have apart' : others.Pairwise fun entry other => Apart entry.1 other.1 :=
    same.pairwise apart fun apart => Apart.symm apart
  have one := unshared_override shown overrides proper
  have two := unshared_override shown others fun e member => proper e (same.mem_iff.mpr member)
  rw [distinct apart] at one
  rw [distinct apart'] at two
  exact ⟨_, _, one, two, alike_foldl_perm same apart entries⟩

section Sharing

/-- Neither key looks up the entry that is written under the other, or both look up the same entries. -/
def Clear (s : Live) (first second : Points) : Prop :=
  s.objects.Clear s.root (segments first) (segments second)

instance (s : Live) (first second : Points) : Decidable (s.Clear first second) :=
  inferInstanceAs (Decidable (Objects.Clear _ _ _ _))

/-- Both hold the same dictionaries, but for the order of keys and for the numbers from some number on. -/
def Matches (count : Nat) (s t : Live) : Prop :=
  t.path = s.path ∧ ∃ f : Equiv.Perm Nat, f s.root = t.root ∧ s.objects.Renumbered count f t.objects

theorem remove_eq (s : Live) (key : Points) : s.remove key =
    ({ s with objects := s.objects.without s.root (segments key) },
      (s.objects.delete s.root (segments key)).isSome) := by
  rw [Objects.without]
  cases removed : s.objects.delete s.root (segments key) with
  | none => rw [remove_none removed, Option.getD_none, Option.isSome_none]
  | some left => rw [remove_some removed, Option.getD_some, Option.isSome_some]

variable {item item' : Item Points} (reached : s.Reached) (apart : Apart first second)
  (clear : s.Clear first second)
include apart clear

include reached in
theorem matches_set_set (fits : Objects.Fits s.objects.length item)
    (fits' : Objects.Fits s.objects.length item') :
    Matches s.objects.length ((s.set first item).set second item')
      ((s.set second item').set first item) := by
  obtain ⟨sound, root⟩ := reached.sound
  obtain ⟨f, same⟩ := Objects.exists_renumbered apart.1 apart.2 clear sound root fits fits'
  exact ⟨rfl, f, same.old s.root root, same⟩

include reached in
theorem remove_set (item : Item Points) : (s.set first item).remove second =
    ((s.remove second).1.set first item, (s.remove second).2) := by
  obtain ⟨sound, root⟩ := reached.sound
  have deleted := Objects.delete_assign apart.1 apart.2 clear sound root item
  rw [remove_eq, remove_eq, set, set, Objects.without, Objects.without, deleted, Option.isSome_map,
    Option.getD_map fun left : Objects Points => left.assign s.root (segments first) item]

theorem remove_remove : (s.remove first).1.remove second =
    (((s.remove second).1.remove first).1, (s.remove second).2) := by
  have deleted := Objects.delete_without apart.1 apart.2 clear
  rw [remove_eq, remove_eq, remove_eq, remove_eq, Objects.without.eq_1 _ _ (segments second), deleted,
    Option.isSome_map, Option.getD_map fun left : Objects Points => left.without s.root (segments first)]
  rfl

end Sharing

def numberedCalls : List (Call Points) := [.set (ofString "a") (.int 5)]

def numbered : Live := (standard none).after numberedCalls

def sharedOverrides : Entries Points :=
  [(ofString "a.b", .int 1), (ofString "logging.log_file", .null), (ofString "a.c", .text (ofString "x"))]

end Live

end HtmlTree
