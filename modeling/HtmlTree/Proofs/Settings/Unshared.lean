import HtmlTree.Proofs.Settings.Objects
import HtmlTree.Proofs.Settings.Paths
import HtmlTree.Proofs.Settings.Merge
import Mathlib.Order.CompletePartialOrder
import Mathlib.Order.Interval.Set.Disjoint

/-! Dictionaries of which none stands in two places. An item then shows a value, dictionaries made elsewhere
do not matter to it, and storing, deleting and merging do to what it shows what they say they do. -/

namespace HtmlTree.Objects

open Value (Proper)

variable {τ : Type} [DecidableEq τ]

/-- An item that shows a value, all dictionaries of which are of a region and stand in one place there. What
is at different keys, or at different places in a list, has parts of the region for itself. -/
inductive Unshared (o : Objects τ) : Set Nat → Item τ → Value τ → Prop
  | null (r : Set Nat) : Unshared o r .null .null
  | bool (r : Set Nat) (b : Bool) : Unshared o r (.bool b) (.bool b)
  | int (r : Set Nat) (n : Int) : Unshared o r (.int n) (.int n)
  | real (r : Set Nat) (x : Decimal.Binary64) : Unshared o r (.real x) (.real x)
  | text (r : Set Nat) (s : τ) : Unshared o r (.text s) (.text s)
  | list (r : Set Nat) (items : List (Item τ)) (vs : List (Value τ)) (part : Nat → Set Nat)
      (inside : ∀ i, part i ⊆ r) (apart : ∀ i j, i ≠ j → Disjoint (part i) (part j))
      (length : items.length = vs.length)
      (each : ∀ i item v, items[i]? = some item → vs[i]? = some v → Unshared o (part i) item v) :
      Unshared o r (.list items) (.list vs)
  | dict (r : Set Nat) (d : Nat) (slots : Slots τ) (entries : Entries τ) (part : τ → Set Nat)
      (here : d ∈ r) (inside : ∀ key, part key ⊆ r) (below : ∀ key, d ∉ part key)
      (apart : ∀ key other, key ≠ other → Disjoint (part key) (part other))
      (stored : o[d]? = some slots) (keys : slots.map (·.1) = entries.map (·.1))
      (distinct : (entries.map (·.1)).Nodup)
      (each : ∀ key item v, lookup key slots = some item → lookup key entries = some v →
        Unshared o (part key) item v) :
      Unshared o r (.dict d) (.dict entries)

section Shown

variable {o o' : Objects τ} {r r' : Set Nat} {d : Nat} {item : Item τ} {v w : Value τ}
  {entries : Entries τ} {key : τ}

theorem exists_lookup_iff_of_keys {α β : Type} {first : List (τ × α)} {second : List (τ × β)}
    (keys : first.map (·.1) = second.map (·.1)) :
    (∃ a, lookup key first = some a) ↔ ∃ b, lookup key second = some b := by
  rw [exists_lookup_iff, exists_lookup_iff, keys]

theorem entries_ext {α : Type} {first second : List (τ × α)}
    (keys : first.map (·.1) = second.map (·.1)) (distinct : (first.map (·.1)).Nodup)
    (same : ∀ key a, lookup key first = some a → lookup key second = some a) : first = second := by
  induction first generalizing second with
  | nil => exact (List.map_eq_nil_iff.mp keys.symm).symm
  | cons entry first ih =>
      cases second with
      | nil => cases keys
      | cons other second =>
          obtain ⟨key, a⟩ := entry
          obtain ⟨key', b⟩ := other
          rw [List.map_cons, List.map_cons, List.cons.injEq] at keys
          obtain ⟨rfl, keys⟩ := keys
          rw [List.map_cons, List.nodup_cons] at distinct
          have value := same key a (by rw [lookup, if_pos rfl])
          rw [lookup, if_pos rfl] at value
          rw [Option.some.inj value, ih keys distinct.2]
          intro wanted c found
          have later : key ≠ wanted := by
            rintro rfl
            exact distinct.1 ((exists_lookup_iff _ _).mp ⟨c, found⟩)
          have there := same wanted c (by rw [lookup, if_neg later, found])
          rwa [lookup, if_neg later] at there

theorem Unshared.congr (shown : o.Unshared r item v) (same : ∀ n ∈ r, o'[n]? = o[n]?) :
    o'.Unshared r item v := by
  induction shown with
  | null r => exact .null r
  | bool r b => exact .bool r b
  | int r n => exact .int r n
  | real r x => exact .real r x
  | text r s => exact .text r s
  | list r items vs part inside apart length _ ih =>
      exact .list r items vs part inside apart length fun i item v found there =>
        ih i item v found there fun n member => same n (inside i member)
  | dict r d slots entries part here inside below apart stored keys distinct _ ih =>
      exact .dict r d slots entries part here inside below apart ((same d here).trans stored) keys
        distinct fun key item v found there =>
          ih key item v found there fun n member => same n (inside key member)

theorem Unshared.known (shown : o.Unshared r item v) :
    o.Unshared (r ∩ {n | n < o.length}) item v := by
  induction shown with
  | null => exact .null _
  | bool _ b => exact .bool _ b
  | int _ n => exact .int _ n
  | real _ x => exact .real _ x
  | text _ s => exact .text _ s
  | list r items vs part inside apart length _ ih =>
      refine .list _ items vs (fun i => part i ∩ {n | n < o.length}) ?_ ?_ length ih
      · exact fun i => Set.inter_subset_inter_left _ (inside i)
      · exact fun i j different => (apart i j different).mono Set.inter_subset_left Set.inter_subset_left
  | dict r d slots entries part here inside below apart stored keys distinct _ ih =>
      have known : d < o.length := (List.getElem?_eq_some_iff.mp stored).1
      refine .dict _ d slots entries (fun key => part key ∩ {n | n < o.length}) ⟨here, known⟩ ?_ ?_ ?_
        stored keys distinct ih
      · exact fun key => Set.inter_subset_inter_left _ (inside key)
      · exact fun key member => below key member.1
      · exact fun key other different =>
          (apart key other different).mono Set.inter_subset_left Set.inter_subset_left

/-- An item shows one value. -/
theorem Unshared.unique (shown : o.Unshared r item v) (also : o.Unshared r' item w) : v = w := by
  induction shown generalizing r' w with
  | list r items vs part inside apart length _ ih =>
      cases also with
      | list _ _ ws part' _ _ length' each' =>
          congr 1
          refine List.ext_getElem (length.symm.trans length') fun i here there => ?_
          have known : i < items.length := by omega
          have item := List.getElem?_eq_getElem known
          have w := List.getElem?_eq_getElem there
          exact ih i _ _ item (List.getElem?_eq_getElem here) (each' i _ _ item w)
  | dict r d slots entries part here inside below apart stored keys distinct _ ih =>
      cases also with
      | dict _ _ slots' others part' _ _ _ _ stored' keys' distinct' each' =>
          obtain rfl : slots = slots' := Option.some.inj (stored.symm.trans stored')
          congr 1
          refine entries_ext (keys.symm.trans keys') distinct fun key v found => ?_
          obtain ⟨item, there⟩ := (exists_lookup_iff_of_keys keys).mpr ⟨v, found⟩
          obtain ⟨w, other⟩ := (exists_lookup_iff_of_keys keys').mp ⟨item, there⟩
          rw [other, ih key item v there found (each' key item w there other)]
  | _ =>
      cases also
      rfl

theorem Unshared.exists_entries (shown : o.Unshared r (.dict d) v) : ∃ entries, v = .dict entries := by
  cases shown with
  | dict _ _ _ entries => exact ⟨entries, rfl⟩

theorem Unshared.proper (shown : o.Unshared r item v) : Proper Value.anyReal v := by
  induction shown with
  | null => exact .null
  | bool _ b => exact .bool b
  | int _ n => exact .int n
  | real _ x => exact .real x trivial
  | text _ s => exact .text s
  | list r items vs part inside apart length _ ih =>
      refine .list vs fun v member => ?_
      obtain ⟨i, here, rfl⟩ := List.getElem_of_mem member
      have known : i < items.length := by omega
      exact ih i _ _ (List.getElem?_eq_getElem known) (List.getElem?_eq_getElem here)
  | dict r d slots entries part here inside below apart stored keys distinct _ ih =>
      refine .dict entries distinct fun entry member => ?_
      have found := lookup_of_mem distinct member
      obtain ⟨item, there⟩ := (exists_lookup_iff_of_keys keys).mpr ⟨entry.2, found⟩
      exact ih entry.1 item entry.2 there found

end Shown

section Places

variable {o o' : Objects τ} {r r' part : Set Nat} {d : Nat} {item : Item τ} {v : Value τ}
  {slots : Slots τ} {entries : Entries τ} {key : τ}

/-- What is under a key of a dictionary: it is in a part of the region, and may be changed together with
this part while all else stays. -/
structure Place (o : Objects τ) (r : Set Nat) (d : Nat) (entries : Entries τ) (key : τ) (slots : Slots τ)
    (part : Set Nat) : Prop where
  stored : o[d]? = some slots
  here : d ∈ r
  inside : part ⊆ r
  below : d ∉ part
  shown : (lookup key slots = none ∧ lookup key entries = none) ∨
    ∃ item v, lookup key slots = some item ∧ lookup key entries = some v ∧ o.Unshared part item v
  replace : ∀ {o' : Objects τ} {r' : Set Nat} {item : Item τ} {v : Value τ},
    o'[d]? = some (put key item slots) → (∀ n ∈ r, n ≠ d → n ∉ part → o'[n]? = o[n]?) →
    (∀ n ∈ r', n ∈ r → n ∈ part) → o'.Unshared r' item v →
    o'.Unshared (r ∪ r') (.dict d) (.dict (put key v entries))

theorem disjoint_update {part : τ → Set Nat} (apart : ∀ a b, a ≠ b → Disjoint (part a) (part b))
    (alone : ∀ other, other ≠ key → Disjoint (part other) r) (a b : τ) (different : a ≠ b) :
    Disjoint (Function.update part key r a) (Function.update part key r b) := by
  by_cases one : a = key
  · rw [one, Function.update_self, Function.update_of_ne (one ▸ Ne.symm different)]
    exact (alone b (one ▸ Ne.symm different)).symm
  · rw [Function.update_of_ne one]
    by_cases two : b = key
    · rw [two, Function.update_self]
      exact alone a one
    · rw [Function.update_of_ne two]
      exact apart a b different

theorem keys_put_congr {α β : Type} {first : List (τ × α)} {second : List (τ × β)}
    (keys : first.map (·.1) = second.map (·.1)) (key : τ) (a : α) (b : β) :
    (put key a first).map (·.1) = (put key b second).map (·.1) := by
  by_cases known : key ∈ first.map (·.1)
  · rw [keys_put_of_mem key a first known, keys_put_of_mem key b second (keys ▸ known), keys]
  · rw [put_of_fresh key a first known, put_of_fresh key b second (keys ▸ known), List.map_append,
      List.map_append, keys]
    rfl

theorem Unshared.place (shown : o.Unshared r (.dict d) (.dict entries)) (key : τ) :
    ∃ slots part, o.Place r d entries key slots part := by
  cases shown with
  | dict _ _ slots _ part here inside below apart stored keys distinct each =>
      refine ⟨slots, part key, stored, here, inside key, below key, ?_, ?_⟩
      · cases found : lookup key slots with
        | none =>
            rw [lookup_eq_none_iff, keys, ← lookup_eq_none_iff] at found
            exact Or.inl ⟨rfl, found⟩
        | some item =>
            obtain ⟨v, there⟩ := (exists_lookup_iff_of_keys keys).mp ⟨item, found⟩
            exact Or.inr ⟨item, v, rfl, there, each key item v found there⟩
      · intro o' r' new v' written same free shown
        have elsewhere : ∀ other, other ≠ key → ∀ n ∈ part other, o'[n]? = o[n]? := by
          intro other different n member
          refine same n (inside other member) (fun equal => below other (equal ▸ member)) ?_
          exact fun also => (apart other key different).le_bot ⟨member, also⟩
        have alone : ∀ other, other ≠ key → Disjoint (part other) r' := by
          intro other different
          rw [Set.disjoint_left]
          intro n member also
          exact (apart other key different).le_bot ⟨member, free n also (inside other member)⟩
        refine .dict _ d _ _ (Function.update part key r') (Set.mem_union_left _ here) ?_ ?_
          (disjoint_update apart alone) written (keys_put_congr keys key new v')
          (nodup_keys_put key v' entries distinct) ?_
        · rw [Function.forall_update_iff part fun _ region => region ⊆ r ∪ r']
          exact ⟨Set.subset_union_right, fun other _ => (inside other).trans Set.subset_union_left⟩
        · rw [Function.forall_update_iff part fun _ region => d ∉ region]
          exact ⟨fun member => below key (free d member here), fun other _ => below other⟩
        · intro other item w found there
          by_cases same : other = key
          · subst same
            rw [lookup_put_self] at found there
            cases found
            cases there
            rwa [Function.update_self]
          · rw [lookup_put_of_ne same] at found there
            rw [Function.update_of_ne same]
            exact (each other item w found there).congr (elsewhere other same)

theorem Unshared.erase (shown : o.Unshared r (.dict d) (.dict entries)) (stored : o[d]? = some slots)
    (key : τ) : Unshared (o.set d (HtmlTree.erase key slots)) r (.dict d) (.dict (HtmlTree.erase key entries)) := by
  cases shown with
  | dict _ _ slots' _ part here inside below apart stored' keys distinct each =>
      obtain rfl : slots = slots' := Option.some.inj (stored.symm.trans stored')
      have known : d < o.length := (List.getElem?_eq_some_iff.mp stored).1
      refine .dict r d _ _ part here inside below apart (List.getElem?_set_self known) ?_ ?_ ?_
      · rw [keys_erase, keys_erase, keys]
      · rw [keys_erase]
        exact distinct.erase key
      · intro other item w found there
        by_cases same : other = key
        · rw [same, lookup_erase_self key entries distinct] at there
          cases there
        · rw [lookup_erase_of_ne same] at found there
          refine (each other item w found there).congr fun n member => ?_
          exact List.getElem?_set_ne fun equal : d = n => below other (equal ▸ member)

end Places

section Walks

variable {o : Objects τ} {r : Set Nat} {d : Nat} {item : Item τ} {v : Value τ} {path : List τ}

theorem Unshared.walk (shown : o.Unshared r item v) (path : List τ) :
    (o.walk path item = none ∧ v.walk path = none) ∨
      ∃ part inner w, o.walk path item = some inner ∧ v.walk path = some w ∧ o.Unshared part inner w := by
  induction path generalizing r item v with
  | nil => exact Or.inr ⟨r, item, v, rfl, rfl, shown⟩
  | cons key path ih =>
      cases shown with
      | dict _ d slots entries part here inside below apart stored keys distinct each =>
          rw [walk_dict_cons, Value.walk_dict_cons, slots_of_getElem? stored]
          cases found : lookup key slots with
          | none =>
              rw [lookup_eq_none_iff, keys, ← lookup_eq_none_iff] at found
              rw [found]
              exact Or.inl ⟨rfl, rfl⟩
          | some inner =>
              obtain ⟨w, there⟩ := (exists_lookup_iff_of_keys keys).mp ⟨inner, found⟩
              rw [there]
              exact ih (each key inner w found there)
      | _ => exact Or.inl ⟨rfl, rfl⟩

end Walks

section Building

variable {fits : Decimal.Binary64 → Prop} {o o' : Objects τ} {v : Value τ} {vs : List (Value τ)}
  {entries : Entries τ}

omit [DecidableEq τ] in
theorem getElem?_of_old {n : Nat} (old : o <+: o') (known : n < o.length) : o'[n]? = o[n]? := by
  obtain ⟨more, rfl⟩ := old
  exact List.getElem?_append_left known

/-- The numbers of the dictionaries that are in the second but not in the first. -/
def added (o o' : Objects τ) : Set Nat := Set.Ico o.length o'.length

theorem unshared_buildItems (proper : ∀ v ∈ vs, Proper fits v)
    (each : ∀ v ∈ vs, ∀ o : Objects τ, (o.build v).2.Unshared (added o (o.build v).2) (o.build v).1 v) :
    ∀ o : Objects τ, (o.buildItems vs).2.Unshared (added o (o.buildItems vs).2)
      (.list (o.buildItems vs).1) (.list vs) := by
  induction vs with
  | nil =>
      intro o
      exact .list _ [] [] (fun _ => ∅) (fun _ => Set.empty_subset _) (fun _ _ _ => Set.empty_disjoint _) rfl
        fun i item v found _ => nomatch found
  | cons v vs ih =>
      intro o
      rw [List.forall_mem_cons] at proper each
      have first := each.1 o
      have old := (built_build proper.1 o).old
      have later := (built_buildItems (fun v member => built_build (proper.2 v member)) (o.build v).2).1
      have rest := ih proper.2 each.2 (o.build v).2
      rw [buildItems_cons]
      generalize (o.build v).1 = item at *
      generalize (o.build v).2 = o₁ at *
      generalize (o₁.buildItems vs).1 = items at *
      generalize (o₁.buildItems vs).2 = o₂ at *
      cases rest with
      | list _ _ _ part inside apart length each =>
          have front : added o o₁ ⊆ added o o₂ := Set.Ico_subset_Ico_right later.length_le
          have back : added o₁ o₂ ⊆ added o o₂ := Set.Ico_subset_Ico_left old.length_le
          have free : ∀ i, Disjoint (added o o₁) (part i) := fun i =>
            Set.Ico_disjoint_Ico_same.mono_right (inside i)
          refine .list _ _ _ (fun | 0 => added o o₁ | i + 1 => part i) ?_ ?_ ?_ ?_
          · rintro (_ | i)
            · exact front
            · exact (inside i).trans back
          · rintro (_ | i) (_ | j) different
            · exact absurd rfl different
            · exact free j
            · exact (free i).symm
            · exact apart i j fun same => different (by rw [same])
          · rw [List.length_cons, List.length_cons, length]
          · rintro (_ | i) found w here there
            · cases here
              cases there
              exact first.congr fun n member => getElem?_of_old later member.2
            · exact each i found w here there

theorem unshared_buildSlots (proper : ∀ entry ∈ entries, Proper fits entry.2)
    (each : ∀ entry ∈ entries, ∀ o : Objects τ,
      (o.build entry.2).2.Unshared (added o (o.build entry.2).2) (o.build entry.2).1 entry.2) :
    ∀ o : Objects τ, ∃ part : τ → Set Nat, (∀ key, part key ⊆ added o (o.buildSlots entries).2) ∧
      (∀ key other, key ≠ other → Disjoint (part key) (part other)) ∧
      ∀ key item v, lookup key (o.buildSlots entries).1 = some item → lookup key entries = some v →
        (o.buildSlots entries).2.Unshared (part key) item v := by
  induction entries with
  | nil =>
      exact fun o => ⟨fun _ => ∅, fun _ => Set.empty_subset _, fun _ _ _ => Set.empty_disjoint _,
        fun key item v found _ => nomatch found⟩
  | cons entry entries ih =>
      intro o
      obtain ⟨key, v⟩ := entry
      rw [List.forall_mem_cons] at proper each
      have first := each.1 o
      have old := (built_build proper.1 o).old
      have later :=
        (built_buildSlots (fun entry member => built_build (proper.2 entry member)) (o.build v).2).1
      obtain ⟨part, inside, apart, shown⟩ := ih proper.2 each.2 (o.build v).2
      rw [buildSlots_cons]
      generalize (o.build v).1 = item at *
      generalize (o.build v).2 = o₁ at *
      generalize (o₁.buildSlots entries).1 = slots at *
      generalize (o₁.buildSlots entries).2 = o₂ at *
      have front : added o o₁ ⊆ added o o₂ := Set.Ico_subset_Ico_right later.length_le
      have back : added o₁ o₂ ⊆ added o o₂ := Set.Ico_subset_Ico_left old.length_le
      have free : ∀ other, Disjoint (added o o₁) (part other) := fun other =>
        Set.Ico_disjoint_Ico_same.mono_right (inside other)
      -- Of a repeated key the first entry is looked up, so its part is the one to keep.
      refine ⟨Function.update part key (added o o₁), ?_,
        disjoint_update apart fun other _ => (free other).symm, ?_⟩
      · rw [Function.forall_update_iff part fun _ region => region ⊆ added o o₂]
        exact ⟨front, fun other _ => (inside other).trans back⟩
      · intro wanted found w here there
        rw [lookup] at here there
        by_cases same : key = wanted
        · rw [if_pos same] at here there
          cases here
          cases there
          rw [← same, Function.update_self]
          exact first.congr fun n member => getElem?_of_old later member.2
        · rw [if_neg same] at here there
          rw [Function.update_of_ne (Ne.symm same)]
          exact shown wanted found w here there

/-- What is built shows the value it is built from, with new dictionaries only. -/
theorem unshared_build (proper : Proper fits v) : ∀ o : Objects τ,
    (o.build v).2.Unshared (added o (o.build v).2) (o.build v).1 v := by
  induction proper with
  | null => exact fun o => .null _
  | bool b => exact fun o => .bool _ b
  | int n => exact fun o => .int _ n
  | real x fit => exact fun o => .real _ x
  | text s => exact fun o => .text _ s
  | list vs inside ih => exact unshared_buildItems inside ih
  | dict entries distinct inside ih =>
      intro o
      obtain ⟨part, within, apart, each⟩ := unshared_buildSlots inside ih o
      have old := (built_buildSlots (fun entry member => built_build (inside entry member)) o).1
      have keys := keys_buildSlots entries o
      rw [build_dict]
      generalize (o.buildSlots entries).1 = slots at *
      generalize (o.buildSlots entries).2 = o₁ at *
      have longer : o₁.length < (o₁ ++ [slots]).length := by
        rw [List.length_append, List.length_singleton]
        exact Nat.lt_succ_self _
      refine .dict _ o₁.length slots entries part ⟨old.length_le, longer⟩ ?_ ?_ apart
        List.getElem?_concat_length keys distinct fun key item v found there => ?_
      · exact fun key => (within key).trans (Set.Ico_subset_Ico_right longer.le)
      · exact fun key member => Nat.lt_irrefl _ (within key member).2
      · exact (each key item v found there).congr fun n member =>
          List.getElem?_append_left (within key member).2

end Building

/-- Of the dictionaries that were there only some of a region were touched, and the region it turned into has
none of the others. -/
structure Touches (o : Objects τ) (r : Set Nat) (o' : Objects τ) (r' : Set Nat) : Prop where
  longer : o.length ≤ o'.length
  kept : ∀ n < o.length, n ∉ r → o'[n]? = o[n]?
  region : ∀ n ∈ r', n < o'.length ∧ (n ∈ r ∨ o.length ≤ n)

section Touching

variable {fits : Decimal.Binary64 → Prop} {o o' o₁ o₂ left : Objects τ} {r r' r₁ r₂ part p : Set Nat}
  {d e : Nat} {key : τ} {path : List τ} {item : Item τ} {v : Value τ} {slots : Slots τ}
  {entries new source : Entries τ}

omit [DecidableEq τ] in
theorem Touches.trans (first : Touches o r o₁ r₁) (second : Touches o₁ r₁ o₂ r₂) : Touches o r o₂ r₂ := by
  refine ⟨Nat.le_trans first.longer second.longer, fun n known other => ?_, fun n member => ?_⟩
  · have free : n ∉ r₁ := fun member => by
      rcases (first.region n member).2 with inside | beyond
      · exact other inside
      · omega
    rw [second.kept n (Nat.lt_of_lt_of_le known first.longer) free, first.kept n known other]
  · obtain ⟨known, inside | beyond⟩ := second.region n member
    · exact ⟨known, (first.region n inside).2⟩
    · exact ⟨known, Or.inr (Nat.le_trans first.longer beyond)⟩

theorem Place.dict_or_stops (place : o.Place r d entries key slots part) :
    (∃ e old, lookup key slots = some (.dict e) ∧ lookup key entries = some (.dict old) ∧
      o.Unshared part (.dict e) (.dict old)) ∨
    (∀ e, lookup key slots ≠ some (.dict e)) ∧ ∀ old, lookup key entries ≠ some (.dict old) := by
  rcases place.shown with ⟨missing, absent⟩ | ⟨item, v, found, there, shown⟩
  · rw [missing, absent]
    exact Or.inr ⟨(fun _ same => nomatch same), fun _ same => nomatch same⟩
  · rw [found, there]
    cases item with
    | dict e =>
        obtain ⟨old, rfl⟩ := shown.exists_entries
        exact Or.inl ⟨e, old, rfl, rfl, shown⟩
    | _ =>
        cases shown
        exact Or.inr ⟨(fun _ same => nomatch same), fun _ same => nomatch same⟩

theorem Place.through (place : o.Place r d entries key slots part)
    (found : lookup key slots = some (.dict e)) (known : ∀ n ∈ r, n < o.length) (free : Disjoint r p)
    (touched : Touches o (part ∪ p) o' r') (below : o'.Unshared r' (.dict e) (.dict new)) :
    Touches o (r ∪ p) o' (r ∪ r') ∧
      o'.Unshared (r ∪ r') (.dict d) (.dict (put key (.dict new) entries)) := by
  have outside : ∀ n ∈ r, n ∉ part → o'[n]? = o[n]? := by
    intro n member other
    refine touched.kept n (known n member) ?_
    rintro (inside | also)
    · exact other inside
    · exact free.le_bot ⟨member, also⟩
  constructor
  · refine ⟨touched.longer, fun n there other => ?_, fun n member => ?_⟩
    · exact touched.kept n there fun member => other (Set.union_subset_union_left p place.inside member)
    · rcases member with old | new
      · exact ⟨Nat.lt_of_lt_of_le (known n old) touched.longer, Or.inl (Or.inl old)⟩
      · obtain ⟨there, within⟩ := touched.region n new
        exact ⟨there, within.imp_left (@Set.union_subset_union_left _ _ _ p place.inside n)⟩
  · refine place.replace ?_ (fun n member _ => outside n member) ?_ below
    · rw [outside d place.here place.below, place.stored, put_of_lookup found]
    · intro n member old
      rcases (touched.region n member).2 with (inside | also) | beyond
      · exact inside
      · exact absurd ⟨old, also⟩ (Set.disjoint_iff.mp free ·)
      · exact absurd (known n old) (Nat.not_lt_of_le beyond)

theorem unshared_store (shown : o.Unshared r (.dict d) (.dict entries)) (known : ∀ n ∈ r ∪ p, n < o.length)
    (apart : Disjoint r p) (value : o.Unshared p item v) (key : τ) :
    Touches o (r ∪ p) (o.store d key item) (r ∪ p) ∧
      (o.store d key item).Unshared (r ∪ p) (.dict d) (.dict (put key v entries)) := by
  obtain ⟨slots, part, place⟩ := shown.place key
  have here : d < o.length := known d (Or.inl place.here)
  have other : ∀ n, n ≠ d → (o.store d key item)[n]? = o[n]? := fun n different =>
    List.getElem?_set_ne (Ne.symm different)
  constructor
  · refine ⟨(length_store o d key item).ge, fun n _ outside => other n ?_, fun n member => ?_⟩
    · rintro rfl
      exact outside (Or.inl place.here)
    · rw [length_store]
      exact ⟨known n member, Or.inl member⟩
  · refine place.replace ?_ (fun n _ different _ => other n different) ?_ (value.congr fun n member => other n ?_)
    · rw [store, slots_of_getElem? place.stored, List.getElem?_set_self here]
    · exact fun n also member => absurd ⟨member, also⟩ (Set.disjoint_iff.mp apart ·)
    · rintro rfl
      exact apart.le_bot ⟨place.here, member⟩

theorem Unshared.empty (stored : o[d]? = some []) : o.Unshared {d} (.dict d) (.dict []) :=
  .dict {d} d [] [] (fun _ => ∅) rfl (fun _ => Set.empty_subset _) (fun _ => id)
    (fun _ _ _ => Set.empty_disjoint _) stored rfl List.nodup_nil fun _ _ _ found _ => nomatch found

/-- A dictionary with things put into it takes the place of what was under a key. -/
theorem Place.renewed (place : o.Place r d entries key slots part) (known : ∀ n ∈ r ∪ p, n < o.length)
    (apart : Disjoint r p) (touched : Touches (o.made d key) ({o.length} ∪ p) o' r')
    (below : o'.Unshared r' (.dict o.length) (.dict new)) : Touches o (r ∪ p) o' (r ∪ r') ∧
      o'.Unshared (r ∪ r') (.dict d) (.dict (put key (.dict new) entries)) := by
  have longer := length_made o d key
  have here : d < o.length := known d (Or.inl place.here)
  have outside : ∀ n < o.length, n ∉ p → o'[n]? = (o.store d key (.dict o.length))[n]? := by
    intro n there other
    rw [touched.kept n (by omega), getElem?_made_of_lt there]
    rintro (rfl | also)
    · exact Nat.lt_irrefl _ there
    · exact other also
  have off : ∀ n ∈ r, n ∉ p := fun n member also => apart.le_bot ⟨member, also⟩
  constructor
  · refine ⟨by have := touched.longer; omega, fun n there other => ?_, fun n member => ?_⟩
    · rw [outside n there fun also => other (Or.inr also)]
      exact List.getElem?_set_ne fun equal : d = n => other (Or.inl (equal ▸ place.here))
    · rcases member with old | new
      · have there := known n (Or.inl old)
        exact ⟨by have := touched.longer; omega, Or.inl (Or.inl old)⟩
      · obtain ⟨there, (rfl | also) | beyond⟩ := touched.region n new
        · exact ⟨there, Or.inr (Nat.le_refl _)⟩
        · exact ⟨there, Or.inl (Or.inr also)⟩
        · exact ⟨there, Or.inr (by omega)⟩
  · refine place.replace ?_ (fun n member different _ => ?_) ?_ below
    · rw [outside d here (off d place.here), store, slots_of_getElem? place.stored,
        List.getElem?_set_self here]
    · rw [outside n (known n (Or.inl member)) (off n member)]
      exact List.getElem?_set_ne (Ne.symm different)
    · intro n new old
      have there := known n (Or.inl old)
      rcases (touched.region n new).2 with (rfl | also) | beyond
      · exact absurd there (Nat.lt_irrefl _)
      · exact absurd also (off n old)
      · omega

theorem unshared_assign (further : path ≠ []) (shown : o.Unshared r (.dict d) (.dict entries))
    (known : ∀ n ∈ r ∪ p, n < o.length) (apart : Disjoint r p) (value : o.Unshared p item v) :
    ∃ r', Touches o (r ∪ p) (o.assign d path item) r' ∧
      (o.assign d path item).Unshared r' (.dict d) (.dict (setPath path v entries)) := by
  induction path generalizing o r d entries with
  | nil => exact absurd rfl further
  | cons key path ih =>
      by_cases single : path = []
      · subst single
        rw [assign, setPath]
        exact ⟨_, unshared_store shown known apart value key⟩
      · obtain ⟨slots, part, place⟩ := shown.place key
        rw [setPath_cons v single]
        have slots_d := slots_of_getElem? place.stored
        rcases place.dict_or_stops with ⟨e, old, found, there, below⟩ | ⟨stops, none⟩
        · rw [assign_through single item (slots_d ▸ found), inner, there]
          have inside := place.inside
          obtain ⟨r', touched, result⟩ := ih single below
            (fun n member => known n (Set.union_subset_union_left p inside member))
            (apart.mono_left inside) value
          exact ⟨_, place.through found (fun n member => known n (Or.inl member)) apart touched result⟩
        · have longer := length_made o d key
          have fresh : inner key entries = [] := by
            rw [inner]
            split
            · next old there => exact absurd there (none old)
            · rfl
          have kept : (o.made d key).Unshared p item v := value.congr fun n member => by
            rw [getElem?_made_of_lt (known n (Or.inr member))]
            exact List.getElem?_set_ne fun equal : d = n =>
              apart.le_bot ⟨place.here, equal ▸ member⟩
          rw [assign_stop single item (slots_d ▸ stops), fresh]
          -- No region holds the number of the new dictionary.
          obtain ⟨r', touched, result⟩ := ih single (Unshared.empty (getElem?_made_new o d key))
            (by
              rintro n (rfl | member)
              · omega
              · have := known n (Or.inr member)
                omega)
            (Set.disjoint_singleton_left.mpr fun member => Nat.lt_irrefl _ (known _ (Or.inr member))) kept
          exact ⟨_, place.renewed known apart touched result⟩

theorem unshared_delete (shown : o.Unshared r (.dict d) (.dict entries)) (known : ∀ n ∈ r, n < o.length)
    (removed : o.delete d path = some left) : ∃ rest, removePath path entries = some rest ∧
      Touches o r left r ∧ left.Unshared r (.dict d) (.dict rest) := by
  induction path generalizing r d entries with
  | nil => cases removed
  | cons key path ih =>
      obtain ⟨slots, part, place⟩ := shown.place key
      have slots_d := slots_of_getElem? place.stored
      by_cases single : path = []
      · subst single
        obtain ⟨⟨item, found⟩, rfl⟩ := delete_single removed
        rw [slots_d] at found ⊢
        refine ⟨HtmlTree.erase key entries, ?_, ⟨?_, ?_, ?_⟩, shown.erase place.stored key⟩
        · rcases place.shown with ⟨missing, _⟩ | ⟨_, v, _, there, _⟩
          · rw [missing] at found
            cases found
          · rw [removePath, there]
        · rw [List.length_set]
        · exact fun n _ other => List.getElem?_set_ne fun equal : d = n => other (equal ▸ place.here)
        · intro n member
          rw [List.length_set]
          exact ⟨known n member, Or.inl member⟩
      · rcases place.dict_or_stops with ⟨e, old, found, there, below⟩ | ⟨stops, none⟩
        · rw [delete_through single (slots_d ▸ found)] at removed
          obtain ⟨rest, removed, touched, result⟩ :=
            ih below (fun n member => known n (place.inside member)) removed
          have whole := place.through found known (Set.disjoint_empty r)
            (by rwa [Set.union_empty]) result
          rw [Set.union_empty, Set.union_eq_self_of_subset_right place.inside] at whole
          refine ⟨_, ?_, whole⟩
          obtain ⟨next, path, rfl⟩ := List.exists_cons_of_ne_nil single
          rw [removePath, there]
          · simp only [removed, Option.map_some]
          · exact List.cons_ne_nil next path
        · rw [delete_stop single (slots_d ▸ stops)] at removed
          cases removed

theorem unshared_mergeInto (each : ∀ entry ∈ source, ∀ {o : Objects τ} {r : Set Nat} {d : Nat}
      {entries : Entries τ}, o.Unshared r (.dict d) (.dict entries) → (∀ n ∈ r, n < o.length) →
      ∃ r', Touches o r (o.mergeSlot d entry.1 entry.2) r' ∧
        (o.mergeSlot d entry.1 entry.2).Unshared r' (.dict d)
          (.dict (put entry.1 (mergeValue (lookup entry.1 entries) entry.2) entries))) :
    ∀ {o : Objects τ} {r : Set Nat} {d : Nat} {entries : Entries τ}, o.Unshared r (.dict d) (.dict entries) →
      (∀ n ∈ r, n < o.length) → ∃ r', Touches o r (o.mergeInto d source) r' ∧
        (o.mergeInto d source).Unshared r' (.dict d) (.dict (mergeEntries entries source)) := by
  induction source with
  | nil =>
      intro o r d entries shown known
      exact ⟨r, ⟨Nat.le_refl _, fun _ _ _ => rfl, fun n member => ⟨known n member, Or.inl member⟩⟩, shown⟩
  | cons entry source ih =>
      intro o r d entries shown known
      rw [List.forall_mem_cons] at each
      obtain ⟨r₁, first, shown₁⟩ := each.1 shown known
      obtain ⟨r₂, second, shown₂⟩ := ih each.2 shown₁ fun n member => (first.region n member).1
      exact ⟨r₂, first.trans second, shown₂⟩

theorem touches_build (proper : Proper fits v) (known : ∀ n ∈ r, n < o.length) :
    Touches o r (o.build v).2 (r ∪ added o (o.build v).2) := by
  have old := (built_build proper o).old
  refine ⟨old.length_le, fun n there _ => getElem?_of_old old there, fun n member => ?_⟩
  rcases member with inside | new
  · exact ⟨Nat.lt_of_lt_of_le (known n inside) old.length_le, Or.inl inside⟩
  · exact ⟨new.2, Or.inr new.1⟩

omit [DecidableEq τ] in
theorem disjoint_added (known : ∀ n ∈ r, n < o.length) (o' : Objects τ) : Disjoint r (added o o') :=
  Set.disjoint_left.mpr fun n inside new => Nat.lt_irrefl _ (Nat.lt_of_lt_of_le (known n inside) new.1)

theorem unshared_mergeSlot_new (proper : Proper fits v) (shown : o.Unshared r (.dict d) (.dict entries))
    (known : ∀ n ∈ r, n < o.length) (new : v.dict? = none ∨ ∀ e, lookup key (o.slots d) ≠ some (.dict e)) :
    ∃ r', Touches o r (o.mergeSlot d key v) r' ∧
      (o.mergeSlot d key v).Unshared r' (.dict d) (.dict (put key v entries)) := by
  have old := (built_build proper o).old
  have touched := touches_build proper known
  have kept := shown.congr fun n member => getElem?_of_old old (known n member)
  rw [mergeSlot_new new]
  obtain ⟨stored, result⟩ := unshared_store kept (fun n member => (touched.region n member).1)
    (disjoint_added known _) (unshared_build proper o) key
  exact ⟨_, touched.trans stored, result⟩

theorem unshared_mergeSlot (proper : Proper fits v) (key : τ) : ∀ {o : Objects τ} {r : Set Nat} {d : Nat}
    {entries : Entries τ}, o.Unshared r (.dict d) (.dict entries) → (∀ n ∈ r, n < o.length) →
    ∃ r', Touches o r (o.mergeSlot d key v) r' ∧ (o.mergeSlot d key v).Unshared r' (.dict d)
      (.dict (put key (mergeValue (lookup key entries) v) entries)) := by
  revert key
  refine proper.dict_induction ?other ?dict
  case other =>
    intro v proper scalar key o r d entries shown known
    rw [mergeValue_scalar _ scalar]
    exact unshared_mergeSlot_new proper shown known (Or.inl scalar)
  case dict =>
    intro source proper ih key o r d entries shown known
    obtain ⟨slots, part, place⟩ := shown.place key
    have slots_d := slots_of_getElem? place.stored
    rcases place.dict_or_stops with ⟨e, old, found, there, below⟩ | ⟨stops, none⟩
    · rw [mergeSlot_through (slots_d ▸ found), there, mergeValue]
      obtain ⟨r', touched, result⟩ := unshared_mergeInto (fun entry member => ih entry member entry.1)
        below fun n member => known n (place.inside member)
      have whole := place.through found known (Set.disjoint_empty r) (by rwa [Set.union_empty]) result
      rw [Set.union_empty] at whole
      exact ⟨_, whole⟩
    · rw [mergeValue_of_not_dict source none]
      exact unshared_mergeSlot_new proper shown known (Or.inr (slots_d ▸ stops))

theorem unshared_merged (proper : Proper fits (.dict source)) (shown : o.Unshared r (.dict d) (.dict entries))
    (known : ∀ n ∈ r, n < o.length) : ∃ r', Touches o r (o.mergeInto d source) r' ∧
      (o.mergeInto d source).Unshared r' (.dict d) (.dict (mergeEntries entries source)) := by
  cases proper with
  | dict _ _ inside =>
      exact unshared_mergeInto (fun entry member => unshared_mergeSlot (inside entry member) entry.1) shown
        known

end Touching

end HtmlTree.Objects
