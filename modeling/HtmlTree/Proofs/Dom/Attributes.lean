import HtmlTree.Dom.Attributes
import HtmlTree.Proofs.Entries

/-! The attributes that a dictionary of them holds, and the dictionary that is found in attributes. The
searches for a name do to the list what they do to the dictionary. -/

namespace HtmlTree

namespace Attr

/-- Of each repeated name the first place and the last value. -/
def collapse (attrs : List Attr) : List Attr :=
  (attrs.map (·.name)).eraseDups.map fun name => ⟨name, (value? name attrs.reverse).getD ""⟩

theorem value?_eq_lookup (name : String) (attrs : List Attr) :
    value? name attrs = lookup name (attrs.map fun a => (a.name, a.value)) := by
  induction attrs with
  | nil => rfl
  | cons a attrs ih =>
      by_cases same : a.name = name
      · simp [value?, lookup, same]
      · simpa [value?, lookup, same] using ih

theorem toPairs_of_nodup (attrs : List Attr) (distinct : (attrs.map (·.name)).Nodup) :
    toPairs attrs = attrs.map fun a => (a.name, a.value) := by
  rw [toPairs, collect_of_nodup]
  rwa [List.map_map]

theorem ofPairs_toPairs (attrs : List Attr) : ofPairs (toPairs attrs) = collapse attrs := by
  let pairs := attrs.map fun a => (a.name, a.value)
  have names : pairs.map (·.1) = attrs.map (·.name) := by
    simp [pairs, Function.comp_def]
  calc
    ofPairs (toPairs attrs) = ofPairs ((collect pairs |>.map (·.1)).map fun name =>
        (name, (lookup name (collect pairs)).getD "")) := by
      rw [← entries_eq_of_nodup _ (nodup_keys_collect pairs) ""]
      rfl
    _ = ((attrs.map (·.name)).eraseDups.map fun name =>
        (⟨name, (lookup name pairs.reverse).getD ""⟩ : Attr)) := by
      rw [keys_collect, names]
      simp only [lookup_collect, ofPairs, List.map_map]
      rfl
    _ = collapse attrs := by
      simp only [collapse, value?_eq_lookup, pairs, List.map_reverse]

example : collapse [⟨"a", "1"⟩, ⟨"b", "2"⟩, ⟨"a", "3"⟩] = [⟨"a", "3"⟩, ⟨"b", "2"⟩] := by decide

section Dictionary

variable (name value : String) (dict : List (String × String))

theorem pairs_ofPairs : (ofPairs dict).map (fun a => (a.name, a.value)) = dict := by
  rw [ofPairs, List.map_map]
  exact List.map_id _

theorem names_ofPairs : (ofPairs dict).map (·.name) = dict.map (·.1) := by
  rw [ofPairs, List.map_map]
  rfl

theorem value?_ofPairs : value? name (ofPairs dict) = lookup name dict := by
  rw [value?_eq_lookup, pairs_ofPairs]

theorem assign_ofPairs : assign name value (ofPairs dict) = ofPairs (put name value dict) := by
  induction dict with
  | nil => rfl
  | cons pair dict ih =>
      by_cases same : pair.1 = name
      · simp [ofPairs, assign, put, same]
      · simpa [ofPairs, assign, put, same] using ih

theorem drop_ofPairs : drop name (ofPairs dict) = ofPairs (erase name dict) := by
  induction dict with
  | nil => rfl
  | cons pair dict ih =>
      by_cases same : pair.1 = name
      · simp [ofPairs, drop, erase, same]
      · simpa [ofPairs, drop, erase, same] using ih

theorem toPairs_ofPairs (distinct : (dict.map (·.1)).Nodup) : toPairs (ofPairs dict) = dict := by
  rw [toPairs_of_nodup, pairs_ofPairs]
  rwa [names_ofPairs]

end Dictionary

theorem ofPairs_toPairs_of_nodup (attrs : List Attr) (distinct : (attrs.map (·.name)).Nodup) :
    ofPairs (toPairs attrs) = attrs := by
  rw [toPairs_of_nodup attrs distinct, ofPairs, List.map_map]
  exact List.map_id _

section Repeats

/-! A name that is there more than once. Writers and one reader take its first place, the other readers
its last one. -/

def repeats (name : String) (attrs : List Attr) : Nat := (attrs.map (·.name)).count name

variable {name : String} {front back : List Attr} {a : Attr}

theorem value?_append (name : String) (front back : List Attr) :
    value? name (front ++ back) = (value? name front).or (value? name back) := by
  rw [value?, List.find?_append, value?, value?]
  cases front.find? fun a => a.name = name <;> rfl

theorem value?_eq_none_iff {attrs : List Attr} :
    value? name attrs = none ↔ name ∉ attrs.map (·.name) := by
  rw [value?_eq_lookup, lookup_eq_none_iff, List.map_map]
  rfl

theorem value?_reverse_eq_none_iff {attrs : List Attr} :
    value? name attrs.reverse = none ↔ name ∉ attrs.map (·.name) := by
  rw [value?_eq_none_iff, List.map_reverse, List.mem_reverse]

theorem lookup_toPairs (name : String) (attrs : List Attr) :
    lookup name (toPairs attrs) = value? name attrs.reverse := by
  rw [toPairs, lookup_collect, value?_eq_lookup, List.map_reverse]

/-- A list in which the name is not, or is for the first time between two parts. -/
inductive FirstOf (name : String) : List Attr → Prop
  | absent {attrs : List Attr} (fresh : name ∉ attrs.map (·.name)) : FirstOf name attrs
  | between (front : List Attr) (a : Attr) (back : List Attr)
      (fresh : name ∉ front.map (·.name)) (named : a.name = name) : FirstOf name (front ++ a :: back)

theorem firstOf (name : String) (attrs : List Attr) : FirstOf name attrs := by
  induction attrs with
  | nil => exact .absent (List.not_mem_nil)
  | cons b attrs ih =>
      by_cases same : b.name = name
      · exact .between [] b attrs List.not_mem_nil same
      · cases ih with
        | absent fresh =>
            refine .absent ?_
            rw [List.map_cons, List.mem_cons, not_or]
            exact ⟨Ne.symm same, fresh⟩
        | between front a back fresh named =>
            refine .between (b :: front) a back ?_ named
            rw [List.map_cons, List.mem_cons, not_or]
            exact ⟨Ne.symm same, fresh⟩

theorem assign_of_absent (value : String) {attrs : List Attr} (fresh : name ∉ attrs.map (·.name)) :
    assign name value attrs = attrs ++ [⟨name, value⟩] := by
  induction attrs with
  | nil => rfl
  | cons b attrs ih =>
      rw [List.map_cons, List.mem_cons, not_or] at fresh
      rw [assign, if_neg (Ne.symm fresh.1), ih fresh.2, List.cons_append]

theorem drop_of_absent {attrs : List Attr} (fresh : name ∉ attrs.map (·.name)) :
    drop name attrs = attrs := by
  induction attrs with
  | nil => rfl
  | cons b attrs ih =>
      rw [List.map_cons, List.mem_cons, not_or] at fresh
      rw [drop, if_neg (Ne.symm fresh.1), ih fresh.2]

theorem assign_of_first (value : String) (fresh : name ∉ front.map (·.name)) (named : a.name = name) :
    assign name value (front ++ a :: back) = front ++ ⟨name, value⟩ :: back := by
  induction front with
  | nil => rw [List.nil_append, assign, if_pos named, named, List.nil_append]
  | cons b front ih =>
      rw [List.map_cons, List.mem_cons, not_or] at fresh
      rw [List.cons_append, assign, if_neg (Ne.symm fresh.1), ih fresh.2, List.cons_append]

theorem drop_of_first (fresh : name ∉ front.map (·.name)) (named : a.name = name) :
    drop name (front ++ a :: back) = front ++ back := by
  induction front with
  | nil => rw [List.nil_append, drop, if_pos named, List.nil_append]
  | cons b front ih =>
      rw [List.map_cons, List.mem_cons, not_or] at fresh
      rw [List.cons_append, drop, if_neg (Ne.symm fresh.1), ih fresh.2, List.cons_append]

theorem repeats_of_first (fresh : name ∉ front.map (·.name)) (named : a.name = name) :
    repeats name (front ++ a :: back) = repeats name back + 1 := by
  rw [repeats, List.map_append, List.count_append, List.count_eq_zero.mpr fresh, List.map_cons, named,
    List.count_cons_self, Nat.zero_add, repeats]

theorem mem_names_iff {attrs : List Attr} : name ∈ attrs.map (·.name) ↔ 0 < repeats name attrs :=
  List.count_pos_iff.symm

theorem value?_assign (name value : String) (attrs : List Attr) :
    value? name (assign name value attrs) = some value := by
  cases firstOf name attrs with
  | absent fresh =>
      rw [assign_of_absent value fresh, value?_append, value?_eq_none_iff.mpr fresh]
      simp [value?]
  | between front a back fresh named =>
      rw [assign_of_first value fresh named, value?_append, value?_eq_none_iff.mpr fresh]
      simp [value?]

theorem value?_reverse_of_first (fresh : name ∉ front.map (·.name)) (middle back : List Attr) :
    value? name (front ++ (middle ++ back)).reverse =
      (value? name back.reverse).or (value? name middle.reverse) := by
  rw [List.reverse_append, List.reverse_append, value?_append, value?_append,
    value?_reverse_eq_none_iff.mpr fresh, Option.or_none]

theorem repeats_le_one_iff (fresh : name ∉ front.map (·.name)) (named : a.name = name) :
    repeats name (front ++ a :: back) ≤ 1 ↔ value? name back.reverse = none := by
  rw [repeats_of_first fresh named, value?_reverse_eq_none_iff, mem_names_iff]
  omega

/-- The last place has the value that was written if there is no other place, and is left alone
otherwise. -/
theorem value?_reverse_assign (name value : String) (attrs : List Attr) :
    value? name (assign name value attrs).reverse =
      if repeats name attrs ≤ 1 then some value else value? name attrs.reverse := by
  cases firstOf name attrs with
  | absent fresh =>
      have none : repeats name attrs = 0 := List.count_eq_zero.mpr fresh
      rw [assign_of_absent value fresh, none, if_pos (Nat.zero_le 1), List.reverse_append]
      simp [value?]
  | between front a back fresh named =>
      have written := value?_reverse_of_first fresh [⟨name, value⟩] back
      have before := value?_reverse_of_first fresh [a] back
      rw [List.singleton_append] at written before
      rw [assign_of_first value fresh named, written, before]
      split
      · next single =>
        rw [(repeats_le_one_iff fresh named).mp single]
        simp [value?]
      · next several =>
        rw [repeats_le_one_iff fresh named] at several
        obtain ⟨last, found⟩ := Option.ne_none_iff_exists'.mp several
        rw [found, Option.some_or, Option.some_or]

/-- Where a name was taken out once, it is found if it was there twice, first at its second place. -/
theorem value?_drop_eq_none_iff {attrs : List Attr} :
    value? name (drop name attrs) = none ↔ repeats name attrs ≤ 1 := by
  cases firstOf name attrs with
  | absent fresh =>
      have none : repeats name attrs = 0 := List.count_eq_zero.mpr fresh
      rw [drop_of_absent fresh, none]
      exact iff_of_true (value?_eq_none_iff.mpr fresh) (Nat.zero_le 1)
  | between front a back fresh named =>
      rw [drop_of_first fresh named, repeats_of_first fresh named, value?_append,
        value?_eq_none_iff.mpr fresh, Option.none_or, value?_eq_none_iff, mem_names_iff]
      omega

theorem value?_reverse_drop (name : String) (attrs : List Attr) :
    value? name (drop name attrs).reverse =
      if repeats name attrs ≤ 1 then none else value? name attrs.reverse := by
  cases firstOf name attrs with
  | absent fresh =>
      have none : repeats name attrs = 0 := List.count_eq_zero.mpr fresh
      rw [drop_of_absent fresh, none, if_pos (Nat.zero_le 1)]
      exact value?_reverse_eq_none_iff.mpr fresh
  | between front a back fresh named =>
      have without := value?_reverse_of_first fresh [] back
      have before := value?_reverse_of_first fresh [a] back
      rw [List.nil_append, List.reverse_nil] at without
      rw [List.singleton_append] at before
      rw [drop_of_first fresh named, without, before]
      split
      · next single => rw [(repeats_le_one_iff fresh named).mp single, Option.none_or, value?, List.find?_nil,
          Option.map_none]
      · next several =>
        rw [repeats_le_one_iff fresh named] at several
        obtain ⟨last, found⟩ := Option.ne_none_iff_exists'.mp several
        rw [found, Option.some_or, Option.some_or]

end Repeats

end Attr

def Content.collapsed : Content → Content
  | element tag space attrs => element tag space (Attr.collapse attrs)
  | c => c

end HtmlTree
