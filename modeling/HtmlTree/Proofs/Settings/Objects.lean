import HtmlTree.Settings.Live
import HtmlTree.Proofs.Values

/-! Dictionaries that may stand in several places. A walk looks up one entry after the other; what is stored
or deleted at the end of a path changes the last entry that the path looks up, and so what is found by the
walks that look up this entry, and by no other. -/

namespace HtmlTree.Objects

open Value (Proper)

variable {τ : Type} {o o' left : Objects τ} {d e : Nat} {key : τ} {path other : List τ} {item : Item τ}
  {entry : Nat × τ}

section Slots

theorem slots_of_getElem? {stored : Slots τ} (there : o[d]? = some stored) : o.slots d = stored := by
  rw [slots, List.getD_eq_getElem?_getD, there, Option.getD_some]

theorem slots_congr (same : o'[d]? = o[d]?) : o'.slots d = o.slots d := by
  rw [slots, slots, List.getD_eq_getElem?_getD, List.getD_eq_getElem?_getD, same]

theorem slots_of_le (unknown : o.length ≤ d) : o.slots d = [] := by
  rw [slots, List.getD_eq_getElem?_getD, List.getElem?_eq_none unknown, Option.getD_none]

theorem slots_set_self (known : d < o.length) (new : Slots τ) : slots (o.set d new) d = new :=
  slots_of_getElem? (List.getElem?_set_self known)

theorem slots_set_of_ne (different : e ≠ d) (new : Slots τ) : slots (o.set d new) e = o.slots e :=
  slots_congr (List.getElem?_set_ne (Ne.symm different))

theorem slots_append_of_lt (known : d < o.length) (more : Objects τ) : slots (o ++ more) d = o.slots d :=
  slots_congr (List.getElem?_append_left known)

theorem slots_append_new (o : Objects τ) (new : Slots τ) : slots (o ++ [new]) o.length = new :=
  slots_of_getElem? List.getElem?_concat_length

end Slots

variable [DecidableEq τ]

section Walk

def walk (o : Objects τ) : List τ → Item τ → Option (Item τ)
  | [], item => some item
  | key :: path, .dict d => (lookup key (o.slots d)).bind (walk o path)
  | _ :: _, _ => none

theorem walk_dict_cons (o : Objects τ) (d : Nat) (key : τ) (path : List τ) :
    o.walk (key :: path) (.dict d) = (lookup key (o.slots d)).bind (o.walk path) := rfl

theorem walk_append (o : Objects τ) (front back : List τ) : ∀ item : Item τ,
    o.walk (front ++ back) item = (o.walk front item).bind (o.walk back) := by
  induction front with
  | nil => exact fun _ => rfl
  | cons key front ih =>
      intro item
      cases item with
      | dict d =>
          rw [List.cons_append, walk_dict_cons, walk_dict_cons, Option.bind_assoc]
          exact Option.bind_congr fun inner _ => ih inner
      | _ => rfl

theorem find_eq_walk (further : path ≠ []) : o.find d path = o.walk path (.dict d) := by
  induction path generalizing d with
  | nil => exact absurd rfl further
  | cons key path ih =>
      rw [walk_dict_cons]
      cases path with
      | nil =>
          rw [find]
          cases lookup key (o.slots d) <;> rfl
      | cons next path =>
          simp only [find]
          cases lookup key (o.slots d) with
          | none => rfl
          | some item =>
              cases item with
              | dict e => exact ih (List.cons_ne_nil next path)
              | _ => rfl

theorem walk_stop (further : path ≠ []) (stops : ∀ e, lookup key (o.slots d) ≠ some (.dict e)) :
    o.walk (key :: path) (.dict d) = none := by
  obtain ⟨next, rest, rfl⟩ := List.exists_cons_of_ne_nil further
  rw [walk_dict_cons]
  cases found : lookup key (o.slots d) with
  | none => rfl
  | some item =>
      cases item with
      | dict e => exact absurd found (stops e)
      | _ => rfl

/-- The entries that a path looks up, each by its dictionary and key. -/
def trail (o : Objects τ) (d : Nat) : List τ → List (Nat × τ)
  | [] => []
  | key :: path =>
    (d, key) ::
      match lookup key (o.slots d) with
      | some (.dict e) => trail o e path
      | _ => []

theorem trail_single (o : Objects τ) (d : Nat) (key : τ) : o.trail d [key] = [(d, key)] := by
  rw [trail]
  split <;> rfl

theorem trail_through (path : List τ) (through : lookup key (o.slots d) = some (.dict e)) :
    o.trail d (key :: path) = (d, key) :: o.trail e path := by
  rw [trail, through]

theorem trail_stop (path : List τ) (stops : ∀ e, lookup key (o.slots d) ≠ some (.dict e)) :
    o.trail d (key :: path) = [(d, key)] := by
  rw [trail]
  split
  · next e through => exact absurd through (stops e)
  · rfl

theorem getLast?_trail_through (further : path ≠ [])
    (through : lookup key (o.slots d) = some (.dict e)) :
    (o.trail d (key :: path)).getLast? = (o.trail e path).getLast? := by
  obtain ⟨next, rest, rfl⟩ := List.exists_cons_of_ne_nil further
  rw [trail_through _ through, trail, List.getLast?_cons_cons]

theorem through_or_stops (o : Objects τ) (d : Nat) (key : τ) :
    (∃ e, lookup key (o.slots d) = some (.dict e)) ∨ ∀ e, lookup key (o.slots d) ≠ some (.dict e) := by
  by_cases through : ∃ e, lookup key (o.slots d) = some (.dict e)
  · exact Or.inl through
  · exact Or.inr (not_exists.mp through)

theorem walk_congr (same : ∀ entry ∈ o.trail d path,
    lookup entry.2 (o'.slots entry.1) = lookup entry.2 (o.slots entry.1)) :
    o'.walk path (.dict d) = o.walk path (.dict d) := by
  induction path generalizing d with
  | nil => rfl
  | cons key path ih =>
      rw [walk_dict_cons, walk_dict_cons]
      rcases through_or_stops o d key with ⟨e, through⟩ | stops
      · rw [trail_through path through, List.forall_mem_cons] at same
        rw [same.1, through]
        exact ih same.2
      · rw [trail_stop path stops, List.forall_mem_singleton] at same
        rw [same]
        cases found : lookup key (o.slots d) with
        | none => rfl
        | some item =>
            cases item with
            | dict e => exact absurd found (stops e)
            | _ => cases path <;> rfl

theorem trail_congr (same : ∀ entry ∈ o.trail d path,
    lookup entry.2 (o'.slots entry.1) = lookup entry.2 (o.slots entry.1)) :
    o'.trail d path = o.trail d path := by
  induction path generalizing d with
  | nil => rfl
  | cons key path ih =>
      rcases through_or_stops o d key with ⟨e, through⟩ | stops
      · rw [trail_through path through, List.forall_mem_cons] at same
        rw [trail_through path through, trail_through path (same.1.trans through), ih same.2]
      · rw [trail_stop path stops, List.forall_mem_singleton] at same
        rw [trail_stop path stops, trail_stop path fun e => by rw [same]; exact stops e]

end Walk

section Store

theorem length_store (o : Objects τ) (d : Nat) (key : τ) (item : Item τ) :
    (o.store d key item).length = o.length := List.length_set

theorem lookup_store_self (known : d < o.length) (key : τ) (item : Item τ) :
    lookup key ((o.store d key item).slots d) = some item := by
  rw [store, slots_set_self known, lookup_put_self]

theorem lookup_store_of_ne {other : τ} (different : (e, other) ≠ (d, key)) (item : Item τ) :
    lookup other ((o.store d key item).slots e) = lookup other (o.slots e) := by
  rw [store]
  by_cases same : e = d
  · subst same
    have apart : other ≠ key := fun equal => different (by rw [equal])
    by_cases known : e < o.length
    · rw [slots_set_self known, lookup_put_of_ne apart]
    · rw [List.set_eq_of_length_le (Nat.le_of_not_lt known)]
  · rw [slots_set_of_ne same]

/-- The dictionaries with a new one under a key, with nothing in it yet. -/
def made (o : Objects τ) (d : Nat) (key : τ) : Objects τ := o.store d key (.dict o.length) ++ [[]]

theorem length_made (o : Objects τ) (d : Nat) (key : τ) : (o.made d key).length = o.length + 1 := by
  rw [made, List.length_append, length_store, List.length_singleton]

theorem getElem?_made_new (o : Objects τ) (d : Nat) (key : τ) : (o.made d key)[o.length]? = some [] := by
  have here := List.getElem?_concat_length (l := o.store d key (.dict o.length)) (a := [])
  rwa [length_store] at here

theorem getElem?_made_of_lt (known : e < o.length) (d : Nat) (key : τ) :
    (o.made d key)[e]? = (o.store d key (.dict o.length))[e]? := by
  rw [made, List.getElem?_append_left]
  rwa [length_store]

theorem slots_made_of_lt (known : e < o.length) (d : Nat) (key : τ) :
    (o.made d key).slots e = (o.store d key (.dict o.length)).slots e :=
  slots_congr (getElem?_made_of_lt known d key)

theorem stops_made_new (o : Objects τ) (d : Nat) (key next : τ) :
    ∀ e, lookup next ((o.made d key).slots o.length) ≠ some (.dict e) := by
  rw [slots_of_getElem? (getElem?_made_new o d key)]
  exact fun e same => nomatch same

theorem assign_through (further : path ≠ []) (item : Item τ)
    (through : lookup key (o.slots d) = some (.dict e)) :
    o.assign d (key :: path) item = o.assign e path item := by
  obtain ⟨next, path, rfl⟩ := List.exists_cons_of_ne_nil further
  rw [assign, through]
  exact List.cons_ne_nil next path

theorem assign_stop (further : path ≠ []) (item : Item τ)
    (stops : ∀ e, lookup key (o.slots d) ≠ some (.dict e)) :
    o.assign d (key :: path) item = (o.made d key).assign o.length path item := by
  obtain ⟨next, path, rfl⟩ := List.exists_cons_of_ne_nil further
  rw [assign]
  · split
    · next e through => exact absurd through (stops e)
    · rfl
  · exact List.cons_ne_nil next path

theorem delete_through (further : path ≠ []) (through : lookup key (o.slots d) = some (.dict e)) :
    o.delete d (key :: path) = o.delete e path := by
  obtain ⟨next, path, rfl⟩ := List.exists_cons_of_ne_nil further
  rw [delete, through]
  exact List.cons_ne_nil next path

theorem delete_stop (further : path ≠ []) (stops : ∀ e, lookup key (o.slots d) ≠ some (.dict e)) :
    o.delete d (key :: path) = none := by
  obtain ⟨next, path, rfl⟩ := List.exists_cons_of_ne_nil further
  rw [delete]
  · split
    · next e through => exact absurd through (stops e)
    · rfl
  · exact List.cons_ne_nil next path

theorem delete_single (removed : o.delete d [key] = some left) :
    (∃ item, lookup key (o.slots d) = some item) ∧ left = o.set d (erase key (o.slots d)) := by
  rw [delete] at removed
  cases found : lookup key (o.slots d) with
  | none => simp [found] at removed
  | some item =>
      rw [found] at removed
      exact ⟨⟨item, rfl⟩, (Option.some.inj removed).symm⟩

end Store

/-- An item with no dictionary but the first ones in it. -/
inductive Fits (count : Nat) : Item τ → Prop
  | null : Fits count .null
  | bool (b : Bool) : Fits count (.bool b)
  | int (n : Int) : Fits count (.int n)
  | real (x : Decimal.Binary64) : Fits count (.real x)
  | text (s : τ) : Fits count (.text s)
  | list (items : List (Item τ)) (fits : ∀ item ∈ items, Fits count item) : Fits count (.list items)
  | dict (number : Nat) (known : number < count) : Fits count (.dict number)

omit [DecidableEq τ] in
theorem Fits.lt {count : Nat} (fits : Fits count (.dict e : Item τ)) : e < count := by
  cases fits with
  | dict _ known => exact known

omit [DecidableEq τ] in
theorem Fits.mono {count more : Nat} (fits : Fits count item) (le : count ≤ more) : Fits more item := by
  induction fits with
  | list items _ ih => exact .list items ih
  | dict n known => exact .dict n (Nat.lt_of_lt_of_le known le)
  | _ => constructor

/-- No key is repeated, and all dictionaries held are of the first ones. -/
structure SoundSlots (count : Nat) (slots : Slots τ) : Prop where
  distinct : (slots.map (·.1)).Nodup
  fits : ∀ key item, lookup key slots = some item → Fits count item

def SoundUpTo (count : Nat) (o : Objects τ) : Prop := ∀ d, SoundSlots count (o.slots d)

/-- All that dictionaries hold is there. -/
def Sound (o : Objects τ) : Prop := SoundUpTo o.length o

section Writing

theorem Sound.lt_of_mem_trail (sound : o.Sound) (known : d < o.length) (member : entry ∈ o.trail d path) :
    entry.1 < o.length := by
  induction path generalizing d with
  | nil => cases member
  | cons key path ih =>
      rcases through_or_stops o d key with ⟨e, through⟩ | stops
      · rw [trail_through path through] at member
        rcases List.mem_cons.mp member with rfl | later
        · exact known
        · exact ih ((sound d).fits key _ through).lt later
      · rw [trail_stop path stops, List.mem_singleton] at member
        rw [member]
        exact known

theorem length_le_assign (path : List τ) (item : Item τ) :
    ∀ (o : Objects τ) (d : Nat), o.length ≤ (o.assign d path item).length := by
  induction path with
  | nil => exact fun o d => Nat.le_refl _
  | cons key path ih =>
      intro o d
      by_cases last : path = []
      · subst last
        rw [assign]
        exact Nat.le_of_eq (length_store o d key item).symm
      · rcases through_or_stops o d key with ⟨e, through⟩ | stops
        · rw [assign_through last item through]
          exact ih o e
        · rw [assign_stop last item stops]
          have longer := ih (o.made d key) o.length
          rw [length_made] at longer
          omega

theorem trail_made (o : Objects τ) (d : Nat) (key next : τ) (rest : List τ) :
    (o.made d key).trail o.length (next :: rest) = [(o.length, next)] :=
  trail_stop rest (stops_made_new o d key next)

theorem getLast?_trail_made (o : Objects τ) (d : Nat) (key next : τ) (rest : List τ) :
    ((o.made d key).trail o.length (next :: rest)).getLast? = some (o.length, next) := by
  rw [trail_made]
  rfl

/-- Assigning at a path changes the last entry that the path looks up, of all that were there. -/
theorem lookup_assign {wanted : τ} (last : (o.trail d path).getLast? = some entry) (known : e < o.length)
    (different : (e, wanted) ≠ entry) (item : Item τ) :
    lookup wanted ((o.assign d path item).slots e) = lookup wanted (o.slots e) := by
  induction path generalizing o d entry with
  | nil => cases last
  | cons key path ih =>
      by_cases single : path = []
      · subst single
        rw [trail_single] at last
        cases last
        rw [assign, lookup_store_of_ne different]
      · rcases through_or_stops o d key with ⟨inner, through⟩ | stops
        · rw [getLast?_trail_through single through] at last
          rw [assign_through single item through]
          exact ih last known different
        · rw [trail_stop path stops] at last
          cases last
          obtain ⟨next, rest, rfl⟩ := List.exists_cons_of_ne_nil single
          have elsewhere : (e, wanted) ≠ (o.length, next) := fun same => by
            cases same
            exact Nat.lt_irrefl _ known
          have longer := length_made o d key
          have written := getLast?_trail_made o d key next rest
          rw [assign_stop single item stops, ih written (by omega) elsewhere, slots_made_of_lt known,
            lookup_store_of_ne different]

theorem lookup_assign_made (further : path ≠ []) (known : d < o.length) (key : τ) (item : Item τ) :
    lookup key (((o.made d key).assign o.length path item).slots d) = some (.dict o.length) := by
  obtain ⟨next, rest, rfl⟩ := List.exists_cons_of_ne_nil further
  have longer := length_made o d key
  have elsewhere : (d, key) ≠ (o.length, next) := fun same => by
    cases same
    exact Nat.lt_irrefl _ known
  rw [lookup_assign (getLast?_trail_made o d key next rest) (by omega) elsewhere, slots_made_of_lt known,
    lookup_store_self known]

/-- What was assigned is found again, unless its path looks up some entry twice. -/
theorem walk_assign_self (known : ∀ entry ∈ o.trail d path, entry.1 < o.length)
    (once : (o.trail d path).Nodup) (further : path ≠ []) (item : Item τ) :
    (o.assign d path item).walk path (.dict d) = some item := by
  induction path generalizing o d with
  | nil => exact absurd rfl further
  | cons key path ih =>
      have here : d < o.length := known (d, key) List.mem_cons_self
      rw [walk_dict_cons]
      by_cases single : path = []
      · subst single
        rw [assign, lookup_store_self here]
        rfl
      · obtain ⟨next, rest, rfl⟩ := List.exists_cons_of_ne_nil single
        rcases through_or_stops o d key with ⟨inner, through⟩ | stops
        · rw [trail_through _ through, List.nodup_cons] at once
          rw [trail_through _ through, List.forall_mem_cons] at known
          have led : o.trail inner (next :: rest) ≠ [] := List.cons_ne_nil _ _
          have written := List.getLast?_eq_some_getLast led
          have above : (d, key) ≠ (o.trail inner (next :: rest)).getLast led :=
            fun same => once.1 (same ▸ List.getLast_mem led)
          rw [assign_through single item through, lookup_assign written here above, through]
          exact ih known.2 once.2 single
        · rw [assign_stop single item stops, lookup_assign_made single here]
          refine ih ?_ ?_ single
          · rw [trail_made, List.forall_mem_singleton, length_made]
            exact Nat.lt_succ_self _
          · rw [trail_made]
            exact List.nodup_singleton _

theorem delete_eq_none_iff (further : path ≠ []) :
    o.delete d path = none ↔ o.walk path (.dict d) = none := by
  induction path generalizing d with
  | nil => exact absurd rfl further
  | cons key path ih =>
      by_cases single : path = []
      · subst single
        rw [walk_dict_cons, delete]
        cases lookup key (o.slots d) <;> simp [walk]
      · rcases through_or_stops o d key with ⟨e, through⟩ | stops
        · rw [delete_through single through, walk_dict_cons, through]
          exact ih single
        · exact iff_of_true (delete_stop single stops) (walk_stop single stops)

theorem delete_eq_erase (removed : o.delete d path = some left) : ∃ e last item,
    (o.trail d path).getLast? = some (e, last) ∧ lookup last (o.slots e) = some item ∧
      left = o.set e (erase last (o.slots e)) := by
  induction path generalizing d with
  | nil => cases removed
  | cons key path ih =>
      by_cases single : path = []
      · subst single
        obtain ⟨⟨item, found⟩, rfl⟩ := delete_single removed
        exact ⟨d, key, item, by rw [trail_single]; rfl, found, rfl⟩
      · rcases through_or_stops o d key with ⟨inner, through⟩ | stops
        · rw [delete_through single through] at removed
          rw [getLast?_trail_through single through]
          exact ih removed
        · rw [delete_stop single stops] at removed
          cases removed

theorem lookup_delete {wanted : τ} (removed : o.delete d path = some left)
    (last : (o.trail d path).getLast? = some entry) (different : (e, wanted) ≠ entry) :
    lookup wanted (left.slots e) = lookup wanted (o.slots e) := by
  obtain ⟨at_, key, item, here, found, rfl⟩ := delete_eq_erase removed
  rw [here] at last
  cases last
  by_cases same : e = at_
  · subst same
    have apart : wanted ≠ key := fun equal => different (by rw [equal])
    by_cases known : e < o.length
    · rw [slots_set_self known, lookup_erase_of_ne apart]
    · rw [List.set_eq_of_length_le (Nat.le_of_not_lt known)]
  · rw [slots_set_of_ne same]

theorem walk_delete_self (sound : o.Sound) (removed : o.delete d path = some left) :
    left.walk path (.dict d) = none := by
  obtain ⟨seat, last, item, written, found, result⟩ := delete_eq_erase removed
  have known : seat < o.length := by
    by_contra unknown
    rw [slots_of_le (Nat.le_of_not_lt unknown)] at found
    cases found
  have gone : lookup last (left.slots seat) = none := by
    rw [result, slots_set_self known]
    exact lookup_erase_self last _ (sound seat).distinct
  clear result
  induction path generalizing d with
  | nil => cases removed
  | cons key path ih =>
      rw [walk_dict_cons]
      by_cases same : (d, key) = (seat, last)
      · cases same
        rw [gone]
        rfl
      · rw [lookup_delete removed written same]
        rcases through_or_stops o d key with ⟨inner, through⟩ | stops
        · have further : path ≠ [] := by
            rintro rfl
            rw [trail_single] at written
            exact same (Option.some.inj written)
          rw [delete_through further through] at removed
          rw [getLast?_trail_through further through] at written
          rw [through]
          exact ih removed written
        · rw [trail_stop path stops] at written
          exact absurd (Option.some.inj written) same

end Writing

section Soundness

namespace SoundSlots

variable {count more : Nat} {slots : Slots τ}

theorem nil : SoundSlots count ([] : Slots τ) := ⟨List.nodup_nil, fun _ _ same => nomatch same⟩

theorem mono (sound : SoundSlots count slots) (le : count ≤ more) : SoundSlots more slots :=
  ⟨sound.distinct, fun key item found => (sound.fits key item found).mono le⟩

theorem put (sound : SoundSlots count slots) (fits : Fits count item) (key : τ) :
    SoundSlots count (put key item slots) := by
  refine ⟨nodup_keys_put key item slots sound.distinct, fun wanted inner found => ?_⟩
  by_cases same : wanted = key
  · rw [same, lookup_put_self] at found
    cases found
    exact fits
  · rw [lookup_put_of_ne same] at found
    exact sound.fits wanted inner found

theorem erase (sound : SoundSlots count slots) (key : τ) : SoundSlots count (erase key slots) := by
  refine ⟨by rw [keys_erase]; exact sound.distinct.erase key, fun wanted item found => ?_⟩
  by_cases same : wanted = key
  · rw [same, lookup_erase_self key slots sound.distinct] at found
    cases found
  · rw [lookup_erase_of_ne same] at found
    exact sound.fits wanted item found

end SoundSlots

namespace SoundUpTo

variable {count more : Nat} {new : Slots τ}

theorem mono (sound : SoundUpTo count o) (le : count ≤ more) : SoundUpTo more o :=
  fun e => (sound e).mono le

theorem set (sound : SoundUpTo count o) (fit : SoundSlots count new) (d : Nat) :
    SoundUpTo count (o.set d new) := by
  intro e
  by_cases same : e = d
  · subst same
    by_cases known : e < o.length
    · rwa [slots_set_self known]
    · rw [List.set_eq_of_length_le (Nat.le_of_not_lt known)]
      exact sound e
  · rw [slots_set_of_ne same]
    exact sound e

theorem append (sound : SoundUpTo count o) (fit : SoundSlots count new) :
    SoundUpTo count (o ++ [new]) := by
  intro e
  rcases Nat.lt_trichotomy e o.length with known | rfl | unknown
  · rw [slots_append_of_lt known]
    exact sound e
  · rwa [slots_append_new]
  · rw [slots_of_le]
    · exact SoundSlots.nil
    · rw [List.length_append, List.length_singleton]
      omega

theorem store (sound : SoundUpTo count o) (fits : Fits count item) (d : Nat) (key : τ) :
    SoundUpTo count (o.store d key item) := sound.set ((sound d).put fits key) d

end SoundUpTo

namespace Sound

theorem nil : Sound ([] : Objects τ) := fun _ => SoundSlots.nil

theorem store (sound : o.Sound) (fits : Fits o.length item) (d : Nat) (key : τ) :
    (o.store d key item).Sound := by
  have stored := SoundUpTo.store sound fits d key
  rwa [← length_store o d key item] at stored

theorem append (sound : o.Sound) {new : Slots τ} (fit : SoundSlots (o.length + 1) new) :
    Sound (o ++ [new]) := by
  rw [Sound, List.length_append, List.length_singleton]
  exact (SoundUpTo.mono sound (Nat.le_succ _)).append fit

theorem made (sound : o.Sound) (d : Nat) (key : τ) : (o.made d key).Sound := by
  rw [Sound, length_made]
  have fits : Fits (o.length + 1) (.dict o.length : Item τ) := .dict _ (Nat.lt_succ_self _)
  exact ((SoundUpTo.mono sound (Nat.le_succ _)).store fits d key).append SoundSlots.nil

theorem assign (sound : o.Sound) (fits : Fits o.length item) (d : Nat) (path : List τ) :
    (o.assign d path item).Sound := by
  induction path generalizing o d with
  | nil => exact sound
  | cons key path ih =>
      by_cases single : path = []
      · subst single
        rw [Objects.assign]
        exact sound.store fits d key
      · rcases through_or_stops o d key with ⟨e, through⟩ | stops
        · rw [assign_through single item through]
          exact ih sound fits e
        · rw [assign_stop single item stops]
          refine ih (sound.made d key) (fits.mono ?_) _
          rw [length_made]
          exact Nat.le_succ _

theorem delete (sound : o.Sound) (removed : o.delete d path = some left) : left.Sound := by
  obtain ⟨e, key, item, _, _, rfl⟩ := delete_eq_erase removed
  rw [Sound, List.length_set]
  exact SoundUpTo.set sound ((sound e).erase key) e

end Sound

end Soundness

section Building

variable {fits : Decimal.Binary64 → Prop} {v : Value τ} {vs : List (Value τ)} {entries : Entries τ}

omit [DecidableEq τ] in
theorem build_list (o : Objects τ) (vs : List (Value τ)) :
    o.build (.list vs) = (.list (o.buildItems vs).1, (o.buildItems vs).2) := rfl

omit [DecidableEq τ] in
theorem build_dict (o : Objects τ) (entries : Entries τ) :
    o.build (.dict entries) = (.dict (o.buildSlots entries).2.length,
      (o.buildSlots entries).2 ++ [(o.buildSlots entries).1]) := rfl

omit [DecidableEq τ] in
theorem buildItems_cons (o : Objects τ) (v : Value τ) (vs : List (Value τ)) :
    o.buildItems (v :: vs) = ((o.build v).1 :: ((o.build v).2.buildItems vs).1,
      ((o.build v).2.buildItems vs).2) := rfl

omit [DecidableEq τ] in
theorem buildSlots_cons (o : Objects τ) (key : τ) (v : Value τ) (entries : Entries τ) :
    o.buildSlots ((key, v) :: entries) = ((key, (o.build v).1) :: ((o.build v).2.buildSlots entries).1,
      ((o.build v).2.buildSlots entries).2) := rfl

omit [DecidableEq τ] in
theorem keys_buildSlots (entries : Entries τ) : ∀ o : Objects τ,
    (o.buildSlots entries).1.map (·.1) = entries.map (·.1) := by
  induction entries with
  | nil => exact fun _ => rfl
  | cons entry entries ih =>
      intro o
      rw [buildSlots_cons, List.map_cons, List.map_cons, ih]

/-- A new item, sound and with all old dictionaries still there. -/
structure Built (o : Objects τ) (built : Item τ × Objects τ) : Prop where
  old : o <+: built.2
  sound : o.Sound → built.2.Sound
  fits : Fits built.2.length built.1

theorem built_buildItems (each : ∀ v ∈ vs, ∀ o : Objects τ, Built o (o.build v)) : ∀ o : Objects τ,
    o <+: (o.buildItems vs).2 ∧ (o.Sound → (o.buildItems vs).2.Sound) ∧
      ∀ item ∈ (o.buildItems vs).1, Fits (o.buildItems vs).2.length item := by
  induction vs with
  | nil => exact fun o => ⟨List.prefix_rfl, id, fun item member => nomatch member⟩
  | cons v vs ih =>
      intro o
      rw [List.forall_mem_cons] at each
      rw [buildItems_cons]
      have first := each.1 o
      obtain ⟨old, sound, fits⟩ := ih each.2 (o.build v).2
      refine ⟨first.old.trans old, fun before => sound (first.sound before), ?_⟩
      rw [List.forall_mem_cons]
      exact ⟨first.fits.mono old.length_le, fits⟩

theorem built_buildSlots (each : ∀ entry ∈ entries, ∀ o : Objects τ, Built o (o.build entry.2)) :
    ∀ o : Objects τ, o <+: (o.buildSlots entries).2 ∧ (o.Sound → (o.buildSlots entries).2.Sound) ∧
      ∀ key item, lookup key (o.buildSlots entries).1 = some item →
        Fits (o.buildSlots entries).2.length item := by
  induction entries with
  | nil => exact fun o => ⟨List.prefix_rfl, id, fun _ _ same => nomatch same⟩
  | cons entry entries ih =>
      intro o
      rw [List.forall_mem_cons] at each
      rw [buildSlots_cons]
      have first := each.1 o
      obtain ⟨old, sound, fits⟩ := ih each.2 (o.build entry.2).2
      refine ⟨first.old.trans old, fun before => sound (first.sound before), fun key item found => ?_⟩
      rw [lookup] at found
      split at found
      · cases found
        exact first.fits.mono old.length_le
      · exact fits key item found

theorem built_build (proper : Proper fits v) : ∀ o : Objects τ, Built o (o.build v) := by
  induction proper with
  | list vs _ ih =>
      intro o
      obtain ⟨old, sound, fits⟩ := built_buildItems ih o
      rw [build_list]
      exact ⟨old, sound, .list _ fits⟩
  | dict entries distinct _ ih =>
      intro o
      obtain ⟨old, sound, fits⟩ := built_buildSlots ih o
      rw [build_dict]
      refine ⟨old.trans (List.prefix_append _ _), fun before => ?_, .dict _ ?_⟩
      · refine (sound before).append ⟨?_, fun key item found => (fits key item found).mono (Nat.le_succ _)⟩
        rwa [keys_buildSlots]
      · rw [List.length_append, List.length_singleton]
        exact Nat.lt_succ_self _
  | _ => exact fun o => ⟨List.prefix_rfl, id, by constructor⟩

end Building

section Merging

variable {fits : Decimal.Binary64 → Prop} {v : Value τ} {source : Entries τ}

theorem mergeSlot_through (through : lookup key (o.slots d) = some (.dict e)) (source : Entries τ) :
    o.mergeSlot d key (.dict source) = o.mergeInto e source := by
  rw [mergeSlot, through]

theorem mergeSlot_new (new : v.dict? = none ∨ ∀ e, lookup key (o.slots d) ≠ some (.dict e)) :
    o.mergeSlot d key v = (o.build v).2.store d key (o.build v).1 := by
  cases v with
  | dict source =>
      rcases new with scalar | stops
      · cases scalar
      · rw [mergeSlot]
        split
        · next e through => exact absurd through (stops e)
        · rfl
  | _ => rfl

section Related

-- What relates a store to one in which an item was made and stored relates it to one that was merged into.
variable {R : Objects τ → Objects τ → Prop} (refl : ∀ o, R o o)
  (trans : ∀ {o₁ o₂ o₃}, R o₁ o₂ → R o₂ o₃ → R o₁ o₃)
  (new : ∀ {v}, Proper fits v → ∀ (o : Objects τ) (d : Nat) (key : τ),
    R o ((o.build v).2.store d key (o.build v).1))

include refl trans in
theorem related_mergeInto (each : ∀ entry ∈ source, ∀ (o : Objects τ) (d : Nat),
    R o (o.mergeSlot d entry.1 entry.2)) : ∀ (o : Objects τ) (d : Nat), R o (o.mergeInto d source) := by
  induction source with
  | nil => exact fun o d => refl o
  | cons entry source ih =>
      intro o d
      rw [List.forall_mem_cons] at each
      exact trans (each.1 o d) (ih each.2 _ d)

include refl trans new

theorem related_mergeSlot (proper : Proper fits v) (key : τ) :
    ∀ (o : Objects τ) (d : Nat), R o (o.mergeSlot d key v) := by
  revert key
  refine proper.dict_induction ?other ?dict
  case other =>
    intro v proper scalar key o d
    rw [mergeSlot_new (Or.inl scalar)]
    exact new proper o d key
  case dict =>
    intro source proper ih key o d
    rcases through_or_stops o d key with ⟨e, through⟩ | stops
    · rw [mergeSlot_through through]
      exact related_mergeInto refl trans (fun entry member => ih entry member entry.1) o e
    · rw [mergeSlot_new (Or.inr stops)]
      exact new proper o d key

theorem related_merged (proper : Proper fits (.dict source)) (o : Objects τ) (d : Nat) :
    R o (o.mergeInto d source) := by
  cases proper with
  | dict _ _ inside =>
      exact related_mergeInto refl trans
        (fun entry member => related_mergeSlot refl trans new (inside entry member) entry.1) o d

end Related

theorem sound_merged (proper : Proper fits (.dict source)) (sound : o.Sound) (d : Nat) :
    (o.mergeInto d source).Sound ∧ o.length ≤ (o.mergeInto d source).length := by
  refine related_merged (R := fun o o' => o.Sound → o'.Sound ∧ o.length ≤ o'.length)
    (fun _ sound => ⟨sound, Nat.le_refl _⟩) ?_ ?_ proper o d sound
  · intro o₁ o₂ o₃ first second sound
    obtain ⟨sound₂, longer⟩ := first sound
    obtain ⟨sound₃, further⟩ := second sound₂
    exact ⟨sound₃, Nat.le_trans longer further⟩
  · intro v proper o d key sound
    have built := built_build proper o
    rw [length_store]
    exact ⟨(built.sound sound).store built.fits d key, built.old.length_le⟩

/-- Every dictionary lists the keys that it had at their places, and may list more behind them. -/
def KeysKept (o o' : Objects τ) : Prop := ∀ d, (o.slots d).map (·.1) <+: (o'.slots d).map (·.1)

omit [DecidableEq τ] in
theorem KeysKept.trans {o₁ o₂ o₃ : Objects τ} (first : KeysKept o₁ o₂) (second : KeysKept o₂ o₃) :
    KeysKept o₁ o₃ := fun d => (first d).trans (second d)

omit [DecidableEq τ] in
theorem keysKept_of_append (old : o <+: o') : KeysKept o o' := by
  intro d
  obtain ⟨more, rfl⟩ := old
  by_cases known : d < o.length
  · have same := congrArg (List.map (·.1)) (slots_append_of_lt known more).symm
    exact same ▸ List.prefix_rfl
  · rw [slots_of_le (Nat.le_of_not_lt known)]
    exact List.nil_prefix

theorem keysKept_store (o : Objects τ) (d : Nat) (key : τ) (item : Item τ) : KeysKept o (o.store d key item) := by
  intro e
  by_cases here : e = d ∧ e < o.length
  · obtain ⟨rfl, known⟩ := here
    rw [store, slots_set_self known]
    exact prefix_keys_put key item _
  · have same : (o.store d key item).slots e = o.slots e := by
      rw [store]
      by_cases other : e = d
      · subst other
        rw [List.set_eq_of_length_le (Nat.le_of_not_lt fun known => here ⟨rfl, known⟩)]
      · exact slots_set_of_ne other _
    exact congrArg (List.map (·.1)) same.symm ▸ List.prefix_rfl

theorem keysKept_merged (proper : Proper fits (.dict source)) (o : Objects τ) (d : Nat) :
    KeysKept o (o.mergeInto d source) :=
  related_merged (R := KeysKept) (fun _ _ => List.prefix_rfl) KeysKept.trans
    (fun proper o d key => (keysKept_of_append (built_build proper o).old).trans (keysKept_store _ d key _))
    proper o d

end Merging

end HtmlTree.Objects
