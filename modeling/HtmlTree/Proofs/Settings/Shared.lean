import HtmlTree.Proofs.Settings.Objects
import Mathlib.Logic.Equiv.Defs

/-! Two paths through dictionaries that may stand in several places. Where neither looks up the entry that is
written at the other, and where both stop at the same entry, what is done at one may change places with what
is done at the other; only the numbers of new dictionaries depend on the order. -/

namespace HtmlTree

variable {τ : Type}

mutual

/-- The item with its dictionaries numbered otherwise. -/
def Item.renumber (f : Equiv.Perm Nat) : Item τ → Item τ
  | .null => .null
  | .bool b => .bool b
  | .int n => .int n
  | .real x => .real x
  | .text s => .text s
  | .list items => .list (renumberItems f items)
  | .dict n => .dict (f n)

def Item.renumberItems (f : Equiv.Perm Nat) : List (Item τ) → List (Item τ)
  | [] => []
  | item :: items => renumber f item :: renumberItems f items

end

theorem Item.renumberItems_eq {f : Equiv.Perm Nat} {items : List (Item τ)}
    (same : ∀ item ∈ items, item.renumber f = item) : renumberItems f items = items := by
  induction items with
  | nil => rfl
  | cons item items ih =>
      rw [List.forall_mem_cons] at same
      rw [renumberItems, same.1, ih same.2]

/-- Paths of which neither starts with the other lead apart: at once, or below the same first key. -/
theorem apart_cases {path other : List τ} (apart : ¬ path <+: other) (apart' : ¬ other <+: path) :
    ∃ key key' rest rest', path = key :: rest ∧ other = key' :: rest' ∧
      (key ≠ key' ∨ key = key' ∧ rest ≠ [] ∧ rest' ≠ [] ∧ ¬ rest <+: rest' ∧ ¬ rest' <+: rest) := by
  cases path with
  | nil => exact absurd List.nil_prefix apart
  | cons key rest =>
      cases other with
      | nil => exact absurd List.nil_prefix apart'
      | cons key' rest' =>
          refine ⟨key, key', rest, rest', rfl, rfl, ?_⟩
          by_cases same : key = key'
          · subst same
            rw [List.prefix_cons_inj] at apart apart'
            refine Or.inr ⟨rfl, ?_, ?_, apart, apart'⟩
            · rintro rfl
              exact apart List.nil_prefix
            · rintro rfl
              exact apart' List.nil_prefix
          · exact Or.inl same

namespace Objects

variable [DecidableEq τ] {o o' left : Objects τ} {count d e n m : Nat} {key : τ} {path other rest : List τ}
  {item item' : Item τ} {entry written : Nat × τ} {f : Equiv.Perm Nat}

section Numbers

omit [DecidableEq τ] in
theorem Fits.renumber_eq (fits : Fits count item) (old : ∀ n < count, f n = n) : item.renumber f = item := by
  induction fits with
  | list items _ ih => rw [Item.renumber, Item.renumberItems_eq ih]
  | dict n known => rw [Item.renumber, old n known]
  | _ => rfl

/-- The second ones are the first ones with other numbers, but for the order of keys. The numbers of the ones
that were there stay. -/
structure Renumbered (count : Nat) (f : Equiv.Perm Nat) (o o' : Objects τ) : Prop where
  old : ∀ n < count, f n = n
  entries : ∀ d key, lookup key (o'.slots (f d)) = (lookup key (o.slots d)).map (Item.renumber f)

/-- From `n` on, `a` numbers change places with the next `b` ones. -/
def exchange (n a b : Nat) : Equiv.Perm Nat where
  toFun d := if d < n then d else if d < n + a then d + b else if d < n + a + b then d - a else d
  invFun d := if d < n then d else if d < n + b then d + a else if d < n + a + b then d - b else d
  left_inv d := by
    dsimp only
    split_ifs <;> omega
  right_inv d := by
    dsimp only
    split_ifs <;> omega

theorem exchange_old {a b : Nat} (known : d < n) : exchange n a b d = d := if_pos known

theorem exchange_first {a b : Nat} (known : d < a) : exchange n a b (n + d) = n + b + d := by
  change (if n + d < n then _ else if n + d < n + a then _ else _) = _
  rw [if_neg (by omega), if_pos (by omega)]
  omega

theorem exchange_second {a b : Nat} (known : d < b) : exchange n a b (n + a + d) = n + d := by
  change (if n + a + d < n then _ else if n + a + d < n + a then _ else
    if n + a + d < n + a + b then _ else _) = _
  rw [if_neg (by omega), if_neg (by omega), if_pos (by omega)]
  omega

theorem exchange_beyond {a b : Nat} (beyond : n + a + b ≤ d) : exchange n a b d = d := by
  change (if d < n then _ else if d < n + a then _ else if d < n + a + b then _ else _) = _
  rw [if_neg (by omega), if_neg (by omega), if_neg (by omega)]

end Numbers

section Assigning

/-- What is stored where a path stops, if the next dictionary to be made has this number. -/
def entrance (n : Nat) (item : Item τ) : List τ → Item τ
  | [] => item
  | _ :: _ => .dict n

/-- The dictionaries that are made for the rest of a path, one in the other. -/
def chain (n : Nat) (item : Item τ) : List τ → Objects τ
  | [] => []
  | key :: rest => [(key, entrance (n + 1) item rest)] :: chain (n + 1) item rest

/-- What remains of a path where it stops. -/
def remains (o : Objects τ) (d : Nat) (path : List τ) : List τ := path.drop (o.trail d path).length

omit [DecidableEq τ] in
theorem length_chain (item : Item τ) (rest : List τ) : ∀ n, (chain n item rest).length = rest.length := by
  induction rest with
  | nil => exact fun _ => rfl
  | cons key rest ih =>
      intro n
      rw [chain, List.length_cons, List.length_cons, ih]

omit [DecidableEq τ] in
theorem entrance_renumber (shift : ∀ j < rest.length, f (n + j) = m + j) (same : item.renumber f = item) :
    (entrance n item rest).renumber f = entrance m item rest := by
  cases rest with
  | nil => exact same
  | cons key rest =>
      have first : f n = m := shift 0 (Nat.succ_pos _)
      rw [entrance, entrance, Item.renumber, first]

omit [DecidableEq τ] in
theorem chain_renumber (shift : ∀ j < rest.length, f (n + j) = m + j) (same : item.renumber f = item) :
    chain m item rest = (chain n item rest).map (List.map fun entry => (entry.1, entry.2.renumber f)) := by
  induction rest generalizing n m with
  | nil => rfl
  | cons key rest ih =>
      have further : ∀ j < rest.length, f (n + 1 + j) = m + 1 + j := fun j inside => by
        rw [Nat.add_assoc, Nat.add_assoc]
        refine shift (1 + j) ?_
        rw [List.length_cons]
        omega
      rw [chain, chain, List.map_cons, List.map_singleton, ih further, entrance_renumber further same]

theorem store_append (known : d < o.length) (key : τ) (item : Item τ) (more : Objects τ) :
    store (o ++ more) d key item = o.store d key item ++ more := by
  rw [store, store, slots_append_of_lt known]
  exact List.set_append_left _ _ known

theorem store_made_new (o : Objects τ) (d : Nat) (key next : τ) (item : Item τ) :
    (o.made d key).store o.length next item = o.store d key (.dict o.length) ++ [[(next, item)]] := by
  have new : (o.made d key).slots o.length = [] := slots_of_getElem? (getElem?_made_new o d key)
  rw [store, new, made, List.set_append_right _ _ (Nat.le_of_eq (length_store o d key _)), length_store,
    Nat.sub_self]
  rfl

theorem remains_through (path : List τ) (through : lookup key (o.slots d) = some (.dict e)) :
    o.remains d (key :: path) = o.remains e path := by
  rw [remains, trail_through path through, List.length_cons, List.drop_succ_cons, remains]

theorem remains_stop (path : List τ) (stops : ∀ e, lookup key (o.slots d) ≠ some (.dict e)) :
    o.remains d (key :: path) = path := by
  rw [remains, trail_stop path stops]
  rfl

/-- An item is stored in the entry that the path looks up last, within new dictionaries for what remains. -/
theorem assign_eq (known : ∀ entry ∈ o.trail d path, entry.1 < o.length)
    (last : (o.trail d path).getLast? = some written) (item : Item τ) :
    o.assign d path item = o.store written.1 written.2 (entrance o.length item (o.remains d path)) ++
      chain o.length item (o.remains d path) := by
  induction path generalizing o d written with
  | nil => cases last
  | cons key path ih =>
      by_cases single : path = []
      · subst single
        rw [trail_single] at last
        cases last
        rw [assign, remains, trail_single]
        exact (List.append_nil _).symm
      · rcases through_or_stops o d key with ⟨e, through⟩ | stops
        · rw [getLast?_trail_through single through] at last
          rw [trail_through path through, List.forall_mem_cons] at known
          rw [assign_through single item through, remains_through path through]
          exact ih known.2 last
        · rw [trail_stop path stops] at last known
          cases last
          obtain ⟨next, rest, rfl⟩ := List.exists_cons_of_ne_nil single
          have made := length_made o d key
          have here := getLast?_trail_made o d key next rest
          have inside : ∀ entry ∈ (o.made d key).trail o.length (next :: rest),
              entry.1 < (o.made d key).length := by
            rw [trail_made, List.forall_mem_singleton, made]
            exact Nat.lt_succ_self _
          rw [assign_stop single item stops, remains_stop _ stops, ih inside here,
            remains_stop rest (stops_made_new o d key next), made, store_made_new, List.append_assoc]
          rfl

end Assigning

section Apart

omit [DecidableEq τ] in
theorem slots_behind (o more : Objects τ) (d : Nat) : slots (o ++ more) (o.length + d) = more.slots d := by
  rw [slots, slots, List.getD_eq_getElem?_getD, List.getD_eq_getElem?_getD,
    List.getElem?_append_right (Nat.le_add_right _ _), Nat.add_sub_cancel_left]

section Parts

variable {x y z : Objects τ} (len : x.length = n)
include len

omit [DecidableEq τ] in
theorem slots_part_old (known : d < n) : slots (x ++ y ++ z) d = x.slots d := by
  rw [List.append_assoc, slots_append_of_lt (len ▸ known)]

omit [DecidableEq τ] in
theorem slots_part_first (known : d < y.length) : slots (x ++ y ++ z) (n + d) = y.slots d := by
  rw [slots_append_of_lt, ← len, slots_behind]
  rw [List.length_append, len]
  exact Nat.add_lt_add_left known n

omit [DecidableEq τ] in
theorem slots_part_second (count : y.length = m) (d : Nat) :
    slots (x ++ y ++ z) (n + m + d) = z.slots d := by
  rw [← len, ← count, ← List.length_append, slots_behind]

end Parts

theorem lookup_map_renumber (key : τ) (f : Equiv.Perm Nat) (entries : Slots τ) :
    lookup key (entries.map fun entry => (entry.1, entry.2.renumber f)) =
      (lookup key entries).map (Item.renumber f) := by
  induction entries with
  | nil => rfl
  | cons entry entries ih =>
      rw [List.map_cons, lookup, lookup, ih]
      split <;> rfl

theorem lookup_chain_renumber (shift : ∀ j < rest.length, f (n + j) = m + j)
    (same : item.renumber f = item) (key : τ) (j : Nat) :
    lookup key ((chain m item rest).slots j) =
      (lookup key ((chain n item rest).slots j)).map (Item.renumber f) := by
  rw [chain_renumber shift same, slots, slots, List.getD_eq_getElem?_getD, List.getD_eq_getElem?_getD,
    List.getElem?_map]
  cases (chain n item rest)[j]? with
  | none => rfl
  | some entries => exact lookup_map_renumber key f entries

theorem assign_assign_eq {written' : Nat × τ} (known : ∀ entry ∈ o.trail d path, entry.1 < o.length)
    (known' : ∀ entry ∈ o.trail d other, entry.1 < o.length)
    (last : (o.trail d path).getLast? = some written) (last' : (o.trail d other).getLast? = some written')
    (apart : written ∉ o.trail d other) (item item' : Item τ) :
    (o.assign d path item).assign d other item' =
      (((o.store written.1 written.2 (entrance o.length item (o.remains d path))).store written'.1 written'.2
        (entrance (o.length + (o.remains d path).length) item' (o.remains d other))) ++
        chain o.length item (o.remains d path)) ++
        chain (o.length + (o.remains d path).length) item' (o.remains d other) := by
  have kept : ∀ entry ∈ o.trail d other,
      lookup entry.2 ((o.assign d path item).slots entry.1) = lookup entry.2 (o.slots entry.1) :=
    fun entry member => lookup_assign last (known' entry member) (fun same => apart (same ▸ member)) item
  have trail := trail_congr kept
  have first := assign_eq known last item
  have longer : (o.assign d path item).length = o.length + (o.remains d path).length := by
    rw [first, List.length_append, length_store, length_chain]
  have inside : ∀ entry ∈ (o.assign d path item).trail d other, entry.1 < (o.assign d path item).length := by
    rw [trail, longer]
    exact fun entry member => Nat.lt_add_right _ (known' entry member)
  have here : written'.1 < o.length := known' written' (List.mem_of_getLast? last')
  have remains : (o.assign d path item).remains d other = o.remains d other := by
    rw [Objects.remains, trail, Objects.remains]
  rw [assign_eq inside (by rwa [trail]) item', longer, remains, first, store_append (by rwa [length_store])]

theorem lookup_store_store {written' : Nat × τ} {x x' y y' : Item τ} (sound : o.Sound)
    (here : written.1 < o.length) (there : written'.1 < o.length) (different : written ≠ written')
    (old : ∀ n < o.length, f n = n) (same : x.renumber f = y) (same' : x'.renumber f = y') (d : Nat)
    (key : τ) :
    lookup key (((o.store written'.1 written'.2 y').store written.1 written.2 y).slots d) =
      (lookup key (((o.store written.1 written.2 x).store written'.1 written'.2 x').slots d)).map
        (Item.renumber f) := by
  by_cases first : (d, key) = written
  · subst first
    rw [lookup_store_self (by rwa [length_store]), lookup_store_of_ne different, lookup_store_self here,
      Option.map_some, same]
  · rw [lookup_store_of_ne first]
    by_cases second : (d, key) = written'
    · subst second
      rw [lookup_store_self there, lookup_store_self (by rwa [length_store]), Option.map_some, same']
    · rw [lookup_store_of_ne second, lookup_store_of_ne second, lookup_store_of_ne first]
      cases found : lookup key (o.slots d) with
      | none => rfl
      | some item => rw [Option.map_some, ((sound d).fits key item found).renumber_eq old]

/-- Two chains behind the dictionaries that were there, in either order. -/
theorem renumbered_chains {x y : Objects τ} {rest' : List τ} (len : x.length = n) (len' : y.length = n)
    (fits : Fits n item) (fits' : Fits n item') (below : ∀ d < n, ∀ key, lookup key (y.slots d) =
      (lookup key (x.slots d)).map (Item.renumber (exchange n rest.length rest'.length))) :
    Renumbered n (exchange n rest.length rest'.length)
      (x ++ chain n item rest ++ chain (n + rest.length) item' rest')
      (y ++ chain n item' rest' ++ chain (n + rest'.length) item rest) := by
  have old : ∀ d < n, exchange n rest.length rest'.length d = d := fun d => exchange_old
  have count := length_chain item rest n
  have count' := length_chain item' rest' n
  refine ⟨old, fun d key => ?_⟩
  -- A dictionary was there, or is in the chain of the first path, or in that of the second one, or is none.
  rcases Nat.lt_or_ge d n with known | above
  · rw [old d known, slots_part_old len known, slots_part_old len' known]
    exact below d known key
  · obtain ⟨j, rfl⟩ := Nat.exists_eq_add_of_le above
    rcases Nat.lt_or_ge j rest.length with first | later
    · rw [exchange_first first, slots_part_second len' count', slots_part_first len (by rwa [count])]
      exact lookup_chain_renumber (fun j => exchange_first) (fits.renumber_eq old) key j
    · obtain ⟨i, rfl⟩ := Nat.exists_eq_add_of_le later
      rw [← Nat.add_assoc, slots_part_second len count]
      rcases Nat.lt_or_ge i rest'.length with second | beyond
      · rw [exchange_second second, slots_part_first len' (by rwa [count'])]
        exact lookup_chain_renumber (fun j => exchange_second) (fits'.renumber_eq old) key i
      · rw [exchange_beyond (Nat.add_le_add_left beyond _), slots_of_le, slots_of_le]
        · rfl
        · rwa [length_chain]
        · rw [List.length_append, List.length_append, len', count', length_chain]
          omega

theorem exists_renumbered_of_apart {written' : Nat × τ} (sound : o.Sound) (root : d < o.length)
    (fits : Fits o.length item) (fits' : Fits o.length item')
    (last : (o.trail d path).getLast? = some written) (last' : (o.trail d other).getLast? = some written')
    (apart : written ∉ o.trail d other) (apart' : written' ∉ o.trail d path) :
    ∃ f, Renumbered o.length f ((o.assign d path item).assign d other item')
      ((o.assign d other item').assign d path item) := by
  have known : ∀ {path : List τ}, ∀ entry ∈ o.trail d path, entry.1 < o.length :=
    fun entry member => sound.lt_of_mem_trail root member
  have here := known written (List.mem_of_getLast? last)
  have there := known written' (List.mem_of_getLast? last')
  have different : written ≠ written' := fun same => apart (same ▸ List.mem_of_getLast? last')
  have len : ∀ {w w' : Nat × τ} {x x' : Item τ}, ((o.store w.1 w.2 x).store w'.1 w'.2 x').length = o.length :=
    fun {_ _ _ _} => (length_store _ _ _ _).trans (length_store _ _ _ _)
  have old : ∀ {a b : Nat}, ∀ n < o.length, exchange o.length a b n = n := fun n => exchange_old
  rw [assign_assign_eq known known last last' apart, assign_assign_eq known known last' last apart']
  refine ⟨_, renumbered_chains len len fits fits' fun d _ key => ?_⟩
  exact lookup_store_store sound here there different old
    (entrance_renumber (fun j => exchange_first) (fits.renumber_eq old))
    (entrance_renumber (fun j => exchange_second) (fits'.renumber_eq old)) d key

/-- The dictionaries without an entry. -/
def strike (o : Objects τ) (entry : Nat × τ) : Objects τ := o.set entry.1 (erase entry.2 (o.slots entry.1))

theorem length_strike (o : Objects τ) (entry : Nat × τ) : (o.strike entry).length = o.length :=
  List.length_set

/-- What is deleted depends on the entries that the path looks up. -/
theorem delete_congr (last : (o.trail d path).getLast? = some written) (same : ∀ entry ∈ o.trail d path,
    lookup entry.2 (o'.slots entry.1) = lookup entry.2 (o.slots entry.1)) :
    o'.delete d path = (o.delete d path).map fun _ => o'.strike written := by
  induction path generalizing d with
  | nil => cases last
  | cons key path ih =>
      by_cases single : path = []
      · subst single
        rw [trail_single] at last same
        cases last
        rw [List.forall_mem_singleton] at same
        rw [delete, delete, same]
        cases lookup key (o.slots d) <;> rfl
      · rcases through_or_stops o d key with ⟨e, through⟩ | stops
        · rw [getLast?_trail_through single through] at last
          rw [trail_through path through, List.forall_mem_cons] at same
          rw [delete_through single through, delete_through single (same.1.trans through)]
          exact ih last same.2
        · rw [trail_stop path stops, List.forall_mem_singleton] at same
          rw [delete_stop single stops, delete_stop single fun e => by rw [same]; exact stops e]
          rfl

theorem delete_eq_strike (last : (o.trail d path).getLast? = some written) :
    o.delete d path = (o.delete d path).map fun _ => o.strike written :=
  delete_congr last fun _ _ => rfl

omit [DecidableEq τ] in
theorem set_slots_comm {g h : Slots τ → Slots τ} (comm : d = e → ∀ slots, g (h slots) = h (g slots)) :
    (o.set d (g (o.slots d))).set e (h (slots (o.set d (g (o.slots d))) e)) =
      (o.set e (h (o.slots e))).set d (g (slots (o.set e (h (o.slots e))) d)) := by
  by_cases same : d = e
  · subst same
    rw [List.set_set, List.set_set]
    by_cases known : d < o.length
    · rw [slots_set_self known, slots_set_self known, comm rfl]
    · rw [List.set_eq_of_length_le (Nat.le_of_not_lt known), List.set_eq_of_length_le (Nat.le_of_not_lt known)]
  · rw [slots_set_of_ne (Ne.symm same), slots_set_of_ne same, List.set_comm _ _ same]

theorem strike_store {entry : Nat × τ} (different : written ≠ entry) (item : Item τ) :
    (o.store written.1 written.2 item).strike entry = (o.strike entry).store written.1 written.2 item := by
  refine set_slots_comm fun same slots => ?_
  have apart : entry.2 ≠ written.2 := fun equal => different (Prod.ext same equal.symm)
  exact (erase_put_of_ne apart item slots).symm

theorem strike_strike (o : Objects τ) (entry written : Nat × τ) :
    (o.strike entry).strike written = (o.strike written).strike entry :=
  set_slots_comm fun _ slots => erase_erase entry.2 written.2 slots

theorem strike_append (known : entry.1 < o.length) (more : Objects τ) :
    strike (o ++ more) entry = o.strike entry ++ more := by
  rw [strike, strike, slots_append_of_lt known]
  exact List.set_append_left _ _ known

theorem delete_assign_of_apart {written' : Nat × τ} (known : ∀ entry ∈ o.trail d path, entry.1 < o.length)
    (known' : ∀ entry ∈ o.trail d other, entry.1 < o.length)
    (last : (o.trail d path).getLast? = some written) (last' : (o.trail d other).getLast? = some written')
    (apart : written ∉ o.trail d other) (apart' : written' ∉ o.trail d path) (item : Item τ) :
    (o.assign d path item).delete d other = (o.delete d other).map fun left => left.assign d path item := by
  have kept : ∀ entry ∈ o.trail d other,
      lookup entry.2 ((o.assign d path item).slots entry.1) = lookup entry.2 (o.slots entry.1) :=
    fun entry member => lookup_assign last (known' entry member) (fun same => apart (same ▸ member)) item
  have here := known' written' (List.mem_of_getLast? last')
  have different : written ≠ written' := fun same => apart (same ▸ List.mem_of_getLast? last')
  rw [delete_congr last' kept]
  cases removed : o.delete d other with
  | none => rfl
  | some left =>
      have struck := delete_eq_strike last'
      rw [removed, Option.map_some, Option.some.injEq] at struck
      have kept' : ∀ entry ∈ o.trail d path,
          lookup entry.2 (left.slots entry.1) = lookup entry.2 (o.slots entry.1) :=
        fun entry member => lookup_delete removed last' fun same => apart' (same ▸ member)
      have trail := trail_congr kept'
      have remains : left.remains d path = o.remains d path := by
        rw [Objects.remains, trail, Objects.remains]
      have same : left.length = o.length := by rw [struck, length_strike]
      rw [Option.map_some, Option.map_some, assign_eq known last item,
        strike_append (by rwa [length_store]), strike_store different,
        assign_eq (by rwa [trail, same]) (by rwa [trail]) item, same, remains, struck]

/-- The dictionaries after a deletion, if there was something to delete. -/
def without (o : Objects τ) (d : Nat) (path : List τ) : Objects τ := (o.delete d path).getD o

theorem delete_without_of_apart {written' : Nat × τ}
    (last : (o.trail d path).getLast? = some written) (last' : (o.trail d other).getLast? = some written')
    (apart : written ∉ o.trail d other) (apart' : written' ∉ o.trail d path) :
    (o.without d path).delete d other = (o.delete d other).map fun left => left.without d path := by
  cases removed : o.delete d path with
  | none =>
      rw [without, removed, Option.getD_none]
      cases removed' : o.delete d other with
      | none => rfl
      | some left =>
          have kept' : ∀ entry ∈ o.trail d path,
              lookup entry.2 (left.slots entry.1) = lookup entry.2 (o.slots entry.1) :=
            fun entry member => lookup_delete removed' last' fun same => apart' (same ▸ member)
          rw [Option.map_some, without, delete_congr last kept', removed, Option.map_none, Option.getD_none]
  | some right =>
      have kept : ∀ entry ∈ o.trail d other,
          lookup entry.2 (right.slots entry.1) = lookup entry.2 (o.slots entry.1) :=
        fun entry member => lookup_delete removed last fun same => apart (same ▸ member)
      have struck := delete_eq_strike last
      rw [removed, Option.map_some, Option.some.injEq] at struck
      rw [without, removed, Option.getD_some, delete_congr last' kept]
      cases removed' : o.delete d other with
      | none => rfl
      | some left =>
          have kept' : ∀ entry ∈ o.trail d path,
              lookup entry.2 (left.slots entry.1) = lookup entry.2 (o.slots entry.1) :=
            fun entry member => lookup_delete removed' last' fun same => apart' (same ▸ member)
          have struck' := delete_eq_strike last'
          rw [removed', Option.map_some, Option.some.injEq] at struck'
          rw [Option.map_some, Option.map_some, without, delete_congr last kept', removed, Option.map_some,
            Option.getD_some, struck, struck', strike_strike]

end Apart

section Clear

/-- Neither path looks up the entry that is written at the other, or both look up the same entries. -/
def Clear (o : Objects τ) (d : Nat) (path other : List τ) : Prop :=
  o.trail d path = o.trail d other ∨
    (∀ written ∈ (o.trail d path).getLast?, written ∉ o.trail d other) ∧
    ∀ written ∈ (o.trail d other).getLast?, written ∉ o.trail d path

instance (o : Objects τ) (d : Nat) (path other : List τ) : Decidable (o.Clear d path other) :=
  inferInstanceAs (Decidable (_ ∨ _ ∧ _))

/-- Paths that lead apart look up the same entries only up to where there is no dictionary. -/
theorem stop_of_same_trail (same : o.trail d path = o.trail d other) (apart : ¬ path <+: other)
    (apart' : ¬ other <+: path) (last : (o.trail d path).getLast? = some written) :
    (∀ e, lookup written.2 (o.slots written.1) ≠ some (.dict e)) ∧ o.delete d path = none := by
  induction path generalizing d other with
  | nil => cases last
  | cons key path ih =>
      obtain ⟨_, key', _, rest, shape, rfl, which⟩ := apart_cases apart apart'
      cases shape
      rcases which with different | ⟨rfl, further, further', apart, apart'⟩
      · rw [trail, trail, List.cons.injEq, Prod.mk.injEq] at same
        exact absurd same.1.2 different
      · rcases through_or_stops o d key with ⟨e, through⟩ | stops
        · rw [trail_through _ through, trail_through _ through, List.cons.injEq] at same
          rw [getLast?_trail_through further through] at last
          rw [delete_through further through]
          exact ih same.2 apart apart' last
        · rw [trail_stop _ stops] at last
          cases last
          exact ⟨stops, delete_stop further stops⟩

/-- Paths that lead apart, and of which neither bears on the other: they part at once, so far as they are
followed, or follow one entry into a dictionary that is there or is to be made. -/
theorem clear_induction {motive : Objects τ → Nat → List τ → List τ → Prop}
    (disjoint : ∀ o d path other written written', (o.trail d path).getLast? = some written →
      (o.trail d other).getLast? = some written' → written ∉ o.trail d other → written' ∉ o.trail d path →
      motive o d path other)
    (through : ∀ o d key e path other written, lookup key (o.slots d) = some (.dict e) → path ≠ [] →
      other ≠ [] → (o.trail e path).getLast? = some written → (o.trail e other).getLast? = some written →
      (d, key) ≠ written → motive o e path other → motive o d (key :: path) (key :: other))
    (stop : ∀ o d key path other, (∀ e, lookup key (o.slots d) ≠ some (.dict e)) → path ≠ [] → other ≠ [] →
      motive (o.made d key) o.length path other → motive o d (key :: path) (key :: other))
    (apart : ¬ path <+: other) (apart' : ¬ other <+: path) (clear : o.Clear d path other) :
    motive o d path other := by
  induction path generalizing o d other with
  | nil => exact absurd List.nil_prefix apart
  | cons key path ih =>
      obtain ⟨_, key', _, rest, shape, rfl, which⟩ := apart_cases apart apart'
      cases shape
      have led : ∀ (key : τ) (path : List τ), ∃ written, (o.trail d (key :: path)).getLast? = some written :=
        fun key path => ⟨_, List.getLast?_eq_some_getLast (List.cons_ne_nil _ _)⟩
      rcases clear with same | ⟨clear, clear'⟩
      · rcases which with different | ⟨rfl, further, further', inner, inner'⟩
        · rw [trail, trail, List.cons.injEq, Prod.mk.injEq] at same
          exact absurd same.1.2 different
        -- Paths with the same trail go through the same dictionaries and stop at the same entry.
        · rcases through_or_stops o d key with ⟨e, enters⟩ | stops
          · obtain ⟨written, last⟩ := led key path
            have last' := same ▸ last
            have stops := (stop_of_same_trail same apart apart' last).1
            rw [trail_through _ enters, trail_through _ enters, List.cons.injEq] at same
            rw [getLast?_trail_through further enters] at last
            rw [getLast?_trail_through further' enters] at last'
            refine through o d key e path rest written enters further further' last last' ?_
              (ih inner inner' (Or.inl same.2))
            rintro rfl
            exact stops e enters
          · refine stop o d key path rest stops further further' (ih inner inner' ?_)
            obtain ⟨next, path, rfl⟩ := List.exists_cons_of_ne_nil further
            obtain ⟨next', rest, rfl⟩ := List.exists_cons_of_ne_nil further'
            rw [Clear, trail_made, trail_made]
            by_cases equal : next = next'
            · exact Or.inl (by rw [equal])
            · simp [equal, Ne.symm equal]
      · obtain ⟨written, last⟩ := led key path
        obtain ⟨written', last'⟩ := led key' rest
        exact disjoint o d _ _ written written' last last' (clear _ last) (clear' _ last')

section Through

variable (through : lookup key (o.slots d) = some (.dict e)) (further : path ≠ []) (further' : other ≠ [])
include through further further'

theorem assign_assign_through (root : d < o.length) (last : (o.trail e path).getLast? = some written)
    (above : (d, key) ≠ written) (item item' : Item τ) :
    (o.assign d (key :: path) item).assign d (key :: other) item' =
      (o.assign e path item).assign e other item' := by
  have kept := (lookup_assign last root above item).trans through
  rw [assign_through further item through, assign_through further' item' kept]

theorem delete_assign_through (root : d < o.length) (last : (o.trail e path).getLast? = some written)
    (above : (d, key) ≠ written) (item : Item τ) :
    (o.assign d (key :: path) item).delete d (key :: other) = (o.assign e path item).delete e other := by
  have kept := (lookup_assign last root above item).trans through
  rw [assign_through further item through, delete_through further' kept]

end Through

section Stop

variable (stops : ∀ e, lookup key (o.slots d) ≠ some (.dict e)) (further : path ≠ []) (further' : other ≠ [])
include stops further further'

theorem assign_assign_stop (root : d < o.length) (item item' : Item τ) :
    (o.assign d (key :: path) item).assign d (key :: other) item' =
      ((o.made d key).assign o.length path item).assign o.length other item' := by
  rw [assign_stop further item stops, assign_through further' item' (lookup_assign_made further root key item)]

theorem delete_assign_stop (root : d < o.length) (item : Item τ) :
    (o.assign d (key :: path) item).delete d (key :: other) =
      ((o.made d key).assign o.length path item).delete o.length other := by
  rw [assign_stop further item stops, delete_through further' (lookup_assign_made further root key item)]

end Stop

theorem delete_made (o : Objects τ) (d : Nat) (key : τ) (path : List τ) :
    (o.made d key).delete o.length path = none := by
  cases path with
  | nil => rfl
  | cons next rest =>
      have new : (o.made d key).slots o.length = [] := slots_of_getElem? (getElem?_made_new o d key)
      rw [delete_eq_none_iff (List.cons_ne_nil next rest), walk_dict_cons, new]
      rfl

theorem Renumbered.mono {more : Nat} (same : Renumbered more f o o') (le : count ≤ more) :
    Renumbered count f o o' := ⟨fun n known => same.old n (Nat.lt_of_lt_of_le known le), same.entries⟩

section Commuting

variable (apart : ¬ path <+: other) (apart' : ¬ other <+: path) (clear : o.Clear d path other)
include apart apart' clear

theorem exists_renumbered (sound : o.Sound) (root : d < o.length) (fits : Fits o.length item)
    (fits' : Fits o.length item') : ∃ f, Renumbered o.length f
      ((o.assign d path item).assign d other item') ((o.assign d other item').assign d path item) := by
  refine clear_induction (motive := fun o d path other => o.Sound → d < o.length → Fits o.length item →
    Fits o.length item' → ∃ f, Renumbered o.length f ((o.assign d path item).assign d other item')
      ((o.assign d other item').assign d path item)) ?_ ?_ ?_ apart apart' clear sound root fits fits'
  · intro o d path other written written' last last' apart apart' sound root fits fits'
    exact exists_renumbered_of_apart sound root fits fits' last last' apart apart'
  · intro o d key e path other written through further further' last last' above ih sound root fits fits'
    rw [assign_assign_through through further further' root last above,
      assign_assign_through through further' further root last' above]
    exact ih sound ((sound d).fits key _ through).lt fits fits'
  · intro o d key path other stops further further' ih sound root fits fits'
    have longer := length_made o d key
    have le : o.length ≤ (o.made d key).length := by omega
    rw [assign_assign_stop stops further further' root, assign_assign_stop stops further' further root]
    obtain ⟨f, same⟩ := ih (sound.made d key) (by omega) (fits.mono le) (fits'.mono le)
    exact ⟨f, same.mono le⟩

theorem walk_assign (sound : o.Sound) (root : d < o.length) (item : Item τ) :
    (o.assign d path item).walk other (.dict d) = o.walk other (.dict d) := by
  refine clear_induction (motive := fun o d path other => o.Sound → d < o.length →
    (o.assign d path item).walk other (.dict d) = o.walk other (.dict d)) ?_ ?_ ?_ apart apart' clear sound root
  · intro o d path other written written' last last' apart apart' sound root
    exact walk_congr fun entry member =>
      lookup_assign last (sound.lt_of_mem_trail root member) (fun same => apart (same ▸ member)) item
  · intro o d key e path other written through further further' last last' above ih sound root
    rw [assign_through further item through, walk_dict_cons, walk_dict_cons,
      lookup_assign last root above, through]
    exact ih sound ((sound d).fits key _ through).lt
  · intro o d key path other stops further further' ih sound root
    have longer := length_made o d key
    rw [assign_stop further item stops, walk_dict_cons, lookup_assign_made further root, walk_stop further' stops,
      Option.bind_some, ih (sound.made d key) (by omega), ← delete_eq_none_iff further']
    exact delete_made o d key other

theorem delete_assign (sound : o.Sound) (root : d < o.length) (item : Item τ) :
    (o.assign d path item).delete d other = (o.delete d other).map fun left => left.assign d path item := by
  refine clear_induction (motive := fun o d path other => o.Sound → d < o.length →
    (o.assign d path item).delete d other = (o.delete d other).map fun left => left.assign d path item)
    ?_ ?_ ?_ apart apart' clear sound root
  · intro o d path other written written' last last' apart apart' sound root
    exact delete_assign_of_apart (fun _ member => sound.lt_of_mem_trail root member)
      (fun _ member => sound.lt_of_mem_trail root member) last last' apart apart' item
  · intro o d key e path other written through further further' last last' above ih sound root
    rw [delete_assign_through through further further' root last above, delete_through further' through,
      ih sound ((sound d).fits key _ through).lt]
    cases removed : o.delete e other with
    | none => rfl
    | some left =>
        have kept := (lookup_delete removed last' above).trans through
        rw [Option.map_some, Option.map_some, assign_through further item kept]
  · intro o d key path other stops further further' ih sound root
    have longer := length_made o d key
    rw [delete_assign_stop stops further further' root, delete_stop further' stops,
      ih (sound.made d key) (by omega), delete_made o d key other]
    rfl

theorem delete_without : (o.without d path).delete d other =
    (o.delete d other).map fun left => left.without d path := by
  refine clear_induction (motive := fun o d path other => (o.without d path).delete d other =
    (o.delete d other).map fun left => left.without d path) ?_ ?_ ?_ apart apart' clear
  · intro o d path other written written' last last' apart apart'
    exact delete_without_of_apart last last' apart apart'
  · intro o d key e path other written through further further' last last' above ih
    have same : o.without d (key :: path) = o.without e path := by
      rw [without, without, delete_through further through]
    have kept : lookup key ((o.without e path).slots d) = some (.dict e) := by
      rw [without]
      cases removed : o.delete e path with
      | none => exact through
      | some left => exact (lookup_delete removed last above).trans through
    rw [same, delete_through further' kept, delete_through further' through, ih]
    cases removed : o.delete e other with
    | none => rfl
    | some left =>
        have kept := (lookup_delete removed last' above).trans through
        rw [Option.map_some, Option.map_some, without, without, delete_through further kept]
  · intro o d key path other stops further further' _
    rw [without, delete_stop further stops, Option.getD_none, delete_stop further' stops]
    rfl

end Commuting

end Clear

end Objects

end HtmlTree
