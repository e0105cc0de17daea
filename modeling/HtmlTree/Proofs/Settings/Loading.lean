import HtmlTree.Proofs.Settings.Live

/-! Loading a file, path by path. What the file's object says at a path comes to stand there; what it
says nothing about stays; and what leads on from a value that is no dictionary is gone. A file that
cannot be read as an object changes nothing, and one that was loaded changes nothing again. -/

namespace HtmlTree

open Decimal (Binary64)
open Value (Proper anyReal noReal walk walk_dict_cons walk_append)
open Points (ofString)

variable {τ : Type} [DecidableEq τ]

namespace Value

/-- Some key on the way is missing in a dictionary. -/
def Lacks (v : Value τ) (path : List τ) : Prop :=
  ∃ front key back entries, path = front ++ key :: back ∧ v.walk front = some (.dict entries) ∧
    lookup key entries = none

/-- The way leads on from what is no dictionary. -/
def Blocks (v : Value τ) (path : List τ) : Prop :=
  ∃ front back w, path = front ++ back ∧ back ≠ [] ∧ v.walk front = some w ∧ w.dict? = none

theorem walk_of_not_dict {v : Value τ} (scalar : v.dict? = none) {path : List τ}
    (further : path ≠ []) : v.walk path = none := by
  obtain ⟨key, path, rfl⟩ := List.exists_cons_of_ne_nil further
  cases v with
  | dict entries => cases scalar
  | _ => rfl

/-- A path that leads to nothing ends where a key is missing or at what is no dictionary. -/
theorem lacks_or_blocks {v : Value τ} {path : List τ} (nothing : v.walk path = none) :
    v.Lacks path ∨ v.Blocks path := by
  induction path generalizing v with
  | nil => cases nothing
  | cons key path ih =>
      cases v with
      | dict entries =>
          rw [walk_dict_cons] at nothing
          cases found : lookup key entries with
          | none => exact Or.inl ⟨[], key, path, entries, rfl, rfl, found⟩
          | some inner =>
              rw [found, Option.bind_some] at nothing
              have through : ∀ front, (Value.dict entries).walk (key :: front) = inner.walk front := by
                intro front
                rw [walk_dict_cons, found, Option.bind_some]
              rcases ih nothing with ⟨front, last, back, others, rfl, led, missing⟩ |
                ⟨front, back, w, rfl, further, led, scalar⟩
              · exact Or.inl ⟨key :: front, last, back, others, rfl, (through front).trans led, missing⟩
              · exact Or.inr ⟨key :: front, back, w, rfl, further, (through front).trans led, scalar⟩
      | _ => exact Or.inr ⟨[], key :: path, _, rfl, List.cons_ne_nil key path, rfl, rfl⟩

end Value

/-- How what stands at each path after a merge comes from what stood there and what was given. -/
structure MergedOver (old given new : Value τ) : Prop where
  /-- A value that is no dictionary comes to stand where it was given. -/
  replaced : ∀ path v, given.walk path = some v → v.dict? = none → new.walk path = some v
  /-- Two dictionaries are merged. -/
  merged : ∀ path target source, old.walk path = some (.dict target) →
    given.walk path = some (.dict source) → new.walk path = some (.dict (mergeEntries target source))
  /-- A dictionary where there was none is taken as it is. -/
  taken : ∀ path source, (∀ target, old.walk path ≠ some (.dict target)) →
    given.walk path = some (.dict source) → new.walk path = some (.dict source)
  /-- What is not spoken of stays. -/
  kept : ∀ path, given.Lacks path → new.walk path = old.walk path
  /-- Below what is no dictionary there is nothing. -/
  gone : ∀ path, given.Blocks path → new.walk path = none
  /-- There is no path that none of these is about. -/
  told : ∀ path, given.walk path = none → given.Lacks path ∨ given.Blocks path
  /-- Dictionaries that stay keep their keys in order, in front of all new ones. -/
  ordered : ∀ path before after, old.walk path = some (.dict before) →
    new.walk path = some (.dict after) → before.map (·.1) <+: after.map (·.1)

section Merging

variable {fits : Binary64 → Prop} {v w : Value τ} {path : List τ}

theorem walk_mergeValue (proper : Proper fits v) (given : v.walk path = some w) :
    ∀ old : Option (Value τ),
      (mergeValue old v).walk path = some (mergeValue (old.bind (walk path)) w) := by
  induction path generalizing v with
  | nil =>
      intro old
      cases given
      cases old <;> rfl
  | cons key path ih =>
      intro old
      cases proper with
      | dict source distinct inside =>
          rw [walk_dict_cons, Option.bind_eq_some_iff] at given
          obtain ⟨inner, found, deeper⟩ := given
          have next := ih (inside _ (mem_of_lookup found)) deeper
          by_cases dict : ∃ target, old = some (.dict target)
          · obtain ⟨target, rfl⟩ := dict
            calc
              (mergeValue (some (.dict target)) (.dict source)).walk (key :: path) =
                  (lookup key (mergeEntries target source)).bind (walk path) := by
                rw [mergeValue, walk_dict_cons]
              _ = (mergeValue (lookup key target) inner).walk path := by
                rw [lookup_mergeEntries key source distinct, found, Option.bind_some]
              _ = some (mergeValue ((lookup key target).bind (walk path)) w) := next _
          · rw [not_exists] at dict
            have nothing : old.bind (walk (key :: path)) = none := by
              cases old with
              | none => rfl
              | some u =>
                  cases u with
                  | dict target => exact absurd rfl (dict target)
                  | _ => rfl
            rw [mergeValue_of_not_dict source dict, nothing, mergeValue_none, walk_dict_cons, found]
            exact deeper
      | _ => cases given

theorem walk_mergeValue_of_lacks (proper : Proper fits v) (lacks : v.Lacks path) (old : Value τ) :
    (mergeValue (some old) v).walk path = old.walk path := by
  obtain ⟨front, key, back, source, rfl, led, missing⟩ := lacks
  have above := walk_mergeValue proper led (some old)
  have distinct := (proper.of_walk led).distinct
  rw [walk_append, walk_append, above, Option.bind_some, Option.bind_some]
  by_cases dict : ∃ target, old.walk front = some (.dict target)
  · obtain ⟨target, stood⟩ := dict
    rw [stood, mergeValue, walk_dict_cons, lookup_mergeEntries key source distinct, missing]
    rfl
  · rw [not_exists] at dict
    rw [mergeValue_of_not_dict source dict, walk_dict_cons, missing]
    cases stood : old.walk front with
    | none => rfl
    | some u =>
        cases u with
        | dict target => exact absurd stood (dict target)
        | _ => rfl

theorem mergeValue_again (proper : Proper fits v) :
    ∀ old, mergeValue (some (mergeValue old v)) v = mergeValue old v := by
  induction proper with
  | dict source distinct inside ih =>
      intro old
      by_cases dict : ∃ target, old = some (.dict target)
      · obtain ⟨target, rfl⟩ := dict
        rw [mergeValue, mergeValue]
        apply congrArg Value.dict
        apply mergeEntries_eq_self
        intro entry member
        refine ⟨mergeValue (lookup entry.1 target) entry.2, ?_, ih entry member _⟩
        rw [lookup_mergeEntries entry.1 source distinct, lookup_of_mem distinct member]
      · rw [not_exists] at dict
        rw [mergeValue_of_not_dict source dict]
        exact mergeValue_self (.dict source distinct inside)
  | _ => exact fun _ => rfl

theorem mergeEntries_again {target source : Entries τ} (proper : Proper fits (.dict source)) :
    mergeEntries (mergeEntries target source) source = mergeEntries target source := by
  have same := mergeValue_again proper (some (.dict target))
  rw [mergeValue, mergeValue] at same
  exact Value.dict.inj same

theorem keys_mergeEntries (source : Entries τ) :
    ∀ target : Entries τ, target.map (·.1) <+: (mergeEntries target source).map (·.1) := by
  induction source with
  | nil => exact fun target => List.prefix_rfl
  | cons entry source ih =>
      intro target
      rw [mergeEntries]
      exact (prefix_keys_put entry.1 _ target).trans (ih _)

theorem mergedOver_mergeEntries (target : Entries τ) {source : Entries τ}
    (proper : Proper fits (.dict source)) :
    MergedOver (.dict target) (.dict source) (.dict (mergeEntries target source)) := by
  have whole : Value.dict (mergeEntries target source) =
      mergeValue (some (.dict target)) (.dict source) := by
    rw [mergeValue]
  have found : ∀ path w, (Value.dict source).walk path = some w →
      (Value.dict (mergeEntries target source)).walk path =
        some (mergeValue ((Value.dict target).walk path) w) := by
    intro path w given
    rw [whole, walk_mergeValue proper given, Option.bind_some]
  have kept : ∀ path, (Value.dict source).Lacks path →
      (Value.dict (mergeEntries target source)).walk path = (Value.dict target).walk path := by
    intro path lacks
    rw [whole, walk_mergeValue_of_lacks proper lacks]
  have gone : ∀ path, (Value.dict source).Blocks path →
      (Value.dict (mergeEntries target source)).walk path = none := by
    rintro _ ⟨front, back, w, rfl, further, led, scalar⟩
    rw [walk_append, found front w led, Option.bind_some, mergeValue_scalar _ scalar]
    exact Value.walk_of_not_dict scalar further
  constructor
  case replaced =>
    intro path v given scalar
    rw [found path v given, mergeValue_scalar _ scalar]
  case merged =>
    intro path old new stood given
    rw [found path _ given, stood, mergeValue]
  case taken =>
    intro path new other given
    rw [found path _ given, mergeValue_of_not_dict new other]
  case kept => exact kept
  case gone => exact gone
  case told => exact fun path => Value.lacks_or_blocks
  case ordered =>
    intro path before after stood stands
    cases given : (Value.dict source).walk path with
    | some w =>
        rw [found path w given, stood] at stands
        cases w with
        | dict inner =>
            rw [mergeValue] at stands
            cases stands
            exact keys_mergeEntries inner before
        | _ => cases stands
    | none =>
        rcases Value.lacks_or_blocks given with lacks | blocks
        · rw [kept path lacks, stood] at stands
          cases stands
          exact List.prefix_rfl
        · rw [gone path blocks] at stands
          cases stands

end Merging

/-- What a text is JSON for; behind a byte order mark nothing is. NaN and the infinities count as numbers. -/
def Json.valueOf (text : String) : Option (Value Points) :=
  if text.toList.head? = some '\uFEFF' then none else Json.readAs id text

theorem Json.valueOf_document {entries : Entries} (proper : Proper noReal (.dict entries)) :
    Json.valueOf (Json.document (.dict entries)) = some (.dict (Value.mapEntries ofString entries)) := by
  have apart : Function.Injective (id ∘ ofString) := Points.ofString_injective
  rw [Json.valueOf, if_neg (Settings.head?_document entries), Json.readAs_document apart proper]
  rfl

theorem Settings.readObjectAs_eq {files : Files} {path text : String} (content : files.read path = .ok text) :
    Settings.readObjectAs id files path = match Json.valueOf text with
      | some (.dict entries) => .ok entries
      | some _ => .error (.notObject path)
      | none => .error .notJson := by
  unfold Settings.readObjectAs Json.valueOf
  simp only [content, Except.mapError, bind, Except.bind]
  by_cases mark : text.toList.head? = some '\uFEFF'
  · rw [if_pos mark, if_pos mark]
    rfl
  · rw [if_neg mark, if_neg mark]
    cases Json.readAs id text with
    | none => rfl
    | some v => cases v <;> rfl

namespace Live

def mixedEntries : Entries :=
  [("extra", .dict [("n", .int 1)]), ("logging", .text "off"),
   ("parser", .dict [("limit", .null), ("strict", .bool true)])]

def mixedFiles : Files := ⟨[(["c.json"], .file (Json.document (.dict mixedEntries)))]⟩

theorem proper_mixedEntries : Proper noReal (.dict mixedEntries) := by
  refine .dict _ (by decide) ?_
  simp only [mixedEntries, List.forall_mem_cons, List.not_mem_nil, false_implies, implies_true,
    and_true]
  refine ⟨.dict _ (by decide) ?_, .text _, .dict _ (by decide) ?_⟩ <;>
    simp only [List.forall_mem_cons, List.not_mem_nil, false_implies, implies_true, and_true]
  · exact .int 1
  · exact ⟨.null, .bool true⟩

/-- One dictionary under two keys. -/
def twofold : Live :=
  let s := (standard (some "c.json")).setNew (ofString "a") (.dict [])
  s.set (ofString "b") (s.get (ofString "a") .null)

def nestedEntries : Entries := [("a", .dict [("x", .int 1)])]

def nestedFiles : Files := ⟨[(["c.json"], .file (Json.document (.dict nestedEntries)))]⟩

def nanFiles : Files := ⟨[(["c.json"], .file "\x7b\"x\": NaN\x7d")]⟩

theorem reached_twofold : twofold.Reached := by
  have once := Reached.build _ _ (.standard (some "c.json")) Value.proper_nil
  exact .set _ _ _ (.set _ _ _ once (.dict _ (by decide))) (.dict _ (by decide))

/-- The one key with the number under it. -/
def onlyReal? : Option (Value Points) → Option (Points × Binary64)
  | some (.dict [(key, .real x)]) => some (key, x)
  | _ => none

theorem eq_of_onlyReal? {v : Option (Value Points)} {key : Points} {x : Binary64}
    (only : onlyReal? v = some (key, x)) : v = some (.dict [(key, .real x)]) := by
  unfold onlyReal? at only
  split at only
  · cases only
    rfl
  · cases only

theorem read_nanFiles :
    Settings.readObjectAs id nanFiles "c.json" = .ok [(ofString "x", .real Binary64.nan)] := by
  have place : Files.steps "c.json" = ["c.json"] := by decide
  have content : nanFiles.read "c.json" = .ok "\x7b\"x\": NaN\x7d" := by
    rw [Files.read, place]
    rfl
  have said : onlyReal? (Json.readAs id "\x7b\"x\": NaN\x7d") = some (ofString "x", Binary64.nan) := by
    decide +kernel
  exact Settings.readObjectAs_of_read content (by decide) (eq_of_onlyReal? said)

end Live

end HtmlTree
