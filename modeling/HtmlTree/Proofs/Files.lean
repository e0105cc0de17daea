import HtmlTree.Files

/-! What is read from a tree of files after a text was written to it. -/

namespace HtmlTree.Files

variable {files written : Files} {path text : String} {place other : List String}

theorem find_of_ne_nil (files : Files) (below : place ≠ []) :
    files.find place = (files.entries.find? fun entry => entry.1 = place).map (·.2) := by
  rw [find, if_neg (Bool.eq_false_iff.mp (List.isEmpty_eq_false_iff.mpr below))]

theorem find_setEntry_self (files : Files) (below : place ≠ []) (entry : FileEntry) :
    (files.setEntry place entry).find place = some entry := by
  rw [setEntry, find_of_ne_nil files below, Option.isSome_map]
  cases old : files.entries.find? fun entry => entry.1 = place with
  | none =>
      rw [if_neg (by simp), find_of_ne_nil _ below, List.find?_append, old]
      simp
  | some found =>
      have named : (fun entry : List String × FileEntry => decide (entry.1 = place)) ∘
          (fun old => if old.1 = place then (place, entry) else old) =
            fun entry => decide (entry.1 = place) := by
        funext other
        by_cases same : other.1 = place <;> simp [same]
      have here : found.1 = place := by simpa using List.find?_some old
      rw [if_pos (by simp), find_of_ne_nil _ below, List.find?_map, named, old]
      simp [here]

theorem find_setEntry_of_ne (files : Files) (different : other ≠ place) (entry : FileEntry) :
    (files.setEntry place entry).find other = files.find other := by
  by_cases top : other = []
  · rw [top]
    rfl
  · rw [find_of_ne_nil _ top, find_of_ne_nil _ top, setEntry]
    split
    · have named : (fun entry : List String × FileEntry => decide (entry.1 = other)) ∘
          (fun old => if old.1 = place then (place, entry) else old) =
            fun entry => decide (entry.1 = other) := by
        funext old
        by_cases same : old.1 = place <;> simp [same, Ne.symm different]
      rw [List.find?_map, named]
      cases old : files.entries.find? fun entry => entry.1 = other with
      | none => rfl
      | some found =>
          have there : found.1 = other := by simpa using List.find?_some old
          simp [there, different]
    · rw [List.find?_append]
      simp [Ne.symm different]

def obstacle : Option FileEntry → Option FileFailure
  | some .folder => none
  | some (.file _) => some .notFolder
  | none => some .missing

theorem reach_eq (files : Files) (place : List String) :
    files.reach place =
      match ((List.range place.length).map fun n => files.find (place.take n)).findSome? obstacle with
      | some failure => .error failure
      | none => .ok () := by
  rw [List.findSome?_map]
  rfl

theorem reach_congr
    (above : ∀ n < place.length, files.find (place.take n) = written.find (place.take n)) :
    files.reach place = written.reach place := by
  rw [reach_eq, reach_eq, List.map_congr_left fun n member => above n (List.mem_range.mp member)]

theorem write_eq_ok_iff : files.write path text = .ok written ↔
    path ≠ "" ∧ files.reach (steps path) = .ok () ∧ files.find (steps path) ≠ some .folder ∧
      files.setEntry (steps path) (.file text) = written := by
  unfold write
  by_cases unnamed : path = ""
  · simp [unnamed, throw, throwThe, MonadExceptOf.throw, bind, Except.bind]
  · cases reached : files.reach (steps path) with
    | error failure => simp [unnamed, bind, Except.bind]
    | ok _ =>
        simp only [unnamed, if_false, bind, Except.bind, pure, Except.pure, ne_eq, not_false_eq_true,
          true_and]
        split
        · next folder => simp [folder, throw, throwThe, MonadExceptOf.throw]
        · next notFolder => simpa using fun _ folder => notFolder folder

theorem makeFolders_top (files : Files) : files.makeFolders "" = .ok files := by
  have top : steps "" = [] := by decide
  rw [makeFolders, top]
  rfl

/-- A path that a text can be written to, once the folders above it are made. -/
def Writable (files : Files) (path : String) : Prop :=
  ∃ made text written, files.makeFolders (directory path) = .ok made ∧ made.write path text = .ok written

theorem write_other (done : files.write path text = .ok written) (other : String) :
    ∃ rewritten, files.write path other = .ok rewritten := by
  rw [write_eq_ok_iff] at done
  exact ⟨_, write_eq_ok_iff.mpr ⟨done.1, done.2.1, done.2.2.1, rfl⟩⟩

theorem read_of_write (done : files.write path text = .ok written) : written.read path = .ok text := by
  obtain ⟨named, reached, notFolder, rfl⟩ := write_eq_ok_iff.mp done
  have below : steps path ≠ [] := by
    intro top
    rw [top] at notFolder
    exact notFolder rfl
  have above : ∀ n < (steps path).length, files.find ((steps path).take n) =
      (files.setEntry (steps path) (.file text)).find ((steps path).take n) := by
    intro n short
    rw [find_setEntry_of_ne]
    intro same
    have lengths := congrArg List.length same
    rw [List.length_take] at lengths
    omega
  unfold read
  rw [if_neg named, ← reach_congr above, reached, find_setEntry_self _ below]
  rfl

end HtmlTree.Files
