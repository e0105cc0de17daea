import HtmlTree.Logging.Layout

/-! Colours on the console. A level's name is looked for in the whole line, and the first one is the
level itself: nothing that stands before it in a line of the console begins as a name with a colour
does, whatever the record's logger and message say behind it. -/

namespace HtmlTree.Logging

/-- What is looked for is found neither in a front without its first character nor across its end. -/
theorem replaceFirst_behind {first : Char} {front : List Char} (absent : first ∉ front)
    (part new back : List Char) :
    replaceFirst (first :: part) new (front ++ (first :: part ++ back)) = front ++ (new ++ back) := by
  induction front with
  | nil => simp [replaceFirst]
  | cons c front ih =>
      rw [List.mem_cons, not_or] at absent
      obtain ⟨other, absent⟩ := absent
      have here : (first :: part).isPrefixOf (c :: (front ++ (first :: part ++ back))) = false := by
        simp [List.isPrefixOf, other]
      rw [List.cons_append, replaceFirst, here, if_neg Bool.false_ne_true, ih absent]
      rfl

namespace Colour

/-- Just the named levels have a colour. -/
theorem names_eq : named.map (·.1) = Level.named.map (·.1) := by decide

theorem exists_first {name : String} (known : name ∈ Level.named.map (·.1)) :
    ∃ first part, name.toList = first :: part ∧ first.isDigit = false ∧
      first ∉ [':', ' ', '['] := by
  have letters : ∀ name ∈ Level.named.map (·.1),
      name.toList.head?.any (fun c => c.isDigit = false ∧ c ∉ [':', ' ', '[']) = true := by
    decide
  have letter := letters name known
  cases chars : name.toList with
  | nil => simp [chars] at letter
  | cons first part =>
      rw [chars] at letter
      exact ⟨first, part, rfl, of_decide_eq_true letter⟩

theorem exists_code {name : String} (known : name ∈ Level.named.map (·.1)) :
    ∃ code, named.lookup name = some code ∧ (name, code) ∈ named := by
  have coloured : ∀ name ∈ Level.named.map (·.1),
      (named.lookup name).any (fun code => (name, code) ∈ named) = true := by
    decide
  have found := coloured name known
  rw [Option.any_eq_true] at found
  obtain ⟨code, found, listed⟩ := found
  exact ⟨code, found, of_decide_eq_true listed⟩

theorem lookup_eq_none {name : String} (unknown : name ∉ Level.named.map (·.1)) :
    named.lookup name = none := by
  rw [List.lookup_eq_none_iff]
  intro entry member
  have listed : entry.1 ∈ Level.named.map (·.1) := names_eq ▸ List.mem_map_of_mem member
  rw [bne_iff_ne]
  intro same
  exact unknown (same ▸ listed)

end Colour

theorem level_name_mem_iff (level : Nat) :
    Level.name level ∈ Level.named.map (·.1) ↔ level ∈ Level.named.map (·.2) := by
  unfold Level.name
  cases found : Level.named.find? fun entry => entry.2 = level with
  | some entry =>
      have member := List.mem_of_find?_eq_some found
      have same : entry.2 = level := by simpa using List.find?_some found
      exact iff_of_true (List.mem_map_of_mem member) (same ▸ List.mem_map_of_mem member)
  | none =>
      apply iff_of_false
      · have others : ∀ name ∈ Level.named.map (·.1),
            name.toList.head? ≠ some 'L' ∧ name ≠ "NOTSET" := by
          decide
        by_cases zero : level = 0
        · intro member
          simp only [zero, if_true] at member
          exact (others _ member).2 rfl
        · intro member
          simp only [zero, if_false] at member
          exact (others _ member).1 (by simp)
      · intro listed
        obtain ⟨entry, member, same⟩ := List.mem_map.mp listed
        have missed := List.find?_eq_none.mp found entry member
        exact missed (by simpa using same)

theorem not_mem_front {time : List Char} {c : Char} (letter : c.isDigit = false)
    (other : c ∉ [':', ' ', '[']) (stamp : ∀ c ∈ time, c.isDigit = true ∨ c = ':') :
    c ∉ time ++ " [".toList := by
  intro member
  cases List.mem_append.mp member with
  | inl inTime =>
      have colon : c = ':' := (stamp c inTime).resolve_left (by simp [letter])
      exact other (by simp [colon])
  | inr opening =>
      have between : c = ' ' ∨ c = '[' := by simpa using opening
      exact other (by simp [between])

/-- A line of the console: the time, the level in brackets, and what is behind it. -/
theorem exists_renderAs_console (levelName : String) (m : Moment) (r : Record) :
    ∃ back, Layout.console.renderAs levelName m r =
      m.time.toList ++ " [".toList ++ (levelName.toList ++ ("] ".toList ++ back)) := by
  cases raised : r.raised with
  | none =>
      refine ⟨r.logger.toList ++ (": ".toList ++ r.message.toList), ?_⟩
      simp [Layout.renderAs, Layout.console, Slot.of, raised]
  | some failure =>
      rw [Layout.renderAs, raised]
      dsimp only
      split
      · refine ⟨r.logger.toList ++ (": ".toList ++ (r.message.toList ++ failure.line.toList)), ?_⟩
        simp [Layout.console, Slot.of]
      · refine ⟨r.logger.toList ++ (": ".toList ++ (r.message.toList ++
          ('\n' :: failure.line.toList))), ?_⟩
        simp [Layout.console, Slot.of]

/-- Where the time has digits and colons only, a coloured line of the console is the plain line but for
the level between the brackets behind the time: a name with a colour stands there inside its colour's
code and the code that ends it, any other as it is. Logger, message and reported failure are the same
in both, even if they hold the level's name. A record's number makes it go by one of the coloured names
just if it is that of a named level. -/
theorem console_coloured_at_level (levelName : String) (m : Moment) (r : Record)
    (stamp : ∀ c ∈ m.time.toList, c.isDigit = true ∨ c = ':') :
    (∃ back,
      formatAs .console levelName false m r =
        m.time.toList ++ " [".toList ++ (levelName.toList ++ ("] ".toList ++ back)) ∧
      (levelName ∈ Level.named.map (·.1) → ∃ code, (levelName, code) ∈ Colour.named ∧
        formatAs .console levelName true m r = m.time.toList ++ " [".toList ++
          (code ++ levelName.toList ++ Colour.reset ++ ("] ".toList ++ back))) ∧
      (levelName ∉ Level.named.map (·.1) →
        formatAs .console levelName true m r = formatAs .console levelName false m r)) ∧
    (Level.name r.level ∈ Level.named.map (·.1) ↔ r.level ∈ Level.named.map (·.2)) := by
  obtain ⟨back, line⟩ := exists_renderAs_console levelName m r
  refine ⟨⟨back, line, ?_, ?_⟩, level_name_mem_iff r.level⟩
  · intro known
    obtain ⟨first, part, name, letter, other⟩ := Colour.exists_first known
    obtain ⟨code, found, listed⟩ := Colour.exists_code known
    refine ⟨code, listed, ?_⟩
    calc
      formatAs .console levelName true m r
        = coloured levelName (Layout.console.renderAs levelName m r) := rfl
      _ = replaceFirst (first :: part) (code ++ (first :: part) ++ Colour.reset)
            (m.time.toList ++ " [".toList ++ (first :: part ++ ("] ".toList ++ back))) := by
        rw [coloured, found, line, name]
      _ = _ := by
        rw [replaceFirst_behind (not_mem_front letter other stamp), name]
  · intro unknown
    simp [formatAs, coloured, Colour.lookup_eq_none unknown]

theorem console_coloured_error :
    (∀ c ∈ "12:00:00".toList, c.isDigit = true ∨ c = ':') ∧
    formatAs .console "ERROR" true ⟨"12:00:00", "shop.py", "7"⟩
        ⟨"shop.ERROR", Level.error, "ERROR\n[ERROR]", some ⟨"ValueError", "ERROR"⟩⟩ =
      ("12:00:00 [\x1b[31mERROR\x1b[0m] " ++
        "shop.ERROR: ERROR\n[ERROR]\nValueError: ERROR").toList := by
  have stamp : ∀ c ∈ "12:00:00".toList, c.isDigit = true ∨ c = ':' := by simp
  have result := console_coloured_at_level "ERROR" ⟨"12:00:00", "shop.py", "7"⟩
    ⟨"shop.ERROR", Level.error, "ERROR\n[ERROR]", some ⟨"ValueError", "ERROR"⟩⟩ stamp
  obtain ⟨⟨back, plain, colour, -⟩, -⟩ := result
  obtain ⟨code, listed, line⟩ := colour (by decide)
  have red : code = Colour.red := by simpa [Colour.named] using listed
  have behind : back = "shop.ERROR: ERROR\n[ERROR]\nValueError: ERROR".toList := by
    simpa [formatAs, Layout.renderAs, Layout.console, Slot.of, Raised.line] using plain.symm
  refine ⟨stamp, line.trans ?_⟩
  rw [red, behind]
  decide

end HtmlTree.Logging
