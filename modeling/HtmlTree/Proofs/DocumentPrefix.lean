import HtmlTree.Parse
import Mathlib.Data.List.TakeWhile

/-! What the look at the beginning of an input tells. A name of a part of a document is recognised
where no word character follows it, while a tag name goes on to white space, a solidus or a bracket;
and text counts four controls as blanks that bytes do not. -/

namespace HtmlTree

open Text (isSpace isLetter isBlank isWord lower)

def partNames : List (List Char) :=
  [['h', 't', 'm', 'l'], ['h', 'e', 'a', 'd'], ['b', 'o', 'd', 'y']]

def opensHere (word : Char → Bool) : List Char → Bool
  | '<' :: rest => documentOpenings.any fun opening =>
      match dropWord opening rest with
      | some rest => endsWord word rest
      | none => false
  | _ => false

theorem opensDocument_eq (blank word : Char → Bool) (s : List Char) :
    opensDocument blank word s = opensHere word (s.dropWhile blank) := rfl

theorem dropWord_eq_some_iff {word rest : List Char} : ∀ {text : List Char},
    dropWord word text = some rest ↔ ∃ front, text = front ++ rest ∧ front.map lower = word := by
  induction word with
  | nil =>
      intro text
      simp [dropWord]
  | cons w word ih =>
      intro text
      cases text with
      | nil =>
          constructor
          · intro dropped
            cases dropped
          · rintro ⟨front, same, spelt⟩
            cases front with
            | nil => cases spelt
            | cons c front => cases same
      | cons c text =>
          rw [dropWord]
          constructor
          · intro dropped
            split at dropped
            · next first =>
              obtain ⟨front, rfl, spelt⟩ := ih.mp dropped
              exact ⟨c :: front, rfl, by rw [List.map_cons, first, spelt]⟩
            · cases dropped
          · rintro ⟨front, same, spelt⟩
            cases front with
            | nil => cases spelt
            | cons d front =>
                rw [List.cons_append, List.cons.injEq] at same
                obtain ⟨rfl, rfl⟩ := same
                rw [List.map_cons, List.cons.injEq] at spelt
                rw [if_pos spelt.1]
                exact ih.mpr ⟨front, rfl, spelt.2⟩

theorem opensHere_iff (word : Char → Bool) (text : List Char) :
    opensHere word ('<' :: text) = true ↔ ∃ front rest, text = front ++ rest ∧
      front.map lower ∈ documentOpenings ∧ endsWord word rest = true := by
  simp only [opensHere, List.any_eq_true]
  constructor
  · rintro ⟨opening, known, opens⟩
    split at opens
    · next rest dropped =>
      obtain ⟨front, same, spelt⟩ := dropWord_eq_some_iff.mp dropped
      exact ⟨front, rest, same, by rwa [spelt], opens⟩
    · cases opens
  · rintro ⟨front, rest, same, known, ended⟩
    refine ⟨front.map lower, known, ?_⟩
    rw [dropWord_eq_some_iff.mpr ⟨front, same, rfl⟩]
    exact ended

theorem ascii_forall {P : Char → Prop} (holds : ∀ n < 128, P (Char.ofNat n)) (c : Char)
    (small : c.toNat < 128) : P c := by
  have here := holds c.toNat small
  rwa [Char.ofNat_toNat] at here

theorem forall_mem_of_all {text : List Char} {P : Char → Prop} [DecidablePred P]
    (all : text.all (fun c => decide (P c)) = true) : ∀ c ∈ text, P c :=
  fun c inside => of_decide_eq_true (List.all_eq_true.mp all c inside)

section TagNames

def endsName (c : Char) : Bool := isSpace c || c == '/' || c == '>'

structure IsReadName (name : List Char) : Prop where
  letter : ∃ first rest, name = first :: rest ∧ isLetter first = true
  inside : ∀ c ∈ name, endsName c = false ∧ c ≠ '\x00'

/-- A name that goes on behind the name of a part, with a character that belongs to no word. -/
def GoesOnBehindPart (name : List Char) : Prop :=
  ∃ front mark tail, name = front ++ mark :: tail ∧ front.map lower ∈ partNames ∧ isWord mark = false

theorem isBlank_of_isSpace {c : Char} (space : isSpace c = true) : isBlank c = true := by
  simp only [isSpace, Bool.or_eq_true, beq_iff_eq] at space
  rcases space with (((rfl | rfl) | rfl) | rfl) | rfl <;> rfl

theorem isWord_of_endsName {c : Char} (ends : endsName c = true) : isWord c = false := by
  simp only [endsName, isSpace, Bool.or_eq_true, beq_iff_eq] at ends
  rcases ends with ((((((rfl | rfl) | rfl) | rfl) | rfl) | rfl) | rfl) <;> decide +kernel

theorem lower_of_endsName {c : Char} (ends : endsName c = true) : lower c = c := by
  simp only [endsName, isSpace, Bool.or_eq_true, beq_iff_eq] at ends
  rcases ends with ((((((rfl | rfl) | rfl) | rfl) | rfl) | rfl) | rfl) <;> rfl

theorem endsName_of_mem_partNames {part : List Char} (known : part ∈ partNames) :
    ∀ c ∈ part, endsName c = false := by
  simp only [partNames, List.mem_cons, List.not_mem_nil, or_false] at known
  rcases known with rfl | rfl | rfl <;> exact forall_mem_of_all rfl

theorem isAscii_of_isLetter {c : Char} (letter : isLetter c = true) : c.toNat < 128 := by
  simp only [isLetter, Text.isUpper, Text.isLower, Bool.or_eq_true, Bool.and_eq_true,
    decide_eq_true_eq] at letter
  have last : ∀ d : Char, c ≤ d → d.toNat < 128 → c.toNat < 128 := fun _ below small =>
    Nat.lt_of_le_of_lt below small
  rcases letter with ⟨_, high⟩ | ⟨_, high⟩
  · exact last 'Z' high (by decide)
  · exact last 'z' high (by decide)

theorem lower_ne_bang {c : Char} (letter : isLetter c = true) : lower c ≠ '!' :=
  ascii_forall (P := fun c => isLetter c = true → lower c ≠ '!') (by decide +kernel) c
    (isAscii_of_isLetter letter) letter

theorem mem_documentOpenings_iff {first : Char} {front : List Char} (letter : isLetter first = true) :
    (first :: front).map lower ∈ documentOpenings ↔ (first :: front).map lower ∈ partNames := by
  have openings : documentOpenings = ['!', 'd', 'o', 'c', 't', 'y', 'p', 'e'] :: partNames := rfl
  have other : (first :: front).map lower ≠ ['!', 'd', 'o', 'c', 't', 'y', 'p', 'e'] := by
    intro same
    rw [List.map_cons, List.cons.injEq] at same
    exact lower_ne_bang letter same.1
  rw [openings, List.mem_cons]
  exact or_iff_right other

theorem opensHere_tag_iff {name rest : List Char} {c : Char} (read : IsReadName name)
    (ends : endsName c = true) : opensHere isWord ('<' :: (name ++ c :: rest)) = true ↔
      name.map lower ∈ partNames ∨ GoesOnBehindPart name := by
  obtain ⟨first, others, begins, letter⟩ := read.letter
  rw [opensHere_iff]
  constructor
  · rintro ⟨front, after, same, known, ended⟩
    have part : front.map lower ∈ partNames := by
      cases front with
      | nil => exact absurd known (by decide)
      | cons d front =>
          rw [begins, List.cons_append, List.cons_append, List.cons.injEq] at same
          rw [← same.1] at known ⊢
          exact (mem_documentOpenings_iff letter).mp known
    rcases List.append_eq_append_iff.mp same with ⟨more, rfl, cut⟩ | ⟨more, rfl, cut⟩
    · cases more with
      | nil => exact Or.inl (by simpa using part)
      | cons d more =>
          -- the end of the name would be a character of the part
          rw [List.cons_append, List.cons.injEq] at cut
          have inside : lower c ∈ (name ++ d :: more).map lower :=
            List.mem_map_of_mem (by rw [cut.1]; simp)
          have outside := endsName_of_mem_partNames part _ inside
          rw [lower_of_endsName ends, ends] at outside
          cases outside
    · cases more with
      | nil => exact Or.inl (by simpa using part)
      | cons mark more =>
          rw [cut] at ended
          refine Or.inr ⟨front, mark, more, rfl, part, ?_⟩
          simpa [endsWord] using ended
  · have known : ∀ front : List Char, front.map lower ∈ partNames →
        front.map lower ∈ documentOpenings := fun _ part => List.mem_cons_of_mem _ part
    rintro (part | ⟨front, mark, tail, rfl, part, other⟩)
    · exact ⟨name, c :: rest, rfl, known _ part, by simp [endsWord, isWord_of_endsName ends]⟩
    · exact ⟨front, mark :: (tail ++ c :: rest), by simp, known _ part, by simp [endsWord, other]⟩

/-- A tag at the beginning of a text, behind white space, makes the text a document just if its name
is that of a part of a document in any case of letters, or has such a name in front of a character
that belongs to no word. Smart parsing goes by that. -/
theorem isDocument_tag_iff (blanks name rest : List Char) (c : Char)
    (white : ∀ b ∈ blanks, isSpace b = true) (read : IsReadName name) (ends : endsName c = true) :
    let text := String.ofList (blanks ++ '<' :: (name ++ c :: rest))
    (isDocument text = true ↔ name.map lower ∈ partNames ∨ GoesOnBehindPart name) ∧
    ∀ settings s, (name.map lower ∈ partNames ∨ GoesOnBehindPart name →
        parseSmart settings s (some (.text text)) = parseDocument settings s (some (.text text))) ∧
      (¬ (name.map lower ∈ partNames ∨ GoesOnBehindPart name) →
        parseSmart settings s (some (.text text)) =
          parseFragment settings s (some (.text text)) none) := by
  intro text
  have skipped : (blanks ++ '<' :: (name ++ c :: rest)).dropWhile isBlank =
      '<' :: (name ++ c :: rest) := by
    rw [List.dropWhile_append_of_pos fun b inside => isBlank_of_isSpace (white b inside)]
    rfl
  have decided : isDocument text = true ↔ name.map lower ∈ partNames ∨ GoesOnBehindPart name := by
    rw [isDocument, opensDocument_eq, String.toList_ofList, skipped]
    exact opensHere_tag_iff read ends
  refine ⟨decided, fun settings s => ⟨fun opens => ?_, fun other => ?_⟩⟩
  · exact if_pos (decided.mpr opens)
  · exact if_neg fun opens => other (decided.mp opens)

theorem isDocument_mixedLetters :
    (∀ b ∈ ['\n', ' '], isSpace b = true) ∧ IsReadName ['H', 't', 'M', 'l'] ∧
      endsName '/' = true ∧ isDocument "\n <HtMl/>" = true := by
  have white : ∀ b ∈ ['\n', ' '], isSpace b = true := forall_mem_of_all rfl
  have read : IsReadName ['H', 't', 'M', 'l'] := ⟨⟨'H', ['t', 'M', 'l'], rfl, rfl⟩, forall_mem_of_all rfl⟩
  have decided := (isDocument_tag_iff ['\n', ' '] ['H', 't', 'M', 'l'] ['>'] '/' white read rfl).1
  exact ⟨white, read, rfl, decided.mpr (Or.inl (by decide))⟩

/-- The name of another element counts for that of a part, if it goes on behind a hyphen. -/
theorem isDocument_hyphenatedName :
    IsReadName ['b', 'o', 'd', 'y', '-', 'm', 'a', 'p'] ∧
      ['b', 'o', 'd', 'y', '-', 'm', 'a', 'p'].map lower ∉ partNames ∧
      isDocument "<body-map>" = true ∧
      parseSmart .standard .empty (some (.text "<body-map>")) =
        parseDocument .standard .empty (some (.text "<body-map>")) :=
  ⟨⟨⟨'b', ['o', 'd', 'y', '-', 'm', 'a', 'p'], rfl, rfl⟩, forall_mem_of_all rfl⟩, by decide,
    by decide +kernel, rfl⟩

end TagNames

section Bytes

def asciiBytes (s : String) : List UInt8 := s.toList.map fun c => UInt8.ofNat c.toNat

def isSeparator (c : Char) : Bool := '\x1c' ≤ c && c ≤ '\x1f'

theorem isWord_eq_of_ascii {c : Char} (small : c.toNat < 128) : isWord c = isByteWord c :=
  ascii_forall (P := fun c => isWord c = isByteWord c) (by decide +kernel) c small

theorem isBlank_eq_of_ascii {c : Char} (small : c.toNat < 128) :
    isBlank c = (isByteBlank c || isSeparator c) :=
  ascii_forall (P := fun c => isBlank c = (isByteBlank c || isSeparator c)) (by decide +kernel) c small

theorem isByteBlank_eq_false_of_isSeparator {c : Char} (small : c.toNat < 128)
    (parts : isSeparator c = true) : isByteBlank c = false :=
  ascii_forall (P := fun c => isSeparator c = true → isByteBlank c = false) (by decide +kernel) c small
    parts

theorem chars_asciiBytes {s : String} (ascii : ∀ c ∈ s.toList, c.toNat < 128) :
    (asciiBytes s).map (fun b => Char.ofNat b.toNat) = s.toList := by
  rw [asciiBytes, List.map_map]
  have same : ∀ c ∈ s.toList, Char.ofNat (UInt8.ofNat c.toNat).toNat = c := by
    intro c inside
    exact ascii_forall (P := fun c => Char.ofNat (UInt8.ofNat c.toNat).toNat = c)
      (by decide +kernel) c (ascii c inside)
  exact (List.map_congr_left same).trans (List.map_id _)

theorem opensHere_congr {word other : Char → Bool} {text : List Char}
    (same : ∀ c ∈ text, word c = other c) : opensHere word text = opensHere other text := by
  cases text with
  | nil => rfl
  | cons c text =>
      by_cases bracket : c = '<'
      · subst bracket
        have ended : ∀ front rest, text = front ++ rest → endsWord word rest = endsWord other rest := by
          rintro front rest rfl
          cases rest with
          | nil => rfl
          | cons d rest => rw [endsWord, endsWord, same d (by simp)]
        rw [Bool.eq_iff_iff, opensHere_iff, opensHere_iff]
        constructor
        · rintro ⟨front, rest, split, known, ends⟩
          exact ⟨front, rest, split, known, by rwa [← ended front rest split]⟩
        · rintro ⟨front, rest, split, known, ends⟩
          exact ⟨front, rest, split, known, by rwa [ended front rest split]⟩
      · have closed : ∀ anyWord, opensHere anyWord (c :: text) = false := by
          intro anyWord
          rw [opensHere]
          rintro rest same
          exact bracket (List.cons.inj same).1
        rw [closed, closed]

/-- What stands behind the blanks of bytes opens a document just if what stands behind the blanks of
text does and no separator is among those. -/
theorem opensHere_dropWhile_iff (word : Char → Bool) {text : List Char}
    (ascii : ∀ c ∈ text, c.toNat < 128) :
    opensHere word (text.dropWhile isByteBlank) = true ↔
      opensHere word (text.dropWhile isBlank) = true ∧
        ∀ c ∈ text.takeWhile isBlank, isSeparator c = false := by
  induction text with
  | nil => simp
  | cons c text ih =>
      rw [List.forall_mem_cons] at ascii
      obtain ⟨small, others⟩ := ascii
      have classes := isBlank_eq_of_ascii small
      cases blank : isByteBlank c with
      | true =>
          have plain : isSeparator c = false := by
            cases parts : isSeparator c with
            | false => rfl
            | true => rw [isByteBlank_eq_false_of_isSeparator small parts] at blank; cases blank
          rw [blank, Bool.true_or] at classes
          rw [List.dropWhile_cons_of_pos blank, List.dropWhile_cons_of_pos classes,
            List.takeWhile_cons_of_pos classes, List.forall_mem_cons, ih others]
          simp only [plain, true_and]
      | false =>
          rw [blank, Bool.false_or] at classes
          rw [List.dropWhile_cons_of_neg (ne_true_of_eq_false blank)]
          cases parts : isSeparator c with
          | true =>
              rw [parts] at classes
              rw [List.takeWhile_cons_of_pos classes, List.forall_mem_cons, parts]
              have closed : opensHere word (c :: text) = false := by
                rw [opensHere]
                rintro rest same
                rw [(List.cons.inj same).1] at parts
                cases parts
              simp [closed]
          | false =>
              rw [parts] at classes
              rw [List.dropWhile_cons_of_neg (ne_true_of_eq_false classes),
                List.takeWhile_cons_of_neg (ne_true_of_eq_false classes)]
              simp

/-- ASCII text that opens a document does so in bytes as well, unless a separator is among the blanks
before it, and bytes that open a document do so as text. So the two agree just if no separator stands
before what opens a document, and smart parsing takes the same course then. -/
theorem isDocumentBytes_iff (s : String) (ascii : ∀ c ∈ s.toList, c.toNat < 128) :
    (isDocumentBytes (asciiBytes s) = true ↔
      isDocument s = true ∧ ∀ c ∈ s.toList.takeWhile isBlank, isSeparator c = false) ∧
    ((Html.Source.text s).isDocument = (Html.Source.bytes (asciiBytes s)).isDocument ↔
      (isDocument s = true → ∀ c ∈ s.toList.takeWhile isBlank, isSeparator c = false)) := by
  have decided : isDocumentBytes (asciiBytes s) = true ↔
      isDocument s = true ∧ ∀ c ∈ s.toList.takeWhile isBlank, isSeparator c = false := by
    have words : ∀ c ∈ s.toList.dropWhile isBlank, isByteWord c = isWord c := fun c inside =>
      (isWord_eq_of_ascii (ascii c ((List.dropWhile_sublist _).mem inside))).symm
    rw [isDocumentBytes, chars_asciiBytes ascii, isDocument, opensDocument_eq, opensDocument_eq,
      opensHere_dropWhile_iff _ ascii, opensHere_congr words]
  refine ⟨decided, ?_⟩
  change isDocument s = isDocumentBytes (asciiBytes s) ↔ _
  rw [Bool.eq_iff_iff, decided]
  constructor
  · exact fun same opens => (same.mp opens).2
  · exact fun plain => ⟨fun opens => ⟨opens, plain opens⟩, fun opens => opens.1⟩

theorem isDocumentBytes_verticalTab :
    (∀ c ∈ "\x0b<BODY\x00".toList, c.toNat < 128) ∧
      isDocumentBytes (asciiBytes "\x0b<BODY\x00") = true ∧ isDocument "\x0b<BODY\x00" = true := by
  have ascii : ∀ c ∈ "\x0b<BODY\x00".toList, c.toNat < 128 := forall_mem_of_all rfl
  have text : isDocument "\x0b<BODY\x00" = true := by decide +kernel
  have blanks : ∀ c ∈ "\x0b<BODY\x00".toList.takeWhile isBlank, isSeparator c = false :=
    forall_mem_of_all rfl
  exact ⟨ascii, (isDocumentBytes_iff "\x0b<BODY\x00" ascii).1.mpr ⟨text, blanks⟩, text⟩

/-- A separator before a root element is skipped in text and not in bytes. -/
theorem isDocumentBytes_separator :
    (∀ c ∈ "\x1c<html>".toList, c.toNat < 128) ∧ isDocument "\x1c<html>" = true ∧
      isDocumentBytes (asciiBytes "\x1c<html>") = false ∧
      parseSmart .standard .empty (some (.text "\x1c<html>")) =
        parseDocument .standard .empty (some (.text "\x1c<html>")) ∧
      parseSmart .standard .empty (some (.bytes (asciiBytes "\x1c<html>"))) =
        parseFragment .standard .empty (some (.bytes (asciiBytes "\x1c<html>"))) none :=
  ⟨forall_mem_of_all rfl, by decide +kernel, by decide +kernel, rfl, rfl⟩

end Bytes

end HtmlTree
