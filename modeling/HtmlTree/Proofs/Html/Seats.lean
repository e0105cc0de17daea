import HtmlTree.Html.Construction
import HtmlTree.Proofs.Html.OpenElements

/-! Where the elements that the modes go by may stand among the open elements: a cell in a row, a row
in a group of rows, a group in a table. Formatting elements may come between them anywhere, since a
split puts copies wherever it ends. -/

namespace HtmlTree.Html

/-- The elements that the modes of the body go by. -/
def seatTags : List String :=
  ["html", "body", "table", "caption", "colgroup", "tbody", "thead", "tfoot", "tr", "td", "th",
   "select", "head", "frameset"]

def passingTags : List String := "a" :: "nobr" :: Builder.formattingTags

namespace Open

def isSeat (o : Open) : Bool := seatTags.contains o.name

def isPassing (o : Open) : Bool := passingTags.contains o.name

end Open

/-- The name of the innermost element that a mode goes by. -/
def seat : List Open → String
  | [] => ""
  | o :: rest => if o.isSeat then o.name else seat rest

/-- The name of the innermost element other than formatting elements. -/
def ground : List Open → String
  | [] => ""
  | o :: rest => if o.isPassing then ground rest else o.name

/-- What an element stands in directly, formatting elements aside, if it is a part of a table. A head
and a frameset cannot be open together with the body. -/
def tightSeats : String → Option (List String)
  | "caption" | "colgroup" | "tbody" | "thead" | "tfoot" => some ["table"]
  | "tr" => some Builder.rowGroupTags
  | "td" | "th" => some ["tr"]
  | "head" | "frameset" => some []
  | _ => none

def tableSeats : List String := ["body", "caption", "td", "th"]

def selectSeats : List String :=
  ["body", "table", "caption", "tbody", "thead", "tfoot", "tr", "td", "th"]

def looseSeats : String → Option (List String)
  | "table" => some tableSeats
  | "select" => some selectSeats
  | _ => none

/-- An element may be open on top of the others. -/
structure Fits (name : String) (rest : List Open) : Prop where
  root : name = "html" → rest = []
  body : name = "body" → rest.map (·.name) = ["html"]
  tight : ∀ names, tightSeats name = some names → names.contains (ground rest) = true
  loose : ∀ names, looseSeats name = some names → names.contains (seat rest) = true

/-- Every open element is where it may be. -/
def Seated : List Open → Prop
  | [] => True
  | o :: rest => Fits o.name rest ∧ Seated rest

/-- The elements are open inside the body or in something in it. -/
def Roomy (s : List Open) : Prop := seat s ≠ "" ∧ seat s ≠ "html"

/-- Any element may be open on top of the others, which are in no select and in no group of columns. -/
def Free (s : List Open) : Prop := Roomy s ∧ seat s ≠ "select" ∧ seat s ≠ "colgroup"

variable {s t u : List Open} {o : Open} {wanted : Open → Bool} {scope : Scope}

theorem seat_cons_of_not (other : o.isSeat = false) : seat (o :: s) = seat s := by
  rw [seat, other, if_neg Bool.false_ne_true]

theorem seat_cons_of (isSeat : o.isSeat = true) : seat (o :: s) = o.name := by
  rw [seat, if_pos isSeat]

theorem isSeat_of_isPassing (passing : o.isPassing = true) : o.isSeat = false := by
  have apart : ∀ name ∈ passingTags, seatTags.contains name = false := by decide
  exact apart _ (List.contains_iff_mem.mp passing)

theorem seat_eq_ground (isSeat : seatTags.contains (ground s) = true) : seat s = ground s := by
  induction s with
  | nil => exact absurd isSeat (by decide)
  | cons o s ih =>
      rw [ground] at isSeat ⊢
      split
      · next passing =>
        rw [if_pos passing] at isSeat
        rw [seat_cons_of_not (isSeat_of_isPassing passing), ih isSeat]
      · next other =>
        rw [if_neg other] at isSeat
        exact seat_cons_of isSeat

theorem tightSeats_spec {name : String} {names : List String} (found : tightSeats name = some names) :
    seatTags.contains name = true ∧
      ∀ n ∈ names, seatTags.contains n = true ∧ n ≠ "" ∧ n ≠ "html" ∧ n ≠ "body" := by
  rw [tightSeats.eq_def] at found
  split at found <;> cases found <;> decide

theorem looseSeats_spec {name : String} {names : List String} (found : looseSeats name = some names) :
    seatTags.contains name = true ∧ ∀ n ∈ names, n ≠ "" ∧ n ≠ "html" ∧ n ≠ "select" := by
  rw [looseSeats.eq_def] at found
  split at found <;> cases found <;> decide

theorem seat_cases (isSeat : o.isSeat = true) : o.name = "html" ∨ o.name = "body" ∨
    (tightSeats o.name).isSome = true ∨ (looseSeats o.name).isSome = true := by
  have all : ∀ name ∈ seatTags, name = "html" ∨ name = "body" ∨
      (tightSeats name).isSome = true ∨ (looseSeats name).isSome = true := by decide
  exact all _ (List.contains_iff_mem.mp isSeat)

theorem fits_of_not (other : o.isSeat = false) : Fits o.name s where
  root html := by
    rw [Open.isSeat, html] at other
    exact absurd other (by decide)
  body body := by
    rw [Open.isSeat, body] at other
    exact absurd other (by decide)
  tight names found := by
    rw [Open.isSeat, (tightSeats_spec found).1] at other
    cases other
  loose names found := by
    rw [Open.isSeat, (looseSeats_spec found).1] at other
    cases other

theorem Seated.push (seated : Seated s) (other : o.isSeat = false) : Seated (o :: s) :=
  ⟨fits_of_not other, seated⟩

theorem Seated.of_suffix (suffix : t <:+ s) (seated : Seated s) : Seated t := by
  obtain ⟨front, rfl⟩ := suffix
  induction front with
  | nil => exact seated
  | cons o front ih => exact ih seated.2

theorem isSeat_of_seat (found : seat s ≠ "") : seatTags.contains (seat s) = true := by
  induction s with
  | nil => exact absurd rfl found
  | cons o s ih =>
      rw [seat] at found ⊢
      split
      · assumption
      · next other =>
        rw [if_neg other] at found
        exact ih found

theorem Fits.seat_tight {name : String} {names : List String} (fit : Fits name s)
    (found : tightSeats name = some names) : seat s = ground s ∧ names.contains (seat s) = true := by
  have known := fit.tight names found
  have same := seat_eq_ground ((tightSeats_spec found).2 _ (List.contains_iff_mem.mp known)).1
  exact ⟨same, same ▸ known⟩

theorem Seated.roomy_tail (seated : Seated (o :: s)) (room : Roomy (o :: s)) (other : o.name ≠ "body") :
    Roomy s := by
  cases isSeat : o.isSeat
  · rwa [Roomy, seat_cons_of_not isSeat] at room
  · rw [Roomy, seat_cons_of isSeat] at room
    rcases seat_cases isSeat with root | body | tight | loose
    · exact (room.2 root).elim
    · exact (other body).elim
    · obtain ⟨names, found⟩ := Option.isSome_iff_exists.mp tight
      have known := (seated.1.seat_tight found).2
      have spec := (tightSeats_spec found).2 _ (List.contains_iff_mem.mp known)
      exact ⟨spec.2.1, spec.2.2.1⟩
    · obtain ⟨names, found⟩ := Option.isSome_iff_exists.mp loose
      have spec := (looseSeats_spec found).2 _ (List.contains_iff_mem.mp (seated.1.loose names found))
      exact ⟨spec.1, spec.2.1⟩

/-- Outermost are the root and the body in it. -/
theorem Seated.exists_body (seated : Seated s) (room : Roomy s) :
    ∃ (front : List Open) (body root : Open),
      s = front ++ [body, root] ∧ body.name = "body" ∧ root.name = "html" := by
  induction s with
  | nil => exact (room.1 rfl).elim
  | cons o s ih =>
      by_cases body : o.name = "body"
      · obtain ⟨root, rfl, name⟩ := List.map_eq_singleton_iff.mp (seated.1.body body)
        exact ⟨[], o, root, rfl, body, name⟩
      · obtain ⟨front, b, root, rfl, names⟩ := ih seated.2 (seated.roomy_tail room body)
        exact ⟨o :: front, b, root, rfl, names⟩

theorem Seated.roomy_of_mem (seated : Seated (s ++ t)) (room : Roomy (s ++ t))
    (inside : ∃ o ∈ t, o.name ≠ "html") : Roomy t := by
  induction s with
  | nil => exact room
  | cons o s ih =>
      apply ih seated.2 (seated.roomy_tail room _)
      intro body
      obtain ⟨root, shape, name⟩ := List.map_eq_singleton_iff.mp (seated.1.body body)
      obtain ⟨p, here, other⟩ := inside
      have member : p ∈ [root] := shape ▸ List.mem_append_right s here
      rw [List.mem_singleton.mp member] at other
      exact other name

/-- Elements that are no seats are taken out and formatting elements put in, these in the body. -/
inductive Loosened : List Open → List Open → Prop
  | refl (s : List Open) : Loosened s s
  | keep {s t : List Open} (o : Open) (rest : Loosened s t) : Loosened (o :: s) (o :: t)
  | drop {s t : List Open} (o : Open) (other : o.isSeat = false) (rest : Loosened s t) :
      Loosened (o :: s) t
  | put {s t : List Open} (o : Open) (passing : o.isPassing = true) (room : Roomy s)
      (rest : Loosened s t) : Loosened s (o :: t)

namespace Loosened

theorem seat_eq (loosened : Loosened s t) : seat t = seat s := by
  induction loosened with
  | refl s => rfl
  | keep o _ ih => rw [seat, seat, ih]
  | drop o other _ ih => rw [ih, seat_cons_of_not other]
  | put o passing _ _ ih => rw [seat_cons_of_not (isSeat_of_isPassing passing), ih]

theorem ground_eq (loosened : Loosened s t) (isSeat : seatTags.contains (ground s) = true) :
    ground t = ground s := by
  induction loosened with
  | refl s => rfl
  | keep o _ ih =>
      rw [ground] at isSeat ⊢
      split at isSeat
      · next passing => rw [if_pos passing, ground, if_pos passing, ih isSeat]
      · next other => rw [if_neg other, ground, if_neg other]
  | drop o other _ ih =>
      rw [ground] at isSeat ⊢
      split at isSeat
      · next passing => rw [if_pos passing, ih isSeat]
      · rw [Open.isSeat, isSeat] at other
        cases other
  | put o passing _ _ ih => rw [ground, if_pos passing, ih isSeat]

theorem eq_of_root (loosened : Loosened s t) (root : s.map (·.name) = ["html"] ∨ s = []) : t = s := by
  induction loosened with
  | refl s => rfl
  | keep o _ ih =>
      rcases root with root | absurd
      · have nothing := List.map_eq_nil_iff.mp (List.cons_eq_cons.mp root).2
        rw [ih (Or.inr nothing)]
      · cases absurd
  | drop o other _ _ =>
      rcases root with root | absurd
      · have name : o.name = "html" := (List.cons_eq_cons.mp root).1
        rw [Open.isSeat, name] at other
        exact absurd other (by decide)
      · cases absurd
  | put o _ room _ _ =>
      rcases root with root | rfl
      · obtain ⟨r, rfl, name⟩ := List.map_eq_singleton_iff.mp root
        refine (room.2 ?_).elim
        rw [seat_cons_of, name]
        rw [Open.isSeat, name]
        decide
      · exact (room.1 rfl).elim

theorem fits {name : String} (loosened : Loosened s t) (fit : Fits name s) : Fits name t where
  root html := by
    rw [loosened.eq_of_root (Or.inr (fit.root html)), fit.root html]
  body body := by
    rw [loosened.eq_of_root (Or.inl (fit.body body)), fit.body body]
  tight names found := by
    have known := fit.tight names found
    rw [loosened.ground_eq ((tightSeats_spec found).2 _ (List.contains_iff_mem.mp known)).1]
    exact known
  loose names found := by
    rw [loosened.seat_eq]
    exact fit.loose names found

theorem seated (loosened : Loosened s t) (seated : Seated s) : Seated t := by
  induction loosened with
  | refl s => exact seated
  | keep o rest ih => exact ⟨rest.fits seated.1, ih seated.2⟩
  | drop o _ _ ih => exact ih seated.2
  | put o passing _ _ ih => exact (ih seated).push (isSeat_of_isPassing passing)

theorem append (front : List Open) (loosened : Loosened s t) : Loosened (front ++ s) (front ++ t) := by
  induction front with
  | nil => exact loosened
  | cons o front ih => exact .keep o ih

theorem eraseP (others : ∀ o ∈ s, wanted o = true → o.isSeat = false) :
    Loosened s (s.eraseP wanted) := by
  induction s with
  | nil => exact .refl []
  | cons o s ih =>
      rw [List.eraseP_cons]
      cases here : wanted o
      · exact .keep o (ih fun p inside => others p (List.mem_cons_of_mem o inside))
      · exact .drop o (others o List.mem_cons_self here) (.refl s)

end Loosened

theorem seat_dropWhile {p : Open → Bool} (others : ∀ o, p o = true → o.isSeat = false) :
    seat (s.dropWhile p) = seat s := by
  induction s with
  | nil => rfl
  | cons o s ih =>
      rw [List.dropWhile_cons]
      split
      · next here => rw [ih, seat_cons_of_not (others o here)]
      · rfl

theorem seat_append (others : ∀ o ∈ s, o.isSeat = false) : seat (s ++ t) = seat t := by
  induction s with
  | nil => rfl
  | cons o s ih =>
      obtain ⟨here, below⟩ := List.forall_mem_cons.mp others
      exact (seat_cons_of_not here).trans (ih below)

def Scope.isBlock : Scope → Bool
  | .plain | .button | .list => true
  | .table | .select => false

def tableParts : List String := ["table", "tbody", "thead", "tfoot", "tr"]

theorem tight_tableParts {name : String} {names : List String} (found : tightSeats name = some names) :
    ∀ n ∈ names, tableParts.contains n = true := by
  rw [tightSeats.eq_def] at found
  split at found <;> cases found <;> decide

theorem Seated.exists_table (seated : Seated s) (part : tableParts.contains (ground s) = true) :
    ∃ o ∈ s, o.name = "table" := by
  induction s with
  | nil => exact absurd part (by decide)
  | cons o s ih =>
      rw [ground] at part
      split at part
      · obtain ⟨p, inside, isTable⟩ := ih seated.2 part
        exact ⟨p, List.mem_cons_of_mem o inside, isTable⟩
      · have all : ∀ name ∈ tableParts, name = "table" ∨ (tightSeats name).isSome = true := by decide
        rcases all _ (List.contains_iff_mem.mp part) with isTable | tight
        · exact ⟨o, List.mem_cons_self, isTable⟩
        · obtain ⟨names, found⟩ := Option.isSome_iff_exists.mp tight
          have below := tight_tableParts found _ (List.contains_iff_mem.mp (seated.1.tight names found))
          obtain ⟨p, inside, isTable⟩ := ih seated.2 below
          exact ⟨p, List.mem_cons_of_mem o inside, isTable⟩

theorem isSeat_of_not_isSpecial (html : o.space = .html) (plain : isSpecial o = false) :
    o.isSeat = false := by
  have all : ∀ name ∈ seatTags, specialTags.contains name = true := by decide
  cases isSeat : o.isSeat
  · rfl
  · rw [isSpecial, Open.isOneOf, html, all _ (List.contains_iff_mem.mp isSeat)] at plain
    cases plain

section Tables

variable (html : ∀ o ∈ s, o.space = .html)
  (stops : ∀ o : Open, o.space = .html → o.name = "table" → scope.stops o = true)
  (passed : ∀ o, o.isPassing = true ∨ tableParts.contains o.name = true → wanted o = false)
include html stops passed

theorem findInScope_eq_false (seated : Seated s) (part : tableParts.contains (ground s) = true) :
    findInScope scope wanted s = false := by
  induction s with
  | nil => rfl
  | cons o s ih =>
      have further := ih (fun p inside => html p (List.mem_cons_of_mem o inside)) seated.2
      rw [findInScope]
      rw [ground] at part
      split at part
      · next passing => rw [passed o (Or.inl passing), further part, Bool.and_false, Bool.or_false]
      · have all : ∀ name ∈ tableParts, name = "table" ∨ (tightSeats name).isSome = true := by decide
        rw [passed o (Or.inr part), Bool.false_or]
        rcases all _ (List.contains_iff_mem.mp part) with isTable | tight
        · rw [stops o (html o List.mem_cons_self) isTable]
          rfl
        · obtain ⟨names, found⟩ := Option.isSome_iff_exists.mp tight
          have below := tight_tableParts found _ (List.contains_iff_mem.mp (seated.1.tight names found))
          rw [further below, Bool.and_false]

end Tables

section Scopes

variable (block : scope.isBlock = true) (html : ∀ o ∈ s, o.space = .html)
  (choice : ∀ o, wanted o = true → o.isSeat = false ∧ o.isPassing = false)
include block html choice

omit html choice in
theorem stops_of_scoping (space : o.space = .html) (scoping : scopingTags.contains o.name = true) :
    scope.stops o = true := by
  have stops : isScoping o = true := by
    rw [isScoping, Open.isOneOf, space, scoping]
    rfl
  cases scope with
  | plain => exact stops
  | button => rw [Scope.stops, stops, Bool.true_or]
  | list => rw [Scope.stops, stops, Bool.true_or]
  | table => cases block
  | select => cases block

omit block html in
theorem not_wanted (either : o.isSeat = true ∨ o.isPassing = true) : wanted o = false := by
  cases here : wanted o
  · rfl
  · rw [(choice o here).1, (choice o here).2] at either
    rcases either with absurd | absurd <;> cases absurd

theorem seat_popThrough (seated : Seated s) (other : seat s ≠ "select")
    (found : findInScope scope wanted s = true) : seat (popThrough wanted s) = seat s := by
  have parts : ∀ name ∈ tableParts, seatTags.contains name = true := by decide
  induction s with
  | nil => rfl
  | cons o s ih =>
      have below : ∀ p ∈ s, p.space = .html := fun p inside => html p (List.mem_cons_of_mem o inside)
      rw [findInScope] at found
      rw [popThrough]
      split
      · next here => exact (seat_cons_of_not (choice o here).1).symm
      · next apart =>
        rw [Bool.eq_false_iff.mpr apart, Bool.false_or, Bool.and_eq_true] at found
        cases isSeat : o.isSeat
        · rw [seat_cons_of_not isSeat] at other ⊢
          exact ih below seated.2 other found.2
        · exfalso
          rw [seat_cons_of isSeat] at other
          rcases seat_cases isSeat with root | body | tight | loose
          · rw [seated.1.root root] at found
            cases found.2
          · obtain ⟨root, rfl, name⟩ := List.map_eq_singleton_iff.mp (seated.1.body body)
            have further := found.2
            rw [findInScope, not_wanted choice (Or.inl (by rw [Open.isSeat, name]; decide)),
              findInScope, Bool.and_false] at further
            cases further
          · obtain ⟨names, shape⟩ := Option.isSome_iff_exists.mp tight
            have part := tight_tableParts shape _ (List.contains_iff_mem.mp (seated.1.tight names shape))
            have none := findInScope_eq_false below
              (fun o space isTable => stops_of_scoping block space (by rw [isTable]; decide))
              (fun o either => not_wanted choice (either.symm.imp_left fun known =>
                parts _ (List.contains_iff_mem.mp known))) seated.2 part
            rw [none] at found
            cases found.2
          · have all : ∀ name ∈ seatTags, (looseSeats name).isSome = true →
                name = "select" ∨ scopingTags.contains name = true := by decide
            have scoping := (all _ (List.contains_iff_mem.mp isSeat) loose).resolve_left other
            rw [stops_of_scoping block (html o List.mem_cons_self) scoping] at found
            cases found.1

end Scopes

theorem findInScope_dropWhile {p : Open → Bool} (others : ∀ o, p o = true → wanted o = false)
    (found : findInScope scope wanted s = true) : findInScope scope wanted (s.dropWhile p) = true := by
  induction s with
  | nil => exact found
  | cons o s ih =>
      rw [List.dropWhile_cons]
      split
      · next dropped =>
        rw [findInScope, others o dropped, Bool.false_or, Bool.and_eq_true] at found
        exact ih found.2
      · exact found

theorem findInScope_mono {wanted' : Open → Bool} (more : ∀ o ∈ s, wanted o = true → wanted' o = true)
    (found : findInScope scope wanted s = true) : findInScope scope wanted' s = true := by
  induction s with
  | nil => exact found
  | cons o s ih =>
      rw [findInScope, Bool.or_eq_true, Bool.and_eq_true] at found ⊢
      exact found.imp (more o List.mem_cons_self) fun further =>
        ⟨further.1, ih (fun p inside => more p (List.mem_cons_of_mem o inside)) further.2⟩

theorem find?_dropWhile {p stops : Open → Bool} (found : s.find? stops = some o) (stays : p o = false) :
    (s.dropWhile p).find? stops = some o := by
  induction s with
  | nil => exact found
  | cons q s ih =>
      rw [List.dropWhile_cons]
      split
      · next dropped =>
        rw [List.find?_cons] at found
        split at found
        · cases found
          rw [stays] at dropped
          cases dropped
        · exact ih found
      · exact found

/-- A seat that a look comes to first is the innermost one. -/
theorem seat_of_find? {stops : Open → Bool} (found : s.find? stops = some o) (isSeat : o.isSeat = true)
    (others : ∀ p ∈ s, stops p = false → p.isSeat = false) : seat s = o.name := by
  induction s with
  | nil => cases found
  | cons q s ih =>
      rw [List.find?_cons] at found
      split at found
      · cases found
        exact seat_cons_of isSeat
      · next passed =>
        rw [seat_cons_of_not (others q List.mem_cons_self passed)]
        exact ih found fun p inside => others p (List.mem_cons_of_mem q inside)

theorem seat_popThrough_of_find? {stops : Open → Bool} (found : s.find? stops = some o)
    (here : wanted o = true) (other : o.isSeat = false)
    (others : ∀ p ∈ s, stops p = false → p.isSeat = false) : seat (popThrough wanted s) = seat s := by
  induction s with
  | nil => rfl
  | cons q s ih =>
      have below : ∀ p ∈ s, stops p = false → p.isSeat = false := fun p inside =>
        others p (List.mem_cons_of_mem q inside)
      rw [List.find?_cons] at found
      split at found
      · cases found
        rw [popThrough, if_pos here, seat_cons_of_not other]
      · next passed =>
        have plain := others q List.mem_cons_self passed
        rw [popThrough, seat_cons_of_not plain]
        split
        · rfl
        · exact ih found below

section Innermost

variable (found : seat s ≠ "")
include found

theorem exists_seat :
    ∃ (upper : List Open) (o : Open) (rest : List Open),
      s = upper ++ o :: rest ∧ (∀ p ∈ upper, p.isSeat = false) ∧ o.name = seat s := by
  induction s with
  | nil => exact (found rfl).elim
  | cons q s ih =>
      cases isSeat : q.isSeat
      · rw [seat_cons_of_not isSeat] at found ⊢
        obtain ⟨upper, o, rest, rfl, plain, named⟩ := ih found
        exact ⟨q :: upper, o, rest, rfl, List.forall_mem_cons.mpr ⟨isSeat, plain⟩, named⟩
      · exact ⟨[], q, s, rfl, fun _ absurd => (List.not_mem_nil absurd).elim, (seat_cons_of isSeat).symm⟩

theorem exists_popTo_seat (others : ∀ o, o.isSeat = false → wanted o = false)
    (here : ∀ o, o.name = seat s → wanted o = true) : ∃ o rest, popTo wanted s = o :: rest ∧
      popThrough wanted s = rest ∧ o.name = seat s ∧ o :: rest <:+ s := by
  obtain ⟨upper, o, rest, shape, plain, named⟩ := exists_seat found
  have left : popTo wanted s = o :: rest := by
    rw [shape, popTo_eq, List.dropWhile_append_of_pos fun p inside => by
      rw [others p (plain p inside)]
      rfl, List.dropWhile_cons, here o named]
    rfl
  refine ⟨o, rest, left, ?_, named, left ▸ popTo_suffix wanted s⟩
  rw [popThrough_eq, left, List.tail_cons]

/-- The innermost seat is in every scope that only tables bound. -/
theorem findInScope_seat (html : ∀ o ∈ s, o.space = .html) :
    findInScope .table (fun o => o.isHtml (seat s)) s = true := by
  obtain ⟨upper, o, rest, shape, plain, named⟩ := exists_seat found
  rw [shape] at html
  have further : ∀ upper : List Open, (∀ p ∈ upper, p.isSeat = false) →
      findInScope .table (fun o => o.isHtml (seat s)) (upper ++ o :: rest) = true := by
    intro upper plain
    induction upper with
    | nil =>
        have here : o.isHtml (seat s) = true := by
          rw [Open.isHtml, html o (List.mem_append_right _ List.mem_cons_self), named]
          exact beq_self_eq_true _
        rw [List.nil_append, findInScope, here, Bool.true_or]
    | cons p upper ih =>
        obtain ⟨first, others⟩ := List.forall_mem_cons.mp plain
        have open_ : Scope.table.stops p = false := by
          have all : ∀ name ∈ ["html", "table"], seatTags.contains name = true := by decide
          rw [Scope.stops, Open.isOneOf, Bool.and_eq_false_iff]
          right
          rw [← Bool.not_eq_true]
          intro stops
          rw [Open.isSeat, all _ (List.contains_iff_mem.mp stops)] at first
          cases first
        rw [List.cons_append, findInScope, open_, ih others, Bool.not_false, Bool.true_and, Bool.or_true]
  have whole := further upper plain
  rwa [← shape] at whole

end Innermost

end HtmlTree.Html
