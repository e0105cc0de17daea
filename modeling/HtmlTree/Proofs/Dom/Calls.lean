import HtmlTree.Dom.Operations
import HtmlTree.Parse
import HtmlTree.Proofs.Dom.Edits
import HtmlTree.Proofs.Dom.Merging

/-! Runs of the calls that make and change nodes. Whatever their order, every store they lead to is
well linked, if only detached nodes are put somewhere and none of them into itself; and a call that
fails changes nothing. -/

namespace HtmlTree.Store

open Html (Parsed Source)

theorem WellLinked.attachAll (p : NodeId) (ts : List Parsed) : ∀ {s : Store} {pending : Backlog},
    s.WellLinked → p < s.size → (∀ e ∈ pending, e.1 < s.size) →
    (Store.attachAll p ts s pending).1.WellLinked ∧
      ∀ e ∈ (Store.attachAll p ts s pending).2, e.1 < (Store.attachAll p ts s pending).1.size := by
  induction ts with
  | nil =>
      intro s pending linked _ known
      exact ⟨linked, known⟩
  | cons t ts ih =>
      intro s pending linked parentKnown known
      rw [Store.attachAll]
      cases t.content? with
      | none => exact ih linked parentKnown known
      | some c =>
          have size : ((s.make c).2.append p s.size).size = s.size + 1 := by
            rw [Store.append, size_link, size_make]
          apply ih (linked.append_make p c parentKnown)
          · rw [size]
            exact Nat.lt_succ_of_lt parentKnown
          · intro e member
            rw [size]
            split at member
            · rcases List.mem_cons.mp member with rfl | member
              · exact Nat.lt_succ_self s.size
              · exact Nat.lt_succ_of_lt (known e member)
            · exact Nat.lt_succ_of_lt (known e member)

theorem WellLinked.fillLoop (fuel : Nat) : ∀ {s : Store} {pending : Backlog}, s.WellLinked →
    (∀ e ∈ pending, e.1 < s.size) → (Store.fillLoop fuel s pending).WellLinked := by
  induction fuel with
  | zero =>
      intro s pending linked _
      exact linked
  | succ fuel ih =>
      intro s pending linked known
      cases pending with
      | nil => exact linked
      | cons e pending =>
          obtain ⟨filled, waiting⟩ := WellLinked.attachAll e.1 e.2 linked (known e List.mem_cons_self)
            (fun e member => known e (List.mem_cons_of_mem _ member))
          exact ih filled waiting

theorem WellLinked.ofParsed {s : Store} (linked : s.WellLinked) (root : Content)
    (ts : List Parsed) : (s.ofParsed root ts).2.WellLinked := by
  apply WellLinked.normalize
  apply WellLinked.fillLoop _ (linked.make root)
  intro e member
  rw [List.mem_singleton] at member
  rw [member, size_make]
  exact Nat.lt_succ_self s.size

theorem WellLinked.parseGoal {s : Store} (linked : s.WellLinked) (c : Settings) (goal : Html.Goal)
    (source : Source) : (HtmlTree.parseGoal c s goal source).store.WellLinked := by
  rw [HtmlTree.parseGoal]
  split
  · rw [conclude]
    split
    · exact linked
    · exact linked
    · exact linked.ofParsed _ _
  · exact linked

theorem WellLinked.parseDocument {s : Store} (linked : s.WellLinked) (c : Settings)
    (source : Option Source) : (HtmlTree.parseDocument c s source).store.WellLinked := by
  cases source with
  | none => exact linked
  | some source => exact linked.parseGoal c _ source

theorem WellLinked.parseFragment {s : Store} (linked : s.WellLinked) (c : Settings)
    (source : Option Source) (container : Option String) :
    (HtmlTree.parseFragment c s source container).store.WellLinked := by
  cases source with
  | none => exact linked
  | some source =>
      simp only [HtmlTree.parseFragment]
      split
      · exact linked.parseGoal c _ source
      · split <;> exact linked

theorem WellLinked.parseSmart {s : Store} (linked : s.WellLinked) (c : Settings)
    (source : Option Source) : (HtmlTree.parseSmart c s source).store.WellLinked := by
  cases source with
  | none => exact linked
  | some source =>
      simp only [HtmlTree.parseSmart]
      split
      · exact linked.parseDocument c _
      · exact linked.parseFragment c _ none

/-- The calls that make nodes or change them, on whatever a caller hands over. -/
inductive Call where
  | createNode (tag : String)
  | createText (value : String)
  | construct (content : Content)
  | parse (settings : Settings) (smart : Bool) (source : Option Source)
  | parseFragment (settings : Settings) (source : Option Source) (container : Option String)
  | append (parent node : Operand)
  | prepend (parent node : Operand)
  | replace (old node : Operand)
  | remove (node : Operand)
  | setText (node : Operand) (value : Option String)
  | normalize (node : NodeId)
  | setAttribute (node : Operand) (name value : String)
  | removeAttribute (node : Operand) (name : String)

inductive CallFailure where
  | tree (failure : TreeFailure)
  | parse (failure : ParseFailure)

structure Effect where
  failure : Option CallFailure
  store : Store

namespace Effect

def made (r : NodeId × Store) : Effect := ⟨none, r.2⟩

def ofTree {α : Type} (s : Store) (after : α → Store) : Except TreeFailure α → Effect
  | .ok a => ⟨none, after a⟩
  | .error failure => ⟨some (.tree failure), s⟩

def ofParse (p : ParseOutcome) : Effect :=
  match p.result with
  | .ok _ => ⟨none, p.store⟩
  | .error failure => ⟨some (.parse failure), p.store⟩

end Effect

def perform (s : Store) : Call → Effect
  | .createNode tag => .made (s.createNode tag)
  | .createText value => .made (s.createText value)
  | .construct content => .made (s.make content)
  | .parse c smart source =>
    .ofParse (if smart then HtmlTree.parseSmart c s source else HtmlTree.parseDocument c s source)
  | .parseFragment c source container => .ofParse (HtmlTree.parseFragment c s source container)
  | .append parent node => .ofTree s (·.2) (parent.appendTo s node)
  | .prepend parent node => .ofTree s (·.2) (parent.prependTo s node)
  | .replace old node => .ofTree s (·.value.2) (old.replaceBy s node)
  | .remove node => .ofTree s (·.2) (node.removeFrom s)
  | .setText node value => .ofTree s (·.2) (node.setText s value)
  | .normalize node => ⟨none, s.normalize node⟩
  | .setAttribute node name value => ⟨none, node.setAttribute s name value⟩
  | .removeAttribute node name => ⟨none, node.removeAttribute s name⟩

/-- A known node that is attached nowhere and is neither the target nor around it. -/
def Insertable (s : Store) (n target : NodeId) : Prop :=
  n < s.size ∧ s.parent n = none ∧ s.contains n target = false

/-- What callers have to see to: only a detached node is inserted, and not into itself; a node may
also replace itself. -/
def Permitted (s : Store) : Call → Prop
  | .append (.node p) (.node n) => s.Insertable n p
  | .prepend (.node p) (.node n) => s.Insertable n p
  | .replace (.node old) (.node n) => n = old ∨ s.Insertable n old
  | _ => True

def after (s : Store) : List Call → Store
  | [] => s
  | call :: calls => after (s.perform call).store calls

def PermittedRun (s : Store) : List Call → Prop
  | [] => True
  | call :: calls => s.Permitted call ∧ PermittedRun (s.perform call).store calls

theorem apart_of_insertable {s : Store} (linked : s.WellLinked) (n target : NodeId)
    (insertable : s.Insertable n target) : ¬ (target = n ∨ s.Above n target) := by
  rw [← contains_iff s linked.acyclic, insertable.2.2]
  exact Bool.false_ne_true

theorem lt_size_of_container (s : Store) (o : Operand) (p : NodeId) (found : o.container s = .ok p) :
    o = .node p ∧ p < s.size := by
  cases o with
  | node i =>
      simp only [Operand.container] at found
      split at found
      · next container =>
        cases found
        exact ⟨rfl, lt_size_of_isContainer s _ container⟩
      · split at found <;> cases found
  | value v => cases found

theorem eq_node_of_linked (o : Operand) (n : NodeId) (found : o.linked = .ok n) : o = .node n := by
  cases o with
  | node i =>
      cases found
      rfl
  | value v => cases found

theorem wellLinked_ofTree_put {s : Store} (linked : s.WellLinked) (parent node : Operand)
    (put : NodeId → NodeId → Store)
    (allowed : ∀ p n, parent = .node p → node = .node n → s.Insertable n p)
    (keeps : ∀ p n, p < s.size → s.Insertable n p → (put p n).WellLinked) :
    (Effect.ofTree s (fun r : NodeId × Store => r.2) (do
      let p ← parent.container s
      let n ← node.linked
      return (n, put p n))).store.WellLinked := by
  cases container : parent.container s with
  | error failure => exact linked
  | ok p =>
      cases found : node.linked with
      | error failure => exact linked
      | ok n =>
          obtain ⟨isParent, known⟩ := lt_size_of_container s parent p container
          exact keeps p n known (allowed p n isParent (eq_node_of_linked node n found))

theorem wellLinked_replaceBy {s : Store} (linked : s.WellLinked) (old node : Operand)
    (permitted : s.Permitted (.replace old node)) :
    (s.perform (.replace old node)).store.WellLinked := by
  cases old with
  | value v => exact linked
  | node o =>
      cases result : s.replace o (node.node?.getD o) with
      | detached =>
          simp only [perform, Operand.replaceBy, Operand.linked, bind, Except.bind, result]
          exact linked
      | unlisted p =>
          simp only [perform, Operand.replaceBy, Operand.linked, bind, Except.bind, result]
          cases s.unlistedRecord o p <;> exact linked
      | done t =>
          simp only [perform, Operand.replaceBy, Operand.linked, bind, Except.bind, result]
          cases node with
          | value v => exact linked
          | node n =>
              apply linked.replace o n result
              rcases permitted with same | insertable
              · exact Or.inl same
              · exact Or.inr ⟨insertable.1, insertable.2.1,
                  apart_of_insertable linked n o insertable⟩

/-- Every permitted call keeps a store well linked. -/
theorem WellLinked.perform {s : Store} (linked : s.WellLinked) (call : Call)
    (permitted : s.Permitted call) : (s.perform call).store.WellLinked := by
  cases call with
  | createNode tag => exact linked.make _
  | createText value => exact linked.make _
  | construct content => exact linked.make content
  | parse c smart source =>
      have parsed : ∀ p : ParseOutcome, p.store.WellLinked → (Effect.ofParse p).store.WellLinked := by
        intro p kept
        rw [Effect.ofParse]
        split <;> exact kept
      cases smart with
      | false => exact parsed _ (linked.parseDocument c source)
      | true => exact parsed _ (linked.parseSmart c source)
  | parseFragment c source container =>
      simp only [Store.perform, Effect.ofParse]
      split <;> exact linked.parseFragment c source container
  | append parent node =>
      apply wellLinked_ofTree_put linked parent node s.append
      · rintro p n rfl rfl
        exact permitted
      · intro p n known insertable
        exact linked.append p n known insertable.1 insertable.2.1
          (apart_of_insertable linked n p insertable)
  | prepend parent node =>
      apply wellLinked_ofTree_put linked parent node s.prepend
      · rintro p n rfl rfl
        exact permitted
      · intro p n known insertable
        exact linked.prepend p n known insertable.1 insertable.2.1
          (apart_of_insertable linked n p insertable)
  | replace old node => exact wellLinked_replaceBy linked old node permitted
  | remove node =>
      cases node with
      | node n => exact linked.remove n
      | value v => exact linked
  | setText node value =>
      simp only [Store.perform, Operand.setText]
      cases container : node.container s with
      | error failure => exact linked
      | ok p => exact linked.setText p _ (lt_size_of_container s node p container).2
  | normalize node => exact linked.normalize node
  | setAttribute node name value =>
      cases node with
      | node n => exact linked.setAttrs n _
      | value v => exact linked
  | removeAttribute node name =>
      cases node with
      | node n => exact linked.setAttrs n _
      | value v => exact linked

theorem WellLinked.after {s : Store} (linked : s.WellLinked) (calls : List Call)
    (permitted : s.PermittedRun calls) : (s.after calls).WellLinked := by
  induction calls generalizing s with
  | nil => exact linked
  | cons call calls ih => exact ih (linked.perform call permitted.1) permitted.2

theorem parseGoal_store_of_error (c : Settings) (s : Store) (goal : Html.Goal) (source : Source)
    (failure : ParseFailure) (failed : (HtmlTree.parseGoal c s goal source).result = .error failure) :
    (HtmlTree.parseGoal c s goal source).store = s := by
  rw [HtmlTree.parseGoal] at failed ⊢
  split at failed
  · rw [conclude] at failed ⊢
    split at failed
    · rfl
    · rfl
    · cases failed
  · rfl

theorem parseDocument_store_of_error (c : Settings) (s : Store) (source : Option Source)
    (failure : ParseFailure) (failed : (HtmlTree.parseDocument c s source).result = .error failure) :
    (HtmlTree.parseDocument c s source).store = s := by
  cases source with
  | none => rfl
  | some source => exact parseGoal_store_of_error c s _ source failure failed

theorem parseFragment_store_of_error (c : Settings) (s : Store) (source : Option Source)
    (container : Option String) (failure : ParseFailure)
    (failed : (HtmlTree.parseFragment c s source container).result = .error failure) :
    (HtmlTree.parseFragment c s source container).store = s := by
  cases source with
  | none => rfl
  | some source =>
      simp only [HtmlTree.parseFragment] at failed ⊢
      split at failed
      · exact parseGoal_store_of_error c s _ source failure failed
      · split <;> rfl

theorem parseSmart_store_of_error (c : Settings) (s : Store) (source : Option Source)
    (failure : ParseFailure) (failed : (HtmlTree.parseSmart c s source).result = .error failure) :
    (HtmlTree.parseSmart c s source).store = s := by
  cases source with
  | none => rfl
  | some source =>
      rw [HtmlTree.parseSmart] at failed ⊢
      cases kind : source.isDocument with
      | true =>
          rw [kind, if_pos rfl] at failed
          exact parseDocument_store_of_error c s _ failure failed
      | false =>
          rw [kind, if_neg Bool.false_ne_true] at failed
          exact parseFragment_store_of_error c s _ none failure failed

theorem ofTree_store_of_failure {α : Type} (s : Store) (after : α → Store)
    (result : Except TreeFailure α) (failed : (Effect.ofTree s after result).failure.isSome) :
    (Effect.ofTree s after result).store = s := by
  cases result with
  | ok a => cases failed
  | error failure => rfl

theorem ofParse_store_of_failure (s : Store) (p : ParseOutcome)
    (kept : ∀ failure, p.result = .error failure → p.store = s)
    (failed : (Effect.ofParse p).failure.isSome) : (Effect.ofParse p).store = s := by
  rw [Effect.ofParse] at failed ⊢
  split at failed
  · cases failed
  · next failure result => exact kept failure result

theorem perform_store_of_failure (s : Store) (call : Call)
    (failed : (s.perform call).failure.isSome) : (s.perform call).store = s := by
  cases call with
  | createNode tag => cases failed
  | createText value => cases failed
  | construct content => cases failed
  | parse c smart source =>
      apply ofParse_store_of_failure s _ _ failed
      intro failure result
      cases smart with
      | false => exact parseDocument_store_of_error c s source failure result
      | true => exact parseSmart_store_of_error c s source failure result
  | parseFragment c source container =>
      exact ofParse_store_of_failure s _
        (parseFragment_store_of_error c s source container) failed
  | append parent node => exact ofTree_store_of_failure s _ _ failed
  | prepend parent node => exact ofTree_store_of_failure s _ _ failed
  | replace old node => exact ofTree_store_of_failure s _ _ failed
  | remove node => exact ofTree_store_of_failure s _ _ failed
  | setText node value => exact ofTree_store_of_failure s _ _ failed
  | normalize node => cases failed
  | setAttribute node name value => cases failed
  | removeAttribute node name => cases failed

theorem container_of_leaf (s : Store) (p : NodeId) (leaf : s.isContainer p = false) :
    ∃ failure, (Operand.node p).container s = .error failure := by
  simp only [Operand.container, leaf, Bool.false_eq_true, if_false]
  cases s.describe p with
  | none => exact ⟨.notShown, rfl⟩
  | some shown => exact ⟨.notContainer shown, rfl⟩

/-- After any permitted run the lists of children and the references to parents agree, without
cycles; and of the calls that may come next, those that fail, as insertions into a leaf do, change
nothing. -/
theorem wellLinked_after_calls (calls : List Call) (permitted : empty.PermittedRun calls) :
    (empty.after calls).WellLinked ∧
      (∀ call, ((empty.after calls).perform call).failure.isSome →
        ((empty.after calls).perform call).store = empty.after calls) ∧
      ∀ p, (empty.after calls).isContainer p = false → ∀ node value,
        ((empty.after calls).perform (.append (.node p) node)).failure.isSome ∧
          ((empty.after calls).perform (.prepend (.node p) node)).failure.isSome ∧
          ((empty.after calls).perform (.setText (.node p) value)).failure.isSome := by
  refine ⟨wellLinked_empty.after calls permitted, perform_store_of_failure _, ?_⟩
  intro p leaf node value
  obtain ⟨failure, failed⟩ := container_of_leaf _ p leaf
  simp only [perform, Operand.appendTo, Operand.prependTo, Operand.setText, failed, bind,
    Except.bind, Effect.ofTree, Option.isSome_some, and_self]

/-- Two texts put into an element and merged, one of two elements replaced by the other, and a
parse whose result goes where it was. -/
def sampleCalls : List Call :=
  [.createNode "div", .createText "a", .createText "b", .append (.node 0) (.node 1),
    .append (.node 0) (.node 2), .normalize 0, .createNode "p", .createNode "b",
    .prepend (.node 0) (.node 3), .setText (.node 3) (some "c"), .replace (.node 3) (.node 4),
    .append (.node 1) (.node 2), .remove (.node 1), .parse .standard false (some (.text "<p>d"))]

theorem sampleCalls_permitted : empty.PermittedRun sampleCalls := by
  refine ⟨trivial, trivial, trivial, ⟨by decide, rfl, rfl⟩, ⟨by decide, rfl, rfl⟩, trivial, trivial,
    trivial, ⟨by decide, rfl, rfl⟩, trivial, Or.inr ⟨by decide, rfl, rfl⟩, ⟨by decide, rfl, rfl⟩,
    trivial, trivial, trivial⟩

theorem wellLinked_after_sampleCalls :
    empty.PermittedRun sampleCalls ∧ (empty.after sampleCalls).WellLinked :=
  ⟨sampleCalls_permitted, (wellLinked_after_calls sampleCalls sampleCalls_permitted).1⟩

end HtmlTree.Store
