import HtmlTree.Parse
import HtmlTree.Proofs.Html.Rebuilding

/-! Markup of a fragment parsed back into an equal fragment. -/

namespace HtmlTree

open Html
open Html.Builder (Inside)
open Markup

namespace Html

variable {o : Open} {around : List Open}

theorem Parse.finish_complete {b : Builder} (inside : Inside b .inBody o around) (p : Parse)
    {draft : Draft} {buffer : List Char} (shown : View.Shows ⟨⟨.data, draft, buffer, []⟩, b⟩ p) :
    p.finish.ending = some .complete ∧ p.finish.builder.arena = b.arena ∧
      p.finish.builder.stack = b.stack := by
  obtain ⟨i, reports, _, rfl⟩ := shown
  obtain ⟨holds, arena, stack⟩ := inside.finish_eq
  obtain ⟨others, settled⟩ := Parse.exists_settle ⟨.data, i, draft, buffer, []⟩ b.finish reports holds
  rw [Parse.finish]
  simp only [settled]
  exact ⟨rfl, arena, stack⟩

theorem step_data_of_end {i : Input} (ended : i.rest = []) (foreign : Bool) (draft : Draft)
    (buffer : List Char) : Lexer.step foreign ⟨.data, i, draft, buffer, []⟩ = none := by
  simp only [Lexer.step, Lexer.dataStep, Lexer.read, Input.read_of_end ended]

theorem Parse.run_of_end {b : Builder} (p : Parse) {draft : Draft} {buffer : List Char}
    (shown : View.Shows ⟨⟨.data, draft, buffer, []⟩, b⟩ p) (fuel : Nat) : p.run fuel = p.finish := by
  cases fuel with
  | zero => rfl
  | succ fuel =>
      obtain ⟨i, reports, left, rfl⟩ := shown
      rw [Parse.run]
      simp only [step_data_of_end left, Option.isSome_none, Bool.false_eq_true, if_false]

def fragmentStart : Builder := (Builder.fragment .html "div").cleared

theorem inside_fragmentStart : Inside fragmentStart .inBody ⟨1, "html", .html⟩ [] where
  stack := rfl
  mode := rfl
  back absurd := nomatch absurd
  space := rfl
  known := by decide
  standard := rfl
  formatting := rfl
  fostering := rfl
  dropNewline := rfl
  collapse := rfl
  lexerState := rfl

theorem exists_started (text : List Char) (free : '\r' ∉ text) : ∃ p : Parse,
    View.Shows ⟨⟨.data, .nothing, [], text⟩, fragmentStart⟩ p ∧
      Parse.ofText ⟨false, .html⟩ (.fragment "div") none text = p.run (Parse.steps text) := by
  obtain ⟨others, settled⟩ := Parse.exists_settle (.start .data text) (Builder.fragment .html "div")
    [] rfl
  refine ⟨_, ⟨.ofText text, others, unifyLines_eq text free, ?_⟩, rfl⟩
  exact settled

theorem forest_of_rebuilds {shape : Forest Content} (free : '\r' ∉ write false shape)
    (rebuilt : Rebuilds false shape) :
    (Parse.ofText ⟨false, .html⟩ (.fragment "div") none (write false shape)).ending =
        some .complete ∧
      Parsed.forest "" ((Parse.ofText ⟨false, .html⟩ (.fragment "div") none
        (write false shape)).result (.fragment "div")) = behind "" shape := by
  obtain ⟨p, shown, started⟩ := exists_started (write false shape) free
  obtain ⟨draft, buffer, next, ts, puts, same⟩ := rebuilt fragmentStart _ []
    .nothing [] [] (fun d absurd => nomatch absurd) inside_fragmentStart (by
      intro _ q member
      rw [List.mem_singleton.mp member]
      decide)
  rw [List.append_nil] at puts
  obtain ⟨rounds, few, onward⟩ := puts.leads
  obtain ⟨q, last, run⟩ := onward p shown
  obtain ⟨fuel, enough⟩ : ∃ fuel, Parse.steps (write false shape) = fuel + rounds := by
    refine ⟨Parse.steps (write false shape) - rounds, ?_⟩
    rw [Parse.steps]
    simp only at few
    omega
  obtain ⟨complete, arena, stack⟩ := Parse.finish_complete puts.inside q last
  have root : q.finish.builder.root = ⟨1, "html", .html⟩ := by
    rw [Builder.root, stack, puts.inside.stack]
    rfl
  rw [started, enough, run fuel, Parse.run_of_end q last fuel]
  refine ⟨complete, ?_⟩
  rw [Parse.result, root, arena, puts.continues.gains.contents_eq inside_fragmentStart.known rfl,
    same ""]

theorem forest_of_written {shape : Forest Content} (stable : Stable false shape) :
    (Parse.ofText ⟨false, .html⟩ (.fragment "div") none (write false shape)).ending =
        some .complete ∧
      Parsed.forest "" ((Parse.ofText ⟨false, .html⟩ (.fragment "div") none
        (write false shape)).result (.fragment "div")) = shape := by
  obtain ⟨complete, parsed⟩ := forest_of_rebuilds stable.no_return (rebuilds_stable stable)
  exact ⟨complete, parsed.trans (behind_nothing stable)⟩

end Html

namespace Store

theorem lt_size_of_stable {s : Store} {f : Forest NodeId} {within : Bool}
    (stable : Stable within (f.map s.content)) : ∀ j ∈ f.labels, j < s.size := by
  intro j member
  apply Nat.lt_of_not_le
  intro outside
  have absent : s.content j = .alien "" := by
    rw [content, node_of_size_le s j outside]
    rfl
  apply stable.alien_not_mem ""
  rw [Forest.labels_map, ← absent]
  exact List.mem_map_of_mem member

theorem isEqualNode_ofParsed (s : Store) (i : NodeId) (f : Forest NodeId)
    (fragment : s.content i = .fragment) (tops : s.children i = f.tops) (unfolded : s.Unfolds f)
    (known : ∀ j ∈ f.labels, j < s.size) (ts : List Parsed)
    (shape : Parsed.forest "" ts = f.map s.content) :
    (s.ofParsed .fragment ts).2.isEqualNode i (s.ofParsed .fragment ts).1 = true := by
  obtain ⟨g, holds, contents, root, _, old⟩ := exists_normal_ofParsed s .fragment rfl ts
  have here : i < s.size := by
    apply lt_size_of_isContainer
    rw [isContainer, fragment]
    rfl
  have content : ∀ j < s.size, (s.ofParsed .fragment ts).2.content j = s.content j :=
    fun j low => congrArg Node.content (old j low)
  have children : ∀ j < s.size, (s.ofParsed .fragment ts).2.children j = s.children j :=
    fun j low => congrArg Node.children (old j low)
  have kept : f.map (s.ofParsed .fragment ts).2.content = f.map s.content :=
    Forest.map_congr fun j member => content j (known j member)
  apply isEqualNode_of_map_eq
  · rw [content i here, fragment, root]
  · exact unfolded.congr fun j member => children j (known j member)
  · exact holds.unfolds
  · rw [children i here, tops]
  · exact holds.tops
  · rw [kept, contents, Parsed.normal_nodes, shape]

theorem conclude_of_complete (s : Store) (goal : Goal) (p : Parse)
    (complete : p.ending = some .complete) :
    (conclude s goal p).result = .ok (s.ofParsed (rootContent goal) (p.result goal)).1 ∧
      (conclude s goal p).store = (s.ofParsed (rootContent goal) (p.result goal)).2 := by
  rw [conclude, complete]
  exact ⟨rfl, rfl⟩

theorem parseFragment_standard (s : Store) (text : String) :
    parseFragment .standard s (some (.text text)) none =
      conclude s (.fragment "div") (Parse.ofText ⟨false, .html⟩ (.fragment "div") none text.toList) :=
  rfl

/-- A fragment that holds stable trees is written as markup that is parsed into an equal one. -/
theorem parseFragment_stringify (s : Store) (i : NodeId) (f : Forest NodeId)
    (fragment : s.content i = .fragment) (tops : s.children i = f.tops) (unfolded : s.Unfolds f)
    (linked : s.LinkedTo (some i) f) (stable : Stable false (f.map s.content)) :
    ∃ text j, stringify .standard s i = .ok text ∧
      (parseFragment .standard s (some (.text text)) none).result = .ok j ∧
      (parseFragment .standard s (some (.text text)) none).store.isEqualNode i j = true := by
  obtain ⟨complete, shape⟩ := forest_of_written stable
  obtain ⟨result, store⟩ := conclude_of_complete s (.fragment "div") _ complete
  have parsed := parseFragment_standard s (String.ofList (write false (f.map s.content)))
  rw [String.toList_ofList] at parsed
  rw [← parsed] at result store
  refine ⟨_, _, stringify_stable s i f fragment tops unfolded linked stable, result, ?_⟩
  rw [store]
  exact isEqualNode_ofParsed s i f fragment tops unfolded (lt_size_of_stable stable) _ shape

def quotedMarkup : Store :=
  ⟨#[⟨.fragment, none, [1, 4, 5]⟩,
    ⟨.element "p" (some htmlNamespace) [⟨"title", "\"&amp;"⟩], some 0, [2, 3]⟩,
    ⟨.text (some "<b> &lt;"), some 1, []⟩, ⟨.element "br" (some htmlNamespace) [], some 1, []⟩,
    ⟨.comment "<p>", some 0, []⟩, ⟨.element "script" (some htmlNamespace) [], some 0, [6]⟩,
    ⟨.text (some "a<b"), some 5, []⟩]⟩

def quotedTrees : Forest NodeId :=
  .cons 1 (.cons 2 .nil (.cons 3 .nil .nil)) (.cons 4 .nil (.cons 5 (.cons 6 .nil .nil) .nil))

example : stringify .standard quotedMarkup 0 = .ok
    "<p title=\"&quot;&amp;amp;\">&lt;b&gt; &amp;lt;<br></p><!--<p>--><script>a<b</script>" := rfl

theorem stable_quotedTrees : Stable false (quotedTrees.map quotedMarkup.content) := by
  have title : StableAttrs [⟨"title", "\"&amp;"⟩] := by
    refine ⟨by decide, ?_, ?_⟩
    · rintro a (_ | ⟨_, ⟨⟩⟩)
      exact isAttrName_of_all rfl rfl rfl
    · rintro a (_ | ⟨_, ⟨⟩⟩)
      exact intact_of_all rfl
  have bare : StableAttrs [] :=
    ⟨by decide, (fun _ absurd => nomatch absurd), (fun _ absurd => nomatch absurd)⟩
  have comment : StableComment "<p>" :=
    ⟨intact_of_all rfl, by decide +kernel, by decide +kernel, by decide +kernel⟩
  have script : StableRaw "a<b" := ⟨intact_of_all rfl, by decide +kernel, by decide +kernel⟩
  refine .nest .paragraph title ?_ (.comment comment (.raw (Or.inl rfl) bare
    (Or.inr ⟨_, by decide, script, rfl⟩) (.nil _)))
  exact .text (by decide) (intact_of_all rfl) (by rintro c ⟨⟩; rfl)
    (.void (.line _) bare (.nil _))

theorem parseFragment_quotedMarkup :
    quotedMarkup.content 0 = .fragment ∧ quotedMarkup.children 0 = quotedTrees.tops ∧
      quotedMarkup.Unfolds quotedTrees ∧ quotedMarkup.LinkedTo (some 0) quotedTrees ∧
      Stable false (quotedTrees.map quotedMarkup.content) ∧
      ∃ text j, stringify .standard quotedMarkup 0 = .ok text ∧
        (parseFragment .standard quotedMarkup (some (.text text)) none).result = .ok j ∧
        (parseFragment .standard quotedMarkup (some (.text text)) none).store.isEqualNode 0 j =
          true := by
  have unfolded : quotedMarkup.Unfolds quotedTrees :=
    ⟨rfl, ⟨rfl, trivial, rfl, trivial, trivial⟩, rfl, trivial, rfl, ⟨rfl, trivial, trivial⟩, trivial⟩
  have linked : quotedMarkup.LinkedTo (some 0) quotedTrees :=
    ⟨rfl, ⟨rfl, trivial, rfl, trivial, trivial⟩, rfl, trivial, rfl, ⟨rfl, trivial, trivial⟩, trivial⟩
  exact ⟨rfl, rfl, unfolded, linked, stable_quotedTrees,
    parseFragment_stringify quotedMarkup 0 quotedTrees rfl rfl unfolded linked stable_quotedTrees⟩

end Store

end HtmlTree
