import ComponentCompiler.Proofs.Expression.Printing
import ComponentCompiler.Proofs.Template.Context
import ComponentCompiler.Proofs.Template.Evaluation

namespace ComponentCompiler.Template

open Expression (Path Prints eval holds isBlank_eq_false_of_isNamePart isName keyword?
  keyword?_eq_some parse stripBraces trueText words)
open Markup (Attribute)
open Text (dropWhile_append_of_stops isBlank trim trimEnd_append)

variable {context : Context}

theorem stripBraces_chars (w : WrittenPlaceholder) : stripBraces w.chars = w.path.chars := by
  obtain ⟨before, after⟩ := List.forall_mem_append.1 w.blank
  let inside := w.before ++ (w.path.chars ++ w.after)
  have text : w.chars = '\x7b' :: (inside ++ ['\x7d']) := by
    simp [WrittenPlaceholder.chars, inside]
  have whole : trim w.chars = w.chars := by
    have ends : ∀ c ∈ w.chars.getLast?, isBlank c = false := fun c last => by
      rw [text, ← List.cons_append, List.getLast?_concat] at last
      cases last
      decide
    have start : Text.trimStart w.chars = w.chars :=
      List.dropWhile_cons_of_neg (by decide)
    have kept := trimEnd_append ends (List.forall_mem_nil _)
    rwa [List.append_nil, ← start] at kept
  have path : trim inside = w.path.chars := by
    have solid : ∀ c ∈ w.path.chars.getLast?, isBlank c = false := fun c last => by
      rcases Path.mem_chars (List.mem_of_getLast? last) with part | rfl
      · exact isBlank_eq_false_of_isNamePart part
      · decide
    have start : Text.trimStart inside = w.path.chars ++ w.after :=
      dropWhile_append_of_stops before (stops_isBlank_chars w.path w.after)
    rw [trim, start]
    exact trimEnd_append solid after
  rw [stripBraces, whole, text]
  simp [path]

theorem holds_text {w : WrittenPlaceholder} {e : Expression.Expr} (prints : Prints e w.path.tokens) :
    holds w.text context = (eval context e).isTruthy := by
  have inside : String.ofList (stripBraces w.text.toList) = w.path.text := by
    rw [WrittenPlaceholder.text, String.toList_ofList, stripBraces_chars, ← Path.toList_text,
      String.ofList_toList]
  rw [holds, inside, Path.parse_text prints]

theorem eval_path (context : Context) (p : Path) : eval context (.path p.segments) =
    match context.get? p.key with
    | some v => .string v
    | none => .null := by
  rw [eval, Expression.pathValue, p.pathKey?_segments]
  rfl

theorem keyword?_text {p : Path} (free : keyword? p.first = none) : keyword? p.text = none := by
  cases known : keyword? p.text with
  | none => rfl
  | some v => rw [← free, ← Path.text_eq_first (Path.more_eq_nil_of_keyword? known), known]

theorem interpolate_text_of_free {w : WrittenPlaceholder} (free : keyword? w.path.text = none) :
    interpolate context w.text = (context.get? w.path.key).getD "" := by
  rw [interpolate_text]
  exact if_neg (by simp [free])

theorem holds_text_iff {w : WrittenPlaceholder} (free : keyword? w.path.first = none) :
    holds w.text context = true ↔ interpolate context w.text = trueText := by
  rw [holds_text (.path w.path free), eval_path, interpolate_text_of_free (keyword?_text free)]
  cases context.get? w.path.key with
  | none => decide
  | some v => exact decide_eq_true_iff

def braced (s : String) : String :=
  "\x7b" ++ s ++ "\x7d"

theorem text_eq_braced (p : Path) : ({ path := p } : WrittenPlaceholder).text = braced p.text := by
  rw [← String.toList_inj, WrittenPlaceholder.text, String.toList_ofList, braced,
    String.toList_append, String.toList_append, Path.toList_text]
  rfl

/-- Paths that a directive can read: no word stands before a further name. -/
def Readable (p : Path) : Prop :=
  p.more = [] ∨ keyword? p.first = none

theorem Readable.free {p : Path} (readable : Readable p) (free : keyword? p.text = none) :
    keyword? p.first = none := by
  rcases readable with single | free
  · rwa [← Path.text_eq_first single]
  · exact free

theorem holds_braced_of_keyword? {p : Path} {v : Expression.Value}
    (known : keyword? p.text = some v) :
    holds (braced p.text) context = true ↔ interpolate context (braced p.text) = trueText := by
  have single := Path.more_eq_nil_of_keyword? known
  have prints : Prints (.literal v) p.tokens := by
    rw [Path.text_eq_first single] at known
    rw [Path.tokens, single]
    exact .word known
  have same : ∀ w ∈ words, w.2.isTruthy = true ↔ braced w.1 = trueText := by decide
  have image : interpolate context (braced p.text) = braced p.text := by
    rw [← text_eq_braced, interpolate_text]
    exact if_pos (by simp [known])
  rw [image, ← same _ (keyword?_eq_some.1 known), ← text_eq_braced,
    holds_text (w := { path := p }) prints]
  rfl

theorem holds_braced_iff {p : Path} (readable : Readable p) :
    holds (braced p.text) context = true ↔ interpolate context (braced p.text) = trueText := by
  cases known : keyword? p.text with
  | some v => exact holds_braced_of_keyword? known
  | none =>
    rw [← text_eq_braced]
    exact holds_text_iff (w := { path := p }) (readable.free known)

theorem isDirective_of_settle {attributes : List Attribute} {name value : String}
    (inEffect : Attribute.get? (settle context attributes) name = some value) :
    isDirective name = false := by
  have plain : Undirected "" (settle context attributes) := undirected_settle "" attributes
  obtain ⟨noIf, noDelIf⟩ := plain
  rw [isDirective, Bool.or_eq_false_iff, decide_eq_false_iff_not, decide_eq_false_iff_not]
  constructor
  · rintro rfl
    rw [Attribute.get?_eq_none.2 noIf] at inEffect
    cases inEffect
  · rintro rfl
    rw [Attribute.get?_eq_none.2 noDelIf] at inEffect
    cases inEffect

theorem get?_site {attributes : List Attribute} {name value : String}
    (inEffect : Attribute.get? (settle context attributes) name = some value) :
    (Context.ofAttributes ((settle context attributes).map (interpolateAttribute context))).get?
      name = some (interpolate context value) := by
  rw [Context.get?_ofAttributes, get?_interpolate (isDirective_of_settle inEffect), inEffect]
  rfl

theorem holds_forwarded_iff {attributes : List Attribute} {name : String} {p : Path}
    (readable : Readable p) (named : isName name.toList = true) (free : keyword? name = none)
    (forwarded : Attribute.get? (settle context attributes) name = some (braced p.text)) :
    holds (braced name)
        (.ofAttributes ((settle context attributes).map (interpolateAttribute context))) = true ↔
      holds (braced p.text) context = true := by
  let k : Path := ⟨name, [], by simpa using named⟩
  have text : k.text = name := Path.text_eq_first rfl
  have key : k.key = name := Path.key_eq_first rfl
  have arrives := get?_site forwarded
  rw [← text, holds_braced_iff (p := k) (.inl rfl), holds_braced_iff readable, ← text_eq_braced,
    interpolate_text_of_free (w := { path := k }) (by rwa [text]), key, arrives]
  rfl

/-- A directive and a placeholder find the same value for a path, so a value can be passed on in an
attribute and decide in the nested body.  What is passed on is what stands in the attribute when the
directives of its own element have been carried out. -/
theorem paths_alike (context : Context) {p : Path} (readable : Readable p) :
    (holds (braced p.text) context = true ↔ interpolate context (braced p.text) = trueText) ∧
    (keyword? p.text = none → parse p.text = .ok (.path p.segments) ∧
      (∀ v, context.get? p.key = some v → interpolate context (braced p.text) = v ∧
        eval context (.path p.segments) = .string (interpolate context (braced p.text))) ∧
      (context.get? p.key = none → interpolate context (braced p.text) = "" ∧
        eval context (.path p.segments) = .null)) ∧
    ∀ (name : String) (attributes : List Attribute), isName name.toList = true →
      keyword? name = none →
      Attribute.get? (settle context attributes) name = some (braced p.text) →
      (holds (braced name)
          (.ofAttributes ((settle context attributes).map (interpolateAttribute context))) = true ↔
        holds (braced p.text) context = true) := by
  refine ⟨holds_braced_iff readable, fun free => ?_, fun name attributes named notWord forwarded =>
    holds_forwarded_iff readable named notWord forwarded⟩
  have image : interpolate context (braced p.text) = (context.get? p.key).getD "" := by
    rw [← text_eq_braced]
    exact interpolate_text_of_free (w := { path := p }) free
  refine ⟨Path.parse_text (.path p (readable.free free)), fun v known => ?_, fun unknown => ?_⟩
  · rw [image, eval_path, known]
    exact ⟨rfl, rfl⟩
  · rw [image, eval_path, unknown]
    exact ⟨rfl, rfl⟩

theorem paths_alike_shown :
    let context : Context := ⟨[("open", trueText)]⟩
    let p : Path := ⟨"ctx", ["open"], by decide⟩
    let missing : Path := ⟨"a-b", [], by decide⟩
    let attributes : List Attribute := [⟨"if", "false"⟩, ⟨"shown", braced p.text⟩]
    (Readable p ∧ keyword? p.text = none ∧ context.get? p.key = some trueText) ∧
    (Readable missing ∧ keyword? missing.text = none ∧ context.get? missing.key = none) ∧
    (isName "shown".toList = true ∧ keyword? "shown" = none ∧
      Attribute.get? (settle context attributes) "shown" = some (braced p.text)) ∧
    eval context (.path p.segments) = .string trueText ∧
    eval context (.path missing.segments) = .null ∧
    holds (braced "shown")
      (.ofAttributes ((settle context attributes).map (interpolateAttribute context))) = true := by
  intro context p missing attributes
  have readable : Readable p := .inr (by decide)
  have free : keyword? p.text = none := by decide
  have known : context.get? p.key = some trueText := by decide
  have readable' : Readable missing := .inl rfl
  have free' : keyword? missing.text = none := by decide
  have unknown : context.get? missing.key = none := by decide
  have named : isName "shown".toList = true := by decide
  have notWord : keyword? "shown" = none := by decide
  have forwarded : Attribute.get? (settle context attributes) "shown" = some (braced p.text) := by
    decide
  obtain ⟨same, reading, passed⟩ := paths_alike context readable
  obtain ⟨-, value, -⟩ := reading free
  obtain ⟨image, evaluated⟩ := value trueText known
  obtain ⟨-, -, nothing⟩ := (paths_alike context readable').2.1 free'
  rw [image] at evaluated
  exact ⟨⟨readable, free, known⟩, ⟨readable', free', unknown⟩, ⟨named, notWord, forwarded⟩,
    evaluated, (nothing unknown).2, (passed "shown" attributes named notWord forwarded).2
      (same.2 image)⟩

end ComponentCompiler.Template
