import ComponentCompiler.Proofs.Expression.Path
import ComponentCompiler.Template.Interpolation
import Mathlib.Data.List.Infix

namespace ComponentCompiler.Template

open Expression (Path isBlank_eq_false_of_isNamePart isName isName_iff isNamePart
  isNamePart_eq_false_of_isBlank isNamePart_of_isNameStart isNameStart keyword?)
open Text (Keeps Stops dropWhile_append_of_stops isBlank substitute_append substitute_copied
  substitute_found takeWhile_append_of_stops trimStart)

structure WrittenPlaceholder where
  before : List Char := []
  path : Path
  after : List Char := []
  blank : ∀ c ∈ before ++ after, isBlank c = true := by simp

namespace WrittenPlaceholder

variable {context : Context}

def chars (w : WrittenPlaceholder) : List Char :=
  '\x7b' :: (w.before ++ (w.path.chars ++ (w.after ++ ['\x7d'])))

def text (w : WrittenPlaceholder) : String :=
  String.ofList w.chars

/-- What is filled in: a word stays as it is written, and a name that the context does not have
leaves nothing. -/
def image (context : Context) (w : WrittenPlaceholder) : String :=
  if (keyword? w.path.text).isSome then w.text else (context.get? w.path.key).getD ""

def found (w : WrittenPlaceholder) : Placeholder :=
  ⟨w.path.segments.map String.toList, w.chars.length⟩

theorem image_found (w : WrittenPlaceholder) :
    w.found.image w.chars context = (w.image context).toList := by
  have names : (w.path.segments.map String.toList).map String.ofList = w.path.segments := by
    simp [Function.comp_def]
  have key := w.path.pathKey?_segments
  rw [found, Placeholder.image, image, apply_ite String.toList, text, String.toList_ofList]
  dsimp only
  rw [names]
  cases further : w.path.more with
  | nil =>
    rw [Path.segments, further, Path.text_eq_first further, Path.key_eq_first further]
  | cons s more =>
    have free : keyword? w.path.text = none := by
      cases known : keyword? w.path.text with
      | none => rfl
      | some v => simp [Path.more_eq_nil_of_keyword? known] at further
    rw [Path.segments, further] at key ⊢
    simp [key, free]

end WrittenPlaceholder

/-- What may follow a path: neither a dot nor a further character of a name. -/
def EndsPath (rest : List Char) : Prop :=
  Stops (fun c => isNamePart c || c = '.') rest

theorem dottedPath?_name {name rest : List Char} (bound : Nat) (named : isName name = true)
    (ends : EndsPath rest) : dottedPath? (bound + 1) (name ++ rest) = some ([name], rest) := by
  obtain ⟨c, cs, rfl, start, parts⟩ := isName_iff.1 named
  have stops : Stops isNamePart rest := fun c first => (Bool.or_eq_false_iff.1 (ends c first)).1
  rw [List.cons_append, dottedPath?, if_pos start, takeWhile_append_of_stops parts stops,
    dropWhile_append_of_stops parts stops]
  dsimp only
  split
  · simp [EndsPath, Stops] at ends
  · rfl

theorem dottedPath?_name_dot {name cs rest : List Char} {bound : Nat} {segments : List (List Char)}
    (named : isName name = true) (further : dottedPath? bound cs = some (segments, rest)) :
    dottedPath? (bound + 1) (name ++ '.' :: cs) = some (name :: segments, rest) := by
  obtain ⟨c, more, rfl, start, parts⟩ := isName_iff.1 named
  have stops : Stops isNamePart ('.' :: cs) := fun c first => by cases first; decide
  rw [List.cons_append, dottedPath?, if_pos start, takeWhile_append_of_stops parts stops,
    dropWhile_append_of_stops parts stops]
  simp only [further]

theorem dottedPath?_append {first : String} {more : List String} {rest : List Char} {bound : Nat}
    (named : ∀ s ∈ first :: more, isName s.toList = true) (ends : EndsPath rest)
    (enough : more.length < bound) :
    dottedPath? bound (first.toList ++ (Path.moreChars more ++ rest)) =
      some ((first :: more).map String.toList, rest) := by
  obtain ⟨bound, rfl⟩ := Nat.exists_eq_add_of_lt enough
  rw [List.forall_mem_cons] at named
  induction more generalizing first bound with
  | nil => exact dottedPath?_name _ named.1 ends
  | cons s more ih =>
    have further := ih (List.forall_mem_cons.1 named.2) bound (by omega)
    rw [Path.moreChars, List.flatMap_cons, List.append_assoc, List.cons_append]
    rw [Path.moreChars] at further
    rw [List.length_cons, Nat.add_right_comm _ 1 bound]
    exact dottedPath?_name_dot named.1 further

theorem exists_name {c : Char} (start : isNameStart c = true) (cs : List Char) :
    ∃ named : isName (c :: cs.takeWhile isNamePart) = true,
      c :: cs = (Path.single _ named).chars ++ cs.dropWhile isNamePart := by
  refine ⟨isName_iff.2 ⟨c, _, rfl, start, List.all_eq_true.1 List.all_takeWhile⟩, ?_⟩
  rw [Path.chars_single, List.cons_append, List.takeWhile_append_dropWhile]

theorem exists_of_dottedPath? {bound : Nat} {cs rest : List Char} {path : List (List Char)}
    (found : dottedPath? bound cs = some (path, rest)) :
    ∃ p : Path, path = p.segments.map String.toList ∧ cs = p.chars ++ rest := by
  fun_induction dottedPath? bound cs generalizing path rest with
  | case1 => cases found
  | case2 => cases found
  | case3 bound c cs start segment after more dotted segments rest' =>
    rename_i further ih
    cases found
    obtain ⟨p, rfl, rfl⟩ := ih further
    obtain ⟨named, parts⟩ := exists_name start cs
    refine ⟨.qualified _ named p, by simp [Path.qualified, Path.segments, segment], ?_⟩
    rw [parts, show cs.dropWhile isNamePart = _ from dotted, Path.chars_single,
      Path.chars_qualified, List.append_assoc]
    rfl
  | case4 bound c cs start segment =>
    cases found
    obtain ⟨named, parts⟩ := exists_name start cs
    exact ⟨.single _ named, by simp [Path.single, Path.segments, segment], parts⟩
  | case5 bound c cs start segment =>
    cases found
    obtain ⟨named, parts⟩ := exists_name start cs
    exact ⟨.single _ named, by simp [Path.single, Path.segments, segment], parts⟩
  | case6 => cases found

theorem length_more_lt (p : Path) : p.more.length < p.chars.length := by
  obtain ⟨c, cs, front, -, -⟩ := isName_iff.1 (p.named _ List.mem_cons_self)
  have first : 0 < p.first.toList.length := by rw [front]; exact Nat.succ_pos _
  have more : p.more.length ≤ (Path.moreChars p.more).length := by
    induction p.more with
    | nil => exact Nat.zero_le _
    | cons s more ih =>
      rw [Path.moreChars, List.flatMap_cons, ← Path.moreChars, List.length_append, List.length_cons,
        List.length_cons]
      omega
  rw [Path.chars, List.length_append]
  omega

theorem dottedPath?_chars (p : Path) {rest : List Char} (ends : EndsPath rest) {bound : Nat}
    (enough : p.chars.length ≤ bound) :
    dottedPath? bound (p.chars ++ rest) = some (p.segments.map String.toList, rest) := by
  rw [Path.chars, List.append_assoc]
  exact dottedPath?_append p.named ends (Nat.lt_of_lt_of_le (length_more_lt p) enough)

theorem endsPath_closing {gap : List Char} (blank : ∀ c ∈ gap, isBlank c = true)
    (rest : List Char) : EndsPath (gap ++ '\x7d' :: rest) := by
  refine Text.stops_append_cons (fun c member => ?_) (by decide)
  have dot : c ≠ '.' := Text.ne_of_holds (blank c member) (by decide)
  simp [isNamePart_eq_false_of_isBlank (blank c member), dot]

theorem stops_isBlank_chars (p : Path) (rest : List Char) : Stops isBlank (p.chars ++ rest) := by
  obtain ⟨c, cs, front, start, -⟩ := isName_iff.1 (p.named _ List.mem_cons_self)
  intro d first
  rw [Path.chars, front] at first
  cases first
  exact isBlank_eq_false_of_isNamePart (isNamePart_of_isNameStart start)

theorem placeholder?_append (w : WrittenPlaceholder) (rest : List Char) :
    placeholder? (w.chars ++ rest) = some w.found := by
  obtain ⟨before, after⟩ := List.forall_mem_append.1 w.blank
  let closing := w.after ++ '\x7d' :: rest
  have text : w.chars ++ rest = '\x7b' :: (w.before ++ (w.path.chars ++ closing)) := by
    simp [WrittenPlaceholder.chars, closing]
  have path : trimStart (w.before ++ (w.path.chars ++ closing)) = w.path.chars ++ closing :=
    dropWhile_append_of_stops before (stops_isBlank_chars w.path closing)
  have dotted : dottedPath? (w.path.chars ++ closing).length (w.path.chars ++ closing) =
      some (w.path.segments.map String.toList, closing) :=
    dottedPath?_chars w.path (endsPath_closing after rest)
      (by rw [List.length_append]; exact Nat.le_add_right _ _)
  have brace : trimStart closing = '\x7d' :: rest :=
    dropWhile_append_of_stops after fun c first => by cases first; decide
  have length : (w.before ++ (w.path.chars ++ closing)).length + 1 - rest.length =
      w.chars.length := by
    rw [← List.length_cons, ← text, List.length_append, Nat.add_sub_cancel_right]
  rw [text, placeholder?, path]
  simp only [dotted, brace, length]
  rfl

theorem exists_of_placeholder? {cs : List Char} {p : Placeholder}
    (found : placeholder? cs = some p) :
    ∃ (w : WrittenPlaceholder) (rest : List Char), cs = w.chars ++ rest := by
  unfold placeholder? at found
  split at found
  next cs =>
    dsimp only at found
    split at found
    next path rest dotted =>
      split at found
      next after closed =>
        obtain ⟨p, -, inner⟩ := exists_of_dottedPath? dotted
        have blank : ∀ c ∈ cs.takeWhile isBlank ++ rest.takeWhile isBlank, isBlank c = true :=
          List.forall_mem_append.2
            ⟨List.all_eq_true.1 List.all_takeWhile, List.all_eq_true.1 List.all_takeWhile⟩
        have parts : cs = cs.takeWhile isBlank ++ trimStart cs :=
          List.takeWhile_append_dropWhile.symm
        have parts' : rest = rest.takeWhile isBlank ++ trimStart rest :=
          List.takeWhile_append_dropWhile.symm
        rw [inner, parts', closed] at parts
        refine ⟨⟨cs.takeWhile isBlank, p, rest.takeWhile isBlank, blank⟩, after, ?_⟩
        exact (congrArg ('\x7b' :: ·) parts).trans (by simp [WrittenPlaceholder.chars])
      next => cases found
    next => cases found
  next => cases found

def placeholderMatch (context : Context) (_before : Option Char) (ahead : List Char) :
    Option Text.Match :=
  (placeholder? ahead).map fun p => (p.length, p.image (ahead.take p.length) context)

section Filling

variable (context : Context) (before : Option Char)

theorem placeholderMatch_append (w : WrittenPlaceholder) (rest : List Char) :
    placeholderMatch context before (w.chars ++ rest) =
      some (w.chars.length, (w.image context).toList) := by
  rw [placeholderMatch, placeholder?_append, Option.map_some, ← w.image_found]
  congr 3
  exact List.take_left

theorem exists_of_placeholderMatch {cs : List Char} {found : Text.Match}
    (matched : placeholderMatch context before cs = some found) :
    ∃ (w : WrittenPlaceholder) (rest : List Char), cs = w.chars ++ rest ∧
      found = (w.chars.length, (w.image context).toList) := by
  obtain ⟨p, placed, rfl⟩ := Option.map_eq_some_iff.1 matched
  obtain ⟨w, rest, rfl⟩ := exists_of_placeholder? placed
  have same := placeholderMatch_append context before w rest
  exact ⟨w, rest, rfl, Option.some.inj (matched.symm.trans same)⟩

theorem interpolateChars_chars (w : WrittenPlaceholder) :
    interpolateChars context w.chars = (w.image context).toList := by
  have chars := substitute_found (List.cons_ne_nil _ _) (placeholderMatch_append context none w [])
  rw [List.append_nil] at chars
  exact chars.trans (List.append_nil _)

theorem interpolateChars_of_none {cs : List Char}
    (none : ∀ w : WrittenPlaceholder, ¬ w.chars <:+: cs) : interpolateChars context cs = cs := by
  have unmatched : ∀ suffix, suffix <:+ cs → suffix ≠ [] →
      placeholderMatch context .none (suffix ++ []) = .none := fun suffix isSuffix _ => by
    rw [Option.eq_none_iff_forall_ne_some]
    intro found matched
    obtain ⟨w, rest, parts, -⟩ := exists_of_placeholderMatch context .none matched
    rw [List.append_nil] at parts
    exact none w ((parts ▸ (List.prefix_append _ _).isInfix).trans isSuffix.isInfix)
  have copied := substitute_copied cs unmatched
  rw [List.append_nil] at copied
  exact copied.trans (List.append_nil _)

end Filling

def isBrace (c : Char) : Bool :=
  c = '\x7b' || c = '\x7d'

theorem isBrace_eq_false {p : Char → Bool} {c : Char} (holds : p c = true)
    (opening : p '\x7b' = false) (closing : p '\x7d' = false) : isBrace c = false := by
  simp [isBrace, Text.ne_of_holds holds opening, Text.ne_of_holds holds closing]

theorem filter_isBrace_chars (w : WrittenPlaceholder) :
    w.chars.filter isBrace = ['\x7b', '\x7d'] := by
  have gap : ∀ c ∈ w.before ++ w.after, isBrace c = false := fun c member =>
    isBrace_eq_false (w.blank c member) (by decide) (by decide)
  have path : ∀ c ∈ w.path.chars, isBrace c = false := fun c member => by
    rcases Path.mem_chars member with part | rfl
    · exact isBrace_eq_false part (by decide) (by decide)
    · decide
  have none {cs : List Char} (outside : ∀ c ∈ cs, isBrace c = false) : cs.filter isBrace = [] := by
    simpa [List.filter_eq_nil_iff] using outside
  obtain ⟨before, after⟩ := List.forall_mem_append.1 gap
  simp [WrittenPlaceholder.chars, none before, none path, none after, isBrace]

theorem braces_of_cut {w : WrittenPlaceholder} {xs ys : List Char} (cut : w.chars = xs ++ ys)
    (left : xs ≠ []) (right : ys ≠ []) :
    xs.filter isBrace = ['\x7b'] ∧ ys.filter isBrace = ['\x7d'] := by
  obtain ⟨x, xs, rfl⟩ := List.exists_cons_of_ne_nil left
  obtain ⟨ys, y, rfl⟩ := (List.eq_nil_or_concat' ys).resolve_left right
  have opens : x = '\x7b' := (List.cons.inj cut).1.symm
  have closes : y = '\x7d' := by
    have last : ('\x7b' :: (w.before ++ (w.path.chars ++ w.after))) ++ ['\x7d'] =
        (x :: xs ++ ys) ++ [y] := by simpa [WrittenPlaceholder.chars] using cut
    exact (List.singleton_inj.1 (List.append_inj' last rfl).2).symm
  subst opens closes
  -- These two are all the braces of the placeholder.
  have both := filter_isBrace_chars w
  rw [cut] at both
  have inner : (xs ++ ys).filter isBrace = [] := by
    have count := congrArg List.length both
    simp only [List.filter_append, List.filter_cons_of_pos (show isBrace '\x7b' = true by decide),
      List.length_append, List.length_cons, List.filter_nil, List.length_nil,
      List.filter_cons_of_pos (show isBrace '\x7d' = true by decide)] at count
    rw [← List.length_eq_zero_iff, List.filter_append, List.length_append]
    omega
  rw [List.filter_append, List.append_eq_nil_iff] at inner
  rw [List.filter_append, inner.2, List.filter_cons_of_pos (by decide), inner.1]
  exact ⟨rfl, rfl⟩

section Parts

variable {context : Context} {xs ys : List Char}

theorem keeps_placeholderMatch (nonempty : xs ≠ [])
    (apart : ¬ ((xs.filter isBrace).getLast? = some '\x7b' ∧
      (ys.filter isBrace).head? = some '\x7d')) : Keeps (placeholderMatch context none) xs ys := by
  cases here : placeholderMatch context none xs with
  | some found =>
    obtain ⟨w, rest, rfl, rfl⟩ := exists_of_placeholderMatch context none here
    refine ⟨?_, fun found matched => ?_⟩
    · rw [here, List.append_assoc, placeholderMatch_append]
    · rw [here] at matched
      cases matched
      simp
  | none =>
    refine ⟨?_, by simp [here]⟩
    rw [here, Option.eq_none_iff_forall_ne_some]
    intro found matched
    obtain ⟨w, rest, parts, -⟩ := exists_of_placeholderMatch context none matched
    rcases List.append_eq_append_iff.1 parts with ⟨cut, text, rfl⟩ | ⟨inside, rfl, -⟩
    · -- The placeholder reaches into the second text, unless it ends where the first one does.
      cases cut with
      | nil =>
        have whole := placeholderMatch_append context none w []
        rw [text, List.append_nil, List.append_nil, here] at whole
        cases whole
      | cons c cut =>
        obtain ⟨left, right⟩ := braces_of_cut text nonempty (List.cons_ne_nil c cut)
        exact apart ⟨by rw [left]; rfl, by rw [List.filter_append, right]; rfl⟩
    · rw [placeholderMatch_append] at here
      cases here

theorem interpolateChars_append
    (apart : ¬ ((xs.filter isBrace).getLast? = some '\x7b' ∧
      (ys.filter isBrace).head? = some '\x7d')) :
    interpolateChars context (xs ++ ys) =
      interpolateChars context xs ++ interpolateChars context ys := by
  have keeps : ∀ suffix, suffix <:+ xs → suffix ≠ [] →
      Keeps (placeholderMatch context none) suffix ys := fun suffix isSuffix nonempty => by
    refine keeps_placeholderMatch nonempty fun cut => apart ⟨?_, cut.2⟩
    obtain ⟨front, rfl⟩ := isSuffix
    rw [List.filter_append, List.getLast?_append, cut.1, Option.some_or]
  exact substitute_append xs keeps

theorem interpolateChars_around (xs ys : List Char) (w : WrittenPlaceholder) :
    interpolateChars context (xs ++ (w.chars ++ ys)) =
      interpolateChars context xs ++ ((w.image context).toList ++ interpolateChars context ys) := by
  rw [interpolateChars_append, interpolateChars_append, interpolateChars_chars]
  · simp [filter_isBrace_chars]
  · simp [filter_isBrace_chars]

theorem suffix_interpolateChars (unopened : '\x7b' ∉ ys) (unclosed : '\x7d' ∉ ys)
    {cs : List Char} (ends : ys <:+ cs) : ys <:+ interpolateChars context cs := by
  obtain ⟨start, rfl⟩ := ends
  have plain : ys.filter isBrace = [] := by
    rw [List.filter_eq_nil_iff]
    intro c member brace
    rw [isBrace, Bool.or_eq_true, decide_eq_true_eq, decide_eq_true_eq] at brace
    rcases brace with rfl | rfl
    · exact unopened member
    · exact unclosed member
  rw [interpolateChars_append (by simp [plain]), interpolateChars_of_none context fun w inside =>
    unopened (inside.subset List.mem_cons_self)]
  exact List.suffix_append _ _

end Parts

theorem interpolate_text (context : Context) (w : WrittenPlaceholder) :
    interpolate context w.text = w.image context := by
  rw [interpolate, WrittenPlaceholder.text, String.toList_ofList, interpolateChars_chars,
    String.ofList_toList]

def braces (s : String) : List Char :=
  s.toList.filter isBrace

/-- A text is filled in part by part unless a pair of braces is cut; a text without placeholders
stays as it is, and what a placeholder leaves is not read again. -/
theorem interpolate_parts (context : Context) :
    (∀ s t, ¬ ((braces s).getLast? = some '\x7b' ∧ (braces t).head? = some '\x7d') →
      interpolate context (s ++ t) = interpolate context s ++ interpolate context t) ∧
    (∀ s, (∀ w : WrittenPlaceholder, ¬ w.chars <:+: s.toList) → interpolate context s = s) ∧
    (∀ w : WrittenPlaceholder, interpolate context w.text = w.image context) ∧
    ∀ s t (w : WrittenPlaceholder), interpolate context (s ++ w.text ++ t) =
      interpolate context s ++ w.image context ++ interpolate context t := by
  refine ⟨fun s t apart => ?_, fun s none => ?_, interpolate_text context, fun s t w => ?_⟩
  · rw [interpolate, String.toList_append, interpolateChars_append apart, String.ofList_append]
    rfl
  · rw [interpolate, interpolateChars_of_none context none, String.ofList_toList]
  · rw [interpolate, String.toList_append, String.toList_append, List.append_assoc,
      WrittenPlaceholder.text, String.toList_ofList, interpolateChars_around, ← List.append_assoc,
      String.ofList_append, String.ofList_append, String.ofList_toList]
    rfl

theorem interpolate_parts_nested :
    let context : Context := ⟨[("a", "\x7bb\x7d"), ("b", "x")]⟩
    let a : WrittenPlaceholder := { path := ⟨"a", [], by decide⟩ }
    (∀ w : WrittenPlaceholder, ¬ w.chars <:+: "\x7b".toList) ∧
    ¬ ((braces "\x7b").getLast? = some '\x7b' ∧ (braces (a.text ++ "\x7d")).head? = some '\x7d') ∧
    a.text = "\x7ba\x7d" ∧
    interpolate context ("\x7b" ++ (a.text ++ "\x7d")) =
      "\x7b" ++ interpolate context (a.text ++ "\x7d") ∧
    interpolate context ("\x7b" ++ a.text ++ "\x7d") = "\x7b\x7bb\x7d\x7d" := by
  intro context a
  obtain ⟨append, plain, -, around⟩ := interpolate_parts context
  have short {cs : List Char} (one : cs.length = 1) (w : WrittenPlaceholder) : ¬ w.chars <:+: cs :=
    fun inside => by
      have := inside.length_le
      simp only [WrittenPlaceholder.chars, List.length_cons, List.length_append] at this
      omega
  have opening := plain "\x7b" (short rfl)
  have closing := plain "\x7d" (short rfl)
  have apart : ¬ ((braces "\x7b").getLast? = some '\x7b' ∧
      (braces (a.text ++ "\x7d")).head? = some '\x7d') := by decide
  have value : a.image context = "\x7bb\x7d" := by decide
  refine ⟨short rfl, apart, by decide, ?_, ?_⟩
  · rw [append _ _ apart, opening]
  · rw [around, opening, closing, value]
    decide

end ComponentCompiler.Template
