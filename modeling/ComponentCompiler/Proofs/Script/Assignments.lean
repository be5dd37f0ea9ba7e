import ComponentCompiler.Proofs.Json.Finite
import ComponentCompiler.Proofs.Script.BareKeys
import ComponentCompiler.Proofs.Text.Words

namespace ComponentCompiler.Script

open Text (Stops after?_eq_some dropWhile_append_of_stops takeWhile_append_of_stops)

structure IsIdentifier (key : List Char) : Prop where
  starts : ∃ c ∈ key.head?, Text.isAsciiLetter c = true ∨ c = '_' ∨ c = '$'
  inside : ∀ c ∈ key, Text.isAsciiAlphanumeric c = true ∨ c = '_' ∨ c = '$' ∨ c = '-'

theorem isName_iff_isIdentifier {key : List Char} :
    Expression.isName key = true ↔ IsIdentifier key := by
  have part (c : Char) : Expression.isNamePart c = true ↔
      Text.isAsciiAlphanumeric c = true ∨ c = '_' ∨ c = '$' ∨ c = '-' := by
    simp [Expression.isNamePart, or_assoc]
  have start (c : Char) : Expression.isNameStart c = true ↔
      Text.isAsciiLetter c = true ∨ c = '_' ∨ c = '$' := by
    simp [Expression.isNameStart, or_assoc]
  constructor
  · intro named
    refine ⟨?_, fun c member => (part c).1 (Expression.isNamePart_of_isName named c member)⟩
    obtain ⟨c, rest, rfl, starts, -⟩ := Expression.isName_iff.1 named
    exact ⟨c, rfl, (start c).1 starts⟩
  · rintro ⟨⟨c, first, starts⟩, inside⟩
    obtain ⟨rest, rfl⟩ := List.head?_eq_some_iff.1 first
    exact Expression.isName_iff.2 ⟨c, rest, rfl, (start c).2 starts,
      fun d member => (part d).2 (inside d (List.mem_cons_of_mem c member))⟩

theorem isPlainKey_iff {key : List Char} :
    isPlainKey key = true ↔ IsIdentifier key ∧ '-' ∉ key := by
  rw [isPlainKey, Bool.and_eq_true, isName_iff_isIdentifier, Bool.not_eq_true',
    List.contains_eq_mem, decide_eq_false_iff_not]

section Members

variable (key : String)

theorem memberText_eq_dotted_iff : memberText key = contextName ++ '.' :: key.toList ↔
    IsIdentifier key.toList ∧ '-' ∉ key.toList := by
  rw [← isPlainKey_iff, memberText]
  split <;> simp [*]

theorem memberText_eq_bracketed_iff :
    memberText key = contextName ++ '[' :: (Json.quote key ++ [']']) ↔
      ¬(IsIdentifier key.toList ∧ '-' ∉ key.toList) := by
  rw [← isPlainKey_iff, memberText]
  split <;> simp [*]

def readMember? (cs : List Char) : Option (String × List Char) :=
  match Text.after? contextName cs with
  | some ('.' :: rest) => some (String.ofList (rest.takeWhile Expression.isNamePart),
      rest.dropWhile Expression.isNamePart)
  | some ('[' :: '"' :: rest) => do
    let (units, rest) ← Json.Raw.units? rest
    let key ← Json.string? units
    let rest ← Text.after? [']'] rest
    some (key, rest)
  | _ => none

theorem readMember?_memberText {rest : List Char} (stops : Stops Expression.isNamePart rest) :
    readMember? (memberText key ++ rest) = some (key, rest) := by
  rw [memberText]
  split
  next plain =>
    have named := (Bool.and_eq_true_iff.1 plain).1
    have parts := Expression.isNamePart_of_isName named
    rw [readMember?, List.append_assoc, after?_eq_some.2 rfl]
    simp only [List.cons_append, takeWhile_append_of_stops parts stops,
      dropWhile_append_of_stops parts stops, String.ofList_toList]
  next =>
    have inside : '[' :: (Json.quote key ++ [']']) ++ rest =
        '[' :: '"' :: (key.toList.flatMap Json.escapeChar ++ '"' :: (']' :: rest)) := by
      simp [Json.quote]
    rw [readMember?, List.append_assoc, after?_eq_some.2 rfl, inside]
    simp [Json.units?_escaped, Json.string?_toNat, Text.after?]

end Members

def lines (cs : List Char) : List (List Char) :=
  if cs = [] then [] else Text.splitAll (· = '\n') cs

theorem isVisible_memberText (key : String) :
    ∀ c ∈ memberText key, Json.isVisible c = true := by
  rw [memberText]
  split
  next plain =>
    have named := (Bool.and_eq_true_iff.1 plain).1
    have ascii : ∀ n < 0x80, Expression.isNamePart (Char.ofNat n) = true →
        Json.isVisible (Char.ofNat n) = true := by decide
    exact List.forall_mem_append.2 ⟨List.all_eq_true.1 rfl, List.forall_mem_cons.2 ⟨rfl,
      fun c member => Expression.forall_isNamePart (P := fun c => Json.isVisible c = true) ascii
        (Expression.isNamePart_of_isName named c member)⟩⟩
  next =>
    exact List.forall_mem_append.2 ⟨List.all_eq_true.1 rfl, List.forall_mem_cons.2 ⟨rfl,
      List.forall_mem_append.2 ⟨Json.isVisible_quote key, List.all_eq_true.1 rfl⟩⟩⟩

theorem isVisible_assignment (entry : String × Json.Value) :
    ∀ c ∈ assignment entry, Json.isVisible c = true := by
  have target := isVisible_memberText entry.1
  have equals : ∀ c ∈ " = ".toList, Json.isVisible c = true := List.all_eq_true.1 rfl
  have bars : ∀ c ∈ " || ".toList, Json.isVisible c = true := List.all_eq_true.1 rfl
  simp only [assignment, List.forall_mem_append]
  exact ⟨⟨⟨⟨⟨target, equals⟩, target⟩, bars⟩, Json.isVisible_text entry.2⟩, List.all_eq_true.1 rfl⟩

theorem assignment_ne_nil (entry : String × Json.Value) : assignment entry ≠ [] := by
  simp [assignment]

theorem lines_assignments (d : Defaults) : lines (assignments d) = d.map assignment := by
  have uncut (entry : String × Json.Value) : ∀ c ∈ assignment entry, decide (c = '\n') = false :=
    fun c member => decide_eq_false
      (Text.ne_of_holds (isVisible_assignment entry c member) (by decide))
  induction d with
  | nil => rfl
  | cons entry d ih =>
    cases d with
    | nil =>
      rw [assignments, List.map_cons, List.map_nil, Json.joinWith, lines,
        if_neg (assignment_ne_nil entry), Text.splitAll_of_uncut (uncut entry)]
    | cons next d =>
      have some_ : assignments (next :: d) ≠ [] := by
        intro none_
        rw [none_] at ih
        cases ih
      rw [lines, if_neg some_] at ih
      have parts : assignments (entry :: next :: d) =
          assignment entry ++ '\n' :: assignments (next :: d) := by
        rw [assignments, List.map_cons, List.map_cons, Json.joinWith_cons_cons, List.append_assoc]
        rfl
      rw [parts, lines, if_neg (by simp), Text.splitAll_append_cons rfl,
        Text.splitAll_of_uncut (uncut entry), ih]
      rfl

example : assignments [("count", .integer 12), ("data-id", .string "a\nb")] =
    "ctx.count = ctx.count || 12;\nctx[\"data-id\"] = ctx[\"data-id\"] || \"a\\nb\";".toList := by
  decide

/-- The entry of a line, when the line is an assignment that keeps what is there. -/
def readAssignment? (line : List Char) : Option (String × Json.Value) := do
  let (key, rest) ← readMember? line
  let rest ← Text.after? " = ".toList rest
  let (kept, rest) ← readMember? rest
  let rest ← Text.after? " || ".toList rest
  let (raw, rest) ← Json.Raw.value? (rest.length + 1) rest
  let value ← raw.exactValue?
  if kept = key ∧ rest = [';'] then some (key, value) else none

def readAssignments? (cs : List Char) : Option Defaults :=
  (lines cs).mapM readAssignment?

theorem readAssignment?_assignment {entry : String × Json.Value} (json : entry.2.IsJson) :
    readAssignment? (assignment entry) = some entry := by
  obtain ⟨raw, exact, read⟩ := json.readsExactly
  have equals (cs : List Char) : Stops Expression.isNamePart (" = ".toList ++ cs) := by
    rintro c ⟨⟩
    decide
  have bars (cs : List Char) : Stops Expression.isNamePart (" || ".toList ++ cs) := by
    rintro c ⟨⟩
    decide
  have after (word cs : List Char) : Text.after? word (word ++ cs) = some cs :=
    after?_eq_some.2 rfl
  have ends : Json.EndsNumber [';'] := by
    rintro c ⟨⟩
    decide
  have value := read (entry.2.text ++ [';']).length [';'] (by simp) ends
  have parts : assignment entry = memberText entry.1 ++ (" = ".toList ++
      (memberText entry.1 ++ (" || ".toList ++ (entry.2.text ++ [';'])))) := by
    simp [assignment]
  rw [parts, readAssignment?]
  simp only [readMember?_memberText _ (equals _), readMember?_memberText _ (bars _), after, value,
    exact, Option.bind_eq_bind, Option.bind_some, and_self, if_true]

theorem readAssignments?_assignments {d : Defaults} (json : ∀ entry ∈ d, entry.2.IsJson) :
    readAssignments? (assignments d) = some d := by
  rw [readAssignments?, lines_assignments]
  induction d with
  | nil => rfl
  | cons entry d ih =>
    obtain ⟨here, others⟩ := List.forall_mem_cons.1 json
    rw [List.map_cons, List.mapM_cons, readAssignment?_assignment here, ih others]
    rfl

theorem isJson_extractDefaults (cs : List Char) :
    ∀ entry ∈ (extractDefaults cs).2, entry.2.IsJson := by
  rw [extractDefaults]
  split
  next head text rest _ =>
    cases read : Json.readObject? (quoteKeys text) with
    | none => simp [readDefaults, read]
    | some members =>
      have each := Json.isJson_of_readObject? read
      simpa [readDefaults, read] using each
  next => exact List.forall_mem_nil _

theorem readAssignments?_extractDefaults (cs : List Char) :
    readAssignments? (assignments (extractDefaults cs).2) = some (extractDefaults cs).2 :=
  readAssignments?_assignments (isJson_extractDefaults cs)

/-- Each entry is one line, without a line feed or a carriage return in it: its member of the
context, named after a dot or by the JSON string of its key, keeps what is there or takes the JSON
text of the value.  The entries are read back from the lines, so no others are written the same. -/
theorem assignments_delimited (d : Defaults) :
    lines (assignments d) = d.map assignment ∧
    (∀ entry ∈ d, '\n' ∉ assignment entry ∧ '\r' ∉ assignment entry ∧ ∃ target,
      assignment entry =
        target ++ " = ".toList ++ target ++ " || ".toList ++ entry.2.text ++ [';'] ∧
      (target = contextName ++ '.' :: entry.1.toList ↔
        IsIdentifier entry.1.toList ∧ '-' ∉ entry.1.toList) ∧
      (target = contextName ++ '[' :: (Json.quote entry.1 ++ [']']) ↔
        ¬(IsIdentifier entry.1.toList ∧ '-' ∉ entry.1.toList))) ∧
    ((∀ entry ∈ d, entry.2.IsJson) → readAssignments? (assignments d) = some d ∧
      ∀ d' : Defaults, (∀ entry ∈ d', entry.2.IsJson) → assignments d' = assignments d → d' = d) := by
  refine ⟨lines_assignments d, fun entry _ => ?_, fun json => ?_⟩
  · have visible := isVisible_assignment entry
    refine ⟨fun feed => absurd (visible _ feed) (by decide),
      fun return_ => absurd (visible _ return_) (by decide), memberText entry.1, rfl,
      memberText_eq_dotted_iff entry.1, memberText_eq_bracketed_iff entry.1⟩
  · have read := readAssignments?_assignments json
    refine ⟨read, fun d' json' same => ?_⟩
    have read' := readAssignments?_assignments json'
    rw [same, read] at read'
    exact (Option.some.inj read').symm

theorem assignments_delimited_breaks :
    let tree : Json.Value :=
      .array [.float (.finite true 0 (-1074)), .object [("", .null), ("b", .bool true)]]
    let d : Defaults := [("count", .integer 0),
      ("data-id", .string "\" || 1;\nctx.x = ctx.x || 2;"), ("a\n\"] = 1;", tree)]
    (∀ entry ∈ d, entry.2.IsJson) ∧ readAssignments? (assignments d) = some d := by
  intro tree d
  have members : ∀ m ∈ [("", Json.Value.null), ("b", .bool true)], m.2.IsJson :=
    List.forall_mem_cons.2 ⟨.null, List.forall_mem_singleton.2 (.bool true)⟩
  have isTree : tree.IsJson := .array (List.forall_mem_cons.2
    ⟨.float (Number.isFinite_zero true), List.forall_mem_singleton.2 (.object members)⟩)
  have json : ∀ entry ∈ d, entry.2.IsJson := List.forall_mem_cons.2
    ⟨.integer 0, List.forall_mem_cons.2 ⟨.string _, List.forall_mem_singleton.2 isTree⟩⟩
  exact ⟨json, ((assignments_delimited d).2.2 json).1⟩

end ComponentCompiler.Script
