import ComponentCompiler.Component.Expansion
import ComponentCompiler.Proofs.Component.Keys

namespace ComponentCompiler.Component

open Markup (Node)

namespace Registry

theorem get?_insert (r : Registry) (d : Definition) (key : String) :
    (r.insert d).get? key = if key = r.keyOf d.name then some d else r.get? key :=
  Json.lookup_putMember ..

theorem get?_foldl_insert (r : Registry) (definitions : List Definition) (key : String) :
    (definitions.foldl insert r).get? key =
      (definitions.reverse.find? fun d => r.keyOf d.name == key).or (r.get? key) := by
  induction definitions generalizing r with
  | nil => rfl
  | cons d definitions ih =>
    have kept : ∀ name, (r.insert d).keyOf name = r.keyOf name := fun _ => rfl
    rw [List.foldl_cons, ih, get?_insert, List.reverse_cons, List.find?_append, Option.or_assoc,
      List.find?_singleton]
    simp only [kept, beq_iff_eq, eq_comm (a := key)]
    split <;> rfl

def tableKey (entry : String × Definition) : String :=
  normalizeKey (named entry).name "js"

theorem get?_ofTable (entries : List (String × Definition)) (key : String) :
    (ofTable entries).get? key =
      (entries.reverse.find? fun e => tableKey e == key).map named := by
  have extension : (ofExtension "js").extension = "js" := by decide
  have none_ : (ofExtension "js").get? key = none := rfl
  rw [ofTable, ofList, get?_foldl_insert, none_, Option.or_none, ← List.map_reverse,
    List.find?_map]
  simp only [keyOf, extension, tableKey, Function.comp_def]

/-- Entries with one key give one definition. -/
def IsConsistent (entries : List (String × Definition)) : Prop :=
  ∀ e ∈ entries, ∀ e' ∈ entries, tableKey e = tableKey e' → named e = named e'

theorem IsConsistent.get?_ofTable_eq_some {entries : List (String × Definition)}
    (consistent : IsConsistent entries) {key : String} {d : Definition} :
    (ofTable entries).get? key = some d ↔ ∃ e ∈ entries, tableKey e = key ∧ named e = d := by
  rw [get?_ofTable, Option.map_eq_some_iff]
  constructor
  · rintro ⟨e, found, same⟩
    have atKey := List.find?_some found
    rw [beq_iff_eq] at atKey
    exact ⟨e, List.mem_reverse.1 (List.mem_of_find?_eq_some found), atKey, same⟩
  · rintro ⟨e, member, atKey, same⟩
    have some_ : (entries.reverse.find? fun e => tableKey e == key).isSome = true :=
      List.find?_isSome.2 ⟨e, List.mem_reverse.2 member, beq_iff_eq.2 atKey⟩
    obtain ⟨e', found⟩ := Option.isSome_iff_exists.1 some_
    have atKey' := List.find?_some found
    rw [beq_iff_eq] at atKey'
    have member' := List.mem_reverse.1 (List.mem_of_find?_eq_some found)
    have sameKey : tableKey e' = tableKey e := by rw [atKey', atKey]
    exact ⟨e', found, (consistent e' member' e member sameKey).trans same⟩

theorem get?_ofTable_concat (entries : List (String × Definition)) (e : String × Definition) :
    (ofTable (entries ++ [e])).get? (tableKey e) = some (named e) := by
  rw [get?_ofTable]
  simp

/-- Registries that give one key to each name and one definition to each key. -/
def Agree (r r' : Registry) : Prop :=
  r.extension = r'.extension ∧ ∀ key, r.get? key = r'.get? key

theorem extension_ofTable (entries : List (String × Definition)) :
    (ofTable entries).extension = "js" := by
  rw [ofTable, ofList, extension_foldl_insert]
  decide

theorem IsConsistent.agree {entries order order' : List (String × Definition)}
    (consistent : IsConsistent entries) (perm : order.Perm entries) (perm' : order'.Perm entries) :
    (ofTable order).Agree (ofTable order') := by
  have consistent_ : IsConsistent order := fun e member e' member' =>
    consistent e (perm.mem_iff.1 member) e' (perm.mem_iff.1 member')
  have consistent' : IsConsistent order' := fun e member e' member' =>
    consistent e (perm'.mem_iff.1 member) e' (perm'.mem_iff.1 member')
  refine ⟨by rw [extension_ofTable, extension_ofTable], fun key => Option.ext fun d => ?_⟩
  rw [consistent_.get?_ofTable_eq_some, consistent'.get?_ofTable_eq_some]
  simp only [perm.mem_iff, perm'.mem_iff]

theorem isConsistent_of_order {entries : List (String × Definition)}
    (same : ∀ order order', order.Perm entries → order'.Perm entries →
      (ofTable order).Agree (ofTable order')) : IsConsistent entries := by
  have last : ∀ e ∈ entries, ∃ order, (order ++ [e]).Perm entries := by
    intro e member
    obtain ⟨front, back, rfl⟩ := List.append_of_mem member
    exact ⟨front ++ back, (List.perm_append_singleton e _).trans List.perm_middle.symm⟩
  intro e member e' member' sameKey
  obtain ⟨order, perm⟩ := last e member
  obtain ⟨order', perm'⟩ := last e' member'
  have found := get?_ofTable_concat order e
  rw [(same _ _ perm perm').2, sameKey, get?_ofTable_concat] at found
  exact (Option.some.inj found).symm

end Registry

theorem Registry.Agree.keyOf {r r' : Registry} (agree : r.Agree r') (tag : String) :
    r.keyOf tag = r'.keyOf tag :=
  congrArg (normalizeKey tag) agree.1

theorem Registry.Agree.forTag? {r r' : Registry} (agree : r.Agree r') (tag : String) :
    r.forTag? tag = r'.forTag? tag := by
  rw [Registry.forTag?, Registry.forTag?, agree.2, agree.keyOf]

mutual

theorem walkNode_congr {r r' : Registry} (agree : r.Agree r') (options : Options)
    (inner : String → List Node → Pass) : ∀ (node : Node) (p : Progress),
      walkNode ⟨r, options⟩ inner node p = walkNode ⟨r', options⟩ inner node p
  | .element tag attributes children, p => by
    have children_ := funext (walk_congr agree options inner children)
    rw [walkNode, walkNode]
    simp only [agree.forTag?, agree.keyOf, children_]
  | .text _, _ => rfl
  | .comment _, _ => rfl
  | .doctype .., _ => rfl

theorem walk_congr {r r' : Registry} (agree : r.Agree r') (options : Options)
    (inner : String → List Node → Pass) : ∀ (nodes : List Node) (p : Progress),
      walk ⟨r, options⟩ inner nodes p = walk ⟨r', options⟩ inner nodes p
  | [], _ => rfl
  | node :: rest, p => by
    have rest_ := funext (walk_congr agree options inner rest)
    rw [walk, walk, walkNode_congr agree options inner node p]
    simp only [rest_]

end

theorem expandBody_congr {r r' : Registry} (agree : r.Agree r') (options : Options) (levels : Nat) :
    expandBody ⟨r, options⟩ levels = expandBody ⟨r', options⟩ levels := by
  induction levels with
  | zero => rfl
  | succ levels ih =>
    funext tag nodes p
    rw [expandBody, expandBody, ih]
    exact walk_congr agree options _ nodes p

theorem expand_congr {r r' : Registry} (agree : r.Agree r') (options : Options)
    (nodes : List Node) : expand r options nodes = expand r' options nodes := by
  have bodies : onBodies ⟨r, options⟩ = onBodies ⟨r', options⟩ := by
    rw [onBodies, onBodies, expandBody_congr agree]
  rw [expand, expand, bodies, walk_congr agree]

namespace Registry

/-- The order in which the entries of a table are stored does not matter exactly when entries with
one key give one definition.  A table of this kind has one registry, also when it is read from a
text, and one expansion of each forest. -/
theorem ofTable_order (entries : List (String × Definition)) :
    ((∀ order order', order.Perm entries → order'.Perm entries →
      (ofTable order).Agree (ofTable order')) ↔ IsConsistent entries) ∧
    (IsConsistent entries → ∀ order, order.Perm entries →
      (∀ text, readEntries? text = some entries →
        ∃ r, readTable? text = some r ∧ (ofTable order).Agree r) ∧
      ∀ options nodes,
        expand (ofTable order) options nodes = expand (ofTable entries) options nodes) := by
  refine ⟨⟨isConsistent_of_order, fun consistent order order' => consistent.agree⟩,
    fun consistent order perm => ?_⟩
  have agree := consistent.agree perm (List.Perm.refl entries)
  refine ⟨fun text read => ⟨ofTable entries, ?_, agree⟩, expand_congr agree⟩
  rw [readTable?, read]
  rfl

def spellings : List (String × Definition) :=
  [("A", ⟨"a", "b", none, none, none⟩), ("x", ⟨"", "c", none, none, none⟩),
    ("a", ⟨"a", "b", none, none, none⟩)]

def spellingsText : String :=
  "\x7b\"A\":[\"a\",\"b\"],\"x\":[\"\",\"c\"],\"a\":[\"a\",\"b\"]\x7d"

theorem isConsistent_spellings : IsConsistent spellings := by
  have keys : spellings.map tableKey = ["a.js", "x.js", "a.js"] := by decide +kernel
  simp only [spellings, List.map_cons, List.map_nil, List.cons.injEq, and_true] at keys
  obtain ⟨upper, other, lower⟩ := keys
  simp only [IsConsistent, spellings, List.forall_mem_cons, upper, other, lower]
  simp [named]

theorem ofTable_order_spellings : IsConsistent spellings ∧
    readEntries? spellingsText = some spellings ∧ spellings.reverse.Perm spellings ∧
    (∃ r, readTable? spellingsText = some r ∧ (ofTable spellings.reverse).Agree r) ∧
    ∀ options nodes,
      expand (ofTable spellings.reverse) options nodes = expand (ofTable spellings) options nodes := by
  have read : readEntries? spellingsText = some spellings := rfl
  have perm : spellings.reverse.Perm spellings := List.reverse_perm spellings
  obtain ⟨text, expansion⟩ := (ofTable_order spellings).2 isConsistent_spellings _ perm
  exact ⟨isConsistent_spellings, read, perm, text spellingsText read, expansion⟩

def clashing : List (String × Definition) :=
  [("A", ⟨"", "b", none, none, none⟩), ("a", ⟨"", "c", none, none, none⟩)]

/-- Which of two definitions with one key counts depends on the order. -/
theorem clashing_not_agree : clashing.reverse.Perm clashing ∧
    ¬(ofTable clashing.reverse).Agree (ofTable clashing) := by
  refine ⟨List.reverse_perm clashing, fun agree => ?_⟩
  have keys : clashing.map tableKey = ["a.js", "a.js"] := by decide +kernel
  simp only [clashing, List.map_cons, List.map_nil, List.cons.injEq, and_true] at keys
  have first := get?_ofTable_concat [("a", ⟨"", "c", none, none, none⟩)]
    ("A", ⟨"", "b", none, none, none⟩)
  have second := get?_ofTable_concat [("A", ⟨"", "b", none, none, none⟩)]
    ("a", ⟨"", "c", none, none, none⟩)
  rw [keys.1] at first
  rw [keys.2] at second
  have same := agree.2 "a.js"
  rw [show (ofTable clashing.reverse).get? "a.js" = _ from first,
    show (ofTable clashing).get? "a.js" = _ from second] at same
  simp [named] at same

end Registry

end ComponentCompiler.Component
