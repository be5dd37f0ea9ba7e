import ComponentCompiler.Proofs.Script.Literals

namespace ComponentCompiler.Script

open Json (Member ReadsBack joinWith)
open Text (HasWord isWord)

def isPlainValue : Json.Value → Bool
  | .null => true
  | .bool _ => true
  | .integer n => -(2 ^ 63) ≤ n && n < 2 ^ 63
  | _ => false

def isValueChar (c : Char) : Bool :=
  c = '-' || Text.isAsciiDigit c || ('a' ≤ c && c ≤ 'z')

theorem isValueChar_text {v : Json.Value} (plain : isPlainValue v = true) :
    ∀ c ∈ v.text, isValueChar c = true := by
  cases v with
  | null => exact List.all_eq_true.1 (by decide)
  | bool b => cases b <;> exact List.all_eq_true.1 (by decide)
  | integer n =>
    have digits : ∀ c ∈ Number.digitsOf n.natAbs, isValueChar c = true := fun c member => by
      simp [isValueChar, Json.isAsciiDigit_digitsOf _ c member]
    rw [Json.Value.text, Number.integerText]
    split
    next => exact List.forall_mem_cons.2 ⟨rfl, digits⟩
    next => exact digits
  | float => cases plain
  | string => cases plain
  | array => cases plain
  | object => cases plain

theorem readsBack_of_isPlainValue {v : Json.Value} (plain : isPlainValue v = true) :
    ReadsBack v := by
  cases v with
  | null => exact Json.readsBack_null
  | bool b => exact Json.readsBack_bool b
  | integer n =>
    simp only [isPlainValue, Bool.and_eq_true, decide_eq_true_eq] at plain
    exact Json.readsBack_integer plain.1 (by omega)
  | float => cases plain
  | string => cases plain
  | array => cases plain
  | object => cases plain

def bareMember (entry : String × Json.Value) : List Char :=
  entry.1.toList ++ ':' :: ' ' :: entry.2.text

def literalText (d : Defaults) : List Char :=
  '\x7b' :: (joinWith [',', ' '] (d.map bareMember) ++ ['\x7d'])

def defaultText (d : Defaults) : List Char :=
  contextName ++ ' ' :: '=' :: ' ' :: literalText d

structure Plain (d : Defaults) : Prop where
  keys : ∀ entry ∈ d, isPlainKey entry.1.toList = true
  values : ∀ entry ∈ d, isPlainValue entry.2 = true

theorem Plain.tail {entry : String × Json.Value} {d : Defaults} (plain : Plain (entry :: d)) :
    Plain d :=
  ⟨fun e member => plain.keys e (List.mem_cons_of_mem _ member),
    fun e member => plain.values e (List.mem_cons_of_mem _ member)⟩

def plainMember (entry : String × Json.Value) : Member :=
  ⟨entry.1, entry.2.text, entry.2⟩

theorem literal_plainMember (d : Defaults) : literal (d.map plainMember) = literalText d := by
  rw [literal, List.map_map]
  rfl

section Plain

variable {d : Defaults} (plain : Plain d)

include plain

theorem Plain.key {m : Member} (member : m ∈ d.map plainMember) :
    isPlainKey m.key.toList = true := by
  obtain ⟨entry, isEntry, rfl⟩ := List.mem_map.1 member
  exact plain.keys entry isEntry

theorem Plain.value {m : Member} (member : m ∈ d.map plainMember) :
    ReadsBack m.value ∧ m.text = m.value.text ∧ ∀ c ∈ m.text, isValueChar c = true := by
  obtain ⟨entry, isEntry, rfl⟩ := List.mem_map.1 member
  have value := plain.values entry isEntry
  exact ⟨readsBack_of_isPlainValue value, rfl, isValueChar_text value⟩

theorem readDefaults_literalText (some_ : d ≠ []) (distinct : (d.map Prod.fst).Nodup) :
    readDefaults (literalText d) = d := by
  have reads : ∀ m ∈ d.map plainMember, Json.ReadsAs m.text m.value := fun m member => by
    obtain ⟨back, text, -⟩ := plain.value member
    rw [text]
    exact back.readsAs
  have same : ∀ m ∈ d.map plainMember, quoteKeys m.text = m.text := by
    intro m member
    obtain ⟨-, -, chars⟩ := plain.value member
    refine quoteKeys_eq_self (fun brace => absurd (chars _ brace) (by decide)) ?_
    rintro ⟨xs, gap, key, space, ys, -, parts⟩
    exact absurd (chars ',' (by simp [parts])) (by decide)
  rw [← literal_plainMember, readDefaults_literal (by simpa using some_) (fun m => plain.key)
    (by rwa [List.map_map]) reads same, List.map_map]
  exact List.map_id d

theorem extractDefaults_defaultText {front : List Char} (absent : ¬HasWord contextName front)
    (ends : ∀ c ∈ front.getLast?, isWord c = false) (some_ : d ≠ [])
    (distinct : (d.map Prod.fst).Nodup) (rest : List Char) :
    extractDefaults (front ++ (defaultText d ++ rest)) = (front ++ contextName ++ rest, d) := by
  have first : ∀ xs ys, front = xs ++ ys → ys ≠ [] →
      ¬StartsDefault xs (ys ++ (defaultText d ++ rest)) := by
    rintro xs ys rfl more starts
    obtain ⟨after, word⟩ := exists_afterWord?_of_startsDefault starts
    rw [Text.afterWord?_eq_none isWhole_contextName absent ends more] at word
    cases word
  have inline : ∀ m ∈ d.map plainMember, '\x7d' ∉ m.text ∧ '\n' ∉ m.text := by
    intro m member
    obtain ⟨-, -, chars⟩ := plain.value member
    exact ⟨fun brace => absurd (chars _ brace) (by decide),
      fun feed => absurd (chars _ feed) (by decide)⟩
  have isDefault := isDefault_literal (fun m => plain.key) inline rest
  rw [literal_plainMember] at isDefault
  have extracted := extractDefaults_first first ends isDefault
  rwa [readDefaults_literalText plain some_ distinct] at extracted

end Plain

end ComponentCompiler.Script
