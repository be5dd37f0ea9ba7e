import ComponentCompiler.Proofs.Script.Defaults
import ComponentCompiler.Proofs.Script.WordRenaming
import ComponentCompiler.Script.Emission

namespace ComponentCompiler.Script

open Json (joinWith joinWith_cons_cons)
open Text (HasWord IsWhole hasWord_append_cons isWord not_hasWord_append not_hasWord_of_append
  replaceWord replaceWord_append_cons replaceWord_of_not_hasWord)

theorem renameWords_entryPointName (index : Nat) (cs : List Char) :
    renameWords entryName (entryPointName (Identity.label index)).toList cs =
      replaceWord entryName (Identity.labelChars index ++ entryName) cs := by
  have plain := dollar_not_mem_entryPointName (Identity.isLabel_label index)
  rw [renameWords, fill_of_not_mem plain, toList_entryPointName, Identity.label,
    String.toList_ofList]

/-- A script in the shape of the authoring convention: one function declares the entry point, and
its context has a default. -/
structure AuthoredScript where
  before : List Char
  parameters : List Char
  defaults : Defaults
  further : List Char
  body : List Char
  nonempty : defaults ≠ []
  plain : Plain defaults
  distinct : (defaults.map Prod.fst).Nodup
  unclosed : ∀ c ∈ parameters ++ further, c ≠ '(' ∧ c ≠ ')'
  ends : ∀ c ∈ parameters.getLast?, isWord c = false
  fresh : ∀ word ∈ [contextName, entryName], ¬HasWord word before ∧ ¬HasWord word parameters
  keys : ∀ entry ∈ defaults, ¬HasWord entryName entry.1.toList
  once : ¬HasWord entryName further ∧ ¬HasWord entryName body

namespace AuthoredScript

def text (s : AuthoredScript) : List Char :=
  s.before ++ "function RUNTIME(".toList ++ s.parameters ++ defaultText s.defaults ++ s.further ++
    ") \x7b".toList ++ s.body

def line (entry : String × Json.Value) : List Char :=
  "ctx.".toList ++ entry.1.toList ++ " = ctx.".toList ++ entry.1.toList ++ " || ".toList ++
    entry.2.text ++ [';']

/-- The script with its defaults in the body of the entry point, under the name of a build. -/
def rewritten (s : AuthoredScript) (runtimeId : List Char) : List Char :=
  s.before ++ "function ".toList ++ runtimeId ++ "RUNTIME(".toList ++ s.parameters ++
    "ctx".toList ++ s.further ++ ") \x7b\n".toList ++ joinWith ['\n'] (s.defaults.map line) ++ s.body

end AuthoredScript

theorem not_hasWord_of_not_mem {cs : List Char} (absent : 'R' ∉ cs) : ¬HasWord entryName cs :=
  fun has => absent (has.mem (by decide))

theorem hasWord_line_append {entry : String × Json.Value} (value : isPlainValue entry.2 = true)
    (key : ¬HasWord entryName entry.1.toList) (rest : List Char) :
    HasWord entryName (AuthoredScript.line entry ++ rest) ↔ HasWord entryName rest := by
  have parts : AuthoredScript.line entry ++ rest = contextName ++ '.' :: (entry.1.toList ++
      ' ' :: '=' :: ' ' :: (contextName ++ '.' :: (entry.1.toList ++
        ' ' :: '|' :: '|' :: ' ' :: (entry.2.text ++ ';' :: rest)))) := by
    unfold AuthoredScript.line contextName
    simp only [String.reduceToList]
    simp only [List.append_assoc, List.cons_append, List.nil_append]
  have context : ¬HasWord entryName contextName := not_hasWord_of_not_mem (by decide)
  have text : ¬HasWord entryName entry.2.text := not_hasWord_of_not_mem fun member =>
    absurd (isValueChar_text value _ member) (by decide)
  rw [parts]
  simp (disch := decide) only [hasWord_append_cons isWhole_entryName,
    Text.hasWord_cons isWhole_entryName, context, key, text, false_or]

theorem hasWord_lines_append {d : Defaults} (plain : Plain d)
    (keys : ∀ entry ∈ d, ¬HasWord entryName entry.1.toList) (rest : List Char) :
    HasWord entryName (joinWith ['\n'] (d.map AuthoredScript.line) ++ rest) ↔
      HasWord entryName rest := by
  induction d with
  | nil => rfl
  | cons entry d ih =>
    have line := hasWord_line_append (plain.values entry (by simp)) (keys entry (by simp))
    have later := ih plain.tail fun e member => keys e (List.mem_cons_of_mem _ member)
    cases d with
    | nil => exact line rest
    | cons next d =>
      rw [List.map_cons, List.map_cons, joinWith_cons_cons, ← List.map_cons, List.append_assoc,
        List.append_assoc, line]
      exact (Text.hasWord_cons isWhole_entryName (by decide)).trans later

theorem assignments_eq {d : Defaults} (plain : Plain d) :
    assignments d = joinWith ['\n'] (d.map AuthoredScript.line) := by
  have lines : d.map assignment = d.map AuthoredScript.line := by
    refine List.map_congr_left fun entry member => ?_
    have target : memberText entry.1 = contextName ++ '.' :: entry.1.toList :=
      if_pos (plain.keys entry member)
    unfold assignment AuthoredScript.line
    rw [target]
    unfold contextName
    simp only [String.reduceToList]
    simp only [List.append_assoc, List.cons_append, List.nil_append]
  rw [assignments, lines]

namespace AuthoredScript

variable (s : AuthoredScript)

def head : List Char :=
  s.before ++ "function".toList

def signature : List Char :=
  s.parameters ++ (contextName ++ s.further)

theorem text_eq : s.text = (s.head ++ ' ' :: (entryName ++ '(' :: s.parameters)) ++
    (defaultText s.defaults ++ (s.further ++ ')' :: ' ' :: '\x7b' :: s.body)) := by
  unfold text head entryName
  simp only [String.reduceToList]
  simp only [List.append_assoc, List.cons_append, List.nil_append]

theorem bare_eq : (s.head ++ ' ' :: (entryName ++ '(' :: s.parameters)) ++ contextName ++
    (s.further ++ ')' :: ' ' :: '\x7b' :: s.body) =
      (s.head ++ [' ']) ++ (opening s.signature ++ s.body) := by
  simp [opening, signature]

theorem rewritten_eq (runtimeId : List Char) : s.rewritten runtimeId =
    s.head ++ ' ' :: (runtimeId ++ entryName ++ '(' :: (s.signature ++ ')' :: ' ' :: '\x7b' :: '\n' ::
      (joinWith ['\n'] (s.defaults.map line) ++ s.body))) := by
  unfold rewritten head entryName signature contextName
  simp only [String.reduceToList]
  simp only [List.append_assoc, List.cons_append, List.nil_append]

theorem not_hasWord_head {word : List Char} (whole : IsWhole word)
    (member : word ∈ [contextName, entryName]) : ¬HasWord word s.head := by
  have differs : ∀ word ∈ [contextName, entryName], word.getLast? ≠ "function".toList.getLast? := by
    decide
  have solid : ∀ c ∈ "function".toList, isWord c = true := List.all_eq_true.1 (by decide)
  exact not_hasWord_append whole (s.fresh word member).1 (by decide) solid (differs word member)

theorem not_hasWord_signature : ¬HasWord entryName s.signature := by
  have later : ¬HasWord entryName (contextName ++ s.further) :=
    not_hasWord_of_append isWhole_entryName s.once.1 (by decide) isWhole_contextName.solid (by decide)
  rw [signature, Text.hasWord_append isWhole_entryName s.ends, not_or]
  exact ⟨(s.fresh entryName (by simp)).2, later⟩

theorem extractDefaults_text :
    extractDefaults s.text = ((s.head ++ [' ']) ++ (opening s.signature ++ s.body), s.defaults) := by
  have absent : ¬HasWord contextName (s.head ++ ' ' :: (entryName ++ '(' :: s.parameters)) := by
    have entry : ¬HasWord contextName entryName := fun has =>
      absurd (has.mem (c := 'c') (by decide)) (by decide)
    rw [hasWord_append_cons isWhole_contextName (by decide),
      hasWord_append_cons isWhole_contextName (by decide), not_or, not_or]
    exact ⟨s.not_hasWord_head isWhole_contextName (by simp), entry,
      (s.fresh contextName (by simp)).2⟩
  have ends : ∀ c ∈ (s.head ++ ' ' :: (entryName ++ '(' :: s.parameters)).getLast?,
      isWord c = false := by
    intro c last
    rw [Text.getLast?_append_cons, Text.getLast?_append_cons, Option.getD_some, Option.mem_some_iff]
      at last
    subst last
    cases final : s.parameters.getLast? with
    | none => rfl
    | some c => exact s.ends c final
  rw [text_eq, extractDefaults_defaultText s.plain absent ends s.nonempty s.distinct, bare_eq]

theorem inject_bare : inject entryName (assignments s.defaults)
    ((s.head ++ [' ']) ++ (opening s.signature ++ s.body)) =
      s.head ++ ' ' :: (entryName ++ '(' :: (s.signature ++ ')' :: ' ' :: '\x7b' :: '\n' ::
        (joinWith ['\n'] (s.defaults.map line) ++ s.body))) := by
  have absent : ¬HasWord entryName (s.head ++ [' ']) := by
    rw [hasWord_append_cons isWhole_entryName (by decide), not_or]
    exact ⟨s.not_hasWord_head isWhole_entryName (by simp), Text.not_hasWord_nil isWhole_entryName⟩
  have ends : ∀ c ∈ (s.head ++ [' ']).getLast?, isWord c = false := by simp; decide
  have unclosed : ')' ∉ s.signature := by
    intro member
    rw [signature, List.mem_append, List.mem_append] at member
    rcases member with inside | name | inside
    · exact (s.unclosed ')' (by simp [inside])).2 rfl
    · exact absurd name (by decide)
    · exact (s.unclosed ')' (by simp [inside])).2 rfl
  have lines : joinWith ['\n'] (s.defaults.map line) ≠ [] := by
    obtain ⟨entry, d, parts⟩ := List.exists_cons_of_ne_nil s.nonempty
    have line_ : line entry ≠ [] := List.append_ne_nil_of_right_ne_nil _ (List.cons_ne_nil _ _)
    rw [parts]
    cases d with
    | nil => exact line_
    | cons next d => simp [joinWith_cons_cons, line_]
  rw [assignments_eq s.plain, inject_opening absent ends unclosed lines]
  simp [opening]

theorem replaceWord_injected (image : List Char) :
    replaceWord entryName image (s.head ++ ' ' :: (entryName ++ '(' :: (s.signature ++
      ')' :: ' ' :: '\x7b' :: '\n' :: (joinWith ['\n'] (s.defaults.map line) ++ s.body)))) =
      s.head ++ ' ' :: (image ++ '(' :: (s.signature ++
        ')' :: ' ' :: '\x7b' :: '\n' :: (joinWith ['\n'] (s.defaults.map line) ++ s.body))) := by
  have head := s.not_hasWord_head isWhole_entryName (by simp)
  have inside : ¬HasWord entryName (' ' :: '\x7b' :: '\n' ::
      (joinWith ['\n'] (s.defaults.map line) ++ s.body)) := by
    simp (disch := decide) only [Text.hasWord_cons isWhole_entryName]
    rw [hasWord_lines_append s.plain s.keys]
    exact s.once.2
  have cut {c : Char} (apart : isWord c = false) (xs ys : List Char) :
      replaceWord entryName image (xs ++ c :: ys) = _ :=
    replaceWord_append_cons isWhole_entryName apart xs ys
  rw [cut (by decide), cut (by decide), cut (by decide), Text.replaceWord_self isWhole_entryName,
    replaceWord_of_not_hasWord isWhole_entryName head,
    replaceWord_of_not_hasWord isWhole_entryName s.not_hasWord_signature,
    replaceWord_of_not_hasWord isWhole_entryName inside]

end AuthoredScript

/-- A script in the shape of the convention is emitted with its defaults, in order, and with its
text as it was but for the lines of the defaults and the new name of the entry point. -/
theorem emit_authored (s : AuthoredScript) (index : Nat) :
    emit (String.ofList s.text) (Identity.label index) .text =
      ⟨String.ofList (Text.trim (s.rewritten (Identity.label index).toList)),
        entryPointName (Identity.label index), s.defaults⟩ := by
  have renamed := (renameWords_entryPointName index _).trans
    (s.replaceWord_injected (Identity.labelChars index ++ entryName))
  rw [← s.inject_bare, ← s.rewritten_eq] at renamed
  rw [emit, String.toList_ofList, s.extractDefaults_text, Identity.label, String.toList_ofList,
    ← renamed]
  rfl

def lookalikeScript : AuthoredScript where
  before := "/* ctxs */\nasync ".toList
  parameters := "$RUNTIME_, ".toList
  defaults := [("$on", .integer (-5)), ("ctx", .null)]
  further := ", b = 1".toList
  body := " RUNTIMES() \x7d\n".toList
  nonempty := by decide
  plain := ⟨by decide, by decide⟩
  distinct := by decide
  unclosed := by simp
  ends := by rintro c ⟨⟩; rfl
  fresh := by decide
  keys := by decide
  once := by decide

theorem emit_authored_lookalikeScript :
    emit "/* ctxs */\nasync function RUNTIME($RUNTIME_, ctx = \x7b$on: -5, ctx: null\x7d, b = 1) \x7b RUNTIMES() \x7d\n"
        "ab" .text =
      ⟨"/* ctxs */\nasync function abRUNTIME($RUNTIME_, ctx, b = 1) \x7b\nctx.$on = ctx.$on || -5;\nctx.ctx = ctx.ctx || null; RUNTIMES() \x7d",
        "abRUNTIME", [("$on", .integer (-5)), ("ctx", .null)]⟩ := by
  have text : String.ofList lookalikeScript.text =
      "/* ctxs */\nasync function RUNTIME($RUNTIME_, ctx = \x7b$on: -5, ctx: null\x7d, b = 1) \x7b RUNTIMES() \x7d\n" := by
    decide +kernel
  have code : String.ofList (Text.trim (lookalikeScript.rewritten (Identity.label 27).toList)) =
      "/* ctxs */\nasync function abRUNTIME($RUNTIME_, ctx, b = 1) \x7b\nctx.$on = ctx.$on || -5;\nctx.ctx = ctx.ctx || null; RUNTIMES() \x7d" := by
    decide +kernel
  have label : Identity.label 27 = "ab" := by decide +kernel
  have emitted := emit_authored lookalikeScript 27
  rw [text, code, label] at emitted
  exact emitted

end ComponentCompiler.Script
