import ComponentCompiler.Proofs.Script.Passing.Statements
import ComponentCompiler.Proofs.Text.Scanning
import ComponentCompiler.Script.Rename

/-!
# Renaming a variable of a script

A script is cut into pieces where its reader reports names.

* `exists_cut`: every script that parses has such pieces.
* `renameOccurrences?_cut`: the pieces that name the variable are replaced, one by one, and all
  others stay.  What others see (keys, members, imports) stays too, unless the variable is assigned
  through a pattern in which its name is also the key.
-/

namespace ComponentCompiler.Script

open Text (substitute substitute_copied substitute_found)

/-! ## Pieces -/

/-- A stretch of a script. -/
inductive Piece
  | plainText (text : List Char)
  /-- A name that is no variable: a key, a member, a name of another module. -/
  | label (text : List Char) (name : String)
  | variableName (text : List Char) (name : String) (role : Role)

namespace Piece

def text : Piece → List Char
  | plainText text => text
  | label text _ => text
  | variableName text _ _ => text

def visibleName? : Piece → Option String
  | plainText _ => none
  | label _ name => some name
  | variableName _ _ .plain => none
  | variableName _ name _ => some name

def variableName? : Piece → Option String
  | variableName _ name _ => some name
  | _ => none

def renamed (symbol replacement : String) : Piece → List Piece
  | variableName text name role =>
    if name = symbol then
      let variable_ := variableName replacement.toList replacement
      match role with
      | .plain => [variable_ .plain]
      | .assigned => [variable_ .assigned]
      | .shorthand => [label symbol.toList symbol, plainText [':', ' '], variable_ .plain]
      | .imported => [label symbol.toList symbol, plainText [' ', 'a', 's', ' '], variable_ .plain]
    else [variableName text name role]
  | piece => [piece]

def texts (pieces : List Piece) : List Char :=
  pieces.flatMap text

def occurrence? (after : List Char) : Piece → Option Occurrence
  | variableName text name role => some ⟨name, (text ++ after).length, text.length, role⟩
  | _ => none

def places : List Piece → Occurrences
  | [] => []
  | piece :: rest => (piece.occurrence? (texts rest)).toList ++ places rest

def IsSolid (piece : Piece) : Prop :=
  piece.variableName?.isSome → piece.text ≠ []

instance : DecidablePred IsSolid :=
  fun piece => inferInstanceAs (Decidable (piece.variableName?.isSome → piece.text ≠ []))

end Piece

open Piece (places texts)

/-- The pieces of a script whose reader reports the occurrences. -/
structure Cut (cs : List Char) (occs : Occurrences) where
  pieces : List Piece
  texts_eq : texts pieces = cs
  solid : ∀ piece ∈ pieces, piece.IsSolid
  places_iff : ∀ o, o ∈ occs ↔ o ∈ places pieces

def Cut.ofPieces (pieces : List Piece) (solid : ∀ piece ∈ pieces, piece.IsSolid) :
    Cut (texts pieces) (places pieces) :=
  ⟨pieces, rfl, solid, fun _ => Iff.rfl⟩

/-! ## Replacing by place -/

theorem find?_eq_some_of_only {α : Type} {p : α → Bool} {xs : List α} {a : α} (member : a ∈ xs)
    (holds : p a = true) (only : ∀ b ∈ xs, p b = true → b = a) : xs.find? p = some a := by
  obtain ⟨b, found⟩ := Option.isSome_iff_exists.1 (List.find?_isSome.2 ⟨a, member, holds⟩)
  rw [found, only b (List.mem_of_find?_eq_some found) (List.find?_some found)]

section Replacing

variable {occs : Occurrences} {image : Occurrence → List Char}

def matchPlace (occs : Occurrences) (image : Occurrence → List Char) (ahead : List Char) :
    Option Text.Match :=
  (occs.find? fun o => o.ahead = ahead.length).map fun o => (o.width, image o)

theorem substitute_between {xs ys : List Char}
    (apart : ∀ o ∈ occs, o.ahead ≤ ys.length ∨ (xs ++ ys).length < o.ahead) :
    substitute (fun _ => matchPlace occs image) (xs ++ ys) =
      xs ++ substitute (fun _ => matchPlace occs image) ys := by
  refine substitute_copied xs fun suffix isSuffix nonempty => ?_
  rw [matchPlace, Option.map_eq_none_iff, List.find?_eq_none]
  intro o member same
  have within := isSuffix.length_le
  have solid := List.length_pos_iff.2 nonempty
  have places := apart o member
  rw [decide_eq_true_eq, List.length_append] at same
  rw [List.length_append] at places
  omega

theorem substitute_here {o : Occurrence} {xs ys : List Char} (solid : xs ≠ [])
    (member : o ∈ occs) (starts : o.ahead = (xs ++ ys).length) (width : o.width = xs.length)
    (only : ∀ o' ∈ occs, o'.ahead = o.ahead → o' = o) :
    substitute (fun _ => matchPlace occs image) (xs ++ ys) =
      image o ++ substitute (fun _ => matchPlace occs image) ys := by
  have here : (occs.find? fun o => o.ahead = (xs ++ ys).length) = some o := by
    refine find?_eq_some_of_only member (decide_eq_true starts) fun o' member' same => ?_
    exact only o' member' ((of_decide_eq_true same).trans starts.symm)
  have found : matchPlace occs image (xs ++ ys) = some (o.width, image o) := by
    rw [matchPlace, here]
    rfl
  exact substitute_found solid (by rw [found, width])

end Replacing

/-! ## Replacing piece by piece -/

section Pieces

variable {symbol replacement : String}

def renamedPieces (symbol replacement : String) (pieces : List Piece) : List Piece :=
  pieces.flatMap (Piece.renamed symbol replacement)

theorem mem_places_cons {piece : Piece} {rest : List Piece} {o : Occurrence} :
    o ∈ places (piece :: rest) ↔ piece.occurrence? (texts rest) = some o ∨ o ∈ places rest := by
  simp [places]

theorem texts_cons (piece : Piece) (rest : List Piece) :
    texts (piece :: rest) = piece.text ++ texts rest :=
  List.flatMap_cons

theorem occurrence?_eq_some {piece : Piece} {after : List Char} {o : Occurrence}
    (here : piece.occurrence? after = some o) :
    piece = .variableName piece.text o.name o.role ∧ o.ahead = (piece.text ++ after).length ∧
      o.width = piece.text.length := by
  cases piece with
  | variableName text name role =>
    cases here
    exact ⟨rfl, rfl, rfl⟩
  | plainText text => cases here
  | label text name => cases here

theorem variableName?_eq_some {piece : Piece} :
    piece.variableName? = some symbol ↔ ∃ text role, piece = .variableName text symbol role := by
  cases piece <;> simp [Piece.variableName?]

theorem ahead_le_of_mem_places {pieces : List Piece} {o : Occurrence} (member : o ∈ places pieces) :
    o.ahead ≤ (texts pieces).length := by
  induction pieces with
  | nil => cases member
  | cons piece rest ih =>
    rw [texts_cons]
    rcases mem_places_cons.1 member with here | later
    · exact Nat.le_of_eq (occurrence?_eq_some here).2.1
    · rw [List.length_append]
      exact Nat.le_add_left_of_le (ih later)

theorem lt_ahead {piece : Piece} (solid : piece.IsSolid) {after : List Char} {o : Occurrence}
    (here : piece.occurrence? after = some o) : after.length < o.ahead := by
  obtain ⟨shape, ahead, -⟩ := occurrence?_eq_some here
  have some_ : piece.text ≠ [] := solid (by rw [shape]; rfl)
  rw [ahead, List.length_append]
  have := List.length_pos_of_ne_nil some_
  omega

def IsShown (symbol : String) (occs : Occurrences) (pieces : List Piece) : Prop :=
  ∀ o, (o ∈ occs ∧ o.ahead ≤ (texts pieces).length) ↔ (o ∈ places pieces ∧ o.name = symbol)

theorem IsShown.tail {occs : Occurrences} {piece : Piece} {rest : List Piece}
    (shown : IsShown symbol occs (piece :: rest)) (solid : piece.IsSolid) :
    IsShown symbol occs rest := by
  intro o
  have longer : (texts rest).length ≤ (texts (piece :: rest)).length := by
    rw [texts_cons, List.length_append]
    exact Nat.le_add_left ..
  constructor
  · rintro ⟨member, later⟩
    obtain ⟨place, named⟩ := (shown o).1 ⟨member, Nat.le_trans later longer⟩
    refine ⟨(mem_places_cons.1 place).resolve_left fun here => ?_, named⟩
    exact Nat.not_le_of_lt (lt_ahead solid here) later
  · rintro ⟨place, named⟩
    have member := ((shown o).2 ⟨mem_places_cons.2 (.inr place), named⟩).1
    exact ⟨member, ahead_le_of_mem_places place⟩

theorem image_eq_texts (text : List Char) (role : Role) (ahead width : Nat) :
    Occurrence.image ⟨symbol, ahead, width, role⟩ symbol.toList replacement.toList =
      texts (Piece.renamed symbol replacement (.variableName text symbol role)) := by
  cases role <;> simp [Occurrence.image, texts, Piece.renamed, Piece.text]

theorem renamed_of_ne {piece : Piece} (other : piece.variableName? ≠ some symbol) :
    piece.renamed symbol replacement = [piece] := by
  cases piece with
  | variableName text name role =>
    have differs : name ≠ symbol := fun same => other (congrArg some same)
    rw [Piece.renamed, if_neg differs]
  | plainText text => rfl
  | label text name => rfl

theorem substitute_texts {occs : Occurrences} (pieces : List Piece)
    (solid : ∀ piece ∈ pieces, piece.IsSolid) (shown : IsShown symbol occs pieces) :
    substitute (fun _ => matchPlace occs (·.image symbol.toList replacement.toList)) (texts pieces) =
      texts (renamedPieces symbol replacement pieces) := by
  induction pieces with
  | nil => rfl
  | cons piece rest ih =>
    obtain ⟨solid, solids⟩ := List.forall_mem_cons.1 solid
    have later := ih solids (shown.tail solid)
    have parts : texts (renamedPieces symbol replacement (piece :: rest)) =
        texts (piece.renamed symbol replacement) ++
          texts (renamedPieces symbol replacement rest) := by
      simp [renamedPieces, texts]
    rw [parts, texts_cons]
    by_cases named : piece.variableName? = some symbol
    · obtain ⟨text, role, rfl⟩ := variableName?_eq_some.1 named
      let o : Occurrence := ⟨symbol, (text ++ texts rest).length, text.length, role⟩
      have here : (Piece.variableName text symbol role).occurrence? (texts rest) = some o := rfl
      have member := ((shown o).2 ⟨mem_places_cons.2 (.inl here), rfl⟩).1
      have only : ∀ o' ∈ occs, o'.ahead = o.ahead → o' = o := by
        intro o' member' same
        have within : o'.ahead ≤ (texts (.variableName text symbol role :: rest)).length := by
          rw [texts_cons, same]
          exact Nat.le_refl _
        rcases mem_places_cons.1 ((shown o').1 ⟨member', within⟩).1 with here' | after
        · exact (Option.some.inj (here.symm.trans here')).symm
        · have before := lt_ahead solid here
          have := ahead_le_of_mem_places after
          omega
      have solid_ : text ≠ [] := solid rfl
      rw [Piece.text, substitute_here solid_ member rfl rfl only, later, image_eq_texts]
    · have apart : ∀ o ∈ occs, o.ahead ≤ (texts rest).length ∨
          (piece.text ++ texts rest).length < o.ahead := by
        intro o member
        rw [← texts_cons]
        refine (Nat.lt_or_ge _ o.ahead).symm.imp_left fun within => ?_
        obtain ⟨place, name⟩ := (shown o).1 ⟨member, within⟩
        refine ahead_le_of_mem_places ((mem_places_cons.1 place).resolve_left fun here => named ?_)
        rw [(occurrence?_eq_some here).1, name]
        rfl
      rw [substitute_between apart, later, renamed_of_ne named]
      simp [texts]

theorem replaceOccurrences_eq (image : Occurrence → List Char) (occs : Occurrences)
    (cs : List Char) :
    replaceOccurrences image occs cs = substitute (fun _ => matchPlace occs image) cs := by
  rw [replaceOccurrences]
  split
  next empty =>
    obtain rfl := List.isEmpty_iff.1 empty
    have apart : ∀ o ∈ ([] : Occurrences), o.ahead ≤ ([] : List Char).length ∨
        (cs ++ []).length < o.ahead := nofun
    have copied : substitute (fun _ => matchPlace [] image) (cs ++ []) = cs ++ [] :=
      substitute_between apart
    rw [List.append_nil] at copied
    exact copied.symm
  next => rfl

end Pieces

/-! ## Cutting a script -/

section Cutting

variable {occs : Occurrences} {cs : List Char}

/-- A script cut at its occurrences. -/
def piecesAt : Occurrences → List Char → List Piece
  | [], cs => [.plainText cs]
  | o :: occs, cs =>
    let ahead := cs.drop (cs.length - o.ahead)
    .plainText (cs.take (cs.length - o.ahead)) ::
      .variableName (ahead.take o.width) o.name o.role :: piecesAt occs (ahead.drop o.width)

theorem texts_piecesAt (occs : Occurrences) (cs : List Char) : texts (piecesAt occs cs) = cs := by
  induction occs generalizing cs with
  | nil => simp [piecesAt, texts, Piece.text]
  | cons o occs ih =>
    rw [piecesAt, texts_cons, texts_cons, ih, Piece.text, Piece.text, List.take_append_drop,
      List.take_append_drop]

theorem isSolid_of_width_pos {pieces : List Piece} (wide : ∀ o ∈ places pieces, 0 < o.width) :
    ∀ piece ∈ pieces, piece.IsSolid := by
  induction pieces with
  | nil => exact nofun
  | cons piece rest ih =>
    refine List.forall_mem_cons.2 ⟨?_, ih fun o member => wide o (mem_places_cons.2 (.inr member))⟩
    cases piece with
    | plainText | label => exact nofun
    | variableName text name role =>
      have here := wide _ (mem_places_cons.2 (.inl rfl))
      exact fun _ => List.ne_nil_of_length_pos here

theorem places_piecesAt (between : Between cs.length 0 occs) :
    places (piecesAt occs cs) = occs := by
  induction occs generalizing cs with
  | nil => rfl
  | cons o occs ih =>
    have within := between.within o (by simp)
    have ahead : (cs.drop (cs.length - o.ahead)).length = o.ahead := by
      rw [List.length_drop]
      omega
    have rest : ((cs.drop (cs.length - o.ahead)).drop o.width).length = o.ahead - o.width := by
      rw [List.length_drop, ahead]
    have width : ((cs.drop (cs.length - o.ahead)).take o.width).length = o.width :=
      List.length_take_of_le (by omega)
    have later := ih (rest ▸ between.tail)
    simp only [piecesAt, places, Piece.occurrence?, texts_piecesAt, List.take_append_drop, ahead,
      width, later]
    rfl

theorem exists_cut (parsed : occurrences? cs = some occs) :
    ∃ cut : Cut cs occs, cut.pieces = piecesAt occs cs := by
  have between := occurrences?_between parsed
  have same := places_piecesAt between
  have solid : ∀ piece ∈ piecesAt occs cs, piece.IsSolid := isSolid_of_width_pos (by
    rw [same]
    exact fun o member => (between.within o member).1)
  exact ⟨⟨piecesAt occs cs, texts_piecesAt occs cs, solid, fun o => by rw [same]⟩, rfl⟩

end Cutting

/-! ## Names -/

section Names

variable (symbol replacement : String)

def variableNames (pieces : List Piece) : List String :=
  pieces.filterMap Piece.variableName?

def visibleNames (pieces : List Piece) : List String :=
  pieces.filterMap Piece.visibleName?

theorem variableNames_append (pieces rest : List Piece) :
    variableNames (pieces ++ rest) = variableNames pieces ++ variableNames rest :=
  List.filterMap_append

theorem visibleNames_append (pieces rest : List Piece) :
    visibleNames (pieces ++ rest) = visibleNames pieces ++ visibleNames rest :=
  List.filterMap_append

theorem variableNames_renamed (piece : Piece) :
    variableNames (piece.renamed symbol replacement) =
      (variableNames [piece]).map fun name => if name = symbol then replacement else name := by
  by_cases named : piece.variableName? = some symbol
  · obtain ⟨text, role, rfl⟩ := variableName?_eq_some.1 named
    cases role <;>
      simp [Piece.renamed, variableNames, List.filterMap_cons, Piece.variableName?]
  · rw [renamed_of_ne named]
    cases here : piece.variableName? with
    | none => simp [variableNames, here]
    | some name =>
      have other : name ≠ symbol := fun same => named (by rw [here, same])
      simp [variableNames, here, other]

theorem variableNames_renamedPieces (pieces : List Piece) :
    variableNames (renamedPieces symbol replacement pieces) =
      (variableNames pieces).map fun name => if name = symbol then replacement else name := by
  induction pieces with
  | nil => rfl
  | cons piece rest ih =>
    rw [renamedPieces, List.flatMap_cons, variableNames_append, variableNames_renamed,
      ← renamedPieces, ih, ← List.map_append, ← variableNames_append, List.singleton_append]

def IsAssigned (symbol : String) (occs : Occurrences) : Prop :=
  ∃ o ∈ occs, o.role = .assigned ∧ o.name = symbol

instance (occs : Occurrences) : Decidable (IsAssigned symbol occs) :=
  inferInstanceAs (Decidable (∃ o ∈ occs, o.role = .assigned ∧ o.name = symbol))

theorem isAssigned_places_cons {piece : Piece} {rest : List Piece} :
    IsAssigned symbol (places (piece :: rest)) ↔
      (∃ text, piece = .variableName text symbol .assigned) ∨ IsAssigned symbol (places rest) := by
  constructor
  · rintro ⟨o, member, role, name⟩
    refine (mem_places_cons.1 member).imp (fun here => ⟨piece.text, ?_⟩) fun later =>
      ⟨o, later, role, name⟩
    rw [← role, ← name]
    exact (occurrence?_eq_some here).1
  · rintro (⟨text, rfl⟩ | ⟨o, member, named⟩)
    · exact ⟨_, mem_places_cons.2 (.inl rfl), rfl, rfl⟩
    · exact ⟨o, mem_places_cons.2 (.inr member), named⟩

/-- A piece shows as many names afterwards, and the same ones unless it is a variable assigned under
its own name. -/
theorem visibleNames_renamed (piece : Piece) :
    (visibleNames (piece.renamed symbol replacement)).length = (visibleNames [piece]).length ∧
    (visibleNames (piece.renamed symbol replacement) = visibleNames [piece] ↔
      ((∃ text, piece = .variableName text symbol .assigned) → symbol = replacement)) := by
  by_cases named : piece.variableName? = some symbol
  · obtain ⟨text, role, rfl⟩ := variableName?_eq_some.1 named
    cases role <;>
      simp [Piece.renamed, visibleNames, List.filterMap_cons, Piece.visibleName?, eq_comm]
  · rw [renamed_of_ne named]
    refine ⟨rfl, iff_of_true rfl ?_⟩
    rintro ⟨text, rfl⟩
    exact absurd rfl named

theorem visibleNames_renamedPieces (pieces : List Piece) :
    visibleNames (renamedPieces symbol replacement pieces) = visibleNames pieces ↔
      (IsAssigned symbol (places pieces) → symbol = replacement) := by
  induction pieces with
  | nil => exact iff_of_true rfl fun ⟨_, member, _⟩ => nomatch member
  | cons piece rest ih =>
    obtain ⟨length, here⟩ := visibleNames_renamed symbol replacement piece
    have apart : visibleNames (renamedPieces symbol replacement (piece :: rest)) =
        visibleNames (piece :: rest) ↔
          visibleNames (piece.renamed symbol replacement) = visibleNames [piece] ∧
          visibleNames (renamedPieces symbol replacement rest) = visibleNames rest := by
      rw [renamedPieces, List.flatMap_cons, visibleNames_append, ← List.singleton_append,
        visibleNames_append]
      exact ⟨fun same => List.append_inj same length, fun ⟨head, tail⟩ => by
        rw [head, ← renamedPieces, tail]⟩
    rw [apart, here, ih, isAssigned_places_cons, or_imp]

end Names

/-- Renaming a variable replaces it wherever it stands, and leaves all pieces of the script that do
not name it as they are.  The names that others see are the same afterwards, unless (and only then)
the variable is assigned through a pattern that has its name as a key. -/
theorem renameOccurrences?_cut {cs : List Char} {occs : Occurrences}
    (parsed : occurrences? cs = some occs) (cut : Cut cs occs) (symbol replacement : String) :
    renameOccurrences? symbol.toList replacement.toList cs =
      some (texts (renamedPieces symbol replacement cut.pieces)) ∧
    variableNames (renamedPieces symbol replacement cut.pieces) =
      (variableNames cut.pieces).map (fun name => if name = symbol then replacement else name) ∧
    (∀ piece ∈ cut.pieces, piece.variableName? ≠ some symbol →
      piece.renamed symbol replacement = [piece]) ∧
    (visibleNames (renamedPieces symbol replacement cut.pieces) = visibleNames cut.pieces ↔
      (IsAssigned symbol occs → symbol = replacement)) := by
  have ofPlaces : ∀ o, o ∈ occs ↔ o ∈ places cut.pieces := cut.places_iff
  have shown : IsShown symbol (occs.filter fun o => o.name.toList = symbol.toList) cut.pieces := by
    intro o
    rw [List.mem_filter, decide_eq_true_eq, String.toList_inj, ofPlaces]
    exact ⟨fun ⟨member, _⟩ => member, fun member => ⟨member, ahead_le_of_mem_places member.1⟩⟩
  refine ⟨?_, variableNames_renamedPieces symbol replacement cut.pieces,
    fun piece _ other => renamed_of_ne other, ?_⟩
  · rw [renameOccurrences?, parsed, Option.map_some, replaceOccurrences_eq,
      ← substitute_texts cut.pieces cut.solid shown, cut.texts_eq]
  · rw [visibleNames_renamedPieces, IsAssigned, IsAssigned]
    simp only [ofPlaces]

def lookalikes : List Piece :=
  [.plainText "import \x7b ".toList, .variableName "RUNTIME".toList "RUNTIME" .imported,
    .plainText " \x7d from 'RUNTIME'; // RUNTIME\n".toList, .variableName ['o'] "o" .plain,
    .plainText " = \x7b ".toList, .variableName "RUNTIME".toList "RUNTIME" .shorthand,
    .plainText ", ".toList, .label ['f'] "f", .plainText ": ".toList,
    .variableName ['o'] "o" .plain, .plainText ['.'], .label "RUNTIME".toList "RUNTIME",
    .plainText " \x7d;".toList]

theorem renameOccurrences?_cut_lookalikes :
    occurrences? (texts lookalikes) = some (places lookalikes) ∧
    renameOccurrences? "RUNTIME".toList "aRUNTIME".toList (texts lookalikes) =
      some ("import \x7b RUNTIME as aRUNTIME \x7d from 'RUNTIME'; // RUNTIME\n" ++
        "o = \x7b RUNTIME: aRUNTIME, f: o.RUNTIME \x7d;").toList ∧
    visibleNames (renamedPieces "RUNTIME" "aRUNTIME" lookalikes) =
      ["RUNTIME", "RUNTIME", "f", "RUNTIME"] := by
  have parsed : occurrences? (texts lookalikes) = some (places lookalikes) := by decide +kernel
  obtain ⟨renamed, -, -, visible⟩ :=
    renameOccurrences?_cut parsed (.ofPieces lookalikes (by decide)) "RUNTIME" "aRUNTIME"
  have never : ¬ IsAssigned "RUNTIME" (places lookalikes) := by decide +kernel
  refine ⟨parsed, renamed.trans ?_, (visible.2 fun assigned => absurd assigned never).trans ?_⟩
  · decide +kernel
  · decide

def assignedKey : List Piece :=
  [.plainText "(\x7b ".toList, .variableName "RUNTIME".toList "RUNTIME" .assigned,
    .plainText " \x7d = ".toList, .variableName ['o'] "o" .plain, .plainText ");".toList]

/-- The script `({ RUNTIME } = o);` reads another property of `o` once `RUNTIME` is renamed. -/
theorem assignedKey_not_kept :
    occurrences? (texts assignedKey) = some (places assignedKey) ∧
    renameOccurrences? "RUNTIME".toList "aRUNTIME".toList (texts assignedKey) =
      some "(\x7b aRUNTIME \x7d = o);".toList ∧
    occurrences? "(\x7b aRUNTIME \x7d = o);".toList =
      some (places (renamedPieces "RUNTIME" "aRUNTIME" assignedKey)) ∧
    visibleNames assignedKey = ["RUNTIME"] ∧
    visibleNames (renamedPieces "RUNTIME" "aRUNTIME" assignedKey) = ["aRUNTIME"] := by
  decide +kernel

end ComponentCompiler.Script
