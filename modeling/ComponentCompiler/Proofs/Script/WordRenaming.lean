import ComponentCompiler.Proofs.Identity.Labels
import ComponentCompiler.Proofs.Script.Opening
import ComponentCompiler.Proofs.Text.Standing
import ComponentCompiler.Script.Rename

namespace ComponentCompiler.Script

open Identity (IsLabel IsLetter isLetter_iff)
open Text (IsStretchAt IsWhole StandsAt isWord replaceWord wordCount)

theorem fill_of_not_mem {pattern : List Char} (plain : '$' ∉ pattern) (matched : List Char) :
    Text.fill matched pattern = pattern := by
  rw [Text.fill]
  induction pattern with
  | nil => rfl
  | cons c cs ih =>
    rw [List.mem_cons, not_or] at plain
    rw [List.length_cons, Text.fillWithin.eq_def]
    simp only
    rw [if_pos (Ne.symm plain.1), ih plain.2]

theorem rename_text_eq {replacement : List Char} (plain : '$' ∉ replacement)
    (symbol cs : List Char) :
    Transformer.text.rename symbol replacement cs = replaceWord symbol replacement cs := by
  rw [Transformer.rename, renameWords, fill_of_not_mem plain]

section EntryPoint

variable {id : String} (isLabel : IsLabel id)

theorem toList_entryPointName (id : String) :
    (entryPointName id).toList = id.toList ++ entryName := by
  simp [entryPointName]

theorem isWord_of_isLetter {c : Char} (isLetter : IsLetter c) : isWord c = true := by
  rw [isLetter_iff] at isLetter
  have letters : ∀ n < 128, 97 ≤ n ∧ n ≤ 122 → isWord (Char.ofNat n) = true := by decide
  have word := letters c.toNat (by omega) isLetter
  rwa [Char.ofNat_toNat] at word

include isLabel

theorem isWhole_entryPointName : IsWhole (entryPointName id).toList := by
  rw [toList_entryPointName]
  refine ⟨by simp [isWhole_entryName.nonempty], fun c member => ?_⟩
  rcases List.mem_append.1 member with label | fixed
  · exact isWord_of_isLetter (isLabel.letters c label)
  · exact isWhole_entryName.solid c fixed

theorem entryPointName_ne : (entryPointName id).toList ≠ entryName := by
  rw [toList_entryPointName]
  intro same
  exact isLabel.nonempty (List.append_left_eq_self.1 same)

theorem dollar_not_mem_entryPointName : '$' ∉ (entryPointName id).toList := by
  intro member
  exact absurd ((isWhole_entryPointName isLabel).solid '$' member) (by decide)

/-- The entry point is renamed in the text of a script as a whole word.  None is left; its new name
stands where it stood before and where the old name stood; the script consists of pieces of which
those that are the old name, where it stands as a word, are replaced and all others are kept; and
there is nothing left to rename. -/
theorem rename_text_pieces (script : List Char) :
    let name := (entryPointName id).toList
    let renamed := Transformer.text.rename entryName name
    (∀ i, ¬StandsAt entryName (renamed script) i) ∧
    wordCount name (renamed script) = wordCount entryName script + wordCount name script ∧
    (∃ pieces : List (List Char), pieces.flatten = script ∧
      (∀ i, StandsAt entryName script i ↔ IsStretchAt entryName pieces i) ∧
      renamed script = pieces.flatMap fun piece => if piece = entryName then name else piece) ∧
    renamed (renamed script) = renamed script := by
  intro name renamed
  have whole := isWhole_entryPointName isLabel
  have different := entryPointName_ne isLabel
  have replaces (cs : List Char) : renamed cs = replaceWord entryName name cs :=
    rename_text_eq (dollar_not_mem_entryPointName isLabel) entryName cs
  simp only [replaces]
  refine ⟨Text.not_standsAt_replaceWord isWhole_entryName whole different script,
    Text.wordCount_replaceWord isWhole_entryName whole different script,
    ⟨Text.stretches script, Text.flatten_stretches script, fun i => ?_, ?_⟩,
    Text.replaceWord_replaceWord isWhole_entryName whole different script⟩
  · exact Text.standsAt_iff_stretches isWhole_entryName
  · exact Text.replaceWord_eq_flatMap isWhole_entryName name script

end EntryPoint

def neighbours : List Char :=
  "RUNTIME(MY_RUNTIME, $RUNTIME, RUNTIME2, éRUNTIME); aRUNTIME(); // 'RUNTIME'".toList

theorem rename_text_pieces_neighbours :
    IsLabel "a" ∧
    (∀ i, ¬StandsAt entryName (Transformer.text.rename entryName "aRUNTIME".toList neighbours) i) ∧
    wordCount "aRUNTIME".toList
      (Transformer.text.rename entryName "aRUNTIME".toList neighbours) = 4 ∧
    Transformer.text.rename entryName "aRUNTIME".toList neighbours =
      "aRUNTIME(MY_RUNTIME, $aRUNTIME, RUNTIME2, éRUNTIME); aRUNTIME(); // 'aRUNTIME'".toList := by
  have letter : IsLetter 'a' := by decide
  have isLabel : IsLabel "a" := ⟨by decide, by simpa using letter⟩
  have name : (entryPointName "a").toList = "aRUNTIME".toList := by decide
  obtain ⟨none, count, -⟩ := rename_text_pieces isLabel neighbours
  rw [name] at none count
  refine ⟨isLabel, none, count.trans ?_, ?_⟩
  · decide +kernel
  · decide +kernel

end ComponentCompiler.Script
