import ComponentCompiler.Component.Registry
import ComponentCompiler.Proofs.Json.Storing
import ComponentCompiler.Proofs.Lookup
import ComponentCompiler.Proofs.Text.Lowercase
import ComponentCompiler.Proofs.Text.Words

namespace ComponentCompiler.Component

open Text (EndsInSigma IsLower isBlank lowercaseFrom lowercaseWithin meetsCased trim trimEnd)

def keyChars (extension name : List Char) : List Char :=
  if '.' :: extension <:+ lowercaseFrom [] (trim name) then lowercaseFrom [] (trim name)
  else lowercaseFrom [] (trim name) ++ '.' :: extension

theorem toList_normalizeKey (name extension : String) :
    (normalizeKey name extension).toList = keyChars extension.toList name.toList := by
  have lower : (Text.lowercase (Text.trimmed name)).toList =
      lowercaseFrom [] (trim name.toList) := by
    simp [Text.lowercase, Text.trimmed]
  have dotted : (suffix extension).toList = '.' :: extension.toList := by simp [suffix]
  rw [normalizeKey, keyChars, dotted, lower]
  by_cases ends : '.' :: extension.toList <:+ lowercaseFrom [] (trim name.toList)
  · rw [if_pos (List.isSuffixOf_iff_suffix.2 ends), if_pos ends, lower]
  · rw [if_neg (mt List.isSuffixOf_iff_suffix.1 ends), if_neg ends, String.toList_append, lower,
      dotted]

theorem isLower_dot : IsLower '.' := by
  have same : (Text.lower '.' == '.' && '.'.toNat != 0x130) = true := by decide +kernel
  simpa [IsLower] using same

section

variable {extension name : List Char}

theorem forall_isLower_dotted :
    (∀ c ∈ '.' :: extension, IsLower c) ↔ ∀ c ∈ extension, IsLower c := by
  rw [List.forall_mem_cons, and_iff_right isLower_dot]

theorem isLower_of_suffix {before cs : List Char}
    (ends : '.' :: extension <:+ lowercaseFrom before cs) : ∀ c ∈ extension, IsLower c :=
  forall_isLower_dotted.1 fun _ member => Text.isLower_of_mem_lowercaseFrom (ends.subset member)

theorem keyChars_of_not_isLower (capital : ¬∀ c ∈ extension, IsLower c) :
    keyChars extension name = lowercaseFrom [] (trim name) ++ '.' :: extension :=
  if_neg fun ends => capital (isLower_of_suffix ends)

theorem trim_append_dotted {front : List Char} (closed : trimEnd extension = extension)
    (trimmed : trim front = front) :
    trim (front ++ '.' :: extension) = front ++ '.' :: extension := by
  obtain ⟨starts, -⟩ := Text.trim_eq_self_iff.1 trimmed
  have ends := Text.trimEnd_eq_self_iff.1 closed
  have dot : isBlank '.' = false := by decide
  refine Text.trim_eq_self_iff.2 ⟨fun c first => ?_, fun c last => ?_⟩
  · cases front with
    | nil =>
      cases first
      exact dot
    | cons d front => exact starts c first
  · rw [List.getLast?_append_of_ne_nil _ (List.cons_ne_nil _ _), List.getLast?_cons] at last
    cases final : extension.getLast? with
    | none =>
      rw [final] at last
      cases last
      exact dot
    | some d =>
      rw [final] at last
      cases last
      exact ends _ final

theorem trim_keyChars (closed : trimEnd extension = extension) (name : List Char) :
    trim (keyChars extension name) = keyChars extension name := by
  have trimmed : trim (lowercaseFrom [] (trim name)) = lowercaseFrom [] (trim name) :=
    Text.trim_lowercaseFrom (Text.trim_trim name)
  rw [keyChars]
  split
  · exact trimmed
  · exact trim_append_dotted closed trimmed

theorem isLower_of_mem_keyChars (small : ∀ c ∈ extension, IsLower c) {c : Char}
    (member : c ∈ keyChars extension name) : IsLower c := by
  rw [keyChars] at member
  split at member
  · exact Text.isLower_of_mem_lowercaseFrom member
  · rcases List.mem_append.1 member with inName | inSuffix
    · exact Text.isLower_of_mem_lowercaseFrom inName
    · exact forall_isLower_dotted.2 small c inSuffix

theorem suffix_keyChars (extension name : List Char) :
    '.' :: extension <:+ keyChars extension name := by
  rw [keyChars]
  split
  · assumption
  · exact List.suffix_append ..

theorem length_keyChars_lt (closed : trimEnd extension = extension)
    (capital : ¬∀ c ∈ extension, IsLower c) (name : List Char) :
    (keyChars extension name).length <
      (keyChars extension (keyChars extension name)).length := by
  have again : keyChars extension (keyChars extension name) = _ := keyChars_of_not_isLower capital
  rw [again, trim_keyChars closed, List.length_append, List.length_cons]
  have kept := Text.length_le_lowercaseFrom [] (keyChars extension name)
  omega

theorem keyChars_keyChars_iff (closed : trimEnd extension = extension) :
    keyChars extension (keyChars extension name) = keyChars extension name ↔
      ∀ c ∈ extension, IsLower c := by
  constructor
  · intro same
    by_contra capital
    have longer := length_keyChars_lt closed capital name
    rw [same] at longer
    exact Nat.lt_irrefl _ longer
  · intro small
    have lower : lowercaseFrom [] (keyChars extension name) = keyChars extension name :=
      Text.lowercaseFrom_of_isLower (fun _ => isLower_of_mem_keyChars small) []
    rw [keyChars, trim_keyChars closed, lower, if_pos (suffix_keyChars ..)]

theorem keyChars_lowercase (trimmed : trim name = name) :
    keyChars extension (lowercaseFrom [] name) = keyChars extension name := by
  have lower : lowercaseFrom [] (lowercaseFrom [] name) = lowercaseFrom [] name :=
    Text.lowercaseFrom_of_isLower (fun _ => Text.isLower_of_mem_lowercaseFrom) []
  rw [keyChars, Text.trim_lowercaseFrom trimmed, lower, keyChars, trimmed]

/-- The extension written behind a name gives the key of the name exactly when it is in lower case
and does not take a capital sigma from the end of its word. -/
theorem keyChars_append_iff (closed : trimEnd extension = extension) (trimmed : trim name = name)
    (bare : ¬ '.' :: extension <:+ lowercaseFrom [] name) :
    keyChars extension (name ++ '.' :: extension) = keyChars extension name ↔
      (∀ c ∈ extension, IsLower c) ∧ ¬(meetsCased extension = true ∧ EndsInSigma [] name) := by
  have key : keyChars extension name = lowercaseFrom [] name ++ '.' :: extension := by
    rw [keyChars, trimmed, if_neg bare]
  have lower := Text.lowercaseFrom_append [] name ('.' :: extension)
  have whole := trim_append_dotted closed trimmed
  by_cases small : ∀ c ∈ extension, IsLower c
  · have dotted : lowercaseFrom (name.reverse ++ []) ('.' :: extension) = '.' :: extension :=
      Text.lowercaseFrom_of_isLower (forall_isLower_dotted.2 small) _
    have meets : meetsCased ('.' :: extension) = meetsCased extension := by
      rw [meetsCased, List.dropWhile_cons_of_pos (by decide), meetsCased]
    rw [key, keyChars, whole, lower, dotted, if_pos (List.suffix_append ..),
      List.append_cancel_right_eq, Text.lowercaseWithin_eq_iff, meets, and_iff_right small]
  · -- The extension in lower case is no extension, so the key gets a second one.
    rw [key, keyChars_of_not_isLower small, whole]
    refine ⟨fun same => ?_, fun both => absurd both.1 small⟩
    have shorter := congrArg List.length same
    have kept := Text.length_le_lowercaseFrom (name.reverse ++ []) ('.' :: extension)
    rw [lower] at shorter
    simp only [List.length_append, Text.length_lowercaseWithin, List.length_cons] at shorter kept
    omega

end

namespace Registry

/-- Each definition stands once, under the key of its name. -/
structure IsKeyed (r : Registry) : Prop where
  once : (r.entries.map Prod.fst).Nodup
  named : ∀ entry ∈ r.entries, entry.1 = r.keyOf entry.2.name

namespace IsKeyed

theorem insert {r : Registry} (keyed : r.IsKeyed) (d : Definition) : (r.insert d).IsKeyed where
  once := by
    rw [Registry.insert, Json.map_fst_putMember]
    split
    · exact keyed.once
    · next new => exact List.concat_eq_append ▸ (List.nodup_concat _ _).2 ⟨new, keyed.once⟩
  named entry member := by
    rcases Json.mem_putMember member with rfl | old
    · rfl
    · exact keyed.named entry old

theorem foldl_insert {r : Registry} (keyed : r.IsKeyed) (definitions : List Definition) :
    (definitions.foldl Registry.insert r).IsKeyed := by
  induction definitions generalizing r with
  | nil => exact keyed
  | cons d definitions ih => exact ih (keyed.insert d)

theorem get?_eq_some_iff {r : Registry} (keyed : r.IsKeyed) {key : String} {d : Definition} :
    r.get? key = some d ↔ (key, d) ∈ r.entries :=
  lookup_eq_some_iff_mem keyed.once

end IsKeyed

theorem isKeyed_ofList (extension : String) (definitions : List Definition) :
    (ofList extension definitions).IsKeyed :=
  IsKeyed.foldl_insert ⟨by simp [ofExtension], by simp [ofExtension]⟩ definitions

theorem extension_foldl_insert (r : Registry) (definitions : List Definition) :
    (definitions.foldl insert r).extension = r.extension := by
  induction definitions generalizing r with
  | nil => rfl
  | cons d definitions ih => exact ih (r.insert d)

theorem entries_insert_ne_nil (r : Registry) (d : Definition) : (r.insert d).entries ≠ [] := by
  rw [insert]
  cases r.entries with
  | nil => exact List.cons_ne_nil _ _
  | cons entry entries =>
    rw [Json.putMember]
    split <;> exact List.cons_ne_nil _ _

theorem entries_ofList_ne_nil (extension : String) {definitions : List Definition}
    (some_ : definitions ≠ []) : (ofList extension definitions).entries ≠ [] := by
  obtain ⟨front, d, rfl⟩ := (List.eq_nil_or_concat' definitions).resolve_left some_
  rw [ofList, List.foldl_append]
  exact entries_insert_ne_nil _ d

theorem IsKeyed.forTag?_keys_iff {r : Registry} (keyed : r.IsKeyed)
    (closed : trimEnd r.extension.toList = r.extension.toList) (stored : r.entries ≠ []) :
    (∀ entry ∈ r.entries, r.forTag? entry.1 = some entry.2) ↔
      ∀ c ∈ r.extension.toList, IsLower c := by
  have fixed (name : String) : r.keyOf (r.keyOf name) = r.keyOf name ↔
      ∀ c ∈ r.extension.toList, IsLower c := by
    rw [← String.toList_inj, keyOf, keyOf, toList_normalizeKey, toList_normalizeKey,
      keyChars_keyChars_iff closed]
  constructor
  · intro found
    obtain ⟨entry, rest, parts⟩ := List.exists_cons_of_ne_nil stored
    have member : entry ∈ r.entries := parts ▸ List.mem_cons_self
    have again := keyed.named _ (keyed.get?_eq_some_iff.1 (found entry member))
    rw [← fixed entry.2.name, ← keyed.named entry member]
    exact again.trans (keyed.named entry member).symm
  · intro small entry member
    rw [forTag?, keyed.named entry member, (fixed _).2 small, keyed.get?_eq_some_iff,
      ← keyed.named entry member]
    exact member

end Registry

theorem lowercase_eq_self_iff {s : String} :
    Text.lowercase s = s ↔ ∀ c ∈ s.toList, IsLower c := by
  rw [← String.toList_inj, Text.lowercase, String.toList_ofList, Text.lowercaseFrom_eq_self_iff]

theorem trimmed_eq_self_iff {s : String} : Text.trimmed s = s ↔ trim s.toList = s.toList := by
  rw [← String.toList_inj, Text.trimmed, String.toList_ofList]

theorem trimEnd_of_trimmed {cs : List Char} (trimmed : trim cs = cs) : trimEnd cs = cs :=
  Text.trimEnd_eq_self_iff.2 (Text.trim_eq_self_iff.1 trimmed).2

theorem dropWhile_dots {extension : List Char} (closed : trimEnd extension = extension) :
    trimEnd (extension.dropWhile (· = '.')) = extension.dropWhile (· = '.') ∧
      ((∀ c ∈ extension.dropWhile (· = '.'), IsLower c) ↔ ∀ c ∈ extension, IsLower c) := by
  have parts := List.takeWhile_append_dropWhile (p := (· = '.')) (l := extension)
  constructor
  · refine Text.trimEnd_eq_self_iff.2 fun c last => Text.trimEnd_eq_self_iff.1 closed c ?_
    rw [← parts, List.getLast?_append, show List.getLast? _ = some c from last]
    rfl
  · refine ⟨fun small c member => ?_, fun small c member =>
      small c ((List.dropWhile_suffix _).subset member)⟩
    rw [← parts, List.mem_append] at member
    rcases member with dot | after
    · have same := List.all_eq_true.1 List.all_takeWhile c dot
      rw [decide_eq_true_iff] at same
      exact same ▸ isLower_dot
    · exact small c after

/-- The keys under an extension without white space around it.  A key is its own key, and leads to
the definition stored under it, exactly when the extension is in lower case.  The case of a name
does not matter, and the extension may be written behind it exactly when it is in lower case and no
capital sigma stands before it that would then be inside of a word. -/
theorem normalizeKey_canonical {extension : String} (closed : Text.trimmed extension = extension) :
    (∀ name, normalizeKey (normalizeKey name extension) extension = normalizeKey name extension ↔
        Text.lowercase extension = extension) ∧
      (∀ definitions, definitions ≠ [] →
        ((∀ entry ∈ (Registry.ofList extension definitions).entries,
            (Registry.ofList extension definitions).forTag? entry.1 = some entry.2) ↔
          Text.lowercase extension = extension)) ∧
      ∀ name, Text.trimmed name = name →
        ¬("." ++ extension).toList <:+ (Text.lowercase name).toList →
          normalizeKey (Text.lowercase name) extension = normalizeKey name extension ∧
            (normalizeKey (name ++ "." ++ extension) extension = normalizeKey name extension ↔
              Text.lowercase extension = extension ∧
                ¬(meetsCased extension.toList = true ∧ EndsInSigma [] name.toList)) := by
  have ends := trimEnd_of_trimmed (trimmed_eq_self_iff.1 closed)
  rw [lowercase_eq_self_iff]
  refine ⟨fun name => ?_, fun definitions some_ => ?_, fun name trimmed bare => ⟨?_, ?_⟩⟩
  · rw [← String.toList_inj, toList_normalizeKey, toList_normalizeKey, keyChars_keyChars_iff ends]
  · have kept : (Registry.ofList extension definitions).extension.toList =
        extension.toList.dropWhile (· = '.') := by
      rw [Registry.ofList, Registry.extension_foldl_insert, Registry.ofExtension,
        String.toList_ofList]
    obtain ⟨ends', small⟩ := dropWhile_dots ends
    rw [(Registry.isKeyed_ofList extension definitions).forTag?_keys_iff (by rw [kept, ends'])
      (Registry.entries_ofList_ne_nil extension some_), kept, small]
  · rw [← String.toList_inj, toList_normalizeKey, toList_normalizeKey, Text.lowercase,
      String.toList_ofList, keyChars_lowercase (trimmed_eq_self_iff.1 trimmed)]
  · have bare' : ¬ '.' :: extension.toList <:+ lowercaseFrom [] name.toList := by
      simpa [Text.lowercase] using bare
    have spelled : (name ++ "." ++ extension).toList = name.toList ++ '.' :: extension.toList := by
      simp
    rw [← String.toList_inj, toList_normalizeKey, toList_normalizeKey, spelled,
      keyChars_append_iff ends (trimmed_eq_self_iff.1 trimmed) bare']

theorem normalizeKey_canonical_card :
    Text.trimmed "js" = "js" ∧ Text.trimmed "Card" = "Card" ∧
      ¬("." ++ "js").toList <:+ (Text.lowercase "Card").toList ∧
        normalizeKey (normalizeKey "Card" "js") "js" = normalizeKey "Card" "js" ∧
          (∀ entry ∈ (Registry.ofList "js" [⟨"Card", "<b></b>", none, none, none⟩]).entries,
            (Registry.ofList "js" [⟨"Card", "<b></b>", none, none, none⟩]).forTag? entry.1 =
              some entry.2) ∧
            normalizeKey (Text.lowercase "Card") "js" = normalizeKey "Card" "js" ∧
              normalizeKey ("Card" ++ "." ++ "js") "js" = normalizeKey "Card" "js" := by
  have closed : Text.trimmed "js" = "js" := by decide +kernel
  have small : Text.lowercase "js" = "js" := by decide +kernel
  have trimmed : Text.trimmed "Card" = "Card" := by decide +kernel
  have bare : ¬("." ++ "js").toList <:+ (Text.lowercase "Card").toList := by decide +kernel
  have plain : ¬(meetsCased "js".toList = true ∧ EndsInSigma [] "Card".toList) := by
    rintro ⟨-, front, back, parts, -⟩
    have sigma : Char.ofNat 0x3A3 ∈ "Card".toList := parts ▸ by simp
    revert sigma
    decide
  obtain ⟨keys, found, spellings⟩ := normalizeKey_canonical closed
  obtain ⟨case, written⟩ := spellings "Card" trimmed bare
  exact ⟨closed, trimmed, bare, (keys "Card").2 small, (found _ (List.cons_ne_nil _ _)).2 small,
    case, written.2 ⟨small, plain⟩⟩

/-- A capital sigma is final in a name and not before its extension, and an extension in capitals is
not found behind a name in lower case. -/
theorem respelled_keys_differ :
    (Text.trimmed "js" = "js" ∧ Text.trimmed "ΟΔΟΣ" = "ΟΔΟΣ" ∧
      ¬("." ++ "js").toList <:+ (Text.lowercase "ΟΔΟΣ").toList ∧
        normalizeKey ("ΟΔΟΣ" ++ "." ++ "js") "js" ≠ normalizeKey "ΟΔΟΣ" "js") ∧
      Text.trimmed "JS" = "JS" ∧
        normalizeKey (normalizeKey "card" "JS") "JS" ≠ normalizeKey "card" "JS" := by
  decide +kernel

end ComponentCompiler.Component
