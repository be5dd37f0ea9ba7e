import ComponentCompiler.Proofs.Identity.Allocation
import ComponentCompiler.Proofs.Json.Members
import ComponentCompiler.Proofs.Template.Context
import ComponentCompiler.Proofs.Text.Bytes
import ComponentCompiler.Proofs.Text.Unambiguous
import ComponentCompiler.Script.Emission

namespace ComponentCompiler.Script

open Identity (IsBinding IsLabel IsLetter)
open Json (Member afterMember objectText quote)
open Markup (Attribute)
open Template (Context)
open Text (Stops Unambiguous bytes unambiguous_span)

def contextMember (entry : String × String) : Member :=
  ⟨entry.1, quote entry.2, .string entry.2⟩

theorem toJson_eq (c : Context) :
    c.toJson = .object (c.entries.map fun e => (contextMember e).entry) :=
  rfl

theorem text_toJson (c : Context) :
    c.toJson.text = objectText [] (c.entries.map contextMember) := by
  have texts (entries : List (String × String)) :
      Json.Value.memberTexts (entries.map fun e => (contextMember e).entry) =
        (entries.map contextMember).map (Member.written []) := by
    induction entries with
    | nil => rfl
    | cons entry rest ih =>
      rw [List.map_cons, List.map_cons, List.map_cons, ← ih, Member.entry, Json.Value.memberTexts]
      rfl
  rw [toJson_eq, Json.Value.text, texts]
  rfl

theorem readObject?_toJson {c : Context} (ascending : Context.Ascending c.entries) :
    Json.readObject? c.toJson.text = some (c.entries.map fun e => (e.1, .string e.2)) := by
  have distinct : ((c.entries.map contextMember).map Member.key).Nodup := by
    rw [List.map_map, List.nodup_iff_pairwise_ne, List.pairwise_map]
    exact ascending.imp ne_of_lt
  have entries : (c.entries.map contextMember).map Member.entry =
      c.entries.map fun e => (e.1, .string e.2) := List.map_map
  rw [text_toJson, ← entries]
  refine Json.readObject?_objectText (List.forall_mem_nil _) (fun m listed => ?_) distinct
  obtain ⟨entry, -, rfl⟩ := List.mem_map.1 listed
  exact (Json.readsBack_string entry.2).readsAs

section Shows

variable {r r' : List Char}

theorem quote_append_inj {s s' : String} (same : quote s ++ r = quote s' ++ r') :
    s = s' ∧ r = r' := by
  have inside (s : String) (r : List Char) :
      quote s ++ r = '"' :: (s.toList.flatMap Json.escapeChar ++ '"' :: r) := by simp [quote]
  rw [inside, inside] at same
  have units := congrArg Json.Raw.units? (List.cons.inj same).2
  rw [Json.units?_escaped, Json.units?_escaped] at units
  obtain ⟨codes, rfl⟩ := Prod.mk.inj (Option.some.inj units)
  have text := congrArg Json.string? codes
  rw [Json.string?_toNat, Json.string?_toNat] at text
  exact ⟨Option.some.inj text, rfl⟩

theorem written_append_inj {entry entry' : String × String}
    (same : (contextMember entry).written [] ++ r = (contextMember entry').written [] ++ r') :
    entry = entry' ∧ r = r' := by
  simp only [contextMember, Member.written, List.nil_append, List.append_assoc,
    List.cons_append] at same
  obtain ⟨name, rest⟩ := quote_append_inj same
  obtain ⟨value, rest⟩ := quote_append_inj (List.cons.inj rest).2
  exact ⟨Prod.ext name value, rest⟩

theorem afterMember_inj {entries entries' : List (String × String)}
    (same : afterMember [] (entries.map contextMember) r =
      afterMember [] (entries'.map contextMember) r') :
    entries = entries' ∧ r = r' := by
  induction entries generalizing entries' with
  | nil =>
    cases entries' with
    | nil => exact ⟨rfl, (List.cons.inj same).2⟩
    | cons entry' rest' => exact absurd (List.cons.inj same).1 (by decide)
  | cons entry rest ih =>
    cases entries' with
    | nil => exact absurd (List.cons.inj same).1 (by decide)
    | cons entry' rest' =>
      obtain ⟨rfl, rest⟩ := written_append_inj (List.cons.inj same).2
      obtain ⟨rfl, rfl⟩ := ih rest
      exact ⟨rfl, rfl⟩

def afterBrace : List (String × String) → List Char → List Char
  | [], more => '\x7d' :: more
  | entry :: rest, more =>
    (contextMember entry).written [] ++ afterMember [] (rest.map contextMember) more

theorem text_toJson_append (c : Context) (r : List Char) :
    c.toJson.text ++ r = '\x7b' :: afterBrace c.entries r := by
  rw [text_toJson, objectText]
  cases c.entries with
  | nil => rfl
  | cons entry rest =>
    rw [afterBrace, ← Json.joinWith_written]
    simp

theorem afterBrace_inj {entries entries' : List (String × String)}
    (same : afterBrace entries r = afterBrace entries' r') : entries = entries' ∧ r = r' := by
  cases entries with
  | nil =>
    cases entries' with
    | nil => exact ⟨rfl, (List.cons.inj same).2⟩
    | cons entry' rest' => exact absurd (List.cons.inj same).1 (by decide)
  | cons entry rest =>
    cases entries' with
    | nil => exact absurd (List.cons.inj same).1 (by decide)
    | cons entry' rest' =>
      obtain ⟨rfl, others⟩ := written_append_inj same
      obtain ⟨rfl, rfl⟩ := afterMember_inj others
      exact ⟨rfl, rfl⟩

theorem text_toJson_append_inj {c c' : Context}
    (same : c.toJson.text ++ r = c'.toJson.text ++ r') : c = c' ∧ r = r' := by
  rw [text_toJson_append, text_toJson_append] at same
  obtain ⟨entries, rest⟩ := afterBrace_inj (List.cons.inj same).2
  exact ⟨congrArg Context.mk entries, rest⟩

end Shows

theorem toList_activationCall (id binding : String) (c : Context) :
    (activationCall id binding c).toList =
      id.toList ++ ("RUNTIME(document.querySelector('[chid=\"".toList ++
        (binding.toList ++ ("\"]'), ".toList ++ (c.toJson.text ++ ");".toList)))) := by
  simp [activationCall, entryPointName, entryName, Identity.bindingAttribute]

theorem unambiguous_label :
    Unambiguous String.toList IsLabel (Stops fun c => decide (IsLetter c)) := by
  intro id id' r r' isLabel isLabel' stops stops' same
  have letters {s : String} (isLabel : IsLabel s) : ∀ c ∈ s.toList, decide (IsLetter c) = true :=
    fun c listed => decide_eq_true (isLabel.letters c listed)
  obtain ⟨texts, rest⟩ :=
    unambiguous_span _ (letters isLabel) (letters isLabel') stops stops' same
  exact ⟨String.toList_inj.1 texts, rest⟩

theorem unambiguous_binding :
    Unambiguous String.toList IsBinding (Stops fun c => decide (c ≠ '"')) := by
  intro binding binding' r r' isBinding isBinding' stops stops' same
  have unquoted {s : String} (isBinding : IsBinding s) :
      ∀ c ∈ s.toList, decide (c ≠ '"') = true :=
    fun c listed => decide_eq_true fun quote => isBinding.quote_not_mem (quote ▸ listed)
  obtain ⟨texts, rest⟩ :=
    unambiguous_span _ (unquoted isBinding) (unquoted isBinding') stops stops' same
  exact ⟨String.toList_inj.1 texts, rest⟩

theorem activationCall_inj {id id' binding binding' : String} {c c' : Context}
    (isLabel : IsLabel id) (isLabel' : IsLabel id') (isBinding : IsBinding binding)
    (isBinding' : IsBinding binding')
    (same : activationCall id binding c = activationCall id' binding' c') :
    id = id' ∧ binding = binding' ∧ c = c' := by
  have texts := congrArg String.toList same
  rw [toList_activationCall, toList_activationCall] at texts
  have name (rest : List Char) : Stops (fun c => decide (IsLetter c))
      ("RUNTIME(document.querySelector('[chid=\"".toList ++ rest) := by
    rintro c ⟨⟩
    decide
  have quote (rest : List Char) :
      Stops (fun c => decide (c ≠ '"')) ("\"]'), ".toList ++ rest) := by
    rintro c ⟨⟩
    decide
  obtain ⟨rfl, afterLabel⟩ := unambiguous_label isLabel isLabel' (name _) (name _) texts
  obtain ⟨rfl, afterBinding⟩ := unambiguous_binding isBinding isBinding' (quote _) (quote _)
    (List.append_cancel_left afterLabel)
  obtain ⟨rfl, -⟩ := text_toJson_append_inj (List.append_cancel_left afterBinding)
  exact ⟨rfl, rfl, rfl⟩

/-- The attributes of an instance are read back from its context: names in the order of their bytes,
each once, with the value in effect.  And a call shows the entry point, the binding and the context
that it was made of. -/
theorem activation_snapshot :
    (∀ attributes : List Attribute, ∃ members : List (String × String),
      Json.readObject? (Context.ofAttributes attributes).toJson.text =
        some (members.map fun m => (m.1, .string m.2)) ∧
      (members.Pairwise fun m n => bytes m.1 < bytes n.1) ∧
      (∀ name, (∃ value, (name, value) ∈ members) ↔ ∃ a ∈ attributes, a.name = name) ∧
      ∀ name value, (name, value) ∈ members ↔ Attribute.get? attributes name = some value) ∧
    ∀ {id id' binding binding' : String} {c c' : Context},
      IsLabel id → IsLabel id' → IsBinding binding → IsBinding binding' →
        activationCall id binding c = activationCall id' binding' c' →
          id = id' ∧ binding = binding' ∧ c = c' := by
  refine ⟨fun attributes => ?_, activationCall_inj⟩
  have ascending := Context.ascending_ofAttributes attributes
  have values (name value : String) : (name, value) ∈ (Context.ofAttributes attributes).entries ↔
      Attribute.get? attributes name = some value := by
    rw [ascending.mem_iff, Context.get?_ofAttributes]
  refine ⟨(Context.ofAttributes attributes).entries, readObject?_toJson ascending,
    ascending.imp Text.bytes_lt_bytes, fun name => ?_, values⟩
  have present := Attribute.has_eq_isSome attributes name
  simp only [values, ← Option.isSome_iff_exists, ← present, Attribute.has, List.any_eq_true,
    decide_eq_true_eq]

def repeatedTitle : List Attribute :=
  [⟨"title", "a"⟩, ⟨"é", "\"\\\n"⟩, ⟨"title", "b"⟩]

theorem activation_snapshot_repeatedTitle :
    (∃ members : List (String × String),
      Json.readObject? (Context.ofAttributes repeatedTitle).toJson.text =
        some (members.map fun m => (m.1, .string m.2)) ∧
      ("title", "a") ∉ members ∧ ("title", "b") ∈ members ∧ ("é", "\"\\\n") ∈ members) ∧
    IsLabel "a" ∧ IsBinding "chid-0" ∧ IsBinding "chid-1" ∧
    ∀ c c', activationCall "a" "chid-0" c ≠ activationCall "a" "chid-1" c' := by
  have letter : IsLetter 'a' := by decide
  have digits : Text.isAsciiDigit '0' = true ∧ Text.isAsciiDigit '1' = true := by decide
  have isLabel : IsLabel "a" := ⟨by decide, by simpa using letter⟩
  have first : IsBinding "chid-0" := ⟨"0", by decide, by simp [digits]⟩
  have second : IsBinding "chid-1" := ⟨"1", by decide, by simp [digits]⟩
  obtain ⟨snapshot, shows⟩ := activation_snapshot
  obtain ⟨members, read, -, -, values⟩ := snapshot repeatedTitle
  refine ⟨⟨members, read, ?_, ?_, ?_⟩, isLabel, first, second, fun c c' same => ?_⟩
  · rw [values]
    decide
  · rw [values]
    decide
  · rw [values]
    decide
  · exact absurd (shows isLabel isLabel first second same).2.1 (by decide)

end ComponentCompiler.Script
