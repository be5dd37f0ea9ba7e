import ComponentCompiler.Proofs.Json.Reading
import ComponentCompiler.Proofs.Json.Storing

namespace ComponentCompiler.Json

open Text (dropWhile_append_of_stops)

/-- The text reads as the value wherever it stands, white space at its ends aside. -/
def ReadsAs (text : List Char) (v : Value) : Prop :=
  ∃ raw gap, (∀ c ∈ gap, Raw.isGap c = true) ∧
    (∀ bound more, EndsNumber more →
      Raw.value? (bound + 1) (Raw.skipGap (text ++ more)) = some (raw, gap ++ more)) ∧
    ∀ depth, raw.toValue? depth = some v

/-- A value is read from the text, but it ends before the text does, and what is left of the text is
not what comes after a value. -/
def Breaks (text : List Char) : Prop :=
  ∃ raw c left, Raw.isGap c = false ∧ c ≠ ',' ∧ c ≠ '\x7d' ∧ ∀ bound more,
    Raw.value? (bound + 1) (Raw.skipGap (text ++ more)) = some (raw, c :: (left ++ more))

theorem ReadsBack.readsAs {v : Value} (back : ReadsBack v) : ReadsAs v.text v := by
  obtain ⟨raw, read, value⟩ := id back
  refine ⟨raw, [], List.forall_mem_nil _, fun bound more ends => ?_, value⟩
  have front : Raw.skipGap (v.text ++ more) = v.text ++ more :=
    dropWhile_append_of_stops (List.forall_mem_nil _) (back.stops more)
  rw [front, List.nil_append]
  exact read bound more ends

structure Member where
  key : String
  text : List Char
  value : Value

namespace Member

def entry (m : Member) : String × Value :=
  (m.key, m.value)

def written (gap : List Char) (m : Member) : List Char :=
  quote m.key ++ ':' :: (gap ++ m.text)

end Member

def objectText (gap : List Char) (members : List Member) : List Char :=
  '\x7b' :: (joinWith (',' :: gap) (members.map (Member.written gap)) ++ ['\x7d'])

def afterMember (gap : List Char) : List Member → List Char → List Char
  | [], more => '\x7d' :: more
  | m :: members, more => ',' :: (gap ++ (m.written gap ++ afterMember gap members more))

theorem joinWith_cons_cons (separator x y : List Char) (rest : List (List Char)) :
    joinWith separator (x :: y :: rest) = x ++ separator ++ joinWith separator (y :: rest) :=
  rfl

theorem mem_joinWith {separator : List Char} {texts : List (List Char)} {c : Char}
    (member : c ∈ joinWith separator texts) : c ∈ separator ∨ ∃ text ∈ texts, c ∈ text := by
  induction texts with
  | nil => cases member
  | cons text texts ih =>
    cases texts with
    | nil => exact .inr ⟨text, by simp, member⟩
    | cons next texts =>
      rw [joinWith_cons_cons, List.mem_append, List.mem_append] at member
      rcases member with (inText | inSeparator) | later
      · exact .inr ⟨text, by simp, inText⟩
      · exact .inl inSeparator
      · exact (ih later).imp_right fun ⟨t, isText, inText⟩ => ⟨t, List.mem_cons_of_mem _ isText, inText⟩

theorem joinWith_written (gap : List Char) (m : Member) (members : List Member) (more : List Char) :
    joinWith (',' :: gap) ((m :: members).map (Member.written gap)) ++ '\x7d' :: more =
      m.written gap ++ afterMember gap members more := by
  induction members generalizing m with
  | nil => rfl
  | cons next members ih =>
    rw [List.map_cons, List.map_cons, joinWith_cons_cons, ← List.map_cons, List.append_assoc, ih]
    simp [afterMember]

theorem length_le_afterMember (gap : List Char) (members : List Member) (more : List Char) :
    members.length ≤ (afterMember gap members more).length := by
  induction members with
  | nil => exact Nat.zero_le _
  | cons m members ih =>
    simp only [afterMember, List.length_cons, List.length_append]
    omega

theorem endsNumber_afterMember (gap : List Char) (members : List Member) (more : List Char) :
    EndsNumber (afterMember gap members more) := by
  intro c first
  cases members with
  | nil =>
    cases first
    decide
  | cons m members =>
    cases first
    decide

theorem skipGap_append {gap : List Char} (isGap : ∀ c ∈ gap, Raw.isGap c = true) (rest : List Char) :
    Raw.skipGap (gap ++ rest) = Raw.skipGap rest :=
  List.dropWhile_append_of_pos isGap

theorem skipGap_cons {c : Char} (apart : Raw.isGap c = false) (cs : List Char) :
    Raw.skipGap (c :: cs) = c :: cs := by
  simp [Raw.skipGap, apart]

section Items

variable {α : Type} {item : List Char → Option (α × List Char)} {close : Char} {bound : Nat}
  {cs left more : List Char} {x : α}

theorem items?_last (closes : close ≠ ',') (read : item (Raw.skipGap cs) = some (x, left))
    (next : Raw.skipGap left = close :: more) :
    Raw.items? item close (bound + 1) cs = some ([x], more) := by
  rw [Raw.items?, read]
  simp [next, closes]

theorem items?_cons (read : item (Raw.skipGap cs) = some (x, left))
    (next : Raw.skipGap left = ',' :: more) :
    Raw.items? item close (bound + 1) cs =
      (Raw.items? item close bound more).map fun (xs, rest) => (x :: xs, rest) := by
  rw [Raw.items?, read]
  cases reads : Raw.items? item close bound more <;> simp [next, reads]

theorem items?_stuck {c : Char} (read : item (Raw.skipGap cs) = some (x, left))
    (next : Raw.skipGap left = c :: more) (comma : c ≠ ',') (closes : c ≠ close) :
    Raw.items? item close bound cs = none := by
  cases bound with
  | zero => rfl
  | succ bound =>
    rw [Raw.items?, read]
    simp [next, comma, closes]

theorem bracketed?_eq_items? {c : Char} (apart : Raw.isGap c = false) (opens : c ≠ close)
    (cs : List Char) :
    Raw.bracketed? item close (c :: cs) = Raw.items? item close (cs.length + 1) (c :: cs) := by
  rw [Raw.bracketed?, skipGap_cons apart]
  simp [opens]

end Items

section Objects

variable {gap : List Char} (isGap : ∀ c ∈ gap, Raw.isGap c = true)

theorem skipGap_written (m : Member) (more : List Char) :
    Raw.skipGap (m.written gap ++ more) = m.written gap ++ more :=
  rfl

include isGap

theorem member?_written (value : List Char → Option (Raw × List Char)) (m : Member)
    (more : List Char) :
    Raw.member? value (m.written gap ++ more) = (value (Raw.skipGap (m.text ++ more))).map
      fun (raw, rest) => ((m.key.toList.map Char.toNat, raw), rest) := by
  have parts : m.written gap ++ more = '"' :: (m.key.toList.flatMap escapeChar ++
      '"' :: ':' :: (gap ++ (m.text ++ more))) := by simp [Member.written, quote]
  have colon : ∀ cs, Raw.skipGap (':' :: cs) = ':' :: cs := fun _ => rfl
  rw [parts, Raw.member?]
  simp only [units?_escaped, colon, skipGap_append isGap, Option.bind_eq_bind, Option.bind_some]
  cases value (Raw.skipGap (m.text ++ more)) <;> rfl

theorem items?_written {m : Member} {members : List Member}
    (reads : ∀ m' ∈ m :: members, ReadsAs m'.text m'.value) :
    ∃ raws, (∀ depth bound cs more, members.length < bound →
      Raw.skipGap cs = m.written gap ++ afterMember gap members more →
      Raw.items? (Raw.member? (Raw.value? (depth + 1))) '\x7d' bound cs = some (raws, more)) ∧
      ∀ depth acc, ((acc ++ (m :: members).map Member.entry).map Prod.fst).Nodup →
        Raw.toMembers? depth acc raws = some (acc ++ (m :: members).map Member.entry) := by
  induction members generalizing m with
  | nil =>
    obtain ⟨raw, blank, blanks, read, value⟩ := reads m (by simp)
    refine ⟨[(m.key.toList.map Char.toNat, raw)], fun depth bound cs more fits starts => ?_,
      fun depth acc distinct => ?_⟩
    · obtain ⟨bound, rfl⟩ := Nat.exists_eq_add_of_lt fits
      have item := member?_written isGap (Raw.value? (depth + 1)) m (afterMember gap [] more)
      rw [read depth _ (endsNumber_afterMember gap [] more), ← starts] at item
      exact items?_last (by decide) item (skipGap_append blanks _)
    · have put : putMember m.key m.value acc = acc ++ [m.entry] := putMember_of_nodup distinct
      simp [Raw.toMembers?, string?_toNat, value, put]
  | cons next members ih =>
    obtain ⟨raw, blank, blanks, read, value⟩ := reads m (by simp)
    obtain ⟨raws, readsNext, values⟩ := ih fun m' member => reads m' (List.mem_cons_of_mem m member)
    refine ⟨(m.key.toList.map Char.toNat, raw) :: raws, fun depth bound cs more fits starts => ?_,
      fun depth acc distinct => ?_⟩
    · obtain ⟨bound, rfl⟩ := Nat.exists_eq_add_of_lt fits
      have item := member?_written isGap (Raw.value? (depth + 1)) m
        (afterMember gap (next :: members) more)
      rw [read depth _ (endsNumber_afterMember gap (next :: members) more), ← starts] at item
      have others := readsNext depth ((next :: members).length + bound)
        (gap ++ (next.written gap ++ afterMember gap members more)) more (by simp; omega)
        ((skipGap_append isGap _).trans (skipGap_written next _))
      rw [items?_cons item (skipGap_append blanks _), others]
      rfl
    · have put : putMember m.key m.value acc = acc ++ [m.entry] := putMember_of_nodup distinct
      have later := values depth (acc ++ [m.entry]) (by simpa using distinct)
      simpa [Raw.toMembers?, string?_toNat, value, put] using later

theorem items?_of_breaks {m : Member} (breaks : Breaks m.text) (depth bound : Nat)
    {cs : List Char} {members : List Member} {more : List Char}
    (starts : Raw.skipGap cs = m.written gap ++ afterMember gap members more) :
    Raw.items? (Raw.member? (Raw.value? (depth + 1))) '\x7d' bound cs = none := by
  obtain ⟨raw, c, left, apart, comma, brace, read⟩ := breaks
  have item := member?_written isGap (Raw.value? (depth + 1)) m (afterMember gap members more)
  rw [read depth, ← starts] at item
  exact items?_stuck item (skipGap_cons apart _) comma brace

theorem items?_broken {m : Member} {members : List Member}
    (readable : ∀ m' ∈ m :: members, ReadsAs m'.text m'.value ∨ Breaks m'.text)
    (broken : ∃ m' ∈ m :: members, Breaks m'.text) (depth bound : Nat) {cs more : List Char}
    (starts : Raw.skipGap cs = m.written gap ++ afterMember gap members more) :
    Raw.items? (Raw.member? (Raw.value? (depth + 1))) '\x7d' bound cs = none := by
  induction members generalizing m cs bound with
  | nil =>
    obtain ⟨m', member, breaks⟩ := broken
    obtain rfl := List.mem_singleton.1 member
    exact items?_of_breaks isGap breaks depth bound starts
  | cons next members ih =>
    rcases readable m (by simp) with ⟨raw, blank, blanks, read, -⟩ | breaks
    · obtain ⟨m', member, breaks⟩ := broken
      rcases List.mem_cons.1 member with rfl | later
      · exact items?_of_breaks isGap breaks depth bound starts
      · cases bound with
        | zero => rfl
        | succ bound =>
          have item := member?_written isGap (Raw.value? (depth + 1)) m
            (afterMember gap (next :: members) more)
          rw [read depth _ (endsNumber_afterMember gap (next :: members) more), ← starts] at item
          rw [items?_cons item (skipGap_append blanks _),
            ih (fun m' member => readable m' (List.mem_cons_of_mem m member)) ⟨m', later, breaks⟩
              bound ((skipGap_append isGap _).trans (skipGap_written next _))]
          rfl
    · exact items?_of_breaks isGap breaks depth bound starts

omit isGap in
theorem read?_objectText (gap : List Char) (m : Member) (members : List Member) :
    ∃ depth bound, members.length < bound ∧ Raw.read? (objectText gap (m :: members)) =
      (Raw.items? (Raw.member? (Raw.value? (depth + 1))) '\x7d' bound
        (m.written gap ++ afterMember gap members [])).bind fun (raws, rest) =>
          if (Raw.skipGap rest).isEmpty then some (.object raws) else none := by
  have inside : objectText gap (m :: members) =
      '\x7b' :: (m.written gap ++ afterMember gap members []) := by
    rw [objectText, joinWith_written]
  obtain ⟨cs, front⟩ : ∃ cs, m.written gap ++ afterMember gap members [] = '"' :: cs := ⟨_, rfl⟩
  have many : members.length ≤ cs.length := by
    have after := length_le_afterMember gap members []
    have length := congrArg List.length front
    simp only [Member.written, quote, List.length_append, List.length_cons] at length
    omega
  have brace : Raw.skipGap ('\x7b' :: '"' :: cs) = '\x7b' :: '"' :: cs := rfl
  refine ⟨cs.length + 1, cs.length + 1, Nat.lt_succ_of_le many, ?_⟩
  rw [inside, front, Raw.read?, brace, List.length_cons, List.length_cons]
  have value : Raw.value? (cs.length + 1 + 1 + 1) ('\x7b' :: '"' :: cs) =
      (Raw.bracketed? (Raw.member? (Raw.value? (cs.length + 1 + 1))) '\x7d' ('"' :: cs)).map
        fun (members, rest) => (.object members, rest) := rfl
  rw [value, bracketed?_eq_items? rfl (by decide)]
  cases Raw.items? (Raw.member? (Raw.value? (cs.length + 1 + 1))) '\x7d' (cs.length + 1)
    ('"' :: cs) <;> rfl

theorem readObject?_objectText {members : List Member}
    (reads : ∀ m ∈ members, ReadsAs m.text m.value)
    (distinct : (members.map Member.key).Nodup) :
    readObject? (objectText gap members) = some (members.map Member.entry) := by
  obtain ⟨raws, read, values⟩ : ∃ raws, Raw.read? (objectText gap members) = some (.object raws) ∧
      ∀ depth, Raw.toMembers? depth [] raws = some (members.map Member.entry) := by
    cases members with
    | nil => exact ⟨[], rfl, fun _ => rfl⟩
    | cons m members =>
      obtain ⟨raws, items, values⟩ := items?_written isGap reads
      obtain ⟨depth, bound, fits, read⟩ := read?_objectText gap m members
      rw [items depth bound _ [] fits (skipGap_written m _)] at read
      have keys : (([] ++ (m :: members).map Member.entry).map Prod.fst).Nodup := by
        simpa [Member.entry, Function.comp_def] using distinct
      exact ⟨raws, read, fun depth => values depth [] keys⟩
  have value : Raw.toValue? depthLimit (.object raws) =
      some (.object (members.map Member.entry)) := by
    rw [Raw.toValue?, values]
    rfl
  rw [readObject?, Value.read?, read, Option.bind_some, value]

theorem readObject?_broken {members : List Member}
    (readable : ∀ m ∈ members, ReadsAs m.text m.value ∨ Breaks m.text)
    (broken : ∃ m ∈ members, Breaks m.text) : readObject? (objectText gap members) = none := by
  have read : Raw.read? (objectText gap members) = none := by
    obtain ⟨m, members, rfl⟩ : ∃ m rest, members = m :: rest := by
      obtain ⟨m, member, -⟩ := broken
      exact List.exists_cons_of_ne_nil (List.ne_nil_of_mem member)
    obtain ⟨depth, bound, -, read⟩ := read?_objectText gap m members
    rw [read, items?_broken isGap readable broken depth bound (skipGap_written m _)]
    rfl
  rw [readObject?, Value.read?, read]
  rfl

end Objects

end ComponentCompiler.Json
