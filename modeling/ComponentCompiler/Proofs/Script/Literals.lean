import ComponentCompiler.Proofs.Json.Scalars
import ComponentCompiler.Proofs.Script.BareKeys

namespace ComponentCompiler.Script

open Json (Breaks Member ReadsAs joinWith joinWith_cons_cons mem_joinWith objectText)
open Text (IsWhole isBlank isWord trimStart)

structure KeyShape (key : List Char) : Prop where
  bare : IsBareKey key
  unescaped : ∀ c ∈ key, Json.escapeChar c = [c]
  inline : ∀ c ∈ key, c ∉ ['\x7d', '\n']

theorem keyShape {key : List Char} (plain : isPlainKey key = true) : KeyShape key := by
  have ascii : ∀ n < 0x80, Expression.isNamePart (Char.ofNat n) = true → Char.ofNat n = '-' ∨
      isKeyPart (Char.ofNat n) = true ∧ Json.escapeChar (Char.ofNat n) = [Char.ofNat n] ∧
      Char.ofNat n ∉ ['\x7d', '\n'] := by decide
  rw [isPlainKey, Bool.and_eq_true, Bool.not_eq_true', List.contains_eq_mem,
    decide_eq_false_iff_not] at plain
  obtain ⟨named, dash⟩ := plain
  obtain ⟨k, ks, rfl, start, -⟩ := Expression.isName_iff.1 named
  have shape : ∀ c ∈ k :: ks, isKeyPart c = true ∧ Json.escapeChar c = [c] ∧
      c ∉ ['\x7d', '\n'] := by
    intro c member
    have facts := Expression.forall_isNamePart (P := fun c => c = '-' ∨ isKeyPart c = true ∧
      Json.escapeChar c = [c] ∧ c ∉ ['\x7d', '\n']) ascii
      (Expression.isNamePart_of_isName named c member)
    exact facts.resolve_left fun same => dash (same ▸ member)
  exact ⟨⟨k, ks, rfl, start, fun c member => (shape c (List.mem_cons_of_mem k member)).1⟩,
    fun c member => (shape c member).2.1, fun c member => (shape c member).2.2⟩

theorem quote_key {key : String} (shape : KeyShape key.toList) :
    Json.quote key = '"' :: (key.toList ++ ['"']) := by
  have same : key.toList.flatMap Json.escapeChar = key.toList := by
    rw [List.flatMap_congr shape.unescaped]
    exact List.flatMap_singleton' _
  rw [Json.quote, same]

def authored (m : Member) : List Char :=
  m.key.toList ++ ':' :: ' ' :: m.text

def literal (members : List Member) : List Char :=
  '\x7b' :: (joinWith [',', ' '] (members.map authored) ++ ['\x7d'])

def quoted (m : Member) : Member :=
  { m with text := quoteKeys m.text }

theorem quoteKeys_authored {c : Char} (lead : c = '\x7b' ∨ c = ',') {gap : List Char}
    (blank : ∀ c ∈ gap, isBlank c = true) {m : Member} (shape : KeyShape m.key.toList) {d : Char}
    (parts : d = '\x7d' ∨ d = ',') (rest : List Char) :
    quoteKeys (c :: (gap ++ (authored m ++ d :: rest))) =
      c :: (gap ++ ((quoted m).written [' '] ++ quoteKeys (d :: rest))) := by
  have keyed : IsKeyed gap m.key.toList [] := ⟨blank, shape.bare, List.forall_mem_nil _⟩
  have bare := quoteKeys_bare lead keyed (' ' :: m.text ++ d :: rest)
  have space : quoteKeys (' ' :: m.text) = ' ' :: quoteKeys m.text := quoteKeys_cons_of_none rfl
  rw [quoteKeys_append_cons parts, space] at bare
  simpa [authored, quoted, Member.written, quote_key shape] using bare

theorem quoteKeys_members {c : Char} (lead : c = '\x7b' ∨ c = ',') {gap : List Char}
    (blank : ∀ c ∈ gap, isBlank c = true) {members : List Member} (some_ : members ≠ [])
    (keys : ∀ m ∈ members, isPlainKey m.key.toList = true) :
    quoteKeys (c :: (gap ++ (joinWith [',', ' '] (members.map authored) ++ ['\x7d']))) =
      c :: (gap ++ (joinWith [',', ' '] ((members.map quoted).map (Member.written [' '])) ++
        ['\x7d'])) := by
  induction members generalizing c gap with
  | nil => exact absurd rfl some_
  | cons m members ih =>
    have shape := keyShape (keys m (by simp))
    cases members with
    | nil => exact quoteKeys_authored lead blank shape (.inl rfl) []
    | cons next members =>
      have space : ∀ c ∈ [' '], isBlank c = true := List.forall_mem_singleton.2 rfl
      have others := ih (.inr rfl) space (List.cons_ne_nil next members)
        fun m' member => keys m' (List.mem_cons_of_mem m member)
      have here := quoteKeys_authored lead blank shape (.inr rfl)
        ([' '] ++ (joinWith [',', ' '] ((next :: members).map authored) ++ ['\x7d']))
      rw [others] at here
      simpa [joinWith_cons_cons] using here

theorem quoteKeys_literal {members : List Member} (some_ : members ≠ [])
    (keys : ∀ m ∈ members, isPlainKey m.key.toList = true) :
    quoteKeys (literal members) = objectText [' '] (members.map quoted) :=
  quoteKeys_members (.inl rfl) (List.forall_mem_nil _) some_ keys

theorem readDefaults_literal {members : List Member} (some_ : members ≠ [])
    (keys : ∀ m ∈ members, isPlainKey m.key.toList = true)
    (distinct : (members.map Member.key).Nodup) (reads : ∀ m ∈ members, ReadsAs m.text m.value)
    (same : ∀ m ∈ members, quoteKeys m.text = m.text) :
    readDefaults (literal members) = members.map Member.entry := by
  have unquoted : members.map quoted = members := by
    have unchanged : ∀ m ∈ members, quoted m = id m := fun m member => by
      rw [quoted, same m member, id]
    rw [List.map_congr_left unchanged, List.map_id]
  have blank : ∀ c ∈ [' '], Json.Raw.isGap c = true := List.forall_mem_singleton.2 rfl
  rw [readDefaults, quoteKeys_literal some_ keys, unquoted,
    Json.readObject?_objectText blank reads distinct]
  rfl

theorem readDefaults_literal_of_holdsBareKey {members : List Member}
    (keys : ∀ m ∈ members, isPlainKey m.key.toList = true)
    (values : ∀ m ∈ members, Json.Value.read? m.text = some m.value ∧ m.value.isScalar = true)
    (braceless : ∀ m ∈ members, '\x7b' ∉ m.text) (holds : ∃ m ∈ members, HoldsBareKey m.text) :
    readDefaults (literal members) = [] := by
  have breaks : ∀ m ∈ members, HoldsBareKey m.text → Breaks (quoteKeys m.text) := by
    intro m member holds
    obtain ⟨read, scalar⟩ := values m member
    obtain ⟨absent, -⟩ | ⟨xs, gap, key, space, ys, keyed, parts, image⟩ :=
      quoteKeys_cases (braceless m member)
    · exact absurd holds absent
    · obtain ⟨before, ⟨k, ks, rfl, start, -⟩, -⟩ := keyed
      have plain := forall_isKeyStart
        (P := fun k => Json.Raw.isGap k = false ∧ k ≠ ',' ∧ k ≠ '\x7d') (by decide) start
      rw [image, List.cons_append]
      exact Json.breaks_of_quote read scalar parts before plain
  have readable : ∀ m ∈ members.map quoted, ReadsAs m.text m.value ∨ Breaks m.text := by
    rintro _ isQuoted
    obtain ⟨m, member, rfl⟩ := List.mem_map.1 isQuoted
    by_cases holds : HoldsBareKey m.text
    · exact .inr (breaks m member holds)
    · have same : (quoted m).text = m.text := quoteKeys_eq_self (braceless m member) holds
      rw [same]
      exact .inl (Json.readsAs_of_read? (values m member).1 (values m member).2)
  obtain ⟨m, member, holds⟩ := holds
  have broken : ∃ m ∈ members.map quoted, Breaks m.text :=
    ⟨quoted m, List.mem_map_of_mem member, breaks m member holds⟩
  have blank : ∀ c ∈ [' '], Json.Raw.isGap c = true := List.forall_mem_singleton.2 rfl
  rw [readDefaults, quoteKeys_literal (List.ne_nil_of_mem member) keys,
    Json.readObject?_broken blank readable broken]
  rfl

theorem literal?_eq_some {cs text rest : List Char} : literal? cs = some (text, rest) ↔
    ∃ inside, ('\x7d' ∉ inside ∧ '\n' ∉ inside) ∧ cs = inside ++ '\x7d' :: rest ∧
      text = inside ++ ['\x7d'] := by
  constructor
  · intro found
    induction cs generalizing text with
    | nil => cases found
    | cons c cs ih =>
      rw [literal?] at found
      split at found
      next brace =>
        cases found
        exact ⟨[], ⟨List.not_mem_nil, List.not_mem_nil⟩, by rw [brace]; rfl, by rw [brace]; rfl⟩
      next brace =>
        split at found
        next => cases found
        next feed =>
          obtain ⟨⟨text', rest'⟩, later, same⟩ := Option.map_eq_some_iff.1 found
          cases same
          obtain ⟨inside, ⟨noBrace, noFeed⟩, rfl, rfl⟩ := ih later
          have inline : '\x7d' ∉ c :: inside ∧ '\n' ∉ c :: inside :=
            ⟨List.not_mem_cons_of_ne_of_not_mem (Ne.symm brace) noBrace,
              List.not_mem_cons_of_ne_of_not_mem (Ne.symm feed) noFeed⟩
          exact ⟨c :: inside, inline, rfl, rfl⟩
  · rintro ⟨inside, ⟨noBrace, noFeed⟩, rfl, rfl⟩
    induction inside with
    | nil => rfl
    | cons c inside ih =>
      rw [List.mem_cons, not_or] at noBrace noFeed
      rw [List.cons_append, literal?, if_neg (Ne.symm noBrace.1), if_neg (Ne.symm noFeed.1),
        ih noBrace.2 noFeed.2]
      rfl

def IsDefault (ahead text rest : List Char) : Prop :=
  ∃ gap space inside, (∀ c ∈ gap, isBlank c = true) ∧ (∀ c ∈ space, isBlank c = true) ∧
    ('\x7d' ∉ inside ∧ '\n' ∉ inside) ∧ text = '\x7b' :: (inside ++ ['\x7d']) ∧
    ahead = contextName ++ (gap ++ '=' :: (space ++ '\x7b' :: (inside ++ '\x7d' :: rest)))

theorem isWhole_contextName : IsWhole contextName :=
  ⟨by decide, List.all_eq_true.1 (by decide)⟩

theorem defaultAt?_eq_some {before : Option Char} {ahead text rest : List Char} :
    defaultAt? before ahead = some (text, rest) ↔
      (∀ c ∈ before, isWord c = false) ∧ IsDefault ahead text rest := by
  constructor
  · intro found
    rw [defaultAt?] at found
    split at found
    next edge =>
      split at found
      next more named =>
        split at found
        next afterEquals equals =>
          split at found
          next afterBrace brace =>
            obtain ⟨⟨inside, rest'⟩, closed, same⟩ := Option.map_eq_some_iff.1 found
            cases same
            obtain ⟨gap, gapBlank, rfl⟩ := (Text.trimStart_eq_cons rfl).1 equals
            obtain ⟨space, spaceBlank, rfl⟩ := (Text.trimStart_eq_cons rfl).1 brace
            obtain ⟨inside, inline, rfl, rfl⟩ := literal?_eq_some.1 closed
            obtain rfl := Text.after?_eq_some.1 named
            have apart := (Text.isWordEdge_word (c := 'c') rfl).1 edge
            exact ⟨apart, gap, space, inside, gapBlank, spaceBlank, inline, rfl, rfl⟩
          next => cases found
        next => cases found
      next => cases found
    next => cases found
  · rintro ⟨apart, gap, space, inside, gapBlank, spaceBlank, inline, rfl, rfl⟩
    have edge : Text.isWordEdge before (contextName ++ (gap ++ '=' :: (space ++
        '\x7b' :: (inside ++ '\x7d' :: rest)))).head? = true :=
      (Text.isWordEdge_word (c := 'c') rfl).2 apart
    have equals (more : List Char) : trimStart (gap ++ '=' :: more) = '=' :: more :=
      (Text.trimStart_eq_cons rfl).2 ⟨gap, gapBlank, rfl⟩
    have brace (more : List Char) : trimStart (space ++ '\x7b' :: more) = '\x7b' :: more :=
      (Text.trimStart_eq_cons rfl).2 ⟨space, spaceBlank, rfl⟩
    rw [defaultAt?, if_pos edge, Text.after?_eq_some.2 rfl]
    simp only [equals, brace, literal?_eq_some.2 ⟨inside, inline, rfl, rfl⟩]
    rfl

/-- The context has a default where the text ahead starts. -/
def StartsDefault (before ahead : List Char) : Prop :=
  (∀ c ∈ before.getLast?, isWord c = false) ∧ ∃ text rest, IsDefault ahead text rest

theorem startsDefault_iff {before ahead : List Char} :
    StartsDefault before ahead ↔ (defaultAt? before.getLast? ahead).isSome = true := by
  simp only [Option.isSome_iff_exists, Prod.exists, defaultAt?_eq_some, StartsDefault, exists_and_left]

instance (before ahead : List Char) : Decidable (StartsDefault before ahead) :=
  decidable_of_iff _ startsDefault_iff.symm

theorem exists_afterWord?_of_startsDefault {before ahead : List Char}
    (starts : StartsDefault before ahead) :
    ∃ rest, Text.afterWord? contextName before.getLast? ahead = some rest := by
  obtain ⟨apart, text, rest, gap, space, inside, gapBlank, -, -, -, rfl⟩ := starts
  have stops : Text.Stops isWord (gap ++ '=' :: (space ++ '\x7b' :: (inside ++ '\x7d' :: rest))) :=
    Text.stops_append_cons (fun c member => Text.isWord_eq_false_of_isBlank (gapBlank c member)) rfl
  exact ⟨_, isWhole_contextName.afterWord?_eq_some.2 ⟨rfl, apart, stops⟩⟩

theorem findDefault?_append {before : Option Char} {front : List Char} (rest : List Char)
    (missed : ∀ xs ys, front = xs ++ ys → ys ≠ [] →
      defaultAt? (xs.getLast?.or before) (ys ++ rest) = none) :
    findDefault? before (front ++ rest) =
      (findDefault? (front.getLast?.or before) rest).map fun (head, found) => (front ++ head, found) := by
  induction front generalizing before with
  | nil => simp
  | cons c cs ih =>
    have here : defaultAt? before (c :: cs ++ rest) = none := missed [] (c :: cs) rfl (by simp)
    have later := @ih (some c) fun xs ys parts more => by
      have later := missed (c :: xs) ys (by simp [parts]) more
      rwa [Text.getLast?_cons_or] at later
    rw [List.cons_append] at here ⊢
    rw [findDefault?, here, later, Text.getLast?_cons_or, Option.map_map]
    rfl

theorem extractDefaults_first {front ahead text rest : List Char}
    (first : ∀ xs ys, front = xs ++ ys → ys ≠ [] → ¬StartsDefault xs (ys ++ ahead))
    (ends : ∀ c ∈ front.getLast?, isWord c = false) (isDefault : IsDefault ahead text rest) :
    extractDefaults (front ++ ahead) = (front ++ contextName ++ rest, readDefaults text) := by
  have missed : ∀ xs ys, front = xs ++ ys → ys ≠ [] →
      defaultAt? (xs.getLast?.or none) (ys ++ ahead) = none := by
    intro xs ys parts more
    have none_ := first xs ys parts more
    rw [startsDefault_iff, Option.not_isSome_iff_eq_none] at none_
    rwa [Option.or_none]
  have here : findDefault? (front.getLast?.or none) ahead = some ([], text, rest) := by
    have found := defaultAt?_eq_some.2 ⟨ends, isDefault⟩
    obtain ⟨c, cs, starts⟩ : ∃ c cs, ahead = c :: cs := by
      obtain ⟨gap, space, inside, -, -, -, -, rfl⟩ := isDefault
      exact ⟨_, _, rfl⟩
    rw [starts] at found ⊢
    rw [findDefault?, Option.or_none, found]
  rw [extractDefaults, findDefault?_append ahead missed, here]
  simp

theorem not_mem_members {d : Char} (ending : d ∈ ['\x7d', '\n']) {members : List Member}
    (keys : ∀ m ∈ members, isPlainKey m.key.toList = true) (texts : ∀ m ∈ members, d ∉ m.text) :
    d ∉ joinWith [',', ' '] (members.map authored) := by
  have apart : ∀ d ∈ ['\x7d', '\n'], d ∉ [',', ' '] ∧ d ≠ ':' ∧ d ≠ ' ' := by simp
  obtain ⟨separator, colon, space⟩ := apart d ending
  intro member
  rcases mem_joinWith member with between | ⟨text, isText, inText⟩
  · exact separator between
  · obtain ⟨m, isMember, rfl⟩ := List.mem_map.1 isText
    simp only [authored, List.mem_append, List.mem_cons, colon, space, false_or] at inText
    rcases inText with inKey | inValue
    · exact (keyShape (keys m isMember)).inline d inKey ending
    · exact texts m isMember inValue

theorem isDefault_literal {members : List Member}
    (keys : ∀ m ∈ members, isPlainKey m.key.toList = true)
    (inline : ∀ m ∈ members, '\x7d' ∉ m.text ∧ '\n' ∉ m.text) (rest : List Char) :
    IsDefault (contextName ++ ' ' :: '=' :: ' ' :: (literal members ++ rest)) (literal members)
      rest := by
  have space : ∀ c ∈ [' '], isBlank c = true := List.forall_mem_singleton.2 rfl
  have inside := And.intro
    (not_mem_members (by simp) keys fun m member => (inline m member).1)
    (not_mem_members (by simp) keys fun m member => (inline m member).2)
  exact ⟨[' '], [' '], _, space, space, inside, rfl, by simp [literal]⟩

/-- A script whose first default is a literal of values without brackets, with a text for each. -/
structure DefaultingScript where
  before : List Char
  members : List Member
  after : List Char
  nonempty : members ≠ []
  keys : ∀ m ∈ members, isPlainKey m.key.toList = true
  distinct : (members.map Member.key).Nodup
  values : ∀ m ∈ members, Json.Value.read? m.text = some m.value ∧ m.value.isScalar = true
  inline : ∀ m ∈ members, '\x7b' ∉ m.text ∧ '\x7d' ∉ m.text ∧ '\n' ∉ m.text
  ends : ∀ c ∈ before.getLast?, isWord c = false
  first : ∀ n < before.length, ¬StartsDefault (before.take n)
    (before.drop n ++ ("ctx = ".toList ++ literal members ++ after))

namespace DefaultingScript

variable (s : DefaultingScript)

def text : List Char :=
  s.before ++ "ctx = ".toList ++ literal s.members ++ s.after

def bare : List Char :=
  s.before ++ "ctx".toList ++ s.after

theorem extractDefaults_eq : extractDefaults s.text = (s.bare, readDefaults (literal s.members)) := by
  have parts : "ctx = ".toList ++ literal s.members ++ s.after =
      contextName ++ ' ' :: '=' :: ' ' :: (literal s.members ++ s.after) := by
    simp [contextName]
  have first : ∀ xs ys, s.before = xs ++ ys → ys ≠ [] →
      ¬StartsDefault xs (ys ++ ("ctx = ".toList ++ literal s.members ++ s.after)) := by
    intro xs ys split some_
    have within : xs.length < s.before.length := by
      have nonempty := List.length_pos_iff.2 some_
      rw [split, List.length_append]
      omega
    have here := s.first xs.length within
    rwa [split, List.take_left, List.drop_left] at here
  rw [parts] at first
  have isDefault := isDefault_literal s.keys (fun m member => (s.inline m member).2) s.after
  have extracted := extractDefaults_first first s.ends isDefault
  rw [← parts] at extracted
  simpa [text, bare, contextName] using extracted

end DefaultingScript

/-- The first default is always taken out of a script.  Its members are given, in order, unless the
text of a value has a comma that a name and a colon follow: then none of them is given. -/
theorem extractDefaults_literal (s : DefaultingScript) :
    (extractDefaults s.text).1 = s.bare ∧
      ((∀ m ∈ s.members, ¬HoldsBareKey m.text) →
        (extractDefaults s.text).2 = s.members.map Member.entry) ∧
      ((∃ m ∈ s.members, HoldsBareKey m.text) → (extractDefaults s.text).2 = []) := by
  rw [s.extractDefaults_eq]
  refine ⟨rfl, fun absent => ?_, fun holds => ?_⟩
  · exact readDefaults_literal s.nonempty s.keys s.distinct
      (fun m member => Json.readsAs_of_read? (s.values m member).1 (s.values m member).2)
      fun m member => quoteKeys_eq_self (s.inline m member).1 (absent m member)
  · exact readDefaults_literal_of_holdsBareKey s.keys s.values (fun m member => (s.inline m member).1)
      holds

theorem read?_half :
    Json.Value.read? "0.5".toList = some (.float (.finite false (Nat.pow 2 52) (-53))) := by
  have form : Json.Raw.read? "0.5".toList = some (.number ⟨false, [0], [5], none⟩) := rfl
  have float : Json.Numeral.float? ⟨false, [0], [5], none⟩ =
      some (.finite false (Nat.pow 2 52) (-53)) := by decide +kernel
  rw [Json.Value.read?, form, Option.bind_some, Json.Raw.toValue?, Json.Numeral.value?, float]
  rfl

def talkingScript : DefaultingScript where
  before := "/* ctx = 1 */ function RUNTIME(el, ".toList
  members := [⟨"$say", "\"a, \\\"b\\\": c,\"".toList, .string "a, \"b\": c,"⟩,
    ⟨"half", "0.5".toList, .float (.finite false (Nat.pow 2 52) (-53))⟩,
    ⟨"ctx", "null".toList, .null⟩]
  after := ") \x7b ctx = \x7b\x7d \x7d".toList
  nonempty := List.cons_ne_nil _ _
  keys := by decide
  distinct := by decide
  values := List.forall_mem_cons.2 ⟨⟨(Json.readsBack_string "a, \"b\": c,").read?, rfl⟩,
    List.forall_mem_cons.2 ⟨⟨read?_half, rfl⟩,
      List.forall_mem_singleton.2 ⟨Json.readsBack_null.read?, rfl⟩⟩⟩
  inline := by decide
  ends := by rintro c ⟨⟩; rfl
  first := by decide +kernel

theorem extractDefaults_literal_talkingScript :
    extractDefaults "/* ctx = 1 */ function RUNTIME(el, ctx = \x7b$say: \"a, \\\"b\\\": c,\", half: 0.5, ctx: null\x7d) \x7b ctx = \x7b\x7d \x7d".toList =
      ("/* ctx = 1 */ function RUNTIME(el, ctx) \x7b ctx = \x7b\x7d \x7d".toList,
        [("$say", .string "a, \"b\": c,"), ("half", .float (.finite false (Nat.pow 2 52) (-53))),
          ("ctx", .null)]) := by
  have absent : ∀ m ∈ talkingScript.members, ¬HoldsBareKey m.text := by decide
  obtain ⟨code, members, -⟩ := extractDefaults_literal talkingScript
  refine (congrArg extractDefaults ?_).trans (Prod.ext (code.trans ?_) (members absent))
  · decide +kernel
  · decide +kernel

def listingScript : DefaultingScript where
  before := "function RUNTIME(el, ".toList
  members := [⟨"k", "\"x, y: z\"".toList, .string "x, y: z"⟩]
  after := ") \x7b\x7d".toList
  nonempty := List.cons_ne_nil _ _
  keys := by decide
  distinct := by decide
  values := List.forall_mem_singleton.2 ⟨(Json.readsBack_string "x, y: z").read?, rfl⟩
  inline := by decide
  ends := by rintro c ⟨⟩; rfl
  first := by decide

/-- The words of a text are enough to lose it. -/
theorem extractDefaults_loses_text :
    (extractDefaults listingScript.text).2 ≠ listingScript.members.map Member.entry := by
  have none_ : (extractDefaults listingScript.text).2.isEmpty = true := by decide +kernel
  rw [List.isEmpty_iff.1 none_]
  exact nofun

end ComponentCompiler.Script
