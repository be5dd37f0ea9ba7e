import ComponentCompiler.Proofs.Expression.Lexing

namespace ComponentCompiler.Expression

open Number (Binary64)
open Text (Stops isBlank)

def Operator.token : Operator → Token
  | .eq => .eqEq
  | .ne => .notEq
  | .and => .andAnd
  | .or => .orOr

def Expr.isCompound : Expr → Bool
  | .literal _ | .path _ => false
  | .not _ | .binary .. => true

def operandTokens (e : Expr) (ts : List Token) : List Token :=
  if e.isCompound then .openParen :: (ts ++ [.closeParen]) else ts

inductive Prints : Expr → List Token → Prop
  | word {s : String} {v : Value} (known : keyword? s = some v) : Prints (.literal v) [.name s]
  | string (s : String) : Prints (.literal (.string s)) [.string s]
  | number (x : Binary64) : Prints (.literal (.number x)) [.number x]
  | path (p : Path) (free : keyword? p.first = none) : Prints (.path p.segments) p.tokens
  | not {e : Expr} {ts : List Token} (operand : Prints e ts) :
    Prints (.not e) (.bang :: operandTokens e ts)
  | binary (op : Operator) {l r : Expr} {ls rs : List Token} (left : Prints l ls)
    (right : Prints r rs) :
    Prints (.binary op l r) (operandTokens l ls ++ op.token :: operandTokens r rs)

inductive Spaced : List Token → List Char → Prop
  | single {t : Token} {text : List Char} (spells : Spells t text) : Spaced [t] text
  | cons {t : Token} {ts : List Token} {text gap cs : List Char} (spells : Spells t text)
    (nonempty : gap ≠ []) (blank : ∀ c ∈ gap, isBlank c = true) (rest : Spaced ts cs) :
    Spaced (t :: ts) (text ++ (gap ++ cs))

def Printed (e : Expr) (source : String) : Prop :=
  ∃ ts, Prints e ts ∧ Spaced ts source.toList

/-- The expressions with numbers that have decimal digits, and with paths of names that do not
start with a word. -/
def Printable : Expr → Prop
  | .literal (.number x) => ∃ d : Decimal, d.value = x
  | .literal _ => True
  | .path segments => ∃ p : Path, p.segments = segments ∧ keyword? p.first = none
  | .not e => Printable e
  | .binary _ l r => Printable l ∧ Printable r

def Phrase.ofComparison (p : Phrase .comparison) : Phrase (.chain .or) :=
  .chain .or (.chain .and p (.none _)) (.none _)

@[simp] theorem Phrase.tokens_ofComparison (p : Phrase .comparison) :
    p.ofComparison.tokens = p.tokens :=
  (List.append_nil _).trans (List.append_nil _)

@[simp] theorem Phrase.expr_ofComparison (p : Phrase .comparison) :
    p.ofComparison.expr = p.expr :=
  rfl

def Phrase.ofOperands (p q : Phrase .primary) : Operator → Phrase (.chain .or)
  | .eq => .ofComparison (.related .equal (.plain p) (.plain q))
  | .ne => .ofComparison (.related .unequal (.plain p) (.plain q))
  | .and =>
    .chain .or (.chain .and (.operand (.plain p)) (.next .and (.operand (.plain q)) (.none _)))
      (.none _)
  | .or =>
    .chain .or (.chain .and (.operand (.plain p)) (.none _))
      (.next .or (.chain .and (.operand (.plain q)) (.none _)) (.none _))

@[simp] theorem Phrase.tokens_ofOperands (p q : Phrase .primary) (op : Operator) :
    (Phrase.ofOperands p q op).tokens = p.tokens ++ op.token :: q.tokens := by
  cases op <;> simp [ofOperands, Phrase.tokens, Further.tokens, Operator.token, Relation.token,
    Connective.token]

@[simp] theorem Phrase.expr_ofOperands (p q : Phrase .primary) (op : Operator) :
    (Phrase.ofOperands p q op).expr = .binary op p.expr q.expr := by
  cases op <;> simp [ofOperands, Phrase.expr, Further.exprAfter, Relation.operator,
    Connective.operator]

variable {e : Expr} {ts : List Token}

theorem Prints.exists_primary (prints : Prints e ts) (simple : e.isCompound = false) :
    ∃ p : Phrase .primary, p.tokens = ts ∧ p.expr = e := by
  cases prints with
  | word known => exact ⟨.word _ _ (keyword?_eq_some.1 known), rfl, rfl⟩
  | string s => exact ⟨.string s, rfl, rfl⟩
  | number x => exact ⟨.number x, rfl, rfl⟩
  | path p free => exact ⟨.path p.first p.more (keyword?_eq_none.1 free), rfl, rfl⟩
  | not => cases simple
  | binary => cases simple

theorem Prints.exists_operand (prints : Prints e ts)
    (whole : ∃ p : Phrase (.chain .or), p.tokens = ts ∧ p.expr = e) :
    ∃ p : Phrase .primary, p.tokens = operandTokens e ts ∧ p.expr = e := by
  cases compound : e.isCompound with
  | false =>
    rw [operandTokens, compound]
    exact prints.exists_primary compound
  | true =>
    obtain ⟨p, rfl, rfl⟩ := whole
    exact ⟨.group p, by simp [operandTokens, compound, Phrase.tokens], rfl⟩

theorem Prints.exists_phrase (prints : Prints e ts) :
    ∃ p : Phrase (.chain .or), p.tokens = ts ∧ p.expr = e := by
  have simple {e : Expr} {ts : List Token} (prints : Prints e ts) (simple : e.isCompound = false) :
      ∃ p : Phrase (.chain .or), p.tokens = ts ∧ p.expr = e := by
    obtain ⟨p, rfl, rfl⟩ := prints.exists_primary simple
    exact ⟨.ofComparison (.operand (.plain p)), by simp [Phrase.tokens], by simp [Phrase.expr]⟩
  induction prints with
  | word known => exact simple (.word known) rfl
  | string s => exact simple (.string s) rfl
  | number x => exact simple (.number x) rfl
  | path p free => exact simple (.path p free) rfl
  | not operand ih =>
    obtain ⟨p, tokens, rfl⟩ := operand.exists_operand ih
    exact ⟨.ofComparison (.operand (.not (.plain p))), by simp [Phrase.tokens, tokens],
      by simp [Phrase.expr]⟩
  | binary op left right ihl ihr =>
    obtain ⟨p, tokens, rfl⟩ := left.exists_operand ihl
    obtain ⟨q, tokens', rfl⟩ := right.exists_operand ihr
    exact ⟨.ofOperands p q op, by simp [tokens, tokens'], by simp⟩

theorem Prints.ofTokens (prints : Prints e ts) : ofTokens ts = .ok e :=
  (ofTokens_eq_ok_iff.trans expr_eq_ok_iff).2 prints.exists_phrase

theorem Path.parse_text {p : Path} (prints : Prints e p.tokens) : parse p.text = .ok e := by
  rw [parse, toList_text, tokens_of_written p.written]
  exact prints.ofTokens

theorem Written.append_blank {cs gap : List Char} (written : Written ts cs)
    (blank : ∀ c ∈ gap, isBlank c = true) : Written ts (gap ++ cs) := by
  induction gap with
  | nil => exact written
  | cons c gap ih =>
    rw [List.forall_mem_cons] at blank
    exact .blank blank.1 (ih blank.2)

theorem Spaced.written {cs : List Char} (spaced : Spaced ts cs) : Written ts cs := by
  induction spaced with
  | @single t text spells =>
    rw [← List.append_nil text]
    exact .token spells (by simp [Stops]) .nil
  | @cons t ts text gap cs spells nonempty blank rest ih =>
    refine .token spells ?_ (ih.append_blank blank)
    obtain ⟨c, gap, rfl⟩ := List.exists_cons_of_ne_nil nonempty
    intro d first
    cases first
    exact goesOn_eq_false_of_isBlank t (blank c List.mem_cons_self)

theorem exists_spaced {t : Token} {ts : List Token} (spelled : ∀ u ∈ t :: ts, ∃ text, Spells u text) :
    ∃ cs, Spaced (t :: ts) cs := by
  induction ts generalizing t with
  | nil =>
    obtain ⟨text, spells⟩ := spelled t List.mem_cons_self
    exact ⟨text, .single spells⟩
  | cons u ts ih =>
    rw [List.forall_mem_cons] at spelled
    obtain ⟨text, spells⟩ := spelled.1
    obtain ⟨cs, rest⟩ := ih spelled.2
    exact ⟨_, .cons spells (List.cons_ne_nil ' ' []) (List.forall_mem_singleton.2 rfl) rest⟩

structure Spellable (ts : List Token) : Prop where
  nonempty : ts ≠ []
  spelled : ∀ t ∈ ts, ∃ text, Spells t text

theorem Spellable.single {t : Token} {text : List Char} (spells : Spells t text) :
    Spellable [t] :=
  ⟨List.cons_ne_nil _ _, by simpa using ⟨text, spells⟩⟩

theorem Spellable.append {us : List Token} (left : Spellable ts) (right : Spellable us) :
    Spellable (ts ++ us) :=
  ⟨by simp [left.nonempty], List.forall_mem_append.2 ⟨left.spelled, right.spelled⟩⟩

theorem Spellable.operandTokens (spellable : Spellable ts) (e : Expr) :
    Spellable (operandTokens e ts) := by
  rw [Expression.operandTokens]
  split
  · exact (single .openParen).append (spellable.append (single .closeParen))
  · exact spellable

theorem Operator.exists_spells (op : Operator) : ∃ text, Spells op.token text := by
  cases op
  · exact ⟨_, .equal⟩
  · exact ⟨_, .unequal⟩
  · exact ⟨_, .andAnd⟩
  · exact ⟨_, .orOr⟩

theorem spelled_pathTokens {more : List String} (named : ∀ s ∈ more, isName s.toList = true) :
    ∀ t ∈ pathTokens more, ∃ text, Spells t text := by
  induction more with
  | nil => simp [pathTokens]
  | cons s more ih =>
    rw [List.forall_mem_cons] at named
    rw [pathTokens, List.forall_mem_cons, List.forall_mem_cons]
    exact ⟨⟨_, .dot⟩, ⟨_, .name named.1⟩, ih named.2⟩

theorem Path.spellable (p : Path) : Spellable p.tokens := by
  have named := List.forall_mem_cons.1 p.named
  exact ⟨List.cons_ne_nil _ _,
    List.forall_mem_cons.2 ⟨⟨_, .name named.1⟩, spelled_pathTokens named.2⟩⟩

theorem spellable_word {s : String} {v : Value} (known : keyword? s = some v) :
    Spellable [.name s] := by
  have named : ∀ w ∈ words, isName w.1.toList = true := by decide
  exact .single (.name (named _ (keyword?_eq_some.1 known)))

theorem exists_prints (printable : Printable e) : ∃ ts, Prints e ts ∧ Spellable ts := by
  induction e with
  | literal v =>
    have word {s : String} (known : keyword? s = some v) :
        ∃ ts, Prints (.literal v) ts ∧ Spellable ts := ⟨_, .word known, spellable_word known⟩
    cases v with
    | bool b =>
      cases b with
      | true => exact word (s := "true") rfl
      | false => exact word (s := "false") rfl
    | null => exact word (s := "null") rfl
    | string s => exact ⟨_, .string s, .single (.string (.inl rfl) s)⟩
    | number x =>
      obtain ⟨d, rfl⟩ := printable
      exact ⟨_, .number _, .single (.number d)⟩
  | path segments =>
    obtain ⟨p, rfl, free⟩ := printable
    exact ⟨_, .path p free, p.spellable⟩
  | not e ih =>
    obtain ⟨ts, prints, spellable⟩ := ih printable
    exact ⟨_, .not prints, (Spellable.single .bang).append (spellable.operandTokens e)⟩
  | binary op l r ihl ihr =>
    obtain ⟨ls, left, spellable⟩ := ihl printable.1
    obtain ⟨rs, right, spellable'⟩ := ihr printable.2
    obtain ⟨text, spells⟩ := op.exists_spells
    exact ⟨_, .binary op left right, (spellable.operandTokens l).append
      ((Spellable.single spells).append (spellable'.operandTokens r))⟩

/-- A printed expression is read as the expression, and there is no printable one that cannot be
printed. -/
theorem parse_printed (printable : Printable e) :
    (∃ source, Printed e source) ∧ ∀ source, Printed e source → parse source = .ok e := by
  constructor
  · obtain ⟨ts, prints, spellable⟩ := exists_prints printable
    obtain ⟨t, ts, rfl⟩ := List.exists_cons_of_ne_nil spellable.nonempty
    obtain ⟨cs, spaced⟩ := exists_spaced spellable.spelled
    exact ⟨String.ofList cs, _, prints, by rwa [String.toList_ofList]⟩
  · rintro source ⟨ts, prints, spaced⟩
    rw [parse, tokens_of_written spaced.written]
    exact prints.ofTokens

def threeHalves : Decimal :=
  ⟨['1'], some ['5'], List.cons_ne_nil _ _, List.all_eq_true.1 rfl⟩

def negation : Expr :=
  .binary .or (.not (.binary .eq (.path ["ctx", "a-b"]) (.literal (.string "it's \"so\""))))
    (.literal (.number threeHalves.value))

theorem parse_printed_negation :
    Printable negation ∧
      parse "( ! ( ctx . a-b\t=== \"it's \\\"so\\\"\" ) ) || 1.5" = .ok negation := by
  let path : Path := ⟨"ctx", ["a-b"], by decide⟩
  have printable : Printable negation := ⟨⟨⟨path, rfl, by decide⟩, trivial⟩, threeHalves, rfl⟩
  have prints : Prints negation _ :=
    .binary .or (.not (.binary .eq (.path path (by decide)) (.string _))) (.number _)
  have gap (c : Char) {t : Token} {ts : List Token} {text cs : List Char}
      (blank : isBlank c = true) (spells : Spells t text) (rest : Spaced ts cs) :
      Spaced (t :: ts) (text ++ ([c] ++ cs)) :=
    .cons spells (List.cons_ne_nil c []) (List.forall_mem_singleton.2 blank) rest
  have space {t : Token} {ts : List Token} {text cs : List Char} (spells : Spells t text)
      (rest : Spaced ts cs) : Spaced (t :: ts) (text ++ ([' '] ++ cs)) :=
    gap ' ' rfl spells rest
  have spaced := space .openParen <| space .bang <| space .openParen <|
    space (.name (s := "ctx") (by decide)) <| space .dot <|
    gap '\t' rfl (.name (s := "a-b") (by decide)) <|
    space .identical <| space (.string (.inl rfl) "it's \"so\"") <| space .closeParen <|
    space .closeParen <| space .orOr <| .single (.number threeHalves)
  exact ⟨printable, (parse_printed printable).2 _ ⟨_, prints, spaced⟩⟩

end ComponentCompiler.Expression
