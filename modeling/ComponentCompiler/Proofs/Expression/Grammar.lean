import ComponentCompiler.Expression.Syntax

/-!
# The grammar of directive expressions

```text
or         := and ( "||" and )*
and        := comparison ( "&&" comparison )*
comparison := unary ( ( "==" | "!=" ) unary )?
unary      := "!" unary | primary
primary    := string | number | word | path | "(" or ")"
path       := name ( "." name )*
```

A word is one of the four names that stand for a value, and no path starts with one.  A phrase is a
derivation in this grammar: it knows its tokens and the expression it stands for.

* `Phrase.eq_of_append`: tokens have at most one derivation, also when others follow that do not go
  on with it.
-/

namespace ComponentCompiler.Expression

open Number (Binary64)

inductive Connective
  | or
  | and

inductive Category
  | chain (c : Connective)
  | comparison
  | unary
  | primary

namespace Connective

def token : Connective → Token
  | .or => .orOr
  | .and => .andAnd

def operator : Connective → Operator
  | .or => .or
  | .and => .and

def operand : Connective → Category
  | .or => .chain .and
  | .and => .comparison

end Connective

inductive Relation
  | equal
  | unequal

namespace Relation

def token : Relation → Token
  | .equal => .eqEq
  | .unequal => .notEq

def operator : Relation → Operator
  | .equal => .eq
  | .unequal => .ne

end Relation

def words : List (String × Value) :=
  [("true", .bool true), ("false", .bool false), ("null", .null), ("undefined", .null)]

mutual

inductive Phrase : Category → Type
  | chain (c : Connective) (first : Phrase c.operand) (more : Further c) : Phrase (.chain c)
  | operand (e : Phrase .unary) : Phrase .comparison
  | related (r : Relation) (left right : Phrase .unary) : Phrase .comparison
  | not (e : Phrase .unary) : Phrase .unary
  | plain (e : Phrase .primary) : Phrase .unary
  | string (s : String) : Phrase .primary
  | number (x : Binary64) : Phrase .primary
  | word (s : String) (v : Value) (known : (s, v) ∈ words) : Phrase .primary
  | path (s : String) (more : List String) (free : ∀ w ∈ words, w.1 ≠ s) : Phrase .primary
  | group (e : Phrase (.chain .or)) : Phrase .primary

/-- The operands of a chain after the first, each with the connective before it. -/
inductive Further : Connective → Type
  | none (c : Connective) : Further c
  | next (c : Connective) (e : Phrase c.operand) (more : Further c) : Further c

end

def pathTokens : List String → List Token
  | [] => []
  | s :: more => .dot :: .name s :: pathTokens more

mutual

def Phrase.tokens {k : Category} : Phrase k → List Token
  | .chain _ first more => first.tokens ++ more.tokens
  | .operand e => e.tokens
  | .related r left right => left.tokens ++ r.token :: right.tokens
  | .not e => .bang :: e.tokens
  | .plain e => e.tokens
  | .string s => [.string s]
  | .number x => [.number x]
  | .word s _ _ => [.name s]
  | .path s more _ => .name s :: pathTokens more
  | .group e => .openParen :: (e.tokens ++ [.closeParen])

def Further.tokens {c : Connective} : Further c → List Token
  | .none _ => []
  | .next c e more => c.token :: (e.tokens ++ more.tokens)

end

mutual

def Phrase.expr {k : Category} : Phrase k → Expr
  | .chain _ first more => more.exprAfter first.expr
  | .operand e => e.expr
  | .related r left right => .binary r.operator left.expr right.expr
  | .not e => .not e.expr
  | .plain e => e.expr
  | .string s => .literal (.string s)
  | .number x => .literal (.number x)
  | .word _ v _ => .literal v
  | .path s more _ => .path (s :: more)
  | .group e => e.expr

def Further.exprAfter {c : Connective} (left : Expr) : Further c → Expr
  | .none _ => left
  | .next c e more => more.exprAfter (.binary c.operator left e.expr)

end

def Category.extending : Category → List Token
  | .primary => [.dot]
  | .unary => [.dot]
  | .comparison => [.dot, .eqEq, .notEq]
  | .chain .and => [.dot, .eqEq, .notEq, .andAnd]
  | .chain .or => [.dot, .eqEq, .notEq, .andAnd, .orOr]

def Category.Stops (k : Category) (rest : List Token) : Prop :=
  ∀ t ∈ rest.head?, t ∉ k.extending

namespace Category

variable {rest : List Token}

theorem stops_nil (k : Category) : k.Stops [] := by
  simp [Stops]

theorem stops_cons {k : Category} {t : Token} (ends : t ∉ k.extending) : k.Stops (t :: rest) := by
  simpa [Stops] using ends

theorem Stops.mono {k l : Category} (fewer : l.extending ⊆ k.extending) (stops : k.Stops rest) :
    l.Stops rest :=
  fun t member extends_ => stops t member (fewer extends_)

theorem Stops.operand {c : Connective} (stops : (chain c).Stops rest) : c.operand.Stops rest := by
  cases c with
  | or => exact stops.mono (by decide)
  | and => exact stops.mono (by decide)

theorem stops_connective (c : Connective) : c.operand.Stops (c.token :: rest) := by
  cases c with
  | or => exact stops_cons (by decide)
  | and => exact stops_cons (by decide)

theorem stops_relation (r : Relation) : unary.Stops (r.token :: rest) := by
  cases r with
  | equal => exact stops_cons (by decide)
  | unequal => exact stops_cons (by decide)

end Category

theorem Further.stops {c : Connective} (more : Further c) {rest : List Token}
    (stops : (Category.chain c).Stops rest) : c.operand.Stops (more.tokens ++ rest) := by
  cases more with
  | none => exact stops.operand
  | next e more => exact Category.stops_connective c

theorem pathTokens_append_inj {more more' : List String} {rest rest' : List Token}
    (same : pathTokens more ++ rest = pathTokens more' ++ rest')
    (stops : Category.primary.Stops rest) (stops' : Category.primary.Stops rest') :
    more = more' ∧ rest = rest' := by
  induction more generalizing more' with
  | nil =>
    cases more' with
    | nil => exact ⟨rfl, same⟩
    | cons s more' =>
      simp only [pathTokens, List.nil_append] at same
      exact absurd (by decide) (stops .dot (by rw [same]; rfl))
  | cons s more ih =>
    cases more' with
    | nil =>
      simp only [pathTokens, List.nil_append] at same
      exact absurd (by decide) (stops' .dot (by rw [← same]; rfl))
    | cons s' more' =>
      simp only [pathTokens, List.cons_append, List.cons.injEq, Token.name.injEq,
        true_and] at same
      obtain ⟨rfl, tails⟩ := ih same.2
      exact ⟨by rw [same.1], tails⟩

theorem Phrase.head_ne_bang (p : Phrase .primary) (rest : List Token) :
    (p.tokens ++ rest).head? ≠ some .bang := by
  cases p <;> simp [Phrase.tokens]

theorem word_unique {s : String} {v v' : Value} (known : (s, v) ∈ words)
    (known' : (s, v') ∈ words) : v = v' := by
  simp only [words, List.mem_cons, Prod.mk.injEq, List.not_mem_nil, or_false] at known known'
  obtain ⟨rfl, rfl⟩ | ⟨rfl, rfl⟩ | ⟨rfl, rfl⟩ | ⟨rfl, rfl⟩ := known <;> simp_all

theorem Category.not_stops_relation (r : Relation) {rest : List Token} :
    ¬ comparison.Stops (r.token :: rest) := by
  cases r <;> simp [Stops, extending, Relation.token]

theorem Category.not_stops_connective (c : Connective) {rest : List Token} :
    ¬ (chain c).Stops (c.token :: rest) := by
  cases c <;> simp [Stops, extending, Connective.token]

theorem Relation.token_inj {r r' : Relation} (same : r.token = r'.token) : r = r' := by
  cases r <;> cases r' <;> first | rfl | cases same

mutual

-- The induction is on the first derivation.  What follows it is arbitrary but does not go on with it,
-- which is what tells the end of an operand and of a path.
theorem Phrase.eq_of_append {k : Category} : ∀ (p q : Phrase k) {rest rest' : List Token},
    p.tokens ++ rest = q.tokens ++ rest' → k.Stops rest → k.Stops rest' → p = q ∧ rest = rest'
  | .chain c first more, .chain _ first' more', rest, rest', same, stops, stops' => by
    simp only [Phrase.tokens, List.append_assoc] at same
    obtain ⟨rfl, tails⟩ := first.eq_of_append first' same (more.stops stops) (more'.stops stops')
    obtain ⟨rfl, rfl⟩ := more.eq_of_append more' tails stops stops'
    exact ⟨rfl, rfl⟩
  | .operand e, .operand e', rest, rest', same, stops, stops' => by
    obtain ⟨rfl, rfl⟩ := e.eq_of_append e' same (stops.mono (by decide)) (stops'.mono (by decide))
    exact ⟨rfl, rfl⟩
  | .operand e, .related r left right, rest, rest', same, stops, stops' => by
    simp only [Phrase.tokens, List.append_assoc, List.cons_append] at same
    -- The same operand on both sides, so the relation would follow the first phrase.
    obtain ⟨-, rfl⟩ := e.eq_of_append left same (stops.mono (by decide))
      (Category.stops_relation r)
    exact absurd stops (Category.not_stops_relation r)
  | .related r left right, .operand e, rest, rest', same, stops, stops' => by
    simp only [Phrase.tokens, List.append_assoc, List.cons_append] at same
    obtain ⟨-, rfl⟩ := left.eq_of_append e same (Category.stops_relation r)
      (stops'.mono (by decide))
    exact absurd stops' (Category.not_stops_relation r)
  | .related r left right, .related r' left' right', rest, rest', same, stops, stops' => by
    simp only [Phrase.tokens, List.append_assoc, List.cons_append] at same
    obtain ⟨rfl, tails⟩ := left.eq_of_append left' same (Category.stops_relation r)
      (Category.stops_relation r')
    obtain ⟨relations, tails⟩ := List.cons.inj tails
    obtain ⟨rfl, rfl⟩ := right.eq_of_append right' tails (stops.mono (by decide))
      (stops'.mono (by decide))
    obtain rfl := Relation.token_inj relations
    exact ⟨rfl, rfl⟩
  | .not e, .not e', rest, rest', same, stops, stops' => by
    obtain ⟨rfl, rfl⟩ := e.eq_of_append e' (List.cons.inj same).2 stops stops'
    exact ⟨rfl, rfl⟩
  | .not e, .plain e', rest, rest', same, stops, stops' =>
    absurd (congrArg List.head? same).symm (e'.head_ne_bang rest')
  | .plain e, .not e', rest, rest', same, stops, stops' =>
    absurd (congrArg List.head? same) (e.head_ne_bang rest)
  | .plain e, .plain e', rest, rest', same, stops, stops' => by
    obtain ⟨rfl, rfl⟩ := e.eq_of_append e' same stops stops'
    exact ⟨rfl, rfl⟩
  | .string s, q, rest, rest', same, stops, stops' => by
    cases q <;> simp_all [Phrase.tokens]
  | .number x, q, rest, rest', same, stops, stops' => by
    cases q <;> simp_all [Phrase.tokens]
  | .word s v known, q, rest, rest', same, stops, stops' => by
    cases q with
    | word s' v' known' =>
      simp only [Phrase.tokens, List.cons_append, List.cons.injEq, Token.name.injEq] at same
      obtain ⟨rfl, tails⟩ := same
      obtain rfl := word_unique known known'
      exact ⟨rfl, tails⟩
    | path s' more free =>
      simp only [Phrase.tokens, List.cons_append, List.cons.injEq, Token.name.injEq] at same
      exact absurd same.1 (free _ known)
    | _ => simp [Phrase.tokens] at same
  | .path s more free, q, rest, rest', same, stops, stops' => by
    cases q with
    | word s' v known =>
      simp only [Phrase.tokens, List.cons_append, List.cons.injEq, Token.name.injEq] at same
      exact absurd same.1.symm (free _ known)
    | path s' more' free' =>
      simp only [Phrase.tokens, List.cons_append, List.cons.injEq, Token.name.injEq] at same
      obtain ⟨rfl, tails⟩ := same
      obtain ⟨rfl, rfl⟩ := pathTokens_append_inj tails stops stops'
      exact ⟨rfl, rfl⟩
    | _ => simp [Phrase.tokens] at same
  | .group e, q, rest, rest', same, stops, stops' => by
    cases q with
    | group e' =>
      simp only [Phrase.tokens, List.cons_append, List.append_assoc, List.cons.injEq, true_and,
        List.nil_append] at same
      obtain ⟨rfl, tails⟩ := e.eq_of_append e' same (Category.stops_cons (by decide))
        (Category.stops_cons (by decide))
      exact ⟨rfl, (List.cons.inj tails).2⟩
    | _ => simp [Phrase.tokens] at same

theorem Further.eq_of_append {c : Connective} : ∀ (more more' : Further c)
    {rest rest' : List Token}, more.tokens ++ rest = more'.tokens ++ rest' →
    (Category.chain c).Stops rest → (Category.chain c).Stops rest' → more = more' ∧ rest = rest'
  | .none _, .none _, rest, rest', same, stops, stops' => ⟨rfl, same⟩
  | .none _, .next _ e more, rest, rest', same, stops, stops' => by
    simp only [Further.tokens, List.nil_append, List.cons_append] at same
    exact absurd (same ▸ stops) (Category.not_stops_connective c)
  | .next _ e more, .none _, rest, rest', same, stops, stops' => by
    simp only [Further.tokens, List.nil_append, List.cons_append] at same
    exact absurd (same ▸ stops') (Category.not_stops_connective c)
  | .next _ e more, .next _ e' more', rest, rest', same, stops, stops' => by
    simp only [Further.tokens, List.cons_append, List.append_assoc, List.cons.injEq,
      true_and] at same
    obtain ⟨rfl, tails⟩ := e.eq_of_append e' same (more.stops stops) (more'.stops stops')
    obtain ⟨rfl, rfl⟩ := more.eq_of_append more' tails stops stops'
    exact ⟨rfl, rfl⟩

end

theorem Phrase.tokens_inj {k : Category} {p q : Phrase k} (same : p.tokens = q.tokens) : p = q :=
  (p.eq_of_append q (congrArg (· ++ []) same) k.stops_nil k.stops_nil).1

end ComponentCompiler.Expression
