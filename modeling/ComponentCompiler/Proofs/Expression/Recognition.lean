import ComponentCompiler.Expression.Parser
import ComponentCompiler.Proofs.Expression.Grammar
import ComponentCompiler.Proofs.Result
import Mathlib.Logic.Function.Iterate

namespace ComponentCompiler.Expression

def read (inner : List Token → Parsed) : Category → List Token → Parsed
  | .primary => primary inner
  | .unary => unary (primary inner)
  | .comparison => comparison (unary (primary inner))
  | .chain .and => chain .andAnd .and (comparison (unary (primary inner)))
  | .chain .or => chain .orOr .or (chain .andAnd .and (comparison (unary (primary inner))))

theorem read_chain (inner : List Token → Parsed) (c : Connective) :
    read inner (.chain c) = chain c.token c.operator (read inner c.operand) := by
  cases c <;> rfl

def nest (inner : List Token → Parsed) : List Token → Parsed :=
  read inner (.chain .or)

theorem exprWithin_eq_iterate (depth : Nat) :
    exprWithin depth = nest^[depth] fun _ => .error .unexpectedEnd := by
  induction depth with
  | zero => rfl
  | succ depth ih => rw [Function.iterate_succ_apply', ← ih]; rfl

theorem ok_bind {α β : Type} (a : α) (f : α → Except ParseError β) : (.ok a >>= f) = f a :=
  rfl

/-! ## Words -/

theorem keyword?_eq_some {s : String} {v : Value} : keyword? s = some v ↔ (s, v) ∈ words := by
  simp only [keyword?, words, List.mem_cons, Prod.mk.injEq, List.not_mem_nil, or_false]
  grind

theorem keyword?_eq_none {s : String} : keyword? s = none ↔ ∀ w ∈ words, w.1 ≠ s := by
  simp only [keyword?, words, List.forall_mem_cons, List.not_mem_nil]
  grind

/-! ## What is read is in the grammar -/

def Sound (f : List Token → Parsed) (k : Category) : Prop :=
  ∀ ts e rest, f ts = .ok (e, rest) → ∃ p : Phrase k, p.tokens ++ rest = ts ∧ p.expr = e

theorem pathRest_sound {ts rest : List Token} {more : List String}
    (done : pathRest ts = .ok (more, rest)) : pathTokens more ++ rest = ts := by
  fun_induction pathRest ts generalizing more rest with
  | case1 s ts ih =>
    obtain ⟨⟨more', rest'⟩, first, same⟩ := bind_eq_ok_iff.1 done
    cases same
    simp [pathTokens, ih first]
  | case2 => cases done
  | case3 ts =>
    cases done
    rfl

variable {inner operand : List Token → Parsed}

theorem sound_primary (sound : Sound inner (.chain .or)) : Sound (primary inner) .primary := by
  intro ts e rest done
  unfold primary at done
  split at done
  case h_1 s ts =>
    cases done
    exact ⟨.string s, rfl, rfl⟩
  case h_2 x ts =>
    cases done
    exact ⟨.number x, rfl, rfl⟩
  case h_3 ts =>
    obtain ⟨⟨e', rest'⟩, first, closes⟩ := bind_eq_ok_iff.1 done
    obtain ⟨p, rfl, rfl⟩ := sound _ _ _ first
    dsimp only at closes
    split at closes
    · cases closes
      exact ⟨.group p, by simp [Phrase.tokens], rfl⟩
    · cases closes
  case h_4 s ts =>
    split at done
    case h_1 v known =>
      cases done
      exact ⟨.word s v (keyword?_eq_some.1 known), rfl, rfl⟩
    case h_2 free =>
      obtain ⟨⟨more, rest'⟩, path, same⟩ := bind_eq_ok_iff.1 done
      cases same
      exact ⟨.path s more (keyword?_eq_none.1 free), by simp [Phrase.tokens, pathRest_sound path],
        rfl⟩
  case h_5 => cases done
  case h_6 => cases done

theorem sound_unary (sound : Sound operand .primary) : Sound (unary operand) .unary := by
  intro ts e rest done
  fun_induction unary operand ts generalizing e rest with
  | case1 ts ih =>
    obtain ⟨⟨e', rest'⟩, first, same⟩ := bind_eq_ok_iff.1 done
    cases same
    obtain ⟨p, rfl, rfl⟩ := ih _ _ first
    exact ⟨.not p, rfl, rfl⟩
  | case2 ts =>
    obtain ⟨p, tokens, expr⟩ := sound _ _ _ done
    exact ⟨.plain p, tokens, expr⟩

theorem sound_comparison (sound : Sound operand .unary) :
    Sound (comparison operand) .comparison := by
  intro ts e rest done
  obtain ⟨⟨left, ts'⟩, first, next⟩ := bind_eq_ok_iff.1 done
  obtain ⟨p, rfl, rfl⟩ := sound _ _ _ first
  dsimp only at next
  split at next
  case h_1 ts =>
    obtain ⟨⟨right, rest'⟩, second, same⟩ := bind_eq_ok_iff.1 next
    cases same
    obtain ⟨q, rfl, rfl⟩ := sound _ _ _ second
    exact ⟨.related .equal p q, by simp [Phrase.tokens, Relation.token], rfl⟩
  case h_2 ts =>
    obtain ⟨⟨right, rest'⟩, second, same⟩ := bind_eq_ok_iff.1 next
    cases same
    obtain ⟨q, rfl, rfl⟩ := sound _ _ _ second
    exact ⟨.related .unequal p q, by simp [Phrase.tokens, Relation.token], rfl⟩
  case h_3 =>
    cases next
    exact ⟨.operand p, rfl, rfl⟩

theorem chainRest_sound {c : Connective} (sound : Sound operand c.operand) {bound : Nat}
    {left e : Expr} {ts rest : List Token}
    (done : chainRest c.token c.operator operand bound left ts = .ok (e, rest)) :
    ∃ more : Further c, more.tokens ++ rest = ts ∧ more.exprAfter left = e := by
  fun_induction chainRest c.token c.operator operand bound left ts generalizing e rest with
  | case1 bound left ts ih =>
    obtain ⟨⟨right, ts'⟩, first, next⟩ := bind_eq_ok_iff.1 done
    obtain ⟨p, rfl, rfl⟩ := sound _ _ _ first
    obtain ⟨more, rfl, rfl⟩ := ih _ _ next
    exact ⟨.next c p more, by simp [Further.tokens], rfl⟩
  | case2 bound left t ts other =>
    cases done
    exact ⟨.none c, rfl, rfl⟩
  | case3 =>
    cases done
    exact ⟨.none c, rfl, rfl⟩

theorem sound_chain {c : Connective} (sound : Sound operand c.operand) :
    Sound (chain c.token c.operator operand) (.chain c) := by
  intro ts e rest done
  obtain ⟨⟨left, ts'⟩, first, next⟩ := bind_eq_ok_iff.1 done
  obtain ⟨p, rfl, rfl⟩ := sound _ _ _ first
  obtain ⟨more, rfl, rfl⟩ := chainRest_sound sound next
  exact ⟨.chain c p more, by simp [Phrase.tokens], rfl⟩

theorem sound_read (sound : Sound inner (.chain .or)) : ∀ k, Sound (read inner k) k
  | .primary => sound_primary sound
  | .unary => sound_unary (sound_primary sound)
  | .comparison => sound_comparison (sound_unary (sound_primary sound))
  | .chain .and =>
    sound_chain (c := .and) (sound_comparison (sound_unary (sound_primary sound)))
  | .chain .or =>
    sound_chain (c := .or) (sound_chain (c := .and)
      (sound_comparison (sound_unary (sound_primary sound))))

theorem sound_exprWithin (depth : Nat) : Sound (exprWithin depth) (.chain .or) := by
  induction depth with
  | zero =>
    intro ts e rest done
    cases done
  | succ depth ih => exact sound_read ih (.chain .or)

/-! ## What is in the grammar is read -/

theorem pathRest_append (more : List String) {rest : List Token}
    (stops : Category.primary.Stops rest) :
    pathRest (pathTokens more ++ rest) = .ok (more, rest) := by
  induction more with
  | nil =>
    rw [pathTokens, List.nil_append]
    unfold pathRest
    split
    · exact absurd (stops .dot rfl) (by decide)
    · exact absurd (stops .dot rfl) (by decide)
    · rfl
  | cons s more ih =>
    simp only [pathTokens, List.cons_append, pathRest, ih]
    rfl

theorem comparison_related (r : Relation) {ts rest rest' : List Token} {left right : Expr}
    (first : operand ts = .ok (left, r.token :: rest))
    (second : operand rest = .ok (right, rest')) :
    comparison operand ts = .ok (.binary r.operator left right, rest') := by
  cases r with
  | equal => simp only [comparison, first, ok_bind, Relation.token, second]; rfl
  | unequal => simp only [comparison, first, ok_bind, Relation.token, second]; rfl

theorem comparison_operand {ts rest : List Token} {left : Expr}
    (first : operand ts = .ok (left, rest)) (stops : Category.comparison.Stops rest) :
    comparison operand ts = .ok (left, rest) := by
  simp only [comparison, first, ok_bind]
  split
  · exact absurd (stops .eqEq rfl) (by decide)
  · exact absurd (stops .notEq rfl) (by decide)
  · rfl

theorem chainRest_of_stops {c : Connective} (bound : Nat) (left : Expr) {rest : List Token}
    (stops : (Category.chain c).Stops rest) :
    chainRest c.token c.operator operand bound left rest = .ok (left, rest) := by
  unfold chainRest
  split
  · refine if_neg ?_
    rintro rfl
    exact absurd stops (Category.not_stops_connective c)
  · rfl

theorem unary_of_ne_bang {ts : List Token} (other : ts.head? ≠ some .bang) :
    unary operand ts = operand ts := by
  unfold unary
  split
  · exact absurd rfl other
  · rfl

mutual

theorem Phrase.read_append {k : Category} : ∀ (p : Phrase k) (depth : Nat) {rest : List Token},
    p.tokens.length ≤ depth → k.Stops rest →
    read (exprWithin depth) k (p.tokens ++ rest) = .ok (p.expr, rest)
  | .chain c first more, depth, rest, deep, stops => by
    simp only [Phrase.tokens, List.length_append] at deep
    have left := first.read_append depth (by omega) (more.stops stops)
    have right := more.read_append depth _ first.expr (by omega) (Nat.le_refl _) stops
    simp only [Phrase.tokens, List.append_assoc, read_chain, chain, left]
    exact right
  | .operand e, depth, rest, deep, stops =>
    comparison_operand (e.read_append depth deep (stops.mono (by decide))) stops
  | .related r left right, depth, rest, deep, stops => by
    simp only [Phrase.tokens, List.length_append, List.length_cons] at deep
    simp only [Phrase.tokens, List.append_assoc, List.cons_append]
    exact comparison_related r (left.read_append depth (by omega) (Category.stops_relation r))
      (right.read_append depth (by omega) (stops.mono (by decide)))
  | .not e, depth, rest, deep, stops => by
    have inside := e.read_append depth (Nat.le_of_succ_le deep) stops
    simp only [Phrase.tokens, List.cons_append, read, unary] at inside ⊢
    rw [inside]
    rfl
  | .plain e, depth, rest, deep, stops => by
    have inside := e.read_append depth deep stops
    simp only [Phrase.tokens, read] at inside ⊢
    rw [unary_of_ne_bang (e.head_ne_bang rest)]
    exact inside
  | .string s, depth, rest, deep, stops => rfl
  | .number x, depth, rest, deep, stops => rfl
  | .word s v known, depth, rest, deep, stops => by
    simp [Phrase.tokens, Phrase.expr, read, primary, keyword?_eq_some.2 known]
  | .path s more free, depth, rest, deep, stops => by
    simp only [Phrase.tokens, List.cons_append, read, primary, keyword?_eq_none.2 free,
      pathRest_append more stops]
    rfl
  | .group e, depth, rest, deep, stops => by
    simp only [Phrase.tokens, List.length_append, List.length_cons] at deep
    -- The parentheses are two tokens more, so the reader inside of them is deep enough.
    cases depth with
    | zero => omega
    | succ depth =>
      have inside : exprWithin (depth + 1) (e.tokens ++ .closeParen :: rest) = _ :=
        e.read_append depth (by omega) (Category.stops_cons (by decide))
      simp only [Phrase.tokens, List.cons_append, List.append_assoc, List.nil_append, read,
        primary, inside]
      rfl

theorem Further.read_append {c : Connective} : ∀ (more : Further c) (depth bound : Nat)
    (left : Expr) {rest : List Token}, more.tokens.length ≤ depth →
    (more.tokens ++ rest).length ≤ bound → (Category.chain c).Stops rest →
    chainRest c.token c.operator (read (exprWithin depth) c.operand) bound left
      (more.tokens ++ rest) = .ok (more.exprAfter left, rest)
  | .none _, depth, bound, left, rest, deep, bounded, stops => chainRest_of_stops bound left stops
  | .next _ e more, depth, bound, left, rest, deep, bounded, stops => by
    simp only [Further.tokens, List.length_append, List.length_cons,
      List.cons_append] at deep bounded
    cases bound with
    | zero => omega
    | succ bound =>
      have right := e.read_append depth (by omega) (more.stops stops)
      simp only [Further.tokens, List.cons_append, List.append_assoc, chainRest, if_pos, right]
      exact more.read_append depth bound _ (by omega) (by simp; omega) stops

end

/-! ## Reading ends -/

/-- Two readers do the same on lists of fewer than `n` tokens, and what they read has a token. -/
def Agree (n : Nat) (f g : List Token → Parsed) : Prop :=
  ∀ ts, ts.length < n → f ts = g ts ∧ ∀ e rest, f ts = .ok (e, rest) → rest.length < ts.length

theorem length_pathRest {ts rest : List Token} {more : List String}
    (done : pathRest ts = .ok (more, rest)) : rest.length ≤ ts.length := by
  rw [← pathRest_sound done, List.length_append]
  omega

namespace Agree

variable {n : Nat} {f g : List Token → Parsed}

theorem primary (agree : Agree n f g) : Agree (n + 1) (primary f) (primary g) := by
  intro ts short
  unfold Expression.primary
  split
  case h_3 ts =>
    -- Only here do the inner readers come in, on a list that is shorter by the parenthesis.
    obtain ⟨same, fewer⟩ := agree ts (by simpa using short)
    rw [← same]
    refine ⟨rfl, fun e rest done => ?_⟩
    obtain ⟨⟨e', rest'⟩, first, closes⟩ := bind_eq_ok_iff.1 done
    have shorter := fewer _ _ first
    dsimp only at closes
    split at closes
    · cases closes
      simp only [List.length_cons] at shorter ⊢
      omega
    · cases closes
  case h_4 s ts =>
    refine ⟨rfl, fun e rest done => ?_⟩
    split at done
    · cases done
      exact Nat.lt_succ_self _
    · obtain ⟨⟨more, rest'⟩, path, same⟩ := bind_eq_ok_iff.1 done
      cases same
      exact Nat.lt_succ_of_le (length_pathRest path)
  all_goals exact ⟨rfl, fun e rest done => by cases done; try exact Nat.lt_succ_self _⟩

theorem unary (agree : Agree n f g) : Agree n (unary f) (unary g) := by
  intro ts short
  induction ts with
  | nil => simpa [Expression.unary] using agree [] short
  | cons t ts ih =>
    by_cases bang : t = .bang
    · subst bang
      obtain ⟨same, fewer⟩ := ih (Nat.lt_of_succ_lt short)
      rw [Expression.unary, Expression.unary, same]
      refine ⟨rfl, fun e rest done => ?_⟩
      obtain ⟨⟨e', rest'⟩, first, same'⟩ := bind_eq_ok_iff.1 done
      cases same'
      exact Nat.lt_succ_of_lt (fewer _ _ (same.trans first))
    · have other : (t :: ts).head? ≠ some .bang := by simpa using bang
      rw [unary_of_ne_bang other, unary_of_ne_bang other]
      exact agree _ short

theorem bind (agree : Agree n f g) (next next' : Expr × List Token → Parsed) {ts : List Token}
    (short : ts.length < n)
    (goesOn : ∀ e rest, rest.length < ts.length → next (e, rest) = next' (e, rest) ∧
      ∀ e' rest', next (e, rest) = .ok (e', rest') → rest'.length ≤ rest.length) :
    (f ts >>= next) = (g ts >>= next') ∧
      ∀ e rest, (f ts >>= next) = .ok (e, rest) → rest.length < ts.length := by
  obtain ⟨same, fewer⟩ := agree ts short
  rw [← same]
  cases first : f ts with
  | error e => exact ⟨rfl, fun e rest done => by cases done⟩
  | ok read =>
    obtain ⟨e, rest⟩ := read
    have shorter := fewer e rest first
    obtain ⟨same, fewer⟩ := goesOn e rest shorter
    exact ⟨same, fun e' rest' done => Nat.lt_of_le_of_lt (fewer e' rest' done) shorter⟩

theorem comparison (agree : Agree n f g) : Agree n (comparison f) (comparison g) := by
  intro ts short
  refine agree.bind _ _ short fun left rest shorter => ?_
  have right (op : Operator) (rest' : List Token) (fewer : rest'.length < n) :=
    agree.bind (fun read => pure (.binary op left read.1, read.2))
      (fun read => pure (.binary op left read.1, read.2)) fewer
      fun e rest _ => ⟨rfl, fun e' rest' done => by cases done; exact Nat.le_refl _⟩
  have below : rest.length < n := Nat.lt_trans shorter short
  dsimp only
  split
  · obtain ⟨same, fewer⟩ := right .eq _ (Nat.lt_of_succ_lt below)
    exact ⟨same, fun e rest done => Nat.le_of_lt (Nat.lt_succ_of_lt (fewer e rest done))⟩
  · obtain ⟨same, fewer⟩ := right .ne _ (Nat.lt_of_succ_lt below)
    exact ⟨same, fun e rest done => Nat.le_of_lt (Nat.lt_succ_of_lt (fewer e rest done))⟩
  · exact ⟨rfl, fun e rest done => by cases done; exact Nat.le_refl _⟩

theorem chainRest (agree : Agree n f g) (separator : Token) (op : Operator) (bound : Nat)
    (left : Expr) (ts : List Token) (short : ts.length < n) :
    chainRest separator op f bound left ts = chainRest separator op g bound left ts ∧
      ∀ e rest, chainRest separator op f bound left ts = .ok (e, rest) →
        rest.length ≤ ts.length := by
  fun_induction Expression.chainRest separator op f bound left ts with
  | case1 bound left ts ih =>
    rw [Expression.chainRest, if_pos rfl]
    obtain ⟨same, fewer⟩ := agree.bind
      (fun read => Expression.chainRest separator op f bound (.binary op left read.1) read.2)
      (fun read => Expression.chainRest separator op g bound (.binary op left read.1) read.2)
      (Nat.lt_of_succ_lt short) fun e rest shorter =>
        ih e rest (Nat.lt_trans shorter (Nat.lt_of_succ_lt short))
    exact ⟨same, fun e rest done => Nat.le_of_lt (Nat.lt_succ_of_lt (fewer e rest done))⟩
  | case2 bound left t ts other =>
    rw [Expression.chainRest, if_neg other]
    exact ⟨rfl, fun e rest done => by cases done; exact Nat.le_refl _⟩
  | case3 bound left ts final =>
    unfold Expression.chainRest
    split
    · exact absurd rfl (final _ _ _ rfl)
    · exact ⟨rfl, fun e rest done => by cases done; exact Nat.le_refl _⟩

theorem chain (separator : Token) (op : Operator) (agree : Agree n f g) :
    Agree n (chain separator op f) (chain separator op g) := fun _ short =>
  agree.bind _ _ short fun left rest shorter =>
    agree.chainRest separator op rest.length left rest (Nat.lt_trans shorter short)

theorem nest (agree : Agree n f g) : Agree (n + 1) (nest f) (nest g) :=
  ((agree.primary.unary.comparison).chain .andAnd .and).chain .orOr .or

theorem iterate (bottom other : List Token → Parsed) (n : Nat) :
    Agree n (Expression.nest^[n] bottom) (Expression.nest^[n] other) := by
  induction n with
  | zero => exact fun ts short => absurd short (Nat.not_lt_zero _)
  | succ n ih =>
    rw [Function.iterate_succ_apply', Function.iterate_succ_apply']
    exact ih.nest

end Agree

theorem chainRest_eq_of_le {c : Connective} (sound : Sound operand c.operand) {bound bound' : Nat}
    {left : Expr} {ts : List Token} (enough : ts.length ≤ bound) (enough' : ts.length ≤ bound') :
    chainRest c.token c.operator operand bound left ts =
      chainRest c.token c.operator operand bound' left ts := by
  -- A round takes the separator at least, so both bounds stay above what is left.
  induction bound generalizing bound' left ts with
  | zero =>
    obtain rfl := List.eq_nil_of_length_eq_zero (Nat.le_zero.1 enough)
    simp [chainRest]
  | succ bound ih =>
    cases ts with
    | nil => simp [chainRest]
    | cons t ts =>
      cases bound' with
      | zero => exact absurd enough' (Nat.not_succ_le_zero _)
      | succ bound' =>
        simp only [chainRest]
        split
        · cases first : operand ts with
          | error e => rfl
          | ok read =>
            obtain ⟨p, tokens, -⟩ := sound ts read.1 read.2 first
            have shorter : read.2.length ≤ ts.length := by
              rw [← tokens, List.length_append]
              omega
            exact ih (Nat.le_trans shorter (Nat.le_of_succ_le_succ enough))
              (Nat.le_trans shorter (Nat.le_of_succ_le_succ enough'))
        · rfl

/-! ## Whole lists of tokens -/

theorem expr_eq_ok_iff {ts : List Token} {e : Expr} :
    expr ts = .ok (e, []) ↔ ∃ p : Phrase (.chain .or), p.tokens = ts ∧ p.expr = e := by
  constructor
  · intro done
    simpa using sound_exprWithin _ ts e [] done
  · rintro ⟨p, rfl, rfl⟩
    have done := p.read_append _ (Nat.le_refl _) (Category.stops_nil _)
    rw [List.append_nil] at done
    exact done

theorem ofTokens_eq_ok_iff {ts : List Token} {e : Expr} :
    ofTokens ts = .ok e ↔ expr ts = .ok (e, []) := by
  cases ts with
  | nil =>
    constructor
    · rintro ⟨⟩
    · rintro ⟨⟩
  | cons t ts =>
    simp only [ofTokens, List.isEmpty_cons, Bool.false_eq_true, if_false]
    constructor
    · intro done
      obtain ⟨⟨e', rest⟩, first, ends⟩ := bind_eq_ok_iff.1 done
      cases rest with
      | nil =>
        cases ends
        exact first
      | cons t' rest => cases ends
    · intro done
      rw [done]
      rfl

/-- A list of tokens is read exactly when it has a derivation, which is then the only one and stands
for the expression.  Reading goes no deeper than the list is long, and no loop meets its bound. -/
theorem ofTokens_recognizes :
    (∀ ts e, ofTokens ts = .ok e ↔ ∃ p : Phrase (.chain .or), p.tokens = ts ∧ p.expr = e) ∧
      (∀ p q : Phrase (.chain .or), p.tokens = q.tokens → p = q) ∧
      (∀ source e, parse source = .ok e ↔
        ∃ p : Phrase (.chain .or), tokens source.toList = .ok p.tokens ∧ p.expr = e) ∧
      (∀ (ts : List Token) (depth : Nat) (bottom : List Token → Parsed), ts.length < depth →
        nest^[depth] bottom ts = expr ts) ∧
      ∀ (c : Connective) (depth bound : Nat) (left : Expr) (ts : List Token), ts.length ≤ bound →
        chainRest c.token c.operator (read (exprWithin depth) c.operand) bound left ts =
          chainRest c.token c.operator (read (exprWithin depth) c.operand) ts.length left ts := by
  have whole (ts e) :
      ofTokens ts = .ok e ↔ ∃ p : Phrase (.chain .or), p.tokens = ts ∧ p.expr = e :=
    ofTokens_eq_ok_iff.trans expr_eq_ok_iff
  refine ⟨whole, fun p q same => Phrase.tokens_inj same, fun source e => ?_,
    fun ts depth bottom deep => ?_, fun c depth bound left ts enough => ?_⟩
  · constructor
    · intro done
      obtain ⟨ts, scanned, done⟩ := bind_eq_ok_iff.1 done
      obtain ⟨p, rfl, expr⟩ := (whole ts e).1 done
      exact ⟨p, scanned, expr⟩
    · rintro ⟨p, scanned, expr⟩
      rw [parse, scanned]
      exact (whole _ e).2 ⟨p, rfl, expr⟩
  · -- From its length on, all depths read a list alike, whatever they do at the bottom.
    rw [expr, exprWithin_eq_iterate]
    obtain ⟨more, rfl⟩ := Nat.exists_eq_add_of_lt deep
    rw [Nat.add_right_comm, Function.iterate_add_apply]
    exact (Agree.iterate _ _ _ ts (Nat.lt_succ_self _)).1
  · exact chainRest_eq_of_le (sound_read (sound_exprWithin depth) _) enough (Nat.le_refl _)

theorem ofTokens_recognizes_precedence :
    ∃ p : Phrase (.chain .or),
      p.tokens = [.name "a", .orOr, .name "b", .andAnd, .bang, .name "c", .dot, .name "true"] ∧
      p.expr =
        .binary .or (.path ["a"]) (.binary .and (.path ["b"]) (.not (.path ["c", "true"]))) :=
  (ofTokens_recognizes.1 _ _).1 rfl

end ComponentCompiler.Expression
