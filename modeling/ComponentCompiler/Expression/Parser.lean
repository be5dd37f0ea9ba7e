import ComponentCompiler.Expression.Lexer

/-!
# Reading expressions

From loosest to tightest: `||` and `&&`, which group to the left, one `==` or `!=` between two
operands, `!`, and literals, paths and parentheses.
-/

namespace ComponentCompiler.Expression

abbrev Parsed := Except ParseError (Expr × List Token)

def pathRest : List Token → Except ParseError (List String × List Token)
  | .dot :: .name s :: rest => do
    let (segments, rest) ← pathRest rest
    return (s :: segments, rest)
  | .dot :: _ => .error .missingProperty
  | rest => .ok ([], rest)

def primary (inner : List Token → Parsed) : List Token → Parsed
  | .string s :: rest => .ok (.literal (.string s), rest)
  | .number x :: rest => .ok (.literal (.number x), rest)
  | .openParen :: rest => do
    let (e, rest) ← inner rest
    match rest with
    | .closeParen :: rest => .ok (e, rest)
    | _ => .error .unclosed
  | .name s :: rest =>
    match keyword? s with
    | some v => .ok (.literal v, rest)
    | none => do
      let (segments, rest) ← pathRest rest
      return (.path (s :: segments), rest)
  | t :: _ => .error (.unexpected t)
  | [] => .error .unexpectedEnd

def unary (operand : List Token → Parsed) : List Token → Parsed
  | .bang :: rest => do
    let (e, rest) ← unary operand rest
    return (.not e, rest)
  | ts => operand ts

def comparison (operand : List Token → Parsed) (ts : List Token) : Parsed := do
  let (left, rest) ← operand ts
  match rest with
  | .eqEq :: rest =>
    let (right, rest) ← operand rest
    return (.binary .eq left right, rest)
  | .notEq :: rest =>
    let (right, rest) ← operand rest
    return (.binary .ne left right, rest)
  | rest => return (left, rest)

/-- Goes on after `left` while the separating token follows, at most `bound` times. -/
def chainRest (separator : Token) (op : Operator) (operand : List Token → Parsed) :
    Nat → Expr → List Token → Parsed
  | bound + 1, left, t :: rest =>
    if t = separator then do
      let (right, rest) ← operand rest
      chainRest separator op operand bound (.binary op left right) rest
    else .ok (left, t :: rest)
  | _, left, rest => .ok (left, rest)

def chain (separator : Token) (op : Operator) (operand : List Token → Parsed)
    (ts : List Token) : Parsed := do
  let (left, rest) ← operand ts
  chainRest separator op operand rest.length left rest

/-- An expression with at most `depth` levels of parentheses. -/
def exprWithin : Nat → List Token → Parsed
  | 0, _ => .error .unexpectedEnd
  | depth + 1, ts =>
    chain .orOr .or (chain .andAnd .and (comparison (unary (primary (exprWithin depth))))) ts

def expr (ts : List Token) : Parsed :=
  exprWithin (ts.length + 1) ts

def ofTokens (ts : List Token) : Except ParseError Expr := do
  if ts.isEmpty then .error .empty
  else
    let (e, rest) ← expr ts
    match rest with
    | [] => .ok e
    | t :: _ => .error (.trailing t)

def parse (source : String) : Except ParseError Expr := do
  ofTokens (← tokens source.toList)

end ComponentCompiler.Expression
