import ComponentCompiler.Expression.Parser
import ComponentCompiler.Template.Context
import ComponentCompiler.Text.Trim

namespace ComponentCompiler.Expression

open Template (Context)

def contextWord : String := "ctx"

/-- The name in the context that a path speaks of: its segments with dots between them, without a
leading word for the context. -/
def pathKey? : List String → Option String
  | [] => none
  | [s] => some s
  | s :: rest => some (String.intercalate "." (if s = contextWord then rest else s :: rest))

def pathValue (segments : List String) (context : Context) : Value :=
  match (pathKey? segments).bind context.get? with
  | some v => .string v
  | none => .null

def eval (context : Context) : Expr → Value
  | .literal v => v
  | .path segments => pathValue segments context
  | .not e => .bool (!(eval context e).isTruthy)
  | .binary .and l r => .bool ((eval context l).isTruthy && (eval context r).isTruthy)
  | .binary .or l r => .bool ((eval context l).isTruthy || (eval context r).isTruthy)
  | .binary .eq l r => .bool ((eval context l).strictEq (eval context r))
  | .binary .ne l r => .bool (!(eval context l).strictEq (eval context r))

def stripBraces (value : List Char) : List Char :=
  match Text.trim value with
  | '\x7b' :: cs => if cs.getLast? = some '\x7d' then Text.trim cs.dropLast else '\x7b' :: cs
  | cs => cs

/-- Whether a directive holds; a malformed one does not. -/
def holds (directive : String) (context : Context) : Bool :=
  match parse (String.ofList (stripBraces directive.toList)) with
  | .ok e => (eval context e).isTruthy
  | .error _ => false

end ComponentCompiler.Expression
