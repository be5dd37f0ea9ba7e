import ComponentCompiler.Script.Occurrence

namespace ComponentCompiler.Script

open Reader

/-! ## Lists -/

def itemList (self : Recursion) (c : Scope) (close : String) (holes : Bool) : Reader Items := do
  let step (l : Items) : Reader (Items × Bool) := do
    if ← isMark close then return (l, false)
    if ← isMark "," then
      if holes then
        advance
        return (⟨l.items ++ [.hole], false⟩, true)
      else fail
    let spread ← accept "..."
    let r ← self .assignment c
    let items := l.items ++ [if spread then .spread r else .plain r]
    if ← accept "," then return (⟨items, true⟩, true) else return (⟨items, false⟩, false)
  let l ← repeatStep step (← bound) ⟨[], false⟩
  expect close
  return l

def parameters (self : Recursion) (c : Scope) : Reader Occurrences := do
  expect "("
  let l ← itemList self { c with admitsIn := true } ")" false
  ofOption l.bindings

def statementsToBrace (self : Recursion) (c : Scope) : Reader Occurrences := do
  let step (occs : Occurrences) : Reader (Occurrences × Bool) := do
    if ← isMark "\x7d" then return (occs, false)
    let more ← self.value (.statement false) c
    return (occs ++ more, true)
  let occs ← repeatStep step (← bound) []
  expect "\x7d"
  return occs

def functionBody (self : Recursion) (c : Scope) : Reader Occurrences := do
  expect "\x7b"
  statementsToBrace self { c with admitsIn := true }

def functionRest (self : Recursion) (waits generates : Bool) : Reader Occurrences := do
  let c : Scope := ⟨waits, generates, true⟩
  let ps ← parameters self c
  let body ← functionBody self c
  return ps ++ body

def variableName (c : Scope) (role : Role) : Reader Occurrence := do
  match ← token with
  | .word w _ =>
    if c.isVariable w then
      let o ← occurrence w role
      advance
      return o
    else fail
  | _ => fail

def functionExpression (self : Recursion) (waits : Bool) : Reader Occurrences := do
  let generates ← accept "*"
  let name ← (do
    if ← isMark "(" then return []
    else return [← variableName ⟨waits, generates, true⟩ .plain])
  let rest ← functionRest self waits generates
  return name ++ rest

/-! ## Keys and methods -/

structure Key where
  occs : Occurrences
  word : Option Occurrence

def key (self : Recursion) (c : Scope) : Reader Key := do
  match ← token with
  | .word w _ =>
    let o ← occurrence w .plain
    advance
    return ⟨[], some o⟩
  | .string =>
    advance
    return ⟨[], none⟩
  | .number =>
    advance
    return ⟨[], none⟩
  | .mark m =>
    if m = "[" then
      advance
      let occs ← self.value .assignment { c with admitsIn := true }
      expect "]"
      return ⟨occs, none⟩
    else fail
  | _ => fail

def isModifier (w : String) : Reader Bool := do
  if ← isWord w then
    match ← next with
    | (.mark m, _) => return m = "["
    | (.finish, _) => return false
    | (.bad, _) => return false
    | _ => return true
  else return false

def isAsyncModifier : Reader Bool := do
  if ← isWord "async" then
    match ← next with
    | (_, true) => return false
    | (.mark m, false) => return m = "[" || m = "*"
    | (.finish, _) => return false
    | (.bad, _) => return false
    | _ => return true
  else return false

def accessorRest (self : Recursion) (count : Nat) : Reader Occurrences := do
  let c : Scope := ⟨false, false, true⟩
  expect "("
  let l ← itemList self c ")" false
  let isSpread := l.items.any fun
    | .spread _ => true
    | _ => false
  if l.items.length ≠ count || isSpread then fail
  let ps ← ofOption l.bindings
  let body ← functionBody self c
  return ps ++ body

/-! ## Classes -/

def decorators (leftSide : Scope → Reader Reading) (c : Scope) : Reader Occurrences := do
  let step (occs : Occurrences) : Reader (Occurrences × Bool) := do
    if ← accept "@" then
      let more ← (← leftSide c).toValue
      return (occs ++ more, true)
    else return (occs, false)
  repeatStep step (← bound) []

def isPrivateConstructor (s : State) : Bool :=
  (Text.after? "#constructor".toList s.text).map (·.length) = some s.after.length

def privateName : Reader Unit := do
  let s ← get
  advance
  if isPrivateConstructor s then fail

def classKey (self : Recursion) (c : Scope) : Reader (Occurrences × Option String) := do
  if (← token) = .privateWord then
    privateName
    return ([], none)
  else
    let s ← get
    let isText := s.token = .string
    let k ← key self c
    let quoted := String.ofList ((s.text.take (s.text.length - s.after.length)).tail.dropLast)
    return (k.occs, if isText then some quoted else k.word.map (·.name))

def plainClassKey (self : Recursion) (c : Scope) (isStatic isField : Bool) :
    Reader Occurrences := do
  let (occs, name) ← classKey self c
  if name = some "constructor" && (isField || !isStatic) then fail
  if name = some "prototype" && isStatic then fail
  return occs

def isClassModifier (w : String) : Reader Bool := do
  if ← isWord w then
    match ← next with
    | (.mark m, _) => return m = "[" || m = "*" || m = "\x7b"
    | (.finish, _) => return false
    | (.bad, _) => return false
    | _ => return true
  else return false

def fieldRest (self : Recursion) : Reader Occurrences := do
  let occs ← (do
    if ← accept "=" then self.value .assignment ⟨false, false, true⟩ else return [])
  semicolon
  return occs

def classMember (self : Recursion) (c : Scope) (isStatic : Bool) : Reader Occurrences := do
  if ← isAsyncModifier then
    advance
    let generates ← accept "*"
    let k ← plainClassKey self c isStatic false
    return k ++ (← functionRest self true generates)
  else if ← accept "*" then
    let k ← plainClassKey self c isStatic false
    return k ++ (← functionRest self false true)
  else if ← isModifier "get" then
    advance
    let k ← plainClassKey self c isStatic false
    return k ++ (← accessorRest self 0)
  else if ← isModifier "set" then
    advance
    let k ← plainClassKey self c isStatic false
    return k ++ (← accessorRest self 1)
  else if (← isModifier "accessor") && !(← next).2 then
    advance
    let k ← plainClassKey self c isStatic true
    return k ++ (← fieldRest self)
  else
    let (k, name) ← classKey self c
    if isStatic && name = some "prototype" then fail
    if ← isMark "(" then return k ++ (← functionRest self false false)
    else if name = some "constructor" then fail
    else return k ++ (← fieldRest self)

def classBody (self : Recursion) (leftSide : Scope → Reader Reading) (c : Scope) :
    Reader Occurrences := do
  expect "\x7b"
  let step (occs : Occurrences) : Reader (Occurrences × Bool) := do
    if ← isMark "\x7d" then return (occs, false)
    if ← accept ";" then return (occs, true)
    let marks ← decorators leftSide c
    let isStatic ← isClassModifier "static"
    if isStatic then advance
    let more ← (do
      if isStatic && (← isMark "\x7b") then
        advance
        statementsToBrace self ⟨true, false, true⟩
      else classMember self c isStatic)
    return (occs ++ marks ++ more, true)
  let occs ← repeatStep step (← bound) []
  expect "\x7d"
  return occs

def classAfterWord (self : Recursion) (leftSide : Scope → Reader Reading) (c : Scope) :
    Reader Occurrences := do
  let hasName : Bool ← (do
    match ← token with
    | .word w _ => return w ≠ "extends"
    | _ => return false)
  let name ← (do if hasName then return [← variableName c .plain] else return [])
  let parent ← (do
    if ← acceptWord "extends" then (← leftSide { c with admitsIn := true }).toValue else return [])
  let body ← classBody self leftSide { c with admitsIn := true }
  return name ++ parent ++ body

/-! ## Objects -/

/-- A member of an object, read three ways. -/
structure Property where
  value : Option Occurrences
  target : Option Occurrences
  binding : Option Occurrences
  isRest : Bool

def Property.ofValue (occs : Occurrences) : Property :=
  ⟨some occs, none, none, false⟩

def withDefault (o : Occurrences) (value : Option Occurrences) : Option Occurrences :=
  value.map (o ++ ·)

def propertyAfterKey (self : Recursion) (c : Scope) (k : Key) : Reader Property := do
  if ← isMark "(" then
    return .ofValue (k.occs ++ (← functionRest self false false))
  else if ← accept ":" then
    let r ← self .assignment c
    return ⟨withDefault k.occs r.value, withDefault k.occs r.targetItem,
      withDefault k.occs r.bindingItem, false⟩
  else
    match k.word with
    | none => fail
    | some o =>
      if !c.isVariable o.name then fail
      let short := { o with role := .shorthand }
      let target := { o with role := .assigned }
      if ← accept "=" then
        let r ← self .assignment c
        return ⟨none, withDefault [target] r.value, withDefault [short] r.value, false⟩
      else return ⟨some [short], some [target], some [short], false⟩

def property (self : Recursion) (c : Scope) : Reader Property := do
  if ← accept "..." then
    let r ← self .assignment c
    return ⟨r.value, if r.simple then r.target else none,
      if r.simple then r.binding else none, true⟩
  else if ← isAsyncModifier then
    advance
    let generates ← accept "*"
    let k ← key self c
    return .ofValue (k.occs ++ (← functionRest self true generates))
  else if ← accept "*" then
    let k ← key self c
    return .ofValue (k.occs ++ (← functionRest self false true))
  else if ← isModifier "get" then
    advance
    let k ← key self c
    return .ofValue (k.occs ++ (← accessorRest self 0))
  else if ← isModifier "set" then
    advance
    let k ← key self c
    return .ofValue (k.occs ++ (← accessorRest self 1))
  else propertyAfterKey self c (← key self c)

def propertyPattern (part : Property → Option Occurrences) (trailing : Bool) :
    List Property → Option Occurrences
  | [] => some []
  | [p] => if p.isRest && trailing then none else part p
  | p :: rest =>
    if p.isRest then none
    else (part p).bind fun occs => (propertyPattern part trailing rest).map (occs ++ ·)

def objectRest (self : Recursion) (c : Scope) : Reader Reading := do
  let step (l : List Property × Bool) : Reader ((List Property × Bool) × Bool) := do
    if ← isMark "\x7d" then return (l, false)
    let p ← property self c
    if ← accept "," then return ((l.1 ++ [p], true), true) else return ((l.1 ++ [p], false), false)
  let (ps, trailing) ← repeatStep step (← bound) ([], false)
  expect "\x7d"
  let target := propertyPattern (·.target) trailing ps
  let binding := propertyPattern (·.binding) trailing ps
  return ⟨joinReadings (ps.map (·.value)), target, binding, target, binding, false, none⟩

/-! ## Simple expressions -/

/-- A template whose text starts at the given place; escapes must be well formed unless a function
reads them. -/
def templateFrom (self : Recursion) (c : Scope) (tagged : Bool) :
    Nat → List Char → Reader Occurrences
  | 0, _ => fail
  | bound + 1, cs =>
    match templatePiece? (cs.length + 1) cs with
    | none => fail
    | some (ends, valid, rest) =>
      if !valid && !tagged then fail
      else if ends then do
        set (State.ofText rest false)
        return []
      else do
        set (State.ofText rest false)
        let occs ← self.value .expression { c with admitsIn := true }
        if ← isMark "\x7d" then
          let more ← templateFrom self c tagged bound (← get).text.tail
          return occs ++ more
        else fail

def template (self : Recursion) (c : Scope) (tagged : Bool) : Reader Occurrences := do
  templateFrom self c tagged (← bound) (← get).text.tail

def templateMark : String := String.singleton (Char.ofNat 0x60)

/-- The inside of parentheses: an expression, or the parameters of an arrow function. -/
def parenRest (self : Recursion) (c : Scope) : Reader Reading := do
  let l ← itemList self { c with admitsIn := true } ")" false
  let isSpread := l.items.any fun
    | .spread _ => true
    | _ => false
  let value := if l.items.isEmpty || l.trailing || isSpread then none else l.values
  let arrow := l.bindings.map fun occs => (false, occs)
  match l.items with
  | [.plain r] =>
    let simple := r.simple && !l.trailing
    let target := if simple then r.target else none
    return ⟨value, target, none, target, none, simple, arrow⟩
  | _ => return ⟨value, none, none, none, none, false, arrow⟩

def importExpression (self : Recursion) (c : Scope) : Reader Reading := do
  expectWord "import"
  if ← accept "." then
    if ← acceptWord "meta" then return .ofOccurrences []
    if !((← acceptWord "source") || (← acceptWord "defer")) then fail
  expect "("
  let l ← itemList self { c with admitsIn := true } ")" false
  let isSpread := l.items.any fun
    | .spread _ => true
    | _ => false
  if isSpread || l.items.isEmpty || l.items.length > 2 then fail
  return .ofValue l.values

def asyncExpression (self : Recursion) (c : Scope) : Reader Reading := do
  match ← next with
  | (.word w escaped, false) =>
    if w = "function" && !escaped then
      advance
      advance
      return .ofOccurrences (← functionExpression self true)
    else if c.isVariable w then
      let isArrow ← peek (do
        advance
        advance
        isMark "=>")
      if isArrow then
        advance
        let o ← variableName c .plain
        return ⟨none, none, none, none, none, false, some (true, [o])⟩
      else return .ofVariable (← variableName c .plain)
    else return .ofVariable (← variableName c .plain)
  | _ => return .ofVariable (← variableName c .plain)

def wordExpression (self : Recursion) (leftSide : Scope → Reader Reading) (c : Scope) (w : String)
    (escaped : Bool) : Reader Reading := do
  if escaped then return .ofVariable (← variableName c .plain)
  else if ["this", "null", "true", "false"].contains w then
    advance
    return .ofOccurrences []
  else if w = "function" then
    advance
    return .ofOccurrences (← functionExpression self false)
  else if w = "class" then
    advance
    return .ofOccurrences (← classAfterWord self leftSide c)
  else if w = "async" then asyncExpression self c
  else if w = "import" then importExpression self c
  else if w = "super" then
    advance
    if ← isOneMark ["(", ".", "["] then return .ofOccurrences [] else fail
  else return .ofVariable (← variableName c .plain)

def primaryExpression (self : Recursion) (leftSide : Scope → Reader Reading) (c : Scope) :
    Reader Reading := do
  match ← token with
  | .word w escaped => wordExpression self leftSide c w escaped
  | .number =>
    advance
    return .ofOccurrences []
  | .string =>
    advance
    return .ofOccurrences []
  | .mark m =>
    if m = "(" then
      advance
      parenRest self c
    else if m = "[" then
      advance
      let l ← itemList self { c with admitsIn := true } "]" true
      return ⟨l.values, l.targets, l.bindings, l.targets, l.bindings, false, none⟩
    else if m = "\x7b" then
      advance
      objectRest self { c with admitsIn := true }
    else if m = "/" || m = "/=" then
      match regex? (← get).text.tail with
      | some rest =>
        set (State.ofText rest false)
        return .ofOccurrences []
      | none => fail
    else if m = templateMark then return .ofOccurrences (← template self c false)
    else if m = "@" then
      let marks ← decorators leftSide c
      expectWord "class"
      return .ofOccurrences (marks ++ (← classAfterWord self leftSide c))
    else fail
  | _ => fail

/-! ## Members and calls -/

/-- A chain of members and calls. -/
structure Chain where
  reading : Reading
  optional : Bool
  isAsync : Bool

def memberName : Reader Unit := do
  match ← token with
  | .word _ _ => advance
  | .privateWord => advance
  | _ => fail

def callItems (self : Recursion) (c : Scope) : Reader Items := do
  expect "("
  itemList self { c with admitsIn := true } ")" false

def Chain.member (ch : Chain) (value more : Occurrences) : Chain :=
  let occs := value ++ more
  ⟨if ch.optional then .ofOccurrences occs else .ofMember occs, ch.optional, false⟩

def chainLink (self : Recursion) (c : Scope) (calls : Bool) (ch : Chain) :
    Reader (Chain × Bool) := do
  if ← isMark "." then
    let value ← ch.reading.toValue
    advance
    memberName
    return (ch.member value [], true)
  else if ← isMark "[" then
    let value ← ch.reading.toValue
    advance
    let more ← self.value .expression { c with admitsIn := true }
    expect "]"
    return (ch.member value more, true)
  else if ← isMark templateMark then
    if ch.optional then fail
    let value ← ch.reading.toValue
    let more ← template self c true
    return (⟨.ofOccurrences (value ++ more), false, false⟩, true)
  else if ← isMark "?." then
    if !calls then fail
    let value ← ch.reading.toValue
    advance
    let optional := { ch with optional := true }
    if ← isMark "(" then
      let l ← callItems self c
      return (⟨.ofValue (withDefault value l.values), true, false⟩, true)
    else if ← accept "[" then
      let more ← self.value .expression { c with admitsIn := true }
      expect "]"
      return (optional.member value more, true)
    else if ← isMark templateMark then fail
    else
      memberName
      return (optional.member value [], true)
  else if calls && (← isMark "(") then
    let value ← ch.reading.toValue
    let sameLine := !(← newLine)
    let l ← callItems self c
    let reading := Reading.ofValue (withDefault value l.values)
    let arrow := if ch.isAsync && sameLine then l.bindings.map fun occs => (true, occs) else none
    return (⟨{ reading with arrow := arrow }, ch.optional, false⟩, true)
  else return (ch, false)

def chainRest (self : Recursion) (c : Scope) (calls : Bool) (ch : Chain) : Reader Chain := do
  repeatStep (chainLink self c calls) (← bound) ch

def newExpression (self : Recursion) (leftSide : Scope → Reader Reading) (c : Scope) :
    Nat → Reader Occurrences
  | 0 => fail
  | depth + 1 => do
    expectWord "new"
    if ← accept "." then
      expectWord "target"
      return []
    let callee ← (do
      if ← isWord "new" then
        return Reading.ofOccurrences (← newExpression self leftSide c depth)
      else if ← isWord "import" then
        let r ← importExpression self c
        if ← isOneMark [".", "["] then return r else fail
      else primaryExpression self leftSide c)
    let ch ← chainRest self c false ⟨callee, false, false⟩
    let occs ← ch.reading.toValue
    if ← isMark "(" then
      let l ← callItems self c
      match l.values with
      | some more => return occs ++ more
      | none => fail
    else return occs

def leftSide (self : Recursion) : Nat → Scope → Reader Reading
  | 0, _ => fail
  | depth + 1, c => do
    let start ← get
    let head ← (do
      if start.token = .word "new" false then
        return Reading.ofOccurrences (← newExpression self (leftSide self depth) c (← bound))
      else primaryExpression self (leftSide self depth) c)
    let isAsync := start.token = .word "async" false && head.simple
    let ch ← chainRest self c true ⟨head, false, isAsync⟩
    return ch.reading

/-! ## Operators -/

def prefixWords : List String := ["delete", "void", "typeof"]

def prefixMarks : List String := ["+", "-", "~", "!"]

def isPrefixOperator (c : Scope) : Reader Bool := do
  match ← token with
  | .word w false => return prefixWords.contains w || (c.awaits && w = "await")
  | .mark m => return prefixMarks.contains m
  | _ => return false

/-- An operand with what stands in front of it, at most `bound` operators; tells whether there was
an operator in front. -/
def operand (self : Recursion) (c : Scope) : Nat → Reader (Reading × Bool)
  | 0 => fail
  | bound + 1 => do
    if ← isPrefixOperator c then
      advance
      let (r, _) ← operand self c bound
      return (.ofOccurrences (← r.toValue), true)
    else if ← isOneMark ["++", "--"] then
      advance
      let (r, _) ← operand self c bound
      if r.simple then return (.ofOccurrences (← r.toValue), false) else fail
    else
      let r ← leftSide self (bound + 1) c
      if (← isOneMark ["++", "--"]) && !(← newLine) then
        if r.simple then
          advance
          return (.ofOccurrences (← r.toValue), false)
        else fail
      else return (r, false)

def binaryMarks : List String :=
  ["**", "*", "/", "%", "+", "-", "<<", ">>", ">>>", "<", ">", "<=", ">=", "==", "!=", "===", "!==",
    "&", "^", "|", "&&", "||", "??"]

def looseMarks : List String := ["==", "!=", "===", "!==", "&", "^", "|", "&&", "||", "??"]

def binaryOperator? (c : Scope) : Reader (Option String) := do
  match ← token with
  | .mark m => return if binaryMarks.contains m then some m else none
  | .word w false =>
    return if w = "instanceof" || (w = "in" && c.admitsIn) then some w else none
  | _ => return none

/-- Operands with binary operators between them.  How they group does not matter here; that `??`
stands with neither `&&` nor `||`, and that no operator stands in front of the base of a power,
does. -/
structure Operands where
  reading : Reading
  hasPrefix : Bool
  coalesces : Bool
  combines : Bool

def operandOrPrivate (self : Recursion) (c : Scope) (loose : Bool) : Reader (Reading × Bool) := do
  if (← token) = .privateWord then
    advance
    if loose && c.admitsIn && (← isWord "in") then return (.ofOccurrences [], false) else fail
  else operand self c (← bound)

def operandStep (self : Recursion) (c : Scope) (o : Operands) : Reader (Operands × Bool) := do
  match ← binaryOperator? c with
  | none => return (o, false)
  | some m =>
    if m = "**" && o.hasPrefix then fail
    let left ← o.reading.toValue
    advance
    let (r, hasPrefix) ← operandOrPrivate self c (looseMarks.contains m)
    let right ← r.toValue
    let coalesces := o.coalesces || m = "??"
    let combines := o.combines || m = "&&" || m = "||"
    if coalesces && combines then fail
    return (⟨.ofOccurrences (left ++ right), hasPrefix, coalesces, combines⟩, true)

def operands (self : Recursion) (c : Scope) : Reader Reading := do
  let (r, hasPrefix) ← operandOrPrivate self c true
  let o ← repeatStep (operandStep self c) (← bound) ⟨r, hasPrefix, false, false⟩
  return o.reading

def conditional (self : Recursion) (c : Scope) : Reader Reading := do
  let test ← operands self c
  if ← isMark "?" then
    let occs ← test.toValue
    advance
    let yes ← self.value .assignment { c with admitsIn := true }
    expect ":"
    let no ← self.value .assignment c
    return .ofOccurrences (occs ++ yes ++ no)
  else return test

/-! ## Assignments and arrow functions -/

def assignmentMarks : List String :=
  ["+=", "-=", "*=", "/=", "%=", "**=", "<<=", ">>=", ">>>=", "&=", "^=", "|=", "&&=", "||=", "??="]

def arrowRest (self : Recursion) (c : Scope) (waits : Bool) (ps : Occurrences) :
    Reader Reading := do
  expect "=>"
  let inner : Scope := ⟨waits, false, c.admitsIn⟩
  let body ← (do
    if ← isMark "\x7b" then functionBody self inner else self.value .assignment inner)
  return .ofOccurrences (ps ++ body)

def yieldExpression (self : Recursion) (c : Scope) : Reader Reading := do
  expectWord "yield"
  if ← newLine then return .ofOccurrences []
  if ← accept "*" then return .ofOccurrences (← self.value .assignment c)
  let ends : Bool ← (do
    match ← token with
    | .finish => return true
    | .mark m => return [")", "]", "\x7d", ",", ";", ":"].contains m
    | .word w _ => return w = "in" || w = "of"
    | _ => return false)
  if ends then return .ofOccurrences [] else return .ofOccurrences (← self.value .assignment c)

def assignmentExpression (self : Recursion) (c : Scope) : Reader Reading := do
  if c.yields && (← isWord "yield") then yieldExpression self c
  else
    let left ← conditional self c
    match ← token with
    | .mark m =>
      if m = "=>" && !(← newLine) then
        match left.arrow with
        | some (waits, ps) => arrowRest self c waits ps
        | none => fail
      else if m = "=" then
        match left.target with
        | none => fail
        | some target =>
          advance
          let right ← self.value .assignment c
          return ⟨some (target ++ right), none, none, some (target ++ right),
            left.binding.map (· ++ right), false, none⟩
      else if assignmentMarks.contains m then
        if left.simple then
          let occs ← left.toValue
          advance
          let right ← self.value .assignment c
          return .ofOccurrences (occs ++ right)
        else fail
      else return left
    | _ => return left

def commaExpression (self : Recursion) (c : Scope) : Reader Reading := do
  let first ← assignmentExpression self c
  if ← isMark "," then
    let step (occs : Occurrences) : Reader (Occurrences × Bool) := do
      if ← accept "," then
        let more ← self.value .assignment c
        return (occs ++ more, true)
      else return (occs, false)
    return .ofOccurrences (← repeatStep step (← bound) (← first.toValue))
  else return first

end ComponentCompiler.Script
