import ComponentCompiler.Script.Expressions

namespace ComponentCompiler.Script

open Reader

def linkingWords : List String := ["in", "instanceof", "of"]

def declared (self : Recursion) (c : Scope) : Reader (Occurrences × Bool) := do
  match ← token with
  | .word _ _ => return ([← variableName c .plain], false)
  | .mark m =>
    if m = "\x7b" || m = "[" then
      let r ← primaryExpression self (fun _ => fail) c
      match r.binding with
      | some occs => return (occs, true)
      | none => fail
    else fail
  | _ => fail

structure Declaration where
  occs : Occurrences
  lacksValue : Bool

def declarators (self : Recursion) (c : Scope) (constant : Bool) : Reader Declaration := do
  let step (d : Declaration) : Reader (Declaration × Bool) := do
    let (names, isPattern) ← declared self c
    let hasValue ← accept "="
    let value ← (do if hasValue then self.value .assignment c else return [])
    let lacks := !hasValue && (constant || isPattern)
    let d : Declaration := ⟨d.occs ++ names ++ value, d.lacksValue || lacks⟩
    return (d, ← accept ",")
  repeatStep step (← bound) ⟨[], false⟩

def startsDeclaration (w : String) (patterns : Bool) : Reader Bool := do
  if ← isWord w then
    match ← next with
    | (.word n _, _) => return !(linkingWords.contains n) || (patterns && n = "of")
    | (.mark m, _) => return patterns && (m = "[" || m = "\x7b")
    | _ => return false
  else return false

def startsUsing : Reader Bool := do
  if ← isWord "using" then
    match ← next with
    | (.word n _, false) => return !(linkingWords.contains n)
    | _ => return false
  else return false

def startsAwaitUsing (c : Scope) : Reader Bool := do
  if c.awaits && (← isWord "await") then
    match ← next with
    | (.word "using" false, false) => peek (do
        advance
        startsUsing)
    | _ => return false
  else return false

def variableWord? : Reader (Option Bool) := do
  if ← acceptWord "var" then return some false
  else if ← acceptWord "const" then return some true
  else if ← startsDeclaration "let" true then
    advance
    return some false
  else return none

def declarationWord? (c : Scope) : Reader (Option Bool) := do
  if ← startsUsing then
    advance
    return some true
  else if ← startsAwaitUsing c then
    advance
    advance
    return some true
  else variableWord?

def declarationStatement (self : Recursion) (c : Scope) (constant : Bool) : Reader Occurrences := do
  let d ← declarators self { c with admitsIn := true } constant
  if d.lacksValue then fail
  semicolon
  return d.occs

def condition (self : Recursion) (c : Scope) : Reader Occurrences := do
  expect "("
  let occs ← self.value .expression { c with admitsIn := true }
  expect ")"
  return occs

def blockStatement (self : Recursion) (c : Scope) : Reader Occurrences := do
  expect "\x7b"
  statementsToBrace self c

def loopParts (self : Recursion) (c : Scope) : Reader Occurrences := do
  let test ← (do if ← isMark ";" then return [] else self.value .expression c)
  expect ";"
  let update ← (do if ← isMark ")" then return [] else self.value .expression c)
  expect ")"
  return test ++ update

/-- What a loop runs over, after `of` or `in`, the closing parenthesis included; none when neither
word follows. -/
def loopOver? (self : Recursion) (c : Scope) (onlyOf : Bool) : Reader (Option Occurrences) := do
  if ← acceptWord "of" then
    let occs ← self.value .assignment c
    expect ")"
    return some occs
  else if !onlyOf && (← acceptWord "in") then
    let occs ← self.value .expression c
    expect ")"
    return some occs
  else return none

def declaringLoop (self : Recursion) (c : Scope) (waits constant : Bool) : Reader Occurrences := do
  let d ← declarators self { c with admitsIn := false } constant
  match ← loopOver? self c waits with
  | some occs => return d.occs ++ occs
  | none =>
    if waits || d.lacksValue then fail
    expect ";"
    return d.occs ++ (← loopParts self c)

def expressionLoop (self : Recursion) (c : Scope) (waits : Bool) : Reader Occurrences := do
  let isBare : Bool ← (do
    if !waits && (← isWord "async") then return (← next).1 = .word "of" false else return false)
  if isBare then fail
  let startsLet ← isWord "let"
  let r ← self .expression { c with admitsIn := false }
  let isOf ← isWord "of"
  let subject ← (do
    if r.target.isSome && !(isOf && startsLet) then loopOver? self c waits else return none)
  match subject, r.target with
  | some occs, some target => return target ++ occs
  | _, _ =>
    if waits then fail
    let occs ← r.toValue
    expect ";"
    return occs ++ (← loopParts self c)

def forRest (self : Recursion) (c : Scope) : Reader Occurrences := do
  let waits ← (do if c.awaits then acceptWord "await" else return false)
  expect "("
  let c := { c with admitsIn := true }
  let head ← (do
    if ← isMark ";" then
      if waits then fail
      advance
      loopParts self c
    else
      match ← declarationWord? c with
      | some constant => declaringLoop self c waits constant
      | none => expressionLoop self c waits)
  let body ← self.value (.statement true) c
  return head ++ body

def switchBody (self : Recursion) (c : Scope) : Reader Occurrences := do
  expect "\x7b"
  let step (occs : Occurrences) : Reader (Occurrences × Bool) := do
    if ← isMark "\x7d" then return (occs, false)
    if ← acceptWord "case" then
      let test ← self.value .expression c
      expect ":"
      return (occs ++ test, true)
    else if ← acceptWord "default" then
      expect ":"
      return (occs, true)
    else
      let more ← self.value (.statement false) c
      return (occs ++ more, true)
  if !(← isMark "\x7d") && !(← isWord "case") && !(← isWord "default") then fail
  let occs ← repeatStep step (← bound) []
  expect "\x7d"
  return occs

def tryRest (self : Recursion) (c : Scope) : Reader Occurrences := do
  let body ← blockStatement self c
  let hasHandler ← acceptWord "catch"
  let handler ← (do
    if hasHandler then
      let name ← (do
        if ← accept "(" then
          let (names, _) ← declared self c
          expect ")"
          return names
        else return [])
      return name ++ (← blockStatement self c)
    else return [])
  let hasFinal ← acceptWord "finally"
  if !hasHandler && !hasFinal then fail
  let final ← (do if hasFinal then blockStatement self c else return [])
  return body ++ handler ++ final

def jumpRest (c : Scope) : Reader Unit := do
  match ← token with
  | .word w _ => if !(← newLine) && c.isVariable w then advance
  | _ => pure ()
  semicolon

def wordStatement? (self : Recursion) (c : Scope) (w : String) : Reader (Option Occurrences) := do
  if w = "if" then
    advance
    let test ← condition self c
    let yes ← self.value (.statement true) c
    let no ← (do if ← acceptWord "else" then self.value (.statement true) c else return [])
    return some (test ++ yes ++ no)
  else if w = "for" then
    advance
    return some (← forRest self c)
  else if w = "while" || w = "with" then
    advance
    let test ← condition self c
    return some (test ++ (← self.value (.statement true) c))
  else if w = "do" then
    advance
    let body ← self.value (.statement true) c
    expectWord "while"
    let test ← condition self c
    let _ ← accept ";"
    return some (body ++ test)
  else if w = "continue" || w = "break" then
    advance
    jumpRest c
    return some []
  else if w = "return" then
    advance
    let s ← get
    let isBare := s.newLine || s.token = .mark ";" || s.token = .mark "\x7d" || s.token = .finish
    let occs ← (do if isBare then return [] else self.value .expression c)
    semicolon
    return some occs
  else if w = "throw" then
    advance
    if ← newLine then fail
    let occs ← self.value .expression c
    semicolon
    return some occs
  else if w = "switch" then
    advance
    let subject ← condition self c
    return some (subject ++ (← switchBody self c))
  else if w = "try" then
    advance
    return some (← tryRest self c)
  else if w = "debugger" then
    advance
    semicolon
    return some []
  else return none

def startsAsyncFunction : Reader Bool := do
  if ← isWord "async" then return (← next) = (.word "function" false, false) else return false

def functionStatement (self : Recursion) (c : Scope) (waits named : Bool) : Reader Occurrences := do
  let generates ← accept "*"
  let name ← (do
    if ← isMark "(" then (if named then fail else return []) else return [← variableName c .plain])
  let rest ← functionRest self waits generates
  return name ++ rest

def decoratedClass (self : Recursion) (c : Scope) : Reader Occurrences := do
  let marks ← decorators (leftSide self (← bound)) c
  expectWord "class"
  return marks ++ (← classAfterWord self (leftSide self (← bound)) c)

/-- A function or class as a statement; none when none starts here.  Where a statement stands alone,
only a plain function may stand; `named` says that a function needs a name. -/
def definition? (self : Recursion) (c : Scope) (alone named : Bool) :
    Reader (Option Occurrences) := do
  if ← isWord "function" then
    advance
    if alone && (← isMark "*") then fail
    return some (← functionStatement self c false named)
  else if ← startsAsyncFunction then
    if alone then fail
    advance
    advance
    return some (← functionStatement self c true named)
  else if (← isWord "class") || (← isMark "@") then
    if alone then fail
    return some (← decoratedClass self c)
  else return none

def importAttributes : Reader Unit := do
  let isWith : Bool ← (do
    if ← isWord "with" then return true
    else return (← isWord "assert") && !(← newLine))
  if isWith then
    advance
    expect "\x7b"
    let step (_ : Unit) : Reader (Unit × Bool) := do
      if ← isMark "\x7d" then return ((), false)
      match ← token with
      | .word _ _ => advance
      | .string => advance
      | _ => fail
      expect ":"
      if (← token) = .string then advance else fail
      return ((), ← accept ",")
    repeatStep step (← bound) ()
    expect "\x7d"

def sourceRest : Reader Unit := do
  if (← token) = .string then advance else fail
  importAttributes
  semicolon

def importItem : Reader Occurrences := do
  let module : Scope := ⟨true, false, true⟩
  match ← token with
  | .string =>
    advance
    expectWord "as"
    return [← variableName module .plain]
  | .word w _ =>
    let o ← occurrence w .imported
    advance
    if ← acceptWord "as" then return [← variableName module .plain]
    else if module.isVariable w then return [o]
    else fail
  | _ => fail

def braceList (item : Reader Occurrences) : Reader Occurrences := do
  expect "\x7b"
  let step (occs : Occurrences) : Reader (Occurrences × Bool) := do
    if ← isMark "\x7d" then return (occs, false)
    let more ← item
    return (occs ++ more, ← accept ",")
  let occs ← repeatStep step (← bound) []
  expect "\x7d"
  return occs

def namespaceImport : Reader Occurrences := do
  expect "*"
  expectWord "as"
  return [← variableName ⟨true, false, true⟩ .plain]

def importRest : Reader Occurrences := do
  if (← token) = .string then
    sourceRest
    return []
  let deferred : Bool ← (do
    if ← isWord "defer" then return (← next).1 = .mark "*" else return false)
  if deferred then advance
  let sourced : Bool ← (do
    if ← isWord "source" then
      match ← next with
      | (.word n _, _) =>
        if n = "from" then peek (do
          advance
          return (← next).1 = .word "from" false)
        else return true
      | _ => return false
    else return false)
  if sourced then advance
  let occs ← (do
    if ← isMark "*" then namespaceImport
    else if ← isMark "\x7b" then braceList importItem
    else
      let o ← variableName ⟨true, false, true⟩ .plain
      if ← accept "," then
        let more ← (do if ← isMark "*" then namespaceImport else braceList importItem)
        return o :: more
      else return [o])
  expectWord "from"
  sourceRest
  return occs

def exportItem : Reader (Option Occurrence × Bool) := do
  let name ← (do
    match ← token with
    | .string =>
      advance
      return (none, true)
    | .word w _ =>
      let o ← occurrence w .plain
      advance
      return (some o, !(⟨true, false, true⟩ : Scope).isVariable w)
    | _ => fail)
  if ← acceptWord "as" then
    match ← token with
    | .string => advance
    | .word _ _ => advance
    | _ => fail
  return name

def exportList : Reader Occurrences := do
  expect "\x7b"
  let step (l : List (Option Occurrence × Bool)) :
      Reader (List (Option Occurrence × Bool) × Bool) := do
    if ← isMark "\x7d" then return (l, false)
    let item ← exportItem
    return (l ++ [item], ← accept ",")
  let items ← repeatStep step (← bound) []
  expect "\x7d"
  if ← acceptWord "from" then
    sourceRest
    return []
  else
    if items.any (·.2) then fail
    semicolon
    return items.filterMap (·.1)

def exportRest (self : Recursion) (c : Scope) : Reader Occurrences := do
  if ← acceptWord "default" then
    match ← definition? self c false false with
    | some occs => return occs
    | none =>
      let occs ← self.value .assignment c
      semicolon
      return occs
  else if ← accept "*" then
    if ← acceptWord "as" then
      match ← token with
      | .string => advance
      | .word _ _ => advance
      | _ => fail
    expectWord "from"
    sourceRest
    return []
  else if ← isMark "\x7b" then exportList
  else
    match ← definition? self c false true with
    | some occs => return occs
    | none =>
      match ← variableWord? with
      | some constant => declarationStatement self c constant
      | none => fail

def decoratedStatement (self : Recursion) (c : Scope) : Reader Occurrences := do
  let marks ← decorators (leftSide self (← bound)) c
  if ← acceptWord "export" then
    let _ ← acceptWord "default"
  return marks ++ (← decoratedClass self c)

def startsImport : Reader Bool := do
  if ← isWord "import" then
    match (← next).1 with
    | .mark m => return m ≠ "(" && m ≠ "."
    | _ => return true
  else return false

def linkage? (self : Recursion) (c : Scope) : Reader (Option Occurrences) := do
  if ← startsImport then
    advance
    return some (← importRest)
  else if ← isWord "export" then
    advance
    return some (← exportRest self c)
  else return none

def startsLabel (c : Scope) : Reader Bool := do
  match ← token with
  | .word w _ => if c.isVariable w then return (← next).1 = .mark ":" else return false
  | _ => return false

/-- A statement; `alone` where no declaration may stand. -/
def statement (self : Recursion) (c : Scope) (alone : Bool) : Reader Occurrences := do
  let c := { c with admitsIn := true }
  let ruled ← (do
    match ← token with
    | .word w false =>
      match ← wordStatement? self c w with
      | some occs => return some occs
      | none => linkage? self c
    | _ => return none)
  match ruled with
  | some occs => return occs
  | none =>
    if ← isMark "\x7b" then blockStatement self c
    else if ← accept ";" then return []
    else if !alone && (← isMark "@") then decoratedStatement self c
    else
      match ← definition? self c alone true with
      | some occs => return occs
      | none =>
        let isVar ← isWord "var"
        match ← declarationWord? c with
        | some constant =>
          if alone && !isVar then fail
          declarationStatement self c constant
        | none =>
          if ← startsLabel c then
            advance
            advance
            self.value (.statement true) c
          else
            let occs ← self.value .expression c
            semicolon
            return occs

def readGoal : Nat → Recursion
  | 0 => fun _ _ => fail
  | depth + 1 => fun goal c =>
    match goal with
    | .expression => commaExpression (readGoal depth) c
    | .assignment => assignmentExpression (readGoal depth) c
    | .statement alone => Reading.ofOccurrences <$> statement (readGoal depth) c alone

def withoutInterpreter (cs : List Char) : List Char :=
  match cs with
  | '#' :: '!' :: rest => rest.dropWhile (!isLineEnd ·)
  | _ => cs

def statements (depth : Nat) : Reader Occurrences := do
  let step (occs : Occurrences) : Reader (Occurrences × Bool) := do
    if (← token) = .finish then return (occs, false)
    let more ← (readGoal depth).value (.statement false) ⟨true, false, true⟩
    return (occs ++ more, true)
  repeatStep step (← bound) []

/-- The names of a script, read as a module; none when it is not well formed. -/
def occurrences? (cs : List Char) : Option Occurrences :=
  let start := State.ofText (withoutInterpreter cs) true
  match statements (4 * cs.length + 8) start with
  | some (occs, s) => if s.token = .finish then some occs else none
  | none => none

end ComponentCompiler.Script
