import ComponentCompiler.Script.Token

namespace ComponentCompiler.Script

inductive Role
  | plain
  | shorthand
  /-- Key and variable at once, in a pattern that assigns. -/
  | assigned
  | imported
deriving DecidableEq

/-- A name in a script: `ahead` characters of the script are left where it starts, and it takes
`width` of them. -/
structure Occurrence where
  name : String
  ahead : Nat
  width : Nat
  role : Role
deriving DecidableEq

abbrev Occurrences := List Occurrence

/-- Where a reader stands: the current token, the text from it on, the text after it, and whether a
line ended before it. -/
structure State where
  token : Token
  text : List Char
  after : List Char
  newLine : Bool

def State.ofText (cs : List Char) (newLine : Bool) : State :=
  match skipGap .plain newLine cs with
  | some (newLine, text) =>
    let (token, after) := scanToken text
    ⟨token, text, after, newLine⟩
  | none => ⟨.bad, cs, [], newLine⟩

abbrev Reader := StateT State Option

namespace Reader

def fail {α : Type} : Reader α :=
  fun _ => none

def ofOption {α : Type} (value : Option α) : Reader α :=
  fun s => value.map (·, s)

def advance : Reader Unit :=
  modify fun s => State.ofText s.after false

def peek {α : Type} (r : Reader α) : Reader α :=
  fun s => (r s).map fun (a, _) => (a, s)

def token : Reader Token := do
  return (← get).token

def newLine : Reader Bool := do
  return (← get).newLine

def isMark (m : String) : Reader Bool := do
  return (← get).token = .mark m

def isOneMark (ms : List String) : Reader Bool := do
  match (← get).token with
  | .mark m => return ms.contains m
  | _ => return false

def accept (m : String) : Reader Bool := do
  if ← isMark m then
    advance
    return true
  else return false

def expect (m : String) : Reader Unit := do
  if ← accept m then return else fail

def isWord (w : String) : Reader Bool := do
  return (← get).token = .word w false

def acceptWord (w : String) : Reader Bool := do
  if ← isWord w then
    advance
    return true
  else return false

def expectWord (w : String) : Reader Unit := do
  if ← acceptWord w then return else fail

def next : Reader (Token × Bool) :=
  peek do
    advance
    return ((← get).token, (← get).newLine)

def semicolon : Reader Unit := do
  if ← accept ";" then return
  let s ← get
  if s.token = .mark "\x7d" || s.token = .finish || s.newLine then return else fail

def bound : Reader Nat := do
  return (← get).text.length + 1

end Reader

def reservedWords : List String :=
  ["break", "case", "catch", "class", "const", "continue", "debugger", "default", "delete", "do",
    "else", "enum", "export", "extends", "false", "finally", "for", "function", "if", "import",
    "in", "instanceof", "new", "null", "return", "super", "switch", "this", "throw", "true",
    "try", "typeof", "var", "void", "while", "with"]

structure Scope where
  awaits : Bool
  yields : Bool
  admitsIn : Bool

def Scope.isVariable (c : Scope) (w : String) : Bool :=
  !reservedWords.contains w && !(c.awaits && w = "await") && !(c.yields && w = "yield")

def occurrence (name : String) (role : Role) : Reader Occurrence := do
  let s ← get
  return ⟨name, s.text.length, s.text.length - s.after.length, role⟩

/-- An expression is read three ways at once, since what it is shows only later: as a value, as the
target of an assignment, and as a pattern that binds names.  The last two may carry a default when
the expression stands inside a pattern. -/
structure Reading where
  value : Option Occurrences
  target : Option Occurrences
  binding : Option Occurrences
  targetItem : Option Occurrences
  bindingItem : Option Occurrences
  simple : Bool
  /-- The parameters that the expression would be before an arrow; whether the function waits. -/
  arrow : Option (Bool × Occurrences)

namespace Reading

def ofValue (value : Option Occurrences) : Reading :=
  ⟨value, none, none, none, none, false, none⟩

def ofOccurrences (occs : Occurrences) : Reading :=
  ofValue (some occs)

def ofMember (occs : Occurrences) : Reading :=
  ⟨some occs, some occs, none, some occs, none, true, none⟩

def ofVariable (o : Occurrence) : Reading :=
  ⟨some [o], some [o], some [o], some [o], some [o], true, some (false, [o])⟩

def toValue (r : Reading) : Reader Occurrences :=
  Reader.ofOption r.value

end Reading

def joinReadings : List (Option Occurrences) → Option Occurrences
  | [] => some []
  | none :: _ => none
  | some occs :: rest => (joinReadings rest).map (occs ++ ·)

inductive Item
  | hole
  | plain (r : Reading)
  | spread (r : Reading)

structure Items where
  items : List Item
  trailing : Bool

namespace Items

def values (l : Items) : Option Occurrences :=
  joinReadings (l.items.map fun
    | .hole => some []
    | .plain r => r.value
    | .spread r => r.value)

def pattern (plain spread : Reading → Option Occurrences) (trailing : Bool) :
    List Item → Option Occurrences
  | [] => some []
  | [.spread r] => if trailing then none else spread r
  | .spread _ :: _ => none
  | .hole :: rest => pattern plain spread trailing rest
  | .plain r :: rest =>
    (plain r).bind fun occs => (pattern plain spread trailing rest).map (occs ++ ·)

def targets (l : Items) : Option Occurrences :=
  pattern (·.targetItem) (·.target) l.trailing l.items

def bindings (l : Items) : Option Occurrences :=
  pattern (·.bindingItem) (·.binding) l.trailing l.items

end Items

inductive Goal
  | expression
  | assignment
  | statement (alone : Bool)

/-- A reader for goals, used for the parts of what is being read. -/
abbrev Recursion := Goal → Scope → Reader Reading

def Recursion.value (self : Recursion) (g : Goal) (c : Scope) : Reader Occurrences := do
  (← self g c).toValue

def repeatStep {σ : Type} (step : σ → Reader (σ × Bool)) : Nat → σ → Reader σ
  | 0, s => return s
  | bound + 1, s => do
    let (s, goOn) ← step s
    if goOn then repeatStep step bound s else return s

end ComponentCompiler.Script
