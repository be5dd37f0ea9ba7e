import ComponentCompiler.Json.Reader

namespace ComponentCompiler.Json

abbrev Fields := List (Option Raw)

/-- Sorts the members of an object under the known names; refuses a known name that occurs twice
and a key that is no text. -/
def fieldsOfMembers? (names : List String) :
    List (List Nat × Raw) → Option (List (String × Raw))
  | [] => some []
  | (key, raw) :: rest => do
    let key ← string? key
    let found ← fieldsOfMembers? names rest
    if key ∈ names then
      if found.any (fun (k, _) => k = key) then none else some ((key, raw) :: found)
    else some found

/-- The forms of the named fields of an object or, in order, of an array; an array may leave out
fields at its end and holds no more than there are. -/
def Raw.fields? (names : List String) : Raw → Option Fields
  | .object members => do
    let found ← fieldsOfMembers? names members
    some (names.map fun name => (found.find? fun (k, _) => k = name).map (·.2))
  | .array items =>
    if items.length ≤ names.length then
      some (items.map some ++ List.replicate (names.length - items.length) none)
    else none
  | _ => none

def Raw.string? : Raw → Option String
  | .string units => Json.string? units
  | _ => none

def Raw.bool? : Raw → Option Bool
  | .bool b => some b
  | _ => none

def Raw.size? : Raw → Option Nat
  | .number n =>
    match n.value? with
    | some (.integer i) => if 0 ≤ i then some i.toNat else none
    | _ => none
  | _ => none

def Raw.isNull : Raw → Bool
  | .null => true
  | _ => false

def Raw.nullable? {α : Type} (read : Raw → Option α) (raw : Raw) : Option (Option α) :=
  if raw.isNull then some none else (read raw).map some

def field? {α : Type} (read : Raw → Option α) (default : α) : Option Raw → Option α
  | none => some default
  | some raw => read raw

end ComponentCompiler.Json
