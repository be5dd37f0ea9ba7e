import ComponentCompiler.Digest.Sha256
import ComponentCompiler.Identity.Label

/-!
# Identifiers of one build

Three sources of identifiers: labels for scripts and classes for style sheets, one for each key, and
binding identifiers, one for each request.  Classes and bindings are made from digests; should a
digest come up twice, another seed is tried, so that no identifier is issued twice whatever the
digest is.
-/

namespace ComponentCompiler.Identity

abbrev Hash := String → Nat → String

/-- A name that differs from all of a list, because it is longer. -/
def longer (base : String) (issued : List String) : String :=
  String.ofList (base.toList ++ List.replicate (issued.foldl (fun n s => n + s.length) 1) 'x')

/-- How many seeds are tried.  An allocator has no such bound: where this many seeds have digests that
were issued already it goes on and may not return, and `longer` stands for that. -/
def seedLimit : Nat := Nat.pow 2 64

/-- The first of the candidates with numbers `n`, `n + 1`, … that was not issued yet, and its
number. -/
def firstFresh (candidate : Nat → String) (issued : List String) : Nat → Nat → String × Nat
  | 0, n => (longer (candidate n) issued, n)
  | tries + 1, n =>
    if candidate n ∈ issued then firstFresh candidate issued tries (n + 1) else (candidate n, n)

structure Issued where
  id : String
  fresh : Bool

structure RuntimeIds where
  assigned : List (String × String) := []

def RuntimeIds.allocate (a : RuntimeIds) (key : String) : Issued × RuntimeIds :=
  match a.assigned.lookup key with
  | some id => (⟨id, false⟩, a)
  | none =>
    let id := label a.assigned.length
    (⟨id, true⟩, ⟨(key, id) :: a.assigned⟩)

structure ScopeClasses where
  assigned : List (String × String) := []

/-- The seed of a key: the key itself, then the key with a number. -/
def saltedSeed (key : String) (salt : Nat) : String :=
  if salt = 0 then key else key ++ "#" ++ toString salt

def ScopeClasses.allocate (hash : Hash) (a : ScopeClasses) (key : String) : Issued × ScopeClasses :=
  match a.assigned.lookup key with
  | some id => (⟨id, false⟩, a)
  | none =>
    let candidate := fun salt => "sc-" ++ hash (saltedSeed key salt) 8
    let (id, _) := firstFresh candidate (a.assigned.map (·.2)) seedLimit 0
    (⟨id, true⟩, ⟨(key, id) :: a.assigned⟩)

structure BindingIds where
  counter : Nat := 0
  issued : List String := []

def BindingIds.allocate (hash : Hash) (a : BindingIds) (key : String) : String × BindingIds :=
  let candidate := fun n => "chid-" ++ hash (key ++ "#" ++ toString n) 10
  let (id, n) := firstFresh candidate a.issued seedLimit a.counter
  (id, ⟨n + 1, id :: a.issued⟩)

def bindingAttribute : String := "chid"

end ComponentCompiler.Identity
