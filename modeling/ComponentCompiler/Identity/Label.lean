namespace ComponentCompiler.Identity

def letter (n : Nat) : Char :=
  Char.ofNat ('a'.toNat + n)

def labelChars (index : Nat) : List Char :=
  if index < 26 then [letter index]
  else labelChars (index / 26 - 1) ++ [letter (index % 26)]
termination_by index

def label (index : Nat) : String :=
  String.ofList (labelChars index)

end ComponentCompiler.Identity
