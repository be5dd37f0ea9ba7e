namespace ComponentCompiler

inductive CompileError
  | missingContainer (tag : String)
  | io (path reason : String)
  | parse (message : String)
  | config (message : String)
  | sourceIndex (message : String)
  | componentLibrary (message : String)
  | expansionDepth (tag : String) (limit : Nat)
deriving DecidableEq

def CompileError.message : CompileError → String
  | .missingContainer tag => "Index page must have an <" ++ tag ++ "> element"
  | .io path reason => "Got an error trying to access " ++ path ++ ": " ++ reason
  | .parse message => "Failed to parse markup: " ++ message
  | .config message => "Configuration error: " ++ message
  | .sourceIndex message => "Source index error: " ++ message
  | .componentLibrary message => "Component library error: " ++ message
  | .expansionDepth tag limit =>
    "Component <" ++ tag ++ "> exceeded the maximum expansion depth of " ++ toString limit

structure Warning where
  code : String
  tag : String
  message : String
deriving DecidableEq

namespace Warning

def unknownComponent (tag key : String) : Warning :=
  ⟨"W-UNKNOWN-COMPONENT", tag, key ++ " component could not be loaded"⟩

def noRoot (tag : String) : Warning :=
  ⟨"W-NO-ROOT", tag, "<" ++ tag ++
    "> expanded to a fragment without a root element; behavior and scope markers skipped"⟩

def undefinedComponent (name : String) : Warning :=
  ⟨"W-UNDEFINED-COMPONENT", name,
    name ++ " has no " ++ name ++ ".html body template and was skipped"⟩

end Warning

inductive LogLine
  | warn (text : String)
  | info (text : String)

def LogLine.text : LogLine → String
  | .warn text => "WARN " ++ text
  | .info text => "INFO " ++ text

def Warning.logLine (w : Warning) : LogLine :=
  .warn ("[" ++ w.code ++ "] " ++ w.message)

end ComponentCompiler
