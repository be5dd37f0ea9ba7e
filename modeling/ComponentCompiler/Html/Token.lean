import ComponentCompiler.Markup.Node

namespace ComponentCompiler.Html

open Markup (Attribute)

structure Tag where
  name : String
  attributes : List Attribute
  selfClosing : Bool

structure Doctype where
  name : Option String
  publicId : Option String
  systemId : Option String
  forceLegacy : Bool

inductive Token
  | character (c : Char)
  | null
  | startTag (tag : Tag)
  | endTag (name : String)
  | comment (text : String)
  | doctype (d : Doctype)
  | fault
  | endOfInput

inductive ScriptText
  | plain
  | escaped (dashes : Nat)
  | doubleEscaped (dashes : Nat)

inductive TextKind
  | data
  | rcdata
  | rawtext
  | script (s : ScriptText)
  | plaintext

end ComponentCompiler.Html
