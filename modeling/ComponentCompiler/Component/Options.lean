import ComponentCompiler.Json.Decode
import ComponentCompiler.Script.Rename

namespace ComponentCompiler.Script

def Transformer.read? : Json.Raw → Option Transformer
  | .string units => (Json.string? units).bind ofName?
  | .object [(units, .null)] => (Json.string? units).bind ofName?
  | _ => none

end ComponentCompiler.Script

namespace ComponentCompiler.Component

structure Options where
  containerTag : String := "app"
  /-- Whether elements that are neither standard nor registered are dropped. -/
  strictUnknown : Bool := false
  expandNested : Bool := false
  /-- How many bodies a usage site may lie in. -/
  maxDepth : Nat := 16
  transformer : Script.Transformer := .ast

namespace Options

def fieldNames : List String :=
  ["containerTag", "strictUnknown", "expandNested", "maxDepth", "scriptTransformer"]

def read? (raw : Json.Raw) : Option Options := do
  let [container, strict, nested, depth, transformer] ← raw.fields? fieldNames | none
  let default : Options := {}
  some {
    containerTag := ← Json.field? Json.Raw.string? default.containerTag container
    strictUnknown := ← Json.field? Json.Raw.bool? default.strictUnknown strict
    expandNested := ← Json.field? Json.Raw.bool? default.expandNested nested
    maxDepth := ← Json.field? Json.Raw.size? default.maxDepth depth
    transformer := ← Json.field? Script.Transformer.read? default.transformer transformer }

def toJson (o : Options) : Json.Value :=
  .object [
    ("containerTag", .string o.containerTag),
    ("strictUnknown", .bool o.strictUnknown),
    ("expandNested", .bool o.expandNested),
    ("maxDepth", .integer o.maxDepth),
    ("scriptTransformer", .string o.transformer.name)]

end Options

end ComponentCompiler.Component
