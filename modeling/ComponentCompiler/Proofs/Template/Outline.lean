import ComponentCompiler.Proofs.Markup.TagReading
import ComponentCompiler.Proofs.Template.Evaluation

namespace ComponentCompiler.Markup

def Attribute.outline (a : Attribute) : Attribute :=
  ⟨a.name, ""⟩

mutual

/-- A node without the values of its attributes and without its texts, other than raw ones. -/
def Node.outline : Node → Node
  | .text _ => .text ""
  | .element tag attributes children =>
    .element tag (attributes.map Attribute.outline)
      (if isRawText tag then children else outline children)
  | node => node

def outline : List Node → List Node
  | [] => []
  | node :: rest => node.outline :: outline rest

end

theorem isEmpty_outline (nodes : List Node) : (outline nodes).isEmpty = nodes.isEmpty := by
  cases nodes <;> rfl

theorem names_outline (attributes : List Attribute) :
    Attribute.names (attributes.map Attribute.outline) = Attribute.names attributes := by
  rw [Attribute.names, List.map_map]
  rfl

mutual

theorem tagNames_nodeOutline : (node : Node) → node.outline.tagNames = node.tagNames
  | .text _ => rfl
  | .comment _ | .doctype .. => rfl
  | .element tag attributes children => by
    rw [Node.outline, Node.tagNames, Node.tagNames, names_outline]
    cases isRawText tag with
    | true => rfl
    | false =>
      rw [if_neg Bool.false_ne_true, isEmpty_outline, tagNames_outline children]

theorem tagNames_outline : (nodes : List Node) → tagNames (outline nodes) = tagNames nodes
  | [] => rfl
  | node :: rest => by
    rw [outline, tagNames, tagNames, tagNames_nodeOutline node, tagNames_outline rest]

end

end ComponentCompiler.Markup

namespace ComponentCompiler.Template

open Markup (Attribute Everywhere Node arePlain outline tagNames)

variable {context other : Context}

def Agree (context other : Context) (_tag : String) (attributes : List Attribute) : Prop :=
  ∀ a ∈ attributes, isDirective a.name = true →
    Expression.holds a.value context = Expression.holds a.value other

instance (tag : String) (attributes : List Attribute) :
    Decidable (Agree context other tag attributes) :=
  inferInstanceAs (Decidable (∀ a ∈ attributes, isDirective a.name = true →
    Expression.holds a.value context = Expression.holds a.value other))

theorem Agree.passes {tag name : String} {attributes : List Attribute}
    (agree : Agree context other tag attributes) (directive : isDirective name = true) :
    passes context attributes name = passes other attributes name := by
  rw [Template.passes, Template.passes]
  cases inEffect : Attribute.get? attributes name with
  | none => rw [Option.map_none, Option.map_none]
  | some value =>
    obtain ⟨a, member, rfl, rfl⟩ := Attribute.exists_of_get? inEffect
    rw [Option.map_some, Option.map_some, agree a member directive]

mutual

theorem resolveNode_congr : (node : Node) → Everywhere (Agree context other) [node] →
    resolveNode context node = resolveNode other node
  | .element tag attributes children, agree => by
    obtain ⟨here, inside, -⟩ := Markup.everywhere_element_cons.1 agree
    rw [resolveNode, resolveNode, here.passes (by decide), settle, settle, here.passes (by decide),
      resolve_congr children inside]
  | .text _, _ | .comment _, _ | .doctype .., _ => rfl

theorem resolve_congr : (nodes : List Node) → Everywhere (Agree context other) nodes →
    resolve context nodes = resolve other nodes
  | [], _ => rfl
  | node :: rest, agree => by
    rw [← List.singleton_append, Markup.everywhere_append] at agree
    rw [resolve, resolve, resolveNode_congr node agree.1, resolve_congr rest agree.2]

end

theorem outline_attributes (attributes : List Attribute) :
    (attributes.map (interpolateAttribute context)).map Attribute.outline =
      attributes.map Attribute.outline := by
  rw [List.map_map]
  refine List.map_congr_left fun a _ => ?_
  rw [Function.comp_apply, Attribute.outline, Attribute.outline, interpolateAttribute_name]

mutual

theorem outline_interpolateNode : (node : Node) →
    (interpolateNode context node).outline = node.outline
  | .text _ | .comment _ | .doctype .. => rfl
  | .element tag attributes children => by
    rw [interpolateNode, Node.outline, Node.outline, outline_attributes]
    cases isRaw : Markup.isRawText tag with
    | true => rfl
    | false =>
      rw [if_neg Bool.false_ne_true, if_neg Bool.false_ne_true, if_neg Bool.false_ne_true,
        outline_interpolateNodes children]

theorem outline_interpolateNodes : (nodes : List Node) →
    outline (interpolateNodes context nodes) = outline nodes
  | [] => rfl
  | node :: rest => by
    rw [interpolateNodes, outline, outline, outline_interpolateNode node,
      outline_interpolateNodes rest]

end

def PlainAttributes (attributes : List Attribute) : Prop :=
  ∀ a ∈ attributes, Markup.isPlainName a.name = true

theorem PlainAttributes.settle {attributes : List Attribute}
    (plain : PlainAttributes attributes) : PlainAttributes (settle context attributes) := by
  have kept : PlainAttributes (Attribute.remove (Attribute.remove attributes "del-if") "if") :=
    fun a member => plain a (List.mem_of_mem_filter (List.mem_of_mem_filter member))
  unfold Template.settle
  dsimp only
  split
  · exact kept
  · -- The only name that directives add is that of the inline style.
    intro a member
    rcases Attribute.mem_set member with named | before
    · rw [named]
      decide
    · exact kept a before

theorem PlainAttributes.interpolate {attributes : List Attribute}
    (plain : PlainAttributes attributes) :
    PlainAttributes (attributes.map (interpolateAttribute context)) := by
  intro a member
  obtain ⟨b, inside, rfl⟩ := List.mem_map.1 member
  rw [interpolateAttribute_name]
  exact plain b inside

theorem isPlain_element {raw : Bool} {tag : String} {attributes : List Attribute}
    {children : List Node} : (Node.element tag attributes children).isPlain raw = true ↔
      Markup.isPlainName tag = true ∧ PlainAttributes attributes ∧
        arePlain (Markup.isRawText tag) children = true := by
  rw [Node.isPlain, Bool.and_eq_true, Bool.and_eq_true, List.all_eq_true, and_assoc]
  rfl

mutual

theorem isPlain_resolveNode : {raw : Bool} → (node : Node) → node.isPlain raw = true →
    arePlain raw (resolveNode context node) = true
  | _, .element tag attributes children, plain => by
    obtain ⟨plainTag, plainAttributes, plainChildren⟩ := isPlain_element.1 plain
    rw [resolveNode]
    split
    · rw [arePlain, arePlain, Bool.and_true]
      exact isPlain_element.2
        ⟨plainTag, plainAttributes.settle, arePlain_resolve children plainChildren⟩
    · rfl
  | _, .text _, plain | _, .comment _, plain => by
    rw [resolveNode, arePlain, arePlain, Bool.and_true]
    · exact plain
    all_goals simp
  | _, .doctype .., plain => by cases plain

theorem arePlain_resolve : {raw : Bool} → (nodes : List Node) → arePlain raw nodes = true →
    arePlain raw (resolve context nodes) = true
  | _, [], _ => rfl
  | _, node :: rest, plain => by
    rw [arePlain, Bool.and_eq_true] at plain
    rw [resolve, Markup.arePlain_append, isPlain_resolveNode node plain.1,
      arePlain_resolve rest plain.2, Bool.and_self]

end

mutual

theorem isPlain_interpolateNode : (node : Node) → node.isPlain false = true →
    (interpolateNode context node).isPlain false = true
  | .element tag attributes children, plain => by
    obtain ⟨plainTag, plainAttributes, plainChildren⟩ := isPlain_element.1 plain
    rw [interpolateNode]
    refine isPlain_element.2 ⟨plainTag, plainAttributes.interpolate, ?_⟩
    cases raw : Markup.isRawText tag with
    | true =>
      rw [raw] at plainChildren
      exact plainChildren
    | false =>
      rw [raw] at plainChildren
      exact arePlain_interpolateNodes children plainChildren
  | .text _, _ => rfl
  | .comment _, plain => plain
  | .doctype .., plain => by cases plain

theorem arePlain_interpolateNodes : (nodes : List Node) → arePlain false nodes = true →
    arePlain false (interpolateNodes context nodes) = true
  | [], _ => rfl
  | node :: rest, plain => by
    rw [arePlain, Bool.and_eq_true] at plain
    rw [interpolateNodes, arePlain, isPlain_interpolateNode node plain.1,
      arePlain_interpolateNodes rest plain.2, Bool.and_self]

end

theorem tags_render {forest : List Node} (plain : arePlain false forest = true)
    (context : Context) :
    Markup.tags (Markup.render (interpolateNodes context (resolve context forest))).toList =
      tagNames (resolve context forest) := by
  have evaluated : arePlain false (interpolateNodes context (resolve context forest)) = true :=
    arePlain_interpolateNodes _ (arePlain_resolve forest plain)
  have read := Markup.tags_renderChars _ evaluated []
  rw [List.append_nil] at read
  -- The placeholders leave the outline alone, and the tags are those of the outline.
  rw [Markup.render, String.toList_ofList, read, ← Markup.tagNames_outline,
    outline_interpolateNodes, Markup.tagNames_outline]
  exact List.append_nil _

/-- Contexts that agree on the directives of a body make it into forests of the same outline, and
no value of a context shows in the tags that are read of their texts. -/
theorem evaluation_congr {forest : List Node} (plain : arePlain false forest = true)
    (agree : Everywhere (Agree context other) forest) :
    outline (interpolateNodes context (resolve context forest)) =
        outline (interpolateNodes other (resolve other forest)) ∧
      Markup.tags (Markup.render (interpolateNodes context (resolve context forest))).toList =
        Markup.tags (Markup.render (interpolateNodes other (resolve other forest))).toList := by
  have resolved : resolve context forest = resolve other forest := resolve_congr forest agree
  refine ⟨?_, ?_⟩
  · rw [outline_interpolateNodes, outline_interpolateNodes, resolved]
  · rw [tags_render plain, tags_render plain, resolved]

theorem evaluation_congr_greeting :
    let forest : List Node :=
      [.element "p" [⟨"title", "\x7bname\x7d"⟩, ⟨"if", "\x7bshown\x7d"⟩]
        [.comment "greeting", .text "Hi \x7bname\x7d!", .element "br" [] []],
      .element "script" [] [.text "f(\x7bname\x7d)"]]
    let context : Context := ⟨[("name", "\"><script>f()</script><p a=\""), ("shown", "")]⟩
    let other : Context := ⟨[("name", "")]⟩
    outline (interpolateNodes context (resolve context forest)) =
        outline (interpolateNodes other (resolve other forest)) ∧
      Markup.tags (Markup.render (interpolateNodes context (resolve context forest))).toList =
        Markup.tags (Markup.render (interpolateNodes other (resolve other forest))).toList :=
  evaluation_congr (by decide +kernel) (by decide +kernel)

end ComponentCompiler.Template
