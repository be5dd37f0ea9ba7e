import ComponentCompiler.Component.Page
import ComponentCompiler.Proofs.Component.Derivation
import ComponentCompiler.Proofs.Component.DepthLimit
import ComponentCompiler.Proofs.Markup.Address

namespace ComponentCompiler.Component

open Markup (Address Element Node elements firstPlace? hasTag refill updateFirst?)

theorem compile_eq (registry : Registry) (options : Options) (source : String) :
    compile registry options source =
      match firstPlace? (hasTag options.containerTag) (Markup.parsePage source) with
      | none => .error ⟨.missingContainer options.containerTag, []⟩
      | some (place, container) =>
        (expand registry options container.children).map fun (children, output) =>
          ⟨refill (fun a held => if a = place then children else held) (Markup.parsePage source),
            output⟩ := by
  rw [compile]
  generalize Markup.parsePage source = page
  have changed (children : List Node) :=
    Markup.updateFirst?_children (p := hasTag options.containerTag) (g := fun _ => children) page
  simp only [Markup.first?_eq, changed]
  cases firstPlace? (hasTag options.containerTag) page with
  | none => rfl
  | some s => rfl

theorem compile_missing_iff {registry : Registry} {options : Options} {source tag : String}
    {warnings : List Warning} :
    compile registry options source = .error ⟨.missingContainer tag, warnings⟩ ↔
      tag = options.containerTag ∧ warnings = [] ∧
        ∀ e ∈ elements (Markup.parsePage source), hasTag options.containerTag e.tag = false := by
  rw [compile_eq, ← Markup.firstPlace?_eq_none_iff]
  cases firstPlace? (hasTag options.containerTag) (Markup.parsePage source) with
  | none => simp [eq_comm]
  | some s =>
    simp only [reduceCtorEq, and_false, iff_false]
    cases result : expand registry options s.2.children with
    | ok => exact nofun
    | error failure =>
      -- A pass fails for the depth of a usage site only.
      obtain ⟨_, _, _, _, _, _, reason⟩ := exceeds_of_error (c := ⟨registry, options⟩) result
      rintro ⟨⟩
      cases reason

def stylesheetNode (href : String) : Node :=
  .element "link" [⟨"rel", "stylesheet"⟩, ⟨"href", href⟩] []

def runtimeNode (src : String) : Node :=
  .element "script" [⟨"type", "module"⟩, ⟨"src", src⟩] []

/-- What is put at the end of an element: the child, when the element is the first with the tag. -/
def addition (tag : String) (nodes : List Node) (a : Address) (child : Option Node) : List Node :=
  if (firstPlace? (hasTag tag) nodes).map (·.1) = some a then child.toList else []

theorem appendTo?_refill (tag : String) (child : Node) (nodes : List Node)
    (change : Address → List Node → List Node)
    (keeps : ∀ f a held, updateFirst? (hasTag tag) f (change a held) =
      (updateFirst? (hasTag tag) f held).map (change a)) :
    (appendTo? tag child (refill change nodes)).getD (refill change nodes) =
      refill (fun a held => change a held ++ addition tag nodes a child) nodes := by
  rw [appendTo?, Markup.updateFirst?_refill (g := (· ++ [child])) nodes change keeps]
  cases found : firstPlace? (hasTag tag) nodes with
  | none => simp [addition, found]
  | some s =>
    have same (a : Address) (held : List Node) :
        (if a = s.1 then change a held ++ [child] else change a held) =
          change a held ++ addition tag nodes a child := by
      by_cases here : a = s.1
      · simp [addition, found, here]
      · simp [addition, found, here, Ne.symm here]
    simp only [same, Option.map_some, Option.getD_some]

theorem linkStylesheet_fst (href : String) (nodes : List Node) :
    (linkStylesheet href nodes).1 =
      (appendTo? "head" (stylesheetNode href) nodes).getD nodes := by
  rw [linkStylesheet, stylesheetNode]
  split <;> simp [*]

theorem linkRuntime_fst (src : String) (nodes : List Node) :
    (linkRuntime src nodes).1 =
      (appendTo? "body" (runtimeNode src) nodes).getD nodes := by
  rw [linkRuntime, runtimeNode]
  split <;> simp [*]

theorem addition_none (tag : String) (nodes : List Node) (a : Address) :
    addition tag nodes a none = [] := by
  simp [addition]

theorem updateFirst?_append_addition {p : String → Bool} {f : Element → Element} {tag : String}
    {nodes held : List Node} {a : Address} {child : Option Node}
    (other : ∀ node ∈ child, updateFirst? p f [node] = none) :
    updateFirst? p f (held ++ addition tag nodes a child) =
      (updateFirst? p f held).map (· ++ addition tag nodes a child) := by
  have absent : updateFirst? p f (addition tag nodes a child) = none := by
    rw [addition]
    split
    · cases child with
      | none => rfl
      | some node => exact other node rfl
    · rfl
  rw [Markup.updateFirst?_append, absent, Option.map_none, Option.or_none]

theorem attachAssets_eq (stylesheet runtime : Option String) (nodes : List Node) :
    (attachAssets stylesheet runtime nodes).1 =
      refill (fun a held => held ++ addition "head" nodes a (stylesheet.map stylesheetNode) ++
        addition "body" nodes a (runtime.map runtimeNode)) nodes := by
  have linked : ((stylesheet.map (linkStylesheet · nodes)).getD (nodes, [])).1 =
      refill (fun a held => held ++ addition "head" nodes a (stylesheet.map stylesheetNode))
        nodes := by
    cases stylesheet with
    | none => simp [addition_none, Markup.refill_id]
    | some href =>
      have appended := appendTo?_refill "head" (stylesheetNode href) nodes (fun _ held => held)
        (by simp)
      simpa [linkStylesheet_fst, Markup.refill_id] using appended
  rw [attachAssets]
  generalize (stylesheet.map (linkStylesheet · nodes)).getD (nodes, []) = first at linked
  obtain ⟨inner, lines⟩ := first
  obtain rfl := linked
  cases runtime with
  | none => simp [addition_none]
  | some src =>
    simp only [Option.map_some, Option.getD_some, linkRuntime_fst]
    -- The link is no body, so the first body is where it was.
    refine appendTo?_refill "body" _ nodes _ fun f a held => updateFirst?_append_addition ?_
    cases stylesheet with
    | none => nofun
    | some href =>
      rintro _ ⟨⟩
      rfl

/-- A page is refused exactly when it has no container at all. Otherwise its first container holds
what a pass makes of its children; links go to the end of the first head and of the first body; and
nothing else changes. -/
theorem page_frame (registry : Registry) (options : Options) (source : String) :
    (∀ tag warnings,
      compile registry options source = .error ⟨.missingContainer tag, warnings⟩ ↔
        tag = options.containerTag ∧ warnings = [] ∧
          ∀ e ∈ elements (Markup.parsePage source), hasTag options.containerTag e.tag = false) ∧
    (∀ place container,
      firstPlace? (hasTag options.containerTag) (Markup.parsePage source) = some (place, container) →
        compile registry options source =
          (expand registry options container.children).map fun (children, output) =>
            ⟨refill (fun a held => if a = place then children else held)
              (Markup.parsePage source), output⟩) ∧
    ∀ stylesheet runtime nodes, (attachAssets stylesheet runtime nodes).1 =
      refill (fun a held => held ++ addition "head" nodes a (stylesheet.map stylesheetNode) ++
        addition "body" nodes a (runtime.map runtimeNode)) nodes := by
  refine ⟨fun tag warnings => compile_missing_iff, fun place container found => ?_,
    attachAssets_eq⟩
  rw [compile_eq, found]

def badges : Registry :=
  .ofList "js" [⟨"badge", "<i></i>", none, none, none⟩]

def badgePage : String :=
  "<p><app><badge></badge></app><badge></badge></p><app></app>"

theorem page_frame_badges :
    ∃ container children output,
      firstPlace? (hasTag "App") (Markup.parsePage badgePage) =
        some (⟨0, [1, 0, 0]⟩, container) ∧
      Markup.render container.children = "<badge></badge>" ∧ Markup.render children = "<i></i>" ∧
      compile badges { containerTag := "App" } badgePage =
        .ok ⟨refill (fun a held => if a = ⟨0, [1, 0, 0]⟩ then children else held)
          (Markup.parsePage badgePage), output⟩ := by
  have value : (firstPlace? (hasTag "App") (Markup.parsePage badgePage)).map (fun s =>
      (s.1, Markup.render s.2.children, (expand badges { containerTag := "App" }
        s.2.children).toOption.map fun r => Markup.render r.1)) =
      some (⟨0, [1, 0, 0]⟩, "<badge></badge>", some "<i></i>") := by
    decide +kernel
  obtain ⟨⟨place, container⟩, found, same⟩ := Option.map_eq_some_iff.1 value
  simp only [Prod.mk.injEq] at same
  obtain ⟨rfl, held, expanded⟩ := same
  obtain ⟨⟨children, output⟩, done, rendered⟩ := exists_ok expanded
  obtain ⟨-, replaced, -⟩ := page_frame badges { containerTag := "App" } badgePage
  exact ⟨container, children, output, found, held, rendered, by rw [replaced _ _ found, done]; rfl⟩

end ComponentCompiler.Component
