import ComponentCompiler.Proofs.Component.Emission
import ComponentCompiler.Proofs.Component.Steps

namespace ComponentCompiler.Component

open Markup (Attribute Marked Node)

structure Progress.Extends (p p' : Progress) : Prop where
  runtimeChunks : p.runtimeChunks <+: p'.runtimeChunks
  styleChunks : p.styleChunks <+: p'.styleChunks
  warnings : p.warnings <+: p'.warnings
  instances : p.instances <+: p'.instances

namespace Progress

variable {p p₁ p₂ : Progress}

theorem Extends.refl (p : Progress) : p.Extends p :=
  ⟨List.prefix_rfl, List.prefix_rfl, List.prefix_rfl, List.prefix_rfl⟩

theorem Extends.trans (first : p.Extends p₁) (second : p₁.Extends p₂) : p.Extends p₂ :=
  ⟨first.runtimeChunks.trans second.runtimeChunks, first.styleChunks.trans second.styleChunks,
    first.warnings.trans second.warnings, first.instances.trans second.instances⟩

theorem extends_warn (p : Progress) (w : Warning) : p.Extends (p.warn w) :=
  { Extends.refl p with warnings := List.prefix_append _ _ }

theorem extends_scopeStyles (p : Progress) (key : String) (d : Definition) :
    p.Extends (p.scopeStyles key d).2 := by
  rw [scopeStyles]
  split
  · exact { Extends.refl p with styleChunks := List.prefix_append _ _ }
  · exact .refl p

theorem extends_bind (p : Progress) (key : String) (d : Definition) :
    p.Extends (p.bind key d).2 := by
  rw [bind]
  split
  · exact { Extends.refl p with }
  · exact .refl p

theorem extends_activate (t : Script.Transformer) (p : Progress) (key : String) (d : Definition)
    (context : Template.Context) (bindingId : Option String) :
    p.Extends (p.activate t key d context bindingId).2 := by
  cases bindingId with
  | none => exact .refl p
  | some id =>
    rw [activate]
    split
    · have chunks (code call : List String) : p.runtimeChunks <+: p.runtimeChunks ++ code ++ call :=
        (List.prefix_append _ _).trans (List.prefix_append _ _)
      exact { Extends.refl p with runtimeChunks := chunks _ _ }
    · exact .refl p

theorem extends_identify (t : Script.Transformer) (p : Progress) (tag key : String)
    (d : Definition) (context : Template.Context) :
    p.Extends (p.identify t tag key d context).2 := by
  have styled := p.extends_scopeStyles key d
  have bound := (p.scopeStyles key d).2.extends_bind key d
  exact (styled.trans bound).trans (extends_activate t _ key d context _)

theorem extends_record (p : Progress) (i : Instance) :
    p.Extends { p with instances := p.instances ++ [i] } :=
  { Extends.refl p with instances := List.prefix_append _ _ }

end Progress

namespace Setting

variable (c : Setting) (tag : String)

theorem extends_noted (p : Progress) : p.Extends (c.noted tag p) := by
  rw [noted]
  split
  · exact p.extends_warn _
  · exact .refl p

theorem extends_enrol (attributes : List Attribute) (d : Definition) (p : Progress) :
    p.Extends (c.enrol tag attributes d p).2 := by
  rw [enrol]
  by_cases marked : (d.hasStyles || d.isAddressable) = true
  · simp only [if_pos marked]
    split
    · exact (p.extends_identify _ tag _ d _).trans (Progress.extends_record _ _)
    · exact (p.extends_warn _).trans (Progress.extends_record _ _)
  · simp only [if_neg marked]
    exact p.extends_record _

end Setting

theorem Run.extends {c : Setting} {task : Task} {p p' : Progress} {sites : List Site}
    {out : List Marked} (run : Run c task p sites out p') : p.Extends p' := by
  induction run with
  | walkNil | flat | fillNil => exact .refl _
  | walkLeaf _ _ ih | passBy _ _ ih | nest _ _ _ ih | fillLeaf _ _ ih => exact ih
  | @site _ _ p _ tag attributes _ _ d _ _ _ _ _ _ _ _ _ _ _ _ _ enrolled _ _ _ inner fill more =>
    have issued := c.extends_enrol tag attributes d p
    rw [enrolled] at issued
    exact ((issued.trans inner).trans fill).trans more
  | drop _ _ _ _ ih => exact (c.extends_noted _ _).trans ih
  | keep _ _ _ _ _ inside more => exact ((c.extends_noted _ _).trans inside).trans more
  | fillSlot _ _ _ first second | fillElement _ _ _ first second => exact first.trans second

theorem walk_extends {c : Setting} {nodes out : List Node} {p p' : Progress}
    (done : walk c (onBodies c) nodes p = .ok (out, p')) : p.Extends p' := by
  rw [← c.onBodiesAt_zero, ← Markup.erase_unmarked nodes] at done
  obtain ⟨_, _, run, -⟩ := exists_run c 0 false _ _ _ _ done
  exact run.extends

theorem walk_append (c : Setting) (inner : String → List Node → Pass) (before after : List Node)
    (p : Progress) :
    walk c inner (before ++ after) p = (walk c inner before p).bind fun r =>
      (walk c inner after r.2).map fun more => (r.1 ++ more.1, more.2) := by
  induction before generalizing p with
  | nil =>
    rw [List.nil_append, walk, Except.bind]
    cases walk c inner after p <;> rfl
  | cons node before ih =>
    rw [List.cons_append, walk_cons, walk_cons]
    cases walkNode c inner node p with
    | error failure => rfl
    | ok r =>
      simp only [Except.bind, ih]
      cases walk c inner before r.2 with
      | error failure => rfl
      | ok r₁ =>
        simp only [Except.map]
        cases walk c inner after r₁.2 with
        | error failure => rfl
        | ok r₂ => simp only [List.append_assoc]

theorem exists_intercalate_append (separator : String) (xs ys : List String) :
    ∃ more, String.intercalate separator (xs ++ ys) = String.intercalate separator xs ++ more := by
  induction xs with
  | nil => exact ⟨_, String.empty_append.symm⟩
  | cons x xs ih =>
    obtain ⟨more, joined⟩ := ih
    cases xs with
    | nil =>
      cases ys with
      | nil => exact ⟨"", String.append_empty.symm⟩
      | cons y ys =>
        exact ⟨separator ++ String.intercalate separator (y :: ys), by
          simp [String.intercalate_cons_cons, String.append_assoc]⟩
    | cons x' xs =>
      refine ⟨more, ?_⟩
      rw [List.cons_append, List.cons_append, String.intercalate_cons_cons, ← List.cons_append,
        joined, String.intercalate_cons_cons, String.append_assoc, String.append_assoc,
        String.append_assoc]

/-- What one pass gives besides its forest comes first in what another gives. -/
structure Output.Begins (first whole : Output) : Prop where
  runtimeScript : ∃ more, whole.runtimeScript = first.runtimeScript ++ more
  styles : ∃ more, whole.styles = first.styles ++ more
  warnings : first.warnings <+: whole.warnings
  instances : first.instances <+: whole.instances

theorem Progress.Extends.begins {p p' : Progress} (extends_ : p.Extends p') :
    p.output.Begins p'.output := by
  obtain ⟨chunks, scripts⟩ := extends_.runtimeChunks
  obtain ⟨sheets, styles⟩ := extends_.styleChunks
  refine ⟨?_, ?_, extends_.warnings, extends_.instances⟩
  · simp only [Progress.output, ← scripts]
    exact exists_intercalate_append _ _ _
  · simp only [Progress.output, ← styles]
    exact exists_intercalate_append _ _ _

/-- A pass over a forest that goes on fails as the pass over the forest does.  Where it succeeds,
so does the pass over the forest, and the nodes, texts, warnings and instances of the longer pass
start with those of the shorter one. -/
theorem expand_append (registry : Registry) (options : Options) (before after : List Node) :
    (∀ failure, expand registry options before = .error failure →
      expand registry options (before ++ after) = .error failure) ∧
    ∀ out output, expand registry options (before ++ after) = .ok (out, output) →
      ∃ first more output₁, expand registry options before = .ok (first, output₁) ∧
        out = first ++ more ∧ output₁.Begins output := by
  simp only [expand, walk_append]
  cases walked : walk ⟨registry, options⟩ (onBodies ⟨registry, options⟩) before {} with
  | error failure =>
    refine ⟨fun other failed => failed, fun out output done => ?_⟩
    cases done
  | ok r =>
    refine ⟨fun other failed => ?_, fun out output done => ?_⟩
    · cases failed
    · simp only [Except.bind] at done
      cases rest : walk ⟨registry, options⟩ (onBodies ⟨registry, options⟩) after r.2 with
      | error failure =>
        rw [rest] at done
        cases done
      | ok r' =>
        rw [rest] at done
        obtain ⟨rfl, rfl⟩ := Prod.mk.inj (Except.ok.inj done)
        exact ⟨r.1, r'.1, r.2.output, rfl, rfl, (walk_extends rest).begins⟩

theorem expand_append_cards :
    (∃ failure, expand cards { expandNested := true, maxDepth := 0 } cardsInUse = .error failure ∧
      expand cards { expandNested := true, maxDepth := 0 } (cardsInUse ++ [.text "x"]) =
        .error failure) ∧
    ∃ out output first more output₁,
      expand cards {} (cardsInUse ++ [.element "note" [] []]) = .ok (out, output) ∧
      (output.instances.map (·.tag) = ["card", "note", "note", "card", "note"]) ∧
      expand cards {} cardsInUse = .ok (first, output₁) ∧ out = first ++ more ∧
      output₁.Begins output := by
  constructor
  · have fails : (expand cards { expandNested := true, maxDepth := 0 } cardsInUse).toOption.isNone =
        true := by
      decide +kernel
    cases failed : expand cards { expandNested := true, maxDepth := 0 } cardsInUse with
    | ok r =>
      rw [failed] at fails
      cases fails
    | error failure =>
      obtain ⟨same, -⟩ :=
        expand_append cards { expandNested := true, maxDepth := 0 } cardsInUse [.text "x"]
      exact ⟨failure, rfl, same failure failed⟩
  · have value : (expand cards {} (cardsInUse ++ [.element "note" [] []])).toOption.map
        (fun r => r.2.instances.map (·.tag)) = some ["card", "note", "note", "card", "note"] := by
      decide +kernel
    obtain ⟨⟨out, output⟩, done, tags⟩ := exists_ok value
    obtain ⟨-, begins⟩ := expand_append cards {} cardsInUse [.element "note" [] []]
    obtain ⟨first, more, output₁, earlier, parts, kept⟩ := begins out output done
    exact ⟨out, output, first, more, output₁, done, tags, earlier, parts, kept⟩

end ComponentCompiler.Component
