import ComponentCompiler.Proofs.Component.Steps

namespace ComponentCompiler.Component

open Markup (Attribute Node)

variable {c : Setting} {nodes out : List Node}

theorem Setting.stops_done (c : Setting) (out : List Node) (p : Progress) :
    c.Stops ⟨.done out, [], p⟩ :=
  .inl rfl

theorem Setting.stops_of_site {s : Stage} {tag : String} {depth : Nat}
    (here : c.site? s = some (tag, depth)) (deep : ¬c.Admits depth) : c.Stops s :=
  .inr ⟨tag, depth, here, deep⟩

theorem not_admits {depth : Nat} : ¬c.Admits depth ↔
    c.options.expandNested = true ∧ c.options.maxDepth ≤ depth := by
  simp [Setting.Admits]

theorem Setting.Path.not_done {s deep : Stage} {tag : String} {depth : Nat} {p : Progress}
    (path : c.Path s deep) (here : c.site? deep = some (tag, depth)) (exceeds : ¬c.Admits depth)
    (done : c.Path s ⟨.done out, [], p⟩) : False := by
  obtain rfl := path.unique done (Setting.stops_of_site here exceeds) (c.stops_done out p)
  cases here

theorem expand_ok_iff_path {output : Output} :
    expand c.registry c.options nodes = .ok (out, output) ↔
      ∃ p, c.Path (.start nodes) ⟨.done out, [], p⟩ ∧ p.output = output := by
  have ends := ends_expand c nodes
  rw [expand]
  cases walked : walk c (onBodies c) nodes {} with
  | ok result =>
    rw [walked] at ends
    constructor
    · intro done
      obtain ⟨rfl, rfl⟩ := Prod.mk.inj (Except.ok.inj done)
      exact ⟨result.2, ends, rfl⟩
    · rintro ⟨p, path, rfl⟩
      have same := path.unique ends (c.stops_done _ _) (c.stops_done _ _)
      obtain ⟨⟨⟩, -, rfl⟩ := Stage.mk.inj same
      rfl
  | error failure =>
    rw [walked] at ends
    obtain ⟨deep, tag, depth, path, here, exceeds, -⟩ := ends
    constructor
    · intro done
      cases done
    · rintro ⟨p, done, -⟩
      exact (path.not_done here exceeds done).elim

theorem expand_error_iff_path {tag : String} {limit : Nat} :
    (∃ failure, expand c.registry c.options nodes = .error failure ∧
        failure.error = .expansionDepth tag limit) ↔
      limit = c.options.maxDepth ∧ ∃ s depth, c.Path (.start nodes) s ∧
        c.site? s = some (tag, depth) ∧ ¬c.Admits depth := by
  have ends := ends_expand c nodes
  rw [expand]
  cases walked : walk c (onBodies c) nodes {} with
  | ok result =>
    rw [walked] at ends
    constructor
    · rintro ⟨failure, failed, -⟩
      cases failed
    · rintro ⟨-, s, depth, path, here, exceeds⟩
      exact (path.not_done here exceeds ends).elim
  | error failure =>
    rw [walked] at ends
    obtain ⟨deep, first, depth, path, here, exceeds, reason⟩ := ends
    constructor
    · rintro ⟨_, ⟨⟩, same⟩
      obtain ⟨rfl, rfl⟩ := CompileError.expansionDepth.inj (reason.symm.trans same)
      exact ⟨rfl, deep, depth, path, here, exceeds⟩
    · rintro ⟨rfl, s, other, path', here', exceeds'⟩
      obtain rfl := path.unique path' (Setting.stops_of_site here exceeds)
        (Setting.stops_of_site here' exceeds')
      obtain ⟨rfl, -⟩ := Prod.mk.inj (Option.some.inj (here.symm.trans here'))
      exact ⟨failure, rfl, reason⟩

theorem exceeds_of_error {failure : Failure}
    (failed : expand c.registry c.options nodes = .error failure) :
    c.Exceeds (.start nodes) failure := by
  have ends := ends_expand c nodes
  rw [expand] at failed
  cases walked : walk c (onBodies c) nodes {} with
  | ok result =>
    rw [walked] at failed
    cases failed
  | error earlier =>
    rw [walked] at failed ends
    obtain rfl := Except.error.inj failed
    exact ends

abbrev Setting.Reaches (c : Setting) : Stage → Stage → Prop :=
  Relation.ReflTransGen fun s s' => c.step s = some s'

theorem Setting.Path.reaches {s s' : Stage} (path : c.Path s s') : c.Reaches s s' :=
  Relation.ReflTransGen.mono (fun _ _ => And.right) s s' path

theorem Setting.Reaches.first {s s' : Stage} {tag : String} {depth : Nat}
    (reaches : c.Reaches s s') (here : c.site? s' = some (tag, depth)) (deep : ¬c.Admits depth) :
    ∃ first tag depth, c.Path s first ∧ c.site? first = some (tag, depth) ∧ ¬c.Admits depth := by
  induction reaches using Relation.ReflTransGen.head_induction_on with
  | refl => exact ⟨s', tag, depth, .refl, here, deep⟩
  | @head s next step _ ih =>
    by_cases admitted : ∀ tag depth, c.site? s = some (tag, depth) → c.Admits depth
    · obtain ⟨first, tag, depth, path, site⟩ := ih
      exact ⟨first, tag, depth, .head ⟨admitted, step⟩ path, site⟩
    · simp only [Classical.not_forall] at admitted
      obtain ⟨tag, depth, site, exceeds⟩ := admitted
      exact ⟨s, tag, depth, .refl, site, exceeds⟩

theorem exists_failure_iff_reaches :
    (∃ failure, expand c.registry c.options nodes = .error failure) ↔
      ∃ s tag depth, c.Reaches (.start nodes) s ∧ c.site? s = some (tag, depth) ∧
        ¬c.Admits depth := by
  constructor
  · rintro ⟨failure, failed⟩
    obtain ⟨s, tag, depth, path, here, exceeds, -⟩ := exceeds_of_error failed
    exact ⟨s, tag, depth, path.reaches, here, exceeds⟩
  · rintro ⟨s, tag, depth, reaches, here, exceeds⟩
    obtain ⟨first, tag, depth, path, site, deep⟩ := reaches.first here exceeds
    obtain ⟨failure, failed, -⟩ := expand_error_iff_path.2 ⟨rfl, first, depth, path, site, deep⟩
    exact ⟨failure, failed⟩

/-- Every pass ends. It succeeds when bodies are left as they are; otherwise it fails exactly when
its walk comes to a usage site that lies in as many bodies as the limit says or more, and the
failure names the first of these. -/
theorem expand_depth_limit (c : Setting) (nodes : List Node) :
    (∃ s, c.Path (.start nodes) s ∧ c.Stops s) ∧
    (c.options.expandNested = false →
      ∃ out output, expand c.registry c.options nodes = .ok (out, output)) ∧
    (c.options.expandNested = true →
      ((∃ failure, expand c.registry c.options nodes = .error failure) ↔
        ∃ s tag depth, c.Reaches (.start nodes) s ∧ c.site? s = some (tag, depth) ∧
          c.options.maxDepth ≤ depth)) ∧
    ∀ failure, expand c.registry c.options nodes = .error failure →
      ∃ s tag depth, c.Path (.start nodes) s ∧ c.site? s = some (tag, depth) ∧
        c.options.maxDepth ≤ depth ∧
        failure.error = .expansionDepth tag c.options.maxDepth := by
  refine ⟨?_, fun flat => ?_, fun nested => ?_, fun failure failed => ?_⟩
  · cases result : expand c.registry c.options nodes with
    | ok r =>
      obtain ⟨p, path, -⟩ := expand_ok_iff_path.1 result
      exact ⟨_, path, c.stops_done _ p⟩
    | error failure =>
      obtain ⟨s, tag, depth, path, here, exceeds, -⟩ := exceeds_of_error result
      exact ⟨s, path, Setting.stops_of_site here exceeds⟩
  · cases result : expand c.registry c.options nodes with
    | ok r => exact ⟨r.1, r.2, rfl⟩
    | error failure =>
      obtain ⟨_, _, _, _, _, exceeds, _⟩ := exceeds_of_error result
      cases flat.symm.trans (not_admits.1 exceeds).1
  · rw [exists_failure_iff_reaches]
    simp only [not_admits, nested, true_and]
  · obtain ⟨s, tag, depth, path, here, exceeds, reason⟩ := exceeds_of_error failed
    exact ⟨s, tag, depth, path, here, (not_admits.1 exceeds).2, reason⟩

theorem step_limit (registry : Registry) (options : Options) (m m' : Nat) :
    Setting.step ⟨registry, { options with maxDepth := m }⟩ =
      Setting.step ⟨registry, { options with maxDepth := m' }⟩ :=
  rfl

theorem path_raise {registry : Registry} {options : Options} {m m' : Nat} (raised : m ≤ m')
    {s s' : Stage} (path : Setting.Path ⟨registry, { options with maxDepth := m }⟩ s s') :
    Setting.Path ⟨registry, { options with maxDepth := m' }⟩ s s' := by
  refine Relation.ReflTransGen.mono (fun a b advances => ?_) s s' path
  obtain ⟨admits, next⟩ := advances
  refine ⟨fun tag depth here nested => ?_, ?_⟩
  · have below : depth < m := admits tag depth here nested
    exact Nat.lt_of_lt_of_le below raised
  · rw [step_limit registry options m' m]
    exact next

/-- The limit is only a bound: what succeeds under it gives the same forest and the same output
under every higher one, so what fails under a higher one fails under it. -/
theorem expand_raise {registry : Registry} {options : Options} {nodes : List Node} {m m' : Nat}
    (raised : m ≤ m') :
    (∀ result, expand registry { options with maxDepth := m } nodes = .ok result →
      expand registry { options with maxDepth := m' } nodes = .ok result) ∧
    ∀ failure, expand registry { options with maxDepth := m' } nodes = .error failure →
      ∃ earlier, expand registry { options with maxDepth := m } nodes = .error earlier := by
  have lifts : ∀ result, expand registry { options with maxDepth := m } nodes = .ok result →
      expand registry { options with maxDepth := m' } nodes = .ok result := by
    rintro ⟨out, output⟩ done
    obtain ⟨p, path, same⟩ :=
      (expand_ok_iff_path (c := ⟨registry, { options with maxDepth := m }⟩)).1 done
    exact (expand_ok_iff_path (c := ⟨registry, { options with maxDepth := m' }⟩)).2
      ⟨p, path_raise raised path, same⟩
  refine ⟨lifts, fun failure failed => ?_⟩
  cases result : expand registry { options with maxDepth := m } nodes with
  | ok r => cases (lifts r result).symm.trans failed
  | error earlier => exact ⟨earlier, rfl⟩

def layers : Registry :=
  .ofList "js" [
    ⟨"outer", "<inner><slot></slot></inner>", none, none, none⟩,
    ⟨"inner", "<p><slot></slot></p>", none, none, none⟩]

def layersInUse : List Node :=
  [.element "outer" [] [.element "outer" [] [.text "x"]]]

theorem expand_raise_layers : ∃ result, (2 : Nat) ≤ 16 ∧
    expand layers { expandNested := true, maxDepth := 2 } layersInUse = .ok result ∧
    Markup.render result.1 = "<p><p>x</p></p>" ∧
    expand layers { expandNested := true, maxDepth := 16 } layersInUse = .ok result := by
  have value : (expand layers { expandNested := true, maxDepth := 2 } layersInUse).toOption.map
      (fun r => Markup.render r.1) = some "<p><p>x</p></p>" := by
    decide +kernel
  obtain ⟨result, done, rendered⟩ := exists_ok value
  have raised : (2 : Nat) ≤ 16 := by decide
  obtain ⟨lifts, -⟩ := @expand_raise layers { expandNested := true } layersInUse 2 16 raised
  exact ⟨result, raised, done, rendered, lifts result done⟩

end ComponentCompiler.Component
