import ComponentCompiler.Proofs.Identity.Allocation
import Mathlib.Data.Finset.Card
import Mathlib.Data.List.Induction
import Mathlib.Data.Set.Function

namespace ComponentCompiler.Identity

section Serve

variable {σ τ ρ κ α β : Type}

def serve (answer : σ → ρ → α × σ) (s : σ) : List ρ → List α × σ
  | [] => ([], s)
  | r :: rs =>
    let (first, next) := answer s r
    let (others, last) := serve answer next rs
    (first :: others, last)

theorem serve_cons (answer : σ → ρ → α × σ) (s : σ) (r : ρ) (rs : List ρ) :
    serve answer s (r :: rs) = ((answer s r).1 :: (serve answer (answer s r).2 rs).1,
      (serve answer (answer s r).2 rs).2) :=
  rfl

theorem serve_concat (answer : σ → ρ → α × σ) (s : σ) (rs : List ρ) (r : ρ) :
    serve answer s (rs ++ [r]) = ((serve answer s rs).1 ++ [(answer (serve answer s rs).2 r).1],
      (answer (serve answer s rs).2 r).2) := by
  induction rs generalizing s with
  | nil => rfl
  | cons first rs ih => rw [List.cons_append, serve_cons, serve_cons, ih, List.cons_append]

/-- Some of the requests go to a part of the state that the others leave alone; they are answered as
if they were the only ones. -/
theorem serve_part (answer : σ → ρ → α × σ) (answerPart : τ → κ → β × τ) (part : σ → τ)
    (mine : ρ → Bool) (key : ρ → κ) (view : α → β)
    (steps : ∀ s r, mine r = true →
      answerPart (part s) (key r) = (view (answer s r).1, part (answer s r).2))
    (stays : ∀ s r, mine r = false → part (answer s r).2 = part s) (s : σ) (rs : List ρ) :
    serve answerPart (part s) ((rs.filter mine).map key) =
      (((rs.zip (serve answer s rs).1).filter fun entry => mine entry.1).map fun entry =>
        view entry.2, part (serve answer s rs).2) := by
  induction rs generalizing s with
  | nil => rfl
  | cons r rs ih =>
    have later := ih (answer s r).2
    rw [serve_cons, List.zip_cons_cons]
    cases isMine : mine r with
    | true =>
      rw [List.filter_cons_of_pos isMine, List.map_cons, serve_cons, steps s r isMine, later]
      simp [isMine]
    | false =>
      rw [stays s r isMine] at later
      rw [List.filter_cons_of_neg (by simp [isMine]), later]
      simp [isMine]

end Serve

/-- Answers that give each key an identifier of its own, which is new with the first request. -/
def onePerKey (idOf : String → String) (keys : List String) : List Issued :=
  keys.mapIdx fun i key => ⟨idOf key, decide (key ∉ keys.take i)⟩

theorem onePerKey_concat {idOf known : String → String} {keys : List String}
    (kept : ∀ key ∈ keys, idOf key = known key) (key : String) :
    onePerKey idOf (keys ++ [key]) = onePerKey known keys ++ [⟨idOf key, decide (key ∉ keys)⟩] := by
  have earlier : onePerKey known keys =
      keys.mapIdx fun i k => ⟨idOf k, decide (k ∉ (keys ++ [key]).take i)⟩ := by
    refine List.ext_getElem (by simp [onePerKey]) fun i within _ => ?_
    have bound : i < keys.length := by simpa [onePerKey] using within
    have before : (keys ++ [key]).take i = keys.take i :=
      List.take_append_of_le_length (Nat.le_of_lt bound)
    simp only [onePerKey, List.getElem_mapIdx, before, kept _ (List.getElem_mem bound)]
  rw [earlier, onePerKey, List.mapIdx_concat, List.take_left]

theorem RuntimeIds.serve_eq (keys : List String) :
    (serve allocate {} keys).1 = onePerKey (fun key => label (keys.eraseDups.idxOf key)) keys ∧
      (serve allocate {} keys).2.Holds keys.eraseDups := by
  induction keys using List.reverseRecOn with
  | nil => exact ⟨rfl, holds_nil⟩
  | append_singleton keys key ih =>
    obtain ⟨answers, holds⟩ := ih
    obtain ⟨answer, next⟩ := holds.allocate key
    have kept : ∀ known ∈ keys, label ((keys ++ [key]).eraseDups.idxOf known) =
        label (keys.eraseDups.idxOf known) := by
      intro known member
      rw [eraseDups_concat, idxOf_enter (List.mem_eraseDups.2 member)]
    rw [serve_concat, onePerKey_concat kept, answers, answer, eraseDups_concat]
    exact ⟨by simp, next⟩

structure ScopeClasses.Gives (a : ScopeClasses) (classOf : String → String) (keys : List String) :
    Prop where
  lookup : ∀ key, a.assigned.lookup key = if key ∈ keys then some (classOf key) else none
  injective : Set.InjOn classOf {key | key ∈ keys}

theorem ScopeClasses.Gives.mem {a : ScopeClasses} {classOf : String → String} {keys : List String}
    (gives : a.Gives classOf keys) {key : String} (known : key ∈ keys) :
    classOf key ∈ a.assigned.map (·.2) := by
  have found := gives.lookup key
  rw [if_pos known] at found
  obtain ⟨before, after, parts, -⟩ := List.lookup_eq_some_iff.1 found
  simp [parts]

theorem update_of_mem {classOf : String → String} {keys : List String} {key id known : String}
    (unknown : key ∉ keys) (member : known ∈ keys) :
    Function.update classOf key id known = classOf known := by
  have differs : known ≠ key := by
    rintro rfl
    exact unknown member
  exact Function.update_of_ne differs id classOf

theorem ScopeClasses.Gives.insert {a : ScopeClasses} {classOf : String → String}
    {keys : List String} (gives : a.Gives classOf keys) {key id : String} (unknown : key ∉ keys)
    (new : id ∉ a.assigned.map (·.2)) :
    Gives ⟨(key, id) :: a.assigned⟩ (Function.update classOf key id) (keys ++ [key]) where
  lookup other := by
    by_cases same : other = key
    · subst same
      simp
    · have different : (other == key) = false := by simpa using same
      simp [List.lookup_cons, different, gives.lookup other, same]
  injective := by
    have whole : {known | known ∈ keys ++ [key]} = Insert.insert key {known | known ∈ keys} := by
      ext known
      simp [or_comm]
    have unlisted : key ∉ {known | known ∈ keys} := unknown
    rw [whole, Set.injOn_insert unlisted]
    refine ⟨?_, ?_⟩
    · exact gives.injective.congr fun known member => (update_of_mem unknown member).symm
    · rintro ⟨known, member, same⟩
      rw [Function.update_self, update_of_mem unknown member] at same
      exact new (same ▸ gives.mem member)

theorem ScopeClasses.Gives.allocate {a : ScopeClasses} {classOf : String → String}
    {keys : List String} (gives : a.Gives classOf keys) (hash : Hash) (key : String) :
    ∃ classOf', (∀ known ∈ keys, classOf' known = classOf known) ∧
      (a.allocate hash key).1 = ⟨classOf' key, decide (key ∉ keys)⟩ ∧
      (a.allocate hash key).2.Gives classOf' (keys ++ [key]) := by
  have found := gives.lookup key
  by_cases known : key ∈ keys
  · have same : ∀ other, other ∈ keys ++ [key] ↔ other ∈ keys := by
      intro other
      rw [List.mem_append, List.mem_singleton, or_iff_left_of_imp (fun same => same ▸ known)]
    rw [if_pos known] at found
    rw [ScopeClasses.allocate, found]
    refine ⟨classOf, fun _ _ => rfl, by simp [known], fun other => ?_, ?_⟩
    · rw [gives.lookup other]
      simp only [same]
    · simpa only [same] using gives.injective
  · rw [if_neg known] at found
    rw [ScopeClasses.allocate, found]
    refine ⟨Function.update classOf key _, fun _ => update_of_mem known, ?_,
      gives.insert known (firstFresh_not_mem _ _ _ _)⟩
    simp [known]

theorem ScopeClasses.serve_eq (hash : Hash) (keys : List String) :
    ∃ classOf, (serve (allocate hash) {} keys).1 = onePerKey classOf keys ∧
      (serve (allocate hash) {} keys).2.Gives classOf keys := by
  induction keys using List.reverseRecOn with
  | nil => exact ⟨id, rfl, fun _ => rfl, by simp⟩
  | append_singleton keys key ih =>
    obtain ⟨known, answers, gives⟩ := ih
    obtain ⟨classOf, kept, answer, next⟩ := gives.allocate hash key
    rw [serve_concat]
    exact ⟨classOf, by rw [onePerKey_concat kept, answers, answer], next⟩

-- The digests of a key and of its first salted seed are those of two other keys.
example : ((serve (ScopeClasses.allocate fun seed _ => if seed = "b" then "a" else seed) {}
    ["a", "b#1", "b", "a"]).1.map fun issued => (issued.id, issued.fresh)) =
      [("sc-a", true), ("sc-b#1", true), ("sc-b#2", true), ("sc-a", false)] := by
  decide +kernel

theorem BindingIds.serve_eq (hash : Hash) (keys : List String) :
    (serve (allocate hash) {} keys).2.issued = (serve (allocate hash) {} keys).1.reverse ∧
      (serve (allocate hash) {} keys).1.Nodup ∧
      (serve (allocate hash) {} keys).1.length = keys.length := by
  induction keys using List.reverseRecOn with
  | nil => exact ⟨rfl, List.nodup_nil, rfl⟩
  | append_singleton keys key ih =>
    obtain ⟨issued, distinct, length⟩ := ih
    have new := allocate_not_mem hash (serve (allocate hash) {} keys).2 key
    rw [serve_concat]
    refine ⟨?_, ?_, by simp [length]⟩
    · rw [allocate_issued, issued, List.reverse_append, List.reverse_singleton,
        List.singleton_append]
    · rw [issued, List.mem_reverse] at new
      exact List.nodup_append.2 ⟨distinct, List.nodup_singleton _, fun id member other isNew => by
        rw [List.mem_singleton.1 isNew]
        rintro rfl
        exact new member⟩

inductive Kind
  | script
  | style
  | usage
deriving DecidableEq

structure Request where
  kind : Kind
  key : String

structure Allocators where
  scripts : RuntimeIds := {}
  styles : ScopeClasses := {}
  usages : BindingIds := {}

def Allocators.answer (hash : Hash) (a : Allocators) (r : Request) : Issued × Allocators :=
  match r.kind with
  | .script =>
    let (issued, scripts) := a.scripts.allocate r.key
    (issued, { a with scripts })
  | .style =>
    let (issued, styles) := a.styles.allocate hash r.key
    (issued, { a with styles })
  | .usage =>
    let (id, usages) := a.usages.allocate hash r.key
    (⟨id, true⟩, { a with usages })

def keysOf (kind : Kind) (requests : List Request) : List String :=
  (requests.filter fun r => r.kind = kind).map (·.key)

def answersOf (kind : Kind) (requests : List Request) (answers : List Issued) : List Issued :=
  ((requests.zip answers).filter fun entry => entry.1.kind = kind).map (·.2)

section Build

variable (hash : Hash) (requests : List Request)

theorem serve_scripts :
    serve RuntimeIds.allocate {} (keysOf .script requests) =
      (answersOf .script requests (serve (Allocators.answer hash) {} requests).1,
        (serve (Allocators.answer hash) {} requests).2.scripts) := by
  refine serve_part (Allocators.answer hash) RuntimeIds.allocate Allocators.scripts
    (fun r => r.kind = .script) Request.key id ?_ ?_ {} requests
  · rintro s ⟨kind, key⟩ mine
    obtain rfl : kind = .script := by simpa using mine
    rfl
  · rintro s ⟨kind, key⟩ other
    cases kind with
    | script => cases other
    | style => rfl
    | usage => rfl

theorem serve_styles :
    serve (ScopeClasses.allocate hash) {} (keysOf .style requests) =
      (answersOf .style requests (serve (Allocators.answer hash) {} requests).1,
        (serve (Allocators.answer hash) {} requests).2.styles) := by
  refine serve_part (Allocators.answer hash) (ScopeClasses.allocate hash) Allocators.styles
    (fun r => r.kind = .style) Request.key id ?_ ?_ {} requests
  · rintro s ⟨kind, key⟩ mine
    obtain rfl : kind = .style := by simpa using mine
    rfl
  · rintro s ⟨kind, key⟩ other
    cases kind with
    | script => rfl
    | style => cases other
    | usage => rfl

theorem serve_usages :
    serve (BindingIds.allocate hash) {} (keysOf .usage requests) =
      ((answersOf .usage requests (serve (Allocators.answer hash) {} requests).1).map Issued.id,
        (serve (Allocators.answer hash) {} requests).2.usages) := by
  have served := serve_part (Allocators.answer hash) (BindingIds.allocate hash) Allocators.usages
    (fun r => r.kind = .usage) Request.key Issued.id ?_ ?_ {} requests
  · rw [keysOf, answersOf, List.map_map]
    exact served
  · rintro s ⟨kind, key⟩ mine
    obtain rfl : kind = .usage := by simpa using mine
    rfl
  · rintro s ⟨kind, key⟩ other
    cases kind with
    | script => rfl
    | style => rfl
    | usage => cases other

/-- Whatever the digests are, and in whatever order the three allocators are asked: labels are given
in the order of first requests, every key keeps a class that no other key has, and the bindings are
all different and as many as the requests for one. -/
theorem serve_issues :
    answersOf .script requests (serve (Allocators.answer hash) {} requests).1 =
        onePerKey (fun key => label ((keysOf .script requests).eraseDups.idxOf key))
          (keysOf .script requests) ∧
      (∃ classOf : String → String, Set.InjOn classOf {key | key ∈ keysOf .style requests} ∧
        answersOf .style requests (serve (Allocators.answer hash) {} requests).1 =
          onePerKey classOf (keysOf .style requests)) ∧
      ((answersOf .usage requests (serve (Allocators.answer hash) {} requests).1).map (·.id)).Nodup ∧
      (serve (Allocators.answer hash) {} requests).2.usages.issued.toFinset.card =
        (keysOf .usage requests).length := by
  have scripts := (RuntimeIds.serve_eq (keysOf .script requests)).1
  obtain ⟨classOf, styles, gives⟩ := ScopeClasses.serve_eq hash (keysOf .style requests)
  obtain ⟨issued, distinct, length⟩ := BindingIds.serve_eq hash (keysOf .usage requests)
  rw [serve_scripts hash requests] at scripts
  rw [serve_styles hash requests] at styles
  rw [serve_usages hash requests] at issued distinct length
  refine ⟨scripts, ⟨classOf, gives.injective, styles⟩, distinct, ?_⟩
  rw [issued, List.toFinset_reverse, List.toFinset_card_of_nodup distinct, length]

end Build

end ComponentCompiler.Identity
