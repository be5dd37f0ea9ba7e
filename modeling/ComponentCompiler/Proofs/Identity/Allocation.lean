import ComponentCompiler.Identity.Allocator
import ComponentCompiler.Proofs.Identity.Labels
import ComponentCompiler.Proofs.Text.Words

namespace ComponentCompiler.Identity

theorem le_foldl_length (issued : List String) (start : Nat) :
    start ≤ issued.foldl (fun n s => n + s.length) start := by
  induction issued generalizing start with
  | nil => exact Nat.le_refl start
  | cons s rest ih => exact Nat.le_trans (Nat.le_add_right ..) (ih _)

theorem length_lt_foldl {issued : List String} {name : String} (member : name ∈ issued)
    (start : Nat) : name.length + start ≤ issued.foldl (fun n s => n + s.length) start := by
  induction issued generalizing start with
  | nil => cases member
  | cons s rest ih =>
    rcases List.mem_cons.1 member with rfl | later
    · have := le_foldl_length rest (start + name.length)
      simp only [List.foldl_cons]
      omega
    · have := ih later (start + s.length)
      simp only [List.foldl_cons]
      omega

theorem longer_not_mem (base : String) (issued : List String) : longer base issued ∉ issued := by
  intro member
  have bound := length_lt_foldl member 1
  have size : (longer base issued).length =
      base.length + issued.foldl (fun n s => n + s.length) 1 := by
    simp [longer]
  omega

theorem firstFresh_not_mem (candidate : Nat → String) (issued : List String) (tries n : Nat) :
    (firstFresh candidate issued tries n).1 ∉ issued := by
  induction tries generalizing n with
  | zero => exact longer_not_mem _ _
  | succ tries ih =>
    by_cases taken : candidate n ∈ issued
    · rw [firstFresh, if_pos taken]
      exact ih (n + 1)
    · rw [firstFresh, if_neg taken]
      exact taken

def enter (keys : List String) (key : String) : List String :=
  if key ∈ keys then keys else keys ++ [key]

theorem eraseDups_concat (keys : List String) (key : String) :
    (keys ++ [key]).eraseDups = enter keys.eraseDups key := by
  rw [List.eraseDups_append]
  by_cases known : key ∈ keys
  · simp [enter, List.removeAll, known]
  · simp [enter, List.removeAll, known, List.eraseDups_cons]

theorem nodup_eraseDups (keys : List String) : keys.eraseDups.Nodup := by
  induction keys using List.reverseRecOn with
  | nil => simp
  | append_singleton keys key ih =>
    rw [eraseDups_concat, enter]
    split
    · exact ih
    · next new =>
      refine List.nodup_append.2 ⟨ih, by simp, fun other old added this same => new ?_⟩
      rwa [← List.mem_singleton.1 this, ← same]

theorem idxOf_enter {keys : List String} {key other : String} (known : other ∈ keys) :
    (enter keys key).idxOf other = keys.idxOf other := by
  by_cases member : key ∈ keys
  · rw [enter, if_pos member]
  · rw [enter, if_neg member, List.idxOf_append_of_mem known]

structure RuntimeIds.Holds (a : RuntimeIds) (keys : List String) : Prop where
  length : a.assigned.length = keys.length
  lookup : ∀ key, a.assigned.lookup key =
    if key ∈ keys then some (label (keys.idxOf key)) else none

theorem RuntimeIds.holds_nil : RuntimeIds.Holds {} [] :=
  ⟨rfl, fun _ => rfl⟩

theorem RuntimeIds.Holds.allocate {a : RuntimeIds} {keys : List String} (holds : a.Holds keys)
    (key : String) :
    (a.allocate key).1 = ⟨label ((enter keys key).idxOf key), decide (key ∉ keys)⟩ ∧
      (a.allocate key).2.Holds (enter keys key) := by
  have found := holds.lookup key
  by_cases known : key ∈ keys
  · rw [if_pos known] at found
    rw [RuntimeIds.allocate, found, idxOf_enter known, enter, if_pos known]
    exact ⟨by simp [known], holds⟩
  · rw [if_neg known] at found
    have position : (keys ++ [key]).idxOf key = keys.length := by
      rw [List.idxOf_append, if_neg known, List.idxOf_cons_self, Nat.zero_add]
    rw [RuntimeIds.allocate, found, enter, if_neg known, position, ← holds.length]
    refine ⟨by simp [known], by simp [holds.length], fun other => ?_⟩
    by_cases same : other = key
    · subst same
      simp [position, holds.length]
    · have different : (other == key) = false := by simpa using same
      simp only [List.lookup_cons, different, holds.lookup other, List.mem_append,
        List.mem_singleton, same, or_false]
      split
      · rw [List.idxOf_append_of_mem ‹_›]
      · rfl

def ScopeClasses.Holds (a : ScopeClasses) (keys : List String) : Prop :=
  ∀ key, (a.assigned.lookup key).isSome = true ↔ key ∈ keys

theorem ScopeClasses.Holds.allocate {a : ScopeClasses} {keys : List String} (holds : a.Holds keys)
    (hash : Hash) (key : String) :
    (a.allocate hash key).1.fresh = decide (key ∉ keys) ∧
      (a.allocate hash key).2.Holds (enter keys key) := by
  cases found : a.assigned.lookup key with
  | some id =>
    have known : key ∈ keys := (holds key).1 (by rw [found]; rfl)
    rw [ScopeClasses.allocate, found, enter, if_pos known]
    exact ⟨by simp [known], holds⟩
  | none =>
    have unknown : key ∉ keys := fun known => by simpa [found] using (holds key).2 known
    rw [ScopeClasses.allocate, found, enter, if_neg unknown]
    refine ⟨by simp [unknown], fun other => ?_⟩
    by_cases same : other = key
    · subst same
      simp
    · have different : (other == key) = false := by simpa using same
      simp only [List.lookup_cons, different, holds other, List.mem_append, List.mem_singleton,
        same, or_false]

theorem exists_digitChar_of_mem_shortHash {s : String} {length : Nat} {c : Char}
    (member : c ∈ (Digest.shortHash s length).toList) : ∃ n < 16, c = Nat.digitChar n := by
  rw [Digest.shortHash, String.toList_ofList] at member
  have digit := List.mem_of_mem_take member
  rw [Digest.sha256] at digit
  obtain ⟨w, -, inWord⟩ := List.mem_flatMap.1 digit
  obtain ⟨byte, -, inByte⟩ := List.mem_flatMap.1 inWord
  have small := byte.toNat_lt
  simp only [List.mem_cons, List.not_mem_nil, or_false] at inByte
  rcases inByte with rfl | rfl
  · exact ⟨_, by omega, rfl⟩
  · exact ⟨_, by omega, rfl⟩

theorem unblank_shortHash (s : String) (length : Nat) :
    ∀ c ∈ (Digest.shortHash s length).toList, Text.isBlank c = false := by
  intro c member
  obtain ⟨n, digit, rfl⟩ := exists_digitChar_of_mem_shortHash member
  have unblank : ∀ n < 16, Text.isBlank (Nat.digitChar n) = false := by decide
  exact unblank n digit

theorem longer_isToken {base : String} (isToken : Text.IsToken base) (issued : List String) :
    Text.IsToken (longer base issued) where
  nonempty := by simp [longer, isToken.nonempty]
  unblank := by
    intro c member
    rw [longer, String.toList_ofList, List.mem_append] at member
    rcases member with old | new
    · exact isToken.unblank c old
    · rw [List.eq_of_mem_replicate new]
      decide

theorem firstFresh_holds {P : String → Prop} {candidate : Nat → String} {issued : List String}
    (holds : ∀ n, P (candidate n)) (lengthened : ∀ n, P (longer (candidate n) issued))
    (tries n : Nat) : P (firstFresh candidate issued tries n).1 := by
  induction tries generalizing n with
  | zero => exact lengthened n
  | succ tries ih =>
    rw [firstFresh]
    split
    · exact ih (n + 1)
    · exact holds n

def ScopeClasses.Tokens (a : ScopeClasses) : Prop :=
  ∀ entry ∈ a.assigned, Text.IsToken entry.2

theorem ScopeClasses.allocate_isToken {a : ScopeClasses} (tokens : a.Tokens) (key : String) :
    Text.IsToken (a.allocate Digest.shortHash key).1.id ∧
      (a.allocate Digest.shortHash key).2.Tokens := by
  cases found : a.assigned.lookup key with
  | some id =>
    rw [ScopeClasses.allocate, found]
    obtain ⟨before, after, parts, -⟩ := List.lookup_eq_some_iff.1 found
    exact ⟨tokens (key, id) (by simp [parts]), tokens⟩
  | none =>
    rw [ScopeClasses.allocate, found]
    have isToken : Text.IsToken (firstFresh (fun salt => "sc-" ++ Digest.shortHash
        (saltedSeed key salt) 8) (a.assigned.map (·.2)) seedLimit 0).1 := by
      have candidates (salt : Nat) :
          Text.IsToken ("sc-" ++ Digest.shortHash (saltedSeed key salt) 8) := by
        refine ⟨by simp, ?_⟩
        intro c member
        rw [String.toList_append, List.mem_append] at member
        rcases member with fixed | digit
        · have letters : "sc-".toList = ['s', 'c', '-'] := rfl
          simp only [letters, List.mem_cons, List.not_mem_nil, or_false] at fixed
          rcases fixed with rfl | rfl | rfl <;> decide
        · exact unblank_shortHash _ _ c digit
      apply firstFresh_holds (P := Text.IsToken) candidates
      exact fun salt => longer_isToken (candidates salt) _
    refine ⟨isToken, ?_⟩
    intro entry member
    rcases List.mem_cons.1 member with rfl | old
    · exact isToken
    · exact tokens entry old

theorem BindingIds.allocate_issued (hash : Hash) (a : BindingIds) (key : String) :
    (a.allocate hash key).2.issued = (a.allocate hash key).1 :: a.issued :=
  rfl

theorem BindingIds.allocate_not_mem (hash : Hash) (a : BindingIds) (key : String) :
    (a.allocate hash key).1 ∉ a.issued := by
  rw [allocate]
  exact firstFresh_not_mem _ _ _ _

def IsBinding (s : String) : Prop :=
  ∃ tail, s = "chid-" ++ tail ∧ ∀ c ∈ tail.toList, Text.isAsciiDigit c = true ∨ IsLetter c

theorem IsBinding.longer {s : String} (isBinding : IsBinding s) (issued : List String) :
    IsBinding (longer s issued) := by
  obtain ⟨tail, rfl, chars⟩ := isBinding
  refine ⟨Identity.longer tail issued, ?_, fun c member => ?_⟩
  · rw [← String.toList_inj]
    simp [Identity.longer]
  · rw [Identity.longer, String.toList_ofList, List.mem_append] at member
    rcases member with old | new
    · exact chars c old
    · rw [List.eq_of_mem_replicate new]
      decide

theorem isBinding_shortHash (s : String) (length : Nat) :
    IsBinding ("chid-" ++ Digest.shortHash s length) := by
  refine ⟨_, rfl, fun c member => ?_⟩
  obtain ⟨n, digit, rfl⟩ := exists_digitChar_of_mem_shortHash member
  have digits : ∀ n < 16,
      Text.isAsciiDigit (Nat.digitChar n) = true ∨ IsLetter (Nat.digitChar n) := by decide
  exact digits n digit

theorem BindingIds.allocate_isBinding (a : BindingIds) (key : String) :
    IsBinding (a.allocate Digest.shortHash key).1 := by
  rw [allocate]
  exact firstFresh_holds (fun _ => isBinding_shortHash _ 10)
    (fun _ => (isBinding_shortHash _ 10).longer a.issued) seedLimit a.counter

theorem IsBinding.quote_not_mem {s : String} (isBinding : IsBinding s) : '"' ∉ s.toList := by
  obtain ⟨tail, rfl, chars⟩ := isBinding
  rw [String.toList_append, List.mem_append]
  rintro (fixed | member)
  · exact absurd fixed (by decide)
  · exact absurd (chars '"' member) (by decide)

end ComponentCompiler.Identity
