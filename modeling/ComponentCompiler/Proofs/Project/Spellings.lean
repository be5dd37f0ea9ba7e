import ComponentCompiler.Proofs.Project.Discovery
import Mathlib.Data.List.Perm.Subperm

namespace ComponentCompiler.Project

open Component (Definition Registry normalizeKey)
open Files (Place Tree)

theorem length_eq_iff_nodup {α : Type} {xs ys : List α} (once : xs.Nodup)
    (same : ∀ x, x ∈ xs ↔ x ∈ ys) : xs.length = ys.length ↔ ys.Nodup := by
  constructor
  · intro long
    have perm := (once.subperm fun x => (same x).1).perm_of_length_le long.ge
    exact perm.nodup_iff.1 once
  · intro once'
    exact ((List.perm_ext_iff_of_nodup once once').2 same).length_eq

def Library.Knows (l : Library) (name : String) : Prop :=
  ∃ d, l.registry.forTag? name = some d ∧ d.name = name

/-- The components of a folder that have a body differ in their keys. -/
def KeysDiffer (t : Tree) (place : Place) : Prop :=
  ∀ name other, HasBody t place name → HasBody t place other →
    normalizeKey name "js" = normalizeKey other "js" → name = other

variable {t : Tree} {place : Place} {folder name : String} {l : Library} {d : Definition}

theorem StandsFor.hasBody (stands : StandsFor t place d) : HasBody t place d.name :=
  ⟨stands.component, by rw [stands.body]; rfl⟩

namespace Describes

theorem keyOf (describes : Describes t place l) (name : String) :
    l.registry.keyOf name = normalizeKey name "js" := by
  rw [Registry.keyOf, describes.extension]

theorem exists_forTag? (describes : Describes t place l) (body : HasBody t place name) :
    ∃ d, l.registry.forTag? name = some d ∧ StandsFor t place d ∧
      normalizeKey name "js" = normalizeKey d.name "js" := by
  obtain ⟨entry, member, key⟩ := List.mem_map.1 ((describes.mem_keys _).2 ⟨name, body, rfl⟩)
  refine ⟨entry.2, describes.keyed.get?_eq_some_iff.2 (key ▸ member),
    describes.standsFor entry member, ?_⟩
  rw [← describes.keyOf, ← describes.keyOf, ← key, describes.keyed.named entry member]

theorem forall_knows_iff (describes : Describes t place l) :
    (∀ name, HasBody t place name → l.Knows name) ↔ KeysDiffer t place := by
  constructor
  · intro known name other body body' sameKey
    obtain ⟨d, found, rfl⟩ := known name body
    obtain ⟨d', found', rfl⟩ := known other body'
    rw [Registry.forTag?, describes.keyOf] at found found'
    rw [← sameKey, found] at found'
    rw [Option.some.inj found']
  · intro differ name body
    obtain ⟨d, found, stands, sameKey⟩ := describes.exists_forTag? body
    exact ⟨d, found, (differ name d.name body stands.hasBody sameKey).symm⟩

theorem undefinedComponent_mem_iff (describes : Describes t place l) :
    Warning.undefinedComponent name ∈ l.warnings ↔
      HasComponent t place name ∧ fileAt? t place (name ++ ".html") = none := by
  rw [describes.warnings, ← describes.mem_notDefined, List.mem_map]
  constructor
  · rintro ⟨other, member, same⟩
    obtain rfl : other = name := congrArg Warning.tag same
    exact member
  · exact fun member => ⟨name, member, rfl⟩

theorem forall_reported_iff (describes : Describes t place l) :
    (∀ name, HasComponent t place name →
        l.Knows name ∨ Warning.undefinedComponent name ∈ l.warnings) ↔ KeysDiffer t place := by
  simp only [← describes.forall_knows_iff, describes.undefinedComponent_mem_iff]
  constructor
  · intro kept name body
    refine (kept name body.1).resolve_right fun missing => ?_
    have there := body.2
    rw [missing.2] at there
    cases there
  · intro known name component
    cases body : fileAt? t place (name ++ ".html") with
    | none => exact .inr ⟨component, rfl⟩
    | some content => exact .inl (known name ⟨component, by rw [body]; rfl⟩)

theorem size_eq_iff (describes : Describes t place l) {bodies : List String}
    (once : bodies.Nodup) (all : ∀ name, name ∈ bodies ↔ HasBody t place name) :
    l.registry.size = bodies.length ↔ KeysDiffer t place := by
  have same : ∀ key, key ∈ l.registry.entries.map Prod.fst ↔
      key ∈ bodies.map (normalizeKey · "js") := fun key => by
    simp only [describes.mem_keys, describes.keyOf, List.mem_map, all]
  have counted := length_eq_iff_nodup describes.keyed.once same
  rw [List.length_map, List.length_map, List.nodup_map_iff_inj_on once] at counted
  simp only [Registry.size, counted, all, KeysDiffer]
  exact ⟨fun apart name other body body' => apart name body other body',
    fun apart name body other body' => apart name other body body'⟩

theorem count_eq_iff (describes : Describes t place l) {names : List String}
    (once : names.Nodup) (all : ∀ name, name ∈ names ↔ HasComponent t place name) :
    l.registry.size + l.notDefined.length = names.length ↔ KeysDiffer t place := by
  let there (name : String) : Bool := (fileAt? t place (name ++ ".html")).isSome
  have bodies : ∀ name, name ∈ names.filter there ↔ HasBody t place name := fun name => by
    rw [List.mem_filter, all, HasBody]
  have missing : l.notDefined.Perm (names.filter fun name => !there name) := by
    refine (List.perm_ext_iff_of_nodup describes.notDefined_sorted.nodup (once.filter _)).2
      fun name => ?_
    simp [describes.mem_notDefined, all, there]
  -- The components without a body are all reported, so the others decide.
  have split : names.length = _ := List.length_eq_length_filter_add there
  rw [← describes.size_eq_iff (once.filter _) bodies, missing.length_eq]
  omega

end Describes

theorem Discovered.exists_last {definitions : List Definition}
    (discovered : Discovered t place definitions l) (once : (t.entries.map Prod.fst).Nodup)
    (body : HasBody t place name) :
    ∃ d, l.registry.forTag? name = some d ∧ StandsFor t place d ∧
      normalizeKey d.name "js" = normalizeKey name "js" ∧
        ∀ other, HasBody t place other → normalizeKey other "js" = normalizeKey name "js" →
          other ≤ d.name := by
  have describes := discovered.describes once
  obtain ⟨d, found, stands, sameKey⟩ := describes.exists_forTag? body
  refine ⟨d, found, stands, sameKey.symm, fun other body' sameKey' => ?_⟩
  rw [Registry.forTag?, discovered.get?_eq, List.find?_eq_some_iff_append] at found
  obtain ⟨-, later, earlier, parts, passed⟩ := found
  -- Backwards, the names descend.
  have descending : (later ++ d :: earlier).Pairwise fun first second =>
      second.name < first.name := by
    have ascending := (sortedLT_componentNames (filesAt t place)).pairwise.sublist
      (List.filter_sublist (p := hasBody (filesAt t place)))
    rw [← Collected.named discovered, List.pairwise_map] at ascending
    rw [← parts, List.pairwise_reverse]
    exact ascending
  obtain ⟨e, member, rfl⟩ := List.mem_map.1 ((discovered.mem_map_name once).2 body')
  rw [← List.mem_reverse, parts, List.mem_append, List.mem_cons] at member
  rcases member with before | rfl | after
  · have otherKey := passed e before
    simp [describes.keyOf, sameKey'] at otherKey
  · exact le_rfl
  · exact (List.pairwise_cons.1 (List.pairwise_append.1 descending).2.1).1 e after |>.le

/-- In a library that is found, each component with a body is found under its name, the definitions
and the components without a body are as many as the components, and no component is lost without a
warning, each exactly when the components with a body differ in their keys.  Of those with one key
the last one is found. -/
theorem discover_keeps_iff (once : (t.entries.map Prod.fst).Nodup)
    (found : t.place? folder = .ok place) (there : t.get? place = some .folder)
    (discovered : Library.discover t folder = .ok l) :
    ((∀ name, HasBody t place name → l.Knows name) ↔ KeysDiffer t place) ∧
      (∃ names : List String, names.Nodup ∧ (∀ name, name ∈ names ↔ HasComponent t place name) ∧
        (l.registry.size + l.notDefined.length = names.length ↔ KeysDiffer t place)) ∧
      ((∀ name, HasComponent t place name →
        l.Knows name ∨ Warning.undefinedComponent name ∈ l.warnings) ↔ KeysDiffer t place) ∧
      ∀ name, HasBody t place name →
        ∃ d, l.registry.forTag? name = some d ∧ StandsFor t place d ∧
          normalizeKey d.name "js" = normalizeKey name "js" ∧
            ∀ other, HasBody t place other → normalizeKey other "js" = normalizeKey name "js" →
              other ≤ d.name := by
  obtain ⟨definitions, read⟩ := (discover_eq_ok_iff found there).1 discovered
  have describes := read.describes once
  have components : ∀ name, name ∈ componentNames (filesAt t place) ↔ HasComponent t place name :=
    fun name => mem_componentNames_filesAt once
  have apart := (sortedLT_componentNames (filesAt t place)).nodup
  exact ⟨describes.forall_knows_iff,
    ⟨componentNames (filesAt t place), apart, components, describes.count_eq_iff apart components⟩,
    describes.forall_reported_iff, fun name body => read.exists_last once body⟩

def twoSpellings : Tree :=
  ⟨"/project", [(["lib"], .folder), (["lib", "CARD.html"], .file (some "b")),
    (["lib", "Card.html"], .file (some "a"))]⟩

theorem place?_twoSpellings : twoSpellings.place? "/project/lib" = .ok ["lib"] := by
  decide +kernel

theorem normalizeKey_twoSpellings :
    normalizeKey "CARD" "js" = "card.js" ∧ normalizeKey "Card" "js" = "card.js" := by
  decide +kernel

theorem hasBody_twoSpellings :
    HasBody twoSpellings ["lib"] "CARD" ∧ HasBody twoSpellings ["lib"] "Card" := by
  have initial : Text.isUppercase 'C' = true := by decide +kernel
  have capital : ∀ rest, IsCapitalized (String.ofList ('C' :: rest)) := fun rest =>
    ⟨'C', by simp, initial⟩
  have body : ∀ name ∈ ["CARD", "Card"],
      (fileAt? twoSpellings ["lib"] (name ++ ".html")).isSome = true ∧
        (fileAt? twoSpellings ["lib"] (name ++ "." ++ "html")).isSome = true := by
    decide +kernel
  exact ⟨⟨⟨capital ['A', 'R', 'D'], "html", by decide, (body _ (by simp)).2⟩, (body _ (by simp)).1⟩,
    ⟨⟨capital ['a', 'r', 'd'], "html", by decide, (body _ (by simp)).2⟩, (body _ (by simp)).1⟩⟩

theorem discover_twoSpellings :
    Library.discover twoSpellings "/project/lib" =
      .ok ⟨⟨"js", [("card.js", ⟨"Card", "a", none, none, none⟩)]⟩,
        ["CARD.html", "Card.html"], [], []⟩ := by
  have files : filesAt twoSpellings ["lib"] =
      [("CARD.html", some "b"), ("Card.html", some "a")] := by
    decide +kernel
  -- Sorting is no computation that the kernel runs, but these lists are sorted.
  have names : componentNames (filesAt twoSpellings ["lib"]) = ["CARD", "Card"] :=
    List.mergeSort_of_pairwise (by decide +kernel)
  have members : sorted (memberNames (filesAt twoSpellings ["lib"])) =
      ["CARD.html", "Card.html"] :=
    List.mergeSort_of_pairwise (by decide +kernel)
  rw [discover_of_folder place?_twoSpellings rfl, ofListing_eq, unread, names, members, files]
  simp [readComponents, readComponent, readPart, List.lookup_cons, List.lookup_nil, Registry.insert, Registry.keyOf,
    normalizeKey_twoSpellings, Json.putMember, bind, Except.bind, pure, Except.pure]

theorem discover_keeps_iff_twoSpellings :
    (twoSpellings.entries.map Prod.fst).Nodup ∧
      twoSpellings.place? "/project/lib" = .ok ["lib"] ∧
        twoSpellings.get? ["lib"] = some .folder ∧
          ∃ l, Library.discover twoSpellings "/project/lib" = .ok l ∧
            ((∀ name, HasBody twoSpellings ["lib"] name → l.Knows name) ↔
              KeysDiffer twoSpellings ["lib"]) ∧
              ∃ d, l.registry.forTag? "CARD" = some d ∧ StandsFor twoSpellings ["lib"] d ∧
                "Card" ≤ d.name := by
  have once : (twoSpellings.entries.map Prod.fst).Nodup := by decide +kernel
  have sameKey : normalizeKey "Card" "js" = normalizeKey "CARD" "js" :=
    normalizeKey_twoSpellings.2.trans normalizeKey_twoSpellings.1.symm
  obtain ⟨known, -, -, last⟩ :=
    discover_keeps_iff once place?_twoSpellings rfl discover_twoSpellings
  obtain ⟨d, found, stands, -, greatest⟩ := last "CARD" hasBody_twoSpellings.1
  exact ⟨once, place?_twoSpellings, rfl, _, discover_twoSpellings, known, d, found, stands,
    greatest "Card" hasBody_twoSpellings.2 sameKey⟩

/-- Of two spellings of a name the one in capitals is not found, and nothing tells of it. -/
theorem capitals_replaced :
    HasBody twoSpellings ["lib"] "CARD" ∧ HasBody twoSpellings ["lib"] "Card" ∧
      ∃ l, Library.discover twoSpellings "/project/lib" = .ok l ∧ ¬l.Knows "CARD" ∧
        l.registry.size + l.notDefined.length = 1 ∧ l.warnings = [] := by
  refine ⟨hasBody_twoSpellings.1, hasBody_twoSpellings.2, _, discover_twoSpellings, ?_, rfl, rfl⟩
  rintro ⟨d, found, named⟩
  rw [Registry.forTag?, Registry.keyOf, normalizeKey_twoSpellings.1] at found
  obtain rfl := Option.some.inj found
  exact absurd named (by decide)

end ComponentCompiler.Project
