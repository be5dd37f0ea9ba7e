import ComponentCompiler.Proofs.Component.Keys
import ComponentCompiler.Proofs.Component.TableOrder
import ComponentCompiler.Proofs.Project.Delivery
import Mathlib.Data.List.Sort
import Mathlib.Data.String.Basic

/-!
# The library in a folder

The components of a folder are the capitalized names of its files that end in `.html`, `.css` or
`.js`.  They are read in the order of their names, whatever the order in which the folder lists its
files.

* `componentOf?_eq_some_iff`, `mem_componentNames`: which files belong to which components.
* `readComponents_eq_ok_iff`, `exists_collected_iff`: what reading components comes to, and when it
  succeeds.
* `discover_order`: the library that is found does not depend on the order of the tree, and
  describes its folder.
-/

namespace ComponentCompiler.Project

open Component (Definition Failure Registry)
open Files (Entry Place Tree)

/-! ## Names of files -/

theorem splitName?_eq_some_iff {name stem extension : String} :
    Files.splitName? name = some (stem, extension) ↔
      stem ≠ "" ∧ '.' ∉ extension.toList ∧ name = stem ++ "." ++ extension := by
  -- Backwards, the extension is what comes before the first dot.
  have parts := List.takeWhile_append_dropWhile (p := (· ≠ '.')) (l := name.toList.reverse)
  rw [Files.splitName?]
  constructor
  · intro cut
    split at cut
    next x c front dropped =>
      obtain ⟨rfl, rfl⟩ := Prod.mk.inj (Option.some.inj cut)
      have dot : x = '.' := by
        have first := List.head?_dropWhile_not (· ≠ '.') name.toList.reverse
        rw [dropped] at first
        simpa using first
      refine ⟨by simp [← String.toList_inj], ?_, ?_⟩
      · rw [String.toList_ofList, List.mem_reverse]
        intro member
        simpa using List.all_eq_true.1 List.all_takeWhile '.' member
      · rw [dropped, dot] at parts
        refine String.toList_inj.1 (List.reverse_inj.1 (parts.symm.trans ?_))
        simp
    next => cases cut
  · rintro ⟨nonempty, noDot, rfl⟩
    have reversed : (stem ++ "." ++ extension).toList.reverse =
        extension.toList.reverse ++ '.' :: stem.toList.reverse := by simp
    have before : ∀ c ∈ extension.toList.reverse, decide (c ≠ '.') = true := fun c member => by
      rw [decide_eq_true_iff]
      rintro rfl
      exact noDot (List.mem_reverse.1 member)
    obtain ⟨c, front, stem_⟩ : ∃ c front, stem.toList.reverse = c :: front :=
      List.exists_cons_of_ne_nil (by simpa using nonempty)
    rw [reversed, List.takeWhile_append_of_pos before, List.dropWhile_append_of_pos before, stem_,
      List.dropWhile_cons_of_neg (by simp), List.takeWhile_cons_of_neg (by simp)]
    simp [← stem_]

def IsCapitalized (stem : String) : Prop :=
  ∃ c ∈ stem.toList.head?, Text.isUppercase c = true

theorem exists_head_iff (stem : String) :
    (stem.toList.head?.map Text.isUppercase).getD false = true ↔ IsCapitalized stem := by
  rw [IsCapitalized]
  cases stem.toList.head? <;> simp

theorem componentOf?_eq_some_iff {name stem : String} :
    componentOf? name = some stem ↔
      IsCapitalized stem ∧ ∃ e ∈ extensions, name = stem ++ "." ++ e := by
  rw [componentOf?]
  constructor
  · intro found
    split at found
    next cut extension parts =>
      dsimp only at found
      split at found
      next part =>
        obtain rfl := Option.some.inj found
        rw [Bool.and_eq_true, exists_head_iff, List.contains_iff_mem] at part
        exact ⟨part.1, extension, part.2, (splitName?_eq_some_iff.1 parts).2.2⟩
      next => cases found
    next => cases found
  · rintro ⟨capitalized, e, ending, rfl⟩
    have nonempty : stem ≠ "" := by
      rintro rfl
      obtain ⟨c, first, -⟩ := capitalized
      cases first
    have noDot : ∀ e ∈ extensions, '.' ∉ e.toList := by decide
    rw [splitName?_eq_some_iff.2 ⟨nonempty, noDot e ending, rfl⟩]
    dsimp only
    rw [if_pos]
    rw [Bool.and_eq_true, exists_head_iff, List.contains_iff_mem]
    exact ⟨capitalized, ending⟩

/-! ## Orders -/

theorem sortedLE_sorted (xs : List String) : (sorted xs).SortedLE := by
  have ordered : (sorted xs).Pairwise fun a b => decide (a ≤ b) = true := by
    refine List.pairwise_mergeSort (fun a b c first second => ?_) (fun a b => ?_) xs
    · exact decide_eq_true (le_trans (of_decide_eq_true first) (of_decide_eq_true second))
    · simpa using le_total a b
  exact List.Pairwise.sortedLE (ordered.imp of_decide_eq_true)

theorem mem_sorted {xs : List String} {x : String} : x ∈ sorted xs ↔ x ∈ xs :=
  (List.mergeSort_perm _ _).mem_iff

theorem sortedLT_sorted {xs : List String} (once : xs.Nodup) : (sorted xs).SortedLT :=
  (sortedLE_sorted xs).sortedLT_of_nodup ((List.mergeSort_perm _ _).nodup_iff.2 once)

theorem sorted_congr {xs ys : List String} (once : xs.Nodup) (once' : ys.Nodup)
    (same : ∀ x, x ∈ xs ↔ x ∈ ys) : sorted xs = sorted ys :=
  (sortedLT_sorted once).eq_of_mem_iff (sortedLT_sorted once') fun x => by
    rw [mem_sorted, mem_sorted, same]

/-! ## Listings -/

section

variable {files files' : Listing} {folder name : String}

theorem sortedLT_componentNames (files : Listing) : (componentNames files).SortedLT :=
  sortedLT_sorted (Identity.nodup_eraseDups _)

theorem mem_componentNames :
    name ∈ componentNames files ↔
      IsCapitalized name ∧ ∃ e ∈ extensions, name ++ "." ++ e ∈ files.map Prod.fst := by
  rw [componentNames, mem_sorted, List.mem_eraseDups, List.mem_filterMap]
  constructor
  · rintro ⟨file, member, part⟩
    obtain ⟨capitalized, e, ending, same⟩ := componentOf?_eq_some_iff.1 part
    exact ⟨capitalized, e, ending, same ▸ List.mem_map_of_mem member⟩
  · rintro ⟨capitalized, e, ending, member⟩
    obtain ⟨file, there, same⟩ := List.mem_map.1 member
    exact ⟨file, there, componentOf?_eq_some_iff.2 ⟨capitalized, e, ending, same⟩⟩

theorem componentNames_perm (perm : files.Perm files') :
    componentNames files = componentNames files' := by
  refine (sortedLT_componentNames files).eq_of_mem_iff (sortedLT_componentNames files') fun x => ?_
  rw [mem_componentNames, mem_componentNames]
  simp only [(perm.map Prod.fst).mem_iff]

theorem readPart_congr (same : ∀ name, files.lookup name = files'.lookup name) :
    readPart folder files name = readPart folder files' name := by
  rw [readPart, readPart, same]

theorem readComponents_congr (same : ∀ name, files.lookup name = files'.lookup name)
    (l : Library) (names : List String) :
    readComponents folder files l names = readComponents folder files' l names := by
  have parts (name : String) :
      readComponent folder files name = readComponent folder files' name := by
    simp only [readComponent, readPart_congr same]
  induction names generalizing l with
  | nil => rfl
  | cons name names ih => simp only [readComponents, parts, ih]

def memberNames (files : Listing) : List String :=
  (files.filter fun file => (componentOf? file.1).isSome).map Prod.fst

def unread (files : Listing) : Library :=
  ⟨{}, sorted (memberNames files), [], []⟩

theorem ofListing_eq (folder : String) (files : Listing) :
    Library.ofListing folder files =
      readComponents folder files (unread files) (componentNames files) :=
  rfl

theorem nodup_memberNames (once : (files.map Prod.fst).Nodup) : (memberNames files).Nodup :=
  once.sublist (List.filter_sublist.map Prod.fst)

theorem mem_memberNames :
    name ∈ memberNames files ↔ (componentOf? name).isSome = true ∧ name ∈ files.map Prod.fst := by
  simp only [memberNames, List.mem_map, List.mem_filter]
  constructor
  · rintro ⟨file, ⟨there, part⟩, rfl⟩
    exact ⟨part, file, there, rfl⟩
  · rintro ⟨part, file, there, rfl⟩
    exact ⟨file, ⟨there, part⟩, rfl⟩

theorem ofListing_perm (once : (files.map Prod.fst).Nodup) (perm : files.Perm files')
    (folder : String) : Library.ofListing folder files = Library.ofListing folder files' := by
  have names := perm.map Prod.fst
  have members : sorted (memberNames files) = sorted (memberNames files') := by
    refine sorted_congr (nodup_memberNames once) (nodup_memberNames (names.nodup_iff.1 once))
      fun name => ?_
    rw [mem_memberNames, mem_memberNames, names.mem_iff]
  rw [ofListing_eq, ofListing_eq, unread, unread, members, componentNames_perm perm,
    readComponents_congr (lookup_perm once perm)]

/-! ## Reading components -/

/-- What the parts of a component make up: the text of each file that is there, and no more. -/
structure IsMadeOf (files : Listing) (d : Definition) : Prop where
  body : files.lookup (d.name ++ ".html") = some (some d.body)
  styles : files.lookup (d.name ++ ".css") = d.styles.map some
  script : files.lookup (d.name ++ ".js") = d.script.map some
  effects : d.effects = none

def hasBody (files : Listing) (name : String) : Bool :=
  (files.lookup (name ++ ".html")).isSome

theorem readPart_eq_ok_iff {part : Option String} :
    readPart folder files name = .ok part ↔ files.lookup name = part.map some := by
  rw [readPart]
  rcases files.lookup name with _ | _ | text <;> cases part <;> simp

theorem readComponent_eq_ok_none_iff :
    readComponent folder files name = .ok none ↔ hasBody files name = false := by
  rw [readComponent, hasBody, Option.isSome_eq_false_iff, Option.isNone_iff_eq_none]
  cases body : readPart folder files (name ++ ".html") with
  | error e =>
    have there : files.lookup (name ++ ".html") ≠ none := fun missing => by
      simp [readPart, missing] at body
    simpa [bind, Except.bind] using there
  | ok part =>
    rw [readPart_eq_ok_iff] at body
    rw [body]
    cases part with
    | none => simp [bind, Except.bind, pure, Except.pure]
    | some text =>
      cases readPart folder files (name ++ ".css") <;>
        cases readPart folder files (name ++ ".js") <;> simp [bind, Except.bind, pure, Except.pure]

theorem readComponent_eq_ok_some_iff {d : Definition} :
    readComponent folder files name = .ok (some d) ↔ d.name = name ∧ IsMadeOf files d := by
  have parts : readComponent folder files name = .ok (some d) ↔
      ∃ body styles script, readPart folder files (name ++ ".html") = .ok (some body) ∧
        readPart folder files (name ++ ".css") = .ok styles ∧
          readPart folder files (name ++ ".js") = .ok script ∧
            (⟨name, body, styles, script, none⟩ : Definition) = d := by
    rw [readComponent]
    rcases readPart folder files (name ++ ".html") with e | _ | body <;>
      rcases readPart folder files (name ++ ".css") with e' | styles <;>
        rcases readPart folder files (name ++ ".js") with e'' | script <;>
          simp [bind, Except.bind, pure, Except.pure]
  simp only [parts, readPart_eq_ok_iff]
  constructor
  · rintro ⟨body, styles, script, html, css, js, rfl⟩
    exact ⟨rfl, html, css, js, rfl⟩
  · rintro ⟨rfl, html, css, js, effects⟩
    refine ⟨d.body, d.styles, d.script, html, css, js, ?_⟩
    rw [← effects]

theorem hasBody_of_isMadeOf {d : Definition} (made : IsMadeOf files d) :
    hasBody files d.name = true := by
  rw [hasBody, made.body]
  rfl

theorem exists_isMadeOf_iff (body : hasBody files name = true) :
    (∃ d : Definition, d.name = name ∧ IsMadeOf files d) ↔
      ∀ e ∈ extensions, files.lookup (name ++ "." ++ e) ≠ some none := by
  have written (ending : String) :
      files.lookup (name ++ ending) ≠ some none ↔
        ∃ part : Option String, files.lookup (name ++ ending) = part.map some := by
    rcases files.lookup (name ++ ending) with _ | _ | text
    · exact iff_of_true (by simp) ⟨none, rfl⟩
    · refine iff_of_false (by simp) ?_
      rintro ⟨_ | text, same⟩ <;> simp at same
    · exact iff_of_true (by simp) ⟨some text, rfl⟩
  simp only [extensions, List.forall_mem_cons, String.append_assoc, List.not_mem_nil,
    IsEmpty.forall_iff, implies_true, and_true]
  rw [written, written, written]
  constructor
  · rintro ⟨d, rfl, made⟩
    exact ⟨⟨some d.body, made.body⟩, ⟨d.styles, made.styles⟩, ⟨d.script, made.script⟩⟩
  · rintro ⟨⟨_ | text, html⟩, ⟨styles, css⟩, ⟨script, js⟩⟩
    · rw [hasBody, show files.lookup (name ++ ".html") = _ from html] at body
      cases body
    · exact ⟨⟨name, text, styles, script, none⟩, rfl, html, css, js, rfl⟩

structure Collected (files : Listing) (names : List String) (l : Library)
    (definitions : List Definition) (l' : Library) : Prop where
  made : ∀ d ∈ definitions, IsMadeOf files d
  named : definitions.map (·.name) = names.filter (hasBody files)
  registry : l'.registry = definitions.foldl Registry.insert l.registry
  files_ : l'.files = l.files
  notDefined : l'.notDefined = l.notDefined ++ names.filter fun name => !hasBody files name
  warnings : l'.warnings = l.warnings ++
    (names.filter fun name => !hasBody files name).map Warning.undefinedComponent

namespace Collected

variable {names : List String} {l l' : Library} {definitions : List Definition} {d : Definition}

theorem nil_iff : Collected files [] l definitions l' ↔ definitions = [] ∧ l' = l := by
  constructor
  · intro collected
    obtain rfl : definitions = [] := by simpa using collected.named
    have registry := collected.registry
    have files_ := collected.files_
    have notDefined := collected.notDefined
    have warnings := collected.warnings
    cases l
    cases l'
    simp_all
  · rintro ⟨rfl, rfl⟩
    exact ⟨by simp, rfl, rfl, rfl, by simp, by simp⟩

theorem cons_iff_of_missing (missing : hasBody files name = false) :
    Collected files (name :: names) l definitions l' ↔
      Collected files names { l with
        notDefined := l.notDefined ++ [name]
        warnings := l.warnings ++ [.undefinedComponent name] } definitions l' := by
  constructor
  · intro ⟨made, named, registry, files_, notDefined, warnings⟩
    exact ⟨made, by simpa [missing] using named, registry, files_,
      by simpa [missing] using notDefined, by simpa [missing] using warnings⟩
  · intro ⟨made, named, registry, files_, notDefined, warnings⟩
    exact ⟨made, by simp [named, missing], registry, files_, by simp [notDefined, missing],
      by simp [warnings, missing]⟩

theorem cons_iff_of_isMadeOf (made : IsMadeOf files d) :
    Collected files (d.name :: names) l (d :: definitions) l' ↔
      Collected files names { l with registry := l.registry.insert d } definitions l' := by
  have body := hasBody_of_isMadeOf made
  constructor
  · intro ⟨all, named, registry, files_, notDefined, warnings⟩
    exact ⟨fun other member => all other (List.mem_cons_of_mem _ member),
      by simpa [body] using named, registry, files_, by simpa [body] using notDefined,
      by simpa [body] using warnings⟩
  · intro ⟨all, named, registry, files_, notDefined, warnings⟩
    exact ⟨List.forall_mem_cons.2 ⟨made, all⟩, by simp [named, body], registry, files_,
      by simp [notDefined, body], by simp [warnings, body]⟩

theorem exists_cons (collected : Collected files (name :: names) l definitions l')
    (body : hasBody files name = true) :
    ∃ d rest, definitions = d :: rest ∧ d.name = name ∧ IsMadeOf files d := by
  have named := collected.named
  rw [List.filter_cons_of_pos body] at named
  obtain ⟨d, rest, rfl, rfl, -⟩ := List.map_eq_cons_iff.1 named
  exact ⟨d, rest, rfl, rfl, collected.made d List.mem_cons_self⟩

end Collected

theorem readComponents_eq_ok_iff {l l' : Library} {names : List String} :
    readComponents folder files l names = .ok l' ↔
      ∃ definitions, Collected files names l definitions l' := by
  induction names generalizing l with
  | nil => simp [Collected.nil_iff, readComponents, eq_comm]
  | cons name names ih =>
    rw [readComponents]
    cases read : readComponent folder files name with
    | error e =>
      refine iff_of_false (by simp) ?_
      rintro ⟨definitions, collected⟩
      cases body : hasBody files name with
      | false => simp [readComponent_eq_ok_none_iff.2 body] at read
      | true =>
        obtain ⟨d, rest, -, named, made⟩ := collected.exists_cons body
        simp [readComponent_eq_ok_some_iff.2 ⟨named, made⟩] at read
    | ok found =>
      cases found with
      | none =>
        simp only [ih, Collected.cons_iff_of_missing (readComponent_eq_ok_none_iff.1 read)]
      | some d =>
        obtain ⟨rfl, made⟩ := readComponent_eq_ok_some_iff.1 read
        simp only [ih]
        constructor
        · rintro ⟨definitions, collected⟩
          exact ⟨d :: definitions, (Collected.cons_iff_of_isMadeOf made).2 collected⟩
        · rintro ⟨definitions, collected⟩
          -- The first of the definitions is the one that was read, as it has its name and parts.
          obtain ⟨d', rest, rfl, named, made'⟩ :=
            collected.exists_cons (hasBody_of_isMadeOf made)
          have same : readComponent folder files d.name = .ok (some d') :=
            readComponent_eq_ok_some_iff.2 ⟨named, made'⟩
          obtain rfl : d = d' := by simpa [read] using same
          exact ⟨rest, (Collected.cons_iff_of_isMadeOf made).1 collected⟩

theorem exists_collected_iff {l : Library} {names : List String} :
    (∃ l' definitions, Collected files names l definitions l') ↔
      ∀ name ∈ names, hasBody files name = true →
        ∀ e ∈ extensions, files.lookup (name ++ "." ++ e) ≠ some none := by
  constructor
  · rintro ⟨l', definitions, collected⟩ name member body
    have listed : name ∈ definitions.map (·.name) := by
      rw [collected.named]
      exact List.mem_filter.2 ⟨member, body⟩
    obtain ⟨d, there, named⟩ := List.mem_map.1 listed
    exact (exists_isMadeOf_iff body).1 ⟨d, named, collected.made d there⟩
  · intro written
    induction names generalizing l with
    | nil => exact ⟨l, [], Collected.nil_iff.2 ⟨rfl, rfl⟩⟩
    | cons name names ih =>
      rw [List.forall_mem_cons] at written
      cases body : hasBody files name with
      | false =>
        obtain ⟨l', definitions, collected⟩ := ih written.2
        exact ⟨l', definitions, (Collected.cons_iff_of_missing body).2 collected⟩
      | true =>
        obtain ⟨d, rfl, made⟩ := (exists_isMadeOf_iff body).2 (written.1 body)
        obtain ⟨l', definitions, collected⟩ := ih written.2
        exact ⟨l', d :: definitions, (Collected.cons_iff_of_isMadeOf made).2 collected⟩

end

/-! ## Files of a tree -/

def fileAt? (t : Tree) (place : Place) (name : String) : Option (Option String) :=
  match t.get? (place ++ [name]) with
  | some (.file content) => some content
  | _ => none

section

variable {t t' : Tree} {place : Place} {folder name : String}

theorem fileAt?_eq_some_iff {content : Option String} :
    fileAt? t place name = some content ↔
      t.get? (place ++ [name]) = some (.file content) := by
  rw [fileAt?]
  rcases t.get? (place ++ [name]) with _ | _ | text <;> simp

theorem mem_filesAt {content : Option String} :
    (name, content) ∈ filesAt t place ↔ (place ++ [name], .file content) ∈ t.entries := by
  rw [filesAt, List.mem_filterMap]
  constructor
  · rintro ⟨e, member, listed⟩
    exact eq_of_listed? listed ▸ member
  · intro member
    exact ⟨_, member, by simp [listed?]⟩

theorem nodup_filesAt (once : (t.entries.map Prod.fst).Nodup) (place : Place) :
    ((filesAt t place).map Prod.fst).Nodup := by
  have apart : t.entries.Pairwise fun e e' => e.1 ≠ e'.1 := List.pairwise_map.1 once
  refine List.pairwise_map.2 (List.pairwise_filterMap.2 (apart.imp ?_))
  intro e e' differ file listed file' listed' same
  obtain rfl := eq_of_listed? listed
  obtain rfl := eq_of_listed? listed'
  exact differ (by rw [same])

theorem lookup_filesAt (once : (t.entries.map Prod.fst).Nodup) (place : Place) (name : String) :
    (filesAt t place).lookup name = fileAt? t place name := by
  refine Option.ext fun content => ?_
  rw [lookup_eq_some_iff_mem (nodup_filesAt once place), mem_filesAt, fileAt?_eq_some_iff,
    Tree.get?_of_ne_nil t (by simp), lookup_eq_some_iff_mem once]

/-! ## Orders of a tree -/

theorem get?_perm (once : (t.entries.map Prod.fst).Nodup) (perm : t.entries.Perm t'.entries)
    (place : Place) : t.get? place = t'.get? place := by
  rw [Tree.get?, Tree.get?, lookup_perm once perm]

theorem follow_congr (same : ∀ place, t.get? place = t'.get? place) (place : Place)
    (pieces : List String) : t.follow place pieces = t'.follow place pieces := by
  induction pieces generalizing place with
  | nil => rfl
  | cons piece pieces ih => simp only [Tree.follow, same, ih]

theorem place?_congr (root : t'.root = t.root) (same : ∀ place, t.get? place = t'.get? place)
    (path : String) : t.place? path = t'.place? path := by
  rw [Tree.place?, Tree.place?, Tree.pieces?_congr root,
    funext fun pieces => follow_congr same [] pieces]

theorem discover_of_folder (found : t.place? folder = .ok place)
    (there : t.get? place = some .folder) :
    Library.discover t folder = Library.ofListing folder (filesAt t place) := by
  rw [Library.discover, listing?_eq, found]
  simp [Except.toOption, there]

theorem discover_perm (once : (t.entries.map Prod.fst).Nodup) (root : t'.root = t.root)
    (perm : t.entries.Perm t'.entries) (folder : String) :
    Library.discover t folder = Library.discover t' folder := by
  have same := get?_perm once perm
  have places := place?_congr root same folder
  have listed : ∀ place, (filesAt t place).Perm (filesAt t' place) := fun place =>
    perm.filterMap (listed? place)
  rw [Library.discover, Library.discover, listing?_eq, listing?_eq, ← places]
  cases t.place? folder with
  | error e => rfl
  | ok place =>
    simp only [Except.toOption, Option.bind_some, ← same]
    by_cases there : t.get? place = some .folder
    · simp only [if_pos there]
      exact ofListing_perm (nodup_filesAt once place) (listed place) folder
    · simp only [if_neg there]

/-! ## What a library says of its folder -/

def HasComponent (t : Tree) (place : Place) (name : String) : Prop :=
  IsCapitalized name ∧ ∃ e ∈ extensions, (fileAt? t place (name ++ "." ++ e)).isSome = true

def HasBody (t : Tree) (place : Place) (name : String) : Prop :=
  HasComponent t place name ∧ (fileAt? t place (name ++ ".html")).isSome = true

/-- A definition with what is in the files of its name, and in no others. -/
structure StandsFor (t : Tree) (place : Place) (d : Definition) : Prop where
  component : HasComponent t place d.name
  body : fileAt? t place (d.name ++ ".html") = some (some d.body)
  styles : fileAt? t place (d.name ++ ".css") = d.styles.map some
  script : fileAt? t place (d.name ++ ".js") = d.script.map some
  effects : d.effects = none

/-- A library that says of a folder what there is: all files of components in order, a report on
each component without a body, and under the key of each other one a definition that stands for its
files. -/
structure Describes (t : Tree) (place : Place) (l : Library) : Prop where
  files_sorted : l.files.SortedLT
  mem_files : ∀ name, name ∈ l.files ↔ (fileAt? t place name).isSome = true ∧
    ∃ stem, IsCapitalized stem ∧ ∃ e ∈ extensions, name = stem ++ "." ++ e
  notDefined_sorted : l.notDefined.SortedLT
  mem_notDefined : ∀ name, name ∈ l.notDefined ↔
    HasComponent t place name ∧ fileAt? t place (name ++ ".html") = none
  warnings : l.warnings = l.notDefined.map Warning.undefinedComponent
  extension : l.registry.extension = "js"
  keyed : l.registry.IsKeyed
  mem_keys : ∀ key, key ∈ l.registry.entries.map Prod.fst ↔
    ∃ name, HasBody t place name ∧ l.registry.keyOf name = key
  standsFor : ∀ entry ∈ l.registry.entries, StandsFor t place entry.2

section

variable (once : (t.entries.map Prod.fst).Nodup)

include once

theorem mem_map_filesAt :
    name ∈ (filesAt t place).map Prod.fst ↔ (fileAt? t place name).isSome = true := by
  rw [← lookup_filesAt once, isSome_lookup_iff_mem]

theorem mem_componentNames_filesAt :
    name ∈ componentNames (filesAt t place) ↔ HasComponent t place name := by
  simp only [mem_componentNames, mem_map_filesAt once, HasComponent]

theorem mem_filter_hasBody :
    name ∈ (componentNames (filesAt t place)).filter (hasBody (filesAt t place)) ↔
      HasBody t place name := by
  rw [List.mem_filter, mem_componentNames_filesAt once, hasBody, lookup_filesAt once, HasBody]

theorem standsFor_iff {d : Definition} :
    StandsFor t place d ↔ HasComponent t place d.name ∧ IsMadeOf (filesAt t place) d := by
  constructor
  · intro ⟨component, body, styles, script, effects⟩
    simp only [← lookup_filesAt once] at body styles script
    exact ⟨component, body, styles, script, effects⟩
  · intro ⟨component, body, styles, script, effects⟩
    simp only [lookup_filesAt once] at body styles script
    exact ⟨component, body, styles, script, effects⟩

end

/-- The components of a folder were read one after the other, into these definitions. -/
def Discovered (t : Tree) (place : Place) (definitions : List Definition) (l : Library) : Prop :=
  Collected (filesAt t place) (componentNames (filesAt t place)) (unread (filesAt t place))
    definitions l

theorem discover_eq_ok_iff {l : Library} (found : t.place? folder = .ok place)
    (there : t.get? place = some .folder) :
    Library.discover t folder = .ok l ↔ ∃ definitions, Discovered t place definitions l := by
  rw [discover_of_folder found there, ofListing_eq, readComponents_eq_ok_iff]
  rfl

namespace Discovered

variable {l : Library} {definitions : List Definition} {d : Definition}

theorem registry (discovered : Discovered t place definitions l) :
    l.registry = definitions.foldl Registry.insert {} :=
  Collected.registry discovered

theorem extension (discovered : Discovered t place definitions l) :
    l.registry.extension = "js" := by
  rw [discovered.registry, Registry.extension_foldl_insert]

theorem get?_eq (discovered : Discovered t place definitions l) (key : String) :
    l.registry.get? key = definitions.reverse.find? fun d => l.registry.keyOf d.name == key := by
  have empty : ({} : Registry).get? key = none := rfl
  rw [discovered.registry, Registry.get?_foldl_insert, empty, Option.or_none]
  simp only [Registry.keyOf, Registry.extension_foldl_insert]

theorem isKeyed (discovered : Discovered t place definitions l) : l.registry.IsKeyed := by
  rw [discovered.registry]
  exact Registry.IsKeyed.foldl_insert ⟨by simp, by simp⟩ definitions

variable (once : (t.entries.map Prod.fst).Nodup)

include once

theorem mem_map_name (discovered : Discovered t place definitions l) :
    name ∈ definitions.map (·.name) ↔ HasBody t place name := by
  rw [Collected.named discovered, mem_filter_hasBody once]

theorem standsFor (discovered : Discovered t place definitions l) (member : d ∈ definitions) :
    StandsFor t place d :=
  (standsFor_iff once).2
    ⟨((discovered.mem_map_name once).1 (List.mem_map_of_mem member)).1,
      Collected.made discovered d member⟩

theorem mem_keys (discovered : Discovered t place definitions l) (key : String) :
    key ∈ l.registry.entries.map Prod.fst ↔
      ∃ name, HasBody t place name ∧ l.registry.keyOf name = key := by
  rw [← isSome_lookup_iff_mem, ← Registry.get?, discovered.get?_eq, List.find?_isSome]
  simp only [List.mem_reverse, beq_iff_eq, ← discovered.mem_map_name once, List.mem_map,
    exists_exists_and_eq_and]

theorem describes (discovered : Discovered t place definitions l) : Describes t place l where
  files_sorted :=
    Collected.files_ discovered ▸ sortedLT_sorted (nodup_memberNames (nodup_filesAt once place))
  mem_files name := by
    rw [Collected.files_ discovered, unread, mem_sorted, mem_memberNames, mem_map_filesAt once,
      and_comm, Option.isSome_iff_exists (x := componentOf? name)]
    simp only [componentOf?_eq_some_iff]
  notDefined_sorted := by
    rw [Collected.notDefined discovered, unread, List.nil_append]
    exact ((sortedLT_componentNames _).pairwise.sublist List.filter_sublist).sortedLT
  mem_notDefined name := by
    rw [Collected.notDefined discovered, unread, List.nil_append, List.mem_filter,
      mem_componentNames_filesAt once, hasBody, lookup_filesAt once]
    simp
  warnings := by rw [Collected.warnings discovered, Collected.notDefined discovered]; rfl
  extension := discovered.extension
  keyed := discovered.isKeyed
  mem_keys := discovered.mem_keys once
  standsFor entry member := by
    have stored := discovered.isKeyed.get?_eq_some_iff.2 member
    rw [discovered.get?_eq] at stored
    exact discovered.standsFor once (List.mem_reverse.1 (List.mem_of_find?_eq_some stored))

end Discovered

theorem exists_discover_iff (once : (t.entries.map Prod.fst).Nodup)
    (found : t.place? folder = .ok place) (there : t.get? place = some .folder) :
    (∃ l, Library.discover t folder = .ok l) ↔
      ∀ name, HasBody t place name →
        ∀ e ∈ extensions, fileAt? t place (name ++ "." ++ e) ≠ some none := by
  simp only [discover_eq_ok_iff found there, Discovered, exists_collected_iff,
    lookup_filesAt once, mem_componentNames_filesAt once, hasBody, HasBody, and_imp]

/-- The order in which a tree lists its files does not matter.  What is found in a folder describes
the folder, and is found exactly when each file of a component with a body is a text. -/
theorem discover_order (once : (t.entries.map Prod.fst).Nodup) (root : t'.root = t.root)
    (perm : t.entries.Perm t'.entries) (folder : String) :
    Library.discover t folder = Library.discover t' folder ∧
      ∀ place, t.place? folder = .ok place → t.get? place = some .folder →
        ((∃ l, Library.discover t folder = .ok l) ↔
          ∀ name, HasBody t place name →
            ∀ e ∈ extensions, fileAt? t place (name ++ "." ++ e) ≠ some none) ∧
          ∀ l, Library.discover t folder = .ok l → Describes t place l := by
  refine ⟨discover_perm once root perm folder, fun place found there =>
    ⟨exists_discover_iff once found there, fun l discovered => ?_⟩⟩
  obtain ⟨definitions, read⟩ := (discover_eq_ok_iff found there).1 discovered
  exact read.describes once

def mixedFolder : Tree :=
  ⟨"/project", [(["lib"], .folder), (["lib", "Card.html"], .file (some "<b></b>")),
    (["lib", "Ghost.css"], .file (some "b{}")), (["lib", "Card.css"], .file (some "p{}")),
    (["lib", "notes.txt"], .file none), (["lib", "Parts.html"], .folder),
    (["lib", "Parts.html", "Other.html"], .file (some "<i></i>"))]⟩

theorem discover_order_mixedFolder :
    (mixedFolder.entries.map Prod.fst).Nodup ∧
      mixedFolder.entries.Perm mixedFolder.entries.reverse ∧
        mixedFolder.place? "/project/lib" = .ok ["lib"] ∧
          mixedFolder.get? ["lib"] = some .folder ∧
            ∃ l, Library.discover mixedFolder "/project/lib" = .ok l ∧
              Library.discover ⟨"/project", mixedFolder.entries.reverse⟩ "/project/lib" = .ok l ∧
                Describes mixedFolder ["lib"] l := by
  have once : (mixedFolder.entries.map Prod.fst).Nodup := by decide +kernel
  have found : mixedFolder.place? "/project/lib" = .ok ["lib"] := by decide +kernel
  have there : mixedFolder.get? ["lib"] = some .folder := by decide +kernel
  have perm := (List.reverse_perm mixedFolder.entries).symm
  obtain ⟨order, described⟩ :=
    @discover_order mixedFolder ⟨"/project", mixedFolder.entries.reverse⟩ once rfl perm
      "/project/lib"
  obtain ⟨succeeds, describes⟩ := described ["lib"] found there
  have texts : ∀ name, HasBody mixedFolder ["lib"] name →
      ∀ e ∈ extensions, fileAt? mixedFolder ["lib"] (name ++ "." ++ e) ≠ some none := by
    intro name _ e ending bad
    rw [fileAt?_eq_some_iff, Tree.get?_of_ne_nil _ (by simp), lookup_eq_some_iff_mem once] at bad
    have notes : name ++ "." ++ e = "notes.txt" := by simpa [mixedFolder] using bad
    have same : ∀ e ∈ extensions, ¬e.toList <:+ "notes.txt".toList := by decide
    rw [← notes, String.toList_append] at same
    exact same e ending (List.suffix_append ..)
  obtain ⟨l, discovered⟩ := succeeds.2 texts
  exact ⟨once, perm, found, there, l, discovered, order ▸ discovered, describes l discovered⟩

end

end ComponentCompiler.Project
