import ComponentCompiler.Markup.Node
import ComponentCompiler.Proofs.Text.Words

namespace ComponentCompiler.Markup.Attribute

@[simp] theorem has_nil (name : String) : has [] name = false :=
  rfl

@[simp] theorem has_cons (a : Attribute) (rest : List Attribute) (name : String) :
    has (a :: rest) name = (decide (a.name = name) || has rest name) :=
  rfl

theorem has_set (name value other : String) (attributes : List Attribute) :
    has (set name value attributes) other = (decide (name = other) || has attributes other) := by
  induction attributes with
  | nil => simp [set]
  | cons a rest ih =>
    by_cases same : a.name = name
    · subst same
      simp [set]
    · simp [set, same, ih, Bool.or_left_comm]

theorem has_set_of_ne {name other : String} (different : name ≠ other) (value : String)
    (attributes : List Attribute) :
    has (set name value attributes) other = has attributes other := by
  simp [has_set, different]

theorem mem_set {name value : String} {a : Attribute} {attributes : List Attribute}
    (member : a ∈ set name value attributes) : a.name = name ∨ a ∈ attributes := by
  induction attributes with
  | nil =>
    rw [set, List.mem_singleton] at member
    exact .inl (by rw [member])
  | cons b rest ih =>
    rw [set] at member
    split at member
    · rename_i same
      rcases List.mem_cons.1 member with rfl | after
      · exact .inl same
      · exact .inr (List.mem_cons_of_mem b after)
    · rcases List.mem_cons.1 member with rfl | after
      · exact .inr List.mem_cons_self
      · exact (ih after).imp_right (List.mem_cons_of_mem b)

@[simp] theorem has_remove_self (attributes : List Attribute) (name : String) :
    has (remove attributes name) name = false := by
  simp [has, remove]

theorem has_remove_of_ne {name other : String} (different : other ≠ name)
    (attributes : List Attribute) :
    has (remove attributes name) other = has attributes other := by
  rw [has, remove, List.any_filter, has]
  congr 1
  funext a
  by_cases asked : a.name = other
  · simp [asked, different]
  · simp [asked]

theorem has_addClass {other : String} (different : other ≠ "class") (className : String)
    (attributes : List Attribute) :
    has (addClass attributes className) other = has attributes other := by
  unfold addClass
  dsimp only
  split
  · rfl
  · split <;> exact has_set_of_ne different.symm _ _

theorem has_appendStyle {other : String} (different : other ≠ "style") (declaration : String)
    (attributes : List Attribute) :
    has (appendStyle attributes declaration) other = has attributes other :=
  has_set_of_ne different.symm _ _

theorem get?_cons (a : Attribute) (rest : List Attribute) (name : String) :
    get? (a :: rest) name = (get? rest name).or (if a.name = name then some a.value else none) := by
  rw [get?, get?, List.reverse_cons, List.find?_append, Option.map_or]
  by_cases same : a.name = name <;> simp [same]

theorem exists_of_get? {name value : String} {attributes : List Attribute}
    (inEffect : get? attributes name = some value) :
    ∃ a ∈ attributes, a.name = name ∧ a.value = value := by
  obtain ⟨a, found, rfl⟩ := Option.map_eq_some_iff.1 inEffect
  have named : a.name = name := by simpa using List.find?_some found
  exact ⟨a, List.mem_reverse.1 (List.mem_of_find?_eq_some found), named, rfl⟩

def InEffect (attributes : List Attribute) (name value : String) : Prop :=
  ∃ before after, attributes = before ++ ⟨name, value⟩ :: after ∧ ∀ a ∈ after, a.name ≠ name

theorem get?_eq_some {attributes : List Attribute} {name value : String} :
    get? attributes name = some value ↔ InEffect attributes name value := by
  rw [get?, Option.map_eq_some_iff]
  constructor
  · rintro ⟨a, found, rfl⟩
    obtain ⟨named, after, before, parts, others⟩ := List.find?_eq_some_iff_append.1 found
    obtain rfl : a.name = name := by simpa using named
    refine ⟨before.reverse, after.reverse, ?_, fun b member => ?_⟩
    · rw [← List.reverse_inj, parts]
      simp
    · simpa using others b (List.mem_reverse.1 member)
  · rintro ⟨before, after, rfl, others⟩
    refine ⟨⟨name, value⟩, List.find?_eq_some_iff_append.2 ⟨by simp, after.reverse,
      before.reverse, by simp, fun b member => ?_⟩, rfl⟩
    simpa using others b (List.mem_reverse.1 member)

theorem get?_eq_none {attributes : List Attribute} {name : String} :
    get? attributes name = none ↔ has attributes name = false := by
  simp [get?, has]

theorem has_eq_isSome (attributes : List Attribute) (name : String) :
    has attributes name = (get? attributes name).isSome := by
  cases value : get? attributes name with
  | none => exact get?_eq_none.1 value
  | some v =>
    rw [Option.isSome_some, ← Bool.not_eq_false]
    intro absent
    cases (get?_eq_none.2 absent).symm.trans value

theorem get?_set_of_ne {name other : String} (different : name ≠ other) (value : String)
    (attributes : List Attribute) :
    get? (set name value attributes) other = get? attributes other := by
  induction attributes with
  | nil => simp [set, get?_cons, different]
  | cons a rest ih =>
    by_cases same : a.name = name
    · simp [set, same, get?_cons, different]
    · simp [set, same, get?_cons, ih]

def Once (name : String) (attributes : List Attribute) : Prop :=
  (attributes.countP fun a => a.name = name) ≤ 1

instance (name : String) (attributes : List Attribute) : Decidable (Once name attributes) :=
  inferInstanceAs (Decidable (_ ≤ _))

theorem once_of_absent {attributes : List Attribute} {name : String}
    (absent : has attributes name = false) : Once name attributes := by
  have none : (attributes.countP fun a => a.name = name) = 0 := by
    rw [List.countP_eq_zero]
    simpa [has] using absent
  rw [Once, none]
  exact Nat.zero_le 1

theorem once_cons {a : Attribute} {rest : List Attribute} {name : String} :
    Once name (a :: rest) ↔
      if a.name = name then has rest name = false else Once name rest := by
  by_cases same : a.name = name
  · simp [Once, same, has]
  · simp [Once, same]

theorem get?_set_self {name : String} {attributes : List Attribute} (once : Once name attributes)
    (value : String) : get? (set name value attributes) name = some value := by
  induction attributes with
  | nil => simp [set, get?]
  | cons a rest ih =>
    rw [once_cons] at once
    by_cases same : a.name = name
    · rw [if_pos same] at once
      simp [set, same, get?_cons, get?_eq_none.2 once]
    · rw [if_neg same] at once
      simp [set, same, get?_cons, ih once]

theorem Once.set {name : String} {attributes : List Attribute} (once : Once name attributes)
    (other value : String) : Once name (Attribute.set other value attributes) := by
  induction attributes with
  | nil => by_cases same : other = name <;> simp [Attribute.set, Once, same]
  | cons a rest ih =>
    rw [once_cons] at once
    by_cases changed : a.name = other
    · simpa only [Attribute.set, if_pos changed, once_cons] using once
    · simp only [Attribute.set, if_neg changed, once_cons]
      by_cases same : a.name = name
      · rw [if_pos same] at once ⊢
        rwa [has_set_of_ne (fun equal => changed (same.trans equal.symm))]
      · rw [if_neg same] at once ⊢
        exact ih once

theorem Once.remove {name : String} {attributes : List Attribute} (once : Once name attributes)
    (other : String) : Once name (Attribute.remove attributes other) :=
  Nat.le_trans (List.Sublist.countP_le List.filter_sublist) once

theorem get?_set_of_repeated {name : String} {attributes : List Attribute}
    (repeated : ¬Once name attributes) (value : String) :
    get? (set name value attributes) name = get? attributes name := by
  induction attributes with
  | nil => exact absurd (Nat.zero_le 1) repeated
  | cons a rest ih =>
    rw [once_cons] at repeated
    by_cases same : a.name = name
    · rw [if_pos same, Bool.not_eq_false, has_eq_isSome] at repeated
      obtain ⟨later, inEffect⟩ := Option.isSome_iff_exists.1 repeated
      simp [set, same, get?_cons, inEffect]
    · rw [if_neg same] at repeated
      simp [set, same, get?_cons, ih repeated]

theorem get?_set (name value other : String) (attributes : List Attribute) :
    get? (set name value attributes) other =
      if name = other ∧ Once name attributes then some value else get? attributes other := by
  by_cases same : name = other
  · subst same
    by_cases once : Once name attributes
    · rw [get?_set_self once, if_pos ⟨rfl, once⟩]
    · rw [get?_set_of_repeated once, if_neg fun both => once both.2]
  · rw [get?_set_of_ne same, if_neg fun both => same both.1]

theorem set_set (name value earlier : String) (attributes : List Attribute) :
    set name value (set name earlier attributes) = set name value attributes := by
  induction attributes with
  | nil => simp [set]
  | cons a rest ih =>
    by_cases same : a.name = name
    · simp [set, same]
    · simp [set, same, ih]

theorem get?_remove_of_ne {name other : String} (different : other ≠ name)
    (attributes : List Attribute) :
    get? (remove attributes name) other = get? attributes other := by
  induction attributes with
  | nil => rfl
  | cons a rest ih =>
    rw [remove, List.filter_cons, ← remove, get?_cons]
    by_cases removed : a.name = name
    · simp [removed, Ne.symm different, ih]
    · simp [removed, get?_cons, ih]

theorem once_append_missing {name : String} {attributes more : List Attribute}
    (once : Once name attributes) (single : Once name more) :
    Once name (attributes ++ more.filter fun a => !has attributes a.name) := by
  rw [Once, List.countP_append]
  cases present : has attributes name with
  | true =>
    have none :
        ((more.filter fun a => !has attributes a.name).countP fun a => a.name = name) = 0 := by
      rw [List.countP_eq_zero]
      intro a member
      obtain ⟨-, missing⟩ := List.mem_filter.1 member
      rw [decide_eq_true_iff]
      rintro rfl
      simp [present] at missing
    rw [none]
    exact once
  | false =>
    have none : (attributes.countP fun a => a.name = name) = 0 := by
      rw [List.countP_eq_zero]
      simpa [has] using present
    rw [none, Nat.zero_add]
    exact Nat.le_trans (List.Sublist.countP_le List.filter_sublist) single

def styleWith (declaration : String) (style : Option String) : String :=
  let present := Text.trim (style.getD "").toList
  String.ofList (if present.isEmpty then declaration.toList
    else if present.getLast? = some ';' then present ++ ' ' :: declaration.toList
    else present ++ ';' :: ' ' :: declaration.toList)

theorem appendStyle_eq (attributes : List Attribute) (declaration : String) :
    appendStyle attributes declaration =
      set "style" (styleWith declaration (get? attributes "style")) attributes :=
  rfl

theorem trim_prefix_styleWith (declaration : String) (style : Option String) :
    Text.trim (style.getD "").toList <+: (styleWith declaration style).toList := by
  rw [styleWith, String.toList_ofList]
  split
  next empty =>
    rw [List.isEmpty_iff.1 empty]
    exact List.nil_prefix
  next => split <;> exact List.prefix_append _ _

theorem suffix_styleWith (declaration : String) (style : Option String) :
    declaration.toList <:+ (styleWith declaration style).toList := by
  rw [styleWith, String.toList_ofList]
  split
  · exact List.suffix_refl _
  · split
    · exact (List.suffix_cons ' ' _).trans (List.suffix_append _ _)
    · exact ((List.suffix_cons ' ' _).trans (List.suffix_cons ';' _)).trans
        (List.suffix_append _ _)

theorem get?_appendStyle {attributes : List Attribute} (once : Once "style" attributes)
    (declaration : String) : ∃ style,
      get? (appendStyle attributes declaration) "style" = some style ∧
        declaration.toList <:+ style.toList :=
  ⟨_, get?_set_self once _, suffix_styleWith declaration _⟩

def classes (attributes : List Attribute) : List (List Char) :=
  Text.words ((get? attributes "class").getD "").toList

theorem Once.addClass {name : String} {attributes : List Attribute} (once : Once name attributes)
    (className : String) : Once name (Attribute.addClass attributes className) := by
  unfold Attribute.addClass
  dsimp only
  split
  · exact once
  · split <;> exact once.set _ _

theorem get?_addClass {other : String} (different : other ≠ "class") (className : String)
    (attributes : List Attribute) :
    get? (addClass attributes className) other = get? attributes other := by
  unfold addClass
  dsimp only
  split
  · rfl
  · split <;> exact get?_set_of_ne different.symm _ _

def classesWith (className : String) (classes : Option String) : String :=
  let present := Text.trim (classes.getD "").toList
  if present.isEmpty then className else String.ofList (present ++ ' ' :: className.toList)

theorem addClass_eq (attributes : List Attribute) (className : String) :
    addClass attributes className =
      if className.toList ∈ classes attributes then attributes
      else set "class" (classesWith className (get? attributes "class")) attributes := by
  rw [addClass, classes, classesWith, Text.words_trim]
  split
  · rfl
  · split <;> rfl

theorem words_classesWith {className : String} (isToken : Text.IsToken className)
    (value : Option String) : Text.words (classesWith className value).toList =
      Text.words (value.getD "").toList ++ [className.toList] := by
  rw [classesWith, ← Text.words_trim (value.getD "").toList]
  split
  next blank =>
    rw [List.isEmpty_iff.1 blank, Text.words_of_isToken isToken]
    rfl
  next =>
    rw [String.toList_ofList, Text.words_append_blank_cons (by decide),
      Text.words_of_isToken isToken]

/-- A class is added at the end of the classes, unless it is among them or the attribute is given
more than once. -/
theorem classes_addClass {className : String} (isToken : Text.IsToken className)
    (attributes : List Attribute) : classes (addClass attributes className) =
      if className.toList ∈ classes attributes ∨ ¬Once "class" attributes then classes attributes
      else classes attributes ++ [className.toList] := by
  rw [addClass_eq]
  by_cases present : className.toList ∈ classes attributes
  · rw [if_pos present, if_pos (.inl present)]
  · rw [if_neg present]
    by_cases once : Once "class" attributes
    · rw [if_neg (by simp [present, once]), classes, get?_set_self once, Option.getD_some,
        words_classesWith isToken]
      rfl
    · rw [if_pos (.inr once), classes, get?_set_of_repeated once]
      rfl

theorem mem_classes_addClass {attributes : List Attribute} (once : Once "class" attributes)
    {className : String} (isToken : Text.IsToken className) {w : List Char} :
    w ∈ classes (addClass attributes className) ↔
      w ∈ classes attributes ∨ w = className.toList := by
  rw [classes_addClass isToken]
  split
  next present =>
    have present := present.resolve_right (not_not.2 once)
    exact ⟨.inl, fun either => either.elim id fun same => same ▸ present⟩
  next => rw [List.mem_append, List.mem_singleton]

theorem addClass_addClass {className : String} (isToken : Text.IsToken className)
    (attributes : List Attribute) :
    addClass (addClass attributes className) className = addClass attributes className := by
  by_cases present : className.toList ∈ classes (addClass attributes className)
  · rw [addClass_eq (addClass attributes className), if_pos present]
  · -- The class is not in effect even now, so there is another occurrence that is.
    rw [classes_addClass isToken] at present
    split at present
    next hidden =>
      have repeated := hidden.resolve_left present
      rw [addClass_eq attributes, if_neg present, addClass_eq, classes,
        get?_set_of_repeated repeated, ← classes, if_neg present, set_set]
    next => simp at present

theorem classes_set_of_ne {name : String} (different : name ≠ "class") (value : String)
    (attributes : List Attribute) : classes (set name value attributes) = classes attributes := by
  rw [classes, get?_set_of_ne different, classes]

/-- An edit takes effect unless the attribute that it changes is given more than once; what is in
effect then stays.  An attribute that is taken away is gone, however often it was given, and adding
a class again changes nothing.  No edit changes what is in effect of other attributes. -/
theorem edits_take_effect (attributes : List Attribute) :
    (∀ name value,
      get? (set name value attributes) name =
        (if Once name attributes then some value else get? attributes name) ∧
      ∀ other ≠ name, get? (set name value attributes) other = get? attributes other) ∧
    (∀ name,
      (take attributes name).1 = get? attributes name ∧
      has (take attributes name).2 name = false ∧
      ∀ other ≠ name, get? (take attributes name).2 other = get? attributes other) ∧
    (∀ className, Text.IsToken className →
      classes (addClass attributes className) =
        (if className.toList ∈ classes attributes ∨ ¬Once "class" attributes then classes attributes
        else classes attributes ++ [className.toList]) ∧
      addClass (addClass attributes className) className = addClass attributes className ∧
      ∀ other ≠ "class", get? (addClass attributes className) other = get? attributes other) ∧
    ∀ declaration,
      (if Once "style" attributes then
        ∃ style, get? (appendStyle attributes declaration) "style" = some style ∧
          Text.trim ((get? attributes "style").getD "").toList <+: style.toList ∧
          declaration.toList <:+ style.toList
      else get? (appendStyle attributes declaration) "style" = get? attributes "style") ∧
      ∀ other ≠ "style",
        get? (appendStyle attributes declaration) other = get? attributes other := by
  refine ⟨fun name value => ⟨?_, fun other different => get?_set_of_ne different.symm value _⟩,
    fun name => ⟨rfl, has_remove_self .., fun other different => get?_remove_of_ne different _⟩,
    fun className isToken => ⟨classes_addClass isToken _, addClass_addClass isToken _,
      fun other different => get?_addClass different className _⟩,
    fun declaration => ⟨?_, fun other different => get?_set_of_ne different.symm _ _⟩⟩
  · simp [get?_set]
  · rw [appendStyle_eq]
    split
    next once =>
      exact ⟨_, get?_set_self once _, trim_prefix_styleWith .., suffix_styleWith ..⟩
    next repeated => exact get?_set_of_repeated repeated _

theorem edits_take_effect_once :
    let attributes : List Attribute := [⟨"class", "card"⟩, ⟨"style", " color: red "⟩]
    get? (set "style" "top: 0" attributes) "style" = some "top: 0" ∧
    classes (addClass attributes "sc-1") = ["card".toList, "sc-1".toList] ∧
    addClass (addClass attributes "sc-1") "sc-1" = addClass attributes "sc-1" ∧
    ∃ style, get? (appendStyle attributes "display: none;") "style" = some style ∧
      "color: red".toList <+: style.toList ∧ "display: none;".toList <:+ style.toList := by
  intro attributes
  have unblank : ("sc-1".toList.all fun c => !Text.isBlank c) = true := by decide
  have isToken : Text.IsToken "sc-1" :=
    ⟨by decide, fun c member => by simpa using List.all_eq_true.1 unblank c member⟩
  obtain ⟨sets, -, adds, appends⟩ := edits_take_effect attributes
  obtain ⟨added, again, -⟩ := adds "sc-1" isToken
  have once : Once "style" attributes := by decide
  have appended := (appends "display: none;").1
  have trimmed : Text.trim ((get? attributes "style").getD "").toList = "color: red".toList := by
    decide
  rw [if_pos once, trimmed] at appended
  refine ⟨(sets "style" "top: 0").1.trans (if_pos once), added.trans ?_, again, appended⟩
  decide

/-- Of an attribute that is given twice the first occurrence is changed and the second one stays in
effect. -/
theorem repeated_not_edited :
    get? (set "a" "3" [⟨"a", "1"⟩, ⟨"a", "2"⟩]) "a" = some "2" ∧
    classes (addClass [⟨"class", "x"⟩, ⟨"class", "y"⟩] "z") = [['y']] ∧
    get? (appendStyle [⟨"style", "p;"⟩, ⟨"style", "q;"⟩] "r;") "style" = some "q;" := by
  decide

end ComponentCompiler.Markup.Attribute
