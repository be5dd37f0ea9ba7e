import ComponentCompiler.Proofs.Style.Piece

namespace ComponentCompiler.Style

open Text (isAsciiBlank trim trimStart)

/-! ## Passing over comments and strings -/

def before (xs : List Char) (cut : List Char × List Char) : List Char × List Char :=
  (xs ++ cut.1, cut.2)

section Passing

variable {β : Type} {scan : Inside → List Char → β} {kept : List Char → β → β}

structure PassesComments (scan : Inside → List Char → β) (kept : List Char → β → β) : Prop where
  kept_kept : ∀ xs ys b, kept xs (kept ys b) = kept (xs ++ ys) b
  start : ∀ cs, scan .plain ('/' :: '*' :: cs) = kept ['/', '*'] (scan .comment cs)
  inside : ∀ c cs, (c = '*' → cs.head? ≠ some '/') →
    scan .comment (c :: cs) = kept [c] (scan .comment cs)
  stop : ∀ cs, scan .comment ('*' :: '/' :: cs) = kept ['*', '/'] (scan .plain cs)

theorem PassesComments.pass (passes : PassesComments scan kept) {text : List Char}
    (closed : isCommentText text = true) (rest : List Char) :
    scan .plain ((Piece.comment text).chars ++ rest) =
      kept (Piece.comment text).chars (scan .plain rest) := by
  have within : scan .comment (text ++ '*' :: '/' :: rest) =
      kept (text ++ ['*', '/']) (scan .plain rest) := by
    fun_induction isCommentText text with
    | case1 => exact passes.stop rest
    | case2 => cases closed
    | case3 c cs other ih =>
      rw [List.cons_append, passes.inside, ih closed, passes.kept_kept]
      · rfl
      · rintro rfl first
        cases cs with
        | nil => cases first
        | cons d cs =>
          cases first
          exact other cs rfl rfl
  have opened := passes.start (text ++ '*' :: '/' :: rest)
  rw [within, passes.kept_kept] at opened
  simpa [Piece.chars] using opened

structure PassesStrings (scan : Inside → List Char → β) (kept : List Char → β → β) : Prop
    extends PassesComments scan kept where
  quote : ∀ q cs, isQuote q = true → scan .plain (q :: cs) = kept [q] (scan (.quoted q) cs)
  escaped : ∀ q c cs, scan (.quoted q) ('\\' :: c :: cs) = kept ['\\', c] (scan (.quoted q) cs)
  quoted : ∀ q c cs, c ≠ '\\' →
    scan (.quoted q) (c :: cs) = kept [c] (scan (if c = q then .plain else .quoted q) cs)

theorem PassesStrings.passString (passes : PassesStrings scan kept) {quote : Char}
    {text : List Char} (isQuoted : isQuote quote = true) (closed : isStringText quote text = true)
    (rest : List Char) :
    scan .plain ((Piece.string quote text).chars ++ rest) =
      kept (Piece.string quote text).chars (scan .plain rest) := by
  have solid : quote ≠ '\\' := by
    rintro rfl
    cases isQuoted
  have within : scan (.quoted quote) (text ++ quote :: rest) =
      kept (text ++ [quote]) (scan .plain rest) := by
    fun_induction isStringText quote text with
    | case1 => rw [List.nil_append, passes.quoted _ _ _ solid, if_pos rfl]; rfl
    | case2 c cs ih =>
      rw [List.cons_append, List.cons_append, passes.escaped, ih closed, passes.kept_kept]
      rfl
    | case3 c cs _ ih =>
      simp only [Bool.and_eq_true, decide_eq_true_eq] at closed
      rw [List.cons_append, passes.quoted _ _ _ closed.1.2, if_neg closed.1.1, ih closed.2,
        passes.kept_kept]
      rfl
  have opened := passes.quote quote (text ++ quote :: rest) isQuoted
  rw [within, passes.kept_kept] at opened
  simpa [Piece.chars] using opened

end Passing

theorem passes_gap : PassesComments gap before where
  kept_kept := by simp [before]
  start cs := by simp [gap, keep, before]
  inside c cs other := by
    rw [gap.eq_3]
    · rfl
    · rintro cs' rfl rfl
      exact other rfl rfl
  stop cs := by simp [gap, keep, before]

theorem passes_prelude (parens : Nat) :
    PassesStrings (fun inside => prelude? inside parens) fun xs => Option.map (before xs) where
  kept_kept xs ys b := by
    rw [Option.map_map]
    congr 1
    funext cut
    simp [before]
  start cs := by rw [prelude?]; rfl
  inside c cs other := by
    rw [prelude?.eq_3]
    · rfl
    · rintro cs' rfl rfl
      exact other rfl rfl
  stop cs := by rw [prelude?]; rfl
  quote q cs isQuoted := by
    rw [prelude?.eq_7, if_pos isQuoted]
    · rfl
    · rintro cs' rfl rfl
      cases isQuoted
  escaped q c cs := by rw [prelude?]; rfl
  quoted q c cs solid := by
    rw [prelude?.eq_5]
    · rfl
    · intro c' cs' same
      exact absurd same solid

theorem passes_block (depth : Nat) :
    PassesStrings (fun inside => block inside depth) before where
  kept_kept := by simp [before]
  start cs := by rw [block]; rfl
  inside c cs other := by
    rw [block.eq_3]
    · rfl
    · rintro cs' rfl rfl
      exact other rfl rfl
  stop cs := by rw [block]; rfl
  quote q cs isQuoted := by
    rw [block.eq_7, if_pos isQuoted]
    · rfl
    · rintro cs' rfl rfl
      cases isQuoted
  escaped q c cs := by rw [block]; rfl
  quoted q c cs solid := by
    rw [block.eq_5]
    · rfl
    · intro c' cs' same
      exact absurd same solid

/-! ## Items -/

/-- The braces and semicolons of a prelude stand between parentheses, and all parentheses that are
opened are closed; `parens` of them are open before. -/
def isPreludeFrom (parens : Nat) : List Piece → Bool
  | [] => parens = 0
  | .char c :: ps =>
    if c = '(' then isPreludeFrom (parens + 1) ps
    else if c = ')' then isPreludeFrom (parens - 1) ps
    else !(parens = 0 && (c = '\x7b' || c = ';')) && isPreludeFrom parens ps
  | _ :: ps => isPreludeFrom parens ps

def isBalancedFrom (depth : Nat) : List Piece → Bool
  | [] => depth = 0
  | .char c :: ps =>
    if c = '\x7b' then isBalancedFrom (depth + 1) ps
    else if c = '\x7d' then depth ≠ 0 && isBalancedFrom (depth - 1) ps
    else isBalancedFrom depth ps
  | _ :: ps => isBalancedFrom depth ps

def startsPrelude : Piece → Bool
  | .char c => !isAsciiBlank c && c ≠ '\x7d'
  | .comment _ => false
  | _ => true

structure Prelude (escapes : Bool) where
  pieces : List Piece
  closed : areClosed escapes pieces = true := by decide
  ended : isPreludeFrom 0 pieces = true := by decide
  started : ∀ p ∈ pieces.head?, startsPrelude p = true := by decide

structure Block where
  pieces : List Piece
  closed : areClosed false pieces = true := by decide
  balanced : isBalancedFrom 0 pieces = true := by decide

def isGapPiece : Piece → Bool
  | .char c => isAsciiBlank c
  | .comment text => isCommentText text
  | _ => false

def Prelude.text {escapes : Bool} (head : Prelude escapes) : List Char :=
  pieceChars head.pieces

def Block.text (body : Block) : List Char :=
  '\x7b' :: (pieceChars body.pieces ++ ['\x7d'])

def Prelude.isAt {escapes : Bool} (head : Prelude escapes) : Bool :=
  (trimStart head.text).head? = some '@'

inductive Item (escapes : Bool)
  | gap (pieces : List Piece) (isGap : ∀ p ∈ pieces, isGapPiece p = true)
  | brace
  | statement (head : Prelude escapes)
  | atBlock (head : Prelude escapes) (body : Block) (isAt : head.isAt = true)
  | rule (head : Prelude escapes) (body : Block) (notAt : head.isAt = false)

namespace Item

variable {escapes : Bool}

def text : Item escapes → List Char
  | gap pieces _ => pieceChars pieces
  | brace => ['\x7d']
  | statement head => head.text ++ [';']
  | atBlock head body _ => head.text ++ body.text
  | rule head body _ => head.text ++ body.text

/-- What scoping should make of an item: a rule gets its selectors put under the class, and all else
stays. -/
def image (className : List Char) : Item escapes → List Char
  | rule head body _ => scopeSelectors className (trim head.text) ++ ' ' :: body.text
  | item => item.text

def isGap : Item escapes → Bool
  | gap _ _ => true
  | _ => false

theorem length_text_pos (item : Item escapes) (solid : item.isGap = false) :
    0 < item.text.length := by
  rw [List.length_pos_iff]
  cases item with
  | gap pieces isGap => cases solid
  | _ => simp [text, Block.text]

end Item

/-! ## Reading items -/

theorem head?_pieceChars {escapes : Bool} {ps : List Piece} {rest : List Char}
    (closed : areClosed escapes ps = true) (other : ps.head? ≠ some (.char '*'))
    (next : rest.head? ≠ some '*') : (pieceChars ps ++ rest).head? ≠ some '*' := by
  cases ps with
  | nil => exact next
  | cons p ps =>
    cases p with
    | char c => simpa [pieceChars, Piece.chars] using other
    | escape c => simp [pieceChars, Piece.chars]
    | string q text =>
      have isQuoted := (closed_cons closed).1
      simp only [Piece.isClosed, Bool.and_eq_true] at isQuoted
      have same : (pieceChars (.string q text :: ps) ++ rest).head? = some q := rfl
      rw [same]
      rintro ⟨rfl⟩
      cases isQuoted.1
    | comment text => simp [pieceChars, Piece.chars]

theorem char_of_closed {escapes : Bool} {c : Char} {ps : List Piece} {rest : List Char}
    (closed : areClosed escapes (.char c :: ps) = true) (next : rest.head? ≠ some '*') :
    isQuote c = false ∧ ∀ cs, c = '/' → pieceChars ps ++ rest = '*' :: cs → False := by
  obtain ⟨first, apart, others⟩ := closed_cons closed
  simp only [Piece.isClosed, Bool.and_eq_true, Bool.not_eq_true'] at first
  refine ⟨first.1, fun cs slash starts => ?_⟩
  exact head?_pieceChars others (apart (by rw [slash])) next (by rw [starts]; rfl)

theorem gap_append {ps : List Piece} (isGap : ∀ p ∈ ps, isGapPiece p = true) (rest : List Char) :
    gap .plain (pieceChars ps ++ rest) = before (pieceChars ps) (gap .plain rest) := by
  induction ps with
  | nil => rfl
  | cons p ps ih =>
    obtain ⟨first, others⟩ := List.forall_mem_cons.1 isGap
    rw [pieceChars_cons, List.append_assoc]
    cases p with
    | char c =>
      have blank : isAsciiBlank c = true := first
      have solid : c ≠ '/' := by
        rintro rfl
        cases blank
      simp only [Piece.chars, List.singleton_append]
      rw [gap.eq_5 _ _ _ (fun _ slash => absurd slash solid) (fun _ inside => by cases inside)
        (fun inside => by cases inside), if_pos blank, ih others]
      rfl
    | comment text => rw [passes_gap.pass first, ih others, passes_gap.kept_kept]
    | escape c => cases first
    | string q text => cases first

theorem prelude?_append {ps : List Piece} {parens : Nat} {c : Char}
    (closed : areClosed false ps = true) (ended : isPreludeFrom parens ps = true)
    (stops : c = '\x7b' ∨ c = ';') (rest : List Char) :
    prelude? .plain parens (pieceChars ps ++ c :: rest) = some (pieceChars ps, c :: rest) := by
  have next : (c :: rest).head? ≠ some '*' := by
    rintro ⟨rfl⟩
    simp at stops
  induction ps generalizing parens with
  | nil =>
    obtain rfl : parens = 0 := by simpa [isPreludeFrom] using ended
    rcases stops with rfl | rfl
    · simp [pieceChars, prelude?, isQuote]
    · simp [pieceChars, prelude?, isQuote]
  | cons p ps ih =>
    obtain ⟨first, -, others⟩ := closed_cons closed
    rw [pieceChars_cons, List.append_assoc]
    cases p with
    | char d =>
      obtain ⟨notQuote, apart⟩ := char_of_closed closed next
      simp only [Piece.chars, List.singleton_append]
      rw [prelude?.eq_7 _ _ _ apart, notQuote, if_neg Bool.false_ne_true]
      unfold isPreludeFrom at ended
      by_cases opens : d = '('
      · rw [if_pos opens] at ended ⊢
        rw [ih others ended]
        rfl
      rw [if_neg opens] at ended ⊢
      by_cases closes : d = ')'
      · rw [if_pos closes] at ended ⊢
        rw [ih others ended]
        rfl
      rw [if_neg closes, Bool.and_eq_true, Bool.not_eq_true'] at ended
      rw [if_neg closes, ended.1, if_neg Bool.false_ne_true, ih others ended.2]
      rfl
    | escape d => cases first
    | string q text =>
      simp only [Piece.isClosed, Bool.and_eq_true] at first
      refine ((passes_prelude parens).passString first.1 first.2 _).trans ?_
      rw [ih others ended]
      rfl
    | comment text =>
      refine ((passes_prelude parens).pass first _).trans ?_
      rw [ih others ended]
      rfl

theorem block_append {ps : List Piece} {depth : Nat} {rest : List Char}
    (closed : areClosed false ps = true) (balanced : isBalancedFrom depth ps = true) :
    block .plain (depth + 1) (pieceChars ps ++ '\x7d' :: rest) =
      (pieceChars ps ++ ['\x7d'], rest) := by
  have next : ('\x7d' :: rest).head? ≠ some '*' := by simp
  induction ps generalizing depth with
  | nil =>
    obtain rfl : depth = 0 := by simpa [isBalancedFrom] using balanced
    simp [pieceChars, block, isQuote]
  | cons p ps ih =>
    obtain ⟨first, -, others⟩ := closed_cons closed
    rw [pieceChars_cons, List.append_assoc]
    cases p with
    | char d =>
      obtain ⟨notQuote, apart⟩ := char_of_closed closed next
      simp only [Piece.chars, List.singleton_append]
      rw [block.eq_7 _ _ _ apart, notQuote, if_neg Bool.false_ne_true]
      unfold isBalancedFrom at balanced
      by_cases opens : d = '\x7b'
      · rw [if_pos opens] at balanced ⊢
        rw [ih others balanced]
        rfl
      rw [if_neg opens] at balanced ⊢
      by_cases closes : d = '\x7d'
      · rw [if_pos closes, Bool.and_eq_true, decide_eq_true_eq] at balanced
        obtain ⟨outer, rfl⟩ := Nat.exists_eq_succ_of_ne_zero balanced.1
        rw [if_pos closes, if_neg (by omega)]
        exact congrArg (keep d) (ih others balanced.2)
      rw [if_neg closes] at balanced ⊢
      rw [ih others balanced]
      rfl
    | escape d => cases first
    | string q text =>
      simp only [Piece.isClosed, Bool.and_eq_true] at first
      refine ((passes_block (depth + 1)).passString first.1 first.2 _).trans ?_
      rw [ih others balanced]
      simp [before]
    | comment text =>
      refine ((passes_block (depth + 1)).pass first _).trans ?_
      rw [ih others balanced]
      simp [before]

theorem Block.block_text (body : Block) (rest : List Char) :
    block .plain 0 (body.text ++ rest) = (body.text, rest) := by
  have opened : block .plain 0 (body.text ++ rest) =
      keep '\x7b' (block .plain 1 (pieceChars body.pieces ++ '\x7d' :: rest)) := by
    rw [Block.text, List.cons_append, List.append_assoc, block.eq_7]
    · rfl
    · rintro cs ⟨⟩
  rw [opened, block_append body.closed body.balanced]
  rfl

theorem gap_of_solid {d : Char} {ds : List Char} (solid : isAsciiBlank d = false)
    (apart : d = '/' → ds.head? ≠ some '*') : gap .plain (d :: ds) = ([], d :: ds) := by
  rw [gap.eq_5 _ _ _ (fun cs slash starts => apart slash (by rw [starts]; rfl))
    (fun _ inside => by cases inside) (fun inside => by cases inside), solid]
  rfl

def StartsItem (cs : List Char) : Prop :=
  ∃ d ds, cs = d :: ds ∧ isAsciiBlank d = false ∧ d ≠ '\x7d' ∧ (d = '/' → ds.head? ≠ some '*')

theorem Prelude.startsItem (head : Prelude false) {c : Char} (stops : c = '\x7b' ∨ c = ';')
    (rest : List Char) : StartsItem (head.text ++ c :: rest) := by
  have next : (c :: rest).head? ≠ some '*' := by
    rintro ⟨rfl⟩
    simp at stops
  obtain ⟨pieces, closed, -, started⟩ := head
  cases pieces with
  | nil =>
    refine ⟨c, rest, rfl, ?_⟩
    rcases stops with rfl | rfl
    · exact ⟨rfl, by decide, fun slash => absurd slash (by decide)⟩
    · exact ⟨rfl, by decide, fun slash => absurd slash (by decide)⟩
  | cons p ps =>
    have first := started p rfl
    cases p with
    | char d =>
      simp only [startsPrelude, Bool.and_eq_true, Bool.not_eq_true', decide_eq_true_eq] at first
      refine ⟨d, pieceChars ps ++ c :: rest, rfl, first.1, first.2, fun slash => ?_⟩
      obtain ⟨-, apart, others⟩ := closed_cons closed
      exact head?_pieceChars others (apart (by rw [slash])) next
    | escape d => cases (closed_cons closed).1
    | string q text =>
      have isQuoted := (closed_cons closed).1
      simp only [Piece.isClosed, Bool.and_eq_true, isQuote, Bool.or_eq_true,
        decide_eq_true_eq] at isQuoted
      refine ⟨q, text ++ [q] ++ (pieceChars ps ++ c :: rest), by
        simp [Prelude.text, pieceChars, Piece.chars], ?_⟩
      rcases isQuoted.1 with rfl | rfl
      · exact ⟨rfl, by decide, fun slash => absurd slash (by decide)⟩
      · exact ⟨rfl, by decide, fun slash => absurd slash (by decide)⟩
    | comment text => cases first

/-! ## Scoping items -/

section Scoping

variable {className : List Char} {bound : Nat}

theorem scopeItems_gap {ps : List Piece} (isGap : ∀ p ∈ ps, isGapPiece p = true)
    (rest : List Char) :
    scopeItems className (bound + 1) (pieceChars ps ++ rest) =
      pieceChars ps ++ scopeItems className (bound + 1) rest := by
  simp only [scopeItems, gap_append isGap, before, List.append_assoc]

theorem scopeItems_brace (rest : List Char) :
    scopeItems className (bound + 1) ('\x7d' :: rest) =
      '\x7d' :: scopeItems className bound rest := by
  rw [scopeItems, gap_of_solid rfl fun slash => absurd slash (by decide)]
  rfl

theorem StartsItem.scopeItems {cs head tail : List Char} (starts : StartsItem cs)
    (found : prelude? .plain 0 cs = some (head, tail)) :
    scopeItems className (bound + 1) cs =
      if tail.head? = some ';' then head ++ ';' :: scopeItems className bound tail.tail
      else scopeRule className head (block .plain 0 tail).1 ++
        scopeItems className bound (block .plain 0 tail).2 := by
  obtain ⟨d, ds, rfl, solid, noBrace, apart⟩ := starts
  rw [Style.scopeItems, gap_of_solid solid apart]
  simp only [List.nil_append, if_neg noBrace, found]

variable (head : Prelude false) (body : Block) (rest : List Char)

theorem scopeItems_statement :
    scopeItems className (bound + 1) (head.text ++ ';' :: rest) =
      head.text ++ ';' :: scopeItems className bound rest := by
  have found : prelude? .plain 0 (head.text ++ ';' :: rest) = some (head.text, ';' :: rest) :=
    prelude?_append head.closed head.ended (.inr rfl) rest
  rw [(head.startsItem (.inr rfl) rest).scopeItems found, if_pos (by rfl), List.tail_cons]

theorem scopeItems_block :
    scopeItems className (bound + 1) (head.text ++ (body.text ++ rest)) =
      scopeRule className head.text body.text ++ scopeItems className bound rest := by
  have opened : body.text ++ rest = '\x7b' :: (pieceChars body.pieces ++ '\x7d' :: rest) := by
    simp [Block.text]
  have starts := head.startsItem (.inl rfl) (pieceChars body.pieces ++ '\x7d' :: rest)
  have found : prelude? .plain 0 (head.text ++ (body.text ++ rest)) =
      some (head.text, body.text ++ rest) := by
    rw [opened]
    exact prelude?_append head.closed head.ended (.inl rfl) _
  rw [← opened] at starts
  rw [starts.scopeItems found, if_neg (by simp [opened]), body.block_text]

theorem Item.scopeItems (item : Item false) (solid : item.isGap = false) (rest : List Char) :
    scopeItems className (bound + 1) (item.text ++ rest) =
      item.image className ++ scopeItems className bound rest := by
  cases item with
  | gap pieces isGap => cases solid
  | brace => exact scopeItems_brace rest
  | statement head =>
    rw [text, List.append_assoc, List.singleton_append, scopeItems_statement]
    simp [image, text]
  | atBlock head body isAt =>
    rw [text, List.append_assoc, scopeItems_block, scopeRule, if_pos (of_decide_eq_true isAt)]
    rfl
  | rule head body notAt =>
    rw [text, List.append_assoc, scopeItems_block, scopeRule, if_neg (of_decide_eq_false notAt)]
    rfl

end Scoping

theorem scopeItems_items {className : List Char} (items : List (Item false)) {bound : Nat}
    (enough : (items.flatMap Item.text).length ≤ bound) :
    scopeItems className bound (items.flatMap Item.text) =
      items.flatMap (Item.image className) := by
  -- The bound counts items other than gaps, and each of these has a character.
  induction items generalizing bound with
  | nil => cases bound <;> rfl
  | cons item items ih =>
    simp only [List.flatMap_cons, List.length_append] at enough ⊢
    cases solid : item.isGap with
    | false =>
      have taken := item.length_text_pos solid
      obtain ⟨bound, rfl⟩ := Nat.exists_eq_add_one_of_ne_zero (n := bound) (by omega)
      rw [item.scopeItems solid, ih (by omega)]
    | true =>
      obtain ⟨pieces, isGap⟩ | _ | _ | _ | _ := item <;> try cases solid
      cases bound with
      | zero =>
        have empty : pieceChars pieces = [] :=
          List.eq_nil_of_length_eq_zero (Nat.le_zero.1 (Nat.le_trans (Nat.le_add_right _ _) enough))
        simp only [Item.text, Item.image, empty, List.nil_append]
        exact ih (Nat.le_trans (Nat.le_add_left _ _) enough)
      | succ bound =>
        rw [Item.text, scopeItems_gap isGap, ih (Nat.le_trans (Nat.le_add_left _ _) enough)]
        rfl

/-! ## Sheets -/

theorem scopeChars_items (className : List Char) (undotted : className.head? ≠ some '.')
    (items more : List (Item false)) :
    scopeChars className (items.flatMap Item.text) = items.flatMap (Item.image className) ∧
      scopeChars className (items.flatMap Item.text ++ more.flatMap Item.text) =
        scopeChars className (items.flatMap Item.text) ++
          scopeChars className (more.flatMap Item.text) := by
  have bare : className.dropWhile (· = '.') = className := by
    cases className with
    | nil => rfl
    | cons c cs =>
      refine List.dropWhile_cons_of_neg ?_
      simpa using undotted
  have whole (items : List (Item false)) :
      scopeChars className (items.flatMap Item.text) = items.flatMap (Item.image className) := by
    rw [scopeChars, bare]
    exact scopeItems_items items (Nat.le_refl _)
  refine ⟨whole items, ?_⟩
  rw [← List.flatMap_append, whole, whole, whole, List.flatMap_append]

def mixedSheet : List (Item false) := [
  .gap [.comment " a \x7b ".toList, .char '\n'] (by decide),
  .statement
    { pieces := "@import url(".toList.map .char ++ [.string '"' "a;b".toList, .char ')'] },
  .atBlock { pieces := "@media (x) ".toList.map .char }
    { pieces := " a \x7b\x7d ".toList.map .char } (by decide),
  .brace,
  .rule
    { pieces := "a[b=".toList.map .char ++
        [.string '\'' "\x7b\\\"".toList, .char ']', .comment "\x7b".toList] ++
        ", :is(p, \x7b;\x7d) ".toList.map .char }
    { pieces := "content:".toList.map .char ++ [.string '"' "\x7d".toList] } (by decide)]

theorem scopeChars_mixedSheet :
    scopeChars "c".toList (mixedSheet.flatMap Item.text) =
      ("/* a \x7b */\n@import url(\"a;b\");@media (x) \x7b a \x7b\x7d \x7d\x7d" ++
        ".c a[b='\x7b\\\"']/*\x7b*/, .c :is(p, \x7b;\x7d) \x7bcontent:\"\x7d\"\x7d").toList := by
  rw [(scopeChars_items _ (by decide) mixedSheet []).1]
  decide +kernel

def quotedClass : Prelude true :=
  { pieces := [.char '.', .char 'a', .escape '\'', .char 'b'] }

/-- The escaped quote is taken for the start of a string, which hides the block. -/
theorem exists_unscoped_rule :
    ∃ (head : Prelude true) (body : Block) (notAt : head.isAt = false),
      (∀ c ∈ head.text, c ∉ ['\x7b', ';', '(', ')']) ∧ body.pieces = [] ∧
        scopeChars ['c'] (Item.rule head body notAt).text ≠
          (Item.rule head body notAt).image ['c'] := by
  have unmarked : ∀ c ∈ quotedClass.text, c ∉ ['\x7b', ';', '(', ')'] := by
    simp [quotedClass, Prelude.text, pieceChars, Piece.chars]
  refine ⟨quotedClass, { pieces := [] }, by decide, unmarked, rfl, ?_⟩
  have image : (Item.rule quotedClass { pieces := [] } (by decide)).image ['c'] =
      ".c .a\\'b \x7b\x7d".toList := by decide +kernel
  rw [image]
  decide

end ComponentCompiler.Style
