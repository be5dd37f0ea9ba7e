import ComponentCompiler.Proofs.Text.WholeWords
import ComponentCompiler.Script.Occurrence
import Mathlib.Tactic.SplitIfs

namespace ComponentCompiler.Script

variable {cs rest : List Char}

theorem skipGap_length {gap : Gap} {ended ended' : Bool}
    (skipped : skipGap gap ended cs = some (ended', rest)) : rest.length ≤ cs.length := by
  fun_induction skipGap gap ended cs <;> grind

theorem hexDigits?_length {count n m : Nat} (read : hexDigits? count n cs = some (m, rest)) :
    rest.length ≤ cs.length := by
  fun_induction hexDigits? count n cs <;> grind [Option.bind_eq_some_iff]

theorem codePoint?_length {n : Nat} (read : codePoint? cs = some (n, rest)) :
    rest.length ≤ cs.length := by
  rw [codePoint?.eq_def] at read
  split at read
  next braced =>
    have shorter : (braced.dropWhile (· ≠ '\x7d')).length ≤ braced.length :=
      (List.dropWhile_suffix _).length_le
    grind
  next => exact hexDigits?_length read

theorem wordRest?_length {isPart : Char → Bool} {bound : Nat} {text : List Char} {escaped : Bool}
    (read : wordRest? isPart bound cs = some (text, escaped, rest)) : rest.length ≤ cs.length := by
  fun_induction wordRest? isPart bound cs generalizing text escaped rest with
  | case3 isPart bound cs n after escape part ih =>
    obtain ⟨⟨_, _, _⟩, further, same⟩ := Option.map_eq_some_iff.1 read
    cases same
    have := codePoint?_length escape
    have := ih further
    grind
  | case6 isPart bound c cs _ part ih =>
    obtain ⟨⟨_, _, _⟩, further, same⟩ := Option.map_eq_some_iff.1 read
    cases same
    have := ih further
    grind
  | _ => grind

theorem wordRest?_length_lt {isPart : Char → Bool} {bound : Nat} {c : Char} {text : List Char}
    {escaped : Bool} (starts : isPart c = true ∨ c = '\\')
    (read : wordRest? isPart (bound + 1) (c :: cs) = some (text, escaped, rest)) :
    rest.length < (c :: cs).length := by
  rw [wordRest?.eq_def] at read
  split at read
  next => grind
  next => grind
  next escaped same =>
    split at read
    next code =>
      have := codePoint?_length code
      split_ifs at read
      obtain ⟨⟨_, _, _⟩, further, same⟩ := Option.map_eq_some_iff.1 read
      have := wordRest?_length further
      grind
    next => cases read
  next same =>
    cases same
    split_ifs at read
    · obtain ⟨⟨_, _, _⟩, further, same⟩ := Option.map_eq_some_iff.1 read
      have := wordRest?_length further
      grind
    · grind

theorem digitsRest?_length {isDigit : Char → Bool} (read : digitsRest? isDigit cs = some rest) :
    rest.length ≤ cs.length := by
  fun_induction digitsRest? isDigit cs <;> grind

theorem digits?_length {isDigit : Char → Bool} (read : digits? isDigit cs = some rest) :
    rest.length ≤ cs.length := by
  rw [digits?.eq_def] at read
  split at read
  next =>
    split_ifs at read
    exact Nat.le_succ_of_le (digitsRest?_length read)
  next => cases read

theorem exponent?_length (read : exponent? cs = some rest) : rest.length ≤ cs.length := by
  rw [exponent?.eq_def] at read
  split at read
  next =>
    split_ifs at read
    · split at read <;> exact Nat.le_trans (digits?_length read) (by simp; try omega)
    · cases read
      exact Nat.le_refl _
  next =>
    cases read
    exact Nat.le_refl _

theorem numberTail?_length (read : numberTail? cs = some rest) : rest.length ≤ cs.length := by
  rw [numberTail?.eq_def] at read
  split at read
  next =>
    cases read
    exact Nat.le_succ _
  next =>
    split_ifs at read
    · obtain ⟨_, digits, tail⟩ := Option.bind_eq_some_iff.1 read
      have := digitsRest?_length digits
      have := exponent?_length tail
      grind
    · exact Nat.le_succ_of_le (exponent?_length read)
  next =>
    cases read
    exact Nat.zero_le _
  next => exact exponent?_length read

theorem bigTail_length (cs : List Char) : (bigTail cs).length ≤ cs.length := by
  rw [bigTail.eq_def]
  split
  next => exact Nat.le_succ _
  next => exact Nat.le_refl _

theorem zeroNumber?_length (read : zeroNumber? cs = some rest) : rest.length ≤ cs.length := by
  have marked {isDigit : Char → Bool} {c : Char} {more : List Char}
      (read : (digits? isDigit more).map bigTail = some rest) : rest.length ≤ (c :: more).length := by
    obtain ⟨tail, digits, rfl⟩ := Option.map_eq_some_iff.1 read
    exact Nat.le_succ_of_le (Nat.le_trans (bigTail_length tail) (digits?_length digits))
  rw [zeroNumber?.eq_def] at read
  split at read
  next c cs =>
    have shorter : ((c :: cs).dropWhile Text.isAsciiDigit).length ≤ (c :: cs).length :=
      (List.dropWhile_suffix _).length_le
    split_ifs at read
    · exact marked read
    · exact marked read
    · exact marked read
    · split at read <;> cases read
      exact shorter
    · split at read
      next => cases read
      next => cases read
      next => exact Nat.le_trans (numberTail?_length read) shorter
    · exact numberTail?_length read
  next =>
    cases read
    exact Nat.le_refl _

theorem number?_length (read : number? cs = some rest) : rest.length ≤ cs.length := by
  rw [number?.eq_def] at read
  obtain ⟨more, front, last⟩ := Option.bind_eq_some_iff.1 read
  have whole : more.length ≤ cs.length := by
    split at front
    next => exact Nat.le_succ_of_le (zeroNumber?_length front)
    next =>
      obtain ⟨_, digits, tail⟩ := Option.bind_eq_some_iff.1 front
      exact Nat.le_succ_of_le (Nat.le_trans (exponent?_length tail) (digits?_length digits))
    next =>
      obtain ⟨_, digits, tail⟩ := Option.bind_eq_some_iff.1 front
      exact Nat.le_trans (numberTail?_length tail) (digits?_length digits)
  split at last
  next =>
    split_ifs at last
    cases last
    exact whole
  next =>
    cases last
    exact whole

theorem escape?_length (read : escape? cs = some rest) : rest.length ≤ cs.length := by
  rw [escape?.eq_def] at read
  split at read
  next => cases read
  next =>
    obtain ⟨⟨_, _⟩, digits, rfl⟩ := Option.map_eq_some_iff.1 read
    exact Nat.le_succ_of_le (hexDigits?_length digits)
  next =>
    obtain ⟨⟨_, _⟩, code, rfl⟩ := Option.map_eq_some_iff.1 read
    exact Nat.le_succ_of_le (codePoint?_length code)
  next =>
    cases read
    exact Nat.le_add_right rest.length 2
  next =>
    cases read
    exact Nat.le_succ _

theorem string?_length {quote : Char} {bound : Nat} (read : string? quote bound cs = some rest) :
    rest.length ≤ cs.length := by
  induction bound generalizing cs with
  | zero => cases read
  | succ bound ih =>
    cases cs with
    | nil => cases read
    | cons c cs =>
      rw [string?] at read
      split_ifs at read
      · cases read
        exact Nat.le_succ _
      · obtain ⟨_, escaped, further⟩ := Option.bind_eq_some_iff.1 read
        exact Nat.le_succ_of_le (Nat.le_trans (ih further) (escape?_length escaped))
      · exact Nat.le_succ_of_le (ih read)

theorem templatePiece?_length {bound : Nat} {ends valid : Bool}
    (read : templatePiece? bound cs = some (ends, valid, rest)) : rest.length ≤ cs.length := by
  induction bound generalizing cs ends valid with
  | zero => cases read
  | succ bound ih =>
    cases cs with
    | nil => cases read
    | cons c cs =>
      rw [templatePiece?] at read
      split_ifs at read
      · cases read
        exact Nat.le_succ _
      · split at read
        next escaped =>
          obtain ⟨⟨_, _, _⟩, further, same⟩ := Option.map_eq_some_iff.1 read
          cases same
          exact Nat.le_succ_of_le (Nat.le_trans (ih further) (escape?_length escaped))
        next =>
          obtain ⟨⟨_, _, _⟩, further, same⟩ := Option.map_eq_some_iff.1 read
          cases same
          have := ih further
          rw [List.length_tail] at this
          rw [List.length_cons]
          omega
      · cases read
        rw [List.length_tail, List.length_cons]
        omega
      · exact Nat.le_succ_of_le (ih read)

theorem regexBody?_length {inClass : Bool} (read : regexBody? inClass cs = some rest) :
    rest.length ≤ cs.length := by
  fun_induction regexBody? inClass cs <;> grind

theorem regex?_length (read : regex? cs = some rest) : rest.length ≤ cs.length := by
  obtain ⟨more, body, flags⟩ := Option.bind_eq_some_iff.1 read
  have shorter : (more.dropWhile isWordPart).length ≤ more.length :=
    (List.dropWhile_suffix _).length_le
  have := regexBody?_length body
  simp only [Option.ite_none_right_eq_some, Option.some.injEq] at flags
  rw [← flags.2]
  exact Nat.le_trans shorter this

theorem mark?_length {m : Token} (read : mark? cs = some (m, rest)) : rest.length ≤ cs.length := by
  rw [mark?.eq_def] at read
  split at read
  next =>
    split_ifs at read
    · cases read
      exact Nat.le_succ _
    · cases read
      exact Nat.le_add_right rest.length 2
  next =>
    obtain ⟨mark, -, found⟩ := List.exists_of_findSome?_eq_some read
    obtain ⟨_, after, same⟩ := Option.map_eq_some_iff.1 found
    cases same
    rw [Text.after?_eq_some.1 after, List.length_append]
    exact Nat.le_add_left ..

theorem scanToken_length (cs : List Char) : (scanToken cs).2.length ≤ cs.length := by
  rw [scanToken.eq_def]
  split
  next => exact Nat.le_refl _
  next c cs =>
    split_ifs
    · split
      next read => exact wordRest?_length read
      next => exact Nat.le_succ _
    · split
      next read => exact Nat.le_succ_of_le (wordRest?_length read)
      next => exact Nat.le_succ _
    · split
      next read => exact number?_length read
      next => exact Nat.le_succ _
    · split
      next read => exact Nat.le_succ_of_le (string?_length read)
      next => exact Nat.le_succ _
    · exact Nat.le_succ _
    · cases read : mark? (c :: cs) with
      | some found => exact mark?_length read
      | none => exact Nat.le_succ _

theorem mark?_ne_word {m : Token} (read : mark? cs = some (m, rest)) (w : String) (escaped : Bool) :
    m ≠ .word w escaped := by
  rw [mark?.eq_def] at read
  split at read
  next => split_ifs at read <;> cases read <;> nofun
  next =>
    obtain ⟨mark, -, found⟩ := List.exists_of_findSome?_eq_some read
    obtain ⟨_, -, same⟩ := Option.map_eq_some_iff.1 found
    cases same
    nofun

theorem scanToken_word {w : String} {escaped : Bool} (word : (scanToken cs).1 = .word w escaped) :
    (scanToken cs).2.length < cs.length := by
  rw [scanToken.eq_def] at word ⊢
  split at word
  next => cases word
  next c cs =>
    split_ifs at word ⊢ with starts
    · split at word
      next read => exact wordRest?_length_lt (by simpa using starts) read
      next => cases word
    · split at word <;> cases word
    · split at word <;> cases word
    · split at word <;> cases word
    · cases read : mark? (c :: cs) with
      | some found =>
        rw [read] at word
        exact absurd word (mark?_ne_word read w escaped)
      | none =>
        rw [read] at word
        cases word

end ComponentCompiler.Script
