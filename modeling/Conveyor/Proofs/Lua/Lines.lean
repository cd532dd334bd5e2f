/-
The lines of lexemes.

The line of a place in a text is one more than the number of line ends in front of it, two different
characters in a row being one line end. The lexer counts lines as it goes: wherever reading gets to,
the line that it has counted and the line ends that are still to come are together what they were
before (`Reaches`). So every lexeme is on the line of the place where it ends, the last one on the
last line (`scanned`).
-/
import Conveyor.Lua.Lexeme
import Mathlib.Data.List.Basic
import Mathlib.Data.List.TakeDrop
import Mathlib.Data.List.TakeWhile

set_option autoImplicit false

namespace Conveyor.Lua.Lexeme

open Numeral

/-! ## Line ends -/

theorem afterNewline_suffix (c : UInt8) (cs : List UInt8) : afterNewline c cs <:+ cs := by
  fun_cases afterNewline c cs with
  | case1 d cs pair => exact List.suffix_cons d cs
  | case2 d cs alone => exact List.suffix_rfl
  | case3 => exact List.suffix_rfl

/-- How many line ends a text holds. -/
def lineBreaks : List UInt8 → Nat
  | [] => 0
  | c :: cs => if isNewline c then lineBreaks (afterNewline c cs) + 1 else lineBreaks cs
termination_by cs => cs.length
decreasing_by
  · exact Nat.lt_succ_of_le (afterNewline_suffix c cs).length_le
  · exact Nat.lt_succ_self _

/-- From one place and line, reading gets to another place with its line. -/
structure Reaches (cs : List UInt8) (line : Nat) (rest : List UInt8) (line' : Nat) : Prop where
  suffix : rest <:+ cs
  onward : line ≤ line'
  lines : line' + lineBreaks rest = line + lineBreaks cs

section Reaches

variable {cs rest more front : List UInt8} {c : UInt8} {line line' line'' : Nat}

theorem Reaches.refl (cs : List UInt8) (line : Nat) : Reaches cs line cs line :=
  ⟨List.suffix_rfl, Nat.le_refl _, rfl⟩

theorem Reaches.trans (first : Reaches cs line rest line')
    (second : Reaches rest line' more line'') :
    Reaches cs line more line'' :=
  ⟨second.suffix.trans first.suffix, first.onward.trans second.onward,
    second.lines.trans first.lines⟩

/-- A character that ends no line is passed. -/
theorem Reaches.cons (other : isNewline c = false) (r : Reaches cs line rest line') :
    Reaches (c :: cs) line rest line' := by
  refine ⟨r.suffix.trans (List.suffix_cons c cs), r.onward, ?_⟩
  rw [lineBreaks, other, r.lines]
  rfl

/-- A line end is passed, and the next line begins. -/
theorem Reaches.newline (ends : isNewline c = true) (cs : List UInt8) (line : Nat) :
    Reaches (c :: cs) line (afterNewline c cs) (line + 1) := by
  refine ⟨(afterNewline_suffix c cs).trans (List.suffix_cons c cs), Nat.le_succ _, ?_⟩
  rw [lineBreaks, if_pos ends]
  omega

/-- Characters that end no line are passed. -/
theorem Reaches.append (plain : ∀ c ∈ front, isNewline c = false) (r : Reaches cs line rest line') :
    Reaches (front ++ cs) line rest line' := by
  induction front with
  | nil => exact r
  | cons c front ih =>
    obtain ⟨other, plain⟩ := List.forall_mem_cons.1 plain
    exact (ih plain).cons other

/-- A condition that no line end satisfies. -/
theorem plain_of {p : UInt8 → Bool} (apart : p 10 = false ∧ p 13 = false) {c : UInt8}
    (fits : p c = true) :
    isNewline c = false := by
  rw [isNewline, Bool.or_eq_false_iff, beq_eq_false_iff_ne, beq_eq_false_iff_ne]
  constructor <;> rintro rfl
  · exact absurd fits (apart.1 ▸ Bool.false_ne_true)
  · exact absurd fits (apart.2 ▸ Bool.false_ne_true)

/-- The characters at the head of a text that satisfy such a condition are passed. -/
theorem Reaches.dropWhile {p : UInt8 → Bool} (apart : p 10 = false ∧ p 13 = false) (cs : List UInt8)
    (line : Nat) :
    Reaches cs line (cs.dropWhile p) line := by
  have plain : ∀ c ∈ cs.takeWhile p, isNewline c = false :=
    fun c mem => plain_of apart (List.mem_takeWhile_imp mem)
  have passed := Reaches.append plain (.refl (cs.dropWhile p) line)
  rwa [List.takeWhile_append_dropWhile] at passed

/-! ## Long brackets -/

theorem bracketLevel_ok {edge : UInt8} {level : Nat}
    (found : bracketLevel edge cs = .ok (level, rest)) (line : Nat) :
    Reaches cs line (edge :: rest) line := by
  have passed := Reaches.dropWhile (p := (· == 61)) ⟨rfl, rfl⟩ cs line
  unfold bracketLevel at found
  rw [List.span_eq_takeWhile_dropWhile] at found
  simp only at found
  split at found
  · rename_i c more behind
    split at found
    · rename_i same
      obtain ⟨-, rfl⟩ := Prod.mk.inj (Except.ok.inj found)
      rwa [behind, eq_of_beq same] at passed
    · exact nomatch found
  · exact nomatch found

theorem bracketLevel_behind {edge : UInt8} {level : Nat} (other : isNewline edge = false)
    (found : bracketLevel edge cs = .ok (level, rest)) (line : Nat) : Reaches cs line rest line :=
  (bracketLevel_ok found line).trans (.cons other (.refl _ _))

theorem bracketLevel_error {edge : UInt8} {signs : Nat}
    (missed : bracketLevel edge cs = .error signs) (line : Nat) :
    Reaches cs line (cs.drop signs) line := by
  have passed := Reaches.dropWhile (p := (· == 61)) ⟨rfl, rfl⟩ cs line
  unfold bracketLevel at missed
  rw [List.span_eq_takeWhile_dropWhile] at missed
  have signs : signs = (cs.takeWhile (· == 61)).length := by
    simp only at missed
    split at missed
    · split at missed
      · exact nomatch missed
      · exact (Except.error.inj missed).symm
    · exact (Except.error.inj missed).symm
  have behind : cs.drop (cs.takeWhile (· == 61)).length = cs.dropWhile (· == 61) := by
    have whole : (cs.takeWhile (· == 61) ++ cs.dropWhile (· == 61)).drop
        (cs.takeWhile (· == 61)).length
        = cs.dropWhile (· == 61) := List.drop_left
    rwa [List.takeWhile_append_dropWhile] at whole
  rwa [signs, behind]

theorem longText_some {level fuel : Nat} {acc text : List UInt8}
    (read : longText level fuel cs line acc = some (text, rest, line')) :
    Reaches cs line rest line' := by
  fun_induction longText level fuel cs line acc with
  | case1 => exact nomatch read
  | case2 => exact nomatch read
  | case3 fuel c cs line acc bracket found more opened closes =>
    obtain ⟨-, rfl, rfl⟩ : _ ∧ more = rest ∧ line = line' := by simpa using read
    obtain rfl := eq_of_beq bracket
    exact .cons rfl (bracketLevel_behind rfl opened line)
  | case4 fuel c cs line acc bracket found more opened other ih =>
    obtain rfl := eq_of_beq bracket
    exact .cons rfl ((bracketLevel_ok opened line).trans (ih read))
  | case5 fuel c cs line acc bracket signs missed ih =>
    obtain rfl := eq_of_beq bracket
    exact .cons rfl ((bracketLevel_error missed line).trans (ih read))
  | case6 fuel c cs line acc other ends ih => exact (Reaches.newline ends cs line).trans (ih read)
  | case7 fuel c cs line acc other inside ih => exact .cons (Bool.not_eq_true _ ▸ inside) (ih read)

theorem skipFirstNewline_reaches (cs : List UInt8) (line : Nat) :
    Reaches cs line (skipFirstNewline line cs).1 (skipFirstNewline line cs).2 := by
  fun_cases skipFirstNewline line cs with
  | case1 c cs ends => exact .newline ends cs line
  | case2 c cs other => exact .refl _ _
  | case3 => exact .refl _ _

theorem longBracket_some {level : Nat} {text : List UInt8}
    (read : longBracket level cs line = some (text, rest, line')) : Reaches cs line rest line' :=
  (skipFirstNewline_reaches cs line).trans (longText_some read)

/-! ## Quoted strings -/

theorem skipSpace_reaches (fuel : Nat) (cs : List UInt8) (line : Nat) :
    Reaches cs line (skipSpace fuel cs line).1 (skipSpace fuel cs line).2 := by
  fun_induction skipSpace fuel cs line with
  | case1 fuel c cs line ends ih => exact (Reaches.newline ends cs line).trans ih
  | case2 fuel c cs line other blank ih => exact .cons (Bool.not_eq_true _ ▸ other) ih
  | case3 fuel c cs line other visible => exact .refl _ _
  | case4 fuel cs line past => exact .refl _ _

theorem isNewline_digit {c : UInt8} (digit : isDigit c = true) : isNewline c = false :=
  plain_of ⟨rfl, rfl⟩ digit

theorem isNewline_hex {c : UInt8} (digit : isHex c = true) : isNewline c = false :=
  plain_of ⟨rfl, rfl⟩ digit

theorem hexPair_ok {bytes : List UInt8} (read : escape.hexPair cs = .ok (bytes, rest))
    (line : Nat) :
    Reaches cs line rest line := by
  unfold escape.hexPair at read
  split at read
  · rename_i a cs
    split at read
    · exact nomatch read
    · rename_i first
      split at read
      · rename_i b cs
        split at read
        · rename_i second
          obtain ⟨-, rfl⟩ := Prod.mk.inj (Except.ok.inj read)
          exact .cons (isNewline_hex (by simpa using first))
            (.cons (isNewline_hex second) (.refl _ _))
        · exact nomatch read
      · exact nomatch read
  · exact nomatch read

theorem codePoint_ok {bytes : List UInt8} (read : escape.codePoint cs = .ok (bytes, rest))
    (line : Nat) :
    Reaches cs line rest line := by
  unfold escape.codePoint at read
  split at read
  · rename_i cs
    have passed := Reaches.dropWhile (p := isHex) ⟨rfl, rfl⟩ cs line
    rw [List.span_eq_takeWhile_dropWhile] at read
    simp only at read
    split at read
    · cases read
    · split at read
      · cases read
      · split at read
        · rename_i closed
          obtain ⟨-, rfl⟩ := Prod.mk.inj (Except.ok.inj read)
          rw [closed] at passed
          exact .cons rfl (passed.trans (.cons rfl (.refl _ _)))
        · cases read
  · cases read

/-- A single character is passed. -/
theorem one_ok {c : UInt8} {bytes found : List UInt8} {ε : Type} (other : isNewline c = false)
    (read : (.ok (found, cs) : Except ε (List UInt8 × List UInt8)) = .ok (bytes, rest))
    (line : Nat) :
    Reaches (c :: cs) line rest line := by
  obtain ⟨-, rfl⟩ := Prod.mk.inj (Except.ok.inj read)
  exact .cons other (.refl _ _)

theorem escape_ok {bytes : List UInt8} (read : escape cs = .ok (bytes, rest)) (line : Nat) :
    Reaches cs line rest line := by
  unfold escape at read
  split at read
  · exact one_ok rfl read line
  · exact one_ok rfl read line
  · exact one_ok rfl read line
  · exact one_ok rfl read line
  · exact one_ok rfl read line
  · exact one_ok rfl read line
  · exact one_ok rfl read line
  · exact .cons rfl (hexPair_ok read line)
  · exact .cons rfl (codePoint_ok read line)
  · rename_i c cs _ _ _ _ _ _ _ _ _
    split at read
    · rename_i itself
      exact one_ok (plain_of (p := fun c => c == 92 || c == 34 || c == 39) ⟨rfl, rfl⟩ itself) read
        line
    · split at read
      · simp only at read
        split at read
        · obtain ⟨-, rfl⟩ := Prod.mk.inj (Except.ok.inj read)
          -- At most three digits are taken.
          have digits : ((c :: cs).take 3).takeWhile isDigit <+: c :: cs :=
            (List.takeWhile_prefix _).trans (List.take_prefix 3 _)
          have plain : ∀ d ∈ ((c :: cs).take 3).takeWhile isDigit, isNewline d = false := by
            intro d mem
            exact isNewline_digit (List.mem_takeWhile_imp mem)
          have passed := Reaches.append plain
            (.refl ((c :: cs).drop (((c :: cs).take 3).takeWhile isDigit).length) line)
          rwa [List.prefix_iff_eq_append.1 digits] at passed
        · exact nomatch read
      · exact nomatch read
  · obtain ⟨-, rfl⟩ := Prod.mk.inj (Except.ok.inj read)
    exact .refl _ _

/-- Reading a quoted string gets behind it, or to the line that the complaint about it tells. -/
def Stops (cs : List UInt8) (line : Nat) : Except StringError (List UInt8 × List UInt8 × Nat) → Prop
  | .ok (_, rest, line') => Reaches cs line rest line'
  | .error e => ∃ rest, Reaches cs line rest e.line

theorem Reaches.stops {result : Except StringError (List UInt8 × List UInt8 × Nat)}
    (r : Reaches cs line rest line') (later : Stops rest line' result) : Stops cs line result := by
  cases result with
  | ok read => exact r.trans later
  | error e =>
    obtain ⟨more, later⟩ := later
    exact ⟨more, r.trans later⟩

theorem quotedText_stops {quote : UInt8} (apart : isNewline quote = false) (fuel : Nat)
    (cs : List UInt8) (line : Nat) (acc : List UInt8) :
    Stops cs line (quotedText quote fuel cs line acc) := by
  -- A complaint is about the place that was reached.
  have here (cs : List UInt8) (line : Nat) (message shown : String) :
      Stops cs line (.error ⟨message, shown, line⟩) :=
    ⟨cs, .refl _ _⟩
  have pass {c : UInt8} (other : ¬isNewline c = true) (cs : List UInt8) (line : Nat) :
      Reaches (c :: cs) line cs line :=
    .cons (Bool.not_eq_true _ ▸ other) (.refl _ _)
  fun_induction quotedText quote fuel cs line acc with
  | case1 => exact here _ _ _ _
  | case2 => exact here _ _ _ _
  | case3 fuel c cs line acc closes =>
    exact .cons (eq_of_beq closes ▸ apart) (.refl _ _)
  | case4 => exact here _ _ _ _
  | case5 fuel c line acc inside other slash cs more line' skipped ih =>
    have space := skipSpace_reaches (cs.length + 1) cs line
    rw [skipped] at space
    exact (pass other _ _).stops ((Reaches.cons rfl space).stops ih)
  | case6 fuel c line acc inside other slash d cs apart breaks ih =>
    exact (pass other _ _).stops ((Reaches.newline breaks cs line).stops ih)
  | case7 fuel c line acc inside other slash d cs apart plain bytes more read ih =>
    rw [read]
    exact (pass other _ _).stops ((escape_ok read line).stops ih)
  | case8 fuel c line acc inside other slash d cs apart plain message seen refused =>
    rw [refused]
    exact here _ _ _ _
  | case9 => exact here _ _ _ _
  | case10 fuel c cs line acc inside other plain ih => exact (pass other _ _).stops ih

/-! ## Numbers, signs and the last line -/

theorem lower_mark {mark : UInt8} (letter : isLetter mark = true) {c : UInt8}
    (same : (lower c == mark) = true) :
    isNewline c = false :=
  plain_of (p := fun c => lower c == mark)
    ⟨beq_eq_false_iff_ne.2 (by rintro rfl; exact absurd letter (by decide)),
      beq_eq_false_iff_ne.2 (by rintro rfl; exact absurd letter (by decide))⟩ same

theorem numeralText_reaches {mark : UInt8} (letter : isLetter mark = true) (fuel : Nat)
    (cs acc : List UInt8) (line : Nat) : Reaches cs line (numeralText mark fuel cs acc).2 line := by
  fun_induction numeralText mark fuel cs acc with
  | case1 fuel c acc exponent d cs sign ih =>
    have plain := plain_of (p := fun d => d == 43 || d == 45) ⟨rfl, rfl⟩ sign
    exact .cons (lower_mark letter exponent) (.cons plain ih)
  | case2 fuel c acc exponent d cs other ih => exact .cons (lower_mark letter exponent) ih
  | case3 fuel c acc exponent ih => exact .cons (lower_mark letter exponent) ih
  | case4 fuel c cs acc other digit ih =>
    exact .cons (plain_of (p := fun c => isHex c || c == 46) ⟨rfl, rfl⟩ digit) ih
  | case5 fuel c cs acc other none starts => exact .cons (plain_of ⟨rfl, rfl⟩ starts) (.refl _ _)
  | case6 fuel c cs acc other none ends => exact .refl _ _
  | case7 fuel cs acc past => exact .refl _ _

/-- A numeral takes the digit that it begins with. -/
theorem numeral_reaches {c : UInt8} (digit : isDigit c = true) (start cs : List UInt8)
    (line : Nat) :
    Reaches cs line (numeral start (c :: cs)).2 line := by
  -- No digit is the mark of an exponent, so the first one is taken as it stands.
  have decimal :
      Reaches cs line (numeralText 101 ((c :: cs).length + 1) (c :: cs) start).2 line := by
    have apart : (lower c == 101) = false := by
      rw [lower, if_neg, beq_eq_false_iff_ne]
      · rintro rfl
        exact absurd digit (by decide)
      · intro capital
        rw [isDigit] at digit
        grind
    have hex : (isHex c || c == 46) = true := by
      rw [isHex, digit, Bool.true_or, Bool.true_or, Bool.true_or]
    unfold numeralText
    rw [if_neg (Bool.not_eq_true _ ▸ apart), if_pos hex]
    exact numeralText_reaches rfl _ _ _ _
  -- A zero is passed together with the mark of a hexadecimal numeral, if that is behind it.
  unfold numeral
  split
  · rename_i x rest same
    obtain ⟨rfl, rfl⟩ := List.cons.inj same
    split
    · rename_i mark
      have other : isNewline x = false := plain_of (p := fun x => lower x == 120) ⟨rfl, rfl⟩ mark
      exact .cons other (numeralText_reaches rfl _ _ _ _)
    · exact decimal
  · exact decimal

theorem signs_plain : ∀ s ∈ signs, s ≠ [] ∧ ∀ c ∈ s, isNewline c = false := by decide +kernel

/-- A sign takes a character at least. -/
theorem takeSign_reaches (c : UInt8) (cs : List UInt8) (line : Nat) :
    Reaches cs line (takeSign c cs).2.2 line := by
  unfold takeSign
  split
  · rename_i s found
    obtain ⟨filled, plain⟩ := signs_plain s (List.mem_of_find?_eq_some found)
    have front : s.isPrefixOf (c :: cs) = true :=
      List.find?_some (p := fun s : List UInt8 => s.isPrefixOf (c :: cs)) found
    rw [List.isPrefixOf_iff_prefix] at front
    cases s with
    | nil => exact absurd rfl filled
    | cons d s =>
      have rest := (List.cons_prefix_cons.1 front).2
      have passed := Reaches.append (List.forall_mem_cons.1 plain).2 (.refl (cs.drop s.length) line)
      rw [List.prefix_iff_eq_append.1 rest] at passed
      exact passed
  · split
    · exact .refl _ _
    · exact .refl _ _

/-- The last line is as many lines behind as there are line ends. -/
theorem skipAll_eq (fuel : Nat) (cs : List UInt8) (line : Nat) (enough : cs.length < fuel) :
    lastLine.skipAll fuel cs line = line + lineBreaks cs := by
  fun_induction lastLine.skipAll fuel cs line with
  | case1 fuel c cs line ends ih =>
    have short := (afterNewline_suffix c cs).length_le
    rw [List.length_cons] at enough
    rw [ih (by omega), lineBreaks, if_pos ends]
    omega
  | case2 fuel c cs line other ih =>
    rw [List.length_cons] at enough
    rw [ih (by omega), lineBreaks, if_neg other]
  | case3 fuel cs line past =>
    cases cs with
    | nil => rw [lineBreaks]; rfl
    | cons c cs =>
      cases fuel with
      | zero => exact absurd enough (Nat.not_lt_zero _)
      | succ fuel => exact absurd rfl (past fuel c cs rfl)

theorem lastLine_reaches (cs : List UInt8) (line : Nat) :
    Reaches cs line [] (Lexeme.lastLine cs line) := by
  have last : Lexeme.lastLine cs line = line + lineBreaks cs :=
    skipAll_eq _ cs line (Nat.lt_succ_self _)
  refine ⟨List.nil_suffix, ?_, ?_⟩
  · omega
  · rw [last, lineBreaks]
    rfl

/-! ## Programs -/

/-- What is found at the head of a text takes a character at least, and is on the line of the place
behind it. -/
inductive Next.Behind (cs : List UInt8) (line : Nat) : Next → Prop where
  | skip {rest : List UInt8} {line' : Nat} (r : Reaches cs line rest line')
    (shorter : rest.length < cs.length) :
    Behind cs line (.skip rest line')
  | broken {message shown : String} {rest : List UInt8} {line' : Nat}
    (r : Reaches cs line rest line') :
    Behind cs line (Lexeme.broken message shown line')
  | lexeme {l : Lexeme} {rest : List UInt8} (r : Reaches cs line rest l.line)
    (shorter : rest.length < cs.length) :
    Behind cs line (.lexeme l rest)

/-- Behind the first character. -/
theorem Reaches.shorter (r : Reaches cs line rest line') (c : UInt8) :
    rest.length < (c :: cs).length :=
  Nat.lt_succ_of_le r.suffix.length_le

/-- What is skipped or read behind the first character. -/
theorem Next.Behind.skip_cons {c : UInt8} (other : isNewline c = false)
    (r : Reaches cs line rest line') : (Next.skip rest line').Behind (c :: cs) line :=
  .skip (.cons other r) (r.shorter c)

theorem Next.Behind.lexeme_cons {c : UInt8} {l : Lexeme} (other : isNewline c = false)
    (r : Reaches cs line rest l.line) : (Next.lexeme l rest).Behind (c :: cs) line :=
  .lexeme (.cons other r) (r.shorter c)

theorem comment_behind (cs : List UInt8) (line : Nat) :
    (comment cs line).Behind (45 :: 45 :: cs) line := by
  have short : (Next.skip (cs.dropWhile fun c => !isNewline c) line).Behind (45 :: 45 :: cs) line :=
    .skip_cons rfl (.cons rfl (.dropWhile ⟨rfl, rfl⟩ cs line))
  unfold comment
  split
  · rename_i cs
    split
    · rename_i level rest opened
      have bracket : Reaches (45 :: 91 :: cs) line rest line :=
        .cons rfl (.cons rfl (bracketLevel_behind rfl opened line))
      split
      · rename_i text more line' read
        exact .skip_cons rfl (bracket.trans (longBracket_some read))
      · exact .broken (.cons rfl (bracket.trans (lastLine_reaches rest line)))
    · exact short
  · exact short

theorem numberNext_behind {c : UInt8} (other : isNewline c = false) {start ds : List UInt8}
    (r : Reaches cs line (numeral start ds).2 line) :
    (numberNext start ds line).Behind (c :: cs) line := by
  unfold numberNext
  simp only
  split
  · exact .lexeme_cons other r
  · exact .broken (.cons other r)

theorem bracketNext_behind (cs : List UInt8) (line : Nat) :
    (bracketNext cs line).Behind (91 :: cs) line := by
  unfold bracketNext
  split
  · rename_i level rest opened
    have bracket : Reaches cs line rest line := bracketLevel_behind rfl opened line
    split
    · rename_i text more line' read
      exact .lexeme_cons rfl (bracket.trans (longBracket_some read))
    · exact .broken (.cons rfl (bracket.trans (lastLine_reaches rest line)))
  · exact .lexeme_cons rfl (.refl _ _)
  · exact .broken (.refl _ _)

theorem quotedNext_behind {quote : UInt8} (apart : isNewline quote = false) (cs : List UInt8)
    (line : Nat) : (quotedNext quote cs line).Behind (quote :: cs) line := by
  have stops := quotedText_stops apart (cs.length + 1) cs line [quote]
  unfold quotedNext
  split <;> rename_i read <;> rw [read] at stops
  · exact .lexeme_cons apart stops
  · obtain ⟨rest, r⟩ := stops
    exact .broken (.cons apart r)

theorem wordNext_behind {c : UInt8} (starts : isNameStart c = true) (cs : List UInt8) (line : Nat) :
    (wordNext (c :: cs) line).Behind (c :: cs) line := by
  have inside : isNameRest c = true := by rw [isNameRest, starts, Bool.true_or]
  unfold wordNext
  rw [List.span_eq_takeWhile_dropWhile, List.dropWhile_cons_of_pos inside]
  exact .lexeme_cons (plain_of ⟨rfl, rfl⟩ starts) (.dropWhile ⟨rfl, rfl⟩ cs line)

theorem next_behind (c : UInt8) (cs : List UInt8) (line : Nat) :
    (next c cs line).Behind (c :: cs) line := by
  -- The cases are those of the scanner in its order; all but a line break begin with a character
  -- that is none.
  unfold next
  split
  · rename_i ends
    exact .skip (.newline ends cs line) (Nat.lt_succ_of_le (afterNewline_suffix c cs).length_le)
  · rename_i other
    have other : isNewline c = false := Bool.not_eq_true _ ▸ other
    have sign :
        (.lexeme ⟨(takeSign c cs).1, (takeSign c cs).2.1, line⟩ (takeSign c cs).2.2 : Next).Behind
          (c :: cs) line :=
      .lexeme_cons other (takeSign_reaches c cs line)
    split
    · exact .skip_cons other (.refl _ _)
    split
    · rename_i starts
      exact wordNext_behind starts cs line
    split
    · rename_i digit
      exact numberNext_behind other (numeral_reaches digit [] cs line)
    split
    · exact quotedNext_behind other cs line
    split
    · rename_i bracket
      exact eq_of_beq bracket ▸ bracketNext_behind cs line
    split
    · exact comment_behind _ line
    · split
      · rename_i digit
        exact numberNext_behind rfl
          (.cons (isNewline_digit digit) (numeral_reaches digit [46] _ line))
      · exact sign
    · exact sign

/-- Lexemes that are read one after another: each is on the line of the place behind it, and the
last one is the end of the text, or where reading broke off. -/
inductive Scanned : List UInt8 → Nat → List Lexeme → Prop where
  | finish {cs : List UInt8} {line line' : Nat} (r : Reaches cs line [] line') :
    Scanned cs line [⟨.finish, finishText, line'⟩]
  | broken {cs rest : List UInt8} {line line' : Nat} {message shown : String}
    (r : Reaches cs line rest line') :
    Scanned cs line [⟨.broken message, shown, line'⟩]
  | lexeme {cs rest : List UInt8} {line : Nat} {l : Lexeme} {more : List Lexeme}
    (r : Reaches cs line rest l.line)
    (later : Scanned rest l.line more) : Scanned cs line (l :: more)

theorem Scanned.skip {ls : List Lexeme} (r : Reaches cs line rest line')
    (later : Scanned rest line' ls) :
    Scanned cs line ls := by
  cases later with
  | finish r' => exact .finish (r.trans r')
  | broken r' => exact .broken (r.trans r')
  | lexeme r' later => exact .lexeme (r.trans r') later

theorem scanFrom_scanned (fuel : Nat) (cs : List UInt8) (line : Nat) (enough : cs.length < fuel) :
    Scanned cs line (scanFrom fuel cs line) := by
  -- The fuel is more than what is left to scan, and every lexeme and every blank takes something of
  -- it.
  induction fuel generalizing cs line with
  | zero => exact absurd enough (Nat.not_lt_zero _)
  | succ fuel ih =>
    cases cs with
    | nil =>
      rw [scanFrom]
      · exact .finish (.refl _ _)
      · nofun
    | cons c cs =>
      have behind := next_behind c cs line
      unfold scanFrom
      cases found : next c cs line with
      | skip rest line' =>
        rw [found] at behind
        cases behind with
        | skip r shorter => exact (ih rest line' (by omega)).skip r
      | lexeme l rest =>
        rw [found] at behind
        cases behind with
        | broken r => exact .broken r
        | lexeme r shorter =>
          split
          · rename_i same
            obtain ⟨rfl, rfl⟩ := Next.lexeme.inj same
            exact .broken r
          · rename_i same
            obtain ⟨rfl, rfl⟩ := Next.lexeme.inj same
            exact .lexeme r (ih rest _ (by omega))
          · rename_i same
            exact nomatch same

/-- Reading a text gets to the end of each of its lexemes. -/
theorem Scanned.reaches {ls : List Lexeme} {l : Lexeme} (scanned : Scanned cs line ls)
    (mem : l ∈ ls) :
    ∃ rest, Reaches cs line rest l.line := by
  induction scanned with
  | finish r =>
    obtain rfl := List.mem_singleton.1 mem
    exact ⟨[], r⟩
  | broken r =>
    obtain rfl := List.mem_singleton.1 mem
    exact ⟨_, r⟩
  | lexeme r later ih =>
    obtain rfl | mem := List.mem_cons.1 mem
    · exact ⟨_, r⟩
    · obtain ⟨rest, r'⟩ := ih mem
      exact ⟨rest, r.trans r'⟩

/-- **Lexemes are on their lines.** -/
theorem scanned (source : String) : Scanned source.toUTF8.toList 1 (scan source) :=
  scanFrom_scanned _ _ 1 (Nat.lt_succ_self _)

end Reaches

end Conveyor.Lua.Lexeme
