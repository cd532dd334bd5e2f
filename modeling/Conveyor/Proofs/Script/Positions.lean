/-
Rewriting by positions.

A script is a row of characters, and rewriting moves a position through it: the end of a literal is
found by jumping over what it holds, and what is copied is the slice between two positions
(`rewriteFrom?`). A slice that does not lie within the script is none, and then nothing comes out at
all; neither does it when the steps are used up. Neither happens, whatever the script: the positions
that are jumped to are those at which the literals of the rest end (`quotedEnd_eq`, `longEnd?_eq`,
`literalEnd?_eq`), no literal is longer than the rest (`literalLength_le`), and every step goes on
by a character at least, so that there are no more steps than characters. What comes out is the
rewritten script (`rewriteFrom?_eq`).
-/
import Conveyor.Proofs.Script.Literals

set_option autoImplicit false

namespace Conveyor.Script

/-! ## Positions -/

/-- The characters between two positions, if these lie within the text. -/
def slice? (cs : List Char) (start stop : Nat) : Option (List Char) :=
  if start ≤ stop ∧ stop ≤ cs.length then some ((cs.drop start).take (stop - start)) else none

/-- The end of a quoted string, looked for from a position on; a backslash skips the character
behind it. -/
def quotedEnd (quote : Char) (cs : List Char) (j : Nat) : Nat :=
  if _ : j < cs.length then
    if cs[j] = '\\' then quotedEnd quote cs (j + 2)
    else if cs[j] = '\n' || cs[j] = quote then j + 1
    else quotedEnd quote cs (j + 1)
  else cs.length
termination_by cs.length - j

/-- The level of the long bracket that opens at a position, if one does. -/
def levelAt? (cs : List Char) (start : Nat) : Option (Option Nat) :=
  if cs[start]? = some '[' then do
    let rest ← slice? cs (start + 1) cs.length
    let level := (rest.takeWhile (· = '=')).length
    return if cs[start + 1 + level]? = some '[' then some level else none
  else some none

/-- The end of the closing bracket of a level, looked for from a position on, or the end of the
text. -/
def longEnd? (level : Nat) (cs : List Char) (j : Nat) : Option Nat :=
  if _ : j < cs.length then do
    let rest ← slice? cs (j + 1) cs.length
    if cs[j] = ']' && (rest.take level).all (· = '=') && cs[j + 1 + level]? = some ']' then
      return j + level + 2
    else longEnd? level cs (j + 1)
  else some cs.length
termination_by cs.length - j

/-- The end of the comment whose dashes stand at a position. -/
def commentEnd? (cs : List Char) (i : Nat) : Option Nat := do
  match ← levelAt? cs (i + 2) with
  | some level => longEnd? level cs (i + 2 + level + 2)
  | none =>
    let rest ← slice? cs i cs.length
    return i + (rest.takeWhile (· ≠ '\n')).length

/-- The end of the string or comment that opens at a position, if one does. -/
def literalEnd? (cs : List Char) (i : Nat) : Option (Option Nat) :=
  match cs[i]? with
  | some '"' => some (some (quotedEnd '"' cs (i + 1)))
  | some '\'' => some (some (quotedEnd '\'' cs (i + 1)))
  | some '-' => if cs[i + 1]? = some '-' then (commentEnd? cs i).map some else some none
  | some '[' => do
    match ← levelAt? cs i with
    | some level => (longEnd? level cs (i + level + 2)).map some
    | none => return none
  | _ => some none

/-- The rewritten script from a position on, in no more than so many steps. -/
def rewriteFrom? (cs : List Char) : (steps i : Nat) → Option (List Char)
  | 0, i => if i < cs.length then none else some []
  | steps + 1, i =>
    if _ : i < cs.length then do
      match ← literalEnd? cs i with
      | some stop => return (← slice? cs i stop) ++ (← rewriteFrom? cs steps stop)
      | none =>
        let c := if cs[i] = '$' then bindingMark cs[i + 1]?.toList else [cs[i]]
        return c ++ (← rewriteFrom? cs steps (i + 1))
    else some []

/-! ## No literal is longer than the text -/

theorem quotedLength_le (quote : Char) (cs : List Char) : quotedLength quote cs ≤ cs.length := by
  fun_induction quotedLength quote cs with
  | case1 => exact Nat.le_refl _
  | case2 d cs ih =>
    simp only [List.length_cons]
    omega
  | case3 c cs _ stops =>
    simp only [List.length_cons]
    omega
  | case4 c cs _ goes ih =>
    simp only [List.length_cons]
    omega

/-- A bracket lies within the text that it opens or closes. -/
theorem level_lt_of_prefix {level : Nat} {x y : Char} {cs : List Char}
    (bracket : x :: (List.replicate level '=' ++ [y]) <+: cs) : level + 2 ≤ cs.length := by
  have short := bracket.length_le
  simp only [List.length_cons, List.length_append, List.length_replicate, List.length_nil] at short
  omega

theorem longLength_le (level : Nat) (cs : List Char) : longLength level cs ≤ cs.length := by
  fun_induction longLength level cs with
  | case1 => exact Nat.le_refl _
  | case2 c cs closed => exact level_lt_of_prefix (closesBracket_iff.1 closed)
  | case3 c cs opened ih =>
    rw [List.length_cons]
    omega

theorem bracketLength_le {level : Nat} {cs : List Char} (opened : bracketLevel? cs = some level) :
    bracketLength level cs ≤ cs.length := by
  have inside := level_lt_of_prefix (bracketLevel?_eq_some_iff.1 opened)
  have rest := longLength_le level (cs.drop (level + 2))
  rw [List.length_drop] at rest
  rw [bracketLength]
  omega

theorem commentLength_le (cs : List Char) : commentLength cs ≤ cs.length := by
  unfold commentLength
  split
  · rename_i level opened
    exact bracketLength_le opened
  · exact (List.takeWhile_prefix _).length_le

/-- **A literal lies within the text that it opens.** -/
theorem literalLength_le (cs : List Char) : literalLength cs ≤ cs.length := by
  unfold literalLength
  split
  · exact Nat.succ_le_succ (quotedLength_le _ _)
  · exact Nat.succ_le_succ (quotedLength_le _ _)
  · exact Nat.succ_le_succ (Nat.succ_le_succ (commentLength_le _))
  · split
    · rename_i level opened
      exact bracketLength_le opened
    · exact Nat.zero_le _
  · exact Nat.zero_le _

/-! ## Positions and the rest of a text -/

section Rest

variable {cs : List Char} {i j : Nat}

theorem slice?_of_le {start stop : Nat} (order : start ≤ stop) (inside : stop ≤ cs.length) :
    slice? cs start stop = some ((cs.drop start).take (stop - start)) :=
  if_pos ⟨order, inside⟩

/-- The slice up to the end is the rest. -/
theorem slice?_rest (inside : i ≤ cs.length) : slice? cs i cs.length = some (cs.drop i) := by
  rw [slice?_of_le inside (Nat.le_refl _), List.take_of_length_le (by rw [List.length_drop])]

/-- A quoted string ends where the rest says. -/
theorem quotedEnd_eq (quote : Char) (inside : j ≤ cs.length) :
    quotedEnd quote cs j = j + quotedLength quote (cs.drop j) := by
  -- The induction follows the scanner, which jumps over the character behind a backslash.
  fun_induction quotedEnd quote cs j with
  | case1 j more escape ih =>
    rw [List.drop_eq_getElem_cons more, escape]
    by_cases last : j + 1 < cs.length
    · rw [List.drop_eq_getElem_cons last, quotedLength, ih (by omega), Nat.add_right_comm]
      rfl
    · -- The backslash is the last character: the jump leads past the end.
      have behind : cs.drop (j + 1) = [] := List.drop_of_length_le (by omega)
      rw [behind, quotedEnd, dif_neg (by omega), quotedLength, quotedLength, ite_self]
      · omega
      · rintro d rest - ⟨⟩
  | case2 j more other stops =>
    rw [List.drop_eq_getElem_cons more, quotedLength, if_pos stops]
    rintro d rest same -
    exact other same
  | case3 j more other goes ih =>
    rw [List.drop_eq_getElem_cons more, quotedLength, if_neg goes, ih (by omega)]
    · omega
    · rintro d rest same -
      exact other same
  | case4 j past =>
    rw [List.drop_of_length_le (by omega), quotedLength]
    omega

/-- A bracket opens where it opens the rest. -/
theorem levelAt?_eq (cs : List Char) (i : Nat) :
    levelAt? cs i = some (bracketLevel? (cs.drop i)) := by
  unfold levelAt?
  split
  · rename_i opened
    obtain ⟨more, first⟩ := List.getElem?_eq_some_iff.1 opened
    rw [slice?_rest more, List.drop_eq_getElem_cons more, first]
    simp only [bracketLevel?, Option.pure_def, Option.bind_eq_bind, Option.bind_some,
      List.getElem?_drop]
  · rename_i other
    rw [bracketLevel?_eq_none]
    rintro level ⟨rest, same⟩
    refine other ?_
    rw [← List.head?_drop, ← same]
    rfl

theorem closesBracket_cons (level : Nat) (c : Char) (cs : List Char) : closesBracket level (c :: cs)
    = (c = ']' && (cs.take level).all (· = '=') && cs[level]? = some ']') := by
  by_cases bracket : c = ']'
  · subst bracket
    rfl
  · rw [closesBracket, decide_eq_false bracket, Bool.false_and, Bool.false_and]
    rintro rest same
    exact bracket (List.cons.inj same).1

/-- A closing bracket is found where the rest says. -/
theorem longEnd?_eq (level : Nat) (inside : j ≤ cs.length) :
    longEnd? level cs j = some (j + longLength level (cs.drop j)) := by
  fun_induction longEnd? level cs j with
  | case1 j more ih =>
    rw [slice?_rest more, List.drop_eq_getElem_cons more, longLength, closesBracket_cons]
    simp only [Option.pure_def, Option.bind_eq_bind, Option.bind_some, List.getElem?_drop]
    split
    · rfl
    · rw [ih (by omega)]
      congr 1
      omega
  | case2 j past =>
    rw [List.drop_of_length_le (by omega), longLength]
    congr 1
    omega

/-- The end of a long bracket at a position. -/
theorem longEnd?_bracket {level : Nat} (opened : bracketLevel? (cs.drop i) = some level) :
    longEnd? level cs (i + level + 2) = some (i + bracketLength level (cs.drop i)) := by
  have inside := level_lt_of_prefix (bracketLevel?_eq_some_iff.1 opened)
  rw [List.length_drop] at inside
  rw [longEnd?_eq level (by omega), bracketLength, List.drop_drop, ← Nat.add_assoc, ← Nat.add_assoc,
    Nat.add_assoc i]

theorem at_of_drop {c : Char} {rest : List Char} (split : cs.drop i = c :: rest) :
    cs[i]? = some c ∧ cs.drop (i + 1) = rest := by
  constructor
  · rw [← List.head?_drop, split]
    rfl
  · rw [← List.drop_drop, split]
    rfl

theorem commentEnd?_eq {rest : List Char} (dashes : cs.drop i = '-' :: '-' :: rest) :
    commentEnd? cs i = some (i + (commentLength rest + 2)) := by
  have behind : cs.drop (i + 2) = rest := (at_of_drop (at_of_drop dashes).2).2
  have inside : i ≤ cs.length := (List.getElem?_eq_some_iff.1 (at_of_drop dashes).1).1.le
  unfold commentEnd? commentLength
  rw [levelAt?_eq, behind]
  cases opened : bracketLevel? rest with
  | some level =>
    have stop := longEnd?_bracket (behind.symm ▸ opened)
    rw [behind] at stop
    simp only [Option.bind_eq_bind, Option.bind_some]
    rw [stop]
    congr 1
    omega
  | none =>
    simp only [Option.bind_eq_bind, Option.bind_some, Option.pure_def]
    rw [slice?_rest inside, dashes, Option.bind_some, List.takeWhile_cons_of_pos (by decide),
      List.takeWhile_cons_of_pos (by decide)]
    rfl

theorem bracketLength_pos (level : Nat) (cs : List Char) : bracketLength level cs ≠ 0 := by
  rw [bracketLength]
  omega

/-- A single dash opens no comment. -/
theorem literalLength_dash {rest : List Char} (single : rest.head? ≠ some '-') :
    literalLength ('-' :: rest) = 0 := by
  unfold literalLength
  split <;> rename_i same
  · exact absurd (List.cons.inj same).1 (by decide)
  · exact absurd (List.cons.inj same).1 (by decide)
  · rw [(List.cons.inj same).2] at single
    exact absurd rfl single
  · exact absurd (List.cons.inj same).1 (by decide)
  · rfl

/-- A literal ends where the rest says. -/
theorem literalEnd?_eq {c : Char} {rest : List Char} (split : cs.drop i = c :: rest) :
    literalEnd? cs i
    = some (if literalLength
      (c :: rest) = 0 then none else some (i + literalLength (c :: rest))) := by
  obtain ⟨first, behind⟩ := at_of_drop split
  have inside : i + 1 ≤ cs.length := (List.getElem?_eq_some_iff.1 first).1
  -- One case for each kind of literal.
  unfold literalEnd?
  split <;> rename_i opened
  · obtain rfl := Option.some.inj (first.symm.trans opened)
    rw [literalLength, quotedEnd_eq _ inside, behind, if_neg (Nat.succ_ne_zero _),
      Nat.add_right_comm]
    rfl
  · obtain rfl := Option.some.inj (first.symm.trans opened)
    rw [literalLength, quotedEnd_eq _ inside, behind, if_neg (Nat.succ_ne_zero _),
      Nat.add_right_comm]
    rfl
  · obtain rfl := Option.some.inj (first.symm.trans opened)
    rw [← List.head?_drop, behind]
    split <;> rename_i second
    · obtain ⟨more, rfl⟩ := List.head?_eq_some_iff.1 second
      rw [commentEnd?_eq split, literalLength, if_neg (Nat.succ_ne_zero _)]
      rfl
    · rw [literalLength_dash second]
      rfl
  · obtain rfl := Option.some.inj (first.symm.trans opened)
    rw [levelAt?_eq, split, literalLength]
    cases level : bracketLevel? ('[' :: rest) with
    | none => rfl
    | some level' =>
      simp only [Option.bind_eq_bind, Option.bind_some]
      rw [longEnd?_bracket (split.symm ▸ level), split, if_neg (bracketLength_pos _ _)]
      rfl
  · rename_i double single dash
    have none : literalLength (c :: rest) = 0 := by
      unfold literalLength
      split <;> rename_i same
      · exact absurd ((List.cons.inj same).1 ▸ first) double
      · exact absurd ((List.cons.inj same).1 ▸ first) single
      · exact absurd ((List.cons.inj same).1 ▸ first) dash
      · exact absurd ((List.cons.inj same).1 ▸ first) opened
      · rfl
    rw [none]
    rfl

/-- A literal that opens at a position is not empty and lies within the script. -/
theorem literalEnd?_bounds {stop : Nat} (ends : literalEnd? cs i = some (some stop)) :
    i < stop ∧ stop ≤ cs.length := by
  by_cases more : i < cs.length
  · have split := List.drop_eq_getElem_cons more
    have short := literalLength_le (cs.drop i)
    rw [literalEnd?_eq split, ← split] at ends
    rw [List.length_drop] at short
    simp only [Option.some.injEq, Option.ite_none_left_eq_some] at ends
    omega
  · rw [literalEnd?, List.getElem?_eq_none (by omega)] at ends
    exact nomatch ends

/-! ## Rewriting -/

theorem bindingMark_head (cs : List Char) : bindingMark cs.head?.toList = bindingMark cs := by
  cases cs with
  | nil => rfl
  | cons c cs =>
    by_cases call : c = '('
    · subst call
      rfl
    · rw [bindingMark.eq_2 c cs call, List.head?_cons, Option.toList_some,
        bindingMark.eq_2 c [] call]

/-- **Rewriting by positions.** From every position on, the rest of the script is rewritten, and no
more steps are taken than characters are left. -/
theorem rewriteFrom?_eq {steps : Nat} (inside : i ≤ cs.length) (enough : cs.length ≤ i + steps) :
    rewriteFrom? cs steps i = some (rewrite (cs.drop i)) := by
  -- Each step goes on by a character at least, so the steps that are left are enough for the
  -- characters that are left.
  induction steps generalizing i with
  | zero =>
    rw [rewriteFrom?, if_neg (by omega), List.drop_of_length_le (by omega), rewrite]
  | succ steps ih =>
    rw [rewriteFrom?]
    by_cases more : i < cs.length
    · have split := List.drop_eq_getElem_cons more
      have short := literalLength_le (cs.drop i)
      rw [List.length_drop] at short
      rw [dif_pos more, literalEnd?_eq split, split, rewrite]
      rw [split] at short
      simp only [Option.bind_eq_bind, Option.bind_some, Option.pure_def]
      cases length : literalLength (cs[i] :: cs.drop (i + 1)) with
      -- No literal begins here, and whether the character is a mark depends on the one behind it
      -- only.
      | zero =>
        have next : bindingMark cs[i + 1]?.toList = bindingMark (cs.drop (i + 1)) := by
          rw [← List.head?_drop, bindingMark_head]
        simp only [↓reduceIte, ih (i := i + 1) more (by omega), Option.bind_some, next]
        split <;> rfl
      -- A literal is taken as it is, and with it as many characters as it is long.
      | succ n =>
        rw [length] at short
        simp only [Nat.succ_ne_zero, ↓reduceIte]
        rw [slice?_of_le (by omega) (by omega), ih (by omega) (by omega), split,
          Nat.add_sub_cancel_left, List.drop_drop, Nat.add_assoc, Nat.add_comm 1 n]
        rfl
    · rw [dif_neg more, List.drop_of_length_le (by omega), rewrite]

end Rest

end Conveyor.Script
