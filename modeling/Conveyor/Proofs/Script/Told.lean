/-
The lines that a text tells.

A text tells a line where the name of user code stands in it, with the line and a colon behind it
(`Tells`), and the first line that a text tells is what is looked for in an error. Such a place
holds no blank and no line end, so it is never put together from the two sides of one: what a text
tells is told by one of its pieces (`Tells.split`). A position tells its own line and no other
(`tells_position`), and it is the first that is found where it stands in front
(`findLine?_position`).
-/
import Conveyor.Script.Location
import Conveyor.Proofs.Decimal.Natural
import Mathlib.Data.List.Basic
import Mathlib.Data.List.Infix
import Mathlib.Data.List.TakeDrop
import Mathlib.Data.List.TakeWhile

set_option autoImplicit false

namespace Conveyor.Script

open Decimal

/-- A text tells a line: the name of user code stands in it, with the digits of the line and a
colon. -/
def Tells (cs : List Char) (n : Nat) : Prop :=
  ∃ ds, ds ≠ [] ∧ (∀ d ∈ ds, d.isDigit = true) ∧ natOfDigits 0 ds = n ∧
    lineMark ++ ds ++ [':'] <:+: cs

/-! ## What is found is told -/

theorem lineAt?_some {cs : List Char} {n : Nat} (found : lineAt? cs = some n) :
    ∃ ds, ds ≠ [] ∧ (∀ d ∈ ds, d.isDigit = true) ∧ natOfDigits 0 ds = n ∧ ds ++ [':'] <+: cs := by
  unfold lineAt? spanDigits at found
  rw [List.span_eq_takeWhile_dropWhile] at found
  simp only [Option.ite_none_right_eq_some, Bool.and_eq_true, Bool.not_eq_true',
    List.isEmpty_eq_false_iff, decide_eq_true_eq, Option.some.injEq] at found
  obtain ⟨⟨⟨filled, colon⟩, -⟩, value⟩ := found
  obtain ⟨rest, behind⟩ := List.head?_eq_some_iff.1 colon
  refine ⟨cs.takeWhile Char.isDigit, filled, fun d mem => List.mem_takeWhile_imp mem,
    value, rest, ?_⟩
  conv_rhs => rw [← List.takeWhile_append_dropWhile (p := Char.isDigit) (l := cs), behind]
  rw [List.append_assoc]
  rfl

/-- The first line that is found is one that the text tells. -/
theorem tells_of_findLine? {cs : List Char} {n : Nat} (found : findLine? cs = some n) :
    Tells cs n := by
  fun_induction findLine? cs with
  | case1 => exact nomatch found
  | case2 c cs marked m there =>
    obtain rfl := Option.some.inj found
    obtain ⟨ds, filled, digits, value, front⟩ := lineAt?_some there
    refine ⟨ds, filled, digits, value, List.IsPrefix.isInfix ?_⟩
    have mark := List.prefix_iff_eq_append.1 (List.isPrefixOf_iff_prefix.1 marked)
    rw [← mark, List.append_assoc]
    exact (List.prefix_append_right_inj _).2 front
  | case3 c cs marked none ih =>
    obtain ⟨ds, filled, digits, value, inside⟩ := ih found
    exact ⟨ds, filled, digits, value, inside.trans (List.suffix_cons c cs).isInfix⟩
  | case4 c cs other ih =>
    obtain ⟨ds, filled, digits, value, inside⟩ := ih found
    exact ⟨ds, filled, digits, value, inside.trans (List.suffix_cons c cs).isInfix⟩

/-- A line in front of a colon. -/
theorem lineAt?_natText {n : Nat} (small : n ≤ maxLine) (rest : List Char) :
    lineAt? ((natText n).toList ++ ':' :: rest) = some n := by
  have digits : ∀ d ∈ (natText n).toList, d.isDigit = true :=
    fun d mem => isDigit_of_mem_natText mem
  have taken : ((natText n).toList ++ ':' :: rest).takeWhile Char.isDigit = (natText n).toList := by
    rw [List.takeWhile_append_of_pos digits, List.takeWhile_cons_of_neg (by decide),
      List.append_nil]
  have left : ((natText n).toList ++ ':' :: rest).dropWhile Char.isDigit = ':' :: rest := by
    rw [List.dropWhile_append_of_pos digits, List.dropWhile_cons_of_neg (by decide)]
  unfold lineAt? spanDigits
  rw [List.span_eq_takeWhile_dropWhile, taken, left]
  simp only [natOfDigits_natText, List.head?_cons, decide_true, Bool.and_true, small,
    Bool.not_eq_true', List.isEmpty_eq_false_iff, natText_ne_nil, ne_eq,
    not_false_eq_true, ↓reduceIte]

/-- **A position in front of a text is the first line that is found.** -/
theorem findLine?_position {n : Nat} (small : n ≤ maxLine) (rest : List Char) :
    findLine? (lineMark ++ ((natText n).toList ++ ':' :: rest)) = some n := by
  have front : lineMark.isPrefixOf ('c' :: ("ode:".toList ++ ((natText n).toList ++ ':' :: rest)))
      = true :=
    List.isPrefixOf_iff_prefix.2 (List.prefix_append lineMark _)
  have behind : ('c' :: ("ode:".toList ++ ((natText n).toList ++ ':' :: rest))).drop lineMark.length
      = (natText n).toList ++ ':' :: rest := List.drop_left
  show findLine? ('c' :: ("ode:".toList ++ ((natText n).toList ++ ':' :: rest))) = some n
  rw [findLine?, if_pos front, behind, lineAt?_natText small]

/-! ## Pieces -/

/-- What holds no separator stands on one side of it. -/
theorem infix_of_append_cons {α : Type} {p a b : List α} {c : α} (apart : c ∉ p)
    (inside : p <:+: a ++ c :: b) :
    p <:+: a ∨ p <:+: b := by
  obtain ⟨s, t, whole⟩ := inside
  obtain ⟨left, rfl, -⟩ | ⟨right, front, behind⟩ := List.append_eq_append_iff.1 whole
  · exact .inl ⟨s, left, rfl⟩
  · cases right with
    | nil => exact .inl ⟨s, [], by rw [List.append_nil, front, List.append_nil]⟩
    | cons d right =>
      obtain ⟨rfl, rfl⟩ := List.cons.inj behind
      -- The separator stands behind the left side, so the piece starts behind it.
      obtain ⟨left, -, rfl⟩ | ⟨left, -, after⟩ := List.append_eq_append_iff.1 front
      · exact absurd (List.mem_append_right left List.mem_cons_self) apart
      · cases left with
        | nil =>
          rw [List.nil_append] at after
          exact absurd (after ▸ List.mem_cons_self) apart
        | cons e left =>
          obtain ⟨-, rfl⟩ := List.cons.inj after
          exact .inr ⟨left, t, rfl⟩

/-- A blank, a line end and the like. -/
def Separates (c : Char) : Prop := c ∉ lineMark ∧ c.isDigit = false

/-- **What a text tells is told by one of its pieces.** -/
theorem Tells.split {a b : List Char} {c : Char} {n : Nat} (apart : Separates c)
    (told : Tells (a ++ c :: b) n) :
    Tells a n ∨ Tells b n := by
  obtain ⟨ds, filled, digits, value, inside⟩ := told
  have absent : c ∉ lineMark ++ ds ++ [':'] := by
    rw [List.mem_append, List.mem_append, List.mem_singleton]
    rintro ((mark | digit) | rfl)
    · exact apart.1 mark
    · exact absurd (digits c digit) (apart.2 ▸ Bool.false_ne_true)
    · exact apart.1 (by decide)
  obtain left | right := infix_of_append_cons absent inside
  · exact .inl ⟨ds, filled, digits, value, left⟩
  · exact .inr ⟨ds, filled, digits, value, right⟩

/-- A text that does not hold every character of the mark tells nothing. -/
theorem not_tells {cs : List Char} {c : Char} (mark : c ∈ lineMark) (absent : c ∉ cs) (n : Nat) :
    ¬Tells cs n := by
  rintro ⟨ds, -, -, -, inside⟩
  exact absent (inside.subset (List.mem_append_left _ (List.mem_append_left _ mark)))

/-- A position tells its own line. -/
theorem tells_position {m n : Nat} (told : Tells (lineMark ++ (natText m).toList ++ [':']) n) :
    n = m := by
  obtain ⟨ds, filled, digits, rfl, s, t, whole⟩ := told
  have known : ∀ d ∈ (natText m).toList, d.isDigit = true := fun d mem => isDigit_of_mem_natText mem
  cases s with
  | nil =>
    simp only [List.nil_append, List.append_assoc, List.append_cancel_left_eq,
      List.cons_append] at whole
    have same := congrArg (List.takeWhile Char.isDigit) whole
    rw [List.takeWhile_append_of_pos digits, List.takeWhile_append_of_pos known,
      List.takeWhile_cons_of_neg (by decide), List.takeWhile_cons_of_neg (by decide),
      List.append_nil, List.append_nil] at same
    rw [same, natOfDigits_natText]
  | cons c s =>
    -- The mark begins with a letter that the position holds at its head only.
    have rest : 'c' ∈ "ode:".toList ++ (natText m).toList ++ [':'] := by
      have tail : s ++ (lineMark ++ ds ++ [':']) ++ t = "ode:".toList
          ++ (natText m).toList ++ [':'] :=
        (List.cons.inj whole).2
      rw [← tail]
      simp [lineMark, chunkName]
    simp only [List.mem_append] at rest
    obtain (mark | digit) | colon := rest
    · exact absurd mark (by decide)
    · exact absurd (known 'c' digit) (by decide)
    · exact absurd colon (by decide)

end Conveyor.Script
