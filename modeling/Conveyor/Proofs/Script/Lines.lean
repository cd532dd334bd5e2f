/-
The lines of a rewritten script.

Rewriting copies a script character by character and puts the inner name of a binding in place of
some of its dollar signs (`Substituted`). A dollar sign ends no line and neither do the names, so a
line of the script becomes a line of the rewritten one, the first the first, the second the second
(`Substituted.lines`): line numbers stay what they are.
-/
import Conveyor.Proofs.Lua.Lines
import Conveyor.Script.Rewrite
import Mathlib.Data.List.Forall2

set_option autoImplicit false

namespace Conveyor.Script

/-! ## Lines -/

/-- A line feed or a carriage return. -/
def endsLine (c : Char) : Bool := c = '\n' || c = '\r'

/-- What follows a line end that starts with a character: the two characters in either order are one
line end. -/
def afterLine (c : Char) : List Char → List Char
  | d :: cs => if endsLine d && d != c then cs else d :: cs
  | [] => []

theorem length_afterLine_le (c : Char) (cs : List Char) : (afterLine c cs).length ≤ cs.length := by
  fun_cases afterLine c cs with
  | case1 d cs pair => exact Nat.le_succ _
  | case2 d cs alone => exact Nat.le_refl _
  | case3 => exact Nat.le_refl _

/-- A text in front of the first line. -/
def onFirst (front : List Char) : List (List Char) → List (List Char)
  | [] => [front]
  | line :: rest => (front ++ line) :: rest

/-- The lines of a text, without their ends. -/
def lines : List Char → List (List Char)
  | [] => [[]]
  | c :: cs => if endsLine c then [] :: lines (afterLine c cs) else onFirst [c] (lines cs)
termination_by cs => cs.length
decreasing_by
  · exact Nat.lt_succ_of_le (length_afterLine_le c cs)
  · exact Nat.lt_succ_self _

theorem lines_other {c : Char} {cs : List Char} (other : endsLine c = false) :
    lines (c :: cs) = onFirst [c] (lines cs) := by
  rw [lines, if_neg (Bool.not_eq_true _ ▸ other)]

/-- There is a first line. -/
theorem lines_ne_nil (cs : List Char) : lines cs ≠ [] := by
  fun_cases lines cs with
  | case1 => exact List.cons_ne_nil _ _
  | case2 c cs ends => exact List.cons_ne_nil _ _
  | case3 c cs other => cases lines cs <;> exact List.cons_ne_nil _ _

/-- Any other character begins the first line. -/
theorem lines_cons {c : Char} (other : endsLine c = false) (cs : List Char) :
    ∃ line more, lines (c :: cs) = (c :: line) :: more := by
  obtain ⟨line, more, whole⟩ := List.exists_cons_of_ne_nil (lines_ne_nil cs)
  exact ⟨line, more, by rw [lines_other other, whole, onFirst, List.singleton_append]⟩

/-- What holds no line end stands on the first line. -/
theorem lines_append {front : List Char} (plain : front.any endsLine = false) (cs : List Char) :
    lines (front ++ cs) = onFirst front (lines cs) := by
  obtain ⟨first, rest, whole⟩ := List.exists_cons_of_ne_nil (lines_ne_nil cs)
  induction front with
  | nil => rw [List.nil_append, whole, onFirst, List.nil_append]
  | cons c front ih =>
    rw [List.any_cons, Bool.or_eq_false_iff] at plain
    rw [List.cons_append, lines_other plain.1, ih plain.2, whole]
    rfl

/-! ## Lines of bytes -/

section Bytes

open Lua.Lexeme

theorem toList_loop (bs : ByteArray) (i : Nat) (r : List UInt8) :
    ByteArray.toList.loop bs i r = r.reverse ++ bs.data.toList.drop i := by
  fun_induction ByteArray.toList.loop bs i r with
  | case1 i r more ih =>
    have inside : i < bs.data.toList.length := more
    have byte : bs.get! i = bs.data.toList[i] := getElem!_pos bs.data i more
    rw [ih, List.reverse_cons, List.append_assoc, List.drop_eq_getElem_cons inside,
      List.singleton_append, byte]
  | case2 i r past => rw [List.drop_of_length_le (Nat.le_of_not_lt past), List.append_nil]

theorem toList_eq_data (bs : ByteArray) : bs.toList = bs.data.toList := by
  rw [ByteArray.toList, toList_loop]
  rfl

theorem toList_toUTF8 (s : String) : s.toUTF8.toList = s.toList.flatMap String.utf8EncodeChar := by
  have whole := String.toByteArray_ofList (l := s.toList)
  rw [String.ofList_toList] at whole
  rw [toList_eq_data, String.toUTF8_eq_toByteArray, whole, List.utf8Encode,
    List.toList_data_toByteArray]

theorem isNewline_ofNat {n : Nat} (apart : n ≠ 10 ∧ n ≠ 13) (byte : n < 256) :
    isNewline (UInt8.ofNat n) = false := by
  have back : (UInt8.ofNat n).toNat = n := UInt8.toNat_ofNat_of_lt' byte
  rw [isNewline, Bool.or_eq_false_iff, beq_eq_false_iff_ne, beq_eq_false_iff_ne]
  constructor <;> intro same <;> rw [same] at back
  · exact apart.1 back.symm
  · exact apart.2 back.symm

/-- A character that ends a line is one byte. -/
theorem utf8_line {c : Char} (ends : endsLine c = true) :
    ∃ b, String.utf8EncodeChar c = [b] ∧ isNewline b = true ∧ b.toNat = c.toNat := by
  rw [endsLine, Bool.or_eq_true, decide_eq_true_eq, decide_eq_true_eq] at ends
  obtain rfl | rfl := ends
  · exact ⟨10, rfl, rfl, rfl⟩
  · exact ⟨13, rfl, rfl, rfl⟩

/-- No byte of any other character ends a line. -/
theorem utf8_other {c : Char} (other : endsLine c = false) :
    String.utf8EncodeChar c ≠ [] ∧ ∀ b ∈ String.utf8EncodeChar c, isNewline b = false := by
  rw [endsLine, Bool.or_eq_false_iff, decide_eq_false_iff_not, decide_eq_false_iff_not] at other
  have apart : c.val.toNat ≠ 10 ∧ c.val.toNat ≠ 13 := by
    constructor <;> intro same
    · exact other.1 (Char.ext (UInt32.toNat_inj.1 same))
    · exact other.2 (Char.ext (UInt32.toNat_inj.1 same))
  have high {m : Nat} (low : 128 ≤ m) (byte : m < 256) : isNewline (UInt8.ofNat m) = false :=
    isNewline_ofNat (by omega) byte
  -- From one byte to four; the bytes of longer ones are all high.
  unfold String.utf8EncodeChar
  simp only
  split
  · exact ⟨List.cons_ne_nil _ _, List.forall_mem_singleton.2 (isNewline_ofNat apart (by omega))⟩
  split
  · refine ⟨List.cons_ne_nil _ _, List.forall_mem_cons.2 ⟨?_, List.forall_mem_singleton.2 ?_⟩⟩
    all_goals exact high (by omega) (by omega)
  split
  · refine ⟨List.cons_ne_nil _ _, List.forall_mem_cons.2 ⟨?_, List.forall_mem_cons.2
      ⟨?_, List.forall_mem_singleton.2 ?_⟩⟩⟩
    all_goals exact high (by omega) (by omega)
  · refine ⟨List.cons_ne_nil _ _, List.forall_mem_cons.2 ⟨?_,
      List.forall_mem_cons.2 ⟨?_, List.forall_mem_cons.2 ⟨?_, List.forall_mem_singleton.2 ?_⟩⟩⟩⟩
    all_goals exact high (by omega) (by omega)

theorem lineBreaks_append {front : List UInt8} (plain : ∀ b ∈ front, isNewline b = false)
    (cs : List UInt8) :
    lineBreaks (front ++ cs) = lineBreaks cs := by
  have passed := (Reaches.append plain (.refl cs 0)).lines
  omega

/-- What follows a line end, as bytes. -/
theorem afterNewline_flatMap {c : Char} {b : UInt8} (same : b.toNat = c.toNat) (cs : List Char) :
    afterNewline b (cs.flatMap String.utf8EncodeChar)
      = (afterLine c cs).flatMap String.utf8EncodeChar := by
  -- The line end may take one character more, which is seen from the next one.
  cases cs with
  | nil => rfl
  | cons d cs =>
    rw [List.flatMap_cons, afterLine]
    cases ends : endsLine d with
    | false =>
      obtain ⟨filled, plain⟩ := utf8_other ends
      obtain ⟨e, more, whole⟩ := List.exists_cons_of_ne_nil filled
      rw [whole] at plain
      rw [Bool.false_and, if_neg Bool.false_ne_true, List.flatMap_cons, whole, List.cons_append,
        afterNewline, (List.forall_mem_cons.1 plain).1]
      rfl
    | true =>
      obtain ⟨e, one, line, same'⟩ := utf8_line ends
      -- The two bytes differ exactly if the two characters do.
      have pair : (e != b) = (d != c) := by
        rw [bne, bne, Bool.not_inj_iff, Bool.eq_iff_iff, beq_iff_eq, beq_iff_eq, ← UInt8.toNat_inj,
          same', same]
        exact Char.toNat_inj
      rw [one, List.singleton_append, afterNewline, line, pair]
      split
      · rfl
      · rw [List.flatMap_cons, one]
        rfl

/-- **A text has as many lines as its bytes.** -/
theorem length_lines (cs : List Char) :
    (lines cs).length = lineBreaks (cs.flatMap String.utf8EncodeChar) + 1 := by
  fun_induction lines cs with
  | case1 => rw [List.flatMap_nil, lineBreaks]; rfl
  | case2 c cs ends ih =>
    obtain ⟨b, one, line, same⟩ := utf8_line ends
    rw [List.length_cons, ih, List.flatMap_cons, one, List.singleton_append, lineBreaks,
      if_pos line, afterNewline_flatMap same]
  | case3 c cs other ih =>
    have plain := (utf8_other (Bool.not_eq_true _ ▸ other)).2
    obtain ⟨line, more, whole⟩ := List.exists_cons_of_ne_nil (lines_ne_nil cs)
    rw [List.flatMap_cons, lineBreaks_append plain, ← ih, whole]
    rfl

end Bytes

/-! ## Substitution -/

/-- A text is copied, but for some dollar signs: one in front of a parenthesis may become the name
of the function that finds a node, one in front of the beginning of a name the beginning of an inner
name. -/
inductive Substituted : List Char → List Char → Prop where
  | done : Substituted [] []
  | copy (c : Char) {cs out : List Char} (rest : Substituted cs out) :
    Substituted (c :: cs) (c :: out)
  | node {cs out : List Char} (rest : Substituted ('(' :: cs) out) :
    Substituted ('$' :: '(' :: cs) ("__node".toList ++ out)
  | name {c : Char} {cs out : List Char} (starts : startsName c = true)
    (rest : Substituted (c :: cs) out) :
    Substituted ('$' :: c :: cs) ("__".toList ++ out)

namespace Substituted

variable {cs out : List Char}

/-- What is copied may stand in front. -/
theorem append (copied : List Char) (rest : Substituted cs out) :
    Substituted (copied ++ cs) (copied ++ out) := by
  induction copied with
  | nil => exact rest
  | cons c copied ih => exact .copy c ih

/-- The mark of a binding is a substitute for its dollar sign. -/
theorem mark (rest : Substituted cs out) : Substituted ('$' :: cs) (bindingMark cs ++ out) := by
  unfold bindingMark
  split
  · exact .node rest
  · split
    · rename_i starts
      exact .name starts rest
    · exact .copy '$' rest
  · exact .copy '$' rest

/-- A line end is copied, and what follows it goes on as a substitution. -/
theorem afterLine {c : Char} (ends : endsLine c = true) (whole : Substituted (c :: cs) out) :
    ∃ out', out = c :: out' ∧ Substituted (Script.afterLine c cs) (Script.afterLine c out') := by
  cases whole with
  | node => exact absurd ends (by decide)
  | name => exact absurd ends (by decide)
  | @copy _ _ out' rest =>
    refine ⟨out', rfl, ?_⟩
    cases rest with
    | done => exact .done
    | node rest => exact .node rest
    | name starts rest => exact .name starts rest
    | copy d rest =>
      rw [Script.afterLine, Script.afterLine]
      split
      · exact rest
      · exact .copy d rest

theorem startsName_endsLine {c : Char} (starts : startsName c = true) : endsLine c = false := by
  rw [endsLine, Bool.or_eq_false_iff, decide_eq_false_iff_not, decide_eq_false_iff_not]
  constructor <;> rintro rfl <;> exact absurd starts (by decide)

/-- **Lines stay where they are.** The rewritten script has as many lines as the script, and each of
them is what substitution makes of the line of the same number. -/
theorem lines (whole : Substituted cs out) :
    List.Forall₂ Substituted (Script.lines cs) (Script.lines out) := by
  -- The induction is on the script: a line end splits both texts, and anything else lengthens the
  -- first line behind it.
  fun_induction Script.lines cs generalizing out with
  | case1 =>
    cases whole
    rw [Script.lines]
    exact .cons .done .nil
  | case2 c cs ends ih =>
    obtain ⟨out, rfl, rest⟩ := whole.afterLine ends
    rw [Script.lines, if_pos ends]
    exact .cons .done (ih rest)
  | case3 c cs other ih =>
    have other : endsLine c = false := Bool.not_eq_true _ ▸ other
    cases whole with
    | copy _ rest =>
      rw [lines_other other]
      cases whole : Script.lines cs with
      | nil => exact absurd whole (lines_ne_nil cs)
      | cons line more =>
        obtain ⟨line', more', first, later, same⟩ := List.forall₂_cons_left_iff.1 (whole ▸ ih rest)
        rw [same]
        exact .cons (.copy c first) later
    -- A name that is put in has no line end, and so it lengthens the line in which it stands.
    | @node cs out rest =>
      obtain ⟨line, more, whole⟩ := lines_cons (c := '(') (by decide) cs
      obtain ⟨line', more', first, later, same⟩ := List.forall₂_cons_left_iff.1 (whole ▸ ih rest)
      rw [lines_append (by decide), whole, same]
      exact .cons (.node first) later
    | @name d cs out starts rest =>
      obtain ⟨line, more, whole⟩ := lines_cons (startsName_endsLine starts) cs
      obtain ⟨line', more', first, later, same⟩ := List.forall₂_cons_left_iff.1 (whole ▸ ih rest)
      rw [lines_append (by decide), whole, same]
      exact .cons (.name starts first) later

end Substituted

/-- **Rewriting is a substitution.** -/
theorem substituted_rewrite (cs : List Char) : Substituted cs (rewrite cs) := by
  fun_induction rewrite cs with
  | case1 => exact .done
  | case2 c cs n literal ih =>
    have copied := ih.append (c :: cs.take n)
    rwa [List.cons_append, List.take_append_drop] at copied
  | case3 cs none ih => exact ih.mark
  | case4 c cs none other ih => exact .copy c ih

end Conveyor.Script
