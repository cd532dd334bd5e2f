/-
How the right operand of an operation with a pattern is read.

An operand is either a pattern by itself, or an expression between slashes with letters behind it
that set flags. Which of the two is asked of the slashes alone: one at the start and any other one
make it the second, and the last one ends the expression (`patternOf?_slashes`). What stands behind
that is not looked at but for the letters `i`, `m` and `s`, so a path with two slashes loses its
first character and everything from its last slash on. For operands without operators of regular
expressions that is never harmless: what stands between the slashes is a text that the operation
finds, and the whole operand, which is longer, does not match it (`patternOperation_iff`).
-/
import Conveyor.Filter.Operator
import Conveyor.Proofs.Regex.Plain
import Mathlib.Data.List.TakeDrop
import Mathlib.Data.List.TakeWhile

set_option autoImplicit false

namespace Conveyor.Filter

/-! ## Slashes -/

variable {cs body letters : List Char}

theorem splitLastSlash_append (noSlash : '/' ∉ letters) :
    splitLastSlash (body ++ '/' :: letters) = some (body, letters) := by
  have others : ∀ c ∈ letters.reverse, (c != '/') = true := fun c mem =>
    bne_iff_ne.2 fun slash => noSlash (slash ▸ List.mem_reverse.1 mem)
  have parts : (body ++ '/' :: letters).reverse = letters.reverse ++ '/' :: body.reverse := by simp
  rw [splitLastSlash, parts, List.span_eq_takeWhile_dropWhile, List.takeWhile_append_of_pos others,
    List.dropWhile_append_of_pos others]
  simp

theorem splitLastSlash_eq_none (noSlash : '/' ∉ cs) : splitLastSlash cs = none := by
  have others : ∀ c ∈ cs.reverse, (c != '/') = true := fun c mem =>
    bne_iff_ne.2 fun slash => noSlash (slash ▸ List.mem_reverse.1 mem)
  rw [splitLastSlash, List.span_eq_takeWhile_dropWhile, List.dropWhile_eq_nil_iff.2 others]

/-- A text with a slash has a last one. -/
theorem exists_last_slash (slash : '/' ∈ cs) :
    ∃ body letters, cs = body ++ '/' :: letters ∧ '/' ∉ letters := by
  obtain ⟨before, after, split, noSlash⟩ := List.eq_append_cons_of_mem (List.mem_reverse.2 slash)
  refine ⟨after.reverse, before.reverse, ?_, fun mem => noSlash (List.mem_reverse.1 mem)⟩
  rw [← List.reverse_reverse cs, split]
  simp

/-! ## What an operand is read as -/

/-- The flags that letters set. -/
def flagsOf (letters : List Char) : Regex.Flags :=
  { ignoreCase := letters.contains 'i', multiLine := letters.contains 'm',
    dotAll := letters.contains 's' }

variable {operand : String}

theorem patternOf?_whole (h : '/' ∉ operand.toList.tail ∨ operand.toList.head? ≠ some '/') :
    patternOf? operand = Regex.parse? {} operand := by
  have parts : patternParts operand.toList = (operand.toList, []) := by
    unfold patternParts
    split
    · next rest eq =>
      rw [eq] at h ⊢
      rcases h with noSlash | other
      · rw [splitLastSlash_eq_none (show '/' ∉ rest from noSlash)]
        rfl
      · exact absurd rfl other
    · rfl
  rw [patternOf?, parts]
  dsimp only
  rw [String.ofList_toList]
  rfl

theorem patternOf?_slashes (h : operand.toList = '/' :: body ++ '/' :: letters)
    (noSlash : '/' ∉ letters) :
    patternOf? operand = Regex.parse? (flagsOf letters) (String.ofList body) := by
  rw [patternOf?, h, List.cons_append, patternParts, splitLastSlash_append noSlash]
  rfl

/-! ## The operations -/

/-- The operation that asks whether a text matches, or whether it does not. -/
def patternOperation (negated : Bool) : String := if negated then "notRegex" else "regex"

/-- What such an operation answers about a left operand if its right operand is read as a
pattern. -/
def answer (operand : String) (read : Option Regex.Pattern) (negated : Bool) (left : Json)
    (caseSensitive : Bool) :
    Except ConditionError Bool := do
  let l ← toText left
  match read with
  | some p => return p.isMatch (folded caseSensitive l) != negated
  | none => throw (.invalidPattern operand Regex.refusal)

/-- The operation takes its whole right operand for the pattern, without flags. -/
def TakenWhole (operand : String) (negated : Bool) : Prop :=
  ∀ left caseSensitive,
    evaluate "string" (patternOperation negated) left (.str operand) caseSensitive
    = answer operand (Regex.parse? {} operand) negated left caseSensitive

theorem ofName?_patternOperation (negated : Bool) :
    TextTest.ofName? (patternOperation negated) = some ⟨.pattern, negated⟩ := by
  cases negated <;> rfl

theorem answer_of_isMatch {read : Option Regex.Pattern} {negated caseSensitive outcome : Bool}
    {l : String} (h : read.map (·.isMatch (folded caseSensitive l)) = some outcome) :
    answer operand read negated (.str l) caseSensitive = .ok (outcome != negated) := by
  obtain ⟨p, rfl, rfl⟩ := Option.map_eq_some_iff.1 h
  rfl

theorem evaluate_pattern (operand : String) (negated : Bool) (left : Json) (caseSensitive : Bool) :
    evaluate "string" (patternOperation negated) left (.str operand) caseSensitive =
      answer operand (patternOf? operand) negated left caseSensitive := by
  have table : textOperation (patternOperation negated) left (.str operand) caseSensitive =
      (answer operand (patternOf? operand) negated left caseSensitive).map some := by
    unfold textOperation answer
    rw [ofName?_patternOperation]
    cases toText left with
    | error e => rfl
    | ok l =>
      show (TextTest.holds .pattern caseSensitive l operand >>= fun b => pure (some (b != negated)))
        = _
      rw [TextTest.holds]
      cases patternOf? operand <;> rfl
  have before : beforeTables (patternOperation negated) left (.str operand) = none := by
    cases negated <;> rfl
  rw [evaluate, before, tableOperation, table]
  cases answer operand (patternOf? operand) negated left caseSensitive <;> rfl

/-- Between slashes, a text without operators is found and the whole operand does not match it. -/
theorem not_takenWhole (negated : Bool) (h : operand.toList = '/' :: body ++ '/' :: letters)
    (noSlash : '/' ∉ letters) (plain : ∀ c ∈ operand.toList, c ∉ Regex.operators)
    (short : operand.toList.length ≤ Regex.sizeLimit) :
    ¬TakenWhole operand negated := by
  intro whole
  have length : operand.toList.length = body.length + letters.length + 2 := by
    rw [h, List.length_append, List.length_cons, List.length_cons]
    omega
  have plain_body : ∀ c ∈ body, c ∉ Regex.operators := fun c mem =>
    plain c (by rw [h]; exact List.mem_append_left _ (List.mem_cons_of_mem _ mem))
  obtain ⟨p, read, found⟩ :=
    Regex.isMatch_plain_iff (f := flagsOf letters) rfl rfl plain_body (by omega)
  obtain ⟨p', read', found'⟩ := Regex.isMatch_plain_iff (f := {}) rfl rfl plain short
  rw [String.ofList_toList] at read'
  have matched : p.isMatch (String.ofList body) = true := by
    -- Every character is in the set it stands for, so the text is a match of itself.
    refine (found _).2 ⟨body, by simp, ?_⟩
    exact List.forall₂_same.2 fun c _ => Regex.CharSet.ofPlain_has _ c
  have unmatched : p'.isMatch (String.ofList body) = false := by
    refine Bool.eq_false_iff.2 fun matches' => ?_
    -- A match is as long as the operand, and longer than what stands between its slashes.
    obtain ⟨part, inside, accepted⟩ := (found' _).1 matches'
    have := inside.length_le
    rw [String.toList_ofList, ← accepted.length_eq] at this
    omega
  have := whole (.str (String.ofList body)) true
  rw [evaluate_pattern, patternOf?_slashes h noSlash, read, read'] at this
  have same : (p.isMatch (String.ofList body) != negated)
      = (p'.isMatch (String.ofList body) != negated) :=
    Except.ok.inj this
  rw [matched, unmatched] at same
  cases negated <;> exact absurd same (by decide)

/-- **How an operand of `regex` and `notRegex` is read.** It is taken for the pattern, as it is and
without flags, if it does not start with a slash or has no other one. If it has, the pattern is what
stands between the first slash and the last one, and its flags are those of `i`, `m` and `s` that
occur behind it, whatever else occurs there. For an operand that starts with a slash and has no
operators of regular expressions but the dot, that differs from taking it whole exactly if it has
another slash. -/
theorem patternOperation_iff (operand : String) (negated : Bool) :
    ('/' ∉ operand.toList.tail ∨ operand.toList.head? ≠ some '/' → TakenWhole operand negated) ∧
    (∀ body letters, operand.toList = '/' :: body ++ '/' :: letters → '/' ∉ letters →
      ∀ left caseSensitive,
        evaluate "string" (patternOperation negated) left (.str operand) caseSensitive =
          answer operand (Regex.parse? (flagsOf letters) (String.ofList body)) negated left
            caseSensitive) ∧
    (operand.toList.head? = some '/' → (∀ c ∈ operand.toList, c ∉ Regex.operators) →
      operand.toList.length ≤ Regex.sizeLimit →
        (TakenWhole operand negated ↔ '/' ∉ operand.toList.tail)) := by
  have whole : '/' ∉ operand.toList.tail ∨ operand.toList.head? ≠ some '/' →
      TakenWhole operand negated := by
    intro h left caseSensitive
    rw [evaluate_pattern, patternOf?_whole h]
  refine ⟨whole, fun body letters h noSlash left caseSensitive => ?_,
    fun slash plain short => ⟨fun taken second => ?_, fun single => whole (.inl single)⟩⟩
  · rw [evaluate_pattern, patternOf?_slashes h noSlash]
  · obtain ⟨rest, eq⟩ : ∃ rest, operand.toList = '/' :: rest := List.head?_eq_some_iff.1 slash
    rw [eq, List.tail_cons] at second
    obtain ⟨body, letters, rfl, noSlash⟩ := exists_last_slash second
    exact not_takenWhole negated eq noSlash plain short taken

/-- A path with a version in it: its last part has the letter of a flag. -/
def usersPath : String := "/api/v1.0/users"

/-- The path is not taken whole: the dot in it stands for any character, also for one that ends a
line. -/
theorem usersPath_cut :
    (usersPath.toList.head? = some '/' ∧ (∀ c ∈ usersPath.toList, c ∉ Regex.operators) ∧
      usersPath.toList.length ≤ Regex.sizeLimit) ∧
    ¬TakenWhole usersPath true ∧
    ∀ left caseSensitive, evaluate "string" "notRegex" left (.str usersPath) caseSensitive =
      answer usersPath (Regex.parse? { dotAll := true } "api/v1.0") true left caseSensitive := by
  obtain ⟨-, cut, taken_iff⟩ := patternOperation_iff usersPath true
  have slash : usersPath.toList.head? = some '/' := by decide +kernel
  have plain : ∀ c ∈ usersPath.toList, c ∉ Regex.operators := by
    have : usersPath.toList.all (fun c => !Regex.operators.contains c) = true := by decide +kernel
    simpa using this
  have length : usersPath.toList.length = 15 := by decide +kernel
  have short : usersPath.toList.length ≤ Regex.sizeLimit := by
    rw [length, Regex.sizeLimit]
    omega
  have second : '/' ∈ usersPath.toList.tail := by decide +kernel
  refine ⟨⟨slash, plain, short⟩, fun taken => (taken_iff slash plain short).1 taken second, ?_⟩
  exact cut "api/v1.0".toList "users".toList (by decide +kernel) (by decide +kernel)

/-- A path as a pattern. What stands behind its last slash is no list of flags, and yet the path is
cut there and the `i` in it is taken for one. -/
theorem local_bin_cut :
    ("/usr/local/bin".toList = '/' :: "usr/local".toList ++ '/' :: "bin".toList ∧
      'n' ∈ "bin".toList ∧ 'n' ∉ "gimsuxy".toList) ∧
    evaluate "string" "regex" (.str "USR/LOCAL/X") (.str "/usr/local/bin") true = .ok true ∧
    answer "/usr/local/bin" (Regex.parse? {} "/usr/local/bin") false (.str "USR/LOCAL/X") true
      = .ok false := by
  refine ⟨by decide +kernel, ?_, answer_of_isMatch (by decide +kernel : _ = some false)⟩
  rw [show "regex" = patternOperation false from rfl, evaluate_pattern]
  exact answer_of_isMatch (by decide +kernel : _ = some true)

end Conveyor.Filter
