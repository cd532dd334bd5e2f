/-
What is read of a path in bracket notation.

A path is handed on as a text, `$['a'][0]`, and what finds its value is the path that is read from
that text. Each bracket is read by itself: a key comes back as `readBack?` says, or the whole text
cannot be read, since what is taken for the closing quote is then not followed by a closing bracket.
That argument needs keys without closing brackets, which are the keys of all paths that can be
spelled. So a path is looked up by what is read from its text (`lookup_of_parse`).
-/
import Conveyor.Proofs.Parameter.Grammar
import Conveyor.Proofs.Parameter.Selector

set_option autoImplicit false

namespace Conveyor.Parameter.Path

variable {key more rest cs : List Char} {path : Path} {n : Nat}

/-! ## Quoted keys -/

/-- A backslash adds no quote. -/
theorem quote_not_mem_concat (unquoted : '\'' ∉ key) : '\'' ∉ key ++ ['\\'] := by
  rw [List.mem_append, not_or]
  exact ⟨unquoted, by decide⟩

theorem readQuoted?_of_plain (unquoted : '\'' ∉ key) (plain : key.getLast? ≠ some '\\') :
    readQuoted? (key ++ '\'' :: rest) = some (key, rest) := by
  rw [readQuoted?, span_quote unquoted]
  exact if_neg plain

/-- A quote behind a backslash is part of the key, and the next one ends it. -/
theorem readQuoted?_of_escaped (unquoted : '\'' ∉ key) (unquoted' : '\'' ∉ more) :
    readQuoted? (key ++ '\\' :: '\'' :: (more ++ '\'' :: rest))
      = some (key ++ '\'' :: more, rest) := by
  rw [List.append_cons, readQuoted?, span_quote (quote_not_mem_concat unquoted)]
  simp only [List.getLast?_concat, if_true, span_quote unquoted', List.dropLast_concat]

/-- Without a further quote the key does not end. -/
theorem readQuoted?_eq_none (unquoted : '\'' ∉ key) (unquoted' : '\'' ∉ rest) :
    readQuoted? (key ++ '\\' :: '\'' :: rest) = none := by
  rw [List.append_cons, readQuoted?, span_quote (quote_not_mem_concat unquoted)]
  simp only [List.getLast?_concat, if_true, span_unquoted unquoted']

/-- Nothing is read where no bracket closes behind the key. -/
theorem readBracket?_eq_none (read : readQuoted? cs = some (key, rest))
    (opened : rest.head? ≠ some ']') :
    readBracket? ('\'' :: cs) = none := by
  rw [readBracket?, read]
  split
  · rename_i closed
    obtain ⟨-, rfl⟩ := Prod.mk.inj (Option.some.inj closed)
    exact absurd rfl opened
  · rfl

/-- No bracket closes behind the first quote. -/
def Open (cs : List Char) : Prop :=
  ∀ before after, cs = before ++ '\'' :: after → '\'' ∉ before → after.head? ≠ some ']'

theorem open_nil : Open [] := fun before after whole =>
  absurd whole (List.append_ne_nil_of_right_ne_nil before (List.cons_ne_nil _ after)).symm

theorem open_quote (opened : rest.head? ≠ some ']') : Open ('\'' :: rest) := by
  intro before after whole unquoted
  cases before with
  | nil => exact (List.cons.inj whole).2 ▸ opened
  | cons c before => exact absurd ((List.cons.inj whole).1 ▸ List.mem_cons_self) unquoted

theorem Open.append (opened : Open rest) (unquoted : '\'' ∉ key) : Open (key ++ rest) := by
  induction key with
  | nil => exact opened
  | cons c cs ih =>
    rw [List.mem_cons, not_or] at unquoted
    intro before after whole apart
    cases before with
    | nil => exact absurd (List.cons.inj whole).1.symm unquoted.1
    | cons d before =>
      exact ih unquoted.2 before after (List.cons.inj whole).2 fun mem =>
        apart (List.mem_cons_of_mem d mem)

/-- An escaped key without closing brackets begins with none. -/
theorem head?_escaped (closing : ']' ∉ key) :
    (key.flatMap escaped ++ '\'' :: rest).head? ≠ some ']' := by
  cases key with
  | nil => exact (by decide : some '\'' ≠ some ']')
  | cons c cs =>
    have other : c ≠ ']' := fun same => closing (same ▸ List.mem_cons_self)
    rw [List.flatMap_cons, escaped]
    split
    · exact (by decide : some '\\' ≠ some ']')
    · exact fun same => other (Option.some.inj same)

/-- **A key in brackets is read back as `readBack?` says**, and what follows it is left. -/
theorem readBracket?_key (closing : ']' ∉ key) (opened : Open rest) :
    readBracket? ('\'' :: (escapeKey key ++ '\'' :: ']' :: rest))
      = (readBack? key).map fun cs => (.key (String.ofList cs), rest) := by
  rw [escapeKey_eq_flatMap]
  by_cases quoted : '\'' ∈ key
  · obtain ⟨before, more, rfl, unquoted⟩ := List.eq_append_cons_of_mem quoted
    have shape : ∀ tail, (before ++ '\'' :: more).flatMap escaped ++ tail
        = doubled before ++ '\\' :: '\'' :: (more.flatMap escaped ++ tail) := fun tail => by
      rw [List.flatMap_append, List.flatMap_cons, flatMap_escaped unquoted, List.append_assoc,
        List.append_assoc]
      rfl
    rw [shape, readBack?_of_quoted unquoted]
    split
    · -- The second quote is taken for the end, and what follows it belongs to the key.
      rename_i second
      obtain ⟨between, last, rfl, unquoted'⟩ := List.eq_append_cons_of_mem second
      have behind : ']' ∉ last := fun mem => closing (by simp [mem])
      have escape : (between ++ '\'' :: last).flatMap escaped ++ '\'' :: ']' :: rest
          = (doubled between ++ ['\\'])
            ++ '\'' :: (last.flatMap escaped ++ '\'' :: ']' :: rest) := by
        rw [List.flatMap_append, List.flatMap_cons, flatMap_escaped unquoted', List.append_assoc,
          List.append_assoc, List.append_assoc]
        rfl
      have apart := quote_not_mem_concat (quote_not_mem_doubled unquoted')
      rw [escape]
      exact readBracket?_eq_none (readQuoted?_of_escaped (quote_not_mem_doubled unquoted) apart)
        (head?_escaped behind)
    · rename_i single
      rw [flatMap_escaped single, readBracket?,
        readQuoted?_of_escaped (quote_not_mem_doubled unquoted) (quote_not_mem_doubled single)]
      simp only [Option.map_some, doubled, List.flatMap_append, List.flatMap_cons]
      rfl
  · rw [flatMap_escaped quoted, readBack?_of_unquoted quoted]
    split
    · -- The closing quote is taken for a part of the key, which goes on behind it.
      rename_i backslash
      obtain ⟨front, whole⟩ := List.getLast?_eq_some_iff.1 ((getLast?_doubled key).trans backslash)
      have apart : '\'' ∉ front := fun mem =>
        quote_not_mem_doubled quoted (whole ▸ List.mem_append_left _ mem)
      rw [whole, List.append_assoc, List.singleton_append]
      by_cases further : '\'' ∈ rest
      · obtain ⟨before, after, rfl, unquoted⟩ := List.eq_append_cons_of_mem further
        have unquoted' : '\'' ∉ ']' :: before := by
          rw [List.mem_cons, not_or]
          exact ⟨by decide, unquoted⟩
        exact readBracket?_eq_none (readQuoted?_of_escaped apart unquoted')
          (opened before after rfl unquoted)
      · have unquoted : '\'' ∉ ']' :: rest := by
          rw [List.mem_cons, not_or]
          exact ⟨by decide, further⟩
        rw [readBracket?, readQuoted?_eq_none apart unquoted]
        rfl
    · rename_i plain
      rw [readBracket?,
        readQuoted?_of_plain (quote_not_mem_doubled quoted) (by rwa [getLast?_doubled])]
      rfl

/-! ## Positions -/

/-- A position in brackets is read back, unless it is too great. -/
theorem readBracket?_index (n : Nat) (rest : List Char) :
    readBracket? ((Decimal.natText n).toList ++ ']' :: rest)
      = if n ≤ maxPosition then some (.index n, rest) else none := by
  have digits : ∀ c ∈ (Decimal.natText n).toList, c.isDigit = true :=
    fun c => Decimal.isDigit_of_mem_natText
  have number : Decimal.natOfText? (String.ofList (Decimal.natText n).toList) = some n := by
    rw [String.ofList_toList, Decimal.natOfText?_eq_some_iff]
    exact ⟨Decimal.natText_ne_nil n, digits, Decimal.natOfDigits_natText n⟩
  have span : Decimal.spanDigits ((Decimal.natText n).toList ++ ']' :: rest)
      = ((Decimal.natText n).toList, ']' :: rest) := by
    rw [Decimal.spanDigits, List.span_eq_takeWhile_dropWhile, List.takeWhile_append_of_pos digits,
      List.dropWhile_append_of_pos digits, List.takeWhile_cons_of_neg (by decide),
      List.dropWhile_cons_of_neg (by decide), List.append_nil]
  rw [readBracket?]
  · simp only [span, number, Option.filter_some, decide_eq_true_eq]
    split <;> rfl
  -- A number does not begin with a quote.
  · intro tail quote
    cases shape : (Decimal.natText n).toList with
    | nil => exact Decimal.natText_ne_nil n shape
    | cons c cs =>
      rw [shape, List.cons_append] at quote
      have first := digits c (shape ▸ List.mem_cons_self)
      rw [(List.cons.inj quote).1] at first
      exact absurd first (by decide)

/-! ## Paths -/

/-- The brackets of a path. -/
def brackets (path : Path) : List Char := path.flatMap fun s => (bracketText s).toList

theorem brackets_key (k : String) (path : Path) :
    brackets (.key k :: path)
      = '[' :: '\'' :: (escapeKey k.toList ++ '\'' :: ']' :: brackets path) := by
  simp only [brackets, List.flatMap_cons, bracketText, String.toList_append, String.toList_ofList,
    List.append_assoc]
  rfl

theorem brackets_index (n : Nat) (path : Path) :
    brackets (.index n :: path) = '[' :: ((Decimal.natText n).toList ++ ']' :: brackets path) := by
  simp only [brackets, List.flatMap_cons, bracketText, String.toList_append, List.append_assoc]
  rfl

theorem toList_selectorText (path : Path) : path.selectorText.toList = '$' :: brackets path := by
  have joined : (String.join (path.map bracketText)).toList = brackets path := by
    simp only [String.toList_join, List.flatMap_map, brackets]
  rw [selectorText, String.toList_append, joined]
  rfl

/-- Behind the first quote of some brackets is a key, which does not begin with a closing
bracket. -/
theorem open_brackets (closing : ∀ k, .key k ∈ path → ']' ∉ k.toList) : Open (brackets path) := by
  induction path with
  | nil => exact open_nil
  | cons s path ih =>
    have others := ih fun k mem => closing k (List.mem_cons_of_mem s mem)
    cases s with
    | key k =>
      have quote : Open ('\'' :: (k.toList.flatMap escaped ++ '\'' :: ']' :: brackets path)) :=
        open_quote (head?_escaped (closing k List.mem_cons_self))
      rw [brackets_key, escapeKey_eq_flatMap]
      exact quote.append (by decide : '\'' ∉ ['['])
    | index n =>
      have unquoted : '\'' ∉ (Decimal.natText n).toList := fun mem =>
        absurd (Decimal.isDigit_of_mem_natText mem) (by decide)
      have closes : Open (']' :: brackets path) := others.append (by decide : '\'' ∉ [']'])
      rw [brackets_index]
      exact (closes.append unquoted).append (by decide : '\'' ∉ ['['])

/-- The first bracket of a path is read as its first segment comes back. -/
theorem readBracket?_brackets {s : Segment} (closing : ∀ k, .key k ∈ s :: path → ']' ∉ k.toList) :
    ∃ cs, brackets (s :: path) = '[' :: cs ∧
      readBracket? cs = (selector? s).map fun s => (s, brackets path) := by
  cases s with
  | key k =>
    have opened := open_brackets fun k mem => closing k (List.mem_cons_of_mem _ mem)
    refine ⟨_, brackets_key k path, ?_⟩
    rw [readBracket?_key (closing k List.mem_cons_self) opened, selector?, Option.map_map]
    rfl
  | index n =>
    refine ⟨_, brackets_index n path, ?_⟩
    rw [readBracket?_index, selector?]
    split
    · rfl
    · rfl

/-- **What is read from the brackets of a path is what comes back of each segment.** -/
theorem readBrackets?_brackets (closing : ∀ k, .key k ∈ path → ']' ∉ k.toList) {limit : Nat}
    (enough : path.length ≤ limit) : readBrackets? limit (brackets path) = path.mapM selector? := by
  induction path generalizing limit with
  | nil => rw [brackets, List.flatMap_nil, readBrackets?, List.mapM_nil, Option.pure_def]
  | cons s path ih =>
    obtain ⟨cs, whole, read⟩ := readBracket?_brackets closing
    cases limit with
    | zero => exact absurd enough (Nat.not_succ_le_zero _)
    | succ limit =>
      have rest :=
        ih (fun k mem => closing k (List.mem_cons_of_mem s mem)) (Nat.le_of_succ_le_succ enough)
      rw [whole, readBrackets?, read, List.mapM_cons, Option.bind_eq_bind, Option.bind_map]
      refine Option.bind_congr fun t _ => ?_
      show (readBrackets? limit (brackets path)).map (t :: ·) = _
      rw [rest]
      exact Option.map_eq_bind

theorem length_le_brackets (path : Path) : path.length ≤ (brackets path).length := by
  induction path with
  | nil => exact Nat.zero_le _
  | cons s path ih =>
    cases s with
    | key k =>
      simp only [brackets_key, List.length_append, List.length_cons]
      omega
    | index n =>
      simp only [brackets_index, List.length_append, List.length_cons]
      omega

/-- **What is read from a path in bracket notation is what comes back of its segments**, if no key
has a closing bracket. -/
theorem readSelector?_selectorText (closing : ∀ k, .key k ∈ path → ']' ∉ k.toList) :
    readSelector? path.selectorText = path.mapM selector? := by
  rw [readSelector?, toList_selectorText]
  exact readBrackets?_brackets closing (length_le_brackets path)

/-- **A path that a text spells is looked up by what is read from it in bracket notation.** -/
theorem lookup_of_parse {text : String} (parsed : parse? text = some path) (root : Json) :
    lookup root path = (readSelector? path.selectorText).map fun path =>
      (selectAll [root] path).head? := by
  have keys := (proper_of_parse parsed).keys
  rw [readSelector?_selectorText fun k mem bracket => (keys k mem).no_bracket ']' bracket rfl,
    lookup]

end Conveyor.Parameter.Path
