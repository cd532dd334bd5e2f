/-
Templates written from their chunks.

Chunks are written one after another: a backslash before every delimiter in a text or in code, and
code between delimiters, with a blank on either side. Reading gives the chunks back
(`tokenize_source`).

What makes this work is that an escaped text never begins with a delimiter
(`Joins.not_delimited_escape`), whatever of it was read before. So both scanners read it character
by character, and take every escape for what it stands for. The blank before the closing delimiter
keeps the end of the code apart from it; between a text and the opening delimiter there is no blank,
and this is why the text must end neither in a backslash nor in a brace that opens.
-/
import Conveyor.Template.Chunk
import Mathlib.Data.List.Chain

set_option autoImplicit false

namespace Conveyor.Template

/-! ## Writing -/

/-- Characters with a backslash before every delimiter, from left to right. -/
def escape : List Char → List Char
  | '\x7b' :: '\x7b' :: cs => '\\' :: '\x7b' :: '\x7b' :: escape cs
  | '\x7d' :: '\x7d' :: cs => '\\' :: '\x7d' :: '\x7d' :: escape cs
  | c :: cs => c :: escape cs
  | [] => []

/-- A chunk as it is written. -/
def Chunk.source : Chunk → List Char
  | .text cs => escape cs
  | .code cs => '\x7b' :: '\x7b' :: ' ' :: (escape cs ++ [' ', '\x7d', '\x7d'])

/-- Chunks as a template. -/
def source (chunks : List Chunk) : String := String.ofList (chunks.flatMap Chunk.source)

/-! ## What can be written -/

/-- A text is not empty, and code has no blanks at its ends. -/
def Chunk.Proper : Chunk → Prop
  | .text cs => cs ≠ []
  | .code cs => (∀ c ∈ cs.head?, Text.isBlank c = false) ∧ ∀ c ∈ cs.getLast?, Text.isBlank c = false

/-- What may follow a chunk: no text follows a text, and code only one that can be told from its
delimiter. -/
def Chunk.Precedes : Chunk → Chunk → Prop
  | .text _, .text _ => False
  | .text cs, .code _ => cs.getLast? ≠ some '\\' ∧ cs.getLast? ≠ some '\x7b'
  | .code _, _ => True

/-- The chunk is code. -/
def Chunk.isCode : Chunk → Bool
  | .text _ => false
  | .code _ => true

/-- The chunks of some template. -/
structure Writable (chunks : List Chunk) : Prop where
  proper : ∀ c ∈ chunks, c.Proper
  chain : chunks.IsChain Chunk.Precedes
  few : chunks.countP Chunk.isCode ≤ maxCodes

/-! ## Delimiters -/

/-- A delimiter stands at the head of a text. -/
def Delimited (cs : List Char) : Prop :=
  ∃ rest, cs = '\x7b' :: '\x7b' :: rest ∨ cs = '\x7d' :: '\x7d' :: rest

/-- Nothing at the head of a text means anything but itself. -/
def Plain (c : Char) (cs : List Char) : Prop := ¬Delimited (c :: cs) ∧ (c = '\\' → ¬Delimited cs)

theorem not_delimited_cons {c : Char} {cs : List Char}
    (opens : ∀ rest, c = '\x7b' → cs = '\x7b' :: rest → False)
    (closes : ∀ rest, c = '\x7d' → cs = '\x7d' :: rest → False) : ¬Delimited (c :: cs) := by
  rintro ⟨rest, h | h⟩ <;> obtain ⟨first, second⟩ := List.cons.inj h
  · exact opens rest first second
  · exact closes rest first second

theorem escape_cons {c : Char} {cs : List Char} (clear : ¬Delimited (c :: cs)) :
    escape (c :: cs) = c :: escape cs := by
  rw [escape]
  · rintro rest rfl rfl
    exact clear ⟨rest, .inl rfl⟩
  · rintro rest rfl rfl
    exact clear ⟨rest, .inr rfl⟩

theorem scanCode_cons {c : Char} {cs : List Char} (acc : List Char) (plain : Plain c cs) :
    scanCode acc (c :: cs) = scanCode (c :: acc) cs := by
  rw [scanCode]
  · rintro rest rfl rfl
    exact plain.2 rfl ⟨rest, .inr rfl⟩
  · rintro rest rfl rfl
    exact plain.2 rfl ⟨rest, .inl rfl⟩
  · rintro rest rfl rfl
    exact plain.1 ⟨rest, .inr rfl⟩

theorem scan_cons {c : Char} {cs : List Char} (acc : List Char) (codes : Nat) (plain : Plain c cs) :
    scan acc codes (c :: cs) = scan (c :: acc) codes cs := by
  rw [scan]
  · rintro rest rfl rfl
    exact plain.2 rfl ⟨rest, .inl rfl⟩
  · rintro rest rfl rfl
    exact plain.2 rfl ⟨rest, .inr rfl⟩
  · rintro rest rfl rfl
    exact plain.1 ⟨rest, .inl rfl⟩

/-! ## Where an escaped text ends -/

/-- An escaped text can be told from what is written behind it. -/
def Joins (cs tail : List Char) : Prop :=
  tail.head? ≠ some '\x7d' ∧
    (tail.head? = some '\x7b' → cs.getLast? ≠ some '\\' ∧ cs.getLast? ≠ some '\x7b')

namespace Joins

variable {c : Char} {cs tail : List Char}

theorem of_cons (joins : Joins (c :: cs) tail) : Joins cs tail := by
  refine ⟨joins.1, fun opens => ?_⟩
  have ends := joins.2 opens
  cases cs with
  | nil => exact ⟨nofun, nofun⟩
  | cons d cs => simpa only [List.getLast?_cons_cons] using ends

/-- An escaped text does not begin with a delimiter. -/
theorem not_delimited_escape (joins : Joins (c :: cs) tail) :
    ¬Delimited (escape (c :: cs) ++ tail) := by
  by_cases delimited : Delimited (c :: cs)
  · -- Then it begins with a backslash.
    obtain ⟨rest, h | h⟩ := delimited <;> rw [h] <;> rintro ⟨rest', h' | h'⟩ <;>
      exact absurd (List.cons.inj h').1 (by decide)
  · rw [escape_cons delimited]
    cases cs with
    | nil =>
      rintro ⟨rest, h | h⟩ <;> obtain ⟨rfl, rfl⟩ := List.cons.inj h
      · exact (joins.2 rfl).2 rfl
      · exact joins.1 rfl
    | cons d cs =>
      -- A second brace would be one of the text itself.
      by_cases further : Delimited (d :: cs)
      · obtain ⟨rest, h | h⟩ := further <;> rw [h] <;> rintro ⟨rest', h' | h'⟩ <;>
          exact absurd (List.cons.inj (List.cons.inj h').2).1 (by decide)
      · rw [escape_cons further]
        rintro ⟨rest, h | h⟩ <;> obtain ⟨first, h⟩ := List.cons.inj h <;> obtain ⟨second, -⟩ :=
          List.cons.inj h
        · exact delimited ⟨cs, .inl (by rw [first, second])⟩
        · exact delimited ⟨cs, .inr (by rw [first, second])⟩

/-- A character of a text that is not escaped means itself where the text is written. -/
theorem plain (joins : Joins (c :: cs) tail) (clear : ¬Delimited (c :: cs)) :
    Plain c (escape cs ++ tail) := by
  have start := joins.not_delimited_escape
  rw [escape_cons clear] at start
  refine ⟨start, ?_⟩
  rintro rfl
  cases cs with
  | nil =>
    rintro ⟨rest, rfl | rfl⟩
    · exact (joins.2 rfl).1 rfl
    · exact joins.1 rfl
  | cons d cs => exact joins.of_cons.not_delimited_escape

end Joins

/-! ## Reading what was written -/

/-- Code is read back up to what follows it. -/
theorem scanCode_escape (acc cs tail : List Char) (joins : Joins cs tail) :
    scanCode acc (escape cs ++ tail) = scanCode (cs.reverse ++ acc) tail := by
  fun_induction escape cs generalizing acc with
  | case1 cs ih =>
    simp only [List.cons_append, scanCode, List.reverse_cons, List.append_assoc, List.nil_append]
    exact ih _ joins.of_cons.of_cons
  | case2 cs ih =>
    simp only [List.cons_append, scanCode, List.reverse_cons, List.append_assoc, List.nil_append]
    exact ih _ joins.of_cons.of_cons
  | case3 c cs opens closes ih =>
    have plain := joins.plain (not_delimited_cons opens closes)
    rw [List.cons_append, scanCode_cons acc plain, ih _ joins.of_cons, List.reverse_cons,
      List.append_assoc]
    rfl
  | case4 => rfl

/-- A text is read back up to what follows it. -/
theorem scan_escape (acc : List Char) (codes : Nat) (cs tail : List Char) (joins : Joins cs tail) :
    scan acc codes (escape cs ++ tail) = scan (cs.reverse ++ acc) codes tail := by
  fun_induction escape cs generalizing acc with
  | case1 cs ih =>
    simp only [List.cons_append, scan, List.reverse_cons, List.append_assoc, List.nil_append]
    exact ih _ joins.of_cons.of_cons
  | case2 cs ih =>
    simp only [List.cons_append, scan, List.reverse_cons, List.append_assoc, List.nil_append]
    exact ih _ joins.of_cons.of_cons
  | case3 c cs opens closes ih =>
    have plain := joins.plain (not_delimited_cons opens closes)
    rw [List.cons_append, scan_cons acc codes plain, ih _ joins.of_cons, List.reverse_cons,
      List.append_assoc]
    rfl
  | case4 => rfl

theorem dropWhile_blank {cs : List Char} (sharp : ∀ c ∈ cs.head?, Text.isBlank c = false) :
    cs.dropWhile Text.isBlank = cs := by
  cases cs with
  | nil => rfl
  | cons c cs => rw [List.dropWhile_cons_of_neg (by rw [sharp c rfl]; exact Bool.false_ne_true)]

/-- Blanks around code that has none at its ends are trimmed away. -/
theorem trim_padded {cs : List Char} (proper : (Chunk.code cs).Proper) :
    Text.trim (' ' :: cs ++ [' ']) = cs := by
  obtain ⟨first, last⟩ := proper
  have blank : Text.isBlank ' ' = true := by decide
  cases cs with
  | nil => decide
  | cons c cs =>
    have start : Text.trimStart (' ' :: (c :: cs) ++ [' ']) = c :: cs ++ [' '] := by
      rw [Text.trimStart, List.cons_append, List.dropWhile_cons_of_pos blank]
      exact dropWhile_blank (by simpa using first)
    rw [Text.trim, start, Text.trimEnd, List.reverse_append, List.reverse_singleton,
      List.singleton_append, List.dropWhile_cons_of_pos blank,
      dropWhile_blank (by rwa [List.head?_reverse]), List.reverse_reverse]

/-- Code is read back up to its closing delimiter. -/
theorem scanCode_source (cs rest : List Char) :
    scanCode [] (' ' :: (escape cs ++ [' ', '\x7d', '\x7d'] ++ rest))
      = some (' ' :: cs ++ [' '], rest) := by
  have blank : ∀ tail, Plain ' ' tail := by
    refine fun tail => ⟨?_, fun h => absurd h (by decide)⟩
    rintro ⟨rest, h | h⟩ <;> exact absurd (List.cons.inj h).1 (by decide)
  rw [scanCode_cons _ (blank _), List.append_assoc, scanCode_escape _ _ _ ⟨by simp, by simp⟩,
    List.cons_append, scanCode_cons _ (blank _), List.cons_append, List.cons_append, scanCode]
  simp only [List.reverse_cons, List.reverse_append, List.reverse_reverse, List.reverse_nil,
    List.nil_append, List.cons_append]

/-- Code between delimiters is read back without the blanks beside it. -/
theorem scan_source {acc : List Char} {codes : Nat} {cs rest : List Char}
    (proper : (Chunk.code cs).Proper) (few : codes < maxCodes) :
    scan acc codes ((Chunk.code cs).source ++ rest)
      = (scan [] (codes + 1) rest).map fun chunks => textChunk acc ++ .code cs :: chunks := by
  simp only [Chunk.source, List.cons_append]
  rw [scan]
  split
  · rename_i code rest' found
    rw [scanCode_source] at found
    obtain ⟨rfl, rfl⟩ : ' ' :: cs ++ [' '] = code ∧ rest = rest' := by simpa using found
    rw [if_neg (Nat.not_le.2 few), trim_padded proper]
  · rename_i found
    rw [scanCode_source] at found
    cases found

/-- A text is told from the chunks that may follow it. -/
theorem joins_source {cs : List Char} {chunks : List Chunk}
    (chain : (Chunk.text cs :: chunks).IsChain Chunk.Precedes) :
    Joins cs (chunks.flatMap Chunk.source) := by
  cases chain with
  | singleton => exact ⟨nofun, nofun⟩
  | @cons_cons _ next _ follows _ =>
    cases next with
    | text _ => exact follows.elim
    | code _ => exact ⟨nofun, fun _ => follows⟩

/-- Chunks are read back behind a text in progress that is not followed by another. -/
theorem scan_chunks {chunks : List Chunk} (acc : List Char) (codes : Nat)
    (apart : acc = [] ∨ ∀ cs, chunks.head? ≠ some (.text cs)) (proper : ∀ c ∈ chunks, c.Proper)
    (chain : chunks.IsChain Chunk.Precedes) (few : codes + chunks.countP Chunk.isCode ≤ maxCodes) :
    scan acc codes (chunks.flatMap Chunk.source) = .ok (textChunk acc ++ chunks) := by
  induction chunks generalizing acc codes with
  | nil => rw [List.flatMap_nil, scan, List.append_nil]
  | cons chunk chunks ih =>
    have proper' : ∀ c ∈ chunks, c.Proper := fun c mem => proper c (List.mem_cons_of_mem _ mem)
    rw [List.flatMap_cons]
    cases chunk with
    | code cs =>
      rw [List.countP_cons_of_pos rfl] at few
      rw [scan_source (proper _ List.mem_cons_self) (by omega),
        ih [] (codes + 1) (.inl rfl) proper' chain.tail (by omega)]
      rfl
    | text cs =>
      -- No text is in progress here, and the one that is now will be followed by code.
      obtain rfl : acc = [] := apart.resolve_right fun other => other cs rfl
      have behind : ∀ cs', chunks.head? ≠ some (.text cs') := by
        rintro cs' first
        obtain ⟨rest, rfl⟩ : ∃ rest, chunks = .text cs' :: rest := List.head?_eq_some_iff.1 first
        exact (List.isChain_cons_cons.1 chain).1
      have written : textChunk cs.reverse = [.text cs] := by
        have full : cs ≠ [] := proper _ List.mem_cons_self
        rw [textChunk, if_neg (by simpa using full), List.reverse_reverse]
      rw [Chunk.source, scan_escape [] codes cs _ (joins_source chain), List.append_nil,
        ih cs.reverse codes (.inr behind) proper' chain.tail (by simpa [Chunk.isCode] using few),
        written]
      rfl

/-- **Every template can be written.** -/
theorem tokenize_source {chunks : List Chunk} (writable : Writable chunks) :
    tokenize (source chunks) = .ok chunks := by
  rw [tokenize, source, String.toList_ofList]
  exact scan_chunks [] 0 (.inl rfl) writable.proper writable.chain (by simpa using writable.few)

/-- Braces of an odd number, delimiters inside code, and backslashes. -/
def braces : List Chunk :=
  [.text "a \x7d\x7d\x7d".toList, .code "\x7d\x7d \\\x7b\x7b\x7b \\".toList, .code [],
    .text "\\\x7d\x7d\x7b\x7b\x7b\\".toList]

example : source braces =
    "a \\\x7d\x7d\x7d\x7b\x7b \\\x7d\x7d \\\\\x7b\x7b\x7b \\ \x7d\x7d" ++
      "\x7b\x7b  \x7d\x7d\\\\\x7d\x7d\\\x7b\x7b\x7b\\" := by
  decide +kernel

/-- They are all read back. -/
theorem tokenize_braces : tokenize (source braces) = .ok braces := by
  refine tokenize_source ⟨?_, ?_, by decide⟩
  · simp only [braces, List.forall_mem_cons]
    refine ⟨List.ne_nil_of_length_pos (by decide), ⟨?_, ?_⟩, ⟨nofun, nofun⟩,
      List.ne_nil_of_length_pos (by decide), nofun⟩ <;> rintro _ ⟨⟩ <;> decide
  · exact .cons_cons ⟨by decide, by decide⟩ (.cons_cons trivial (.cons_cons trivial (.singleton _)))

end Conveyor.Template
