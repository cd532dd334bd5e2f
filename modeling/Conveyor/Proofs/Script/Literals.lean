/-
Binding names outside of strings and comments.

The language cuts a script into pieces: quoted strings, texts and comments in long brackets,
comments up to the end of a line, and the characters of everything else (`Lexical`). Rewriting is to
leave the literal pieces as they are and to put the inner name of a binding where a `$` stands among
the other characters (`rewritten`). It finds the literal pieces by a reading of its own, which
agrees with the language about where they end except in two places. A quoted string may go on behind
a line feed that is not itself escaped, after `\z` or as the second half of a line end, and
rewriting takes the line feed for the end of the string (`quotedLength_iff`). And a comment may end
with a carriage return, where rewriting goes on to the next line feed. On scripts without these it
does what it is to do (`rewrite_text`).
-/
import Conveyor.Script.Rewrite
import Mathlib.Data.List.TakeWhile

set_option autoImplicit false

namespace Conveyor.Script

/-! ## The pieces of a script -/

/-- White space: the blank and the control characters from tab to carriage return. -/
def isSpace (c : Char) : Bool := c = ' ' || ('\t' ≤ c && c ≤ '\r')

/-- A hexadecimal digit. -/
def isHexDigit (c : Char) : Bool := c.isDigit || ('a' ≤ c && c ≤ 'f') || ('A' ≤ c && c ≤ 'F')

/-- The line ends: two different characters together are one. -/
def lineEnds : List (List Char) := [['\n'], ['\r'], ['\r', '\n'], ['\n', '\r']]

/-- What may stand behind a backslash in a quoted string. -/
inductive Escape : List Char → Prop where
  | letter {c : Char} (known : c ∈ ['a', 'b', 'f', 'n', 'r', 't', 'v', '\\', '"', '\'']) :
    Escape [c]
  | lineEnd {cs : List Char} (known : cs ∈ lineEnds) : Escape cs
  | byte {a b : Char} (hex : isHexDigit a ∧ isHexDigit b) : Escape ['x', a, b]
  | code {ds : List Char} (digits : ds.all Char.isDigit) (few : 1 ≤ ds.length ∧ ds.length ≤ 3) :
    Escape ds
  | codePoint {ds : List Char} (digits : ds.all isHexDigit) :
    Escape ('u' :: '\x7b' :: (ds ++ ['\x7d']))
  /-- The white space that follows is skipped, line ends included. -/
  | space {cs : List Char} (blank : cs.all isSpace) : Escape ('z' :: cs)

/-- A part of a quoted string. -/
inductive Part where
  | char (c : Char)
  | escape (cs : List Char)

/-- A part as it is written. -/
def Part.text : Part → List Char
  | .char c => [c]
  | .escape cs => '\\' :: cs

/-- What may stand in a string between two quotes. -/
def Part.Proper (quote : Char) : Part → Prop
  | .char c => c ≠ quote ∧ c ≠ '\\' ∧ c ≠ '\n' ∧ c ≠ '\r'
  | .escape cs => Escape cs

/-- A line feed stands in a part that is not escaped itself. -/
def Part.Breaks : Part → Prop
  | .char _ => False
  | .escape cs => '\n' ∈ cs.tail

instance : DecidablePred Part.Breaks
  | .char _ => inferInstanceAs (Decidable False)
  | .escape cs => inferInstanceAs (Decidable ('\n' ∈ cs.tail))

/-- The bracket that opens a text of a level. -/
def opening (level : Nat) : List Char := '[' :: (List.replicate level '=' ++ ['['])

/-- The bracket that closes a text of a level. -/
def closing (level : Nat) : List Char := ']' :: (List.replicate level '=' ++ [']'])

/-- The first bracket that closes a text is the one at its end. -/
def Enclosed (level : Nat) (content : List Char) : Prop :=
  ∀ i < content.length, ¬closing level <+: (content ++ closing level).drop i

/-- A piece of a script. -/
inductive Piece where
  | quoted (quote : Char) (parts : List Part)
  | long (level : Nat) (content : List Char)
  /-- A comment up to the end of its line. -/
  | comment (content : List Char)
  | longComment (level : Nat) (content : List Char)
  | other (c : Char)

namespace Piece

/-- A piece as it is written. -/
def text : Piece → List Char
  | quoted quote parts => quote :: (parts.flatMap Part.text ++ [quote])
  | long level content => opening level ++ content ++ closing level
  | comment content => '-' :: '-' :: content
  | longComment level content => '-' :: '-' :: (opening level ++ content ++ closing level)
  | other c => [c]

/-- A piece that the language reads where something follows: strings and comments end where they
can, comments up to the end of the line have one, and no other character opens one. -/
def Proper (rest : List Char) : Piece → Prop
  | quoted quote parts => (quote = '"' ∨ quote = '\'') ∧ ∀ p ∈ parts, p.Proper quote
  | long level content => Enclosed level content
  | comment content => (∀ level, ¬opening level <+: content) ∧ '\n' ∉ content ∧ '\r' ∉ content ∧
      ∀ c ∈ rest.head?, c = '\n' ∨ c = '\r'
  | longComment level content => Enclosed level content
  | other c => c ≠ '"' ∧ c ≠ '\'' ∧ ¬['-', '-'] <+: c :: rest ∧
    ∀ level, ¬opening level <+: c :: rest

/-- A piece with the inner name of a binding if it is the `$` in front of one. -/
def rewritten (rest : List Char) : Piece → List Char
  | other c =>
    if c = '$' then
      if rest.head? = some '(' then "__node".toList
      else if rest.head?.any fun d => d.isAlpha || d = '_' then "__".toList
      else ['$']
    else [c]
  | p => p.text

/-- A piece whose end rewriting finds: every line feed in a quoted string is escaped, and a carriage
return ends a comment only together with a line feed or at the end of the script. -/
def Settled (rest : List Char) : Piece → Prop
  | quoted _ parts => ∀ p ∈ parts, ¬p.Breaks
  | comment _ => ∀ more, rest = '\r' :: more → ∀ c ∈ more.head?, c = '\n'
  | _ => True

end Piece

/-- Pieces as a script. -/
def text (ps : List Piece) : List Char := ps.flatMap Piece.text

/-- Pieces that the language reads one after another. -/
def Lexical : List Piece → Prop
  | [] => True
  | p :: ps => p.Proper (text ps) ∧ Lexical ps

/-- Pieces whose ends rewriting finds. -/
def Settled : List Piece → Prop
  | [] => True
  | p :: ps => p.Settled (text ps) ∧ Settled ps

/-- Pieces with the inner names of bindings. -/
def rewritten : List Piece → List Char
  | [] => []
  | p :: ps => p.rewritten (text ps) ++ rewritten ps

/-! ## Long brackets -/

/-- Equal signs and what comes after them, by position. -/
theorem signs_prefix_iff {level : Nat} {x : Char} {cs : List Char} :
    ((cs.take level).all (· = '=') = true ∧ cs[level]? = some x) ↔
      List.replicate level '=' ++ [x] <+: cs := by
  constructor
  · rintro ⟨signs, last⟩
    obtain ⟨inside, value⟩ := List.getElem?_eq_some_iff.1 last
    have taken : cs.take level = List.replicate level '=' := by
      refine List.eq_replicate_iff.2 ⟨List.length_take_of_le inside.le, fun c mem => ?_⟩
      simpa using List.all_eq_true.1 signs c mem
    refine ⟨cs.drop (level + 1), ?_⟩
    rw [List.append_assoc, List.singleton_append, ← value, ← List.drop_eq_getElem_cons inside,
      ← taken, List.take_append_drop]
  · rintro ⟨rest, rfl⟩
    simp

/-- Only an opening bracket has a level. -/
theorem bracketLevel?_eq_some_iff {cs : List Char} {level : Nat} :
    bracketLevel? cs = some level ↔ opening level <+: cs := by
  constructor
  · intro found
    cases cs with
    | nil => exact nomatch found
    | cons c cs =>
      unfold bracketLevel? at found
      split at found
      · rename_i same
        obtain ⟨rfl, rfl⟩ := List.cons.inj same
        -- The signs between the two brackets are counted by a prefix that ends at the second one.
        simp only [Option.ite_none_right_eq_some, Option.some.injEq] at found
        obtain ⟨second, rfl⟩ := found
        refine (List.prefix_cons_inj _).2 (signs_prefix_iff.1 ⟨?_, second⟩)
        rw [← List.prefix_iff_eq_take.1 (List.takeWhile_prefix _)]
        exact List.all_takeWhile
      · exact nomatch found
  · rintro ⟨rest, rfl⟩
    have signs : (List.replicate level '=' ++ ['['] ++ rest).takeWhile (· = '=')
        = List.replicate level '=' := by
      rw [List.append_assoc, List.takeWhile_append_of_pos (by simp [List.mem_replicate]),
        List.singleton_append, List.takeWhile_cons_of_neg (by decide), List.append_nil]
    have second :=
      (signs_prefix_iff.2 (List.prefix_append (List.replicate level '=' ++ ['[']) rest)).2
    simp only [opening, List.cons_append, bracketLevel?, signs, List.length_replicate,
      second, if_true]

theorem bracketLevel?_eq_none {cs : List Char} (plain : ∀ level, ¬opening level <+: cs) :
    bracketLevel? cs = none :=
  Option.eq_none_iff_forall_ne_some.2 fun level found =>
    plain level (bracketLevel?_eq_some_iff.1 found)

theorem closesBracket_iff {level : Nat} {cs : List Char} :
    closesBracket level cs = true ↔ closing level <+: cs := by
  unfold closesBracket
  split
  · rename_i cs
    simp only [closing, List.prefix_cons_inj, ← signs_prefix_iff, Bool.and_eq_true,
      decide_eq_true_eq]
  · rename_i other
    refine iff_of_false Bool.false_ne_true ?_
    rintro ⟨rest, rfl⟩
    exact other _ rfl

/-- A text in long brackets is read up to its closing bracket. -/
theorem longLength_content {level : Nat} {content : List Char} (enclosed : Enclosed level content)
    (rest : List Char) :
    longLength level (content ++ closing level ++ rest) = content.length + (level + 2) := by
  induction content with
  | nil =>
    have closed : closesBracket level (closing level ++ rest) = true :=
      closesBracket_iff.2 (List.prefix_append _ _)
    rw [List.nil_append]
    simp only [closing, List.cons_append] at closed ⊢
    rw [longLength, if_pos closed, List.length_nil, Nat.zero_add]
  | cons c content ih =>
    have opened : ¬closesBracket level (c :: (content ++ closing level ++ rest)) = true := by
      intro closed
      -- The bracket would stand within the content and the closing bracket already.
      have inside : closing level <+: c :: content ++ closing level := by
        refine List.prefix_of_prefix_length_le (closesBracket_iff.1 closed)
          (List.prefix_append (c :: content ++ closing level) rest) ?_
        rw [List.length_append]
        exact Nat.le_add_left ..
      exact enclosed 0 (Nat.succ_pos _) inside
    rw [List.cons_append, List.cons_append, longLength, if_neg opened,
      ih fun i inside => enclosed (i + 1) (Nat.succ_lt_succ inside), List.length_cons]
    omega

/-! ## Quoted strings -/

section Quoted

variable {quote : Char} {p : Part} {parts : List Part}

theorem isHexDigit_plain (known : quote = '"' ∨ quote = '\'') {c : Char}
    (hex : isHexDigit c = true) :
    c ≠ '\\' ∧ c ≠ quote := by
  rcases known with rfl | rfl <;> refine ⟨?_, ?_⟩ <;> rintro rfl <;> exact absurd hex (by decide)

theorem isSpace_plain (known : quote = '"' ∨ quote = '\'') {c : Char} (blank : isSpace c = true) :
    c ≠ '\\' ∧ c ≠ quote := by
  rcases known with rfl | rfl <;> refine ⟨?_, ?_⟩ <;> rintro rfl <;> exact absurd blank (by decide)

/-- An escape is not empty, and neither a quote nor a backslash stands behind its first
character. -/
theorem Escape.plain (known : quote = '"' ∨ quote = '\'') {cs : List Char} (escape : Escape cs) :
    ∃ c tail, cs = c :: tail ∧ ∀ d ∈ tail, d ≠ '\\' ∧ d ≠ quote := by
  cases escape with
  | @letter c _ => exact ⟨c, [], rfl, nofun⟩
  -- The four ends of a line, as escapes, hold neither of the two quotes.
  | lineEnd ends =>
    simp only [lineEnds, List.mem_cons, List.not_mem_nil, or_false] at ends
    rcases known with rfl | rfl <;> rcases ends with rfl | rfl | rfl | rfl
      <;> exact ⟨_, _, rfl, by simp⟩
  | @byte a b hex =>
    refine ⟨'x', [a, b], rfl, ?_⟩
    simp only [List.forall_mem_cons]
    exact ⟨isHexDigit_plain known hex.1, isHexDigit_plain known hex.2, nofun⟩
  | code digits few =>
    obtain ⟨d, ds, rfl⟩ := List.exists_cons_of_length_pos few.1
    refine ⟨d, ds, rfl, fun c mem => isHexDigit_plain known ?_⟩
    have digit := List.all_eq_true.1 digits c (List.mem_cons_of_mem d mem)
    simp only [isHexDigit, digit, Bool.true_or]
  | @codePoint ds digits =>
    refine ⟨'u', _, rfl, fun c mem => ?_⟩
    rcases List.mem_cons.1 mem with rfl | mem
    · rcases known with rfl | rfl <;> decide
    rcases List.mem_append.1 mem with mem | mem
    · exact isHexDigit_plain known (List.all_eq_true.1 digits c mem)
    · obtain rfl := List.mem_singleton.1 mem
      rcases known with rfl | rfl <;> decide
  | @space cs blank =>
    exact ⟨'z', cs, rfl, fun c mem => isSpace_plain known (List.all_eq_true.1 blank c mem)⟩

theorem quotedLength_cons {c : Char} (cs : List Char) (plain : c ≠ '\\' ∧ c ≠ quote ∧ c ≠ '\n') :
    quotedLength quote (c :: cs) = quotedLength quote cs + 1 := by
  rw [quotedLength, if_neg (by simp [plain.2.1, plain.2.2])]
  rintro d rest rfl -
  exact plain.1 rfl

theorem quotedLength_append {cs : List Char} (more : List Char)
    (plain : ∀ c ∈ cs, c ≠ '\\' ∧ c ≠ quote ∧ c ≠ '\n') :
    quotedLength quote (cs ++ more) = quotedLength quote more + cs.length := by
  induction cs with
  | nil => rfl
  | cons c cs ih =>
    rw [List.cons_append, quotedLength_cons _ (plain c List.mem_cons_self),
      ih fun d mem => plain d (List.mem_cons_of_mem c mem), List.length_cons, Nat.add_assoc]

/-- A line feed ends the reading. -/
theorem quotedLength_lineFeed (cs : List Char) : quotedLength quote ('\n' :: cs) = 1 := by
  rw [quotedLength, if_pos (by simp)]
  rintro d rest h -
  exact absurd h (by decide)

theorem quotedLength_quote (known : quote = '"' ∨ quote = '\'') (cs : List Char) :
    quotedLength quote (quote :: cs) = 1 := by
  rw [quotedLength, if_pos (by simp)]
  rintro d rest rfl -
  revert known
  decide

/-- A part is read in full, unless there is a line feed in it that is not escaped. -/
theorem quotedLength_part (known : quote = '"' ∨ quote = '\'') (proper : p.Proper quote)
    (whole : ¬p.Breaks) (more : List Char) :
    quotedLength quote (p.text ++ more) = quotedLength quote more + p.text.length := by
  cases p with
  | char c => exact quotedLength_cons more ⟨proper.2.1, proper.1, proper.2.2.1⟩
  | escape cs =>
    obtain ⟨c, tail, rfl, plain⟩ := Escape.plain known proper
    have escaped : '\n' ∉ tail := whole
    simp only [Part.text, List.cons_append, quotedLength, List.length_cons]
    have plain' : ∀ d ∈ tail, d ≠ '\\' ∧ d ≠ quote ∧ d ≠ '\n' :=
      fun d mem => ⟨(plain d mem).1, (plain d mem).2, fun same => escaped (same ▸ mem)⟩
    rw [quotedLength_append more plain']
    omega

/-- A part with a line feed that is not escaped is read up to that. -/
theorem quotedLength_breaks (known : quote = '"' ∨ quote = '\'') (proper : p.Proper quote)
    (breaks : p.Breaks) (more : List Char) :
    quotedLength quote (p.text ++ more) ≤ p.text.length := by
  cases p with
  | char c => exact breaks.elim
  | escape cs =>
    obtain ⟨c, tail, rfl, plain⟩ := Escape.plain known proper
    obtain ⟨before, behind, rfl, none⟩ := List.eq_append_cons_of_mem (show '\n' ∈ tail from breaks)
    have plain' : ∀ d ∈ before, d ≠ '\\' ∧ d ≠ quote ∧ d ≠ '\n' := by
      intro d mem
      obtain ⟨backslash, other⟩ := plain d (List.mem_append_left _ mem)
      exact ⟨backslash, other, fun same => none (same ▸ mem)⟩
    simp only [Part.text, List.cons_append, List.append_assoc, quotedLength, List.length_cons,
      List.length_append]
    rw [quotedLength_append _ plain', quotedLength_lineFeed]
    omega

/-- **Where the end of a quoted string is found.** It is found exactly if no line feed stands in the
string that is not escaped itself. -/
theorem quotedLength_iff (known : quote = '"' ∨ quote = '\'') (proper : ∀ p ∈ parts, p.Proper quote)
    (rest : List Char) : quotedLength quote (parts.flatMap Part.text ++ quote :: rest)
      = (parts.flatMap Part.text).length + 1 ↔ ∀ p ∈ parts, ¬p.Breaks := by
  induction parts with
  | nil => simp only [List.flatMap_nil, List.nil_append, quotedLength_quote known, List.length_nil,
    Nat.zero_add,
      List.not_mem_nil, false_implies, implies_true]
  | cons p parts ih =>
    have rest' := ih fun p mem => proper p (List.mem_cons_of_mem _ mem)
    rw [List.flatMap_cons, List.append_assoc, List.length_append, List.forall_mem_cons, ← rest']
    -- From a part that breaks on, too little is read; any other part is read in full.
    by_cases breaks : p.Breaks
    · have short := quotedLength_breaks known (proper p List.mem_cons_self) breaks
        (parts.flatMap Part.text ++ quote :: rest)
      refine iff_of_false (by omega) fun h => h.1 breaks
    · rw [quotedLength_part known (proper p List.mem_cons_self) breaks]
      exact ⟨fun h => ⟨breaks, by omega⟩, fun h => by omega⟩

end Quoted

/-! ## Where literals end -/

/-- Rewriting leaves what it takes for a literal as it is. -/
theorem rewrite_literal {literal rest : List Char} (nonempty : literal ≠ [])
    (length : literalLength (literal ++ rest) = literal.length) :
    rewrite (literal ++ rest) = literal ++ rewrite rest := by
  obtain ⟨c, cs, rfl⟩ := List.exists_cons_of_ne_nil nonempty
  rw [List.cons_append, List.length_cons] at length
  rw [List.cons_append, rewrite, length]
  simp only [List.take_left, List.drop_left, List.cons_append]

/-- A quoted string in which every line feed is escaped is a literal. -/
theorem literalLength_quoted {quote : Char} {parts : List Part}
    (proper : (quote = '"' ∨ quote = '\'') ∧ ∀ p ∈ parts, p.Proper quote)
    (whole : ∀ p ∈ parts, ¬p.Breaks) (rest : List Char) :
    literalLength ((Piece.quoted quote parts).text ++ rest)
      = (Piece.quoted quote parts).text.length := by
  have length := (quotedLength_iff proper.1 proper.2 rest).2 whole
  have shape : (Piece.quoted quote parts).text ++ rest
      = quote :: (parts.flatMap Part.text ++ quote :: rest) := by
    simp only [Piece.text, List.cons_append, List.append_assoc, List.nil_append]
  rw [shape, Piece.text, List.length_cons, List.length_append, List.length_singleton]
  rcases proper.1 with rfl | rfl <;> rw [literalLength, length]

/-- A bracket that opens a text is as long as the text up to the end of the closing one. -/
theorem bracketLength_content {level : Nat} {content : List Char}
    (enclosed : Enclosed level content) (rest : List Char) :
    bracketLength level (opening level ++ content ++ closing level ++ rest)
      = (opening level ++ content ++ closing level).length := by
  have behind : (opening level ++ content ++ closing level ++ rest).drop (level + 2)
      = content ++ closing level ++ rest := by
    simp only [List.append_assoc]
    exact List.drop_left' (by simp [opening])
  rw [bracketLength, behind, longLength_content enclosed rest]
  simp only [opening, closing, List.length_append, List.length_cons, List.length_replicate,
    List.length_nil]
  omega

theorem bracketLevel?_opening (level : Nat) (cs : List Char) :
    bracketLevel? (opening level ++ cs) = some level :=
  bracketLevel?_eq_some_iff.2 (List.prefix_append _ _)

theorem literalLength_long {level : Nat} {content : List Char} (rest : List Char)
    (proper : (Piece.long level content).Proper rest) :
    literalLength ((Piece.long level content).text ++ rest)
      = (Piece.long level content).text.length := by
  have opened : bracketLevel? (opening level ++ content ++ closing level ++ rest) = some level := by
    simp only [List.append_assoc, bracketLevel?_opening]
  have length := bracketLength_content proper rest
  rw [Piece.text, ← length]
  simp only [opening, List.cons_append] at opened ⊢
  rw [literalLength, opened]

theorem literalLength_longComment {level : Nat} {content : List Char} (rest : List Char)
    (proper : (Piece.longComment level content).Proper rest) :
    literalLength ((Piece.longComment level content).text ++ rest)
      = (Piece.longComment level content).text.length := by
  have opened : bracketLevel? (opening level ++ content ++ closing level ++ rest) = some level := by
    simp only [List.append_assoc, bracketLevel?_opening]
  rw [Piece.text, List.cons_append, List.cons_append, literalLength, commentLength, opened,
    List.length_cons, List.length_cons, ← bracketLength_content proper rest]

/-- A comment that opens no long bracket still opens none with the end of its line. -/
theorem opening_append_line {content rest : List Char} (plain : ∀ level, ¬opening level <+: content)
    (ends : ∀ c ∈ rest.head?, c = '\n' ∨ c = '\r') (level : Nat) :
    ¬opening level <+: content ++ rest := by
  rintro ⟨behind, same⟩
  rcases List.append_eq_append_iff.1 same with ⟨inside, whole, -⟩ | ⟨outside, whole, start⟩
  · exact plain level ⟨inside, whole.symm⟩
  -- Otherwise the end of the line, or nothing, would stand within the bracket.
  cases outside with
  | nil => exact plain level ⟨[], by rw [whole, List.append_nil, List.append_nil]⟩
  | cons c outside =>
    have mem : c ∈ opening level := whole ▸ List.mem_append_right _ List.mem_cons_self
    have ends' := ends c (start ▸ rfl)
    simp only [opening, List.mem_cons, List.mem_append, List.mem_replicate, List.not_mem_nil,
      or_false] at mem
    rcases ends' with rfl | rfl <;> simp at mem

/-- A comment reaches to the next line feed. -/
theorem commentLength_line {content rest : List Char} (plain : ∀ level, ¬opening level <+: content)
    (line : '\n' ∉ content) (ends : ∀ c ∈ rest.head?, c = '\n') :
    commentLength (content ++ rest) = content.length := by
  have taken : (content ++ rest).takeWhile (· ≠ '\n') = content := by
    rw [List.takeWhile_append_of_pos fun c mem => by
      simpa using fun same : c = '\n' => line (same ▸ mem)]
    cases rest with
    | nil => exact List.append_nil _
    | cons c rest =>
      obtain rfl := ends c rfl
      rw [List.takeWhile_cons_of_neg (by decide), List.append_nil]
  rw [commentLength,
    bracketLevel?_eq_none (opening_append_line plain fun c start => .inl (ends c start)), taken]

/-! ## Scripts -/

/-- What a `$` outside of literals becomes. -/
theorem rewritten_mark (rest : List Char) :
    (Piece.other '$').rewritten rest = bindingMark rest := by
  cases rest with
  | nil => rfl
  | cons c rest =>
    by_cases call : c = '('
    · subst call
      rfl
    · rw [Piece.rewritten, if_pos rfl, List.head?_cons,
        if_neg fun same => call (Option.some.inj same),
        bindingMark.eq_2 c rest fun same => call same]
      rfl

/-- A character outside of literals is rewritten by itself. -/
theorem rewrite_other {c : Char} {rest : List Char} (proper : (Piece.other c).Proper rest) :
    rewrite (c :: rest) = (Piece.other c).rewritten rest ++ rewrite rest := by
  obtain ⟨double, single, dashes, bracket⟩ := proper
  -- None of the four beginnings of a literal stands here.
  have none : literalLength (c :: rest) = 0 := by
    unfold literalLength
    split
    · rename_i same
      exact absurd (List.cons.inj same).1 double
    · rename_i same
      exact absurd (List.cons.inj same).1 single
    · rename_i same
      exact absurd (same ▸ List.prefix_append ['-', '-'] _) dashes
    · rename_i same
      rw [← same, bracketLevel?_eq_none bracket]
    · rfl
  rw [rewrite, none]
  simp only
  split
  · rename_i mark
    rw [mark, rewritten_mark]
  · rename_i plain
    rw [Piece.rewritten, if_neg plain, List.singleton_append]

/-- Rewriting takes a script apart as the language does. -/
theorem rewrite_piece {p : Piece} {rest : List Char} (proper : p.Proper rest)
    (settled : p.Settled rest) :
    rewrite (p.text ++ rest) = p.rewritten rest ++ rewrite rest := by
  cases p with
  | quoted quote parts =>
    exact rewrite_literal (List.cons_ne_nil _ _) (literalLength_quoted proper settled rest)
  | long level content =>
    exact rewrite_literal (List.cons_ne_nil _ _) (literalLength_long rest proper)
  | longComment level content =>
    exact rewrite_literal (List.cons_ne_nil _ _) (literalLength_longComment rest proper)
  | other c => exact rewrite_other proper
  | comment content =>
    obtain ⟨plain, line, -, ends⟩ := proper
    rcases eq_or_ne rest.head? (some '\r') with return' | noReturn
    · -- The carriage return is taken for a part of the comment, which is copied all the same.
      obtain ⟨more, rfl⟩ := List.head?_eq_some_iff.1 return'
      have plain' : ∀ level, ¬opening level <+: content ++ ['\r'] :=
        opening_append_line plain (by simp)
      have line' : '\n' ∉ content ++ ['\r'] := by simpa using line
      have length := commentLength_line plain' line' (settled more rfl)
      have kept : ∀ cs, (Piece.comment content).text ++ '\r' :: cs
          = '-' :: '-' :: (content ++ ['\r']) ++ cs := by
        simp [Piece.text]
      have copied : rewrite ('\r' :: more) = '\r' :: rewrite more := by
        rw [rewrite, show literalLength ('\r' :: more) = 0 from rfl]
        rfl
      rw [kept, rewrite_literal (List.cons_ne_nil _ _) (congrArg (· + 2) length), copied,
        Piece.rewritten, kept]
      rintro c ⟨⟩
    · have lineFeed : ∀ c ∈ rest.head?, c = '\n' :=
        fun c start => (ends c start).resolve_right fun same => noReturn (same ▸ start)
      exact rewrite_literal (List.cons_ne_nil _ _)
        (congrArg (· + 2) (commentLength_line plain line lineFeed))

/-- **Strings and comments stay, binding names are rewritten.** -/
theorem rewrite_text {ps : List Piece} (lexical : Lexical ps) (settled : Settled ps) :
    rewrite (text ps) = rewritten ps := by
  induction ps with
  | nil => rw [text, List.flatMap_nil, rewrite, rewritten]
  | cons p ps ih =>
    rw [text, List.flatMap_cons, ← text, rewrite_piece lexical.1 settled.1,
      ih lexical.2 settled.2, rewritten]

/-- Characters that open no literal. -/
theorem lexical_others {cs : List Char} {ps : List Piece}
    (plain : cs.all (· ∉ ['"', '\'', '-', '[']) = true) (lexical : Lexical ps) :
    Lexical (cs.map .other ++ ps) := by
  induction cs with
  | nil => exact lexical
  | cons c cs ih =>
    obtain ⟨plain, plain'⟩ := Bool.and_eq_true_iff.1 plain
    simp only [List.mem_cons, List.not_mem_nil, or_false, not_or, decide_eq_true_eq] at plain
    refine ⟨⟨plain.1, plain.2.1, fun dashes => plain.2.2.1 ?_, fun level bracket => plain.2.2.2 ?_⟩,
      ih plain'⟩
    · exact (List.cons_prefix_cons.1 dashes).1.symm
    · exact (List.cons_prefix_cons.1 bracket).1.symm

theorem settled_others (cs : List Char) {ps : List Piece} (settled : Settled ps) :
    Settled (cs.map .other ++ ps) := by
  induction cs with
  | nil => exact settled
  | cons c cs ih => exact ⟨trivial, ih⟩

/-- A script with a literal of each kind, and a `$` in each. -/
def assortment : List Piece :=
  "x = ".toList.map .other ++ .quoted '"' [.char '$', .char 'a', .escape ['"'], .escape ['\n']] ::
  (" .. ".toList.map .other ++ .long 1 "$b]]".toList ::
  (" ".toList.map .other ++ .longComment 0 "$c".toList ::
  (" ".toList.map .other ++ .comment " $d".toList ::
  ("\r\nreturn $(".toList.map .other ++ .quoted '\'' [.char '$'] ::
  ("), $f".toList.map .other ++ [])))))

theorem assortment_rewritten : Lexical assortment ∧ Settled assortment ∧
    text assortment
      = "x = \"$a\\\"\\\n\" .. [=[$b]]]=] --[[$c]] -- $d\r\nreturn $('$'), $f".toList ∧
    rewrite (text assortment)
      = "x = \"$a\\\"\\\n\" .. [=[$b]]]=] --[[$c]] -- $d\r\nreturn __node('$'), __f".toList := by
  have double : ∀ c ∈ ['$', 'a'], (Part.char c).Proper '"' := by simp [Part.Proper]
  have single : ∀ c ∈ ['$'], (Part.char c).Proper '\'' := by simp [Part.Proper]
  have bracketed : Enclosed 1 "$b]]".toList := by unfold Enclosed; decide
  have remark : Enclosed 0 "$c".toList := by unfold Enclosed; decide
  have line : ∀ level, ¬opening level <+: " $d".toList :=
    fun level bracket => absurd (List.cons_prefix_cons.1 bracket).1 (by decide)
  have ended : ∀ cs, ∀ c ∈ ('\r' :: cs).head?, c = '\n' ∨ c = '\r' := by simp
  -- Each literal is proper before what follows it, and what stands between two of them is plain.
  have lexical : Lexical assortment := by
    refine lexical_others (by decide) ⟨⟨.inl rfl, ?_⟩, lexical_others (by decide) ⟨bracketed,
      lexical_others (by decide) ⟨remark,
        lexical_others (by decide) ⟨⟨line, by decide, by decide, ended _⟩,
      lexical_others (by decide) ⟨⟨.inr rfl, ?_⟩, lexical_others (by decide) trivial⟩⟩⟩⟩⟩
    · simp only [List.forall_mem_cons]
      exact ⟨double _ (by decide), double _ (by decide), .letter (by decide),
        .lineEnd (by decide), nofun⟩
    · simp only [List.forall_mem_cons]
      exact ⟨single _ (by decide), nofun⟩
  have settled : Settled assortment := by
    refine settled_others _ ⟨?_,
      settled_others _ ⟨trivial,
      settled_others _ ⟨trivial,
      settled_others _ ⟨?_, settled_others _ ⟨?_, settled_others _ trivial⟩⟩⟩⟩⟩
    · unfold Piece.Settled
      decide
    · intro more same
      obtain ⟨-, rfl⟩ := List.cons.inj same
      rintro c ⟨⟩
      rfl
    · unfold Piece.Settled
      decide
  refine ⟨lexical, settled, by decide +kernel, ?_⟩
  rw [rewrite_text lexical settled]
  decide +kernel

/-- Rewriting misses where the language ends a literal. -/
def Missed (ps : List Piece) : Prop := Lexical ps ∧ rewrite (text ps) ≠ rewritten ps

/-- A string that goes on after `\z` and a line feed. -/
def skippedBreak : List Piece :=
  [.quoted '"' [.char 'a', .escape ['z', '\n', ' '], .char '$', .char 'x']]

/-- A string that goes on after two characters that end a line. -/
def doubleBreak : List Piece :=
  [.quoted '"' [.char 'a', .escape ['\r', '\n'], .char '$', .char 'x']]

/-- A comment that a carriage return ends. -/
def loneReturn : List Piece := .comment " a".toList :: ("\r$x".toList.map .other ++ [])

/-- Rewriting changes the first two, which are literals, and leaves the binding name of the third as
it is. -/
theorem strays_missed : Missed skippedBreak ∧ Missed doubleBreak ∧ Missed loneReturn := by
  have plain : ∀ c ∈ ['a', '$', 'x'], (Part.char c).Proper '"' := by simp [Part.Proper]
  have skipped : (Part.escape ['z', '\n', ' ']).Proper '"' := .space (by decide)
  have ended : (Part.escape ['\r', '\n']).Proper '"' := .lineEnd (by decide)
  have line : ∀ level, ¬opening level <+: " a".toList :=
    fun level bracket => absurd (List.cons_prefix_cons.1 bracket).1 (by decide)
  refine ⟨⟨⟨⟨.inl rfl, ?_⟩, trivial⟩, by decide +kernel⟩,
    ⟨⟨⟨.inl rfl, ?_⟩, trivial⟩, by decide +kernel⟩,
    ⟨⟨line, by decide, by decide, by simp [text, Piece.text]⟩, ?_⟩, by decide +kernel⟩
  · simp only [List.forall_mem_cons]
    exact ⟨plain _ (by decide), skipped, plain _ (by decide), plain _ (by decide), nofun⟩
  · simp only [List.forall_mem_cons]
    exact ⟨plain _ (by decide), ended, plain _ (by decide), plain _ (by decide), nofun⟩
  · exact lexical_others (by decide) trivial

end Conveyor.Script
