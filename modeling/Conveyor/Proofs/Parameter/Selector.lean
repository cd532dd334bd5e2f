/-
What a selector reads back.

A key is written into a selector with a backslash before every backslash and quote. Reading takes
back less than that: the first quote that was escaped, and no backslash. So a key comes back with
its backslashes doubled, and some do not come back at all. Whether one does is told by its quotes,
and by its last character where it has none (`Garbled`, `readBack?_eq_some_iff`). A key comes back
as it was written exactly if it is not garbled and has no backslash (`Segment.plain_iff`).
-/
import Conveyor.Parameter.Path
import Mathlib.Data.List.Basic
import Mathlib.Data.List.TakeDrop
import Mathlib.Data.List.TakeWhile

set_option autoImplicit false

namespace Conveyor.Parameter

namespace Path

variable {key other : List Char}

/-! ## Keys -/

/-- A character of a key in a selector. -/
def escaped (c : Char) : List Char := if c = '\\' ∨ c = '\'' then ['\\', c] else [c]

/-- A key with every backslash twice. -/
def doubled (key : List Char) : List Char :=
  key.flatMap fun c => if c = '\\' then ['\\', '\\'] else [c]

/-- A key that makes a selector unreadable: it has two quotes, or no quote and a backslash at its
end. -/
def Garbled (key : List Char) : Prop := 2 ≤ key.count '\'' ∨ '\'' ∉ key ∧ key.getLast? = some '\\'

theorem escapeKey_eq_flatMap (key : List Char) : escapeKey key = key.flatMap escaped := by
  fun_induction escapeKey key with
  | case1 => rfl
  | case2 cs ih => rw [List.flatMap_cons, ih]; rfl
  | case3 cs ih => rw [List.flatMap_cons, ih]; rfl
  | case4 c cs backslash quote ih =>
    rw [List.flatMap_cons, ih, escaped, if_neg (not_or.2 ⟨backslash, quote⟩)]
    rfl

/-- Backslashes are all that is escaped in a key without quotes. -/
theorem flatMap_escaped (unquoted : '\'' ∉ key) : key.flatMap escaped = doubled key := by
  refine List.flatMap_congr fun c mem => ?_
  have other : c ≠ '\'' := fun same => unquoted (same ▸ mem)
  rw [escaped]
  by_cases backslash : c = '\\'
  · rw [if_pos (.inl backslash), if_pos backslash, backslash]
  · rw [if_neg (not_or.2 ⟨backslash, other⟩), if_neg backslash]

theorem mem_flatMap_escaped_iff : '\'' ∈ key.flatMap escaped ↔ '\'' ∈ key := by
  rw [List.mem_flatMap]
  constructor
  · rintro ⟨c, mem, quote⟩
    unfold escaped at quote
    split at quote
    · have same : '\'' = c := by simpa using quote
      exact same ▸ mem
    · exact List.mem_singleton.1 quote ▸ mem
  · exact fun mem => ⟨'\'', mem, by decide⟩

theorem quote_not_mem_doubled (unquoted : '\'' ∉ key) : '\'' ∉ doubled key := by
  rw [← flatMap_escaped unquoted, mem_flatMap_escaped_iff]
  exact unquoted

/-- A key comes back longer by its backslashes. -/
theorem length_doubled (key : List Char) : (doubled key).length = key.length + key.count '\\' := by
  induction key with
  | nil => rfl
  | cons c cs ih =>
    rw [doubled, List.flatMap_cons, List.length_append, ← doubled, ih, List.count_cons,
      List.length_cons]
    by_cases backslash : c = '\\'
    · simp only [backslash, if_true, beq_self_eq_true, List.length_cons, List.length_nil]
      omega
    · simp only [backslash, if_false, beq_iff_eq, List.length_singleton]
      omega

theorem doubled_eq_self_iff : doubled key = key ↔ '\\' ∉ key := by
  constructor
  · intro same
    have lengths := length_doubled key
    rw [same] at lengths
    exact List.count_eq_zero.1 (by omega)
  · intro simple
    have single : ∀ c ∈ key, (if c = '\\' then ['\\', '\\'] else [c]) = [c] :=
      fun c mem => if_neg fun same : c = '\\' => simple (same ▸ mem)
    rw [doubled, List.flatMap_congr single, List.flatMap_singleton']

theorem getLast?_doubled (key : List Char) : (doubled key).getLast? = key.getLast? := by
  rcases List.eq_nil_or_concat key with rfl | ⟨front, c, rfl⟩
  · rfl
  · rw [doubled, List.concat_eq_append, List.flatMap_append, List.flatMap_singleton,
      List.getLast?_concat, List.getLast?_append]
    split
    · rename_i backslash
      rw [backslash]
      rfl
    · rfl

/-- Reading stops before the first quote. -/
theorem span_quote (unquoted : '\'' ∉ key) (rest : List Char) :
    (key ++ '\'' :: rest).span (· ≠ '\'') = (key, '\'' :: rest) := by
  have before : ∀ c ∈ key, decide (c ≠ '\'') = true :=
    fun c mem => decide_eq_true fun same => unquoted (same ▸ mem)
  rw [List.span_eq_takeWhile_dropWhile, List.takeWhile_append_of_pos before,
    List.dropWhile_append_of_pos before, List.takeWhile_cons_of_neg (by decide),
    List.dropWhile_cons_of_neg (by decide), List.append_nil]

theorem span_unquoted (unquoted : '\'' ∉ key) : key.span (· ≠ '\'') = (key, []) := by
  have all : ∀ c ∈ key, decide (c ≠ '\'') = true :=
    fun c mem => decide_eq_true fun same => unquoted (same ▸ mem)
  rw [List.span_eq_takeWhile_dropWhile, List.takeWhile_eq_self_iff.2 all,
    List.dropWhile_eq_nil_iff.2 all]

theorem readBack?_of_unquoted (unquoted : '\'' ∉ key) :
    readBack? key = if key.getLast? = some '\\' then none else some (doubled key) := by
  rw [readBack?, escapeKey_eq_flatMap, flatMap_escaped unquoted,
    span_unquoted (quote_not_mem_doubled unquoted)]
  simp only [getLast?_doubled]

/-- The first quote loses the backslash before it; a second one stays in the way. -/
theorem readBack?_of_quoted (unquoted : '\'' ∉ key) (rest : List Char) :
    readBack?
      (key ++ '\'' :: rest)
      = if '\'' ∈ rest then none else some (doubled (key ++ '\'' :: rest)) := by
  have shape : escapeKey (key ++ '\'' :: rest) = (doubled key ++ ['\\'])
      ++ '\'' :: rest.flatMap escaped := by
    rw [escapeKey_eq_flatMap, List.flatMap_append, List.flatMap_cons, flatMap_escaped unquoted,
      List.append_assoc]
    rfl
  have before : '\'' ∉ doubled key ++ ['\\'] := by
    rw [List.mem_append, not_or]
    exact ⟨quote_not_mem_doubled unquoted, by decide⟩
  -- Reading stops at the quote, and drops the backslash that it has read last.
  rw [readBack?, shape, span_quote before]
  simp only [mem_flatMap_escaped_iff, List.dropLast_concat]
  refine ite_congr rfl (fun _ => rfl) fun single => ?_
  rw [flatMap_escaped single, doubled, doubled, doubled, List.flatMap_append, List.flatMap_cons]
  rfl

/-- **What comes back of a key.** A key that is not garbled comes back with its backslashes
doubled. -/
theorem readBack?_eq_some_iff :
    readBack? key = some other ↔ ¬Garbled key ∧ doubled key = other := by
  -- The first quotation mark decides where the key is cut; without one, its last backslash does
  -- whether it is.
  by_cases quoted : '\'' ∈ key
  · obtain ⟨before, rest, rfl, unquoted⟩ := List.eq_append_cons_of_mem quoted
    have second : Garbled (before ++ '\'' :: rest) ↔ '\'' ∈ rest := by
      have counted : 2 ≤ (before ++ '\'' :: rest).count '\'' ↔ '\'' ∈ rest := by
        rw [List.count_append, List.count_cons_self, List.count_eq_zero.2 unquoted,
          ← List.count_pos_iff]
        omega
      rw [Garbled, counted]
      exact or_iff_left fun ending => ending.1 quoted
    rw [readBack?_of_quoted unquoted, second]
    split
    · rename_i more
      exact iff_of_false nofun fun single => single.1 more
    · rename_i single
      rw [Option.some.injEq, and_iff_right single]
  · have last : Garbled key ↔ key.getLast? = some '\\' := by
      have none := List.count_eq_zero.2 quoted
      rw [Garbled, and_iff_right quoted]
      exact or_iff_right (by omega)
    rw [readBack?_of_unquoted quoted, last]
    split
    · rename_i backslash
      exact iff_of_false nofun fun other => other.1 backslash
    · rename_i other
      rw [Option.some.injEq, and_iff_right other]

end Path

/-! ## Segments -/

namespace Segment

open Conveyor.Parameter.Path

/-- A segment that a selector can be read with. -/
def Readable : Segment → Prop
  | .key k => ¬Garbled k.toList
  | .index n => n ≤ maxPosition

/-- A segment as a selector has it. -/
def readBack : Segment → Segment
  | .key k => .key (String.ofList (doubled k.toList))
  | .index n => .index n

/-- A key without backslashes that has one quote at most, or a position that a selector reads. -/
def Plain : Segment → Prop
  | .key k => '\\' ∉ k.toList ∧ k.toList.count '\'' ≤ 1
  | .index n => n ≤ maxPosition

theorem selector?_eq_some_iff {s t : Segment} :
    selector? s = some t ↔ s.Readable ∧ s.readBack = t := by
  cases s with
  | key k =>
    rw [selector?, Option.map_eq_some_iff]
    constructor
    · rintro ⟨cs, read, rfl⟩
      obtain ⟨readable, rfl⟩ := readBack?_eq_some_iff.1 read
      exact ⟨readable, rfl⟩
    · rintro ⟨readable, rfl⟩
      exact ⟨_, readBack?_eq_some_iff.2 ⟨readable, rfl⟩, rfl⟩
  | index n =>
    rw [selector?]
    split
    · rename_i fits
      rw [Option.some.injEq]
      exact (and_iff_right fits).symm
    · rename_i exceeds
      exact iff_of_false nofun fun fits => exceeds fits.1

/-- **The plain segments are those that come back as they were written.** -/
theorem plain_iff {s : Segment} : s.Plain ↔ s.Readable ∧ s.readBack = s := by
  cases s with
  | key k =>
    have same : Segment.readBack (.key k) = .key k ↔ '\\' ∉ k.toList := by
      rw [← doubled_eq_self_iff, readBack, key.injEq, ← String.toList_inj, String.toList_ofList]
    rw [same, Plain, Readable, Garbled, not_or, not_le, and_comm]
    refine and_congr_left fun simple => ?_
    -- Without a backslash, a key is garbled by its quotes only.
    have last : ¬('\'' ∉ k.toList ∧ k.toList.getLast? = some '\\') :=
      fun ending => simple (List.mem_of_getLast? ending.2)
    rw [and_iff_left last]
    omega
  | index n => exact (and_iff_left rfl).symm

end Segment

/-! ## Paths -/

namespace Path

open Segment

variable {path : Path}

/-- A path can be read exactly if each of its segments can. -/
theorem mapM_selector?_eq_some_iff {read : Path} :
    path.mapM selector? = some read ↔ (∀ s ∈ path, s.Readable) ∧ path.map readBack = read := by
  induction path generalizing read with
  | nil =>
    rw [List.mapM_nil, Option.pure_def, Option.some.injEq]
    exact (and_iff_right nofun).symm
  | cons s path ih =>
    simp only [List.mapM_cons, Option.bind_eq_bind, Option.bind_eq_some_iff, Option.pure_def,
      Option.some.injEq, selector?_eq_some_iff, ih, List.forall_mem_cons, List.map_cons]
    constructor
    · rintro ⟨_, ⟨first, rfl⟩, _, ⟨others, rfl⟩, rfl⟩
      exact ⟨⟨first, others⟩, rfl⟩
    · rintro ⟨⟨first, others⟩, rfl⟩
      exact ⟨_, ⟨first, rfl⟩, _, ⟨others, rfl⟩, rfl⟩

theorem mapM_selector?_eq_none_iff : path.mapM selector? = none ↔ ∃ s ∈ path, ¬s.Readable := by
  rw [Option.eq_none_iff_forall_ne_some]
  constructor
  · intro none
    by_contra readable
    push Not at readable
    exact none _ (mapM_selector?_eq_some_iff.2 ⟨readable, rfl⟩)
  · rintro ⟨s, mem, unreadable⟩ read found
    exact unreadable ((mapM_selector?_eq_some_iff.1 found).1 s mem)

/-- A path of plain segments comes back as it was written. -/
theorem map_readBack_of_plain (plain : ∀ s ∈ path, s.Plain) : path.map readBack = path :=
  (List.map_congr_left fun s mem => (plain_iff.1 (plain s mem)).2).trans (List.map_id' path)

end Path

end Conveyor.Parameter
