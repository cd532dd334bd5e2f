/-
Which texts are paths.

A path is written as keys, each with its positions in brackets behind it, and a dot between a key
and what comes before it. `Spells` is that grammar, with one thing left open: what may stand between
a segment and the key after it (`Separation`). The scanner is exact for the grammar in which that is
a dot behind a key, and any number of dots, none included, behind a position (`lenient`): it looks
at what was read last, and behind a position it neither asks for the dot nor sees that there was one
before. So it accepts `a[0]b` and `a[0]..b`. The grammar that has a single dot everywhere (`single`)
differs from it there and nowhere else: in the texts that are not `Tidy`, which is told by what
stands behind their closing brackets.

That the scanner gives what the grammar says is proved from both sides. Along a derivation the
scanner reads its text (`scan_continues`); and what is left to read when a path comes out is what
the grammar has left to derive in that state (`Leaves`, `leaves_of_scan`). A path as it is written
has single dots, so it comes back (`parsed_back_iff`).
-/
import Conveyor.Parameter.Path
import Conveyor.Proofs.Decimal.Natural
import Mathlib.Data.List.Infix

set_option autoImplicit false

namespace Conveyor.Parameter.Path

/-! ## The grammar -/

/-- A character that means nothing but itself in a path. -/
def InKey (c : Char) : Prop := c ≠ '.' ∧ c ≠ '[' ∧ c ≠ ']'

/-- Characters that are a key: there are some, and none of them means anything else. -/
structure IsKey (k : List Char) : Prop where
  some : k ≠ []
  inKey : ∀ c ∈ k, InKey c

/-- Characters that are the number of a position. -/
structure Numbers (ds : List Char) (n : Nat) : Prop where
  some : ds ≠ []
  digits : ∀ d ∈ ds, d.isDigit = true
  value : Decimal.natOfDigits 0 ds = n
  fits : n < 2 ^ (64 : Nat)

/-- What may stand between a segment and the key after it. -/
abbrev Separation := Segment → List Char → Prop

/-- A single dot, whatever the segment is. -/
def single : Separation := fun _ gap => gap = ['.']

/-- A single dot behind a key, and dots behind a position, if any. -/
def lenient : Separation
  | .key _, gap => gap = ['.']
  | .index _, gap => ∀ c ∈ gap, c = '.'

/-- A text goes on behind a segment, with the segments that follow. -/
inductive Continues (sep : Separation) : Segment → Path → List Char → Prop
  | done {s : Segment} : Continues sep s [] []
  | key {s : Segment} (gap : List Char) {k cs : List Char} {path : Path} (apart : sep s gap)
    (isKey : IsKey k)
      (rest : Continues sep (.key (String.ofList k)) path cs) :
      Continues sep s (.key (String.ofList k) :: path) (gap ++ (k ++ cs))
  | index {s : Segment} {ds cs : List Char} {n : Nat} {path : Path} (numbers : Numbers ds n)
      (rest : Continues sep (.index n) path cs) :
      Continues sep s (.index n :: path) ('[' :: (ds ++ ']' :: cs))

/-- A text spells a path: it begins with a key and goes on behind it. -/
inductive Spells (sep : Separation) : Path → List Char → Prop
  | intro {k cs : List Char} {path : Path} (isKey : IsKey k)
      (rest : Continues sep (.key (String.ofList k)) path cs) :
      Spells sep (.key (String.ofList k) :: path) (k ++ cs)

variable {sep sep' : Separation} {s : Segment} {path : Path} {acc cs ds gap k : List Char} {n : Nat}
  {c : Char}

theorem lenient_of_single (apart : single s gap) : lenient s gap := by
  obtain rfl : gap = ['.'] := apart
  cases s with
  | key k => rfl
  | index n => exact fun c hc => List.mem_singleton.1 hc

theorem indexOf?_eq_some_iff : indexOf? acc = some n ↔ Numbers acc.reverse n := by
  simp only [indexOf?, Option.filter_eq_some_iff, Decimal.natOfText?_eq_some_iff,
    String.toList_ofList, decide_eq_true_eq]
  constructor
  · rintro ⟨⟨some, digits, value⟩, fits⟩
    exact ⟨some, digits, value, fits⟩
  · rintro ⟨some, digits, value, fits⟩
    exact ⟨⟨some, digits, value⟩, fits⟩

/-! ## The scanner reads what the grammar derives -/

theorem scan_inKey (done : Path) (acc : List Char) (afterDot : Bool) (inKey : InKey c) :
    scan done (.key acc afterDot) (c :: cs) = scan done (.key (c :: acc) false) cs := by
  obtain ⟨dot, opening, closing⟩ := inKey
  rw [scan]
  · exact fun _ => dot
  · exact dot
  · exact fun _ => opening
  · exact opening
  · exact closing

/-- A key is read whole. -/
theorem scan_key (done : Path) (acc : List Char) (afterDot : Bool) (isKey : IsKey k) :
    scan done (.key acc afterDot) (k ++ cs) = scan done (.key (k.reverse ++ acc) false) cs := by
  obtain ⟨some, inKey⟩ := isKey
  induction k generalizing acc afterDot with
  | nil => exact absurd rfl some
  | cons c k ih =>
    obtain ⟨first, others⟩ := List.forall_mem_cons.1 inKey
    rw [List.cons_append, scan_inKey done acc afterDot first, List.reverse_cons, List.append_assoc]
    cases k with
    | nil => rfl
    | cons d k => exact ih (c :: acc) false (List.cons_ne_nil d k) others

/-- Digits are read one after another. -/
theorem scan_digits (done : Path) (acc : List Char) (digits : ∀ d ∈ ds, d.isDigit = true) :
    scan done (.index acc) (ds ++ cs) = scan done (.index (ds.reverse ++ acc)) cs := by
  induction ds generalizing acc with
  | nil => rfl
  | cons d ds ih =>
    obtain ⟨first, others⟩ := List.forall_mem_cons.1 digits
    have notClosing : d ≠ ']' := by
      rintro rfl
      exact absurd first (by decide)
    rw [List.cons_append, scan, if_pos first, ih (d :: acc) others, List.reverse_cons,
      List.append_assoc]
    · rfl
    · exact notClosing

/-- A position is read with its brackets. -/
theorem scan_index (done : Path) (numbers : Numbers ds n) :
    scan done (.index []) (ds ++ ']' :: cs) = scan (.index n :: done) (.key [] false) cs := by
  have read : indexOf? (ds.reverse ++ []) = some n := by
    rw [List.append_nil, indexOf?_eq_some_iff, List.reverse_reverse]
    exact numbers
  rw [scan_digits done [] numbers.digits, scan, read]

/-- Behind a position, dots are passed over. -/
theorem scan_dots (done : Path) (afterDot : Bool) (dots : ∀ c ∈ gap, c = '.') :
    ∃ after, scan (.index n :: done) (.key [] afterDot) (gap ++ cs) = scan (.index n :: done)
    (.key [] after) cs := by
  induction gap generalizing afterDot with
  | nil => exact ⟨afterDot, rfl⟩
  | cons c gap ih =>
    obtain ⟨rfl, others⟩ := List.forall_mem_cons.1 dots
    rw [List.cons_append, scan]
    exact ih true others

/-- **Along a derivation the scanner reads its text**, whether the segment before it is a key that
it has still in hand or a position that is done. -/
theorem scan_continues (continues : Continues lenient s path cs) :
    (∀ done acc afterDot, acc ≠ [] → keyOf acc = s →
      scan done (.key acc afterDot) cs = some (done.reverse ++ s :: path)) ∧
    ∀ done n, s = .index n →
      scan (s :: done) (.key [] false) cs = some (done.reverse ++ s :: path) := by
  induction continues with
  | @done s =>
    refine ⟨fun done acc afterDot some key => ?_, fun done n index => ?_⟩
    · rw [scan, key, List.reverse_cons]
      exact some
    · rw [scan, if_neg (by simp), List.reverse_cons]
  | @key s gap k cs path apart isKey rest ih =>
    have next : k.reverse ++ [] ≠ [] ∧ keyOf (k.reverse ++ []) = .key (String.ofList k) := by
      rw [List.append_nil, keyOf, List.reverse_reverse]
      exact ⟨fun empty => isKey.some (List.reverse_eq_nil_iff.1 empty), rfl⟩
    -- A key in hand is closed by the dot, which has to be there; behind a position there is nothing
    -- to close.
    refine ⟨fun done acc afterDot some key => ?_, fun done n index => ?_⟩
    · subst key
      obtain rfl : gap = ['.'] := apart
      rw [List.singleton_append, scan, scan_key _ [] true isKey, ih.1 _ _ _ next.1 next.2,
        List.reverse_cons, List.append_assoc]
      · rfl
      · exact some
    · subst index
      obtain ⟨after, passed⟩ := scan_dots (n := n) done false apart
      rw [passed, scan_key _ [] after isKey, ih.1 _ _ _ next.1 next.2, List.reverse_cons,
        List.append_assoc]
      rfl
  | @index s ds cs n path numbers rest ih =>
    refine ⟨fun done acc afterDot some key => ?_, fun done m index => ?_⟩
    · rw [scan, scan_index _ numbers, ih.2 _ n rfl, key, List.reverse_cons, List.append_assoc]
      · rfl
      · exact some
    · rw [scan, if_neg (by simp), scan_index _ numbers, ih.2 _ n rfl, List.reverse_cons,
        List.append_assoc]
      rfl

theorem parse?_of_spells {text : String} (spells : Spells lenient path text.toList) :
    parse? text = some path := by
  rw [parse?]
  generalize text.toList = cs at spells
  cases spells with
  | @intro k cs path isKey rest =>
    have some : k.reverse ++ [] ≠ [] := fun empty => isKey.some (by simpa using empty)
    have key : keyOf (k.reverse ++ []) = .key (String.ofList k) := by
      rw [List.append_nil, keyOf, List.reverse_reverse]
    rw [scan_key [] [] false isKey, (scan_continues rest).1 _ _ _ some key]
    rfl

/-! ## The scanner reads nothing else -/

/-- A state that the scanner gets to: the last segment is behind a position only if that is closed,
and a dot stands behind some segment. -/
def Sane (done : Path) : Reading → Prop
  | .key [] false => ∀ k rest, done ≠ .key k :: rest
  | .key [] true => done ≠ []
  | .key acc _ => ∀ c ∈ acc, InKey c
  | .index _ => True

theorem Sane.inKey {done : Path} {afterDot : Bool} (sane : Sane done (.key acc afterDot)) :
    ∀ c ∈ acc, InKey c := by
  cases acc with
  | nil => exact nofun
  | cons c acc => exact sane

/-- A path may end, and a bracket may open, behind a segment only. -/
theorem behind_of_may {done : Path} {afterDot : Bool} (may : ¬(afterDot || done.isEmpty) = true) :
    afterDot = false ∧ ∃ s rest, done = s :: rest := by
  simp only [Bool.or_eq_true, List.isEmpty_iff, not_or, Bool.not_eq_true] at may
  exact ⟨may.1, List.exists_cons_of_ne_nil may.2⟩

/-- What is left of a text in a state of the scanner, and the segments that it adds. -/
inductive Leaves : Path → Reading → Path → List Char → Prop
  | start {path : Path} {cs : List Char} (spells : Spells lenient path cs) :
  Leaves [] (.key [] false) path cs
  | behind {s : Segment} {done path : Path} {cs : List Char}
    (continues : Continues lenient s path cs) :
      Leaves (s :: done) (.key [] false) path cs
  | apart {s : Segment} {done path : Path} (gap : List Char) {k cs : List Char}
    (apart : lenient s ('.' :: gap))
      (isKey : IsKey k) (continues : Continues lenient (.key (String.ofList k)) path cs) :
      Leaves (s :: done) (.key [] true) (.key (String.ofList k) :: path) (gap ++ (k ++ cs))
  | key {done path : Path} {acc k cs : List Char} {afterDot : Bool} (some : acc ≠ [])
      (isKey : IsKey (acc.reverse ++ k))
      (continues : Continues lenient (.key (String.ofList (acc.reverse ++ k))) path cs) :
      Leaves done (.key acc afterDot) (.key (String.ofList (acc.reverse ++ k)) :: path) (k ++ cs)
  | index {done path : Path} {acc : List Char} (ds : List Char) {cs : List Char} {n : Nat}
      (numbers : Numbers (acc.reverse ++ ds) n)
      (continues : Continues lenient (.index n) path cs) :
      Leaves done (.index acc) (.index n :: path) (ds ++ ']' :: cs)

/-- A key that is in hand ends where something follows that is no part of it. -/
theorem Leaves.close {done : Path} {afterDot : Bool} (some : acc ≠ []) (inKey : ∀ c ∈ acc, InKey c)
    (continues : Continues lenient (keyOf acc) path cs) :
    Leaves done (.key acc afterDot) (keyOf acc :: path) cs := by
  have isKey : IsKey acc.reverse :=
    ⟨fun empty => some (List.reverse_eq_nil_iff.1 empty),
      fun c hc => inKey c (List.mem_reverse.1 hc)⟩
  have whole : Leaves done (.key acc afterDot) (.key (String.ofList (acc.reverse ++ [])) :: path)
      ([] ++ cs) :=
    .key some (by rwa [List.append_nil]) (by rwa [List.append_nil])
  rwa [List.append_nil] at whole

/-- A key begins where one may begin. -/
theorem Leaves.first {done : Path} {afterDot : Bool} (sane : Sane done (.key [] afterDot))
    (isKey : IsKey k) (continues : Continues lenient (.key (String.ofList k)) path cs) :
    Leaves done (.key [] afterDot) (.key (String.ofList k) :: path) (k ++ cs) := by
  cases done with
  | nil =>
    cases afterDot with
    | false => exact .start (.intro isKey continues)
    | true => exact absurd rfl sane
  | cons s done =>
    cases afterDot with
    | true => exact .apart [] (lenient_of_single rfl) isKey continues
    | false =>
      cases s with
      | key k' => exact absurd rfl (sane k' done)
      | index n => exact .behind (.key [] (fun c hc => absurd hc List.not_mem_nil) isKey continues)

/-- **What is left to read when a path comes out is what the grammar has left to derive.** -/
theorem leaves_of_scan {done path : Path} {r : Reading} (scans : scan done r cs = some path)
    (sane : Sane done r) :
    ∃ added, path = done.reverse ++ added ∧ Leaves done r added cs := by
  -- The states from which no path comes out go first. In the others the path is that of a later
  -- state, which is sane again, and `ih` says what is left there; what was read on the way is put
  -- in front of that.
  fun_induction scan done r cs with
  | case1 | case5 | case7 | case10 | case13 | case15 | case16 => simp only [reduceCtorEq] at scans
  | case2 done afterDot more =>
    obtain ⟨rfl, s, done, rfl⟩ := behind_of_may more
    exact ⟨[], by rw [List.append_nil, Option.some.inj scans], .behind .done⟩
  | case3 done acc afterDot some =>
    exact ⟨[keyOf acc], by rw [← Option.some.inj scans, List.reverse_cons],
      .close some sane.inKey .done⟩
  -- A dot behind a position is one more of its gap.
  | case4 afterDot cs n done ih =>
    obtain ⟨added, same, leaves⟩ := ih scans (List.cons_ne_nil _ _)
    refine ⟨added, same, ?_⟩
    cases leaves with
    | key some => exact absurd rfl some
    | @apart s done path gap k cs dots isKey continues =>
      cases afterDot with
      | false => exact .behind (.key ('.' :: gap) dots isKey continues)
      | true => exact .apart ('.' :: gap) (List.forall_mem_cons.2 ⟨rfl, dots⟩) isKey continues
  -- A dot closes the key in hand, and a single one is all that may follow a key.
  | case6 done acc afterDot cs some ih =>
    obtain ⟨added, same, leaves⟩ := ih scans (List.cons_ne_nil _ _)
    refine ⟨keyOf acc :: added, by rw [same, List.reverse_cons, List.append_assoc]; rfl, ?_⟩
    cases leaves with
    | key none => exact absurd rfl none
    | @apart s done path gap k cs dot isKey continues =>
      obtain rfl : gap = [] := (List.cons.inj dot).2
      exact .close some sane.inKey (.key ['.'] rfl isKey continues)
  -- A bracket opens behind a position, or closes the key in hand first.
  | case8 done afterDot cs more ih =>
    obtain ⟨rfl, s, done, rfl⟩ := behind_of_may more
    obtain ⟨added, same, leaves⟩ := ih scans trivial
    refine ⟨added, same, ?_⟩
    cases leaves with
    | index _ numbers continues => exact .behind (.index numbers continues)
  | case9 done acc afterDot cs some ih =>
    obtain ⟨added, same, leaves⟩ := ih scans trivial
    refine ⟨keyOf acc :: added, by rw [same, List.reverse_cons, List.append_assoc]; rfl, ?_⟩
    cases leaves with
    | index _ numbers continues => exact .close some sane.inKey (.index numbers continues)
  -- A character of a key begins one, or goes on with the one in hand.
  | case11 done acc afterDot c cs _ dot _ opening closing ih =>
    have inKey : InKey c := ⟨dot, opening, closing⟩
    cases acc with
    | nil =>
      obtain ⟨added, same, leaves⟩ := ih scans (List.forall_mem_cons.2 ⟨inKey, nofun⟩)
      refine ⟨added, same, ?_⟩
      cases leaves with
      | @key _ path _ k cs _ some isKey continues => exact .first sane isKey continues
    | cons d acc =>
      obtain ⟨added, same, leaves⟩ := ih scans (List.forall_mem_cons.2 ⟨inKey, sane⟩)
      refine ⟨added, same, ?_⟩
      cases leaves with
      | @key _ path _ k cs _ some isKey continues =>
        rw [List.reverse_cons, List.append_assoc] at isKey continues ⊢
        exact .key (k := c :: k) (List.cons_ne_nil d acc) isKey continues
  -- A closing bracket: the digits in hand are a number, and nothing is in hand behind it.
  | case12 done acc cs n read ih =>
    obtain ⟨added, same, leaves⟩ := ih scans nofun
    refine ⟨.index n :: added, by rw [same, List.reverse_cons, List.append_assoc]; rfl, ?_⟩
    cases leaves with
    | key none => exact absurd rfl none
    | behind continues =>
      exact .index [] (by rw [List.append_nil]; exact indexOf?_eq_some_iff.1 read) continues
  | case14 done acc c cs closing digit ih =>
    obtain ⟨added, same, leaves⟩ := ih scans trivial
    refine ⟨added, same, ?_⟩
    cases leaves with
    | @index _ path _ ds cs n numbers continues =>
      rw [List.reverse_cons, List.append_assoc] at numbers
      exact .index (c :: ds) numbers continues

/-- **The scanner accepts what the lenient grammar derives**, and gives the segments that it
derives. -/
theorem parse?_eq_some_iff {text : String} :
    parse? text = some path ↔ Spells lenient path text.toList := by
  refine ⟨fun parsed => ?_, parse?_of_spells⟩
  rw [parse?] at parsed
  generalize text.toList = cs at parsed
  obtain ⟨added, rfl, leaves⟩ := leaves_of_scan parsed nofun
  cases leaves with
  | start spells => exact spells
  | key none => exact absurd rfl none

/-! ## Where the two grammars differ -/

/-- Behind every closing bracket the text ends, or a single dot follows, or another bracket does. -/
structure Tidy (cs : List Char) : Prop where
  dots : ¬[']', '.', '.'] <:+: cs
  keys : ∀ c, InKey c → ¬[']', c] <:+: cs

/-- The closing bracket of a position, which stands before the text that goes on behind it. -/
def closing : Segment → List Char
  | .key _ => []
  | .index _ => [']']

/-- What begins with a character is not in a text that does not have it. -/
theorem infix_append_iff {x : Char} {l a : List Char} (absent : ∀ c ∈ a, c ≠ x) :
    x :: l <:+: a ++ cs ↔ x :: l <:+: cs := by
  induction a with
  | nil => rfl
  | cons c a ih =>
    obtain ⟨differ, others⟩ := List.forall_mem_cons.1 absent
    rw [List.cons_append, List.infix_cons_iff, List.cons_prefix_cons, ih others]
    exact or_iff_right fun same => differ same.1.symm

theorem tidy_append_iff {a : List Char} (absent : ∀ c ∈ a, c ≠ ']') : Tidy (a ++ cs) ↔ Tidy cs := by
  constructor
  · rintro ⟨dots, keys⟩
    exact ⟨(infix_append_iff absent).not.1 dots,
      fun c hc => (infix_append_iff absent).not.1 (keys c hc)⟩
  · rintro ⟨dots, keys⟩
    exact ⟨(infix_append_iff absent).not.2 dots,
      fun c hc => (infix_append_iff absent).not.2 (keys c hc)⟩

theorem tidy_closing_iff : Tidy (']' :: cs) ↔ Tidy cs ∧ ¬['.', '.'] <+: cs ∧
    ∀ c, InKey c → ¬[c] <+: cs := by
  have split : ∀ l, ']' :: l <:+: ']' :: cs ↔ l <+: cs ∨ ']' :: l <:+: cs := fun l => by
    rw [List.infix_cons_iff, List.cons_prefix_cons, and_iff_right rfl]
  constructor
  · rintro ⟨dots, keys⟩
    exact ⟨⟨fun later => dots ((split _).2 (.inr later)),
      fun c hc later => keys c hc ((split _).2 (.inr later))⟩,
      fun now => dots ((split _).2 (.inl now)), fun c hc now => keys c hc ((split _).2 (.inl now))⟩
  · rintro ⟨⟨dots, keys⟩, noDots, noKey⟩
    exact ⟨fun both => ((split _).1 both).elim noDots dots,
      fun c hc both => ((split _).1 both).elim (noKey c hc) (keys c hc)⟩

/-- Nothing before a closing bracket matters for what stands behind it. -/
theorem tidy_of_closing (tidy : Tidy (closing s ++ cs)) : Tidy cs := by
  cases s with
  | key k => exact tidy
  | index n => exact (tidy_closing_iff.1 tidy).1

theorem IsKey.no_bracket (isKey : IsKey k) : ∀ c ∈ k, c ≠ ']' := fun c hc => (isKey.inKey c hc).2.2

theorem IsKey.no_dot (isKey : IsKey k) : ∀ c ∈ k, c ≠ '.' := fun c hc => (isKey.inKey c hc).1

theorem Numbers.no_other {x : Char} (numbers : Numbers ds n) (other : x.isDigit = false) :
    ∀ c ∈ ds, c ≠ x := by
  rintro c hc rfl
  exact absurd (numbers.digits c hc) (by rw [other]; exact Bool.false_ne_true)

/-- What stands before the closing bracket of a position has no other one in it. -/
theorem tidy_index_iff (numbers : Numbers ds n) :
    Tidy ('[' :: (ds ++ ']' :: cs)) ↔ Tidy (']' :: cs) := by
  rw [← List.cons_append]
  exact tidy_append_iff (List.forall_mem_cons.2 ⟨by decide, numbers.no_other rfl⟩)

/-- With single dots, a closing bracket is followed by what may follow it. -/
theorem tidy_of_single (continues : Continues single s path cs) : Tidy (closing s ++ cs) := by
  induction continues with
  | @done s =>
    have empty : Tidy [] := ⟨by decide, fun c _ => List.infix_nil.not.2 (List.cons_ne_nil _ _)⟩
    cases s with
    | key k => exact empty
    | index n =>
      exact tidy_closing_iff.2 ⟨empty, by decide,
        fun c _ => List.prefix_nil.not.2 (List.cons_ne_nil _ _)⟩
  | @key s gap k cs path apart isKey rest ih =>
    obtain rfl : gap = ['.'] := apart
    have behind : Tidy ('.' :: (k ++ cs)) := by
      rw [← List.cons_append]
      exact (tidy_append_iff (List.forall_mem_cons.2 ⟨by decide, isKey.no_bracket⟩)).2 ih
    cases s with
    -- Behind a key there is no bracket that would have to be looked at.
    | key k' => exact behind
    | index n =>
      change Tidy (']' :: '.' :: (k ++ cs))
      refine tidy_closing_iff.2 ⟨behind, fun dots => ?_, fun c inKey begins => ?_⟩
      · -- The second character is the first one of the key.
        obtain ⟨c, k, rfl⟩ := List.exists_cons_of_ne_nil isKey.some
        rw [List.cons_prefix_cons, List.cons_append, List.cons_prefix_cons] at dots
        exact isKey.no_dot c List.mem_cons_self dots.2.1.symm
      · exact inKey.1 (List.cons_prefix_cons.1 begins).1
  | @index s ds cs n path numbers rest ih =>
    have behind := (tidy_index_iff numbers).2 ih
    cases s with
    | key k => exact behind
    | index m =>
      refine tidy_closing_iff.2 ⟨behind, fun dots => ?_, fun c inKey begins => ?_⟩
      · exact absurd (List.cons_prefix_cons.1 dots).1 (by decide)
      · exact inKey.2.1 (List.cons_prefix_cons.1 begins).1

/-- Dots behind a position are one dot if a key follows and the text is tidy. -/
theorem gap_of_tidy (dots : ∀ c ∈ gap, c = '.') (isKey : IsKey k)
    (tidy : Tidy (']' :: (gap ++ (k ++ cs)))) :
    gap = ['.'] := by
  obtain ⟨-, noDots, noKey⟩ := tidy_closing_iff.1 tidy
  cases gap with
  | nil =>
    obtain ⟨c, k, rfl⟩ := List.exists_cons_of_ne_nil isKey.some
    exact absurd ⟨k ++ cs, rfl⟩ (noKey c (isKey.inKey c List.mem_cons_self))
  | cons c gap =>
    obtain ⟨rfl, others⟩ := List.forall_mem_cons.1 dots
    cases gap with
    | nil => rfl
    | cons d gap =>
      obtain ⟨rfl, -⟩ := List.forall_mem_cons.1 others
      exact absurd ⟨gap ++ (k ++ cs), rfl⟩ noDots

theorem single_of_tidy (continues : Continues lenient s path cs) (tidy : Tidy (closing s ++ cs)) :
    Continues single s path cs := by
  induction continues with
  | done => exact .done
  | @key s gap k cs path apart isKey rest ih =>
    have dot : gap = ['.'] := by
      cases s with
      | key k' => exact apart
      | index n => exact gap_of_tidy apart isKey tidy
    subst dot
    have behind : Tidy cs := (tidy_append_iff (a := '.' :: k)
      (List.forall_mem_cons.2 ⟨by decide, isKey.no_bracket⟩)).1 (tidy_of_closing tidy)
    exact .key ['.'] rfl isKey (ih behind)
  | @index s ds cs n path numbers rest ih =>
    exact .index numbers (ih ((tidy_index_iff numbers).1 (tidy_of_closing tidy)))

theorem Continues.of_single (continues : Continues single s path cs) :
    Continues lenient s path cs := by
  induction continues with
  | done => exact .done
  | key gap apart isKey _ ih => exact .key gap (lenient_of_single apart) isKey ih
  | index numbers _ ih => exact .index numbers ih

/-- **The grammar with single dots is the lenient one on tidy texts.** -/
theorem spells_single_iff : Spells single path cs ↔ Spells lenient path cs ∧ Tidy cs := by
  constructor
  · rintro ⟨isKey, rest⟩
    exact ⟨.intro isKey rest.of_single, (tidy_append_iff isKey.no_bracket).2 (tidy_of_single rest)⟩
  · rintro ⟨⟨isKey, rest⟩, tidy⟩
    exact .intro isKey (single_of_tidy rest ((tidy_append_iff isKey.no_bracket).1 tidy))

/-- Two dots in a row are not a part of what comes before a key. -/
theorem dots_behind (isKey : IsKey k) (dots : ['.', '.'] <:+: '.' :: (k ++ cs)) :
    ['.', '.'] <:+: cs := by
  rw [List.infix_cons_iff, infix_append_iff isKey.no_dot] at dots
  refine dots.resolve_left fun begins => ?_
  obtain ⟨c, k, rfl⟩ := List.exists_cons_of_ne_nil isKey.some
  rw [List.cons_prefix_cons, List.cons_append, List.cons_prefix_cons] at begins
  exact isKey.no_dot c List.mem_cons_self begins.2.1.symm

/-- Two dots in a row stand behind a position, if anywhere. -/
theorem closing_dots (continues : Continues lenient s path cs) (dots : ['.', '.'] <:+: cs) :
    [']', '.', '.'] <:+: closing s ++ cs := by
  induction continues with
  | done => exact absurd dots (by decide)
  | @key s gap k cs path apart isKey rest ih =>
    have later : ['.', '.'] <:+: cs → [']', '.', '.'] <:+: closing s ++ (gap ++ (k ++ cs)) :=
      fun dots =>
      (ih dots).trans ⟨closing s ++ (gap ++ k), [], by simp [closing]⟩
    -- Behind a key the gap is one dot, and the key after it has none; so both dots come later.
    cases s with
    | key k' =>
      obtain rfl : gap = ['.'] := apart
      exact later (dots_behind isKey dots)
    | index n =>
      -- Behind a position they stand in the gap itself, if that has two.
      match gap, apart with
      | [], _ => exact later ((infix_append_iff isKey.no_dot).1 dots)
      | [c], dot =>
        obtain rfl := dot c List.mem_cons_self
        exact later (dots_behind isKey dots)
      | c :: d :: gap, dots =>
        obtain rfl := dots c List.mem_cons_self
        obtain rfl := dots d (List.mem_cons_of_mem _ List.mem_cons_self)
        exact ⟨[], gap ++ (k ++ cs), rfl⟩
  -- No part of a position is a dot.
  | @index s ds cs n path numbers rest ih =>
    have absent : ∀ c ∈ '[' :: (ds ++ [']']), c ≠ '.' :=
      List.forall_mem_cons.2 ⟨by decide, List.forall_mem_append.2
        ⟨numbers.no_other rfl, List.forall_mem_singleton.2 (by decide)⟩⟩
    have behind : ['.', '.'] <:+: cs := by
      refine (infix_append_iff absent).1 ?_
      rwa [List.cons_append, List.append_assoc]
    exact (ih behind).trans ⟨closing s ++ '[' :: ds, [], by simp [closing]⟩

/-- **Which texts are read as paths.** A text is read exactly if it spells a path in the lenient
grammar, and it gives the keys and positions that are written there, in order. Those that spell
their paths with single dots are the tidy ones among them: in the others a closing bracket has two
dots or a key right behind it. So two dots in a row are accepted nowhere but behind a closing
bracket. -/
theorem parsed_iff_spelled (text : String) (path : Path) :
    (parse? text = some path ↔ Spells lenient path text.toList) ∧
      (Spells single path text.toList ↔ parse? text = some path ∧ Tidy text.toList) ∧
      (parse? text = some path → ['.', '.'] <:+: text.toList →
        [']', '.', '.'] <:+: text.toList) := by
  refine ⟨parse?_eq_some_iff, ?_, fun parsed dots => ?_⟩
  · rw [parse?_eq_some_iff]
    exact spells_single_iff
  · have spells := parse?_eq_some_iff.1 parsed
    generalize text.toList = cs at spells dots
    obtain ⟨isKey, rest⟩ := spells
    have behind := closing_dots rest ((infix_append_iff isKey.no_dot).1 dots)
    exact (infix_append_iff isKey.no_bracket).2 behind

/-- Behind a position, two dots are read like one, and a key is read without a dot, although neither
is spelled with single dots. -/
theorem dots_passed :
    parse? "a[0]..b" = some [.key "a", .index 0, .key "b"] ∧
      (¬∃ path, Spells single path "a[0]..b".toList) ∧
      parse? "a[0]b" = some [.key "a", .index 0, .key "b"] ∧
      ¬∃ path, Spells single path "a[0]b".toList := by
  refine ⟨by decide, ?_, by decide, ?_⟩
  · rintro ⟨path, spells⟩
    exact (spells_single_iff.1 spells).2.dots (by decide)
  · rintro ⟨path, spells⟩
    exact (spells_single_iff.1 spells).2.keys 'b' ⟨by decide, by decide, by decide⟩ (by decide)

/-! ## Paths as they are written -/

/-- A path that can be written: it begins with a key, its keys have no characters that mean
something else, and its positions fit in 64 bits. -/
structure Proper (path : Path) : Prop where
  starts : ∃ k rest, path = .key k :: rest
  keys : ∀ k, .key k ∈ path → IsKey k.toList
  indices : ∀ n, .index n ∈ path → n < 2 ^ (64 : Nat)

/-- The number of a position is written in digits that spell it. -/
theorem numbers_natText (fits : n < 2 ^ (64 : Nat)) : Numbers (Decimal.natText n).toList n :=
  ⟨Decimal.natText_ne_nil n, fun _ => Decimal.isDigit_of_mem_natText, Decimal.natOfDigits_natText n,
    fits⟩

/-- What is written behind a segment goes on with single dots. -/
theorem continues_restText (keys : ∀ k, .key k ∈ path → IsKey k.toList)
    (indices : ∀ n, .index n ∈ path → n < 2 ^ (64 : Nat)) :
    Continues single s path (restText path).toList := by
  induction path generalizing s with
  | nil => exact .done
  | cons t path ih =>
    have rest : Continues single t path (restText path).toList :=
      ih (fun k hk => keys k (List.mem_cons_of_mem t hk)) fun n hn =>
        indices n (List.mem_cons_of_mem t hn)
    cases t with
    | key k =>
      have isKey := keys k List.mem_cons_self
      have continues := Continues.key (s := s) ['.'] rfl isKey (by rwa [String.ofList_toList])
      rw [String.ofList_toList] at continues
      rwa [restText, String.toList_append, String.toList_append, List.append_assoc]
    | index n =>
      have continues :=
        Continues.index (s := s) (numbers_natText (indices n List.mem_cons_self)) rest
      rw [restText, String.toList_append, String.toList_append, String.toList_append,
        List.append_assoc, List.append_assoc]
      exact continues

/-- What the grammar derives can be written. -/
theorem proper_of_continues {sep : Separation} (continues : Continues sep s path cs) :
    (∀ k, .key k ∈ path → IsKey k.toList) ∧ ∀ n, .index n ∈ path → n < 2 ^ (64 : Nat) := by
  induction continues with
  | done => exact ⟨nofun, nofun⟩
  | @key s gap k cs path apart isKey rest ih =>
    refine ⟨fun k' hk => ?_, fun n hn => ?_⟩
    · rcases List.mem_cons.1 hk with same | hk
      · obtain rfl := Segment.key.inj same
        rwa [String.toList_ofList]
      · exact ih.1 k' hk
    · exact ih.2 n ((List.mem_cons.1 hn).resolve_left nofun)
  | @index s ds cs n path numbers rest ih =>
    refine ⟨fun k hk => ih.1 k ((List.mem_cons.1 hk).resolve_left nofun), fun m hm => ?_⟩
    rcases List.mem_cons.1 hm with same | hm
    · obtain rfl := Segment.index.inj same
      exact numbers.fits
    · exact ih.2 m hm

/-- A path that some text spells is proper. -/
theorem proper_of_parse {text : String} (parsed : parse? text = some path) : path.Proper := by
  have spells := parse?_eq_some_iff.1 parsed
  generalize text.toList = cs at spells
  cases spells with
  | @intro k cs path isKey rest =>
    have behind : Continues lenient (.index 0) (.key (String.ofList k) :: path) ([] ++ (k ++ cs)) :=
      .key [] nofun isKey rest
    obtain ⟨keys, indices⟩ := proper_of_continues behind
    exact ⟨⟨_, _, rfl⟩, keys, indices⟩

/-- **A path comes back from its text exactly if it is proper.** -/
theorem parsed_back_iff (path : Path) : parse? path.text = some path ↔ path.Proper := by
  constructor
  · exact proper_of_parse
  · rintro ⟨⟨k, rest, rfl⟩, keys, indices⟩
    have continues : Continues single (.key k) rest (restText rest).toList :=
      continues_restText (fun k hk => keys k (List.mem_cons_of_mem _ hk))
        fun n hn => indices n (List.mem_cons_of_mem _ hn)
    have spells := Spells.intro (keys k List.mem_cons_self) (by rwa [String.ofList_toList])
    rw [String.ofList_toList] at spells
    refine parse?_eq_some_iff.2 (spells_single_iff.1 ?_).1
    rwa [text, String.toList_append]

end Conveyor.Parameter.Path
