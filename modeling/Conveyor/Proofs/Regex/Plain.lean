/-
Patterns without operators.

A text in which no character has a meaning but the dot is a valid pattern, and its tree is a chain
of sets, one for each character (`parse?_plain`). A chain is laid out as instructions that read one
character each (`layout_reads`), so what such a pattern matches are the parts of a text that have,
character by character, what the sets accept (`isMatch_plain_iff`). Such a part is as long as the
pattern, and the pattern itself is one.
-/
import Conveyor.Proofs.Regex.Search
import Mathlib.Data.List.Forall2

set_option autoImplicit false

namespace Conveyor.Regex

/-! ## Chains of sets -/

/-- A tree that is nothing but sets one after another. -/
inductive Tree.Chain : Tree → List CharSet → Prop
  | empty : Chain .empty []
  | set (s : CharSet) : Chain (.set s) [s]
  | cat {a b : Tree} {first second : List CharSet} (front : Chain a first) (back : Chain b second) :
    Chain (.cat a b) (first ++ second)

theorem Tree.Chain.size_eq {t : Tree} {sets : List CharSet} (chain : t.Chain sets) :
    t.size = sets.length := by
  induction chain with
  | empty => rfl
  | set s => rfl
  | cat _ _ iha ihb => rw [size, iha, ihb, List.length_append]

/-- From one instruction to another a program reads characters of the given sets, one after
another. -/
def Reads (prog : Program) : Nat → List CharSet → Nat → Prop
  | i, [], j => i = j
  | i, s :: sets, j => ∃ next, prog[i]? = some (.read s next) ∧ Reads prog next sets j

/-- What stands in a program also stands there in another one. -/
def Kept (prog prog' : Program) : Prop :=
  ∀ (n : Nat) (instr : Instr), prog[n]? = some instr → prog'[n]? = some instr

variable {prog prog' : Program} {i j k : Nat} {sets first second : List CharSet} {t : Tree}

theorem Reads.append (h : Reads prog i first j) (h' : Reads prog j second k) :
    Reads prog i (first ++ second) k := by
  induction first generalizing i with
  | nil => exact h ▸ h'
  | cons s first ih =>
    obtain ⟨next, here, rest⟩ := h
    exact ⟨next, here, ih rest⟩

/-- What is laid out stays when more is appended. -/
theorem Reads.mono (h : Reads prog i sets j) (kept : Kept prog prog') :
    Reads prog' i sets j := by
  induction sets generalizing i with
  | nil => exact h
  | cons s sets ih =>
    obtain ⟨next, here, rest⟩ := h
    exact ⟨next, kept i _ here, ih rest⟩

/-- **A chain is laid out as instructions that read its sets**, behind what was there before. -/
theorem layout_reads (chain : t.Chain sets) (next : Nat) (prog : Program) :
    Reads (layout t next prog).2 (layout t next prog).1 sets next ∧ Kept prog
      (layout t next prog).2 := by
  induction chain generalizing next prog with
  | empty => exact ⟨rfl, fun _ _ => id⟩
  | set s =>
    refine ⟨⟨next, Array.getElem?_push_size, rfl⟩, fun n instr here => ?_⟩
    have : n < prog.size := (Array.getElem?_eq_some_iff.1 here).1
    rw [layout, Program.emit, Array.getElem?_push, if_neg (by omega)]
    exact here
  | @cat a b _ _ _ _ iha ihb =>
    -- What comes second is laid out first, since the first part goes on to it.
    obtain ⟨reads_b, kept_b⟩ := ihb next prog
    obtain ⟨reads_a, kept_a⟩ := iha (layout b next prog).1 (layout b next prog).2
    exact ⟨reads_a.append (reads_b.mono kept_a),
      fun n instr here => kept_a n instr (kept_b n instr here)⟩

/-- Reading succeeds exactly if the characters at the position are in the sets. -/
theorem Reads.succeeds_iff (h : Reads prog i sets j) (done : prog[j]? = some .done) (cs : List Char)
    (pos : Nat) :
    Succeeds prog cs.toArray (i, pos) ↔
      List.Forall₂ (fun s c => s.has c = true) sets ((cs.drop pos).take sets.length) := by
  -- The induction is on the sets; each is read by one instruction, at the position behind the one
  -- before.
  induction sets generalizing i pos with
  | nil => exact iff_of_true (.done (h ▸ done)) (by simp)
  | cons s sets ih =>
    obtain ⟨next, here, rest⟩ := h
    have steps : onward prog cs.toArray (i, pos)
        = if cs[pos]?.any s.has then [(next, pos + 1)] else [] := by
      rw [onward, here, List.getElem?_toArray]
    constructor
    · -- The instruction reads, so there is a character to read and the rest succeeds behind it.
      intro h
      cases h with
      | done here' => cases here.symm.trans here'
      | step mem h =>
        rw [steps] at mem
        split at mem
        · next reads =>
          obtain ⟨c, found, has⟩ := (Option.any_eq_true _ _).1 reads
          obtain ⟨inBounds, rfl⟩ := List.getElem?_eq_some_iff.1 found
          rw [List.mem_singleton.1 mem, ih rest (pos + 1)] at h
          rw [List.drop_eq_getElem_cons inBounds, List.length_cons, List.take_succ_cons]
          exact .cons has h
        · exact absurd mem List.not_mem_nil
    · intro h
      by_cases inBounds : pos < cs.length
      · rw [List.drop_eq_getElem_cons inBounds, List.length_cons, List.take_succ_cons,
          List.forall₂_cons] at h
        refine .step (q := (next, pos + 1)) ?_ ((ih rest (pos + 1)).2 h.2)
        rw [steps, List.getElem?_eq_getElem inBounds, Option.any_some, if_pos h.1]
        exact List.mem_singleton.2 rfl
      · rw [List.drop_eq_nil_of_le (by omega), List.take_nil] at h
        cases h

/-- A chain matches the texts with a part that its sets accept. -/
theorem isMatch_chain_iff {p : Pattern} (chain : p.tree.Chain sets) (s : String) :
    p.isMatch s = true ↔ ∃ part, part <:+: s.toList ∧ List.Forall₂
      (fun s c => s.has c = true) sets part := by
  obtain ⟨reads, kept⟩ := layout_reads chain 0 #[.done]
  have succeeds := reads.succeeds_iff (kept 0 .done rfl) s.toList
  rw [Pattern.isMatch_iff]
  constructor
  · intro ⟨k, _, found⟩
    exact ⟨_, (List.take_prefix _ _).isInfix.trans (List.drop_suffix k _).isInfix,
      (succeeds k).1 found⟩
  · intro ⟨part, ⟨before, after, split⟩, accepted⟩
    refine ⟨before.length, ?_, (succeeds _).2 ?_⟩
    · rw [← split, List.append_assoc, List.length_append]
      omega
    · rw [← split, List.append_assoc, List.drop_left, accepted.length_eq, List.take_left]
      exact accepted

/-! ## Characters without a meaning -/

/-- The characters that have a meaning in a pattern, but for the dot. A closing bracket or brace has
none by itself. -/
def operators : List Char := ['\\', '+', '*', '?', '(', ')', '|', '[', '\x7b', '^', '$']

/-- The set that a character stands for where it is no operator. -/
def CharSet.ofPlain (f : Flags) (c : Char) : CharSet :=
  if c = '.' then
    if f.dotAll then .not .none
    else if f.crlf then .not (.union (.single '\n' false) (.single '\r' false))
    else .not (.single '\n' false)
  else .single c f.ignoreCase

theorem CharSet.single_has (c : Char) (fold : Bool) : (single c fold).has c = true := by
  simp [single, has]

/-- A character is in the set it stands for. -/
theorem CharSet.ofPlain_has (f : Flags) (c : Char) : (ofPlain f c).has c = true := by
  unfold ofPlain
  by_cases dot : c = '.'
  · subst dot
    cases f.dotAll <;> cases f.crlf <;> rfl
  · rw [if_neg dot]
    exact single_has c _

namespace Parser

variable {f : Flags} {g : Groups} {acc : Tree} {c : Char} {cs : List Char}

theorem skipBlank_plain (cs : List Char) : skipBlank false cs = cs := by
  cases cs <;> rfl

theorem dot_eq (f : Flags) : dot f = .set (.ofPlain f '.') := by
  rw [dot, CharSet.ofPlain, if_pos rfl]
  split
  · rfl
  · split <;> rfl

theorem repetition_plain (notExtended : f.extended = false) (plain : ∀ c ∈ cs, c ∉ operators) :
    repetition f cs = some (none, cs) := by
  cases cs with
  | nil => rw [repetition, notExtended, skipBlank_plain]
  | cons c cs =>
    have := plain c List.mem_cons_self
    simp only [operators, List.mem_cons, List.not_mem_nil, or_false, not_or] at this
    rw [repetition, notExtended, skipBlank_plain]
    split
    case h_5 => rfl
    all_goals next eq => simp only [List.cons.injEq, this, false_and] at eq

/-- Reading one character that is no operator. -/
theorem alternativesFrom_plain (fuel : Nat) (notExtended : f.extended = false)
    (unicode : f.unicode = true) (plain : c ∉ operators) :
    alternativesFrom (fuel + 1) f g none acc (c :: cs)
      = continueWith fuel f g none acc (.set (.ofPlain f c)) cs := by
  rw [alternativesFrom, notExtended, skipBlank_plain]
  by_cases dot : c = '.'
  · subst dot
    rw [← dot_eq]
    exact if_pos unicode
  · have ofPlain : literal f c = .set (.ofPlain f c) := by rw [literal, CharSet.ofPlain, if_neg dot]
    simp only [operators, List.mem_cons, List.not_mem_nil, or_false, not_or] at plain
    -- Every branch but the last asks for a certain character.
    split
    case h_11 eq =>
      obtain ⟨rfl, rfl⟩ := List.cons.inj eq
      rw [if_neg (by simp [plain]), ofPlain]
    all_goals next eq => simp only [List.cons.injEq, plain, dot, false_and, reduceCtorEq] at eq

theorem continueWith_plain (fuel : Nat) (notExtended : f.extended = false)
    (plain : ∀ c ∈ cs, c ∉ operators) (chain : acc.Chain sets) (s : CharSet) :
    ∃ joined : Tree, joined.Chain (sets ++ [s]) ∧
      continueWith (fuel + 1) f g none acc (.set s) cs
        = alternativesFrom fuel f g none joined cs := by
  rw [continueWith, repeated, repetition_plain notExtended plain]
  cases chain with
  | empty => exact ⟨.set s, .set s, rfl⟩
  | set first => exact ⟨.cat (.set first) (.set s), .cat (.set first) (.set s), rfl⟩
  | cat front back => exact ⟨.cat (.cat _ _) (.set s), .cat (.cat front back) (.set s), rfl⟩

theorem alternativesFrom_chain (fuel : Nat) (enough : 2 * cs.length < fuel)
    (notExtended : f.extended = false) (unicode : f.unicode = true)
    (plain : ∀ c ∈ cs, c ∉ operators) (chain : acc.Chain sets) :
    ∃ t : Tree, alternativesFrom fuel f g none acc cs = some (t, [], g) ∧
      t.Chain (sets ++ cs.map (.ofPlain f)) := by
  induction cs generalizing fuel acc sets with
  | nil =>
    obtain ⟨fuel, rfl⟩ := Nat.exists_eq_add_one.2 enough
    refine ⟨acc, ?_, by simpa using chain⟩
    rw [alternativesFrom, notExtended, skipBlank_plain]
  | cons c cs ih =>
    rw [List.length_cons] at enough
    obtain ⟨fuel, rfl⟩ := Nat.exists_eq_add_of_le' (show 2 ≤ fuel by omega)
    have plain_c := plain c List.mem_cons_self
    have plain_cs := fun d mem => plain d (List.mem_cons_of_mem c mem)
    obtain ⟨joined, chain', continues⟩ :=
      continueWith_plain fuel (g := g) notExtended plain_cs chain (.ofPlain f c)
    obtain ⟨t, read, chain''⟩ := ih fuel (by omega) plain_cs chain'
    refine ⟨t, ?_, by rwa [List.append_assoc] at chain''⟩
    rw [alternativesFrom_plain _ notExtended unicode plain_c, continues, read]

end Parser

variable {f : Flags} {cs : List Char}

/-- A text without operators is a pattern: the chain of what its characters stand for. -/
theorem parse?_plain (notExtended : f.extended = false) (unicode : f.unicode = true)
    (plain : ∀ c ∈ cs, c ∉ operators) (short : cs.length ≤ sizeLimit) :
    ∃ p, parse? f (String.ofList cs) = some p ∧ p.tree.Chain (cs.map (.ofPlain f)) := by
  obtain ⟨t, read, chain⟩ :=
    Parser.alternativesFrom_chain (g := ⟨0, []⟩) (3 * cs.length + 3) (by omega)
    notExtended unicode plain .empty
  refine ⟨⟨t, 0⟩, ?_, chain⟩
  have size : t.size ≤ sizeLimit := by
    rw [chain.size_eq, List.nil_append, List.length_map]
    exact short
  rw [parse?, String.toList_ofList, Parser.alternatives, read]
  exact if_pos size

/-- **A text without operators matches where it stands**, character by character. -/
theorem isMatch_plain_iff (notExtended : f.extended = false) (unicode : f.unicode = true)
    (plain : ∀ c ∈ cs, c ∉ operators) (short : cs.length ≤ sizeLimit) :
    ∃ p, parse? f (String.ofList cs) = some p ∧ ∀ s, p.isMatch s = true ↔
      ∃ part, part <:+: s.toList ∧ List.Forall₂
        (fun c d => (CharSet.ofPlain f c).has d = true) cs part := by
  obtain ⟨p, read, chain⟩ := parse?_plain notExtended unicode plain short
  refine ⟨p, read, fun s => (isMatch_chain_iff chain s).trans ?_⟩
  simp only [List.forall₂_map_left_iff]

end Conveyor.Regex
