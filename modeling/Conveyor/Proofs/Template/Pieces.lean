/-
Chunks of a template, and what they are rendered as.

A template is read into chunks up to a number of pieces of code, and fails with one more. Without
that limit every text is a template: `pieces` are its chunks, and with the limit there are the same
chunks or the one error (`scan_eq`). What stands at the head of the text in progress is only carried
along (`pieces_front`). So templates that stand side by side are read one after the other
(`pieces_back`), as long as the first leaves no code open (`Whole`) and no delimiter lies across the
place where they meet (`Parted`); and what they are rendered as is written one after the other.
-/
import Conveyor.Proofs.Template.Source
import Conveyor.Template.Evaluate
import Mathlib.Data.List.Infix
import Mathlib.Data.String.Lemmas

set_option autoImplicit false

namespace Conveyor.Template

variable {cs code rest more before after : List Char} {c : Char}

/-! ## Chunks without a limit -/

/-- The chunks of the rest of a template, however many of them are code; `acc` is the text in
progress, last character first. -/
def pieces (acc : List Char) : List Char → List Chunk
  | [] => textChunk acc
  | '\\' :: '\x7b' :: '\x7b' :: cs => pieces ('\x7b' :: '\x7b' :: acc) cs
  | '\\' :: '\x7d' :: '\x7d' :: cs => pieces ('\x7d' :: '\x7d' :: acc) cs
  | '\x7b' :: '\x7b' :: cs =>
    match _h : scanCode [] cs with
    | some (code, rest) => textChunk acc ++ .code (Text.trim code) :: pieces [] rest
    | none => textChunk (cs.reverse ++ '\x7b' :: '\x7b' :: acc)
  | c :: cs => pieces (c :: acc) cs
termination_by cs => cs.length
decreasing_by
  all_goals simp only [List.length_cons]
  · omega
  · omega
  · have := length_lt_of_scanCode _h; omega
  · omega

/-- How many pieces of code a template has. -/
def codeCount (cs : List Char) : Nat := (pieces [] cs).countP Chunk.isCode

theorem pieces_code (acc : List Char) (closed : scanCode [] cs = some (code, rest)) :
    pieces acc ('\x7b' :: '\x7b' :: cs)
      = textChunk acc ++ .code (Text.trim code) :: pieces [] rest := by
  rw [pieces]
  split
  · rename_i found
    obtain ⟨rfl, rfl⟩ := Prod.mk.inj (Option.some.inj (closed.symm.trans found))
    rfl
  · rename_i found
    cases closed.symm.trans found

theorem pieces_unclosed (acc : List Char) (unclosed : scanCode [] cs = none) :
    pieces acc ('\x7b' :: '\x7b' :: cs) = textChunk (cs.reverse ++ '\x7b' :: '\x7b' :: acc) := by
  rw [pieces]
  split
  · rename_i found
    cases unclosed.symm.trans found
  · rfl

/-- A character that neither begins an opening delimiter nor escapes a delimiter. -/
def Ordinary (c : Char) (cs : List Char) : Prop :=
  (c = '\x7b' → cs.head? ≠ some '\x7b') ∧ (c = '\\' → ¬Delimited cs)

theorem pieces_cons (acc : List Char) (ordinary : Ordinary c cs) :
    pieces acc (c :: cs) = pieces (c :: acc) cs := by
  rw [pieces]
  · rintro rest rfl rfl
    exact ordinary.2 rfl ⟨rest, .inl rfl⟩
  · rintro rest rfl rfl
    exact ordinary.2 rfl ⟨rest, .inr rfl⟩
  · rintro rest rfl rfl
    exact ordinary.1 rfl rfl

/-! ## The limit -/

theorem countP_textChunk (acc : List Char) : (textChunk acc).countP Chunk.isCode = 0 := by
  unfold textChunk
  split <;> rfl

/-- A template that keeps to the limit has the chunks that it has without one. -/
theorem scan_eq (acc : List Char) (codes : Nat) (cs : List Char) (few : codes ≤ maxCodes) :
    scan acc codes cs = if codes + (pieces acc cs).countP Chunk.isCode ≤ maxCodes then .ok
      (pieces acc cs)
      else .error .tooManyExpressions := by
  fun_induction scan acc codes cs with
  | case1 acc codes => rw [pieces, countP_textChunk, Nat.add_zero, if_pos few]
  | case2 acc codes cs ih => rw [pieces, ih few]
  | case3 acc codes cs ih => rw [pieces, ih few]
  | case4 acc codes cs code rest found full =>
    rw [pieces_code acc found, List.countP_append, countP_textChunk, List.countP_cons_of_pos rfl,
      if_neg (by omega)]
  | case5 acc codes cs code rest found room ih =>
    have counted : codes + (pieces acc ('\x7b' :: '\x7b' :: cs)).countP Chunk.isCode
        = codes + 1 + (pieces [] rest).countP Chunk.isCode := by
      rw [pieces_code acc found, List.countP_append, countP_textChunk, List.countP_cons_of_pos rfl]
      omega
    rw [counted, pieces_code acc found, ih (by omega)]
    split <;> rfl
  | case6 acc codes cs found =>
    rw [pieces_unclosed acc found, countP_textChunk, Nat.add_zero, if_pos few]
  | case7 acc codes c cs opens closes begins ih =>
    rw [pieces, ih few]
    all_goals assumption

theorem tokenize_eq (cs : List Char) : tokenize (String.ofList cs) =
    if codeCount cs ≤ maxCodes then .ok (pieces [] cs) else .error .tooManyExpressions := by
  rw [tokenize, String.toList_ofList, scan_eq [] 0 cs (Nat.zero_le _), Nat.zero_add, codeCount]

/-! ## Side by side -/

/-- What stands at the head of the text in progress comes to stand at the head of the first
chunk. -/
theorem pieces_front (acc cs : List Char) :
    ∃ first tail, ∀ front, pieces (acc ++ front) cs = textChunk (first ++ front) ++ tail := by
  fun_induction pieces acc cs with
  | case1 acc => exact ⟨acc, [], fun front => by rw [pieces, List.append_nil]⟩
  | case2 acc cs ih =>
    obtain ⟨first, tail, read⟩ := ih
    exact ⟨first, tail, fun front => by rw [pieces, ← read, List.cons_append, List.cons_append]⟩
  | case3 acc cs ih =>
    obtain ⟨first, tail, read⟩ := ih
    exact ⟨first, tail, fun front => by rw [pieces, ← read, List.cons_append, List.cons_append]⟩
  | case4 acc cs code rest found _ => exact ⟨acc, _, fun front => pieces_code _ found⟩
  | case5 acc cs found =>
    refine ⟨cs.reverse ++ '\x7b' :: '\x7b' :: acc, [], fun front => ?_⟩
    rw [pieces_unclosed _ found, List.append_nil, List.append_assoc, List.cons_append,
      List.cons_append]
  | case6 acc c cs opens closes begins ih =>
    obtain ⟨first, tail, read⟩ := ih
    refine ⟨first, tail, fun front => ?_⟩
    rw [pieces, ← read, List.cons_append]
    all_goals assumption

/-- No delimiter and no escape of one lies across the place where two texts meet. -/
def Parted (before after : List Char) : Prop :=
  (after.head? = some '\x7b' → before.getLast? ≠ some '\\' ∧ before.getLast? ≠ some '\x7b') ∧
    (after.head? = some '\x7d' → before.getLast? ≠ some '\\' ∧ before.getLast? ≠ some '\x7d')

instance : Decidable (Parted before after) := inferInstanceAs (Decidable (_ ∧ _))

namespace Parted

theorem nil_right (before : List Char) : Parted before [] := ⟨nofun, nofun⟩

theorem of_cons (parted : Parted (c :: before) after) : Parted before after := by
  cases before with
  | nil => exact ⟨fun _ => ⟨nofun, nofun⟩, fun _ => ⟨nofun, nofun⟩⟩
  | cons d before => simpa only [Parted, List.getLast?_cons_cons] using parted

theorem of_append (parted : Parted (more ++ before) after) : Parted before after := by
  induction more with
  | nil => exact parted
  | cons c more ih => exact ih parted.of_cons

/-- A delimiter at the head of two texts lies in the first of them. -/
theorem delimited (parted : Parted before after) (some_char : before ≠ [])
    (delimited : Delimited (before ++ after)) :
    Delimited before := by
  obtain ⟨c, cs, rfl⟩ := List.exists_cons_of_ne_nil some_char
  cases cs with
  | nil =>
    obtain ⟨rest, h | h⟩ := delimited <;> obtain ⟨rfl, rfl⟩ := List.cons.inj h
    · exact absurd rfl (parted.1 rfl).2
    · exact absurd rfl (parted.2 rfl).2
  | cons d cs =>
    obtain ⟨rest, h | h⟩ := delimited <;> simp only [List.cons_append, List.cons.injEq] at h <;>
      obtain ⟨rfl, rfl, -⟩ := h
    · exact ⟨cs, .inl rfl⟩
    · exact ⟨cs, .inr rfl⟩

/-- A character of the first text means itself in both of them together. -/
theorem ordinary (parted : Parted (c :: before) after) (ordinary : Ordinary c before) :
    Ordinary c (before ++ after) := by
  by_cases last : before = []
  · rw [last] at parted ⊢
    refine ⟨fun brace next => (parted.1 next).2 (congrArg some brace), ?_⟩
    -- A backslash at the end would escape what follows.
    rintro escape ⟨rest, rfl | rfl⟩
    · exact (parted.1 rfl).1 (congrArg some escape)
    · exact (parted.2 rfl).1 (congrArg some escape)
  · refine ⟨fun brace => ?_,
      fun escape delimited => ordinary.2 escape (parted.of_cons.delimited last delimited)⟩
    rw [List.head?_append_of_ne_nil before last]
    exact ordinary.1 brace

end Parted

theorem two_le_of_scanCode {acc : List Char} (closed : scanCode acc cs = some (code, rest)) :
    2 ≤ cs.length := by
  fun_induction scanCode acc cs with
  | case1 | case2 | case3 =>
    simp only [List.length_cons]
    omega
  | case4 acc c cs _ _ _ ih =>
    have := ih closed
    rw [List.length_cons]
    omega
  | case5 => cases closed

/-- Code that is closed is closed wherever the text goes on. -/
theorem scanCode_append {acc : List Char} (closed : scanCode acc cs = some (code, rest))
    (more : List Char) :
    scanCode acc (cs ++ more) = some (code, rest ++ more) := by
  fun_induction scanCode acc cs with
  | case1 acc cs ih => exact ih closed
  | case2 acc cs ih => exact ih closed
  | case3 acc cs =>
    obtain ⟨rfl, rfl⟩ := Prod.mk.inj (Option.some.inj closed)
    rfl
  | case4 acc c cs closes opens ends ih =>
    -- The closing delimiter is still to come, so two more characters are there to tell what this
    -- one is.
    obtain ⟨d, e, cs, rfl⟩ : ∃ d e cs', cs = d :: e :: cs' := by
      have long := two_le_of_scanCode closed
      rcases cs with _ | ⟨d, _ | ⟨e, cs⟩⟩
      · exact absurd long (by decide)
      · exact absurd long (by simp)
      · exact ⟨d, e, cs, rfl⟩
    rw [List.cons_append, scanCode, ih closed]
    all_goals
      rintro rest rfl h
      simp only [List.cons_append, List.cons.injEq] at h
    · exact closes cs rfl (by rw [h.1, h.2.1])
    · exact opens cs rfl (by rw [h.1, h.2.1])
    · exact ends (e :: cs) rfl (by rw [h.1])
  | case5 => cases closed

/-- What follows a piece of code is the end of what it was read from. -/
theorem suffix_of_scanCode {acc : List Char} (closed : scanCode acc cs = some (code, rest)) :
    rest <:+ cs := by
  fun_induction scanCode acc cs with
  | case1 acc cs ih => exact (ih closed).trans ⟨['\\', '\x7d', '\x7d'], rfl⟩
  | case2 acc cs ih => exact (ih closed).trans ⟨['\\', '\x7b', '\x7b'], rfl⟩
  | case3 acc cs =>
    obtain ⟨rfl, rfl⟩ := Prod.mk.inj (Option.some.inj closed)
    exact ⟨['\x7d', '\x7d'], rfl⟩
  | case4 acc c cs _ _ _ ih => exact (ih closed).trans (List.suffix_cons c cs)
  | case5 => cases closed

/-- A template in which every piece of code that is opened is closed. -/
inductive Whole : List Char → Prop
  | nil : Whole []
  | opening {cs : List Char} (rest : Whole cs) : Whole ('\\' :: '\x7b' :: '\x7b' :: cs)
  | closing {cs : List Char} (rest : Whole cs) : Whole ('\\' :: '\x7d' :: '\x7d' :: cs)
  | code {cs code rest : List Char} (closed : scanCode [] cs = some (code, rest))
    (whole : Whole rest) :
      Whole ('\x7b' :: '\x7b' :: cs)
  | char {c : Char} {cs : List Char} (ordinary : Ordinary c cs) (rest : Whole cs) : Whole (c :: cs)

/-- **Templates side by side are read one after the other**, the second with the last text of the
first in progress. -/
theorem pieces_back (whole : Whole before) (acc : List Char) :
    ∃ front last, ∀ after, Parted before after → pieces acc
      (before ++ after) = front ++ pieces last after := by
  -- The induction is on the first template, piece by piece; what is parted stays parted behind each
  -- of them.
  induction whole generalizing acc with
  | nil => exact ⟨[], acc, fun _ _ => rfl⟩
  | opening _ ih =>
    obtain ⟨front, last, read⟩ := ih ('\x7b' :: '\x7b' :: acc)
    refine ⟨front, last, fun after parted => ?_⟩
    rw [List.cons_append, List.cons_append, List.cons_append, pieces,
      read after parted.of_cons.of_cons.of_cons]
  | closing _ ih =>
    obtain ⟨front, last, read⟩ := ih ('\x7d' :: '\x7d' :: acc)
    refine ⟨front, last, fun after parted => ?_⟩
    rw [List.cons_append, List.cons_append, List.cons_append, pieces,
      read after parted.of_cons.of_cons.of_cons]
  | @code cs code rest closed _ ih =>
    obtain ⟨front, last, read⟩ := ih []
    refine ⟨textChunk acc ++ .code (Text.trim code) :: front, last, fun after parted => ?_⟩
    obtain ⟨inner, rfl⟩ := suffix_of_scanCode closed
    rw [List.cons_append, List.cons_append, pieces_code acc (scanCode_append closed after),
      read after parted.of_cons.of_cons.of_append, List.append_assoc, List.cons_append]
  | @char c cs ordinary _ ih =>
    obtain ⟨front, last, read⟩ := ih (c :: acc)
    refine ⟨front, last, fun after parted => ?_⟩
    rw [List.cons_append, pieces_cons acc (parted.ordinary ordinary), read after parted.of_cons]

/-- Side by side, templates have the chunks that they have apart, but for the texts that meet: they
become one. -/
theorem pieces_append (whole : Whole before) (parted : Parted before after) :
    ∃ front last first tail, pieces [] before = front ++ textChunk last ∧ pieces
      [] after = textChunk first ++ tail ∧ pieces [] (before ++ after) = front ++ textChunk
      (first ++ last) ++ tail := by
  obtain ⟨front, last, read⟩ := pieces_back whole []
  obtain ⟨first, tail, carried⟩ := pieces_front [] after
  refine ⟨front, last, first, tail, ?_, ?_, ?_⟩
  · have alone := read [] (.nil_right before)
    rwa [List.append_nil, pieces] at alone
  · have apart := carried []
    rwa [List.append_nil, List.append_nil] at apart
  · have behind : pieces last after = textChunk (first ++ last) ++ tail := carried last
    rw [read after parted, behind, List.append_assoc]

/-- Side by side, templates have as many pieces of code as they have apart. -/
theorem codeCount_append (whole : Whole before) (parted : Parted before after) :
    codeCount (before ++ after) = codeCount before + codeCount after := by
  obtain ⟨front, last, first, tail, alone, apart, joined⟩ := pieces_append whole parted
  rw [codeCount, codeCount, codeCount, joined, alone, apart]
  simp only [List.countP_append, countP_textChunk, Nat.zero_add, Nat.add_zero]

/-- Code between two templates stands between their chunks. -/
theorem pieces_between (whole : Whole before) (closed : scanCode [] cs = some (code, []))
    (parted : Parted before ('\x7b' :: '\x7b' :: cs)) (after : List Char) :
    pieces [] (before ++ '\x7b' :: '\x7b' :: (cs ++ after)) =
      pieces [] before ++ .code (Text.trim code) :: pieces [] after := by
  obtain ⟨front, last, read⟩ := pieces_back whole []
  have alone := read [] (.nil_right before)
  rw [List.append_nil, pieces] at alone
  have parted' : Parted before ('\x7b' :: '\x7b' :: (cs ++ after)) := parted
  rw [read _ parted', pieces_code last (scanCode_append closed after), alone, List.append_assoc,
    List.nil_append]

theorem textChunk_ne_nil {acc : List Char} (some_char : acc ≠ []) : textChunk acc ≠ [] := by
  rw [textChunk, if_neg (by rwa [List.isEmpty_iff])]
  exact List.cons_ne_nil _ _

theorem pieces_ne_nil {acc : List Char} (some_char : acc ++ cs ≠ []) : pieces acc cs ≠ [] := by
  fun_induction pieces acc cs with
  | case1 acc => exact textChunk_ne_nil (by rwa [List.append_nil] at some_char)
  | case2 acc cs ih => exact ih (List.cons_ne_nil _ _)
  | case3 acc cs ih => exact ih (List.cons_ne_nil _ _)
  | case4 acc cs code rest found _ =>
    exact List.append_ne_nil_of_right_ne_nil _ (List.cons_ne_nil _ _)
  | case5 acc cs found =>
    exact textChunk_ne_nil (List.append_ne_nil_of_right_ne_nil _ (List.cons_ne_nil _ _))
  | case6 acc c cs opens closes begins ih => exact ih (List.cons_ne_nil _ _)

/-- Only the empty template has no chunks. -/
theorem eq_nil_of_pieces (none : pieces [] cs = []) : cs = [] := by
  by_contra some_char
  exact pieces_ne_nil (show [] ++ cs ≠ [] from some_char) none

/-! ## Rendering -/

/-- The chunks of a template written one after another, with what code gives in place of the
code. -/
def rendering (run : Runner) (cs : List Char) : String :=
  String.join ((pieces [] cs).map (renderChunk run))

theorem join_textChunk (run : Runner) (acc : List Char) :
    String.join ((textChunk acc).map (renderChunk run)) = String.ofList acc.reverse := by
  cases acc with
  | nil => rfl
  | cons c acc =>
    rw [textChunk, List.isEmpty_cons, if_neg Bool.false_ne_true, List.map_singleton,
      String.join_cons, renderChunk]
    exact String.append_empty

/-- **Templates side by side are rendered one after the other.** -/
theorem rendering_append (run : Runner) (whole : Whole before) (parted : Parted before after) :
    rendering run (before ++ after) = rendering run before ++ rendering run after := by
  obtain ⟨front, last, first, tail, alone, apart, joined⟩ := pieces_append whole parted
  rw [rendering, rendering, rendering, joined, alone, apart]
  simp only [List.map_append, String.join_append, join_textChunk, List.reverse_append,
    String.ofList_append, String.append_assoc]

/-! ## Values of templates -/

/-- The delimiter in front of code. -/
def opening : List Char := ['\x7b', '\x7b']

/-- The delimiter behind code. -/
def closing : List Char := ['\x7d', '\x7d']

theorem hasOpening_iff : hasOpening cs = true ↔ opening <:+: cs := by
  fun_induction hasOpening cs with
  | case1 cs => exact iff_of_true rfl ⟨[], cs, rfl⟩
  | case2 c cs other ih =>
    rw [ih, List.infix_cons_iff]
    refine (or_iff_right ?_).symm
    rintro ⟨rest, h⟩
    simp only [opening, List.cons_append, List.nil_append, List.cons.injEq] at h
    exact other rest h.1.symm h.2.symm
  | case3 =>
    exact iff_of_false Bool.false_ne_true fun h =>
      absurd (List.infix_nil.1 h) (List.cons_ne_nil _ _)

theorem evaluate_template (run : Runner) (body : List Char) :
    evaluate run (String.ofList ('=' :: body)) = evaluateBody run body := by
  rw [evaluate, String.toList_ofList]
  rfl

/-- Without an opening delimiter, a template is its own value. -/
theorem evaluateBody_literal (run : Runner) (literal : ¬opening <:+: cs) :
    evaluateBody run cs = .ok (.str (String.ofList cs)) := by
  have absent : hasOpening cs = false := Bool.eq_false_iff.2 fun h => literal (hasOpening_iff.1 h)
  rw [evaluateBody, absent]
  rfl

/-- With an opening delimiter, the value of a template is that of its chunks, as long as it keeps to
the limit. -/
theorem evaluateBody_opening (run : Runner) (opened : opening <:+: cs) :
    evaluateBody run cs =
      if codeCount cs ≤ maxCodes then evaluateChunks run (pieces [] cs)
      else .error (.scan .tooManyExpressions) := by
  rw [evaluateBody, hasOpening_iff.2 opened, Bool.not_true, if_neg Bool.false_ne_true,
    scan_eq [] 0 cs (Nat.zero_le _), Nat.zero_add, ← codeCount]
  split_ifs <;> rfl

/-- Chunks that are not just one piece of code give a text. -/
theorem evaluateChunks_several (run : Runner) {chunks : List Chunk}
    (several : ∀ code, chunks ≠ [.code code]) :
    evaluateChunks run chunks = .ok (.str (String.join (chunks.map (renderChunk run)))) := by
  rw [evaluateChunks]
  exact fun code h => several code h

theorem evaluateBody_several (run : Runner) (opened : opening <:+: cs)
    (few : codeCount cs ≤ maxCodes) (several : ∀ code, pieces [] cs ≠ [.code code]) :
    evaluateBody run cs = .ok (.str (rendering run cs)) := by
  rw [evaluateBody_opening run opened, if_pos few, evaluateChunks_several run several, rendering]

end Conveyor.Template
