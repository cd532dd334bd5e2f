/-
Templates without code.

A template in which nothing opens code is its own value. Reading it into chunks would give it as one
text, but without the backslash in front of each closing delimiter (`pieces_literal`), and so it
would be read if code stood anywhere else in the template. So the two agree exactly if no closing
delimiter is escaped, and exactly then a piece of code can be put in or left out without a change to
the texts around it (`literal_iff`).
-/
import Conveyor.Proofs.Template.Pieces

set_option autoImplicit false

namespace Conveyor.Template

variable {cs code before after fragment : List Char} {c : Char}

/-! ## Escapes -/

/-- A text without the backslashes in front of closing delimiters. -/
def unescape : List Char → List Char
  | '\\' :: '\x7d' :: '\x7d' :: cs => '\x7d' :: '\x7d' :: unescape cs
  | c :: cs => c :: unescape cs
  | [] => []

theorem length_unescape_le (cs : List Char) : (unescape cs).length ≤ cs.length := by
  fun_induction unescape cs with
  | case1 | case2 =>
    simp only [List.length_cons]
    omega
  | case3 => exact Nat.le_refl 0

/-- Nothing changes exactly if no closing delimiter is escaped. -/
theorem unescape_eq_self_iff : unescape cs = cs ↔ ¬('\\' :: closing) <:+: cs := by
  fun_induction unescape cs with
  | case1 cs =>
    -- The text gets shorter.
    refine iff_of_false (fun same => ?_) fun absent => absent ⟨[], cs, rfl⟩
    have lengths := congrArg List.length same
    have le := length_unescape_le cs
    simp only [List.length_cons] at lengths
    omega
  | case2 c cs other ih =>
    rw [List.cons.injEq, eq_self, true_and, ih, List.infix_cons_iff, not_or]
    refine (and_iff_right ?_).symm
    rintro ⟨rest, h⟩
    simp only [closing, List.cons_append, List.nil_append, List.cons.injEq] at h
    exact other rest h.1.symm h.2.symm
  | case3 => exact iff_of_true rfl fun h => absurd (List.infix_nil.1 h) (List.cons_ne_nil _ _)

/-! ## One text -/

theorem not_infix_tail {xs : List Char} (absent : ¬xs <:+: c :: cs) : ¬xs <:+: cs :=
  fun h => absent (List.infix_cons h)

theorem ordinary_of_literal (literal : ¬opening <:+: c :: cs)
    (closes : ∀ rest, c = '\\' → cs = '\x7d' :: '\x7d' :: rest → False) : Ordinary c cs := by
  constructor
  · rintro rfl first
    obtain ⟨rest, rfl⟩ := List.head?_eq_some_iff.1 first
    exact literal ⟨[], rest, rfl⟩
  · rintro rfl ⟨rest, rfl | rfl⟩
    · exact literal ⟨['\\'], rest, rfl⟩
    · exact closes rest rfl rfl

/-- Without an opening delimiter a template is one text. -/
theorem pieces_literal (acc : List Char) (literal : ¬opening <:+: cs) :
    pieces acc cs = textChunk ((unescape cs).reverse ++ acc) := by
  fun_induction unescape cs generalizing acc with
  | case1 cs ih =>
    rw [pieces, ih _ (not_infix_tail (not_infix_tail (not_infix_tail literal))), List.reverse_cons,
      List.reverse_cons]
    simp only [List.append_assoc, List.cons_append, List.nil_append]
  | case2 c cs closes ih =>
    rw [pieces_cons acc (ordinary_of_literal literal closes), ih _ (not_infix_tail literal),
      List.reverse_cons, List.append_assoc, List.singleton_append]
  | case3 => rw [pieces, List.reverse_nil, List.nil_append]

/-- A template without an opening delimiter leaves no code open. -/
theorem whole_of_literal (literal : ¬opening <:+: cs) : Whole cs := by
  fun_induction unescape cs with
  | case1 cs ih => exact .closing (ih (not_infix_tail (not_infix_tail (not_infix_tail literal))))
  | case2 c cs closes ih =>
    exact .char (ordinary_of_literal literal closes) (ih (not_infix_tail literal))
  | case3 => exact .nil

theorem rendering_literal (run : Runner) (literal : ¬opening <:+: cs) :
    rendering run cs = String.ofList (unescape cs) := by
  rw [rendering, pieces_literal [] literal, join_textChunk, List.append_nil, List.reverse_reverse]

theorem codeCount_literal (literal : ¬opening <:+: cs) : codeCount cs = 0 := by
  rw [codeCount, pieces_literal [] literal, countP_textChunk]

/-- The value of a template without code is what its chunks would be rendered as exactly if nothing
is escaped. -/
theorem evaluateBody_eq_rendering_iff (run : Runner) (literal : ¬opening <:+: cs) :
    evaluateBody run cs = .ok (.str (rendering run cs)) ↔ ¬('\\' :: closing) <:+: cs := by
  rw [evaluateBody_literal run literal, rendering_literal run literal, ← unescape_eq_self_iff]
  constructor
  · intro same
    exact (String.ofList_injective (Json.str.inj (Except.ok.inj same))).symm
  · intro same
    rw [same]

/-! ## Code put in -/

/-- A fragment with code that stands between two parts of a template and has nothing to do with
them: the fragment is closed, no code is open in front of it, and no delimiter or escape lies across
a place where two of them meet, also without the fragment. There is room for one more piece of code,
and the parts are not nothing and not just one piece of code. -/
structure Unrelated (fragment code before after : List Char) : Prop where
  closed : ∃ inner, fragment = opening ++ inner ∧ scanCode [] inner = some (code, [])
  whole : Whole before
  apart : Parted before fragment
  meet : Parted before after
  few : codeCount before + codeCount after < maxCodes
  around : before ++ after ≠ []
  several : ∀ other, pieces [] (before ++ after) ≠ [.code other]

namespace Unrelated

theorem pieces_eq (unrelated : Unrelated fragment code before after) :
    pieces [] (before ++ fragment ++ after) = pieces [] before ++ .code (Text.trim code) :: pieces
      [] after := by
  obtain ⟨inner, rfl, closed⟩ := unrelated.closed
  rw [List.append_assoc]
  exact pieces_between unrelated.whole closed unrelated.apart after

theorem opened (unrelated : Unrelated fragment code before after) :
    opening <:+: before ++ fragment ++ after := by
  obtain ⟨inner, rfl, -⟩ := unrelated.closed
  rw [← List.append_assoc]
  exact ⟨before, inner ++ after, (List.append_assoc ..).symm⟩

/-- With the fragment, each part is rendered as it would be alone. -/
theorem evaluateBody_with (run : Runner) (unrelated : Unrelated fragment code before after) :
    evaluateBody run (before ++ fragment ++ after) = .ok (.str (rendering run before ++
      (renderChunk run (.code (Text.trim code)) ++ rendering run after))) := by
  have several : ∀ other, pieces [] (before ++ fragment ++ after) ≠ [.code other] := by
    intro other single
    rw [unrelated.pieces_eq, List.append_eq_singleton_iff] at single
    -- A single chunk would have nothing before it and nothing behind it.
    rcases single with ⟨front, back⟩ | ⟨-, back⟩
    · refine unrelated.around
        (List.append_eq_nil_iff.2 ⟨eq_nil_of_pieces front, eq_nil_of_pieces ?_⟩)
      exact (List.cons.inj back).2
    · cases back
  have few : codeCount (before ++ fragment ++ after) ≤ maxCodes := by
    have room := unrelated.few
    rw [codeCount, codeCount] at room
    rw [codeCount, unrelated.pieces_eq, List.countP_append, List.countP_cons_of_pos rfl]
    omega
  rw [evaluateBody_several run unrelated.opened few several, rendering, unrelated.pieces_eq,
    List.map_append, String.join_append, List.map_cons, String.join_cons, rendering, rendering]

/-- Without the fragment, the parts are rendered as they would be alone if there is code in them,
and if there is none exactly if nothing in them is escaped. -/
theorem evaluateBody_without_iff (run : Runner) (unrelated : Unrelated fragment code before after) :
    evaluateBody run (before ++ after) = .ok (.str (rendering run before ++ rendering run after)) ↔
      opening <:+: before ++ after ∨ ¬('\\' :: closing) <:+: before ++ after := by
  rw [← rendering_append run unrelated.whole unrelated.meet]
  by_cases opened : opening <:+: before ++ after
  · have few : codeCount (before ++ after) ≤ maxCodes := by
      rw [codeCount_append unrelated.whole unrelated.meet]
      exact unrelated.few.le
    exact iff_of_true (evaluateBody_several run opened few unrelated.several) (.inl opened)
  · rw [evaluateBody_eq_rendering_iff run opened]
    exact (or_iff_right opened).symm

end Unrelated

/-- **Templates without code against their chunks.** A template in which nothing opens code is taken
as it stands: its value is its text, to the letter. Its chunks are texts, and they would give the
same exactly if no closing delimiter in it is escaped. So a fragment with code can be put between
two parts of a template, or left out, without a change to what they are rendered as, exactly if
there is other code in them or no closing delimiter in them is escaped. -/
theorem literal_iff (run : Runner) :
    (∀ body, ¬opening <:+: body →
      evaluate run (String.ofList ('=' :: body)) = .ok (.str (String.ofList body)) ∧
      ∃ chunks, tokenize (String.ofList body) = .ok chunks ∧
        (∀ chunk ∈ chunks, chunk.isCode = false) ∧
        (evaluate run (String.ofList ('=' :: body))
            = .ok (.str (String.join (chunks.map (renderChunk run)))) ↔
          ¬('\\' :: closing) <:+: body)) ∧
    ∀ fragment code before after, Unrelated fragment code before after →
      evaluate run (String.ofList ('=' :: (before ++ fragment ++ after)))
        = .ok (.str (rendering run before
          ++ (renderChunk run (.code (Text.trim code)) ++ rendering run after))) ∧
      (evaluate run (String.ofList ('=' :: (before ++ after))) =
          .ok (.str (rendering run before ++ rendering run after)) ↔
        opening <:+: before ++ after ∨ ¬('\\' :: closing) <:+: before ++ after) := by
  refine ⟨fun body literal => ⟨?_, pieces [] body, ?_, ?_, ?_⟩,
    fun fragment code before after unrelated => ?_⟩
  · rw [evaluate_template, evaluateBody_literal run literal]
  -- Without code in it, the template has no more code than is allowed.
  · have none : codeCount body ≤ maxCodes := by
      rw [codeCount_literal literal]
      exact Nat.zero_le _
    rw [tokenize_eq, if_pos none]
  · have none := codeCount_literal literal
    rw [codeCount, List.countP_eq_zero] at none
    exact fun chunk mem => Bool.eq_false_iff.2 (none chunk mem)
  · rw [evaluate_template]
    exact evaluateBody_eq_rendering_iff run literal
  -- What stands beside the fragment is a template of its own, since no delimiter goes across.
  · rw [evaluate_template, evaluate_template]
    exact ⟨unrelated.evaluateBody_with run, unrelated.evaluateBody_without_iff run⟩

/-- Closing braces and a backslash that escapes nothing stay as they are, and are read alike with
and without code between them. -/
theorem braces_unchanged :
    let before := ['\x7d', '\x7d', ' ']
    let fragment := ['\x7b', '\x7b', 'x', '\x7d', '\x7d']
    let after := ['\\', '\x7d', '.']
    let run : Runner := fun _ => .ok .null
    ¬opening <:+: before ++ after ∧ Unrelated fragment ['x'] before after ∧
    evaluate run (String.ofList ('=' :: (before ++ after))) = .ok
      (.str (String.ofList (before ++ after))) ∧
    evaluate run (String.ofList ('=' :: (before ++ fragment ++ after))) = .ok
      (.str (rendering run before ++ (renderChunk run (.code ['x']) ++ rendering run after))) ∧
    evaluate run (String.ofList ('=' :: (before ++ after))) =
      .ok (.str (rendering run before ++ rendering run after)) := by
  intro before fragment after run
  have literal : ¬opening <:+: before ++ after := by decide
  have none : ∀ cs, ¬opening <:+: cs → codeCount cs = 0 := fun _ => codeCount_literal
  have unrelated : Unrelated fragment ['x'] before after := by
    refine ⟨⟨_, rfl, rfl⟩, whole_of_literal (by decide), by decide, by decide, ?_, by decide, ?_⟩
    · rw [none before (by decide), none after (by decide)]
      decide
    · rw [pieces_literal [] literal]
      exact fun other => nofun
  obtain ⟨kept, -⟩ := (literal_iff run).1 (before ++ after) literal
  obtain ⟨put, left⟩ := (literal_iff run).2 fragment ['x'] before after unrelated
  exact ⟨literal, unrelated, kept, put, left.2 (.inr (by decide))⟩

/-- **An escape that depends on code elsewhere.** A backslash in front of a closing delimiter stays
where nothing opens code, and is dropped where something does. -/
theorem escape_kept :
    evaluate (fun _ => .ok .null) "=a \\\x7d\x7d b" = .ok (.str "a \\\x7d\x7d b") ∧
    tokenize "a \\\x7d\x7d b" = .ok [.text "a \x7d\x7d b".toList] ∧
    evaluate (fun _ => .ok .null) "=a \\\x7d\x7d b\x7b\x7bnil\x7d\x7d" = .ok
      (.str "a \x7d\x7d b") := by
  let text := ['a', ' ', '\\', '\x7d', '\x7d', ' ', 'b']
  let mixed := text ++ ['\x7b', '\x7b', 'n', 'i', 'l', '\x7d', '\x7d']
  -- The text is tokenized alone and beside a piece of code; the escape is dropped both times, and
  -- only evaluation knows of templates that are taken as they stand.
  have alone : pieces [] text = [.text ['a', ' ', '\x7d', '\x7d', ' ', 'b']] := by cbv
  have beside : pieces [] mixed = [.text ['a', ' ', '\x7d', '\x7d', ' ', 'b'],
      .code ['n', 'i', 'l']] := by cbv
  refine ⟨rfl, ?_, ?_⟩
  · have few : codeCount text ≤ maxCodes := by
      rw [codeCount, alone]
      decide
    exact (tokenize_eq text).trans ((if_pos few).trans (congrArg Except.ok alone))
  · have few : codeCount mixed ≤ maxCodes := by
      rw [codeCount, beside]
      decide
    have several : ∀ code, pieces [] mixed ≠ [.code code] := by
      rw [beside]
      simp
    refine (evaluate_template _ mixed).trans
      ((evaluateBody_several _ (by decide) few several).trans ?_)
    rw [rendering, beside]
    rfl

end Conveyor.Template
