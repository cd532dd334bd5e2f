/-
Values with their templates evaluated.

Resolving a value goes through it once. Of a value whose strings can all be evaluated it gives the
same value with each string replaced by what it comes to (`resolve_eq_ok_iff`), and of any other it
reports the failure of the first string that cannot (`failure?_resolve`). Nothing that a piece of
code gives is looked at again: the texts of a template and what its code gives are written one after
another (`Evaluates`), and only code that stands in the value itself is run, so whatever the runner
would do with other code has no influence (`resolve_congr`).
-/
import Conveyor.Proofs.Template.Literal

set_option autoImplicit false

namespace Conveyor

/-! ## Strings of a value -/

namespace Json

mutual

/-- The strings in a value, keys of objects apart, in the order in which they are written. -/
def strings : Json → List String
  | .str s => [s]
  | .arr xs => itemStrings xs
  | .obj o => memberStrings o
  | .null | .bool _ | .num _ => []

/-- The strings in the entries of an array. -/
def itemStrings : List Json → List String
  | [] => []
  | x :: xs => strings x ++ itemStrings xs

/-- The strings in the members of an object. -/
def memberStrings : List (String × Json) → List String
  | [] => []
  | (_, v) :: rest => strings v ++ memberStrings rest

end

/-- The second value is the first with its strings replaced: arrays have as many entries, objects
the same keys in the same order, and what is neither a string nor a container is the same. -/
inductive Replaced (value : String → Json → Prop) : Json → Json → Prop
  | null : Replaced value .null .null
  | bool (b : Bool) : Replaced value (.bool b) (.bool b)
  | num (n : Number) : Replaced value (.num n) (.num n)
  | str {s : String} {x : Json} (given : value s x) : Replaced value (.str s) x
  | arr {xs ys : List Json} (size : xs.length = ys.length)
      (entries : ∀ (i : Nat) (x y : Json), xs[i]? = some x → ys[i]? = some y → Replaced value x y) :
      Replaced value (.arr xs) (.arr ys)
  | obj {a b : Object} (names : a.names = b.names)
      (members : ∀ (i : Nat) (p q : String × Json), a[i]? = some p → b[i]? = some q →
        Replaced value p.2 q.2) :
      Replaced value (.obj a) (.obj b)

/-- Entries that correspond one by one, by their positions. -/
theorem forall₂_iff_getElem? {α β : Type} {r : α → β → Prop} {xs : List α} {ys : List β} :
    List.Forall₂ r xs ys ↔ xs.length = ys.length ∧ ∀ (i : Nat) (x : α) (y : β), xs[i]? = some x →
    ys[i]? = some y → r x y := by
  rw [List.forall₂_iff_get]
  refine and_congr_right fun size => ⟨fun related i x y hx hy => ?_, fun related i hx hy => ?_⟩
  · obtain ⟨inX, rfl⟩ := List.getElem?_eq_some_iff.1 hx
    obtain ⟨inY, rfl⟩ := List.getElem?_eq_some_iff.1 hy
    exact related i inX inY
  · exact related i _ _ (List.getElem?_eq_getElem hx) (List.getElem?_eq_getElem hy)

theorem names_eq_iff {a b : Object} :
    a.names = b.names ↔ List.Forall₂ (fun p q => p.1 = q.1) a b := by
  rw [Named.names, Named.names, ← List.forall₂_eq_eq_eq, List.forall₂_map_left_iff,
    List.forall₂_map_right_iff]

variable {value : String → Json → Prop} {w : Json}

theorem replaced_str_iff {s : String} : (Json.str s).Replaced value w ↔ value s w := by
  constructor
  · intro replaced
    cases replaced with
    | str given => exact given
  · exact .str

theorem replaced_arr_iff {xs : List Json} :
    (Json.arr xs).Replaced value w ↔ ∃ ys, List.Forall₂ (Replaced value) xs ys ∧ .arr ys = w := by
  constructor
  · intro replaced
    cases replaced with
    | @arr _ ys size entries => exact ⟨ys, forall₂_iff_getElem?.2 ⟨size, entries⟩, rfl⟩
  · rintro ⟨ys, entries, rfl⟩
    obtain ⟨size, entries⟩ := forall₂_iff_getElem?.1 entries
    exact .arr size entries

theorem replaced_obj_iff {a : Object} : (Json.obj a).Replaced value w ↔
    ∃ b : Object, List.Forall₂ (fun p q => p.1 = q.1 ∧ Replaced value p.2 q.2) a b ∧
      .obj b = w := by
  constructor
  · intro replaced
    cases replaced with
    | @obj _ b names members =>
      obtain ⟨size, same⟩ := forall₂_iff_getElem?.1 (names_eq_iff.1 names)
      exact ⟨b,
        forall₂_iff_getElem?.2 ⟨size, fun i p q hp hq => ⟨same i p q hp hq, members i p q hp hq⟩⟩,
        rfl⟩
  · rintro ⟨b, both, rfl⟩
    obtain ⟨size, both⟩ := forall₂_iff_getElem?.1 both
    have names : a.names = b.names :=
      names_eq_iff.2 (forall₂_iff_getElem?.2 ⟨size, fun i p q hp hq => (both i p q hp hq).1⟩)
    exact .obj names fun i p q hp hq => (both i p q hp hq).2

end Json

namespace Template

variable {run run' : Runner} {cs : List Char} {raw : String} {e : Error} {v w x : Json}

/-! ## Parameter strings -/

/-- What a parameter string comes to. -/
inductive Evaluates (run : Runner) : String → Except Error Json → Prop
  | fixed {raw : String} (other : raw.toList.head? ≠ some '=') : Evaluates run raw (.ok (.str raw))
  | literal {body : List Char} (literal : ¬opening <:+: body) :
      Evaluates run (String.ofList ('=' :: body)) (.ok (.str (String.ofList body)))
  | full {body : List Char} (many : maxCodes < codeCount body) :
      Evaluates run (String.ofList ('=' :: body)) (.error (.scan .tooManyExpressions))
  | value {body code : List Char} {x : Json} (single : pieces [] body = [.code code])
      (given : run (String.ofList code) = .ok x) :
        Evaluates run (String.ofList ('=' :: body)) (.ok x)
  | failure {body code : List Char} {source : Script.Error} (single : pieces [] body = [.code code])
      (failed : run (String.ofList code) = .error source) :
      Evaluates run (String.ofList ('=' :: body)) (.error (.code (String.ofList code) source))
  | text {body : List Char} (opened : opening <:+: body) (few : codeCount body ≤ maxCodes)
      (several : ∀ code, pieces [] body ≠ [.code code]) :
      Evaluates run (String.ofList ('=' :: body)) (.ok (.str (rendering run body)))

theorem evaluate_fixed (run : Runner) (other : raw.toList.head? ≠ some '=') :
    evaluate run raw = .ok (.str raw) := by
  rw [evaluate]
  split
  · rename_i body starts
    exact absurd (congrArg List.head? starts) other
  · rfl

theorem fixed_or_template (raw : String) :
    raw.toList.head? ≠ some '=' ∨ ∃ body, raw = String.ofList ('=' :: body) := by
  by_cases starts : raw.toList.head? = some '='
  · obtain ⟨body, written⟩ := List.head?_eq_some_iff.1 starts
    exact .inr ⟨body, by rw [← written, String.ofList_toList]⟩
  · exact .inl starts

/-- A template that has code opens some. -/
theorem opening_of_codeCount (some_code : 0 < codeCount cs) : opening <:+: cs := by
  by_contra literal
  rw [codeCount_literal literal] at some_code
  exact Nat.lt_irrefl 0 some_code

/-- With one piece of code and nothing else, a template has the value of the code. -/
theorem evaluateBody_single (run : Runner) {code : List Char}
    (single : pieces [] cs = [.code code]) :
    evaluateBody run cs = evaluateChunks run [.code code] := by
  have one : codeCount cs = 1 := by
    rw [codeCount, single]
    rfl
  have few : codeCount cs ≤ maxCodes := by
    rw [one]
    decide
  rw [evaluateBody_opening run (opening_of_codeCount (by omega)), if_pos few, single]

/-- **A parameter string comes to what the rules say.** -/
theorem evaluates_iff {result : Except Error Json} :
    Evaluates run raw result ↔ evaluate run raw = result := by
  constructor
  -- The rules do not overlap: each says what the template looks like, and so which branch is taken.
  · intro comes
    cases comes with
    | fixed other => exact evaluate_fixed run other
    | literal literal => rw [evaluate_template, evaluateBody_literal run literal]
    | full many =>
      rw [evaluate_template, evaluateBody_opening run (opening_of_codeCount (by omega)),
        if_neg (Nat.not_le.2 many)]
    | value single given =>
      rw [evaluate_template, evaluateBody_single run single, evaluateChunks, given]
    | failure single failed =>
      rw [evaluate_template, evaluateBody_single run single, evaluateChunks, failed]
    | text opened few several => rw [evaluate_template, evaluateBody_several run opened few several]
  · rintro rfl
    -- Some rule applies: a text that is no template, and one without code, with too much of it,
    -- with several pieces or with one.
    rcases fixed_or_template raw with other | ⟨body, rfl⟩
    · rw [evaluate_fixed run other]
      exact .fixed other
    rw [evaluate_template]
    by_cases opened : opening <:+: body
    · by_cases few : codeCount body ≤ maxCodes
      · by_cases several : ∀ code, pieces [] body ≠ [.code code]
        · rw [evaluateBody_several run opened few several]
          exact .text opened few several
        · simp only [ne_eq, not_forall, not_not] at several
          obtain ⟨code, single⟩ := several
          rw [evaluateBody_single run single, evaluateChunks]
          cases given : run (String.ofList code) with
          | ok x => exact .value single given
          | error source => exact .failure single given
      · rw [evaluateBody_opening run opened, if_neg few]
        exact .full (Nat.lt_of_not_le few)
    · rw [evaluateBody_literal run opened]
      exact .literal opened

/-- A parameter string fails exactly if it is a template with too much code, or one piece of code
that fails. -/
theorem evaluate_eq_error_iff : evaluate run raw = .error e ↔
    ∃ body, raw = String.ofList ('=' :: body) ∧
      (maxCodes < codeCount body ∧ e = .scan .tooManyExpressions ∨
        ∃ code source, pieces [] body = [.code code] ∧ run (String.ofList code) = .error source ∧
          e = .code (String.ofList code) source) := by
  rw [← evaluates_iff]
  constructor
  · intro comes
    cases comes with
    | @full body many => exact ⟨body, rfl, .inl ⟨many, rfl⟩⟩
    | @failure body code source single failed =>
      exact ⟨body, rfl, .inr ⟨code, source, single, failed, rfl⟩⟩
  · rintro ⟨body, rfl, ⟨many, rfl⟩ | ⟨code, source, single, failed, rfl⟩⟩
    · exact .full many
    · exact .failure single failed

/-- What is no string is what one piece of code gave. -/
theorem value_of_evaluate (given : evaluate run raw = .ok x) : (∃ s, x = .str s) ∨
    ∃ body code, raw = String.ofList ('=' :: body) ∧ pieces [] body = [.code code] ∧
      run (String.ofList code) = .ok x := by
  cases evaluates_iff.2 given with
  | fixed | literal | text => exact .inl ⟨_, rfl⟩
  | value single given => exact .inr ⟨_, _, rfl, single, given⟩

/-- Code that stands in a parameter string. -/
def CodeIn (raw code : String) : Prop :=
  ∃ body cs, raw = String.ofList ('=' :: body) ∧ Chunk.code cs ∈ pieces [] body ∧
    code = String.ofList cs

theorem rendering_congr
    (agree : ∀ code, Chunk.code code ∈ pieces [] cs → run (String.ofList code) = run'
      (String.ofList code)) :
    rendering run cs = rendering run' cs := by
  have chunks : ∀ chunk ∈ pieces [] cs, renderChunk run chunk = renderChunk run' chunk := by
    intro chunk mem
    cases chunk with
    | text cs => rfl
    | code code => rw [renderChunk, renderChunk, agree code mem]
  rw [rendering, rendering, List.map_congr_left chunks]

/-- Evaluating runs no other code than what stands in the string. -/
theorem evaluate_congr (agree : ∀ code, CodeIn raw code → run code = run' code) :
    evaluate run' raw = evaluate run raw := by
  have only : ∀ {body code : List Char}, pieces [] body = [.code code] →
      Chunk.code code ∈ pieces [] body := by
    intro body code single
    rw [single]
    exact List.mem_singleton_self _
  rw [← evaluates_iff]
  have comes : Evaluates run raw (evaluate run raw) := evaluates_iff.2 rfl
  generalize evaluate run raw = result at comes ⊢
  cases comes with
  | fixed other => exact .fixed other
  | literal literal => exact .literal literal
  | full many => exact .full many
  | value single given =>
    exact .value single ((agree _ ⟨_, _, rfl, only single, rfl⟩).symm.trans given)
  | failure single failed =>
    exact .failure single ((agree _ ⟨_, _, rfl, only single, rfl⟩).symm.trans failed)
  | text opened few several =>
    rw [rendering_congr fun code mem => agree _ ⟨_, code, rfl, mem, rfl⟩]
    exact .text opened few several

/-! ## Values -/

theorem map_eq_ok_iff {α β ε : Type} {f : α → β} {x : Except ε α} {b : β} :
    x.map f = .ok b ↔ ∃ a, x = .ok a ∧ f a = b := by
  cases x with
  | error e => exact iff_of_false nofun nofun
  | ok a =>
    rw [Except.map, Except.ok.injEq]
    exact ⟨fun same => ⟨a, rfl, same⟩, fun ⟨_, given, same⟩ => Except.ok.inj given ▸ same⟩

/-- The value that a parameter string evaluates to. -/
def Gives (run : Runner) (raw : String) (x : Json) : Prop := evaluate run raw = .ok x

mutual

/-- **Resolving replaces the strings by what they evaluate to.** -/
theorem resolve_eq_ok_iff (run : Runner) : ∀ v w, resolve run v = .ok w ↔ v.Replaced (Gives run) w
  | .null, w => by
    rw [resolve, Except.ok.injEq]
    · exact ⟨fun same => same ▸ .null, fun | .null => rfl⟩
    all_goals exact fun _ => nofun
  | .bool b, w => by
    rw [resolve, Except.ok.injEq]
    · exact ⟨fun same => same ▸ .bool b, fun | .bool _ => rfl⟩
    all_goals exact fun _ => nofun
  | .num n, w => by
    rw [resolve, Except.ok.injEq]
    · exact ⟨fun same => same ▸ .num n, fun | .num _ => rfl⟩
    all_goals exact fun _ => nofun
  | .str raw, w => by rw [resolve, Json.replaced_str_iff, Gives]
  | .arr xs, w => by
    simp only [resolve, map_eq_ok_iff, Json.replaced_arr_iff, resolveItems_eq_ok_iff run xs]
  | .obj o, w => by
    simp only [resolve, map_eq_ok_iff, Json.replaced_obj_iff, resolveMembers_eq_ok_iff run o]

theorem resolveItems_eq_ok_iff (run : Runner) : ∀ xs ys, resolveItems run xs = .ok ys ↔
    List.Forall₂ (Json.Replaced (Gives run)) xs ys
  | [], ys => by rw [resolveItems, Except.ok.injEq, List.forall₂_nil_left_iff, eq_comm]
  | x :: xs, ys => by
    have entry := resolve_eq_ok_iff run x
    rw [resolveItems, List.forall₂_cons_left_iff]
    cases given : resolve run x with
    | error e =>
      refine iff_of_false nofun ?_
      rintro ⟨y, ys, replaced, -, -⟩
      cases given.symm.trans ((entry y).2 replaced)
    | ok y =>
      simp only [map_eq_ok_iff, resolveItems_eq_ok_iff run xs, ← entry, given, Except.ok.injEq]
      constructor
      · rintro ⟨ys, rest, rfl⟩
        exact ⟨y, ys, rfl, rest, rfl⟩
      · rintro ⟨_, ys, rfl, rest, rfl⟩
        exact ⟨ys, rest, rfl⟩

theorem resolveMembers_eq_ok_iff (run : Runner) : ∀ a b, resolveMembers run a = .ok b ↔
    List.Forall₂ (fun p q => p.1 = q.1 ∧ Json.Replaced (Gives run) p.2 q.2) a b
  | [], b => by rw [resolveMembers, Except.ok.injEq, List.forall₂_nil_left_iff, eq_comm]
  | (k, v) :: rest, b => by
    have member := resolve_eq_ok_iff run v
    rw [resolveMembers, List.forall₂_cons_left_iff]
    cases given : resolve run v with
    | error e =>
      refine iff_of_false nofun ?_
      rintro ⟨q, b, ⟨-, replaced⟩, -, -⟩
      cases given.symm.trans ((member q.2).2 replaced)
    | ok w =>
      simp only [map_eq_ok_iff, resolveMembers_eq_ok_iff run rest, ← member, given, Except.ok.injEq]
      constructor
      · rintro ⟨b, rest, rfl⟩
        exact ⟨(k, w), b, ⟨rfl, rfl⟩, rest, rfl⟩
      · rintro ⟨⟨_, _⟩, b, ⟨rfl, rfl⟩, rest, rfl⟩
        exact ⟨b, rest, rfl⟩

end

/-- The failure of a result, if it is one. -/
def failure? {α : Type} : Except Error α → Option Error
  | .ok _ => none
  | .error e => some e

theorem failure?_map {α β : Type} (f : α → β) (x : Except Error α) :
    failure? (x.map f) = failure? x := by
  cases x <;> rfl

theorem failure?_eq_some_iff {α : Type} {x : Except Error α} :
    failure? x = some e ↔ x = .error e := by
  cases x with
  | ok a => exact iff_of_false nofun nofun
  | error e' => rw [failure?, Option.some.injEq, Except.error.injEq]

theorem failure?_eq_none_iff {α : Type} {x : Except Error α} :
    failure? x = none ↔ ∃ a, x = .ok a := by
  cases x with
  | ok a => exact iff_of_true rfl ⟨a, rfl⟩
  | error e => exact iff_of_false nofun nofun

/-- The failure of a parameter string. -/
def failureOf (run : Runner) (raw : String) : Option Error := failure? (evaluate run raw)

mutual

/-- **Resolving fails as the first string that fails.** -/
theorem failure?_resolve (run : Runner) : ∀ v, failure? (resolve run v) = v.strings.findSome?
    (failureOf run)
  | .null | .bool _ | .num _ => by
    rw [resolve, Json.strings]
    · rfl
    all_goals exact fun _ => nofun
  | .str raw => by
    rw [resolve, Json.strings, List.findSome?_singleton, failureOf]
  | .arr xs => by rw [resolve, failure?_map, Json.strings, failure?_resolveItems run xs]
  | .obj o => by rw [resolve, failure?_map, Json.strings, failure?_resolveMembers run o]

theorem failure?_resolveItems (run : Runner) : ∀ xs, failure? (resolveItems run xs) =
    (Json.itemStrings xs).findSome? (failureOf run)
  | [] => rfl
  | x :: xs => by
    rw [Json.itemStrings, List.findSome?_append, ← failure?_resolve run x,
      ← failure?_resolveItems run xs, resolveItems]
    cases resolve run x with
    | error e => rfl
    | ok y => exact failure?_map _ _

theorem failure?_resolveMembers (run : Runner) : ∀ o, failure? (resolveMembers run o) =
    (Json.memberStrings o).findSome? (failureOf run)
  | [] => rfl
  | (k, v) :: rest => by
    rw [Json.memberStrings, List.findSome?_append, ← failure?_resolve run v,
      ← failure?_resolveMembers run rest, resolveMembers]
    cases resolve run v with
    | error e => rfl
    | ok w => exact failure?_map _ _

end

mutual

/-- **Resolving runs no other code than what stands in the strings.** -/
theorem resolve_congr :
    ∀ v : Json, (∀ raw ∈ v.strings, ∀ code, CodeIn raw code → run code = run' code) →
    resolve run' v = resolve run v
  | .null, _ | .bool _, _ | .num _, _ => rfl
  | .str raw, agree => evaluate_congr (agree raw (List.mem_singleton_self raw))
  | .arr xs, agree => by rw [resolve, resolve, resolveItems_congr xs agree]
  | .obj o, agree => by rw [resolve, resolve, resolveMembers_congr o agree]

theorem resolveItems_congr :
    ∀ xs, (∀ raw ∈ Json.itemStrings xs, ∀ code, CodeIn raw code → run code = run' code) →
    resolveItems run' xs = resolveItems run xs
  | [], _ => rfl
  | x :: xs, agree => by
    rw [resolveItems, resolveItems,
      resolve_congr x fun raw mem => agree raw (List.mem_append_left _ mem),
      resolveItems_congr xs fun raw mem => agree raw (List.mem_append_right _ mem)]

theorem resolveMembers_congr :
    ∀ o, (∀ raw ∈ Json.memberStrings o, ∀ code, CodeIn raw code → run code = run' code) →
    resolveMembers run' o = resolveMembers run o
  | [], _ => rfl
  | (k, v) :: rest, agree => by
    rw [resolveMembers, resolveMembers,
      resolve_congr v fun raw mem => agree raw (List.mem_append_left _ mem),
      resolveMembers_congr rest fun raw mem => agree raw (List.mem_append_right _ mem)]

end

/-- **Resolving is structural and goes through a value once.** It succeeds exactly if every string
in the value can be evaluated, with the value in which each string is replaced by what it comes to;
otherwise it fails as the first string that cannot be. No code is run but what stands in these
strings. Evaluating fails only for a template with too much code or with one piece of code that
fails and nothing else, and gives something else than a text only for one piece of code and nothing
else. -/
theorem resolved_once (run : Runner) (v : Json) :
    (∀ w, resolve run v = .ok w ↔ v.Replaced (fun raw x => evaluate run raw = .ok x) w) ∧
    ((∃ w, resolve run v = .ok w) ↔ ∀ raw ∈ v.strings, ∃ x, evaluate run raw = .ok x) ∧
    (∀ e, resolve run v = .error e ↔ ∃ before raw after, v.strings = before ++ raw :: after ∧
      (∀ other ∈ before, ∃ x, evaluate run other = .ok x) ∧ evaluate run raw = .error e) ∧
    (∀ run' : Runner, (∀ raw ∈ v.strings, ∀ code, CodeIn raw code → run code = run' code) →
      resolve run' v = resolve run v) ∧
    ∀ raw, Evaluates run raw (evaluate run raw) ∧
      (raw.toList.head? ≠ some '=' → evaluate run raw = .ok (.str raw)) ∧
      (∀ e, evaluate run raw = .error e ↔ ∃ body, raw = String.ofList ('=' :: body) ∧
        (maxCodes < codeCount body ∧ e = .scan .tooManyExpressions ∨
          ∃ code source, pieces [] body = [.code code] ∧ run (String.ofList code) = .error source ∧
            e = .code (String.ofList code) source)) ∧
      ∀ x, evaluate run raw = .ok x → (∃ s, x = .str s) ∨
        ∃ body code, raw = String.ofList ('=' :: body) ∧ pieces [] body = [.code code] ∧
          run (String.ofList code) = .ok x := by
  refine ⟨resolve_eq_ok_iff run v, ?_, fun e => ?_, fun run' => resolve_congr v, fun raw => ?_⟩
  -- It succeeds where no string in the value fails.
  · rw [← failure?_eq_none_iff, failure?_resolve, List.findSome?_eq_none_iff]
    exact forall₂_congr fun raw _ => failure?_eq_none_iff
  -- The first string that fails is the one that is reported.
  · rw [← failure?_eq_some_iff, failure?_resolve, List.findSome?_eq_some_iff]
    constructor
    · rintro ⟨before, raw, after, split, failed, passed⟩
      exact ⟨before, raw, after, split, fun other mem => failure?_eq_none_iff.1 (passed other mem),
        failure?_eq_some_iff.1 failed⟩
    · rintro ⟨before, raw, after, split, passed, failed⟩
      exact ⟨before, raw, after, split, failure?_eq_some_iff.2 failed,
        fun other mem => failure?_eq_none_iff.2 (passed other mem)⟩
  · exact ⟨evaluates_iff.2 rfl, evaluate_fixed run, fun _ => evaluate_eq_error_iff,
      fun _ => value_of_evaluate⟩

/-! ## Values that look like templates -/

/-- Code that gives a text with code in it. -/
def Injected (other : Except Script.Error Json) : Runner := fun code =>
  if code = "name" then .ok (.str "=\x7b\x7b other \x7d\x7d") else other

/-- A value with this code in it, by itself and within a text. -/
def greeting : Json :=
  .obj [("name", .str "=\x7b\x7bname\x7d\x7d"),
    ("lines", .arr [.str "=Hi \x7b\x7bname\x7d\x7d", .null, .str "name"])]

theorem pieces_name :
    pieces [] ['\x7b', '\x7b', 'n', 'a', 'm', 'e', '\x7d', '\x7d']
      = [.code ['n', 'a', 'm', 'e']] := by
  cbv

theorem pieces_line :
    pieces [] ['H', 'i', ' ', '\x7b', '\x7b', 'n', 'a', 'm', 'e', '\x7d', '\x7d']
    = [.text ['H', 'i', ' '], .code ['n', 'a', 'm', 'e']] := by
  cbv

theorem codeIn_greeting {raw code : String} (mem : raw ∈ greeting.strings)
    (inside : CodeIn raw code) :
    code = "name" := by
  obtain ⟨body, cs, rfl, mem', rfl⟩ := inside
  have written : String.ofList ('=' :: body) ∈ ["=\x7b\x7bname\x7d\x7d", "=Hi \x7b\x7bname\x7d\x7d",
      "name"] := mem
  simp only [List.mem_cons, List.not_mem_nil, or_false, ← String.toList_inj,
    String.toList_ofList] at written
  rcases written with same | same | same
  · obtain rfl : body = ['\x7b', '\x7b', 'n', 'a', 'm', 'e', '\x7d', '\x7d'] :=
      (List.cons.inj same).2
    rw [pieces_name, List.mem_singleton] at mem'
    rw [Chunk.code.inj mem']
  · obtain rfl : body = ['H', 'i', ' ', '\x7b', '\x7b', 'n', 'a', 'm', 'e', '\x7d', '\x7d'] :=
      (List.cons.inj same).2
    rw [pieces_line, List.mem_pair] at mem'
    rcases mem' with text | name
    · cases text
    · rw [Chunk.code.inj name]
  · cases (List.cons.inj same).1

/-- What the code gave is left alone, whatever the code in it would have given. -/
theorem greeting_resolved :
    let run := Injected (.error (.script "failed" 1))
    let run' := Injected (.ok .null)
    (∀ raw ∈ greeting.strings, ∀ code, CodeIn raw code → run code = run' code) ∧
    resolve run' greeting = resolve run greeting ∧
    resolve run greeting = .ok (.obj [("name", .str "=\x7b\x7b other \x7d\x7d"),
      ("lines", .arr [.str "Hi =\x7b\x7b other \x7d\x7d", .null, .str "name"])]) ∧
    "name".toList.head? ≠ some '=' ∧ evaluate run "name" = .ok (.str "name") := by
  intro run run'
  have agree : ∀ raw ∈ greeting.strings, ∀ code, CodeIn raw code → run code = run' code := by
    intro raw mem code inside
    rw [codeIn_greeting mem inside]
    rfl
  have fixed : "name".toList.head? ≠ some '=' := by decide
  obtain ⟨-, -, -, others, strings⟩ := resolved_once run greeting
  -- What each of the three strings comes to decides the value.
  have name : evaluate run "name" = .ok (.str "name") := (strings "name").2.1 fixed
  have alone : evaluate run "=\x7b\x7bname\x7d\x7d" = .ok (.str "=\x7b\x7b other \x7d\x7d") :=
    (evaluate_template run _).trans (evaluateBody_single run pieces_name)
  have within : evaluate run "=Hi \x7b\x7bname\x7d\x7d"
      = .ok (.str "Hi =\x7b\x7b other \x7d\x7d") := by
    refine (evaluate_template run ['H', 'i', ' ', '\x7b', '\x7b', 'n', 'a', 'm', 'e', '\x7d',
      '\x7d']).trans ?_
    rw [evaluateBody_opening run (by decide), codeCount, pieces_line]
    rfl
  refine ⟨agree, others run' agree, ?_, fixed, name⟩
  simp only [greeting, resolve, resolveMembers, resolveItems, alone, within, name, Except.map]

end Template

end Conveyor
