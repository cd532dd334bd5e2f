/-
The lines of script errors.

The interpreter counts lines in the rewritten script, and these are the lines of the script as it
was written. So the lines of lexemes, those in the program and those that the machine is at are
lines of the script, and so is every position that the interpreter puts into an error (`allowed`). A
script error is on the first line that its message tells, or its trace, or on the first line of the
script. Whatever that line is, it is one of the script's, unless a text that is no position tells
it: the message itself, or what the trace calls a function (`Told.line`).
-/
import Conveyor.Proofs.Lua.Failures
import Conveyor.Proofs.Lua.Lines
import Conveyor.Proofs.Script.Lines
import Conveyor.Proofs.Script.Positions
import Conveyor.Proofs.Script.Told
import Conveyor.Script.Sandbox

set_option autoImplicit false

namespace Conveyor.Script

open Decimal Lua

variable {code : String}

/-! ## The lines of a script -/

/-- The texts that are read for a script: the rewritten script, as it is and as an expression. -/
def sources (code : String) : List String :=
  let rewritten := String.ofList (rewrite code.toList)
  [rewritten, "return " ++ rewritten]

/-- A line of a script: the first one, or one on which a lexeme ends. -/
def LineOf (code : String) (n : Nat) : Prop :=
  n = 1 ∨ ∃ source ∈ sources code, ∃ l ∈ Lexeme.scan source, l.line = n

/-- The lines that may stand behind the name of a chunk: for user code, the lines of the script. -/
def allowed (code chunk : String) (n : Nat) : Prop :=
  chunk = chunkName ∧ LineOf code n ∨ chunk = preludeName ∨ chunk = ""

theorem allowed_chunkName {n : Nat} : allowed code chunkName n ↔ LineOf code n := by
  have apart : ¬(chunkName = preludeName ∨ chunkName = "") := by decide
  rw [allowed, or_iff_left apart, and_iff_right rfl]

theorem length_lines_rewrite (code : String) :
    (lines (rewrite code.toList)).length = (lines code.toList).length :=
  (substituted_rewrite code.toList).lines.length_eq.symm

/-- What is read has as many lines as the script. -/
theorem length_lines_source {source : String} (mem : source ∈ sources code) :
    (lines source.toList).length = (lines code.toList).length := by
  simp only [sources, List.mem_cons, List.not_mem_nil, or_false] at mem
  obtain rfl | rfl := mem
  · rw [String.toList_ofList, length_lines_rewrite]
  · obtain ⟨first, rest, whole⟩ := List.exists_cons_of_ne_nil (lines_ne_nil (rewrite code.toList))
    rw [String.toList_append, String.toList_ofList (l := rewrite code.toList),
      lines_append (by decide), whole, onFirst, List.length_cons, ← length_lines_rewrite, whole,
      List.length_cons]

/-- **A lexeme is on the line of the script on which it ends.** Behind it there are as many line
ends as the script has lines behind that one. -/
theorem lexeme_line {source : String} (mem : source ∈ sources code) {l : Lexeme}
    (inside : l ∈ Lexeme.scan source) :
    ∃ rest, rest <:+ source.toUTF8.toList ∧ l.line + Lexeme.lineBreaks rest
      = (lines code.toList).length := by
  obtain ⟨rest, r⟩ := (Lexeme.scanned source).reaches inside
  refine ⟨rest, r.suffix, ?_⟩
  rw [r.lines, toList_toUTF8, Nat.add_comm 1, ← length_lines, length_lines_source mem]

/-! ## Reading -/

theorem parse_source_placed {source : String} (mem : source ∈ sources code) :
    (∀ f, parse chunkName source = .ok f → f.Placed (allowed code) chunkName)
      ∧ ∀ p, parse chunkName source = .error p → p.Placed (allowed code) chunkName :=
  parse_placed (fun l inside => allowed_chunkName.2 (.inr ⟨source, mem, l, inside, rfl⟩))
    (allowed_chunkName.2 (.inl rfl))

/-- What a script is read as has lines of the script, and so has the complaint if it is refused. -/
theorem compile_placed (mode : Mode) :
    (∀ f, Session.compile mode code = .ok f → f.Placed (allowed code) chunkName)
      ∧ ∀ p, Session.compile mode code = .error p → p.Placed (allowed code) chunkName := by
  have plain : String.ofList (rewrite code.toList) ∈ sources code := List.mem_cons_self
  have expression : "return " ++ String.ofList (rewrite code.toList) ∈ sources code :=
    List.mem_cons_of_mem _ List.mem_cons_self
  have plain := parse_source_placed plain
  have expression := parse_source_placed expression
  unfold Session.compile
  cases mode with
  | statements => exact plain
  | expression =>
    simp only
    split
    · rename_i f read
      refine ⟨?_, nofun⟩
      intro g same
      obtain rfl := Except.ok.inj same
      exact expression.1 f read
    · exact plain

/-! ## The store of a session -/

theorem nowhere : allowed code "" 0 := .inr (.inr rfl)

theorem initial_placed : Heap.initial.Placed (allowed code) := by
  intro f env mem
  have builtinOnly : Heap.initial.functions = (builtins.map Callable.builtin).toArray := rfl
  rw [builtinOnly, List.mem_toArray] at mem
  obtain ⟨b, -, same⟩ := List.mem_map.1 mem
  exact nomatch same

theorem setGlobal_placed {h : Heap} (placed : h.Placed (allowed code)) (name : String) (v : Json) :
    (Session.setGlobal h name v).Placed (allowed code) :=
  placed.of_functions (functions_inject h v)

/-- What every change keeps, all of them together keep. -/
theorem foldl_placed {α : Type} {f : Heap → α → Heap}
    (keeps : ∀ h a, h.Placed (allowed code) → (f h a).Placed (allowed code))
    (all : List α) {h : Heap} (placed : h.Placed (allowed code)) :
    (all.foldl f h).Placed (allowed code) := by
  induction all generalizing h with
  | nil => exact placed
  | cons a all ih => exact ih (keeps h a placed)

theorem setBindings_placed (b : Bindings) {h : Heap} (placed : h.Placed (allowed code)) :
    (Session.setBindings b h).Placed (allowed code) := by
  have helper (h : Heap) (name : String) (placed : h.Placed (allowed code)) :
      (h.newFunction (.host name)).1.Placed (allowed code) := by
    refine placed.newFunction ?_
    rintro f env ⟨⟩
  refine foldl_placed (fun h p placed => (helper h p.1 placed).setField _ _ _) _ ?_
  refine foldl_placed (fun h p placed => setGlobal_placed placed _ _) _ ?_
  exact ((setGlobal_placed (setGlobal_placed placed _ _) _ _).setField _ _ _).setField _ _ _

theorem removeGlobals_placed {h : Heap} (placed : h.Placed (allowed code)) :
    (Session.removeGlobals h).Placed (allowed code) := by
  exact foldl_placed (fun h name placed => placed.setField _ _ _) _ placed

theorem prelude_placed {f : Function} (read : prelude = .ok f) :
    f.Placed (allowed code) preludeName :=
  (parse_placed (fun _ _ => .inr (.inl rfl)) (.inr (.inl rfl))).1 f read

theorem runPrelude_placed (host : Host) {h : Heap} (placed : h.Placed (allowed code)) :
    (Session.runPrelude host h).2.Placed (allowed code) := by
  have fits {f : Function} (read : prelude = .ok f) : f.Placed (allowed code) preludeName :=
    prelude_placed read
  -- The prelude is a closed program, which is not to be read here.
  obtain ⟨run, same⟩ : ∃ run, run = Session.runPrelude := ⟨_, rfl⟩
  rw [← same]
  delta Session.runPrelude at same
  subst same
  generalize prelude = read at fits ⊢
  cases read with
  | error p => exact placed
  | ok f =>
    have ran := Function.run_placed host nowhere placed (fits rfl) Session.preludeSteps
    simp only
    split <;> rename_i outcome <;> rw [outcome] at ran
    · exact ran
    · exact ran.1
    · exact ran

/-- What binding does, whatever the prelude does. -/
theorem bind_cases {s s' : Session} {b : Bindings} {result : Except Error Unit}
    (bound : s.bind b = (result, s')) : (∃ message, result = .error (.setup message)) ∨ result = .ok
    () ∧ ∃ h, s.store = some h ∧ s'.store
      = some (Session.removeGlobals
        (Session.runPrelude (Session.hostOf (b.helpers ++ s.helpers))
          (Session.setBindings b h)).2) := by
  unfold Session.bind at bound
  -- The prelude is not to be run here.
  obtain ⟨run, same⟩ : ∃ run, run = Session.runPrelude := ⟨_, rfl⟩
  rw [← same] at bound ⊢
  cases begun : s.store with
  | none =>
    rw [begun] at bound
    obtain ⟨rfl, -⟩ := Prod.mk.inj bound
    exact .inl ⟨_, rfl⟩
  | some h =>
    rw [begun] at bound
    simp only at bound
    split at bound <;> rename_i ran <;> obtain ⟨rfl, rfl⟩ := Prod.mk.inj bound
    · exact .inr ⟨rfl, h, rfl, by rw [ran]⟩
    · exact .inl ⟨_, rfl⟩

/-- Once a session is bound, its store holds no function of the program but those of the prelude. -/
theorem bind_placed {s s' : Session} {b : Bindings} {h : Heap} (begun : s.store = some h)
    (placed : h.Placed (allowed code)) (bound : s.bind b = (.ok (), s')) :
    ∃ h', s'.store = some h' ∧ h'.Placed (allowed code) := by
  obtain ⟨_, failed⟩ | ⟨-, h', same, store⟩ := bind_cases bound
  · exact nomatch failed
  · obtain rfl := Option.some.inj (begun.symm.trans same)
    exact ⟨_, store, removeGlobals_placed (runPrelude_placed _ (setBindings_placed b placed))⟩

/-- A session that cannot be bound blames its setup. -/
theorem bind_error {s s' : Session} {b : Bindings} {e : Error}
    (refused : s.bind b = (.error e, s')) :
    ∃ message, e = .setup message := by
  obtain ⟨message, same⟩ | ⟨same, -⟩ := bind_cases refused
  · exact ⟨message, Except.error.inj same⟩
  · exact nomatch same

/-! ## Positions in texts -/

theorem separates_blank : Separates ' ' := by unfold Separates; decide

theorem separates_lineFeed : Separates '\n' := by unfold Separates; decide

theorem separates_tab : Separates '\t' := by unfold Separates; decide

/-- A line behind the name of a chunk tells a line of the script, if any. -/
theorem lineOf_of_place {chunk : String} {m n : Nat} (here : allowed code chunk m)
    (told : Tells (chunk ++ ":" ++ natText m ++ ":").toList n) : LineOf code n := by
  rw [String.toList_append, String.toList_append] at told
  -- The other chunks have no letter in common with the mark.
  have other (apart : 'c' ∉ (chunk ++ ":").toList) : LineOf code n := by
    refine absurd told (not_tells (c := 'c') (by decide) ?_ n)
    simp only [List.mem_append]
    rintro ((front | digit) | colon)
    · exact apart front
    · exact absurd (isDigit_of_mem_natText digit) (by decide)
    · exact absurd colon (by decide)
  obtain ⟨rfl, line⟩ | rfl | rfl := here
  · exact tells_position told ▸ line
  · exact other (by decide)
  · exact other (by decide)

/-- A position in front of a message. -/
theorem Level.tells {l : Level} (placed : l.Placed (allowed code)) {message : String} {n : Nat}
    (told : Tells (l.position ++ message).toList n) : LineOf code n ∨ Tells message.toList n := by
  cases l with
  | native =>
    rw [Level.position, String.empty_append] at told
    exact .inr told
  | program callee place site tail line =>
    unfold Level.position at told
    simp only at told
    split at told
    · rw [String.empty_append] at told
      exact .inr told
    · have split : (place.chunk ++ ":" ++ natText line ++ ": " ++ message).toList
          = (place.chunk ++ ":" ++ natText line ++ ":").toList ++ ' ' :: message.toList := by
        simp only [String.toList_append, List.append_assoc]
        rfl
      rw [split] at told
      exact (told.split separates_blank).imp_left (lineOf_of_place placed.1)

/-- What a line of a trace tells is told by its position or behind it. -/
theorem tells_behind {position own : String} {n : Nat}
    (front : Tells position.toList n → LineOf code n)
    (told : Tells (position ++ " in " ++ own).toList n) : LineOf code n ∨ Tells own.toList n := by
  have split : (position ++ " in " ++ own).toList = position.toList
      ++ ' ' :: ("in".toList ++ ' ' :: own.toList) := by
    simp only [String.toList_append, List.append_assoc]
    rfl
  rw [split] at told
  obtain position | rest := told.split separates_blank
  · exact .inl (front position)
  · refine .inr
      ((rest.split separates_blank).resolve_left (not_tells (c := 'c') (by decide) (by decide) n))

/-- A line of a trace is a position and what the function there is called. -/
theorem Level.text_eq (h : Heap) (l : Level) (placed : l.Placed (allowed code)) :
    ∃ position own : String, l.text h = position ++ " in " ++ own ∧ ∀ n, Tells position.toList n →
      LineOf code n := by
  cases l with
  | native name site =>
    have outside (n : Nat) (told : Tells "[C]:".toList n) : LineOf code n :=
      absurd told (not_tells (c := 'c') (by decide) (by decide) n)
    unfold Level.text
    simp only
    split
    · rename_i name
      refine ⟨"[C]:", "function '" ++ name ++ "'", ?_, outside⟩
      simp only [← String.append_assoc]
      rfl
    · exact ⟨"[C]:", _, rfl, outside⟩
    · exact ⟨"[C]:", "?", rfl, outside⟩
  | program callee place site tail line =>
    have shape (called tails : String) : place.chunk ++ ":" ++ natText line ++ ": in "
        ++ called ++ tails
        = place.chunk ++ ":" ++ natText line ++ ":" ++ " in " ++ (called ++ tails) := by
      simp only [String.append_assoc]
      rfl
    exact ⟨_, _, shape _ _, fun n => lineOf_of_place placed.1⟩

/-! ## Errors -/

/-- The message of a refused program without the position in front of it. -/
def refusal (p : Problem) : String :=
  p.message ++ (if p.shown.isEmpty then "" else " near " ++ p.shown)

/-- What an error of a script is read from, a text and the context around it, and which of the texts
in there are no positions of the interpreter. -/
inductive Told (code : String) (mode : Mode) : String → String → (String → Prop) → Prop where
  /-- The script is refused. -/
  | refused {p : Problem} (refused : Session.compile mode code = .error p) :
    Told code mode (p.text chunkName) (p.text chunkName) (· = refusal p)
  /-- The script fails: a trace names functions behind the positions. -/
  | failed {program : Function} {host : Host} {h h' : Heap} {steps : Nat} {f : Failure}
    {message : String}
    (read : Session.compile mode code = .ok program)
      (failed : program.run host h steps = .failed h' f)
    (placed : f.Placed (allowed code) message) :
    Told code mode (if f.host then f.text else Session.withTrace f) (Session.withTrace f)
      fun own => own = message ∨ ∃ shown ∈ f.trace, (" in " ++ own).toList <:+ shown.toList
  /-- What the script returns has no JSON form. -/
  | unfit (e : ExchangeError) : Told code mode e.message e.message fun _ => False

/-- A line that is reported is told by the text or by the context, or it is the first one. -/
theorem locate_line (text context : String) : (locate text context).2 = 1
    ∨ Tells text.toList (locate text context).2 ∨ Tells context.toList (locate text context).2 := by
  unfold locate
  simp only
  cases found : findLine? text.toList with
  | some n => exact .inr (.inl (tells_of_findLine? found))
  | none =>
    cases behind : findLine? context.toList with
    | some n => exact .inr (.inr (tells_of_findLine? behind))
    | none => exact .inl rfl

theorem tells_problem {p : Problem} {n : Nat} (placed : p.Placed (allowed code) chunkName)
    (told : Tells (p.text chunkName).toList n) : LineOf code n ∨ Tells (refusal p).toList n := by
  unfold Problem.text at told
  simp only at told
  split at told
  · exact .inr told
  · rename_i known
    obtain rfl | here := placed
    · exact absurd rfl known
    · have split : (chunkName ++ ":" ++ natText p.line ++ ": " ++ p.message
            ++ if p.shown.isEmpty = true then "" else " near " ++ p.shown).toList
          = (chunkName ++ ":" ++ natText p.line ++ ":").toList ++ ' ' :: (refusal p).toList := by
        simp only [refusal, String.toList_append, List.append_assoc]
        rfl
      rw [split] at told
      exact (told.split separates_blank).imp_left (lineOf_of_place here)

theorem tells_failure {f : Failure} {message : String} {n : Nat}
    (placed : f.Placed (allowed code) message) (told : Tells f.text.toList n) :
    LineOf code n ∨ Tells message.toList n := by
  -- Without a level there is no position.
  have blamed {l? : Option Level} (fits : ∀ l, l? = some l → l.Placed (allowed code))
      (told : Tells ((l?.map Level.position).getD "" ++ message).toList n) :
      LineOf code n ∨ Tells message.toList n := by
    cases l? with
    | none =>
      rw [Option.map_none, Option.getD_none, String.empty_append] at told
      exact .inr told
    | some l => exact Level.tells (fits l rfl) told
  cases placed with
  | here all => exact blamed (fun l head => all l (List.mem_of_mem_head? head)) told
  | caller level all => exact blamed (fun l at_ => all l (List.mem_of_getElem? at_)) told
  | nobody host all => exact .inr told

/-- What a trace shows are levels, and how many it leaves out. -/
theorem mem_traceText {h : Heap} {ls : List Level} {shown : String} (mem : shown ∈ traceText h ls) :
    (∃ l ∈ ls, shown = l.text h) ∨ ∃ m, shown = "...\t(skipping " ++ natText m ++ " levels)" := by
  unfold traceText at mem
  simp only at mem
  split at mem
  · obtain ⟨l, inside, rfl⟩ := List.mem_map.1 mem
    exact .inl ⟨l, inside, rfl⟩
  · rw [List.mem_append, List.mem_append, List.mem_map, List.mem_singleton, List.mem_map] at mem
    obtain (⟨l, inside, rfl⟩ | rfl) | ⟨l, inside, rfl⟩ := mem
    · exact .inl ⟨l, List.mem_of_mem_take inside, rfl⟩
    · exact .inr ⟨_, rfl⟩
    · exact .inl ⟨l, List.mem_of_mem_drop inside, rfl⟩

theorem tells_trace {f : Failure} {message shown : String} {n : Nat}
    (placed : f.Placed (allowed code) message) (mem : shown ∈ f.trace)
    (told : Tells shown.toList n) :
    LineOf code n ∨ ∃ own : String, (" in " ++ own).toList <:+ shown.toList ∧
      Tells own.toList n := by
  -- The trace is that of the levels, whoever raised the error; a level that has no position is
  -- placed anyhow.
  have traced : ∃ h ls, f.trace = traceText h ls ∧ ∀ l ∈ ls, l.Placed (allowed code) := by
    cases placed with
    | here all => exact ⟨_, _, rfl, List.forall_mem_cons.2 ⟨trivial, all⟩⟩
    | caller level all =>
      exact ⟨_, _, rfl, List.forall_mem_cons.2 ⟨trivial, List.forall_mem_cons.2 ⟨trivial, all⟩⟩⟩
    | nobody host all =>
      exact ⟨_, _, rfl, List.forall_mem_cons.2 ⟨trivial, List.forall_mem_cons.2 ⟨trivial, all⟩⟩⟩
  obtain ⟨h, ls, same, all⟩ := traced
  rw [same] at mem
  -- A line of the trace is that of a level, or says how many levels are left out.
  obtain ⟨l, inside, rfl⟩ | ⟨m, rfl⟩ := mem_traceText mem
  · obtain ⟨position, own, whole, front⟩ := Level.text_eq h l (all l inside)
    rw [whole] at told ⊢
    refine (tells_behind (front n) told).imp_right fun behind => ⟨own, ?_, behind⟩
    rw [String.append_assoc, String.toList_append (s := position)]
    exact List.suffix_append _ _
  -- The words around the number have no `c`, and the mark of a line has one.
  · refine absurd told (not_tells (c := 'c') (by decide) ?_ n)
    simp only [String.toList_append, List.mem_append]
    rintro ((front | digit) | back)
    · exact absurd front (by decide)
    · exact absurd (isDigit_of_mem_natText digit) (by decide)
    · exact absurd back (by decide)

/-- The lines of a trace stand between line ends and tabs, so one of them tells what they tell
together. -/
theorem tells_joined {shown : List String} {n : Nat}
    (told : Tells ("\n\t".toList.intercalate (shown.map String.toList)) n) :
    ∃ line ∈ shown, Tells line.toList n := by
  induction shown with
  | nil => exact absurd told (not_tells (c := 'c') (by decide) (by decide) n)
  | cons line rest ih =>
    cases rest with
    | nil =>
      rw [List.map_singleton, List.intercalate_singleton] at told
      exact ⟨line, List.mem_singleton_self _, told⟩
    | cons next rest =>
      have split : "\n\t".toList.intercalate ((line :: next :: rest).map String.toList)
          = line.toList
            ++ '\n' :: ([] ++ '\t' ::
              "\n\t".toList.intercalate ((next :: rest).map String.toList)) := by
        rw [List.map_cons, List.map_cons, List.intercalate_cons_cons, List.append_assoc]
        rfl
      rw [split] at told
      obtain here | later := told.split separates_lineFeed
      · exact ⟨line, List.mem_cons_self, here⟩
      · have later :=
          (later.split separates_tab).resolve_left (not_tells (c := 'c') (by decide) (by decide) n)
        obtain ⟨shown, mem, told⟩ := ih later
        exact ⟨shown, List.mem_cons_of_mem _ mem, told⟩

theorem tells_withTrace {f : Failure} {n : Nat} (told : Tells (Session.withTrace f).toList n) :
    Tells f.text.toList n ∨ ∃ shown ∈ f.trace, Tells shown.toList n := by
  have split : (Session.withTrace f).toList = f.text.toList ++ '\n' :: ("stack traceback:".toList
      ++ '\n' :: ([] ++ '\t' :: "\n\t".toList.intercalate (f.trace.map String.toList))) := by
    rw [Session.withTrace, String.toList_append, String.toList_append, String.toList_intercalate,
      List.append_assoc]
    rfl
  rw [split] at told
  obtain text | told := told.split separates_lineFeed
  · exact .inl text
  · obtain title | told := told.split separates_lineFeed
    · exact absurd title (not_tells (c := 'o') (by decide) (by decide) n)
    · have told :=
        (told.split separates_tab).resolve_left (not_tells (c := 'c') (by decide) (by decide) n)
      exact .inr (tells_joined told)

/-- A line that an error tells is a line of the script, or a text that is no position tells it. -/
theorem Told.tells {mode : Mode} {text context : String} {own : String → Prop} {n : Nat}
    (told : Told code mode text context own)
    (there : Tells text.toList n ∨ Tells context.toList n) :
    LineOf code n ∨ ∃ o, own o ∧ Tells o.toList n := by
  -- A script is refused before it runs, fails while it runs, or ends with a value that is no
  -- result.
  cases told with
  | refused refused =>
    have placed := (compile_placed mode).2 _ refused
    exact (tells_problem placed (there.elim id id)).imp_right fun told => ⟨_, rfl, told⟩
  | @failed _ _ _ _ _ f message _ _ placed =>
    -- The text that is looked through is the message with its trace, or the message alone.
    have whole : Tells f.text.toList n ∨ ∃ shown ∈ f.trace, Tells shown.toList n := by
      obtain first | second := there
      · split at first
        · exact .inl first
        · exact tells_withTrace first
      · exact tells_withTrace second
    obtain first | ⟨shown, mem, second⟩ := whole
    · exact (tells_failure placed first).imp_right fun told => ⟨message, .inl rfl, told⟩
    · obtain line | ⟨own, behind, told⟩ := tells_trace placed mem second
      · exact .inl line
      · exact .inr ⟨own, .inr ⟨shown, mem, behind⟩, told⟩
  | unfit e =>
    refine absurd (there.elim id id) ?_
    cases e <;> exact not_tells (c := ':') (by decide) (by decide) n

/-- **The line of a script error.** It is a line of the script, unless a text that is no position
tells it. -/
theorem Told.line {mode : Mode} {text context : String} {own : String → Prop}
    (told : Told code mode text context own) :
    LineOf code (locate text context).2 ∨ ∃ o, own o ∧ Tells o.toList (locate text context).2 := by
  obtain first | there := locate_line text context
  · exact .inl (.inl first)
  · exact told.tells there

/-! ## Runs -/

theorem report_eq_script {s : Session} {text context message : String} {line : Nat}
    (same : s.report text context = .script message line) :
    (message, line) = locate text context := by
  unfold Session.report at same
  split at same
  · exact nomatch same
  · obtain ⟨rfl, rfl⟩ := Error.script.inj same
    rfl

/-- An error of a run is read from what the interpreter says. -/
theorem told_of_run {s : Session} {h : Heap} {mode : Mode} {steps : Nat} {message : String}
    {line : Nat} (begun : s.store = some h) (placed : h.Placed (allowed code))
    (error : (s.run mode steps code).1 = .error (.script message line)) :
    ∃ text context own, Told code mode text context own ∧
      (message, line) = locate text context := by
  unfold Session.run at error
  rw [begun] at error
  simp only at error
  split at error
  · rename_i p refused
    exact ⟨_, _, _, .refused refused, report_eq_script (Except.error.inj error)⟩
  · rename_i f read
    have fits := (compile_placed mode).1 f read
    -- Whatever the steps, the program is placed, so what it fails with is placed.
    have ran := Function.run_placed (Session.hostOf s.helpers) nowhere placed fits
      (if s.interrupted then min Session.stepsToNotice steps else steps)
    split at error <;> rename_i outcome <;> rw [outcome] at ran
    · split at error
      · exact nomatch error
      · rename_i e _
        exact ⟨_, _, _, .unfit e, report_eq_script (Except.error.inj error)⟩
    · obtain ⟨-, own, failed⟩ := ran
      exact ⟨_, _, _, .failed read outcome failed, report_eq_script (Except.error.inj error)⟩
    · exact nomatch Except.error.inj error

/-- An error of a script in a sandbox is read from what the interpreter says. -/
theorem told_of_execute {b : Bindings} {mode : Mode} {budget : Nat} {message : String} {line : Nat}
    (error : Sandbox.execute b mode budget code = .error (.script message line)) :
    ∃ text context own, Told code mode text context own ∧
      (message, line) = locate text context := by
  have refused {e : Error} {s : Session} (failed : (Session.start {}).bind b = (.error e, s)) :
      ∃ message, e = .setup message := bind_error failed
  have bound {s : Session} (done : (Session.start {}).bind b = (.ok (), s)) :
      ∃ h, s.store = some h ∧ h.Placed (allowed code) := bind_placed rfl initial_placed done
  -- As with the prelude, nothing is to be bound here.
  obtain ⟨execute, same⟩ : ∃ execute, execute = Sandbox.execute := ⟨_, rfl⟩
  rw [← same] at error
  delta Sandbox.execute at same
  subst same
  generalize Session.bind = bind at refused bound error
  simp only at error
  split at error
  · rename_i failed
    obtain ⟨_, rfl⟩ := refused failed
    exact nomatch Except.error.inj error
  · rename_i outcome
    obtain ⟨h, begun, placed⟩ := bound outcome
    split at error
    · exact nomatch error
    · exact nomatch Except.error.inj error
    · rename_i ran
      rw [Except.error.inj error] at ran
      exact told_of_run begun placed ran

/-- A message that begins with a position is on the line of that position, whatever follows. -/
theorem locate_position {text context rest : String} {n : Nat} (small : n ≤ maxLine)
    (front : text = chunkName ++ ":" ++ natText n ++ ":" ++ rest) :
    (locate text context).2 = n := by
  have found : findLine? text.toList = some n := by
    rw [← findLine?_position small rest.toList, front]
    congr 1
    simp only [String.toList_append, List.append_assoc]
    rfl
  unfold locate
  simp only [found, Option.orElse_some, Option.getD_some]

/-- **Rewriting is a bounded substitution that keeps lines.** For every script, well-formed or not:
rewriting ends within as many steps as there are characters, each slice that it takes lies within
the script and each step goes on by a character at least; it copies the script but for some dollar
signs, which become the beginning of an inner name, so every line of it stays where it is. The
interpreter counts the lines of the script: a lexeme is on the line on which it ends. A script error
is on the line of the position in front of its message, if there is one, and always on a line of the
script, unless a text tells another one that is no position of the interpreter. -/
theorem rewriting_keeps_lines (code : String) :
    rewriteFrom? code.toList code.toList.length 0 = some (rewrite code.toList)
    ∧ (∀ i stop, literalEnd? code.toList i = some (some stop) → i < stop ∧
      stop ≤ code.toList.length)
    ∧ Substituted code.toList (rewrite code.toList)
    ∧ List.Forall₂ Substituted (lines code.toList) (lines (rewrite code.toList))
    ∧ (∀ source ∈ sources code, ∀ l ∈ Lexeme.scan source, ∃ rest,
      rest <:+ source.toUTF8.toList ∧ l.line + Lexeme.lineBreaks rest = (lines code.toList).length)
    ∧ ∀ b mode budget message line, Sandbox.execute b mode budget code = .error
      (.script message line) → ∃ text context own, Told code mode text context own ∧
      (message, line) = locate text context
        ∧ (∀ n rest, n ≤ maxLine → text = chunkName ++ ":" ++ natText n ++ ":" ++ rest → line = n)
        ∧ (LineOf code line ∨ ∃ o, own o ∧ Tells o.toList line) := by
  -- There are as many steps as characters, and none of them is without one.
  have rewritten : rewriteFrom? code.toList code.toList.length 0 = some (rewrite code.toList) :=
    rewriteFrom?_eq (Nat.zero_le _) (Nat.le_add_left _ _)
  refine ⟨rewritten, fun i stop => literalEnd?_bounds, substituted_rewrite _,
    (substituted_rewrite _).lines, fun source mem l inside => lexeme_line mem inside, ?_⟩
  intro b mode budget message line error
  obtain ⟨text, context, own, told, same⟩ := told_of_execute error
  have reported : line = (locate text context).2 := congrArg Prod.snd same
  refine ⟨text, context, own, told, same, ?_, ?_⟩
  · intro n rest small front
    rw [reported, locate_position small front]
  · rw [reported]
    exact told.line

/-- What a run fails with. -/
def failureOf : Except Error Json → Option Error
  | .error e => some e
  | .ok _ => none

theorem eq_error_of_failureOf {r : Except Error Json} {e : Error} (failed : failureOf r = some e) :
    r = .error e := by
  cases r with
  | ok v => exact nomatch failed
  | error e' => rw [Option.some.inj failed]

theorem scan_eq_data : Lexeme.scan = fun source =>
    Lexeme.scanFrom (source.toUTF8.data.toList.length + 1) source.toUTF8.data.toList 1 := by
  funext source
  rw [Lexeme.scan, toList_eq_data]

/-- Scripts that fail on their second line: inside an assignment, and in a call at the end of the
script, which leaves no position. -/
theorem scripts_fail :
    failureOf (Sandbox.execute {} .expression 5000 "local x = 1\nlocal y = $('Missing')\nreturn y")
      = some (.script "Referenced node 'Missing' has not been executed" 2)
    ∧ failureOf (Sandbox.execute {} .expression 5000 "local x = 1\nreturn $('Missing')")
      = some (.script "Referenced node 'Missing' has not been executed" 1) := by
  -- The definitions are opened one at a time, down to the prelude, whose bytes are taken as they
  -- are stored: to ask for each of them by its place would take as long again for every byte in
  -- front of it.
  obtain ⟨execute, same⟩ : ∃ execute, Sandbox.execute = execute := ⟨_, rfl⟩
  rw [same]
  delta Sandbox.execute at same
  subst same
  obtain ⟨bind, same⟩ : ∃ bind, Session.bind = bind := ⟨_, rfl⟩
  rw [same]
  delta Session.bind at same
  subst same
  obtain ⟨run, same⟩ : ∃ run, Session.runPrelude = run := ⟨_, rfl⟩
  rw [same]
  delta Session.runPrelude at same
  subst same
  obtain ⟨read, same⟩ : ∃ read, prelude = read := ⟨_, rfl⟩
  rw [same]
  delta prelude Lua.parse at same
  rw [scan_eq_data] at same
  subst same
  decide +kernel

/-- The output of a node that has not run is asked for on the second line, and that is the line of
the error. -/
theorem missing_node_on_second_line : ∃ text context own,
    Told "local x = 1\nlocal y = $('Missing')\nreturn y" .expression text context own
      ∧ ("Referenced node 'Missing' has not been executed", 2) = locate text context := by
  obtain ⟨-, -, -, -, -, errors⟩ :=
    rewriting_keeps_lines "local x = 1\nlocal y = $('Missing')\nreturn y"
  obtain ⟨text, context, own, told, same, -⟩ :=
    errors {} .expression 5000 _ _ (eq_error_of_failureOf scripts_fail.1)
  exact ⟨text, context, own, told, same⟩

/-- The output of a node that has not run is asked for on the second of two lines, in a call at the
end of the script. Such a call leaves no position, and the error is told on the first line. -/
theorem missing_node_on_first_line :
    lines "local x = 1\nreturn $('Missing')".toList
      = ["local x = 1".toList, "return $('Missing')".toList]
    ∧ failureOf (Sandbox.execute {} .expression 5000 "local x = 1\nreturn $('Missing')")
      = some (.script "Referenced node 'Missing' has not been executed" 1) :=
  ⟨by decide +kernel, scripts_fail.2⟩

end Conveyor.Script
