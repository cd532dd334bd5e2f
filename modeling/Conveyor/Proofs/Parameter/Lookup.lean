/-
What a path finds.

A path can be walked: a key steps into the member of an object, a position to the entry of an array
(`walk`). It is looked up by way of a selector, and that differs from the walk in two ways. Keys
come back from the selector with their backslashes doubled, or not at all, and the latter is an
error. And a position selects from an object too: the entries at that position of all arrays among
its members.

A selector selects many values at a time, level by level, of which the first is taken. That is the
one which a search in depth comes to first (`head?_selectAll`), so what is found can be told along
the path. It is what the walk reaches, or it is found behind an object at which the walk ends with a
position (`Strays`, `first_eq_some_iff`).
-/
import Conveyor.Parameter.Resolver
import Conveyor.Proofs.Parameter.Selector

set_option autoImplicit false

namespace Conveyor.Parameter

namespace Path

/-! ## The walk -/

/-- One step: to the member of an object, or to the entry of an array. -/
def step? (v : Json) : Segment → Option Json
  | .key k => v.member? k
  | .index n => v.asArray?.bind (·[n]?)

/-- The value at the end of a path, if there is one. -/
def walk (root : Json) (path : Path) : Option Json := path.foldlM step? root

variable {root v w : Json} {s : Segment} {path rest : Path}

theorem walk_cons (root : Json) (s : Segment) (rest : Path) :
    walk root (s :: rest) = (step? root s).bind (walk · rest) := rfl

/-! ## The search -/

/-- The first value that a path selects: the selected values are searched in order, each of them to
the end of the path. -/
def first : Path → Json → Option Json
  | [], v => some v
  | s :: rest, v => (selectFrom v s).findSome? (first rest)

theorem findSome?_flatMap {α β γ : Type} (f : β → Option γ) (g : α → List β) (xs : List α) :
    (xs.flatMap g).findSome? f = xs.findSome? fun x => (g x).findSome? f := by
  simp only [← List.head?_filterMap, List.filterMap_flatMap, List.head?_flatMap]

/-- **What is selected first is what the search comes to first.** -/
theorem head?_selectAll (path : Path) (vs : List Json) :
    (selectAll vs path).head? = vs.findSome? (first path) := by
  induction path generalizing vs with
  | nil => cases vs <;> rfl
  | cons s rest ih => rw [selectAll, ih, findSome?_flatMap]; rfl

theorem lookup_eq_some_iff {found : Option Json} :
    lookup root path = some found ↔
      (∀ s ∈ path, s.Readable) ∧ first (path.map Segment.readBack) root = found := by
  rw [lookup, Option.map_eq_some_iff]
  constructor
  · rintro ⟨read, selector, rfl⟩
    obtain ⟨readable, rfl⟩ := mapM_selector?_eq_some_iff.1 selector
    exact ⟨readable, by rw [head?_selectAll, List.findSome?_singleton]⟩
  · rintro ⟨readable, rfl⟩
    exact ⟨_, mapM_selector?_eq_some_iff.2 ⟨readable, rfl⟩, by
      rw [head?_selectAll, List.findSome?_singleton]⟩

/-! ## Where the search leaves the walk -/

/-- The entries at a position of the arrays among the members of an object. -/
def entriesAt (o : Json.Object) (n : Nat) : List Json :=
  o.filterMap fun p => p.2.asArray?.bind (·[n]?)

/-- The walk comes to an object with a position to go to, and the value is the first that the rest
of the path finds among the entries there. -/
def Strays (root : Json) (path : Path) (v : Json) : Prop :=
  ∃ before n rest o, path = before ++ .index n :: rest ∧ walk root before = some (.obj o) ∧
    (entriesAt o n).findSome? (first rest) = some v

theorem not_strays_nil : ¬Strays root [] v := by
  rintro ⟨before, n, rest, o, split, -⟩
  exact absurd split.symm (List.append_ne_nil_of_right_ne_nil before (List.cons_ne_nil _ rest))

/-- A path strays at its first segment, or behind a step of the walk. -/
theorem strays_cons_iff :
    Strays root (s :: rest) v ↔
      (∃ n o, s = .index n ∧ root = .obj o ∧ (entriesAt o n).findSome? (first rest) = some v) ∨
        ∃ w, step? root s = some w ∧ Strays w rest v := by
  constructor
  · rintro ⟨before, n, behind, o, split, reached, found⟩
    cases before with
    | nil =>
      obtain ⟨rfl, rfl⟩ := List.cons.inj split
      exact .inl ⟨n, o, rfl, Option.some.inj reached, found⟩
    | cons t before =>
      obtain ⟨rfl, rfl⟩ := List.cons.inj split
      obtain ⟨w, stepped, reached⟩ := Option.bind_eq_some_iff.1 reached
      exact .inr ⟨w, stepped, before, n, behind, o, rfl, reached, found⟩
  · rintro (⟨n, o, rfl, rfl, found⟩ | ⟨w, stepped, before, n, behind, o, rfl, reached, found⟩)
    · exact ⟨[], n, rest, o, rfl, rfl, found⟩
    · exact ⟨s :: before, n, behind, o, rfl, by rw [walk_cons, stepped]; exact reached, found⟩

/-- At a position the search goes on where the walk does, unless it stands at an object. -/
theorem selectFrom_eq_toList (walks : ∀ n o, s = .index n → root ≠ .obj o) :
    selectFrom root s = (step? root s).toList := by
  cases s with
  | key k => rfl
  | index n =>
    cases root with
    | obj o => exact absurd rfl (walks n o rfl)
    | _ => rfl

theorem findSome?_toList {α β : Type} (f : α → Option β) (x : Option α) :
    x.toList.findSome? f = x.bind f := by
  cases x with
  | none => rfl
  | some a => exact List.findSome?_singleton

/-- **What is found first is what the walk reaches, or is found where it strays.** -/
theorem first_eq_some_iff : first path root = some v ↔ walk root path = some v ∨
    Strays root path v := by
  -- The induction is on the path. A position in an object is where the two part; otherwise both go
  -- to the same place.
  induction path generalizing root with
  | nil => exact (or_iff_left not_strays_nil).symm
  | cons s rest ih =>
    rw [first, walk_cons, strays_cons_iff]
    by_cases object : ∃ n o, s = .index n ∧ root = .obj o
    · -- The walk ends here, and the entries of the object are all there is to find.
      obtain ⟨n, o, rfl, rfl⟩ := object
      have stuck : step? (.obj o) (.index n) = none := rfl
      constructor
      · exact fun found => .inr (.inl ⟨n, o, rfl, rfl, found⟩)
      · rintro (reached | ⟨m, p, position, same, found⟩ | ⟨w, stepped, -⟩)
        · rw [stuck] at reached
          cases reached
        · obtain rfl := Segment.index.inj position
          obtain rfl := Json.obj.inj same
          exact found
        · rw [stuck] at stepped
          cases stepped
    · have walks : ∀ n o, s = .index n → root ≠ .obj o :=
        fun n o position same => object ⟨n, o, position, same⟩
      rw [selectFrom_eq_toList walks, findSome?_toList, Option.bind_eq_some_iff,
        Option.bind_eq_some_iff]
      simp only [ih, and_or_left, exists_or]
      refine or_congr_right (or_iff_right ?_).symm
      rintro ⟨n, o, position, same, -⟩
      exact walks n o position same

/-- A walk that strays does not reach the end of the path. -/
theorem walk_of_strays (strays : Strays root path v) : walk root path = none := by
  induction path generalizing root with
  | nil => exact absurd strays not_strays_nil
  | cons s rest ih =>
    rw [walk_cons]
    rcases strays_cons_iff.1 strays with ⟨n, o, rfl, rfl, -⟩ | ⟨w, stepped, strays⟩
    · rfl
    · rw [stepped]
      exact ih strays

theorem first_eq_walk_iff : first path root = walk root path ↔ ∀ v, ¬Strays root path v := by
  constructor
  · intro same v strays
    have found := first_eq_some_iff.2 (.inr strays)
    rw [same, walk_of_strays strays] at found
    cases found
  · intro straight
    refine Option.ext fun v => ?_
    exact first_eq_some_iff.trans (or_iff_left (straight v))

/-! ## Values in which a path goes wrong -/

/-- A value in which a path leads to null. -/
def laid : Path → Json
  | [] => .null
  | .key k :: rest => .obj [(k, laid rest)]
  | .index n :: rest => .arr (List.replicate n .null ++ [laid rest])

theorem step?_key (k : String) (v : Json) : step? (.obj [(k, v)]) (.key k) = some v := by
  change Named.get? [(k, v)] k = some v
  rw [Named.get?_cons, if_pos (beq_self_eq_true k)]

theorem step?_index (n : Nat) (v : Json) :
    step? (.arr (List.replicate n .null ++ [v])) (.index n) = some v := by
  change (List.replicate n Json.null ++ [v])[n]? = some v
  rw [List.getElem?_append_right (by rw [List.length_replicate]), List.length_replicate,
    Nat.sub_self]
  rfl

theorem step?_laid (s : Segment) (rest : Path) : step? (laid (s :: rest)) s = some (laid rest) := by
  cases s with
  | key k => exact step?_key k (laid rest)
  | index n => exact step?_index n (laid rest)

theorem walk_laid (path : Path) : walk (laid path) path = some .null := by
  induction path with
  | nil => rfl
  | cons s rest ih => rw [walk_cons, step?_laid]; exact ih

/-- Where a key does not come back, nothing is found in the value that the path leads through. -/
theorem first_readBack_laid (altered : ∃ s ∈ path, s.readBack ≠ s) :
    first (path.map Segment.readBack) (laid path) = none := by
  induction path with
  | nil =>
    obtain ⟨s, mem, -⟩ := altered
    exact absurd mem List.not_mem_nil
  | cons s rest ih =>
    rw [List.map_cons, first]
    -- The search follows the path up to the first segment that is altered, and there it finds no
    -- member.
    by_cases here : s.readBack = s
    · have later : ∃ s ∈ rest, s.readBack ≠ s := by
        obtain ⟨t, mem, other⟩ := altered
        rcases List.mem_cons.1 mem with rfl | mem
        · exact absurd here other
        · exact ⟨t, mem, other⟩
      have walks : ∀ n o, s = .index n → laid (s :: rest) ≠ .obj o := by
        rintro n o rfl
        exact nofun
      rw [here, selectFrom_eq_toList walks, step?_laid]
      exact List.findSome?_singleton.trans (ih later)
    · cases s with
      | key k =>
        have missing : selectFrom (laid (.key k :: rest)) (Segment.readBack (.key k)) = [] := by
          have differ : String.ofList (doubled k.toList) ≠ k :=
            fun same => here (congrArg Segment.key same)
          change (Named.get? [(k, laid rest)] (String.ofList (doubled k.toList))).toList = []
          rw [Named.get?_cons, if_neg (mt eq_of_beq differ)]
          rfl
        rw [missing]
        rfl
      | index n => exact absurd rfl here

/-- A value in which a path strays to null at its first position. -/
def astray : Path → Json
  | [] => .null
  | .key k :: rest => .obj [(k, astray rest)]
  | .index n :: rest => .obj [("", laid (.index n :: rest))]

theorem strays_astray (position : ∃ n, .index n ∈ path) : Strays (astray path) path .null := by
  induction path with
  | nil =>
    obtain ⟨n, mem⟩ := position
    exact absurd mem List.not_mem_nil
  | cons s rest ih =>
    rw [strays_cons_iff]
    cases s with
    | key k =>
      obtain ⟨n, mem⟩ := position
      exact .inr ⟨_, step?_key k (astray rest), ih ⟨n, (List.mem_cons.1 mem).resolve_left nofun⟩⟩
    | index n =>
      have entries : entriesAt [("", laid (.index n :: rest))] n = [laid rest] :=
        List.filterMap_cons_some (step?_index n (laid rest))
      refine .inl ⟨n, _, rfl, rfl, ?_⟩
      rw [entries, List.findSome?_singleton]
      exact first_eq_some_iff.2 (.inl (walk_laid rest))

end Path

open Conveyor.Parameter.Path

variable {root : Json} {segments : Path} {path : String}

theorem find_eq_ok_iff {found : Option Json} :
    find root segments path = .ok found ↔
      (∀ s ∈ segments, s.Readable) ∧ first (segments.map Segment.readBack) root = found := by
  rw [← lookup_eq_some_iff, find]
  cases lookup root segments with
  | none => exact iff_of_false nofun nofun
  | some v => rw [Except.ok.injEq, Option.some.injEq]

theorem find_eq_error_iff {e : Error} :
    find root segments path = .error e ↔ e = .unreadableSelector path ∧
      ∃ s ∈ segments, ¬s.Readable := by
  rw [← mapM_selector?_eq_none_iff, find, lookup]
  cases segments.mapM selector? with
  | none =>
    exact ⟨fun failed => ⟨(Except.error.inj failed).symm, rfl⟩, fun failed => failed.1 ▸ rfl⟩
  | some read => exact iff_of_false nofun fun failed => nomatch failed.2

/-- A path of plain segments is looked up as it is walked, unless it strays. -/
theorem find_eq_walk_iff (plain : ∀ s ∈ segments, s.Plain) :
    find root segments path = .ok (walk root segments) ↔ ∀ v, ¬Strays root segments v := by
  rw [find_eq_ok_iff, map_readBack_of_plain plain, first_eq_walk_iff]
  exact and_iff_right fun s mem => (Segment.plain_iff.1 (plain s mem)).1

/-- The paths that are looked up as they are walked in every value are those of plain keys. -/
theorem forall_find_eq_walk_iff :
    (∀ value, find value segments path = .ok (walk value segments)) ↔ ∀ s ∈ segments, s.Plain ∧
      ∃ k, s = .key k := by
  constructor
  · intro walked
    -- A segment that is altered misses the value that the path leads through.
    have plain : ∀ s ∈ segments, s.Plain := by
      obtain ⟨readable, found⟩ := find_eq_ok_iff.1 (walked (laid segments))
      rw [walk_laid] at found
      intro s mem
      refine Segment.plain_iff.2 ⟨readable s mem, ?_⟩
      by_contra altered
      rw [first_readBack_laid ⟨s, mem, altered⟩] at found
      cases found
    refine fun s mem => ⟨plain s mem, ?_⟩
    -- A position finds something in the value in which the path strays at it.
    cases s with
    | key k => exact ⟨k, rfl⟩
    | index n => exact absurd (strays_astray ⟨n, mem⟩) ((find_eq_walk_iff plain).1
      (walked (astray segments)) .null)
  · intro keys value
    refine (find_eq_walk_iff fun s mem => (keys s mem).1).2 ?_
    rintro v ⟨before, n, rest, o, rfl, -⟩
    obtain ⟨-, k, same⟩ := keys (.index n) (List.mem_append_right before List.mem_cons_self)
    cases same

/-- **What is found.** A path finds what the walk reaches, or what is found where the walk strays,
with the keys that come back from the selector; it fails exactly if a segment makes the selector
unreadable. So a path of plain segments is looked up as it is walked unless it strays. And the paths
that are looked up as they are walked in every value are those of plain keys. -/
theorem find_walk_iff (root : Json) (segments : Path) (path : String) :
    (∀ v, find root segments path = .ok (some v) ↔ (∀ s ∈ segments, s.Readable) ∧
      (walk root (segments.map Segment.readBack) = some v ∨ Strays root
        (segments.map Segment.readBack) v)) ∧
    (∀ e, find root segments path = .error e ↔ e = .unreadableSelector path ∧
      ∃ s ∈ segments, ¬s.Readable) ∧
    ((∀ s ∈ segments, s.Plain) →
      (find root segments path = .ok (walk root segments) ↔ ∀ v, ¬Strays root segments v)) ∧
    ((∀ value, find value segments path = .ok (walk value segments)) ↔
      ∀ s ∈ segments, s.Plain ∧ ∃ k, s = .key k) := by
  refine ⟨fun v => ?_, fun e => find_eq_error_iff, find_eq_walk_iff, forall_find_eq_walk_iff⟩
  rw [find_eq_ok_iff, first_eq_some_iff]

/-! ## Paths that find something else -/

namespace Crate

/-- Boxes by name, among them one whose name has a quote in it. -/
def boxes : Json :=
  .obj [("it's", .arr [.null, .obj [("label", .str "x")]]),
    ("lots", .obj [("size", .str "l"), ("a", .arr [.str "y"])]), ("a\\b", .str "z"),
    ("'c'", .str "w")]

/-- A label by way of a quote and a position. -/
def label : Path := [.key "it's", .index 1, .key "label"]

end Crate

/-- A position in an array and a single quote in a key are looked up as they are walked. -/
theorem label_found : (∀ s ∈ Crate.label, s.Plain) ∧ (∀ v, ¬Strays Crate.boxes Crate.label v) ∧
    find Crate.boxes Crate.label "it's[1].label" = .ok (some (.str "x")) := by
  have plain : ∀ s ∈ Crate.label, s.Plain := by
    simp only [Crate.label, List.forall_mem_cons, List.not_mem_nil, false_imp_iff,
      implies_true, and_true]
    exact ⟨⟨by decide, by decide⟩, (by decide : 1 ≤ maxPosition), by decide, by decide⟩
  have straight : ∀ v, ¬Strays Crate.boxes Crate.label v := first_eq_walk_iff.1 rfl
  exact ⟨plain, straight,
    ((find_walk_iff Crate.boxes Crate.label "it's[1].label").2.2.1 plain).2 straight⟩

/-- **A position finds something in an object**, where the walk ends. The walk goes on at keys with
a backslash or with two quotes, and of these the one finds nothing and the other is an error. -/
theorem position_in_object :
    (find Crate.boxes [.key "lots", .index 0] "lots[0]" = .ok (some (.str "y")) ∧
      walk Crate.boxes [.key "lots", .index 0] = none) ∧
    (find Crate.boxes [.key "a\\b"] "a\\b" = .ok none ∧
      walk Crate.boxes [.key "a\\b"] = some (.str "z")) ∧
    find Crate.boxes [.key "'c'"] "'c'" = .error (.unreadableSelector "'c'") ∧
      walk Crate.boxes [.key "'c'"] = some (.str "w") :=
  ⟨⟨rfl, rfl⟩, ⟨rfl, rfl⟩, rfl, rfl⟩

end Conveyor.Parameter
