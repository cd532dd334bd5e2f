/-
Tables are read in any order.

The entries of a table come in an order that a script cannot know, in every table in its own.
Whether a value can be read does not depend on these orders (`fails_extractIn_iff`). What it is read
as may: keys of different kinds can have the same name, `1` and `"1"` say, and of entries that an
object would have under one name only the last is left. That is the only way in which an entry is
lost (`Clear`). Where it does not happen, what is read holds every entry that has a name and a JSON
form, those of an array by their positions (`Kept`), and any two values that hold all of the same
tables are equal (`equal_of_kept`).
-/
import Conveyor.Proofs.Json.Equivalence
import Conveyor.Proofs.Lua.Exchange

set_option autoImplicit false

namespace Conveyor

namespace Lua

variable {h : Heap} {order order' : Nat → List (Key × Value)} {levels : Nat} {v : Value}
  {x y : Json}

/-! ## Orders -/

/-- An order for the entries of every table of a store, which are told apart by their places. -/
def Heap.Enumerates (h : Heap) (order : Nat → List (Key × Value)) : Prop :=
  ∀ ref, (order ref).Perm (h.table ref).entries

/-- The JSON form of a value, if it has one, with the entries of every table in an order of its own.
What is no table, or lies too deep, is read without one. -/
def extractIn (order : Nat → List (Key × Value)) (h : Heap) :
    (levels : Nat) → Value → Except ExchangeError (Option Json)
  | levels + 1, .table ref =>
    (extractEntries (extractIn order h levels) ((h.table ref).metatable == some h.arrayMark)
      (order ref)).map some
  | levels, v => extractWith (fun _ => []) h levels v

/-- An order that is up to the tables is one of these. -/
theorem extractWith_eq (enumerate : Table → List (Key × Value)) (h : Heap) (levels : Nat) :
    extractWith enumerate h levels = extractIn (fun ref => enumerate (h.table ref)) h levels := by
  induction levels with
  | zero =>
    funext v
    cases v <;> rfl
  | succ levels ih =>
    funext v
    cases v with
    | table ref => rw [extractWith, extractIn, ih]
    | nil | bool | int | float | str | null | function => rfl

/-! ## What has a form and a name -/

/-- Whether a value has a JSON form: all but `nil` and functions. -/
def Value.hasForm : Value → Bool
  | .nil | .function _ => false
  | _ => true

/-- Whether a key has a name in an object. -/
def Key.hasName : Key → Bool
  | .str _ | .int _ | .float _ => true
  | _ => false

theorem map_some_ne_none {α β : Type} (f : α → β) (r : Except ExchangeError α) :
    r.map (fun a => some (f a)) ≠ .ok none := by
  cases r <;> simp [Except.map]

theorem extractIn_eq_none_iff : extractIn order h levels v = .ok none ↔ v.hasForm = false := by
  cases v with
  | nil | function => exact iff_of_true (by cases levels <;> rfl) rfl
  | bool | int | float | null => exact iff_of_false (by cases levels <;> exact nofun) nofun
  | str s => exact iff_of_false (by cases levels <;> exact map_some_ne_none _ _) nofun
  | table ref =>
    refine iff_of_false ?_ nofun
    cases levels with
    | zero => exact nofun
    | succ levels => exact map_some_ne_none id _

theorem memberName_eq_none_iff {k : Key} : memberName k = .ok none ↔ k.hasName = false := by
  cases k with
  | str s => exact iff_of_false (map_some_ne_none id _) nofun
  | int | float => exact iff_of_false nofun nofun
  | bool | null | table | function => exact iff_of_true rfl rfl

/-- What was found was there. -/
theorem eq_true_of_some {α : Type} {r : Except ExchangeError (Option α)} {a : α} {there : Bool}
    (absent : r = .ok none ↔ there = false) (found : r = .ok (some a)) : there = true := by
  refine Bool.eq_true_of_not_eq_false fun missing => ?_
  cases found.symm.trans (absent.2 missing)

/-- Whether an entry is one that an object can hold: it needs a name and a form. -/
def Listed (p : Key × Value) : Bool := p.1.hasName && p.2.hasForm

/-! ## Reading entries one after the other -/

section Entries

variable {read : Value → Except ExchangeError (Option Json)} {entries : List (Key × Value)}

/-- Reading fails. -/
def Fails {α : Type} (r : Except ExchangeError α) : Prop := ∃ e, r = .error e

theorem fails_error {α : Type} (e : ExchangeError) : Fails (.error e : Except ExchangeError α) :=
  ⟨e, rfl⟩

theorem not_fails_ok {α : Type} (a : α) : ¬Fails (.ok a : Except ExchangeError α) := by
  rintro ⟨e, failed⟩
  cases failed

theorem fails_map_iff {α β : Type} {f : α → β} {r : Except ExchangeError α} :
    Fails (r.map f) ↔ Fails r := by
  cases r with
  | ok a => exact iff_of_false (not_fails_ok _) (not_fails_ok a)
  | error e => exact iff_of_true (fails_error e) (fails_error e)

theorem fails_extractItems_iff : Fails (extractItems read entries) ↔
    ∃ p ∈ entries, Fails (read p.2) := by
  induction entries with
  | nil =>
    refine iff_of_false (not_fails_ok []) ?_
    rintro ⟨p, mem, -⟩
    cases mem
  | cons p entries ih =>
    obtain ⟨k, v⟩ := p
    rw [List.exists_mem_cons_iff, ← ih, extractItems]
    cases read v with
    | error e => exact iff_of_true (fails_error e) (.inl (fails_error e))
    | ok x =>
      refine Iff.trans ?_ (or_iff_right (not_fails_ok x)).symm
      exact fails_map_iff (f := (x.toList ++ ·))

/-- Whether an entry of an object cannot be read: its name is no text, or it has a name and its
value cannot be read. -/
def MemberFails (read : Value → Except ExchangeError (Option Json)) (p : Key × Value) : Prop :=
  Fails (memberName p.1) ∨ p.1.hasName = true ∧ Fails (read p.2)

theorem fails_extractMembers_iff {o : Json.Object} :
    Fails (extractMembers read o entries) ↔ ∃ p ∈ entries, MemberFails read p := by
  induction entries generalizing o with
  | nil =>
    refine iff_of_false (not_fails_ok o) ?_
    rintro ⟨p, mem, -⟩
    cases mem
  | cons p entries ih =>
    obtain ⟨k, v⟩ := p
    rw [List.exists_mem_cons_iff, extractMembers, MemberFails]
    -- An entry is looked at in this order: its name, its value, and whether the value has a form.
    cases named : memberName k with
    | error e => exact iff_of_true (fails_error e) (.inl (.inl (fails_error e)))
    | ok name =>
      cases name with
      | none =>
        have nameless : ¬k.hasName = true := by simp [memberName_eq_none_iff.1 named]
        exact ih.trans
          (or_iff_right (not_or.2 ⟨not_fails_ok none, fun both => nameless both.1⟩)).symm
      | some name =>
        have known : k.hasName = true := eq_true_of_some memberName_eq_none_iff named
        cases read v with
        | error e => exact iff_of_true (fails_error e) (.inl (.inr ⟨known, fails_error e⟩))
        | ok x =>
          have unread : ¬(k.hasName = true ∧ Fails (.ok x : Except ExchangeError (Option Json))) :=
            fun both => not_fails_ok x both.2
          refine Iff.trans ?_ (or_iff_right (not_or.2 ⟨not_fails_ok (some name), unread⟩)).symm
          cases x with
          | none => exact ih
          | some x => exact ih

/-- Entries of an array are read one by one, and those without a form are left out. -/
theorem extractItems_forall₂ (omitted : ∀ v, read v = .ok none ↔ v.hasForm = false) {xs : List Json}
    (done : extractItems read entries = .ok xs) :
    List.Forall₂ (fun p x => read p.2 = .ok (some x)) (entries.filter (·.2.hasForm)) xs := by
  induction entries generalizing xs with
  | nil =>
    obtain rfl := Except.ok.inj done
    exact .nil
  | cons p entries ih =>
    obtain ⟨k, v⟩ := p
    rw [extractItems] at done
    -- The first failure would end the loop, so each entry that was passed was read.
    cases found : read v with
    | error e =>
      rw [found] at done
      cases done
    | ok x =>
      rw [found] at done
      cases later : extractItems read entries with
      | error e =>
        rw [later] at done
        cases done
      | ok ys =>
        rw [later] at done
        obtain rfl := Except.ok.inj done
        cases x with
        | none =>
          rw [List.filter_cons_of_neg (by simp [(omitted v).1 found])]
          exact ih later
        | some x =>
          have formed : v.hasForm = true := eq_true_of_some (omitted v) found
          rw [List.filter_cons_of_pos (a := (k, v)) formed]
          exact .cons found (ih later)

/-- Entries of an object are read one by one, and those without a name or a form are left out; what
was read is set in this order. -/
theorem extractMembers_forall₂ (omitted : ∀ v, read v = .ok none ↔ v.hasForm = false)
    {o o' : Json.Object} (done : extractMembers read o entries = .ok o') :
    ∃ ms : Json.Object, o' = ms.foldl (fun m q => m.insert q.1 q.2) o ∧
      List.Forall₂ (fun p q => memberName p.1 = .ok (some q.1) ∧ read p.2 = .ok (some q.2))
        (entries.filter Listed) ms := by
  induction entries generalizing o with
  | nil =>
    obtain rfl := Except.ok.inj done
    exact ⟨[], rfl, .nil⟩
  | cons p entries ih =>
    obtain ⟨k, v⟩ := p
    rw [extractMembers] at done
    -- An entry is listed only if it has a name and its value a form; any other is skipped.
    cases named : memberName k with
    | error e =>
      rw [named] at done
      cases done
    | ok name =>
      rw [named] at done
      cases name with
      | none =>
        have unlisted : ¬Listed (k, v) = true := by simp [Listed, memberName_eq_none_iff.1 named]
        rw [List.filter_cons_of_neg unlisted]
        exact ih done
      | some name =>
        cases found : read v with
        | error e =>
          simp only [found, bind, Except.bind, reduceCtorEq] at done
        | ok x =>
          simp only [found, bind, Except.bind] at done
          cases x with
          | none =>
            have unlisted : ¬Listed (k, v) = true := by simp [Listed, (omitted v).1 found]
            rw [List.filter_cons_of_neg unlisted]
            exact ih done
          | some x =>
            have listed : Listed (k, v) = true := Bool.and_eq_true_iff.2
              ⟨eq_true_of_some memberName_eq_none_iff named, eq_true_of_some (omitted v) found⟩
            obtain ⟨ms, whole, read'⟩ := ih done
            rw [List.filter_cons_of_pos listed]
            exact ⟨(name, x) :: ms, whole, .cons ⟨named, found⟩ read'⟩

end Entries

/-! ## Tables that become arrays -/

/-- The entries that an object can hold. -/
def Table.listed (t : Table) : List (Key × Value) := t.entries.filter Listed

/-- Whether a table becomes an array. -/
def Heap.isArray (h : Heap) (ref : Nat) : Bool :=
  if (h.table ref).entries.isEmpty then (h.table ref).metatable == some h.arrayMark
  else areSequence ((h.table ref).entries.map Prod.fst)

/-- The position of an entry of an array. -/
def place (p : Key × Value) : Int := (position? p.1).getD 0

/-- Entries in the order of their positions. -/
def placed (entries : List (Key × Value)) : List (Key × Value) :=
  entries.mergeSort fun a b => decide (place a ≤ place b)

theorem areSequence_perm {keys keys' : List Key} (moved : keys.Perm keys') :
    areSequence keys = areSequence keys' := by
  unfold areSequence
  rw [moved.length_eq]
  exact moved.all_eq

variable {read : Value → Except ExchangeError (Option Json)} {ref : Nat}
  {entries : List (Key × Value)}

/-- How a table is read is settled by its entries, whatever order they come in. -/
theorem extractEntries_eq (moved : entries.Perm (h.table ref).entries) :
    extractEntries read ((h.table ref).metatable == some h.arrayMark) entries =
      if h.isArray ref then (extractItems read (placed entries)).map .arr
      else (extractMembers read [] entries).map .obj := by
  unfold extractEntries Heap.isArray
  rw [← moved.isEmpty_eq, areSequence_perm (moved.map Prod.fst)]
  cases entries with
  | nil =>
    -- Without entries the mark decides.
    have none : placed [] = [] := List.mergeSort_nil
    rw [List.isEmpty_nil, if_pos rfl, if_pos rfl, none]
    cases (h.table ref).metatable == some h.arrayMark with
    | true => rfl
    | false => rfl
  | cons p entries => rfl

theorem position?_eq_some {k : Key} {n : Int} (found : position? k = some n) :
    ∃ i, k = .int i ∧ n = i.toInt := by
  cases k with
  | int i =>
    rw [position?] at found
    by_cases positive : 1 ≤ i.toInt
    · rw [if_pos positive] at found
      exact ⟨i, rfl, (Option.some.inj found).symm⟩
    · rw [if_neg positive] at found
      cases found
  | bool | float | str | null | table | function => cases found

theorem position_of_isArray (array : h.isArray ref = true) {p : Key × Value}
    (mem : p ∈ (h.table ref).entries) :
    ∃ i, p.1 = .int i ∧ position? p.1 = some i.toInt := by
  have some : ¬(h.table ref).entries.isEmpty = true := fun none => by
    rw [List.isEmpty_iff.1 none] at mem
    cases mem
  rw [Heap.isArray, if_neg some, areSequence, List.all_eq_true] at array
  have counted := array p.1 (List.mem_map_of_mem mem)
  cases found : position? p.1 with
  | none =>
    rw [found] at counted
    cases counted
  | some n =>
    obtain ⟨i, key, rfl⟩ := position?_eq_some found
    exact ⟨i, key, rfl⟩

/-- Different entries of an array have different positions. -/
theorem key_eq_of_place_eq (array : h.isArray ref = true) {p q : Key × Value}
    (hp : p ∈ (h.table ref).entries) (hq : q ∈ (h.table ref).entries) (same : place p = place q) :
    p.1 = q.1 := by
  obtain ⟨i, keyP, positionP⟩ := position_of_isArray array hp
  obtain ⟨j, keyQ, positionQ⟩ := position_of_isArray array hq
  rw [place, place, positionP, positionQ, Option.getD_some, Option.getD_some] at same
  rw [keyP, keyQ, Int64.toInt_inj.1 same]

/-- In order, the entries of an array stand at ever greater positions. -/
theorem pairwise_placed (array : h.isArray ref = true) (sound : (h.table ref).Sound)
    (moved : entries.Perm (h.table ref).entries) :
    (placed entries).Pairwise fun p q => place p < place q := by
  have perm : (placed entries).Perm (h.table ref).entries := (List.mergeSort_perm _ _).trans moved
  have ordered : (placed entries).Pairwise fun p q => place p ≤ place q :=
    pairwise_mergeSort_position entries
  have distinct : (placed entries).Pairwise fun p q => p.1 ≠ q.1 :=
    List.pairwise_map.1 ((perm.map Prod.fst).nodup_iff.2 sound.nodup_keys)
  refine (ordered.and distinct).imp_of_mem fun hp hq both => lt_of_le_of_ne both.1 fun same => ?_
  exact both.2 (key_eq_of_place_eq array (perm.mem_iff.1 hp) (perm.mem_iff.1 hq) same)

/-- Entries of an array have names, so what they need to be kept is a form. -/
theorem filter_listed_of_isArray (array : h.isArray ref = true)
    (moved : entries.Perm (h.table ref).entries) :
    ((placed entries).filter (·.2.hasForm)).Perm (h.table ref).listed := by
  have perm : (placed entries).Perm (h.table ref).entries := (List.mergeSort_perm _ _).trans moved
  have same : (h.table ref).listed = (h.table ref).entries.filter (·.2.hasForm) := by
    refine List.filter_congr fun p mem => ?_
    obtain ⟨i, key, -⟩ := position_of_isArray array mem
    rw [Listed, key]
    rfl
  rw [same]
  exact perm.filter _

/-! ## Failures -/

/-- **Whether a value can be read is not up to the order.** -/
theorem fails_extractIn_iff (enumerates : h.Enumerates order) (enumerates' : h.Enumerates order')
    (v : Value) :
    Fails (extractIn order h levels v) ↔ Fails (extractIn order' h levels v) := by
  induction levels generalizing v with
  | zero => cases v <;> exact Iff.rfl
  | succ levels ih =>
    cases v with
    | nil | bool | int | float | str | null | function => exact Iff.rfl
    | table ref =>
      have moved := enumerates ref
      have moved' := enumerates' ref
      rw [extractIn, extractIn, fails_map_iff, fails_map_iff, extractEntries_eq moved,
        extractEntries_eq moved']
      by_cases array : h.isArray ref = true
      · have mem : ∀ p, p ∈ placed (order ref) ↔ p ∈ placed (order' ref) := fun p => by
          rw [placed, placed, List.mem_mergeSort, List.mem_mergeSort, moved.mem_iff, moved'.mem_iff]
        rw [if_pos array, if_pos array, fails_map_iff, fails_map_iff, fails_extractItems_iff,
          fails_extractItems_iff]
        exact exists_congr fun p => and_congr (mem p) (ih p.2)
      · rw [if_neg array, if_neg array, fails_map_iff, fails_map_iff, fails_extractMembers_iff,
          fails_extractMembers_iff]
        refine exists_congr fun p => and_congr (by rw [moved.mem_iff, moved'.mem_iff]) ?_
        exact or_congr_right (and_congr_right' (ih p.2))

/-! ## What holds all entries -/

/-- Different entries that an object holds have different names, in all tables that become objects
on the way. -/
def Clear (h : Heap) : (levels : Nat) → Value → Prop
  | levels + 1, .table ref =>
    (h.isArray ref = false → ((h.table ref).listed.map fun p => memberName p.1).Nodup) ∧
      ∀ p ∈ (h.table ref).listed, Clear h levels p.2
  | _, _ => True

/-- A JSON value that holds all of a value: of a table every entry that has a name and a form, those
of an array by their positions and those of an object under their names, each of which stands
once. -/
def Kept (h : Heap) : (levels : Nat) → Value → Json → Prop
  | levels + 1, .table ref, x => ∃ entries, entries.Perm (h.table ref).listed ∧
      if h.isArray ref then
        entries.Pairwise (fun p q => place p < place q) ∧
          ∃ xs, x = .arr xs ∧ List.Forall₂ (fun p y => Kept h levels p.2 y) entries xs
      else ∃ o : Json.Object, x = .obj o ∧ o.names.Nodup ∧
        List.Forall₂ (fun p q => memberName p.1 = .ok (some q.1) ∧ Kept h levels p.2 q.2) entries o
  | levels, v, x => extractWith (fun _ => []) h levels v = .ok (some x)

/-- Entries have different names if members that have their names do. -/
theorem nodup_names_iff {entries : List (Key × Value)} {o : Json.Object}
    (named : List.Forall₂ (fun p q => memberName p.1 = .ok (some q.1)) entries o) :
    (entries.map fun p => memberName p.1).Nodup ↔ o.names.Nodup := by
  have same : entries.map (fun p => memberName p.1) = o.names.map fun name => .ok (some name) := by
    rw [Named.names, List.map_map]
    exact List.forall₂_eq_eq_eq ▸ List.forall₂_map_left_iff.2 (List.forall₂_map_right_iff.2 named)
  rw [same]
  refine List.nodup_map_iff fun a b equal => ?_
  exact Option.some.inj (Except.ok.inj equal)

theorem exists_ok_of_map {α : Type} {f : α → Json} {r : Except ExchangeError α}
    (done : (r.map f).map some = .ok (some x)) : ∃ a, r = .ok a ∧ x = f a := by
  cases r with
  | error e => cases done
  | ok a => exact ⟨a, rfl, (Option.some.inj (Except.ok.inj done)).symm⟩

/-- Where names are different, nothing is lost. -/
theorem kept_of_clear (sound : ∀ ref, (h.table ref).Sound) (enumerates : h.Enumerates order)
    (clear : Clear h levels v) (done : extractIn order h levels v = .ok (some x)) :
    Kept h levels v x := by
  induction levels generalizing v x with
  | zero => cases v <;> exact done
  | succ levels ih =>
    cases v with
    | nil | bool | int | float | str | null | function => exact done
    | table ref =>
      have moved := enumerates ref
      obtain ⟨names, inside⟩ := clear
      rw [extractIn, extractEntries_eq moved] at done
      rw [Kept]
      cases array : h.isArray ref with
      | true =>
        rw [array, if_pos rfl] at done
        obtain ⟨xs, read, rfl⟩ := exists_ok_of_map done
        have perm := filter_listed_of_isArray array moved
        have clear : ∀ p ∈ (placed (order ref)).filter (·.2.hasForm), Clear h levels p.2 :=
          fun p mem => inside p (perm.mem_iff.1 mem)
        have held := extractItems_forall₂ (fun v => extractIn_eq_none_iff) read
        refine ⟨_, perm, ?_⟩
        rw [if_pos rfl]
        refine ⟨(pairwise_placed array (sound ref) moved).filter _, xs, rfl, ?_⟩
        exact ((List.forall₂_and_left _ _).2 ⟨clear, held⟩).imp fun p y both => ih both.1 both.2
      | false =>
        rw [array, if_neg Bool.false_ne_true] at done
        obtain ⟨o, read, rfl⟩ := exists_ok_of_map done
        have perm : ((order ref).filter Listed).Perm (h.table ref).listed := moved.filter _
        have clear : ∀ p ∈ (order ref).filter Listed, Clear h levels p.2 :=
          fun p mem => inside p (perm.mem_iff.1 mem)
        obtain ⟨ms, rfl, held⟩ := extractMembers_forall₂ (fun v => extractIn_eq_none_iff) read
        -- No name comes twice, so no member is set over another one.
        have distinct : ms.names.Nodup := (nodup_names_iff (held.imp fun _ _ both => both.1)).1
          ((perm.map fun p => memberName p.1).nodup_iff.2 (names array))
        have all : ms.foldl (fun (o : Json.Object) q => o.insert q.1 q.2) [] = ms :=
          Named.foldl_insert_fresh (m := []) distinct
        refine ⟨_, perm, ?_⟩
        rw [if_neg Bool.false_ne_true, all]
        refine ⟨ms, rfl, distinct, ?_⟩
        exact ((List.forall₂_and_left _ _).2 ⟨clear, held⟩).imp fun p q both =>
          ⟨both.2.1, ih both.1 both.2.2⟩

/-- Where nothing is lost, names are different. -/
theorem clear_of_kept (kept : Kept h levels v x) : Clear h levels v := by
  induction levels generalizing v x with
  | zero => cases v <;> trivial
  | succ levels ih =>
    cases v with
    | nil | bool | int | float | str | null | function => trivial
    | table ref =>
      rw [Kept] at kept
      obtain ⟨entries, perm, kept⟩ := kept
      -- Only the members of an object are told apart by names, so of an array nothing is asked but
      -- for what is in it.
      cases array : h.isArray ref with
      | true =>
        rw [array, if_pos rfl] at kept
        obtain ⟨-, xs, -, held⟩ := kept
        refine ⟨fun object => ?_, fun p mem => ?_⟩
        · cases array.symm.trans object
        · obtain ⟨y, -, kept⟩ := Json.related held (perm.mem_iff.2 mem)
          exact ih kept
      | false =>
        rw [array, if_neg Bool.false_ne_true] at kept
        obtain ⟨o, -, distinct, held⟩ := kept
        refine ⟨fun _ => ?_, fun p mem => ?_⟩
        · refine (perm.map fun p => memberName p.1).nodup_iff.1 ?_
          exact (nodup_names_iff (held.imp fun _ _ both => both.1)).2 distinct
        · obtain ⟨q, -, -, kept⟩ := Json.related held (perm.mem_iff.2 mem)
          exact ih kept

theorem valid_ofFloat (x : Float) : (Json.ofFloat x).Valid := by
  unfold Json.ofFloat
  cases known : Decimal.Binary.ofFloat? x with
  | none => exact .null
  | some b =>
    have finite : Decimal.Finite x := Option.ne_none_iff_exists'.2 ⟨b, known⟩
    simp only
    split
    · split
      · refine .num (show Json.minInt ≤ _ ∧ _ ≤ Json.maxInt from ?_)
        rw [Json.minInt, Json.maxInt]
        omega
      · exact .num finite
    · exact .num finite

/-- What is no table is read as a value that the program can hold. -/
theorem valid_of_scalar (scalar : ∀ ref, v ≠ .table ref)
    (done : extractWith (fun _ => []) h levels v = .ok (some x)) : x.Valid := by
  cases v with
  | nil | function =>
    rw [extractWith] at done
    cases done
  | bool b =>
    rw [extractWith] at done
    cases done
    exact .bool b
  | int i =>
    rw [extractWith] at done
    -- Only an integer has a bound to keep: it is one of 64 bits.
    cases done
    refine .num (show Json.minInt ≤ _ ∧ _ ≤ Json.maxInt from ?_)
    have lower := i.le_toInt
    have upper := i.toInt_lt
    rw [Json.minInt, Json.maxInt]
    omega
  | float x =>
    rw [extractWith] at done
    cases done
    exact valid_ofFloat x
  | str s =>
    rw [extractWith] at done
    cases text : textOf s with
    | error e =>
      rw [text] at done
      cases done
    | ok t =>
      rw [text] at done
      cases done
      exact .str t
  | null =>
    rw [extractWith] at done
    cases done
    exact .null
  | table ref => exact absurd rfl (scalar ref)

theorem equal_of_scalar (scalar : ∀ ref, v ≠ .table ref)
    (done : extractWith (fun _ => []) h levels v = .ok (some x))
    (done' : extractWith (fun _ => []) h levels v = .ok (some y)) : x.equal y = true := by
  obtain rfl := Option.some.inj (Except.ok.inj (done.symm.trans done'))
  exact Json.equal_refl (valid_of_scalar scalar done)

/-- Two lists that belong to the same one belong together. -/
theorem forall₂_of_common {α β γ : Type} {r : α → β → Prop} {s : α → γ → Prop} {l : List α}
    {xs : List β} {ys : List γ} (left : List.Forall₂ r l xs) (right : List.Forall₂ s l ys) :
    List.Forall₂ (fun x y => ∃ p, r p x ∧ s p y) xs ys := by
  induction left generalizing ys with
  | nil =>
    cases right
    exact .nil
  | cons head _ ih =>
    cases right with
    | cons head' tail' => exact .cons ⟨_, head, head'⟩ (ih tail')

/-- **What holds all of the same value is equal.** -/
theorem equal_of_kept (kept : Kept h levels v x) (kept' : Kept h levels v y) :
    x.equal y = true := by
  induction levels generalizing v x y with
  | zero =>
    cases v with
    | nil | bool | int | float | str | null | function =>
      exact equal_of_scalar (by rintro _ ⟨⟩) kept kept'
    | table ref => cases kept
  | succ levels ih =>
    cases v with
    | nil | bool | int | float | str | null | function =>
      exact equal_of_scalar (by rintro _ ⟨⟩) kept kept'
    | table ref =>
      rw [Kept] at kept kept'
      obtain ⟨entries, perm, kept⟩ := kept
      obtain ⟨entries', perm', kept'⟩ := kept'
      cases array : h.isArray ref with
      | true =>
        rw [array, if_pos rfl] at kept kept'
        obtain ⟨ordered, xs, rfl, held⟩ := kept
        obtain ⟨ordered', ys, rfl, held'⟩ := kept'
        -- The entries of an array come in the order of their positions, so both times in the same
        -- one.
        have same : entries = entries' := (perm.trans perm'.symm).eq_of_pairwise
          (fun p q _ _ pq qp => absurd pq (Int.lt_asymm qp)) ordered ordered'
        rw [← same] at held'
        rw [Json.equal, Json.equalItems_iff]
        refine (forall₂_of_common held held').imp fun x y common => ?_
        obtain ⟨p, kept, kept'⟩ := common
        exact ih kept kept'
      | false =>
        rw [array, if_neg Bool.false_ne_true] at kept kept'
        obtain ⟨o, rfl, distinct, held⟩ := kept
        obtain ⟨o', rfl, -, held'⟩ := kept'
        -- The members of an object may come in another order, and are matched with those of the
        -- first result.
        obtain ⟨moved, held', perm⟩ := List.perm_comp_forall₂ (perm.trans perm'.symm) held'
        refine Json.equal_obj_of_perm distinct
          ((forall₂_of_common held held').imp fun q q' common => ?_) perm.symm
        obtain ⟨p, ⟨name, kept⟩, name', kept'⟩ := common
        exact ⟨Option.some.inj (Except.ok.inj (name.symm.trans name')), ih kept kept'⟩

/-! ## Any two orders -/

/-- **The order does not matter where names are different.** Under two orders a value can be read
under both or under neither, and has a JSON form under both or under neither. What is read holds
every entry that has a name and a form exactly if different entries of an object have different
names, everywhere in the value; and then the two readings are equal. -/
theorem read_in_any_order (sound : ∀ ref, (h.table ref).Sound) (enumerates : h.Enumerates order)
    (enumerates' : h.Enumerates order') (levels : Nat) (v : Value) :
    extract h = extractIn (fun ref => (h.table ref).entries) h maxTables ∧
    (Fails (extractIn order h levels v) ↔ Fails (extractIn order' h levels v)) ∧
    (extractIn order h levels v = .ok none ↔ extractIn order' h levels v = .ok none) ∧
    (∀ x, extractIn order h levels v = .ok (some x) → (Kept h levels v x ↔ Clear h levels v)) ∧
    ∀ x y, extractIn order h levels v = .ok (some x) → extractIn order' h levels v = .ok (some y) →
      Clear h levels v → x.equal y = true := by
  refine ⟨extractWith_eq Table.entries h maxTables, fails_extractIn_iff enumerates enumerates' v,
    ?_, fun x done => ?_, fun x y done done' clear => ?_⟩
  · rw [extractIn_eq_none_iff, extractIn_eq_none_iff]
  · exact ⟨clear_of_kept, fun clear => kept_of_clear sound enumerates clear done⟩
  · exact equal_of_kept (kept_of_clear sound enumerates clear done)
      (kept_of_clear sound enumerates' clear done')

/-! ## A number and its digits -/

namespace Homonyms

/-- A table with an entry for the number one and an entry for a text. -/
def table (name : String) : Table :=
  ((Table.withRoom 1 1).set (.int 1) (.text "a")).set (.text name) (.text "b")

/-- A store with this table. -/
def store (name : String) : Heap := { tables := #[table name] }

/-- The entries as they are kept. -/
def forwards (name : String) (ref : Nat) : List (Key × Value) := ((store name).table ref).entries

/-- The entries the other way round. -/
def backwards (name : String) (ref : Nat) : List (Key × Value) := (forwards name ref).reverse

theorem forwards_enumerates (name : String) : (store name).Enumerates (forwards name) :=
  fun _ => .refl _

theorem backwards_enumerates (name : String) : (store name).Enumerates (backwards name) :=
  fun _ => List.reverse_perm _

theorem sound (name : String) (ref : Nat) : ((store name).table ref).Sound := by
  cases ref with
  | zero =>
    have empty : (Table.withRoom 1 1).Sound := Table.sound_withRoom (by decide)
    have numbered : ((Table.withRoom 1 1).set (.int 1) (.text "a")).Sound := empty.set (by decide)
    change (table name).Sound
    unfold table
    exact numbered.set (by decide)
  | succ ref =>
    exact ⟨show 0 < 2 ^ 63 by decide, fun k mem => absurd mem Std.TreeMap.not_mem_emptyc⟩

theorem listed (name : String) :
    ((store name).table 0).listed = [(.int 1, .text "a"), (.text name, .text "b")] := by rfl

theorem memberName_one : memberName (.int 1) = .ok (some "1") := by decide +kernel

theorem clear (name : String) (different : name ≠ "1") :
    Clear (store name) maxTables (.table 0) := by
  refine ⟨fun _ => ?_, fun p mem => ?_⟩
  · rw [listed, List.map_cons, List.map_cons, memberName_one, memberName_text]
    refine List.nodup_cons.2 ⟨fun mem => different ?_, List.nodup_singleton _⟩
    exact (Option.some.inj (Except.ok.inj (List.mem_singleton.1 mem))).symm
  · rw [listed, List.mem_pair] at mem
    rcases mem with rfl | rfl
    · trivial
    · trivial

theorem extractIn_text (order : Nat → List (Key × Value)) (s : String) (levels : Nat) :
    extractIn order h levels (.text s) = .ok (some (.str s)) := by
  have read : extractIn order h levels (.text s)
      = extractWith (fun _ => []) h levels (.text s) := by
    cases levels <;> rfl
  rw [read, Value.text, extractWith, textOf_toUTF8]
  rfl

/-- What is read of the two entries, in one order and in the other. -/
theorem extractIn_table (name : String) :
    extractIn (forwards name) (store name) maxTables (.table 0)
      = .ok (some (.obj (Named.insert [("1", .str "a")] name (.str "b")))) ∧
    extractIn (backwards name) (store name) maxTables (.table 0)
      = .ok (some (.obj (Named.insert [(name, .str "b")] "1" (.str "a")))) := by
  constructor
  · change (extractMembers (extractIn (forwards name) (store name) 64) []
      [(.int 1, .text "a"), (.text name, .text "b")] |>.map Json.obj).map some = _
    simp only [extractMembers, memberName_one, memberName_text, extractIn_text, bind, Except.bind]
    rfl
  · change (extractMembers (extractIn (backwards name) (store name) 64) []
      [(.text name, .text "b"), (.int 1, .text "a")] |>.map Json.obj).map some = _
    simp only [extractMembers, memberName_one, memberName_text, extractIn_text, bind, Except.bind]
    rfl

end Homonyms

/-- An entry for the number one and one for a word are both kept, whichever of them comes first. -/
theorem word_kept : (∀ ref, ((Homonyms.store "x").table ref).Sound) ∧
    (Homonyms.store "x").Enumerates (Homonyms.forwards "x") ∧
    (Homonyms.store "x").Enumerates (Homonyms.backwards "x") ∧
    ∃ x y,
      extractIn (Homonyms.forwards "x") (Homonyms.store "x") maxTables (.table 0) = .ok (some x) ∧
      extractIn (Homonyms.backwards "x") (Homonyms.store "x") maxTables (.table 0) = .ok (some y) ∧
      Kept (Homonyms.store "x") maxTables (.table 0) x ∧ x.equal y = true := by
  obtain ⟨-, -, -, kept, equal⟩ :=
    read_in_any_order (Homonyms.sound "x") (Homonyms.forwards_enumerates "x")
      (Homonyms.backwards_enumerates "x") maxTables (.table 0)
  obtain ⟨first, second⟩ := Homonyms.extractIn_table "x"
  have clear := Homonyms.clear "x" (by decide)
  exact ⟨Homonyms.sound "x", Homonyms.forwards_enumerates "x", Homonyms.backwards_enumerates "x", _,
    _, first, second, (kept _ first).2 clear, equal _ _ first second clear⟩

/-- **One of two entries is lost.** An entry for the number one and an entry for the text of this
number have the same name in an object, and which of them is left is up to the order. -/
theorem homonym_lost :
    let h := Homonyms.store "1"
    h.Enumerates (Homonyms.forwards "1") ∧ h.Enumerates (Homonyms.backwards "1") ∧
    (h.table 0).listed = [(.int 1, .text "a"), (.text "1", .text "b")] ∧
    extractIn (Homonyms.forwards "1") h maxTables (.table 0) = .ok (some (.obj [("1", .str "b")])) ∧
    extractIn (Homonyms.backwards "1") h maxTables (.table 0) = .ok
      (some (.obj [("1", .str "a")])) ∧
    Json.equal (.obj [("1", .str "b")]) (.obj [("1", .str "a")]) = false :=
  ⟨Homonyms.forwards_enumerates "1", Homonyms.backwards_enumerates "1", Homonyms.listed "1",
    (Homonyms.extractIn_table "1").1, (Homonyms.extractIn_table "1").2, by decide⟩

end Lua

end Conveyor
