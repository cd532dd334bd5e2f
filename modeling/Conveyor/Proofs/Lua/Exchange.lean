/-
JSON values go into a script and come back.

Putting a value into the store adds tables and changes none, so what was read once is read from
every store that comes after and leaves these tables as they are (`Heap.Keeps`, `ReadAs`); older
tables, that of the globals say, may change. A number comes back as an equal one, an array from the
row of its table, an object from the names its table was given. Tables are read in any order:
entries of an array are sorted by their positions, and the order of members does not count. The
result is an equal value for every value that the program can hold, as deep as tables are read
(`survives_of_nested`); the induction is on how deep the value is nested.
-/
import Conveyor.Lua.Exchange
import Conveyor.Proofs.Json.Equality
import Conveyor.Proofs.Lua.Table
import Mathlib.Data.List.Perm.Basic

set_option autoImplicit false

namespace Conveyor.Lua

/-! ## Stores that grow -/

/-- What becomes of a store when tables are added to it and those from `base` on stay as they
are. -/
structure Heap.Keeps (base : Nat) (h h' : Heap) : Prop where
  size : h.tables.size ≤ h'.tables.size
  kept : ∀ ref < h.tables.size, base ≤ ref → h'.table ref = h.table ref
  mark : h'.arrayMark = h.arrayMark

section Keeps

variable {base : Nat}

theorem Heap.Keeps.refl (h : Heap) : h.Keeps base h := ⟨Nat.le_refl _, fun _ _ _ => rfl, rfl⟩

theorem Heap.Keeps.trans {a b c : Heap} (ab : a.Keeps base b) (bc : b.Keeps base c) :
    a.Keeps base c where
  size := Nat.le_trans ab.size bc.size
  kept ref inside since :=
    (bc.kept ref (Nat.lt_of_lt_of_le inside ab.size) since).trans (ab.kept ref inside since)
  mark := bc.mark.trans ab.mark

theorem Heap.keeps_newTable (h : Heap) (t : Table) : h.Keeps base (h.newTable t).1 where
  size := by simp [newTable]
  kept ref inside _ := by
    rw [newTable, table, table, Array.getD_eq_getD_getElem?, Array.getElem?_push_lt inside,
      Array.getD_eq_getD_getElem?, Array.getElem?_eq_getElem inside]
  mark := rfl

/-- An older table may change. -/
theorem Heap.keeps_updateTable (h : Heap) {ref : Nat} (older : ref < base) (f : Table → Table) :
    h.Keeps base (h.updateTable ref f) where
  size := by simp [updateTable]
  kept other _ since := by
    rw [updateTable, table, table, Array.getD_eq_getD_getElem?, Array.getD_eq_getD_getElem?,
      Array.getElem?_modify, if_neg (by omega)]
  mark := rfl

end Keeps

theorem Heap.table_newTable (h : Heap) (t : Table) :
    (h.newTable t).1.table (h.newTable t).2 = t := by
  simp [newTable, table]

/-! ## Reading entries -/

variable {read : Value → Except ExchangeError (Option Json)}

theorem textOf_toUTF8 (s : String) : textOf s.toUTF8 = .ok s := by
  rw [textOf, String.toUTF8_eq_toByteArray, String.fromUTF8?, dif_pos s.isValidUTF8]
  rfl

theorem extractItems_eq {entries : List (Key × Value)} {ws : List Json}
    (all : List.Forall₂ (fun p w => read p.2 = .ok (some w)) entries ws) :
    extractItems read entries = .ok ws := by
  induction all with
  | nil => rfl
  | @cons p w entries ws head _ ih =>
    obtain ⟨k, v⟩ := p
    rw [extractItems, show read v = .ok (some w) from head, ih]
    rfl

theorem memberName_text (name : String) : memberName (.text name) = .ok (some name) := by
  rw [Key.text, memberName, textOf_toUTF8]
  rfl

theorem extractMembers_eq {entries : List (Key × Value)} {o more : Json.Object}
    (distinct : (o ++ more).names.Nodup)
    (all : List.Forall₂ (fun p q => p.1 = .text q.1 ∧ read p.2 = .ok (some q.2)) entries more) :
    extractMembers read o entries = .ok (o ++ more) := by
  rw [← Named.foldl_insert_fresh distinct]
  clear distinct
  induction all generalizing o with
  | nil => rfl
  | @cons p q entries more head _ ih =>
    obtain ⟨k, v⟩ := p
    obtain ⟨name, w⟩ := q
    obtain ⟨rfl, value⟩ := head
    have step : extractMembers read o ((.text name, v) :: entries)
        = extractMembers read (o.insert name w) entries := by
      rw [extractMembers, memberName_text]
      simp only [bind, Except.bind, show read v = .ok (some w) from value]
    rw [step, ih, List.foldl_cons]

/-- The position of a key that counts. -/
theorem position?_numbered {n : Nat} (small : n + 1 < 2 ^ 63) :
    position? (.int (Int64.ofNat (n + 1))) = some ((n : Int) + 1) := by
  have value : (Int64.ofNat (n + 1)).toInt = (n + 1 : Nat) := Int64.toInt_ofNat_of_lt small
  rw [position?, value, if_pos (by omega)]
  rfl

/-- Entries sorted by their positions. -/
theorem pairwise_mergeSort_position (entries : List (Key × Value)) :
    (entries.mergeSort fun a b => decide ((position? a.1).getD 0 ≤ (position? b.1).getD 0)).Pairwise
      fun a b => (position? a.1).getD 0 ≤ (position? b.1).getD 0 := by
  refine (List.pairwise_mergeSort (fun a b c ab bc => ?_) (fun a b => ?_) entries).imp
    of_decide_eq_true
  · exact decide_eq_true (Int.le_trans (of_decide_eq_true ab) (of_decide_eq_true bc))
  · simpa using Int.le_total _ _

theorem map_snd_numbered (vs : List Value) : (numbered vs).map Prod.snd = vs := by
  refine List.ext_getElem (by rw [List.length_map, numbered, List.length_mapIdx]) fun i _ _ => ?_
  simp only [numbered, List.getElem_map, List.getElem_mapIdx]

section Numbered

variable {vs : List Value} {entries : List (Key × Value)}

variable (few : vs.length < 2 ^ 63) (moved : entries.Perm (numbered vs))

include few moved

/-- Keys that count are those of an array. -/
theorem areSequence_numbered : areSequence (entries.map Prod.fst) = true := by
  have size : entries.length = vs.length := by rw [moved.length_eq, numbered, List.length_mapIdx]
  refine List.all_eq_true.2 fun k mem => ?_
  obtain ⟨p, mem', rfl⟩ := List.mem_map.1 mem
  obtain ⟨i, inside, rfl⟩ := List.mem_mapIdx.1 (moved.mem_iff.1 mem')
  simp only [position?_numbered (n := i) (by omega), List.length_map, size, positionsPerEntry,
    Bool.or_eq_true, decide_eq_true_eq]
  exact .inr (by omega)

/-- Entries sorted by keys that count. -/
theorem mergeSort_numbered :
    (entries.mergeSort fun a b => decide ((position? a.1).getD 0 ≤ (position? b.1).getD 0))
      = numbered vs := by
  have ordered : (numbered vs).Pairwise fun a b =>
      (position? a.1).getD 0 < (position? b.1).getD 0 := by
    refine List.pairwise_iff_getElem.2 fun i j hi hj less => ?_
    rw [numbered, List.length_mapIdx] at hi hj
    simp only [numbered, List.getElem_mapIdx, position?_numbered (n := i) (by omega),
      position?_numbered (n := j) (by omega), Option.getD_some]
    omega
  refine List.Perm.eq_of_pairwise (fun a b ha hb ab ba => ?_) (pairwise_mergeSort_position entries)
    (ordered.imp Int.le_of_lt) ((List.mergeSort_perm _ _).trans moved)
  obtain ⟨i, hi, rfl⟩ := List.mem_mapIdx.1 (moved.mem_iff.1 (List.mem_mergeSort.1 ha))
  obtain ⟨j, hj, rfl⟩ := List.mem_mapIdx.1 hb
  simp only [position?_numbered (n := i) (by omega), position?_numbered (n := j) (by omega),
    Option.getD_some] at ab ba
  obtain rfl : i = j := by omega
  rfl

/-- An array is read off a table that was filled from its first position on. -/
theorem extractEntries_numbered {ws : List Json} {marked : Bool} (mark : vs = [] → marked = true)
    (all : List.Forall₂ (fun v w => read v = .ok (some w)) vs ws) :
    extractEntries read marked entries = .ok (.arr ws) := by
  have size : entries.length = vs.length := by rw [moved.length_eq, numbered, List.length_mapIdx]
  rw [extractEntries]
  cases all with
  | nil =>
    rw [if_pos (List.isEmpty_iff_length_eq_zero.2 size), mark rfl]
    rfl
  | @cons v w vs ws head tail =>
    have values : List.Forall₂ (fun v w => read v = .ok (some w))
        ((numbered (v :: vs)).map Prod.snd) (w :: ws) := by
      rw [map_snd_numbered]
      exact .cons head tail
    have items := extractItems_eq (List.forall₂_map_left_iff.1 values)
    have some : ¬entries.isEmpty = true := fun none => by
      rw [List.isEmpty_iff_length_eq_zero.1 none] at size
      exact Nat.noConfusion size
    rw [if_neg some, areSequence_numbered few moved, if_pos rfl, mergeSort_numbered few moved,
      items]
    rfl

end Numbered

/-- Members with the keys that their names are. -/
def named (ms : List (String × Value)) : List (Key × Value) := ms.map fun p => (.text p.1, p.2)

/-- An object is read off a table whose keys are names. -/
theorem extractEntries_named {entries : List (Key × Value)} {o : Json.Object}
    (distinct : o.names.Nodup)
    (all : List.Forall₂ (fun p q => p.1 = .text q.1 ∧ read p.2 = .ok (some q.2)) entries o) :
    extractEntries read false entries = .ok (.obj o) := by
  have members := extractMembers_eq (o := []) distinct all
  rw [extractEntries]
  cases all with
  | nil => rfl
  | @cons p q entries o head _ =>
    have other : areSequence ((p :: entries).map Prod.fst) = false := by
      rw [List.map_cons, head.1, areSequence, List.all_cons]
      rfl
    rw [if_neg (by simp), other, if_neg (by decide), members]
    rfl

/-! ## Numbers -/

/-- A number is read back as an equal one: an integer beyond 63 bits goes through a float, and a
float that is a whole number comes back as an integer. -/
theorem equal_ofFloat {x : Float} (finite : Decimal.Finite x) : ∃ n : Json.Number,
    Json.ofFloat x = .num n ∧ (x == n.toFloat) = true := by
  obtain ⟨b, known⟩ := Option.ne_none_iff_exists'.1 finite
  rw [Json.ofFloat, known]
  simp only
  cases whole : b.whole? with
  | none => exact ⟨_, rfl, Decimal.beq_self finite⟩
  | some i =>
    simp only
    split
    · exact ⟨_, rfl, Decimal.beq_ofInt known whole (by omega)⟩
    · exact ⟨_, rfl, Decimal.beq_self finite⟩

/-! ## There and back -/

variable {enumerate : Table → List (Key × Value)} {base levels : Nat} {h h' : Heap} {v : Value}
  {w x : Json}

/-- A value that is read as a JSON value, from the store and from every store that it becomes while
the tables from `base` on stay as they are. -/
structure ReadAs (enumerate : Table → List (Key × Value)) (base levels : Nat) (h : Heap) (v : Value)
    (w : Json) :
    Prop where
  present : v.isNil = false
  read : ∀ h', h.Keeps base h' → extractWith enumerate h' levels v = .ok (some w)

theorem ReadAs.keeps (held : ReadAs enumerate base levels h v w) (keeps : h.Keeps base h') :
    ReadAs enumerate base levels h' v w :=
  ⟨held.present, fun _ more => held.read _ (keeps.trans more)⟩

/-- A JSON value that can be put into any store, and is then read back as an equal one. -/
def Survives (enumerate : Table → List (Key × Value)) (base levels : Nat) (x : Json) : Prop :=
  ∀ h : Heap, base ≤ h.tables.size → h.Keeps base (inject h x).1 ∧
    ∃ w, x.equal w = true ∧ ReadAs enumerate base levels (inject h x).1 (inject h x).2 w

theorem survives_num {n : Json.Number} (valid : n.Valid) :
    Survives enumerate base levels (.num n) := by
  intro h since
  refine ⟨.refl h, ?_⟩
  rw [inject]
  cases n with
  | float x =>
    obtain ⟨n, read, same⟩ := equal_ofFloat valid
    exact ⟨.num n, same, rfl, fun h' _ => by rw [ofNumber, extractWith, read]⟩
  | int i =>
    have range : Json.minInt ≤ i ∧ i ≤ Json.maxInt := valid
    rw [Json.minInt, Json.maxInt] at range
    have finite : Decimal.Finite (Float.ofInt i) := Decimal.finite_ofInt (by omega)
    rw [ofNumber]
    split
    · rename_i signed
      rw [Json.maxSigned] at signed
      have value : (Int64.ofInt i).toInt = i := Int64.toInt_ofInt_of_le (by omega) (by omega)
      exact ⟨.num (.int i), Decimal.beq_self finite, rfl, fun h' _ => by
        rw [extractWith, value, Json.ofInt]⟩
    · obtain ⟨n, read, same⟩ := equal_ofFloat finite
      exact ⟨.num n, same, rfl, fun h' _ => by rw [extractWith, read]⟩

/-- A table that was filled is read from its entries. -/
theorem readAs_table {h₁ : Heap} {t : Table} (since : base ≤ h₁.tables.size)
    (read : ∀ h', h₁.Keeps base h' →
      extractEntries (extractWith enumerate h' levels) (t.metatable == some h₁.arrayMark)
        (enumerate t) = .ok w) :
    ReadAs enumerate base (levels + 1) (h₁.newTable t).1 (.table (h₁.newTable t).2) w where
  present := rfl
  read h' more := by
    have keeps := (h₁.keeps_newTable t).trans more
    have inside : (h₁.newTable t).2 < (h₁.newTable t).1.tables.size := by simp [Heap.newTable]
    have kept : h'.table (h₁.newTable t).2 = t :=
      (more.kept _ inside since).trans (h₁.table_newTable t)
    rw [extractWith]
    simp only [kept, keeps.mark]
    rw [read h' keeps]
    rfl

/-! ### Arrays -/

/-- The table an array is put into. -/
def Heap.arrayTable (h : Heap) (n : Nat) : Table :=
  { Table.withRoom n 0 with metatable := some h.arrayMark }

theorem inject_arr {h₁ : Heap} {t : Table} {xs : List Json}
    (entries : injectItems h (h.arrayTable xs.length) 1 xs = (h₁, t)) :
    inject h (.arr xs) = ((h₁.newTable t).1, .table (h₁.newTable t).2) := by
  rw [Heap.arrayTable] at entries
  rw [inject, entries]

/-- Entries of an array, put into the store and into the row of a table. -/
theorem injectItems_spec {xs : List Json} (survive : ∀ x ∈ xs, Survives enumerate base levels x)
    (h : Heap) (since : base ≤ h.tables.size) (t : Table) (done : List Value)
    (row : t.row = (done ++ List.replicate xs.length Value.nil).toArray)
    (few : done.length + xs.length < 2 ^ 63) :
    ∃ h₁ vs ws, injectItems h t
      (done.length + 1) xs = (h₁, { t with row := (done ++ vs).toArray }) ∧ h.Keeps base h₁ ∧
      List.Forall₂ (fun x w => x.equal w = true) xs ws ∧ List.Forall₂
      (ReadAs enumerate base levels h₁) vs ws := by
  induction xs generalizing h t done with
  | nil =>
    have row' : t.row = (done ++ []).toArray := row
    exact ⟨h, [], [], by rw [← row', injectItems], .refl h, .nil, .nil⟩
  | cons x xs ih =>
    obtain ⟨keeps, w, same, held⟩ := survive x List.mem_cons_self h since
    rw [List.length_cons] at few
    -- The row has room for all entries, and the ones that are still to come hold nil.
    have inside : done.length < t.row.size := by simp [row]
    have filled : t.set (.int (Int64.ofNat (done.length + 1))) (inject h x).2
        = { t with
          row := (done ++ [(inject h x).2] ++ List.replicate xs.length Value.nil).toArray } := by
      rw [Table.set_position inside (by omega), row]
      simp [List.replicate_succ]
    have rest :=
      ih (fun y mem => survive y (List.mem_cons_of_mem x mem)) (inject h x).1
      (Nat.le_trans since keeps.size)
      (t.set (.int (Int64.ofNat (done.length + 1))) (inject h x).2) (done ++ [(inject h x).2])
      (by rw [filled]) (by rw [List.length_append, List.length_singleton]; omega)
    rw [List.length_append, List.length_singleton] at rest
    obtain ⟨h₁, vs, ws, whole, keeps', same', held'⟩ := rest
    refine ⟨h₁, (inject h x).2 :: vs, w :: ws, ?_, keeps.trans keeps', .cons same same',
      .cons (held.keeps keeps') held'⟩
    show injectItems (inject h x).1 (t.set (.int (Int64.ofNat (done.length + 1))) (inject h x).2)
      (done.length + 1 + 1) xs = _
    rw [whole, filled, List.append_assoc, List.singleton_append]

theorem survives_arr {xs : List Json} (orders : ∀ t, (enumerate t).Perm t.entries)
    (short : xs.length < 2 ^ 63) (survive : ∀ x ∈ xs, Survives enumerate base levels x) :
    Survives enumerate base (levels + 1) (.arr xs) := by
  intro h since
  obtain ⟨h₁, vs, ws, whole, keeps, same, held⟩ :=
    injectItems_spec survive h since (h.arrayTable xs.length) []
    (by simp [Heap.arrayTable, Table.withRoom]) (by simpa)
  rw [inject_arr whole]
  refine ⟨keeps.trans (h₁.keeps_newTable _), .arr ws, ?_,
    readAs_table (Nat.le_trans since keeps.size) fun h' more => ?_⟩
  · rw [Json.equal, Json.equalItems_iff]
    exact same
  have size : vs.length < 2 ^ 63 := by rw [held.length_eq, ← same.length_eq]; exact short
  refine extractEntries_numbered size ((orders _).trans (.of_eq (Table.entries_row rfl rfl ?_)))
    (fun _ => ?_)
    (held.imp fun v w held => held.read h' more)
  · intro v mem
    obtain ⟨w, -, held⟩ := Json.related held mem
    exact held.present
  · rw [keeps.mark]
    exact beq_self_eq_true _

/-! ### Objects -/

theorem text_inj {a b : String} : Key.text a = Key.text b ↔ a = b := by
  rw [Key.text, Key.text, Key.str.injEq, String.toUTF8_eq_toByteArray, String.toUTF8_eq_toByteArray,
    String.toByteArray_inj]

theorem inject_obj {h₁ : Heap} {t : Table} {o : Json.Object}
    (members : injectMembers h (Table.withRoom 0 o.length) o = (h₁, t)) :
    inject h (.obj o) = ((h₁.newTable t).1, .table (h₁.newTable t).2) := by
  rw [inject, members]

/-- Members of an object, put into the store and into the fields of a table. -/
theorem injectMembers_spec {o : Json.Object} (survive : ∀ p ∈ o, Survives enumerate base levels p.2)
    (distinct : o.names.Nodup) (h : Heap) (since : base ≤ h.tables.size) (t : Table)
    (room : t.used + o.length ≤ t.room) (fresh : ∀ name ∈ o.names, .text name ∉ t.fields) :
    ∃ (h₁ : Heap) (t₁ : Table) (ms : List (String × Value)) (ws : Json.Object),
      injectMembers h t o = (h₁, t₁) ∧ h.Keeps base h₁ ∧ t₁.row = t.row ∧
        t₁.metatable = t.metatable ∧
      t₁.fields.toList.Perm (t.fields.toList ++ named ms) ∧
      List.Forall₂ (fun p q => p.1 = q.1 ∧ p.2.equal q.2 = true) o ws ∧
      List.Forall₂ (fun p q => p.1 = q.1 ∧ ReadAs enumerate base levels h₁ p.2 q.2) ms ws := by
  induction o generalizing h t with
  | nil =>
    exact ⟨h, t, [], [], by rw [injectMembers], .refl h, rfl, rfl, by simp [named], .nil, .nil⟩
  | cons p o ih =>
    obtain ⟨name, x⟩ := p
    obtain ⟨keeps, w, same, held⟩ := survive (name, x) List.mem_cons_self h since
    obtain ⟨other, distinct⟩ := List.nodup_cons.1 distinct
    obtain ⟨fresh, fresh'⟩ := List.forall_mem_cons.1 fresh
    rw [List.length_cons] at room
    -- The name is new and there is room for it, so the table is not built anew.
    have added := Table.set_text fresh held.present (by omega)
    have stillFresh : ∀ k ∈ Named.names o,
        .text k ∉ (t.set (.text name) (inject h x).2).fields := by
      intro k mem held
      rw [added] at held
      rcases Std.TreeMap.mem_insert.1 held with same | before
      · obtain rfl := text_inj.1 (Std.LawfulEqCmp.eq_of_compare same)
        exact other mem
      · exact fresh' k mem before
    obtain ⟨h₁, t₁, ms, ws, whole, keeps', row, metatable, fields, same', held'⟩ :=
      ih (fun q mem => survive q (List.mem_cons_of_mem _ mem)) distinct (inject h x).1
        (Nat.le_trans since keeps.size) (t.set (.text name) (inject h x).2)
          (by rw [added]; simp only; omega) stillFresh
    refine ⟨h₁, t₁, (name, (inject h x).2) :: ms, (name, w) :: ws, whole,
      keeps.trans keeps', ?_, ?_, ?_, .cons ⟨rfl, same⟩ same', .cons ⟨rfl, held.keeps keeps'⟩ held'⟩
    · rw [row, added]
    · rw [metatable, added]
    · rw [added] at fields
      exact fields.trans
        ((Table.toList_insert_fresh fresh).append_right _ |>.trans List.perm_middle.symm)

theorem survives_obj {o : Json.Object} (orders : ∀ t, (enumerate t).Perm t.entries)
    (distinct : o.names.Nodup) (survive : ∀ p ∈ o, Survives enumerate base levels p.2) :
    Survives enumerate base (levels + 1) (.obj o) := by
  intro h since
  obtain ⟨h₁, t, ms, ws, whole, keeps, row, metatable, fields, same, held⟩ :=
    injectMembers_spec survive distinct h since (Table.withRoom 0 o.length)
      (by simp [Table.withRoom, Table.le_powerAbove]) (fun _ _ => Std.TreeMap.not_mem_emptyc)
  rw [inject_obj whole]
  have order : (enumerate t).Perm (named ms) := by
    have none : t.row.size = 0 := by rw [row]; rfl
    refine (orders t).trans ?_
    rw [Table.entries, none]
    exact fields
  -- An empty table is an object since it carries no mark.
  have unmarked : (t.metatable == some h₁.arrayMark) = false := by
    rw [metatable]
    rfl
  have held' :
      List.Forall₂ (fun p q => p.1 = Key.text q.1 ∧ ReadAs enumerate base levels h₁ p.2 q.2)
      (named ms) ws :=
    List.forall₂_map_left_iff.2 (held.imp fun _ _ h => ⟨congrArg Key.text h.1, h.2⟩)
  -- The members come back in the order in which the table is enumerated.
  obtain ⟨ws', held', moved⟩ := List.perm_comp_forall₂ order held'
  have names : o.names = ws.names := Json.names_eq (same.imp fun _ _ h => h.1)
  have distinct' : (ws'.map Prod.fst).Nodup :=
    (moved.map Prod.fst).nodup_iff.2 (names.subst distinct)
  refine ⟨keeps.trans (h₁.keeps_newTable t), .obj ws', Json.equal_obj_of_perm distinct same moved,
    readAs_table (Nat.le_trans since keeps.size) fun h' more => ?_⟩
  rw [unmarked]
  exact extractEntries_named distinct' (held'.imp fun _ _ h => ⟨h.1, h.2.read h' more⟩)

/-- **There and back.** A JSON value that the program can hold and that is nested no deeper than the
tables that are read is read back as an equal one. -/
theorem survives_of_nested (orders : ∀ t, (enumerate t).Perm t.entries) (nested : x.Nested levels) :
    Survives enumerate base levels x := by
  induction nested with
  | null => exact fun h _ => ⟨.refl h, .null, rfl, rfl, fun _ _ => by rw [inject, extractWith]⟩
  | bool b => exact fun h _ =>
    ⟨.refl h, .bool b, by simp [Json.equal], rfl, fun _ _ => by rw [inject, extractWith]⟩
  | num valid => exact survives_num valid
  | str s =>
    refine fun h _ => ⟨.refl h, .str s, by simp [Json.equal], rfl, fun _ _ => ?_⟩
    rw [inject, Value.text, extractWith, textOf_toUTF8]
    rfl
  | arr short _ ih => exact survives_arr orders short ih
  | obj distinct _ ih => exact survives_obj orders distinct ih

/-- What a value that is put into a store comes back as, from every store in which the tables it
went into are as they were. -/
def Yields (enumerate : Table → List (Key × Value)) (h : Heap) (x w : Json) : Prop :=
  ∀ h', (inject h x).1.Keeps h.tables.size h' → extractWith enumerate h' maxTables (inject h x).2
    = .ok (some w)

/-- It comes back when it has become an entry of an older table. -/
theorem Yields.of_setField (yields : Yields Table.entries h x w) {ref : Nat}
    (older : ref < h.tables.size) (name : String) :
    extract ((inject h x).1.setField ref name (inject h x).2) (inject h x).2 = .ok (some w) :=
  yields _ (Heap.keeps_updateTable _ older _)

end Conveyor.Lua
