/-
Keys and tables of the script language.

The order of keys is that of lists of numbers (`Key.compare_eq`), so that what a map keeps by it can
be known. Two kinds of tables are followed from the first entry to the last: one that is filled from
its first position on, whose entries then are its row (`entries_row`), and one that is given names
that are new to it, whose entries then are these (`set_text`). In every table that its operations
have made no key has two entries, since a key that has a slot in the row is nowhere else (`Sound`).
-/
import Conveyor.Lua.Table
import Mathlib.Data.List.Basic
import Mathlib.Data.List.Nodup
import Std.Data.TreeMap.Lemmas

set_option autoImplicit false

namespace Conveyor.Lua

/-! ## The order of keys -/

/-- The bytes of a string as numbers. -/
def digits (s : ByteArray) : List Int := s.data.toList.map fun b => (b.toNat : Int)

theorem length_digits (s : ByteArray) : (digits s).length = s.size := by
  rw [digits, List.length_map, Array.length_toList]
  rfl

theorem drop_digits {s : ByteArray} {i : Nat} (inside : i < s.size) :
    (digits s).drop i = (s[i].toNat : Int) :: (digits s).drop (i + 1) := by
  rw [List.drop_eq_getElem_cons (by rwa [length_digits])]
  simp only [digits, List.getElem_map, Array.getElem_toList]
  rfl

theorem digits_injective {s t : ByteArray} (same : digits s = digits t) : s = t := by
  have bytes : s.data.toList = t.data.toList := by
    refine List.map_inj_right (fun a b h => ?_) |>.1 same
    exact UInt8.toNat_inj.1 (Int.ofNat.inj h)
  exact ByteArray.ext (Array.toList_inj.1 bytes)

/-- The order of byte strings is that of their bytes as numbers, from any position on. -/
theorem compareFrom_eq (a b : ByteArray) {fuel i : Nat} (enough : a.size < fuel + i)
    (start : i ≤ a.size) :
    compareFrom a b fuel i = List.compareLex compare ((digits a).drop i) ((digits b).drop i) := by
  -- The induction is on the fuel; `start` keeps the position within the first string, and the
  -- second may be shorter.
  induction fuel generalizing i with
  | zero => omega
  | succ fuel ih =>
    rw [compareFrom]
    by_cases ha : i < a.size
    · rw [dif_pos ha, drop_digits ha]
      by_cases hb : i < b.size
      · rw [dif_pos hb, drop_digits hb, List.compareLex_cons_cons, ih (by omega) (by omega)]
        simp only [UInt8.lt_iff_toNat_lt]
        rcases Nat.lt_trichotomy a[i].toNat b[i].toNat with less | same | more
        · rw [if_pos less, Int.compare_eq_lt.2 (by omega)]
          rfl
        · rw [if_neg (by omega), if_neg (by omega), Int.compare_eq_eq.2 (Int.ofNat_inj.2 same)]
          rfl
        · rw [if_neg (by omega), if_pos more, Int.compare_eq_gt.2 (by omega)]
          rfl
      · rw [dif_neg hb, List.drop_of_length_le (l := digits b) (by rw [length_digits]; omega),
          List.compareLex_cons_nil]
    · rw [dif_neg ha, List.drop_of_length_le (l := digits a) (by rw [length_digits]; omega)]
      split
      · rename_i hb
        rw [drop_digits hb, List.compareLex_nil_cons]
      · rw [List.drop_of_length_le (l := digits b) (by rw [length_digits]; omega),
          List.compareLex_nil_nil]

theorem compareBytes_eq (a b : ByteArray) :
    compareBytes a b = List.compareLex compare (digits a) (digits b) :=
  compareFrom_eq a b (Nat.lt_succ_self _) (Nat.zero_le _)

namespace Key

/-- A key as a list of numbers: its kind, and what it is. -/
def code : Key → List Int
  | int i => [0, i.toInt]
  | str s => 1 :: digits s
  | float x => [2, x.toBits.toNat]
  | bool b => [3, b.toNat]
  | null => [4]
  | table ref => [5, ref]
  | function ref => [6, ref]

theorem compare_natCast (m n : Nat) : Ord.compare (m : Int) (n : Int) = Ord.compare m n := by
  rcases Nat.lt_trichotomy m n with less | same | more
  · rw [Int.compare_eq_lt.2 (by omega), Nat.compare_eq_lt.2 less]
  · rw [Int.compare_eq_eq.2 (congrArg _ same), Nat.compare_eq_eq.2 same]
  · rw [Int.compare_eq_gt.2 (by omega), Nat.compare_eq_gt.2 more]

/-- Keys are ordered as lists of numbers are. -/
theorem compare_eq (a b : Key) : a.compare b = List.compareLex Ord.compare a.code b.code := by
  cases a <;> cases b <;>
    simp only [compare, code, rank, List.compareLex_cons_cons, compareBytes_eq, compare_natCast,
      Std.ReflCmp.compare_self, Ordering.then_eq, Ordering.eq_then]
  all_goals rfl

theorem code_injective {a b : Key} (same : a.code = b.code) : a = b := by
  cases a <;> cases b <;> simp only [code, List.cons.injEq, and_true, true_and,
    Int.ofNat_inj] at same
  -- Keys of different kinds begin with different numbers.
  all_goals try exact absurd same.1 (by decide)
  case bool.bool b c => cases b <;> cases c <;> first | rfl | exact nomatch same
  case int.int i j => rw [Int64.toInt_inj.1 same]
  case float.float x y =>
    have bits : x.toBits = y.toBits := UInt64.toNat_inj.1 same
    obtain ⟨⟨_, _⟩⟩ := x
    obtain ⟨⟨_, _⟩⟩ := y
    obtain rfl : _ = _ := bits
    rfl
  case str.str s t => rw [digits_injective same]
  case null.null => rfl
  case table.table ref ref' => rw [same]
  case function.function ref ref' => rw [same]

instance : Std.TransCmp compare where
  eq_swap {a b} := by
    rw [compare_eq, compare_eq]
    exact Std.OrientedCmp.eq_swap
  isLE_trans {a b c} ab bc := by
    rw [compare_eq] at ab bc ⊢
    exact Std.TransCmp.isLE_trans ab bc

instance : Std.LawfulEqCmp compare where
  compare_self {a} := by
    rw [compare_eq]
    exact Std.ReflCmp.compare_self
  eq_of_compare {a b} same := by
    rw [compare_eq] at same
    exact code_injective (Std.LawfulEqCmp.eq_of_compare same)

end Key

/-- Values with the keys that count them from one on. -/
def numbered (vs : List Value) : List (Key × Value) :=
  vs.mapIdx fun i v => (.int (Int64.ofNat (i + 1)), v)

namespace Table

variable {t : Table}

/-! ## Rows -/

/-- A key that counts from one has a slot in a row that reaches so far. -/
theorem slot?_position {n : Nat} (inside : n < t.row.size) (small : n + 1 < 2 ^ (63 : Nat)) :
    t.slot? (.int (Int64.ofNat (n + 1))) = some n := by
  have value : (Int64.ofNat (n + 1)).toInt = (n + 1 : Nat) := Int64.toInt_ofNat_of_lt small
  have positive : 1 ≤ Int64.ofNat (n + 1) := by
    rw [Int64.le_iff_toInt_le, value]
    show (1 : Int) ≤ _
    omega
  have inside :
      (decide (1 ≤ Int64.ofNat (n + 1)) && decide ((Int64.ofNat (n + 1)).toInt ≤ t.row.size))
      = true := by
    rw [value, Bool.and_eq_true]
    exact ⟨decide_eq_true positive, decide_eq_true (by omega)⟩
  rw [slot?, if_pos inside, value]
  rfl

/-- Setting a position of the row. -/
theorem set_position {n : Nat} (inside : n < t.row.size) (small : n + 1 < 2 ^ (63 : Nat))
    (v : Value) :
    t.set (.int (Int64.ofNat (n + 1))) v = { t with row := t.row.set! n v } := by
  rw [set, slot?_position inside small]

/-- The entries of a table with a full row and nothing else. -/
theorem entries_row {vs : List Value} (row : t.row = vs.toArray) (fields : t.fields = ∅)
    (full : ∀ v ∈ vs, v.isNil = false) : t.entries = numbered vs := by
  have held : ∀ i ∈ List.range t.row.size,
      (if (t.row.getD i .nil).isNil then none else some (Key.int (Int64.ofNat (i + 1)),
        t.row.getD i .nil))
        = some (Key.int (Int64.ofNat (i + 1)), t.row.getD i .nil) := by
    intro i inside
    rw [List.mem_range] at inside
    rw [Array.getD_eq_getD_getElem?, Array.getElem?_eq_getElem inside, Option.getD_some]
    have some : t.row[i].isNil = false := full _ (by simp [row])
    rw [some]
    rfl
  have nothing : t.fields.toList = [] := by rw [fields]; rfl
  rw [entries, nothing, List.append_nil]
  refine (List.filterMap_congr held).trans ?_
  rw [List.filterMap_eq_map']
  refine List.ext_getElem (by simp [row, numbered]) fun i h h' => ?_
  have inside : i < vs.length := by rwa [numbered, List.length_mapIdx] at h'
  simp [row, numbered, inside]

/-! ## Names -/

/-- Setting a new name in a table that has room for it. -/
theorem set_text {name : String} {v : Value} (fresh : .text name ∉ t.fields)
    (some : v.isNil = false) (room : t.used < t.room) :
    t.set (.text name) v
      = { t with fields := t.fields.insert (.text name) v, used := t.used + 1 } := by
  have none : t.slot? (.text name) = none := rfl
  rw [set, none]
  simp only [some, Bool.false_eq_true, if_false]
  rw [if_neg (fun held => fresh (Std.TreeMap.mem_iff_contains.2 held)), if_pos room, put, none]

/-- The entries of a map to which a new key was added. -/
theorem toList_insert_fresh {m : Std.TreeMap Key Value Key.compare} {k : Key} {v : Value}
    (fresh : k ∉ m) : (m.insert k v).toList.Perm ((k, v) :: m.toList) := by
  let _ : BEq Key := ⟨fun a b => a.compare b == .eq⟩
  have _ : Std.LawfulBEqCmp Key.compare := ⟨fun {a b} => (beq_iff_eq (a := a.compare b)).symm⟩
  have others : m.toList.filter (fun p => !(k == p.1)) = m.toList := by
    refine List.filter_eq_self.2 fun (k', v') mem => ?_
    have held : k' ∈ m := by
      rw [Std.TreeMap.mem_iff_isSome_getElem?, Std.TreeMap.mem_toList_iff_getElem?_eq_some.1 mem]
      rfl
    have different : k.compare k' ≠ .eq :=
      fun same => fresh (Std.LawfulEqCmp.eq_of_compare same ▸ held)
    show (!(k.compare k' == .eq)) = true
    rw [beq_eq_false_iff_ne.2 different]
    rfl
  have inserted := Std.TreeMap.toList_insert_perm (t := m) (k := k) (v := v)
  simpa [others] using inserted

theorem le_powerAbove (n : Nat) : n ≤ powerAbove n := by
  rw [powerAbove]
  split
  · exact Nat.le_refl n
  · have := Nat.lt_log2_self (n := n - 1)
    omega

/-! ## Each key once -/

variable {k : Key} {v : Value}

/-- A table as its operations keep it: the row is so short that positions can tell its slots, and a
key that has a slot is nowhere else. -/
structure Sound (t : Table) : Prop where
  short : t.row.size < 2 ^ (63 : Nat)
  apart : ∀ k ∈ t.fields, t.slot? k = none

theorem position_inj {i j : Nat} (hi : i + 1 < 2 ^ (63 : Nat)) (hj : j + 1 < 2 ^ (63 : Nat))
    (same : Key.int (Int64.ofNat (i + 1)) = .int (Int64.ofNat (j + 1))) : i = j := by
  have numbers := congrArg Int64.toInt (Key.int.inj same)
  rw [Int64.toInt_ofNat_of_lt hi, Int64.toInt_ofNat_of_lt hj] at numbers
  omega

/-- The key of a slot that is in use. -/
theorem mem_rowKeys {i : Nat}
    (mem : k ∈ ((if (t.row.getD i .nil).isNil then none
      else some (Key.int (Int64.ofNat (i + 1)), t.row.getD i .nil)).map Prod.fst)) :
    k = .int (Int64.ofNat (i + 1)) := by
  split at mem
  · cases mem
  · exact (Option.some.inj mem).symm

/-- Every key has one entry. -/
theorem Sound.nodup_keys (sound : t.Sound) : (t.entries.map Prod.fst).Nodup := by
  have short := sound.short
  rw [entries, List.map_append, List.map_filterMap, Std.TreeMap.map_fst_toList_eq_keys]
  refine List.nodup_append.2 ⟨?_, ?_, ?_⟩
  · refine List.pairwise_filterMap.2
      (List.nodup_range.imp_of_mem fun {i j} hi hj different a inA b inB same => ?_)
    have insideI := List.mem_range.1 hi
    have insideJ := List.mem_range.1 hj
    refine different (position_inj (by omega) (by omega) ?_)
    rw [← mem_rowKeys inA, same, mem_rowKeys inB]
  · refine Std.TreeMap.distinct_keys.imp ?_
    rintro a b different rfl
    exact different Std.ReflCmp.compare_self
  · rintro a inRow b inFields rfl
    obtain ⟨i, inside, mem⟩ := List.mem_filterMap.1 inRow
    obtain rfl := mem_rowKeys mem
    have inside := List.mem_range.1 inside
    have slot := slot?_position inside (by omega)
    rw [sound.apart _ (Std.TreeMap.mem_keys.1 inFields)] at slot
    cases slot

theorem slot?_congr {t' : Table} (size : t.row.size = t'.row.size) : t.slot? k = t'.slot? k := by
  unfold slot?
  rw [size]

theorem Sound.set_row (sound : t.Sound) (i : Nat) :
    ({ t with row := t.row.set! i v } : Table).Sound :=
  ⟨by simpa using sound.short, fun k mem => (slot?_congr (by simp)).trans (sound.apart k mem)⟩

theorem Sound.apart_insert (sound : t.Sound) (slotless : t.slot? k = none) :
    ∀ k' ∈ t.fields.insert k v, t.slot? k' = none := by
  intro k' mem
  rcases Std.TreeMap.mem_insert.1 mem with same | before
  · rw [← Std.LawfulEqCmp.eq_of_compare same, slotless]
  · exact sound.apart k' before

theorem Sound.put (sound : t.Sound) : (t.put k v).Sound := by
  unfold Table.put
  cases slot : t.slot? k with
  | some i => exact sound.set_row i
  | none => exact ⟨sound.short, sound.apart_insert slot⟩

theorem sound_resize {size others : Nat} (short : size < 2 ^ (63 : Nat)) :
    (t.resize size others).Sound := by
  unfold resize
  simp only [Std.TreeMap.foldl_eq_foldl_toList]
  refine List.foldlRecOn _ _ (List.foldlRecOn _ _ ?_ fun acc sound j _ => ?_) fun acc sound p _ =>
    sound.put
  · exact ⟨by simpa using short, fun k mem => absurd mem Std.TreeMap.not_mem_emptyc⟩
  · by_cases empty : (t.row.getD (size + j) .nil).isNil = true
    · rw [if_pos empty]
      exact sound
    · rw [if_neg empty]
      exact sound.put

theorem bestSize_le (ns : List Nat) (bits : Nat) : bestSize ns bits ≤ 2 ^ (bits - 1) := by
  induction bits with
  | zero => exact Nat.zero_le _
  | succ bits ih =>
    rw [bestSize]
    split
    · exact Nat.le_refl _
    · exact Nat.le_trans ih (Nat.pow_le_pow_right (by omega) (by omega))

theorem sound_relayout (few : t.positions.length < 2 ^ (61 : Nat)) : (t.relayout k).Sound := by
  unfold relayout
  refine sound_resize (Nat.lt_of_le_of_lt (bestSize_le _ _) ?_)
  rw [Nat.add_sub_cancel]
  refine Nat.lt_of_le_of_lt (Nat.log2_self_le (Nat.succ_ne_zero _)) ?_
  have one : (positionOf k).toList.length ≤ 1 := by cases positionOf k <;> simp
  rw [List.length_append]
  omega

/-- **Setting an entry keeps a table sound.** -/
theorem Sound.set (sound : t.Sound) (few : t.positions.length < 2 ^ (61 : Nat)) :
    (t.set k v).Sound := by
  unfold Table.set
  cases slot : t.slot? k with
  | some i => exact sound.set_row i
  | none =>
    simp only
    split
    · exact ⟨sound.short, fun k' mem => sound.apart k' (Std.TreeMap.mem_of_mem_erase mem)⟩
    · split
      · exact ⟨sound.short, sound.apart_insert slot⟩
      · split
        · exact sound.put
        · exact (sound_relayout few).put

theorem sound_withRoom {slots others : Nat} (short : slots < 2 ^ (63 : Nat)) :
    (withRoom slots others).Sound :=
  ⟨by simpa [withRoom] using short, fun _ mem => absurd mem Std.TreeMap.not_mem_emptyc⟩

end Table

end Conveyor.Lua
