/-
Items that a script returns as it got them.

What a script got is the items as JSON, put into the store; what comes back is equal
(`survives_of_nested`), and is read as items again. The second reading takes an object with a `json`
object for an item, and its attachments from strings, which come back as they were. So the items
come back one by one, in their order, with equal objects and the same attachments (`Item.Matches`);
the order of members and of attachments does not count, and no attachments are none.
-/
import Conveyor.Proofs.Lua.Exchange
import Conveyor.Script.Output
import Conveyor.Script.Session
import Mathlib.Data.List.Nodup

set_option autoImplicit false

namespace Conveyor

open Json

/-! ## Attachments -/

namespace Attachment

/-- What is equal to an attachment as JSON is read as that attachment. -/
theorem decode_of_equal {a : Attachment} {w : Json} (same : a.encode.equal w = true) :
    decode w = some a := by
  obtain ⟨data, mimeType, fileName⟩ := a
  have distinct : Named.names
      ([("data", .str data), ("mimeType", .str mimeType)]
        ++ memberIf "fileName" (fileName.map .str)) |>.Nodup := by
    cases fileName with
    | none => exact (show ["data", "mimeType"].Nodup by decide)
    | some name => exact (show ["data", "mimeType", "fileName"].Nodup by decide)
  -- The members are found by their names, and texts are equal only to themselves.
  obtain ⟨o, rfl, names, members⟩ := equal_obj distinct same
  obtain ⟨given, optional⟩ := List.forall_mem_append.1 members
  simp only [List.forall_mem_cons] at given
  obtain ⟨⟨d, hasData, same⟩, ⟨m, hasType, same'⟩, -⟩ := given
  obtain rfl := equal_str same
  obtain rfl := equal_str same'
  -- A name that is missing on one side is missing on the other.
  have hasName : o.get? "fileName" = fileName.map .str := by
    cases fileName with
    | none =>
      exact Named.get?_eq_none_of_perm names (show "fileName" ∉ ["data", "mimeType"] by decide)
    | some name =>
      obtain ⟨f, found, same⟩ := optional _ List.mem_cons_self
      rw [found, equal_str same]
      rfl
  cases fileName <;>
    simp [decode, fields, namedField, hasData, hasType, hasName, Field.required, Field.optional,
      Decode.string, Decode.orNull]

end Attachment

/-- Members that are all read as something. -/
theorem members_of_forall {α : Type} {d : Decoder α} {r : String × α → Prop} {o : Object}
    (all : ∀ p ∈ o, ∃ v, d p.2 = some v ∧ r (p.1, v)) :
    ∃ m : Named α, Decode.members d o = some m ∧ List.Forall₂ (fun p q => p.1 = q.1) o m ∧
      ∀ q ∈ m, r q := by
  induction o with
  | nil => exact ⟨[], rfl, .nil, nofun⟩
  | cons p o ih =>
    obtain ⟨k, x⟩ := p
    obtain ⟨⟨v, read, holds⟩, rest⟩ := List.forall_mem_cons.1 all
    obtain ⟨m, whole, names, holds'⟩ := ih rest
    refine ⟨(k, v) :: m, ?_, .cons rfl names, List.forall_mem_cons.2 ⟨holds, holds'⟩⟩
    rw [Decode.members, read, whole]

/-- What is equal to attachments as JSON is read as these attachments. -/
theorem decodeAttachments_of_equal {b : Named Attachment} {w : Json} (distinct : b.names.Nodup)
    (same : (Item.encodeAttachments b).equal w = true) :
    ∃ b', Item.decodeAttachments w = some b' ∧ b'.Perm b := by
  have names : Named.names (b.map fun p => (p.1, p.2.encode)) = b.names := by
    rw [Named.names, List.map_map]
    rfl
  obtain ⟨o, rfl, names', members⟩ := equal_obj (names ▸ distinct) same
  rw [names] at names'
  have all : ∀ p ∈ o, ∃ a, Attachment.decode p.2 = some a ∧ (p.1, a) ∈ b := by
    intro p mem
    obtain ⟨⟨k, a⟩, mem', name⟩ := List.mem_map.1 (names'.mem_iff.2 (Named.mem_names mem))
    obtain rfl : k = p.1 := name
    obtain ⟨v, found, same⟩ := members _ (List.mem_map_of_mem mem')
    have value : v = p.2 :=
      Option.some.inj (found.symm.trans (Named.get?_of_mem (names'.nodup_iff.1 distinct) mem))
    exact ⟨a, Attachment.decode_of_equal (value ▸ same), mem'⟩
  -- What is read has as many attachments as were given, with different names, and each of them is
  -- one of these.
  obtain ⟨b', whole, names'', inside⟩ := members_of_forall (r := (· ∈ b)) all
  have names'' : o.names = b'.names := Json.names_eq names''
  have distinct' : (b'.map Prod.fst).Nodup := names''.subst (names'.nodup_iff.1 distinct)
  have size : b.length ≤ b'.length := by
    have sizes := names'.length_eq.trans (congrArg List.length names'')
    simp only [Named.names, List.length_map] at sizes
    exact Nat.le_of_eq sizes
  exact ⟨b', whole, ((List.Nodup.of_map _ distinct').subperm inside).perm_of_length_le size⟩

/-! ## Items -/

/-- The same item, as far as equality of JSON tells: no attachments are none at all. -/
structure Item.Matches (i j : Item) : Prop where
  json : Json.equal (.obj i.json) (.obj j.json) = true
  attachments : (j.binary.getD []).Perm (i.binary.getD [])
  none : j.binary ≠ some []

/-- What is equal to an item as JSON is read as the same item. -/
theorem Item.ofValue?_of_equal {i : Item} {w : Json}
    (distinct : ∀ b ∈ i.binary, Named.names b |>.Nodup) (same : i.encode.equal w = true) :
    ∃ j, Item.ofValue? w = some j ∧ i.Matches j := by
  obtain ⟨json, binary⟩ := i
  have object : ∀ {v : Json}, Json.equal (.obj json) v = true → ∃ o, v = .obj o := by
    intro v same
    cases v <;> simp [equal] at same
    exact ⟨_, rfl⟩
  -- Attachments are written if there are any, and then they are read back by their names.
  cases binary with
  | none =>
    obtain ⟨o, rfl, names, members⟩ :=
      equal_obj (a := [("json", .obj json)]) (show ["json"].Nodup by decide) same
    obtain ⟨v, hasJson, same⟩ := members _ List.mem_cons_self
    obtain ⟨json', rfl⟩ := object same
    have noBinary : o.get? "binary" = none :=
      Named.get?_eq_none_of_perm names (show "binary" ∉ ["json"] by decide)
    refine ⟨{ json := json' }, ?_, same, .refl _, Option.some_ne_none _ |>.symm⟩
    simp [ofValue?, ofObject, ofObject.attached, hasJson, noBinary]
  | some b =>
    obtain ⟨o, rfl, names, members⟩ :=
      equal_obj (a := [("json", .obj json), ("binary", encodeAttachments b)])
      (show ["json", "binary"].Nodup by decide) same
    simp only [List.forall_mem_cons] at members
    obtain ⟨⟨v, hasJson, same⟩, ⟨v', hasBinary, same'⟩, -⟩ := members
    obtain ⟨json', rfl⟩ := object same
    obtain ⟨b', read, moved⟩ := decodeAttachments_of_equal (distinct b rfl) same'
    refine ⟨{ json := json', binary := (some b').filter fun b => !b.isEmpty }, ?_, same, ?_, ?_⟩
    · simp [ofValue?, ofObject, ofObject.attached, hasJson, hasBinary, read]
    -- No attachments and none that are left are the same to an item.
    · cases b' with
      | nil => exact moved
      | cons => exact moved
    · cases b' with
      | nil => exact Option.some_ne_none _ |>.symm
      | cons => simp

/-- Entries of an array that are equal to items as JSON are read as the same items. -/
theorem itemsOfEntries_of_equal {items : Items} {ws : List Json}
    (distinct : ∀ i ∈ items, ∀ b ∈ i.binary, (Named.names b).Nodup)
    (same : List.Forall₂ (fun i w => i.encode.equal w = true) items ws) (index : Nat) :
    ∃ items', Script.itemsOfEntries index ws = .ok items' ∧
      List.Forall₂ Item.Matches items items' := by
  induction same generalizing index with
  | nil => exact ⟨[], rfl, .nil⟩
  | @cons i w items ws head _ ih =>
    obtain ⟨distinct, rest⟩ := List.forall_mem_cons.1 distinct
    obtain ⟨j, read, same⟩ := Item.ofValue?_of_equal distinct head
    obtain ⟨items', whole, same'⟩ := ih rest (index + 1)
    refine ⟨j :: items', ?_, .cons same same'⟩
    rw [Script.itemsOfEntries, read]
    simp only [whole]
    rfl

/-- Attachments have different names in items that the program can hold. -/
theorem distinct_of_nested {levels : Nat} {items : Items}
    (nested : (Script.Session.itemsValue items).Nested levels) :
    ∀ i ∈ items, ∀ b ∈ i.binary, (Named.names b).Nodup := by
  intro i mem b attached
  cases nested with
  | arr _ entries =>
    have entry := entries _ (List.mem_map_of_mem mem)
    rw [Item.encode, Option.mem_def.1 attached] at entry
    cases entry with
    | obj _ members =>
      have attachments := members ("binary", Item.encodeAttachments b) (.tail _ List.mem_cons_self)
      cases attachments with
      | obj distinct _ =>
        rw [Named.names, List.map_map] at distinct
        exact distinct

/-- **What a script got comes back.** Any store may have been there before, tables may be read in
any order, and what else is put into the store or changed in what was there before does not
matter. -/
theorem Script.returned {enumerate : Lua.Table → List (Lua.Key × Lua.Value)}
    (orders : ∀ t, (enumerate t).Perm t.entries) (h : Lua.Heap) :
    (∀ x : Json, x.Nested 64 → ∃ w, x.equal w = true ∧ Lua.Yields enumerate h x w) ∧
    ∀ items : Items, (Session.itemsValue items).Nested 64 → ∃ w items',
      Lua.Yields enumerate h (Session.itemsValue items) w ∧ itemsOf w = .ok items' ∧
      List.Forall₂ Item.Matches items items' := by
  have back : ∀ x : Json, x.Nested 64 → ∃ w, x.equal w = true ∧ Lua.Yields enumerate h x w := by
    intro x nested
    have deep := nested.mono (show 64 ≤ Lua.maxTables by decide)
    obtain ⟨-, w, same, held⟩ := Lua.survives_of_nested orders deep h (Nat.le_refl _)
    exact ⟨w, same, held.read⟩
  refine ⟨back, fun items nested => ?_⟩
  obtain ⟨w, same, yields⟩ := back _ nested
  have same : equal (.arr (items.map Item.encode)) w = true := same
  obtain ⟨ws, rfl, entries⟩ := equal_arr same
  obtain ⟨items', whole, same'⟩ := itemsOfEntries_of_equal (distinct_of_nested nested)
    (List.forall₂_map_left_iff.1 entries) 0
  exact ⟨.arr ws, items', yields, whole, same'⟩

/-! ## Items that are nested no deeper than their payloads -/

theorem Attachment.nested_encode (a : Attachment) : a.encode.Nested 1 := by
  obtain ⟨data, mimeType, fileName⟩ := a
  cases fileName with
  | none =>
    refine .obj (show ["data", "mimeType"].Nodup by decide) (List.forall_mem_cons.2 ⟨.str _, ?_⟩)
    exact List.forall_mem_cons.2 ⟨.str _, nofun⟩
  | some name =>
    refine .obj (show ["data", "mimeType", "fileName"].Nodup by decide)
      (List.forall_mem_cons.2 ⟨.str _, ?_⟩)
    exact List.forall_mem_cons.2 ⟨.str _, List.forall_mem_cons.2 ⟨.str _, nofun⟩⟩

theorem Item.nested_encodeAttachments {b : Named Attachment} (distinct : b.names.Nodup) :
    (encodeAttachments b).Nested 2 := by
  refine .obj ?_ fun p mem => ?_
  · rw [Named.names, List.map_map]
    exact distinct
  · obtain ⟨q, -, rfl⟩ := List.mem_map.1 mem
    exact q.2.nested_encode

theorem Item.nested_encode {i : Item} {levels : Nat}
    (payload : (Json.obj i.json).Nested (levels + 2))
    (distinct : ∀ b ∈ i.binary, Named.names b |>.Nodup) : i.encode.Nested (levels + 3) := by
  obtain ⟨json, binary⟩ := i
  cases binary with
  | none => exact .obj (show ["json"].Nodup by decide) (List.forall_mem_cons.2 ⟨payload, nofun⟩)
  | some b =>
    have attachments := (nested_encodeAttachments (distinct b rfl)).mono (Nat.le_add_left 2 levels)
    exact .obj (show ["json", "binary"].Nodup by decide)
      (List.forall_mem_cons.2 ⟨payload, List.forall_mem_cons.2 ⟨attachments, nofun⟩⟩)

/-- Items are nested two deeper than their payloads, or four deep. -/
theorem nested_itemsValue {items : Items} {levels : Nat} (few : items.length < 2 ^ 63)
    (payloads : ∀ i ∈ items, (Json.obj i.json).Nested (levels + 2))
    (distinct : ∀ i ∈ items, ∀ b ∈ i.binary, (Named.names b).Nodup) :
    (Script.Session.itemsValue items).Nested (levels + 4) := by
  refine .arr (by simpa using few) fun x mem => ?_
  obtain ⟨i, mem', rfl⟩ := List.mem_map.1 mem
  exact Item.nested_encode (payloads i mem') (distinct i mem')

/-! ### An assortment -/

namespace Assortment

/-- Empty containers, null in an array, a name of digits, an integer beyond 63 bits and a
fraction. -/
def value : Json :=
  .obj [("7", .arr [.null, .arr [], .obj []]), ("large", .num (.int (2 ^ 63))),
    ("fraction", .num (.float (.ofBits 0x3FF8000000000000)))]

/-- An item without attachments, though it says that it has some, and an item with one. -/
def items : Items :=
  [{ json := [("value", value)], binary := some [] },
    { binary :=
        some [("note",
          { data := "aGk=", mimeType := "text/plain", fileName := some "note.txt" })] }]

/-- A store with a table of globals. -/
def store : Lua.Heap := { tables := #[{}], globals := 0 }

/-- What a value comes back as that was made a global of the store. -/
def recalled (x : Json) : Except Lua.ExchangeError (Option Json) :=
  let h := (Lua.inject store x).1
  let v := (Lua.inject store x).2
  Lua.extract (h.setField store.globals "given" v) v

theorem nested_value : value.Nested 3 := by
  have list : (Json.arr [.null, .arr [], .obj []]).Nested 2 := by
    refine .arr (by decide) ?_
    simp only [List.forall_mem_cons]
    exact ⟨.null, .arr (by decide) nofun, .obj (by decide) nofun, nofun⟩
  refine .obj (by decide) ?_
  simp only [List.forall_mem_cons]
  exact ⟨list, .num (by decide), .num (by decide +kernel), nofun⟩

theorem nested_items : (Script.Session.itemsValue items).Nested 6 := by
  refine nested_itemsValue (by decide) ?_ ?_
  · refine List.forall_mem_cons.2 ⟨.obj (by decide) ?_,
      List.forall_mem_cons.2 ⟨.obj (by decide) nofun, nofun⟩⟩
    exact List.forall_mem_cons.2 ⟨nested_value, nofun⟩
  · refine List.forall_mem_cons.2 ⟨?_, List.forall_mem_cons.2 ⟨?_, nofun⟩⟩
    · rintro b ⟨⟩
      decide
    · rintro b ⟨⟩
      decide

end Assortment

/-- The assortment and the items come back when they are globals. -/
theorem Script.assortment_returned :
    (∃ w, Assortment.value.equal w = true ∧ Assortment.recalled Assortment.value = .ok (some w)) ∧
    ∃ w items', Assortment.recalled (Session.itemsValue Assortment.items) = .ok (some w) ∧
      itemsOf w = .ok items' ∧ List.Forall₂ Item.Matches Assortment.items items' := by
  obtain ⟨values, items⟩ := @Script.returned Lua.Table.entries (fun _ => .refl _) Assortment.store
  obtain ⟨w, same, yields⟩ := values _ (Assortment.nested_value.mono (by decide))
  obtain ⟨w', items', yields', read, matched⟩ := items _ (Assortment.nested_items.mono (by decide))
  have first : 0 < Assortment.store.tables.size := by decide
  exact ⟨⟨w, same, yields.of_setField first "given"⟩, w', items', yields'.of_setField first "given",
    read, matched⟩

end Conveyor
