/-
Declarations of node types and filters as they are written.

A declaration may hold declarations, to any depth. Its reader finds them in the member `options`
(`decodeInMembers_eq`) before it reads the other fields, so a declaration comes back if those inside
it do (`decode_encode_of_options`), and the rest is by induction on the declarations.
-/
import Conveyor.Filter.Basic
import Conveyor.Parameter.Schema
import Conveyor.Proofs.Json.Record

set_option autoImplicit false

namespace Conveyor

open Json

namespace Parameter

/-! ## The parts of a declaration -/

theorem Kind.decode_name (kind : Kind) : Decode.choice names (.str kind.name) = some kind := by
  cases kind <;> rfl

theorem Choice.decode_encode (c : Choice) : decode c.encode = some c := by
  simp [decode, encode, fields, Named.get?_cons, Decode.string, Decode.any]

namespace DisplayRules

@[simp] theorem get?_encodeValues {k name : String} {m : Named (List Json)} :
    Named.get? (encodeValues k m) name =
      if name = k then
        if m = [] then none else some (.obj (m.map fun p => (p.1, .arr p.2)))
      else none := by
  cases m with
  | nil => exact (ite_self none).symm
  | cons p m => simp [encodeValues, Named.get?_cons, Named.get?_nil]

theorem decodeValues_map (m : Named (List Json)) :
    decodeValues (.obj (m.map fun p => (p.1, .arr p.2))) = some m := by
  have each : ∀ vs : List Json, Decode.list Decode.any (.arr vs) = some vs := fun vs => by
    have same := @items_map Json Decode.any id vs fun _ _ => rfl
    rwa [List.map_id] at same
  exact dict_map fun p _ => each p.2

theorem decode_encode (r : DisplayRules) : decode r.encode = some r := by
  simp [decode, encode, fields, orElse_member (decodeValues_map _)]

end DisplayRules

theorem Extraction.decode_encode (e : Extraction) : decode e.encode = some e := by
  cases e
  simp [decode, encode, fields, Named.get?_cons, Decode.string]

theorem LocatorMode.decode_encode (m : LocatorMode) : decode m.encode = some m := by
  have extraction : (m.extraction.map Extraction.encode).elim (some none)
      (Decode.orNull Extraction.decode) = some m.extraction :=
    optional_member (fun e _ => e.decode_encode) nofun
  simp [decode, encode, fields, Named.get?_cons, Decode.string, extraction]

/-! ## Declarations -/

namespace Schema

/-- The parameters inside a declaration are read off the member `options`, whatever the other
members are. -/
theorem decodeInMembers_eq (o : Object) :
    decodeInMembers o = (o.get? "options").elim (some []) decodeArray := by
  induction o with
  | nil => rfl
  | cons p o ih =>
    obtain ⟨k, v⟩ := p
    rw [decodeInMembers, Named.get?_cons, BEq.comm (a := k), ih]
    split <;> rfl

theorem encodeEach_eq_map (ss : List Schema) : encodeEach ss = ss.map encode := by
  induction ss with
  | nil => rfl
  | cons s ss ih => rw [encodeEach, ih, List.map_cons]

/-- The members of a declaration that is written. -/
def members (s : Schema) : Object :=
  encodeHead s.name s.kind s.default s.display s.choices
    ++ memberUnlessEmpty "options" encode s.options ++ encodeTail s.extraction s.modes

theorem encode_eq (s : Schema) : s.encode = .obj s.members := by
  obtain ⟨name, kind, default, display, choices, options, extraction, modes⟩ := s
  rw [encode, encodeEach_eq_map]
  rfl

theorem get?_options (s : Schema) :
    s.members.get? "options" = if s.options
      = [] then none else some (.arr (s.options.map encode)) := by
  simp [members, encodeHead, encodeTail, Named.get?_cons]

/-- The other fields of a declaration come back around the parameters inside it. -/
theorem decodeWith_members (s : Schema) : decodeWith s.options (.obj s.members) = some s := by
  obtain ⟨name, kind, default, display, choices, options, extraction, modes⟩ := s
  have displayed : (display.map DisplayRules.encode).elim (some none)
      (Decode.orNull DisplayRules.decode) = some display :=
    optional_member (fun r _ => r.decode_encode) nofun
  have extracted : (extraction.map Extraction.encode).elim (some none)
      (Decode.orNull Extraction.decode) = some extraction :=
    optional_member (fun e _ => e.decode_encode) nofun
  have chosen : Decode.list Choice.decode (.arr (choices.map Choice.encode)) = some choices :=
    list_map fun c _ => c.decode_encode
  have told : Decode.list LocatorMode.decode (.arr (modes.map LocatorMode.encode)) = some modes :=
    list_map fun m _ => m.decode_encode
  simp [decodeWith, members, encodeHead, encodeTail, fields, fieldNames, Named.get?_cons,
    Decode.string, Decode.any, Kind.decode_name, displayed, extracted, orElse_member chosen,
    orElse_member told]

/-- A declaration comes back if the parameters inside it do. -/
theorem decode_encode_of_options {s : Schema}
    (inside : decodeEach (encodeEach s.options) = some s.options) :
    decode s.encode = some s := by
  have options : (s.members.get? "options").elim (some []) decodeArray = some s.options := by
    rw [get?_options, ← encodeEach_eq_map]
    exact orElse_member inside
  rw [encode_eq, decode, decodeInMembers_eq, options, Option.bind_some, decodeWith_members]

mutual

/-- **A declaration of a parameter comes back**, with all the declarations inside it. -/
theorem decode_encode : ∀ s : Schema, decode s.encode = some s
  | ⟨_, _, _, _, _, options, _, _⟩ => decode_encode_of_options (decodeEach_encodeEach options)

theorem decodeEach_encodeEach : ∀ ss : List Schema, decodeEach (encodeEach ss) = some ss
  | [] => rfl
  | s :: ss => by
    rw [encodeEach, decodeEach, decode_encode s, decodeEach_encodeEach ss, Option.bind_some,
      Option.map_some]

end

end Schema

/-- **A declaration of a node type comes back.** -/
theorem Spec.decode_encode {s : Spec} (fits : s.version < 2 ^ (32 : Nat)) :
    decode s.encode = some s := by
  have version : Decode.intIn 0 maxVersion (ofNat s.version) = some (s.version : Int) :=
    intIn_ofNat (Nat.le_sub_one_of_lt fits)
  simp [decode, encode, fields, Named.get?_cons, Decode.string, version, Schema.decodeArray,
    Schema.decodeEach_encodeEach]

end Parameter

namespace Filter

/-! ## Filters -/

theorem Operator.decode_encode (o : Operator) : decode o.encode = some o := by
  simp [decode, encode, fields, Named.get?_cons, Decode.string, Decode.bool]

theorem Condition.decode_encode (c : Condition) : decode c.encode = some c := by
  simp [decode, encode, fields, Named.get?_cons, Named.get?_nil, Decode.any, Operator.decode_encode]

/-- **A filter comes back.** -/
theorem decode_encode (f : Filter) : decode f.encode = some f := by
  have conditions : Decode.list Condition.decode (.arr (f.conditions.map Condition.encode))
      = some f.conditions :=
    list_map fun c _ => c.decode_encode
  simp [decode, decodeOptions, encode, fields, Named.get?_cons, Decode.string,
    Decode.bool, conditions]

end Filter

end Conveyor
