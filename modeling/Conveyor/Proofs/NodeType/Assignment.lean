/-
Fields set by dotted names.

A dotted name is the path of a nested field, and setting it is an update of the mapping from paths
to values: the value stands at the path afterwards (`at?_setPath_self`), and what stands at a path
that neither leads through this one nor lies on its way is as it was (`at?_setPath_of_apart`). What
is no object on the way becomes one, so for the paths below it nothing changes: there was nothing
before, and there is nothing but the field that was set.

From this the laws of updates follow. Set again, a field has the last value and everything else is
as if it had been set once (`setPath_setPath_self`); fields that lie apart can be set in either
order, which shows in nothing but the order in which new members come to stand (`setPath_comm`).
-/
import Conveyor.NodeType.Fields
import Conveyor.Proofs.Json.Equivalence
import Conveyor.Proofs.Named

set_option autoImplicit false

namespace Conveyor

/-! ## Paths of keys -/

namespace Json

/-- The value at a path of keys, which leads through members of objects only. -/
def at? : Json → List String → Option Json
  | v, [] => some v
  | v, key :: keys => (v.member? key).bind fun w => at? w keys

theorem at?_obj_cons (o : Object) (key : String) (path : List String) :
    (obj o).at? (key :: path) = (o.get? key).bind fun v => v.at? path := rfl

/-- Every object holds each name once. -/
abbrev Distinct : Json → Prop := Proper fun _ => True

/-- The same values up to the order of the members of objects. -/
abbrev SameMapping : Json → Json → Prop := Alike (· = ·)

variable {o a b : Object} {v : Json} {key : String} {f g : Option Json → Json}

theorem SameMapping.refl (distinct : v.Distinct) : v.SameMapping v :=
  Alike.refl (fun _ _ => rfl) distinct

theorem SameMapping.of_perm (distinct : (obj a).Distinct) (moved : a.Perm b) :
    (obj a).SameMapping (.obj b) := by
  cases distinct with
  | obj names members =>
    refine .obj (moved.map Prod.fst) fun name v w hv hw => ?_
    have mem : (name, w) ∈ a := moved.mem_iff.2 (Named.mem_of_get? hw)
    obtain rfl := Option.some.inj (hv.symm.trans (Named.get?_of_mem names mem))
    exact SameMapping.refl (members _ mem)

/-- Two changes of one member that give the same mapping there give the same mapping altogether. -/
theorem SameMapping.update (distinct : (obj o).Distinct)
    (same : (f (o.get? key)).SameMapping (g (o.get? key))) :
    (obj (o.update key f)).SameMapping (.obj (o.update key g)) := by
  cases distinct with
  | obj names members =>
    refine .obj (Named.names_update_congr o key f g ▸ .refl _) fun name v w hv hw => ?_
    by_cases here : name = key
    · rw [here, Named.get?_update_self] at hv hw
      exact Option.some.inj hv ▸ Option.some.inj hw ▸ same
    · rw [Named.get?_update_of_ne here] at hv hw
      obtain rfl := Option.some.inj (hv.symm.trans hw)
      exact SameMapping.refl (members _ (Named.mem_of_get? hv))

theorem Distinct.update (distinct : (obj o).Distinct) (changed : (f (o.get? key)).Distinct) :
    (obj (o.update key f)).Distinct := by
  cases distinct with
  | obj names members =>
    refine .obj (Named.nodup_update names key f) fun p mem => ?_
    have found := Named.get?_of_mem (Named.nodup_update names key f) mem
    by_cases here : p.1 = key
    · rw [here, Named.get?_update_self] at found
      exact Option.some.inj found ▸ changed
    · rw [Named.get?_update_of_ne here] at found
      exact members _ (Named.mem_of_get? found)

end Json

namespace NodeType

variable {o : Json.Object} {key : String} {keys path : List String} {v w : Json}

/-- Neither of two paths leads on from the other. -/
def Apart (p q : List String) : Prop := ¬p <+: q ∧ ¬q <+: p

namespace Apart

theorem ne_nil (apart : Apart keys path) : keys ≠ [] :=
  fun empty => apart.1 (empty ▸ List.nil_prefix)

theorem symm (apart : Apart keys path) : Apart path keys := ⟨apart.2, apart.1⟩

/-- Paths that part behind a common key are apart below it. -/
theorem tail (apart : Apart (key :: keys) (key :: path)) : Apart keys path :=
  ⟨fun leads => apart.1 (List.cons_prefix_cons.2 ⟨rfl, leads⟩),
    fun leads => apart.2 (List.cons_prefix_cons.2 ⟨rfl, leads⟩)⟩

end Apart

/-! ## Setting a field -/

theorem splitDots_eq (cs : List Char) : splitDots cs = cs.splitOn '.' := by
  fun_induction splitDots cs with
  | case1 => rw [List.splitOn_nil]
  | case2 cs ih => rw [List.splitOn_cons_eq_if_modifyHead, if_pos (by decide), ih]
  | case3 c cs other none ih => exact absurd (ih.symm.trans none) (List.splitOn_ne_nil '.' cs)
  | case4 c cs other part parts found ih =>
    rw [List.splitOn_cons_eq_if_modifyHead, if_neg (by simpa using other), ← ih, found,
      List.modifyHead_cons]

/-- The keys of a dotted name are the parts between its dots. -/
theorem keysOf_eq (name : String) : keysOf name = (name.toList.splitOn '.').map String.ofList := by
  rw [keysOf, splitDots_eq]

theorem keysOf_ne_nil (name : String) : keysOf name ≠ [] := by
  rw [keysOf_eq]
  exact mt List.map_eq_nil_iff.1 (List.splitOn_ne_nil '.' _)

/-- Below its first key, a longer path is set in the object that stands there, or in a new one. -/
theorem setPath_cons (longer : keys ≠ []) (o : Json.Object) (key : String) (v : Json) :
    setPath o (key :: keys) v = o.update key fun old => .obj (setPath (membersOf old) keys v) := by
  obtain ⟨k, ks, rfl⟩ := List.exists_cons_of_ne_nil longer
  rfl

/-- Setting a field changes one member. -/
theorem setPath_eq_update (key : String) (keys : List String) (v : Json) :
    ∃ f, ∀ o : Json.Object, setPath o (key :: keys) v = o.update key f := by
  by_cases longer : keys = []
  · refine ⟨fun _ => v, fun o => ?_⟩
    rw [longer, setPath, Named.insert]
  · exact ⟨_, fun o => setPath_cons longer o key v⟩

/-- What lies below a member is found in the object that stands there, if one does. -/
theorem at?_membersOf (old : Option Json) (some_key : path ≠ []) :
    (Json.obj (membersOf old)).at? path = old.bind fun v => v.at? path := by
  obtain ⟨key, keys, rfl⟩ := List.exists_cons_of_ne_nil some_key
  cases old with
  | none => rfl
  | some v => cases v <;> rfl

theorem distinct_membersOf (distinct : (Json.obj o).Distinct) (key : String) :
    (Json.obj (membersOf (o.get? key))).Distinct := by
  have nothing : (Json.obj []).Distinct := .obj List.nodup_nil nofun
  cases found : o.get? key with
  | none => exact nothing
  | some v =>
    cases distinct with
    | obj names members =>
      have inside := members _ (Named.mem_of_get? found)
      cases v with
      | obj o => exact inside
      | null | bool | num | str | arr => exact nothing

theorem distinct_setPath (distinct : (Json.obj o).Distinct) (value : v.Distinct)
    (keys : List String) : (Json.obj (setPath o keys v)).Distinct := by
  induction keys generalizing o with
  | nil => exact distinct
  | cons key keys ih =>
    by_cases longer : keys = []
    · rw [longer]
      exact distinct.update value
    · rw [setPath_cons longer]
      exact distinct.update (ih (distinct_membersOf distinct key))

/-! ## The laws -/

/-- The value that was set stands at the path. -/
theorem at?_setPath_self (some_key : keys ≠ []) (o : Json.Object) (v : Json) :
    (Json.obj (setPath o keys v)).at? keys = some v := by
  induction keys generalizing o with
  | nil => exact absurd rfl some_key
  | cons key keys ih =>
    rw [Json.at?_obj_cons]
    by_cases longer : keys = []
    · rw [longer, setPath, Named.get?_insert_self]
      rfl
    · rw [setPath_cons longer, Named.get?_update_self, Option.bind_some]
      exact ih longer _

/-- What stands apart from the path is as it was. -/
theorem at?_setPath_of_apart (apart : Apart keys path) (o : Json.Object) (v : Json) :
    (Json.obj (setPath o keys v)).at? path = (Json.obj o).at? path := by
  induction keys generalizing o path with
  | nil => exact absurd rfl apart.ne_nil
  | cons key keys ih =>
    obtain ⟨other, path, rfl⟩ := List.exists_cons_of_ne_nil apart.symm.ne_nil
    rw [Json.at?_obj_cons, Json.at?_obj_cons]
    by_cases same : other = key
    · -- Both paths lead through this member; the other one finds what it found, also if the member
      -- was no object.
      rw [same] at apart ⊢
      rw [setPath_cons apart.tail.ne_nil, Named.get?_update_self, Option.bind_some, ih apart.tail,
        at?_membersOf _ apart.tail.symm.ne_nil]
    · obtain ⟨f, changes⟩ := setPath_eq_update key keys v
      rw [changes, Named.get?_update_of_ne same]

/-- Of two values set at one path, the second stays and the first leaves no trace. -/
theorem setPath_setPath_self (o : Json.Object) (keys : List String) (v w : Json) :
    setPath (setPath o keys v) keys w = setPath o keys w := by
  induction keys generalizing o with
  | nil => rfl
  | cons key keys ih =>
    by_cases longer : keys = []
    · simp only [longer, setPath, Named.insert, Named.update_update_self]
    · simp only [setPath_cons longer, Named.update_update_self, membersOf, ih]

/-- Values at paths that are apart can be set in either order. -/
theorem setPath_comm (apart : Apart keys path) (distinct : (Json.obj o).Distinct) (hv : v.Distinct)
    (hw : w.Distinct) : (Json.obj (setPath (setPath o keys v) path w)).SameMapping
    (.obj (setPath (setPath o path w) keys v)) := by
  induction keys generalizing o path with
  | nil => exact absurd rfl apart.ne_nil
  | cons key keys ih =>
    obtain ⟨other, path, rfl⟩ := List.exists_cons_of_ne_nil apart.symm.ne_nil
    by_cases same : key = other
    · rw [← same] at apart ⊢
      have longer := apart.tail.ne_nil
      have longer' := apart.tail.symm.ne_nil
      rw [setPath_cons longer, setPath_cons longer', setPath_cons longer, setPath_cons longer',
        Named.update_update_self, Named.update_update_self]
      exact Json.SameMapping.update distinct (ih apart.tail (distinct_membersOf distinct key))
    · -- Two members change, and the order only matters if both are new.
      have final := distinct_setPath (distinct_setPath distinct hv (key :: keys)) hw (other :: path)
      obtain ⟨f, changes⟩ := setPath_eq_update key keys v
      obtain ⟨g, changes'⟩ := setPath_eq_update other path w
      rw [changes, changes'] at final ⊢
      rw [changes', changes]
      exact Json.SameMapping.of_perm final (Named.update_comm same o f g)

/-- **Setting fields by dotted names is a lawful update.** The keys of a name are the parts between
its dots. The value stands at them afterwards, and whatever stands apart from them is as it was. A
field that is set twice is as if it had been set once with the last value, and two fields that are
apart can be set in either order. -/
theorem setPath_lawful (o : Json.Object) (name : String) (v : Json) :
    keysOf name = (name.toList.splitOn '.').map String.ofList ∧
    (Json.obj (setPath o (keysOf name) v)).at? (keysOf name) = some v ∧
    (∀ path, Apart (keysOf name) path →
      (Json.obj (setPath o (keysOf name) v)).at? path = (Json.obj o).at? path) ∧
    (∀ w, setPath (setPath o (keysOf name) v) (keysOf name) w = setPath o (keysOf name) w) ∧
    ∀ other w, Apart (keysOf name) (keysOf other) → (Json.obj o).Distinct → v.Distinct →
      w.Distinct → (Json.obj (setPath (setPath o (keysOf name) v) (keysOf other) w)).SameMapping
        (.obj (setPath (setPath o (keysOf other) w) (keysOf name) v)) :=
  ⟨keysOf_eq name, at?_setPath_self (keysOf_ne_nil name) o v,
    fun _ apart => at?_setPath_of_apart apart o v, setPath_setPath_self o (keysOf name) v,
    fun _ _ => setPath_comm⟩

instance (p q : List String) : Decidable (Apart p q) := inferInstanceAs (Decidable (_ ∧ _))

/-- A record whose first field is no object. -/
def labelled : Json.Object := [("label", .str "x"), ("size", .obj [("width", .num (.int 3))])]

example :
    setPath (setPath labelled (keysOf "label.text.") (.bool true)) (keysOf "size..height") .null
    = [("label", .obj [("text", .obj [("", .bool true)])]),
       ("size", .obj [("width", .num (.int 3)), ("", .obj [("height", .null)])])] := by
  cbv

/-- Two fields below a member that was no object, with an empty key in one of the names. -/
theorem labelled_in_any_order :
    Apart (keysOf "label.text.") (keysOf "label.color") ∧ (Json.obj labelled).Distinct ∧
    (Json.obj (setPath labelled (keysOf "label.text.") (.bool true))).at? ["size", "width"]
      = some (.num (.int 3)) ∧
    (Json.obj
      (setPath (setPath labelled (keysOf "label.text.") (.bool true))
        (keysOf "label.color") .null)).SameMapping
      (.obj
        (setPath (setPath labelled (keysOf "label.color") .null)
          (keysOf "label.text.") (.bool true))) := by
  have apart : Apart (keysOf "label.text.") (keysOf "label.color") := by decide
  have distinct : (Json.obj labelled).Distinct := by
    refine .obj (by decide) fun q mem => ?_
    rcases List.mem_cons.1 mem with rfl | mem
    · exact .str _
    · rw [List.mem_singleton.1 mem]
      refine .obj (by decide) fun q mem => ?_
      rw [List.mem_singleton.1 mem]
      exact .num trivial
  obtain ⟨-, -, frame, -, comm⟩ := setPath_lawful labelled "label.text." (.bool true)
  exact ⟨apart, distinct, frame ["size", "width"] (by decide),
    comm "label.color" .null apart distinct (.bool true) .null⟩

end NodeType

end Conveyor
