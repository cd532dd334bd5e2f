/-
Equality of JSON values is an equivalence.

An object is compared in one direction only: every member of the first is looked up in the second.
Together with the number of members this is enough, since names stand once in an object: as many
different names, all of them found, are all the names there are. So what is decided is a relation
that has no direction (`equal_iff_alike`): arrays entry by entry, objects name by name, numbers as
floats. It is taken over any relation of numbers (`Alike`), and is reflexive, symmetric and
transitive where that relation is. Numbers of 64 bits and finite floats are compared by a relation
that is (`Number.equal_self`); symmetry and transitivity hold of all floats.

A value inside another one is replaced by filling a place (`Place.fill`), and whether the whole is
equal to what it was is decided at that place (`equal_fill`).
-/
import Conveyor.Proofs.Json.Equality

set_option autoImplicit false

namespace Conveyor

namespace Json

/-! ## Values and what they have in common -/

/-- A value whose objects hold each name once, and whose numbers are as required. -/
inductive Proper (required : Number → Prop) : Json → Prop
  | null : Proper required .null
  | bool (b : Bool) : Proper required (.bool b)
  | num {n : Number} (ok : required n) : Proper required (.num n)
  | str (s : String) : Proper required (.str s)
  | arr {xs : List Json} (entries : ∀ x ∈ xs, Proper required x) : Proper required (.arr xs)
  | obj {o : Object} (distinct : o.names.Nodup) (members : ∀ p ∈ o, Proper required p.2) :
    Proper required (.obj o)

/-- Values of the same build, numbers apart, for which there is a relation: arrays with as many
entries, one by one, and objects with the same names, name by name. -/
inductive Alike (same : Number → Number → Prop) : Json → Json → Prop
  | null : Alike same .null .null
  | bool (b : Bool) : Alike same (.bool b) (.bool b)
  | num {m n : Number} (related : same m n) : Alike same (.num m) (.num n)
  | str (s : String) : Alike same (.str s) (.str s)
  | arr {xs ys : List Json} (size : xs.length = ys.length)
      (entries : ∀ (i : Nat) (x y : Json), xs[i]? = some x → ys[i]? = some y → Alike same x y) :
      Alike same (.arr xs) (.arr ys)
  | obj {a b : Object} (names : a.names.Perm b.names)
      (members : ∀ (name : String) (v w : Json), a.get? name = some v → b.get? name = some w →
        Alike same v w) :
      Alike same (.obj a) (.obj b)

variable {required required' : Number → Prop} {same other : Number → Number → Prop} {x y z : Json}

namespace Alike

theorem refl (reflexive : ∀ n, required n → same n n) (hx : x.Proper required) :
    Alike same x x := by
  induction hx with
  | null => exact .null
  | bool b => exact .bool b
  | num ok => exact .num (reflexive _ ok)
  | str s => exact .str s
  | arr _ ih =>
    refine .arr rfl fun i x y hx hy => ?_
    obtain rfl := Option.some.inj (hx.symm.trans hy)
    exact ih x (List.mem_of_getElem? hx)
  | obj _ _ ih =>
    refine .obj (.refl _) fun name v w hv hw => ?_
    obtain rfl := Option.some.inj (hv.symm.trans hw)
    exact ih (name, v) (Named.mem_of_get? hv)

theorem symm (symmetric : ∀ m n, same m n → same n m) (alike : Alike same x y) :
    Alike same y x := by
  induction alike with
  | null => exact .null
  | bool b => exact .bool b
  | num related => exact .num (symmetric _ _ related)
  | str s => exact .str s
  | arr size _ ih => exact .arr size.symm fun i x y hx hy => ih i y x hy hx
  | obj names _ ih => exact .obj names.symm fun name v w hv hw => ih name w v hw hv

theorem trans (transitive : ∀ l m n, same l m → same m n → same l n) (xy : Alike same x y)
    (yz : Alike same y z) :
    Alike same x z := by
  induction xy generalizing z with
  | null =>
    cases yz
    exact .null
  | bool b =>
    cases yz
    exact .bool b
  | num related =>
    cases yz with
    | num related' => exact .num (transitive _ _ _ related related')
  | str s =>
    cases yz
    exact .str s
  | @arr xs ys size _ ih =>
    cases yz with
    -- The middle entry is there because the arrays are of one size, and it is what carries one side
    -- to the other.
    | arr size' entries' =>
      refine .arr (size.trans size') fun i x z hx hz => ?_
      have inside : i < ys.length := size ▸ (List.getElem?_eq_some_iff.1 hx).1
      have hy := List.getElem?_eq_getElem inside
      exact ih i x _ hx hy (entries' i _ z hy hz)
  | obj names _ ih =>
    cases yz with
    | obj names' members' =>
      -- The middle member is found under the same name.
      refine .obj (names.trans names') fun name v w hv hw => ?_
      obtain ⟨u, hu⟩ := Named.mem_names_iff.1 (names.mem_iff.1 (Named.mem_names_iff.2 ⟨v, hv⟩))
      exact ih name v u hv hu (members' name u w hu hw)

/-- Numbers may be compared by another relation that holds of more of those that there are. -/
theorem imp (weaker : ∀ m n, required m → required' n → same m n → other m n)
    (hx : x.Proper required) (hy : y.Proper required') (alike : Alike same x y) :
    Alike other x y := by
  -- The induction is on the likeness; each text is proper in the same shape.
  induction alike with
  | null => exact .null
  | bool b => exact .bool b
  | num related =>
    cases hx with
    | num okX =>
      cases hy with
      | num okY => exact .num (weaker _ _ okX okY related)
  | str s => exact .str s
  | arr size _ ih =>
    cases hx with
    | arr entriesX =>
      cases hy with
      | arr entriesY =>
        exact .arr size fun i x y hx hy =>
          ih i x y hx hy (entriesX x (List.mem_of_getElem? hx))
            (entriesY y (List.mem_of_getElem? hy))
  | obj names _ ih =>
    cases hx with
    | obj _ membersX =>
      cases hy with
      | obj _ membersY =>
        exact .obj names fun name v w hv hw => ih name v w hv hw
          (membersX (name, v) (Named.mem_of_get? hv)) (membersY (name, w) (Named.mem_of_get? hw))

theorem congr (agree : ∀ m n, required m → required' n → (same m n ↔ other m n))
    (hx : x.Proper required) (hy : y.Proper required') : Alike same x y ↔ Alike other x y :=
  ⟨imp (fun m n hm hn => (agree m n hm hn).1) hx hy,
    imp (fun m n hm hn => (agree m n hm hn).2) hx hy⟩

end Alike

/-! ## What equality decides -/

theorem equal_arr_iff {xs ys : List Json} : equal (.arr xs) (.arr ys) = true ↔
    xs.length = ys.length ∧ ∀ (i : Nat) (x y : Json), xs[i]? = some x → ys[i]? = some y →
      equal x y = true := by
  rw [equal, equalItems_iff, List.forall₂_iff_get]
  refine and_congr_right fun size => ?_
  constructor
  · intro all i x y hx hy
    obtain ⟨insideX, rfl⟩ := List.getElem?_eq_some_iff.1 hx
    obtain ⟨insideY, rfl⟩ := List.getElem?_eq_some_iff.1 hy
    exact all i insideX insideY
  · intro all i insideX insideY
    exact all i _ _ (List.getElem?_eq_getElem insideX) (List.getElem?_eq_getElem insideY)

theorem equal_obj_iff {a b : Object} (distinct : a.names.Nodup) : equal (.obj a) (.obj b) = true ↔
    a.names.Perm b.names ∧ ∀ (name : String) (v w : Json), a.get? name = some v →
      b.get? name = some w → equal v w = true := by
  constructor
  · intro same
    obtain ⟨b', known, names, members⟩ := equal_obj distinct same
    obtain rfl := Json.obj.inj known
    refine ⟨names, fun name v w hv hw => ?_⟩
    obtain ⟨w', found, value⟩ := members (name, v) (Named.mem_of_get? hv)
    obtain rfl := Option.some.inj (hw.symm.trans found)
    exact value
  · rintro ⟨names, members⟩
    have size : a.length = b.length := by
      have := names.length_eq
      rwa [Named.names, Named.names, List.length_map, List.length_map] at this
    rw [equal, Bool.and_eq_true, beq_iff_eq, includedIn_iff]
    refine ⟨size, fun p mem => ?_⟩
    obtain ⟨w, found⟩ := Named.mem_names_iff.1 (names.mem_iff.1 (Named.mem_names mem))
    exact ⟨w, found, members p.1 p.2 w (Named.get?_of_mem distinct mem) found⟩

/-- Numbers that are equal as floats. -/
def Number.SameFloat (m n : Number) : Prop := (m.toFloat == n.toFloat) = true

/-- **Texts are equal when they are alike**, which has no direction: the comparison goes by the
names of one side. -/
theorem equal_iff_alike (hx : x.Proper required) :
    equal x y = true ↔ x.Alike Number.SameFloat y := by
  -- The induction is on the left text: the right one has its shape as soon as the two are equal, or
  -- alike.
  induction hx generalizing y with
  | null =>
    constructor
    · intro same
      cases y <;> simp only [equal, Bool.false_eq_true] at same
      exact .null
    · intro alike
      cases alike
      rw [equal]
  | bool b =>
    constructor
    · intro same
      cases y <;> simp only [equal, Bool.false_eq_true, beq_iff_eq] at same
      rw [same]
      exact .bool _
    · intro alike
      cases alike
      rw [equal, beq_self_eq_true]
  | num _ =>
    constructor
    · intro same
      cases y <;> simp only [equal, Bool.false_eq_true] at same
      exact .num same
    · intro alike
      cases alike with
      | num related => exact related
  | str s =>
    constructor
    · intro same
      rw [equal_str same]
      exact .str s
    · intro alike
      cases alike
      rw [equal, beq_self_eq_true]
  -- Entries and members are compared pair by pair, so `ih` is used for each of them in both
  -- directions.
  | arr _ ih =>
    constructor
    · intro same
      obtain ⟨ys, rfl, -⟩ := equal_arr same
      obtain ⟨size, entries⟩ := equal_arr_iff.1 same
      exact .arr size fun i x y hx hy => (ih x (List.mem_of_getElem? hx)).1 (entries i x y hx hy)
    · intro alike
      cases alike with
      | arr size entries =>
        exact equal_arr_iff.2 ⟨size, fun i x y hx hy =>
          (ih x (List.mem_of_getElem? hx)).2 (entries i x y hx hy)⟩
  | obj distinct _ ih =>
    constructor
    · intro same
      obtain ⟨b, rfl, -⟩ := equal_obj distinct same
      obtain ⟨names, members⟩ := (equal_obj_iff distinct).1 same
      exact .obj names fun name v w hv hw =>
        (ih (name, v) (Named.mem_of_get? hv)).1 (members name v w hv hw)
    · intro alike
      cases alike with
      | obj names members =>
        exact (equal_obj_iff distinct).2 ⟨names, fun name v w hv hw =>
          (ih (name, v) (Named.mem_of_get? hv)).2 (members name v w hv hw)⟩

/-! ## An equivalence -/

theorem Number.finite_toFloat {n : Number} (valid : n.Valid) : Decimal.Finite n.toFloat := by
  cases n with
  | float x => exact valid
  | int i =>
    have range : minInt ≤ i ∧ i ≤ maxInt := valid
    rw [minInt, maxInt] at range
    exact Decimal.finite_ofInt (by omega)

theorem Number.equal_self {n : Number} (valid : n.Valid) : n.SameFloat n :=
  Decimal.beq_self (Number.finite_toFloat valid)

/-- A value as the program can hold it. -/
def Valid (x : Json) : Prop := x.Proper Number.Valid

theorem equal_refl (hx : x.Valid) : equal x x = true :=
  (equal_iff_alike hx).2 (.refl (fun _ valid => Number.equal_self valid) hx)

theorem equal_symm (hx : x.Valid) (hy : y.Valid) (xy : equal x y = true) : equal y x = true :=
  (equal_iff_alike hy).2 (((equal_iff_alike hx).1 xy).symm fun _ _ same => BEq.symm same)

theorem equal_comm (hx : x.Valid) (hy : y.Valid) : equal x y = equal y x :=
  Bool.eq_iff_iff.2 ⟨equal_symm hx hy, equal_symm hy hx⟩

theorem equal_trans (hx : x.Valid) (hy : y.Valid) (xy : equal x y = true) (yz : equal y z = true) :
    equal x z = true :=
  (equal_iff_alike hx).2 (((equal_iff_alike hx).1 xy).trans (fun _ _ _ lm mn => BEq.trans lm mn)
    ((equal_iff_alike hy).1 yz))

/-- Equal values are equal to the same values. -/
theorem equal_congr (hx : x.Valid) (hy : y.Valid) (xy : equal x y = true) : equal x z = equal y z :=
  Bool.eq_iff_iff.2 ⟨equal_trans hy hx (equal_symm hx hy xy), equal_trans hx hy xy⟩

theorem Valid.of_perm {a b : Object} (valid : (obj a).Valid) (moved : b.Perm a) :
    (obj b).Valid := by
  cases valid with
  | obj distinct members =>
    exact .obj ((moved.map Prod.fst).nodup_iff.2 distinct) fun p mem =>
      members p (moved.mem_iff.1 mem)

/-- Members may stand in any order. -/
theorem equal_of_perm {a b : Object} (valid : (obj a).Valid) (moved : b.Perm a) :
    equal (.obj a) (.obj b) = true := by
  have self := equal_refl valid
  cases valid with
  | obj distinct members =>
    have members' :
        List.Forall₂ (fun p q : String × Json => p.1 = q.1 ∧ equal p.2 q.2 = true) a a :=
      List.forall₂_same.2 fun p mem => ⟨rfl, equal_refl (members p mem)⟩
    exact equal_obj_of_perm distinct members' moved

/-! ## Places in a value -/

/-- A value with a place in it: the place itself, in an entry of an array, or in a member of an
object. -/
inductive Place where
  | here
  | entry (before : List Json) (inside : Place) (after : List Json)
  | member (before : Object) (name : String) (inside : Place) (after : Object)

/-- The whole when the place is filled. -/
def Place.fill (v : Json) : Place → Json
  | here => v
  | entry before inside after => .arr (before ++ inside.fill v :: after)
  | member before name inside after => .obj (before ++ (name, inside.fill v) :: after)

variable {p : Place}

theorem names_fill {before after : Object} {name : String} (v w : Json) :
    Named.names (before ++ (name, v) :: after) = Named.names (before ++ (name, w) :: after) := by
  simp only [Named.names, List.map_append, List.map_cons]

theorem Proper.fill (hx : (p.fill x).Proper required) (hy : y.Proper required) :
    (p.fill y).Proper required := by
  induction p with
  | here => exact hy
  | entry before inside after ih =>
    cases hx with
    | arr entries =>
      refine .arr fun v mem => ?_
      rcases List.mem_append.1 mem with mem | mem
      · exact entries v (List.mem_append_left _ mem)
      · rcases List.mem_cons.1 mem with rfl | mem
        · exact ih (entries _ (List.mem_append_right _ List.mem_cons_self))
        · exact entries v (List.mem_append_right _ (List.mem_cons_of_mem _ mem))
  | member before name inside after ih =>
    cases hx with
    | obj distinct members =>
      refine .obj (names_fill _ _ ▸ distinct) fun q mem => ?_
      rcases List.mem_append.1 mem with mem | mem
      · exact members q (List.mem_append_left _ mem)
      · rcases List.mem_cons.1 mem with rfl | mem
        · exact ih (members _ (List.mem_append_right _ List.mem_cons_self))
        · exact members q (List.mem_append_right _ (List.mem_cons_of_mem _ mem))

/-- Arrays that differ at one position. -/
theorem equalItems_append {before after : List Json} (valid : (arr (before ++ x :: after)).Valid) :
    equalItems (before ++ x :: after) (before ++ y :: after) = equal x y := by
  cases valid with
  | arr entries =>
    induction before with
    | nil =>
      have rest : equalItems after after = true :=
        equalItems_iff.2
          (List.forall₂_same.2 fun v mem => equal_refl (entries v (List.mem_cons_of_mem _ mem)))
      rw [List.nil_append, List.nil_append, equalItems, rest, Bool.and_true]
    | cons v before ih =>
      rw [List.cons_append, List.cons_append, equalItems, equal_refl (entries v List.mem_cons_self),
        Bool.true_and]
      exact ih fun w mem => entries w (List.mem_cons_of_mem _ mem)

/-- Objects that differ at one name. -/
theorem equal_obj_append {before after : Object} {name : String}
    (valid : (obj (before ++ (name, x) :: after)).Valid) :
    equal (.obj (before ++ (name, x) :: after)) (.obj (before ++ (name, y) :: after))
      = equal x y := by
  cases valid with
  | obj distinct members =>
    have distinct' : (Named.names (before ++ (name, y) :: after)).Nodup := names_fill x y ▸ distinct
    have foundX := Named.get?_of_mem distinct (List.mem_append_right before List.mem_cons_self)
    have foundY := Named.get?_of_mem distinct' (List.mem_append_right before List.mem_cons_self)
    refine Bool.eq_iff_iff.2 ((equal_obj_iff distinct).trans ?_)
    constructor
    · rintro ⟨-, all⟩
      exact all name x y foundX foundY
    · intro same
      refine ⟨names_fill x y ▸ .refl _, fun k v w hv hw => ?_⟩
      -- A member beside the place is found in both, and is equal to itself.
      have beside : (k, v) ∈ before ∨ (k, v) ∈ after → equal v w = true := by
        intro mem
        have mem' : ∀ u, (k, v) ∈ before ++ (name, u) :: after := fun u =>
          mem.elim (List.mem_append_left _) fun mem =>
            List.mem_append_right _ (List.mem_cons_of_mem _ mem)
        obtain rfl := Option.some.inj (hw.symm.trans (Named.get?_of_mem distinct' (mem' y)))
        exact equal_refl (members (k, _) (mem' x))
      rcases List.mem_append.1 (Named.mem_of_get? hv) with mem | mem
      · exact beside (.inl mem)
      · rcases List.mem_cons.1 mem with here | mem
        · obtain ⟨rfl, rfl⟩ := Prod.mk.inj here
          obtain rfl := Option.some.inj (hw.symm.trans foundY)
          exact same
        · exact beside (.inr mem)

/-- **Values that differ at one place are compared there.** -/
theorem equal_fill (valid : (p.fill x).Valid) : equal (p.fill x) (p.fill y) = equal x y := by
  induction p with
  | here => rfl
  | entry before inside after ih =>
    have inner : (inside.fill x).Valid := by
      cases valid with
      | arr entries => exact entries _ (List.mem_append_right _ List.mem_cons_self)
    rw [Place.fill, Place.fill, equal, equalItems_append valid, ih inner]
  | member before name inside after ih =>
    have inner : (inside.fill x).Valid := by
      cases valid with
      | obj _ members => exact members _ (List.mem_append_right _ List.mem_cons_self)
    rw [Place.fill, Place.fill, equal_obj_append valid, ih inner]

/-! ## The laws -/

/-- **Equality is an equivalence** on the values that the program can hold. It does not look at the
order of members, it looks at the number and the order of entries, and a value inside another one
may be replaced by an equal one. -/
theorem equal_lawful {a b : Object} (hx : x.Valid) (hy : y.Valid) (hz : z.Valid)
    (ha : (obj a).Valid) (moved : b.Perm a) (whole : (p.fill x).Valid) :
    equal x x = true ∧ equal x y = equal y x ∧
      (equal x y = true → equal y z = true → equal x z = true) ∧
      (equal (.obj a) z = equal (.obj b) z ∧ equal z (.obj a) = equal z (.obj b)) ∧
      (∀ xs ys : List Json, equal (.arr xs) (.arr ys) = true ↔ xs.length = ys.length ∧
        ∀ (i : Nat) (v w : Json), xs[i]? = some v → ys[i]? = some w → equal v w = true) ∧
      equal (p.fill x) (p.fill y) = equal x y ∧
      (equal x y = true → equal (p.fill x) z = equal (p.fill y) z) := by
  have hb : (obj b).Valid := ha.of_perm moved
  have same : equal (.obj a) (.obj b) = true := equal_of_perm ha moved
  have objects : equal (.obj a) z = equal (.obj b) z := equal_congr ha hb same
  refine ⟨equal_refl hx, equal_comm hx hy, equal_trans hx hy, ⟨objects, ?_⟩,
    fun _ _ => equal_arr_iff, equal_fill whole, fun replaced => ?_⟩
  · rw [equal_comm hz ha, objects, equal_comm hb hz]
  · exact equal_congr whole (whole.fill hy) ((equal_fill whole).trans replaced)

/-- The number one, written as an integer and as a float, in an array in an object. -/
theorem equal_lawful_one :
    let one : Json := .num (.int 1)
    let point : Json := .num (.float 1)
    let place : Place := .member [("first", .null)] "list" (.entry [one] .here [.str "end"]) []
    let members : Object := [("first", .null), ("list", .arr [one])]
    equal one point = true ∧ equal (place.fill one) (place.fill point) = true ∧
      equal (.obj members) (.obj members.reverse) = true := by
  -- The texts are valid, so the laws apply.
  intro one point place members
  have hOne : one.Valid := .num (by decide)
  have hPoint : point.Valid := .num (by decide)
  have hMembers : (Json.obj members).Valid := .obj (by decide) fun q mem => by
    rcases List.mem_cons.1 mem with rfl | mem
    · exact .null
    · rw [List.mem_singleton.1 mem]
      exact .arr fun v mem => List.mem_singleton.1 mem ▸ hOne
  have hWhole : (place.fill one).Valid := .obj (by decide) fun q mem => by
    rcases List.mem_cons.1 mem with rfl | mem
    · exact .null
    · rw [List.mem_singleton.1 mem]
      refine .arr fun v mem => ?_
      rcases List.mem_cons.1 mem with rfl | mem
      · exact hOne
      · rcases List.mem_cons.1 mem with rfl | mem
        · exact hOne
        · rw [List.mem_singleton.1 mem]
          exact .str _
  have laws := equal_lawful hOne hPoint hMembers hMembers (List.reverse_perm members) hWhole
  have same : equal one point = true := by decide
  exact ⟨same, laws.2.2.2.2.2.1.trans same, laws.2.2.2.1.2.symm.trans (equal_refl hMembers)⟩

end Json

end Conveyor
