/-
What the hidden parameters of a node have influence on.

A parameter that is hidden is never read, whatever is configured for it. The rules that decide what
is shown do read it: they look at configured values and do not ask whether these are shown
themselves. So a hidden value has influence on the parameters that have a rule about it, and on
nothing else (`Resolver.get_hidden`).

The argument has two halves. Whether a parameter is shown depends on the values that its own rules
look at (`Siblings.shows_configure`), so a path starts with the same declaration unless one of them
differs. And from there on only the value under the first key of the path is read
(`Path.lookup_congr`), which is that of a parameter that is shown. The second half needs that a
selector reads the key back as it was written. It does so unless there is a backslash in it, which
comes back doubled, and then the value of another parameter is read.
-/
import Conveyor.Parameter.Resolver
import Conveyor.Proofs.Parameter.Selector

set_option autoImplicit false

namespace Conveyor

/-- What a node sees of the run if other parameters are configured for it, in a workflow of any
nodes. -/
def View.configure (v : View) (nodes : List Node) (parameters : Json.Object) : View :=
  { v with
    workflow := { v.workflow with nodes := nodes }
    node := { v.node with parameters := parameters } }

namespace Parameter

/-! ## Rules -/

/-- A declaration has a rule about a parameter. -/
def Schema.LooksAt (d : Schema) (name : String) : Prop :=
  ∃ rules, d.display = some rules ∧
    ∃ rule ∈ rules.showFor ++ rules.hideFor, rule.1 ≠ versionName ∧ Siblings.plainName rule.1 = name

namespace Siblings

/-- The same declarations with other values. -/
def configure (s : Siblings) (parameters : Json.Object) : Siblings :=
  { s with parameters := parameters }

/-- No declaration of a name is shown. -/
def Hides (s : Siblings) (name : String) : Prop :=
  ∀ d ∈ s.properties, d.name = name → s.shows d = false

/-- Other values differ only where nothing is shown, neither with these nor with the others. -/
def HidesChange (s : Siblings) (q : Json.Object) : Prop :=
  ∀ name, s.parameters.get? name ≠ q.get? name → s.Hides name ∧ (s.configure q).Hides name

variable {s : Siblings} {q : Json.Object} {d : Schema} {k : String}

theorem valueOf_configure {name : String}
    (agree : name ≠ versionName → s.parameters.get? (plainName name) = q.get? (plainName name)) :
    (s.configure q).valueOf name = s.valueOf name := by
  unfold valueOf
  split
  · rfl
  · rename_i other
    rw [agree other]
    rfl

/-- Rules decide alike if they find the same values. -/
theorem shows_configure (agree : ∀ name, d.LooksAt name → s.parameters.get? name = q.get? name) :
    (s.configure q).shows d = s.shows d := by
  unfold shows
  cases found : d.display with
  | none => rfl
  | some rules =>
    have same : ∀ rule ∈ rules.showFor ++ rules.hideFor,
        (s.configure q).hasOneOf rule = s.hasOneOf rule := by
      intro rule mem
      unfold hasOneOf
      rw [valueOf_configure fun other => agree _ ⟨rules, found, rule, mem, other, rfl⟩]
    have shown : rules.showFor.all (s.configure q).hasOneOf = rules.showFor.all s.hasOneOf := by
      refine Bool.eq_iff_iff.2 ?_
      simp only [List.all_eq_true]
      exact forall₂_congr fun rule mem => by rw [same rule (List.mem_append_left _ mem)]
    have hidden : rules.hideFor.any (s.configure q).hasOneOf = rules.hideFor.any s.hasOneOf := by
      refine Bool.eq_iff_iff.2 ?_
      simp only [List.any_eq_true]
      exact exists_congr fun rule => and_congr_right fun mem => by
        rw [same rule (List.mem_append_right _ mem)]
    simp only [shown, hidden]

/-- A declaration that is shown with one of two configurations only has a rule about something that
differs. -/
theorem looksAt_of_shows_ne (differ : (s.configure q).shows d ≠ s.shows d) :
    ∃ name, d.LooksAt name ∧ s.parameters.get? name ≠ q.get? name := by
  by_contra none
  refine differ (shows_configure fun name looks => ?_)
  by_contra other
  exact none ⟨name, looks, other⟩

/-- What is shown under a name is the same if its declarations are shown alike. -/
theorem find?_visible_configure
    (alike : ∀ d ∈ s.properties, d.name = k → (s.configure q).shows d = s.shows d) :
    (s.configure q).visible.find? (·.name == k) = s.visible.find? (·.name == k) := by
  have pointwise : ∀ ds : List Schema,
      (∀ d ∈ ds, d.name = k → (s.configure q).shows d = s.shows d) →
      (ds.filter (s.configure q).shows).find? (·.name == k)
      = (ds.filter s.shows).find? (·.name == k) := by
    intro ds
    induction ds with
    | nil => intro _; rfl
    | cons d ds ih =>
      intro alike
      have rest := ih fun d' mem => alike d' (List.mem_cons_of_mem d mem)
      simp only [List.find?_filter, List.find?_cons] at rest ⊢
      by_cases named : d.name = k
      · rw [alike d List.mem_cons_self named, rest]
      · simp only [beq_eq_false_iff_ne.2 named, Bool.false_eq_true, and_false, decide_false, rest]
  exact pointwise s.properties alike

/-- What is shown under a name has the same value in configurations that differ only where nothing
is shown. -/
theorem HidesChange.agree (change : s.HidesChange q)
    (found : s.visible.find? (·.name == k) = some d) :
    s.parameters.get? k = q.get? k := by
  by_contra differ
  obtain ⟨declared, shown⟩ := List.mem_filter.1 (List.mem_of_find?_eq_some found)
  have named := List.find?_some found
  simp only [beq_iff_eq] at named
  have hidden := (change k differ).1 d declared named
  exact Bool.false_ne_true (hidden.symm.trans shown)

end Siblings

/-! ## Selectors -/

namespace Path

/-- The key under which a value is looked up, if a selector can spell one. -/
def spelled? (key : String) : Option String := (readBack? key.toList).map String.ofList

theorem spelled?_of_simple {key other : String} (simple : '\\' ∉ key.toList)
    (spelled : spelled? key = some other) :
    other = key := by
  obtain ⟨cs, read, rfl⟩ := Option.map_eq_some_iff.1 spelled
  obtain ⟨-, rfl⟩ := readBack?_eq_some_iff.1 read
  rw [doubled_eq_self_iff.2 simple, String.ofList_toList]

/-- A backslash is read back as two, so this is the key of another parameter. -/
example : spelled? "a\\b" = some "a\\\\b" := by rfl

/-- Of the members of an object, a path looks only at the one that its first key is spelled as. -/
theorem lookup_congr {p q : Json.Object} {k : String} (rest : Path)
    (agree : ∀ other, spelled? k = some other → p.get? other = q.get? other) :
    lookup (.obj p) (.key k :: rest) = lookup (.obj q) (.key k :: rest) := by
  have first : selector? (.key k) = (spelled? k).map .key := by
    simp only [selector?, spelled?, Option.map_map]
    rfl
  unfold lookup
  rw [List.mapM_cons, first]
  cases spelled : spelled? k with
  | none => rfl
  | some other =>
    cases rest.mapM selector? with
    | none => rfl
    | some rest =>
      have member : Json.member? (.obj p) other = Json.member? (.obj q) other := agree other spelled
      simp only [Option.bind_eq_bind, Option.bind_some, Option.pure_def, Option.map_some,
        selectAll, selectFrom, List.flatMap_cons, List.flatMap_nil, List.append_nil, member]

end Path

/-- What is written for a parameter depends on the value under the first key of its path only. -/
theorem written_congr {p q : Json.Object} {k : String} (s : Schema) (rest below : Path)
    (path : String) (fallback : Option Json)
    (agree : ∀ other, Path.spelled? k = some other → p.get? other = q.get? other) :
    written p s (.key k :: rest) below path fallback = written q s
      (.key k :: rest) below path fallback := by
  unfold written find
  rw [Path.lookup_congr rest agree]

/-! ## Reading a parameter -/

/-- What decides about the declarations of a node type for a node. -/
def Spec.siblings (spec : Spec) (node : Node) : Siblings :=
  ⟨spec.properties, node.parameters, node.typeVersion⟩

/-- With other values a declaration is no longer shown, or shown when it was not, and it has a rule
about something that differs. -/
def Siblings.Toggles (s : Siblings) (q : Json.Object) (d : Schema) : Prop :=
  (s.configure q).shows d ≠ s.shows d ∧ ∃ name, d.LooksAt name ∧
    s.parameters.get? name ≠ q.get? name

namespace Resolver

variable (r : Resolver) (v : View) (nodes : List Node) (q : Json.Object) (path : String)
  (fallback : Option Json) (itemIndex : Nat) (access : Access)

/-- A path that starts with the same declaration, for which the same is configured, has the same
value. -/
theorem get_configure {spec : Spec} {k : String} {rest : Path}
    (known : r.spec? v.node.type = some spec) (parsed : Path.parse? path = some (.key k :: rest))
    (same : ((spec.siblings v.node).configure q).visible.find? (·.name == k)
      = (spec.siblings v.node).visible.find? (·.name == k))
    (agree : ∀ d, (spec.siblings v.node).visible.find? (·.name == k) = some d →
      ∀ other, Path.spelled? k = some other → v.node.parameters.get? other = q.get? other) :
    r.get (v.configure nodes q) path fallback itemIndex access
      = r.get v path fallback itemIndex access := by
  -- Resolving reads the node for its declaration, for what runs its code and for what is
  -- configured.
  have known' : r.spec? (v.configure nodes q).node.type = some spec := known
  have runner : (v.configure nodes q).runner r.box itemIndex = v.runner r.box itemIndex := rfl
  have siblings :
      (⟨spec.properties, (v.configure nodes q).node.parameters,
        (v.configure nodes q).node.typeVersion⟩ : Siblings) = (spec.siblings v.node).configure q :=
      rfl
  have siblings' : (⟨spec.properties, v.node.parameters, v.node.typeVersion⟩ : Siblings)
      = spec.siblings v.node := rfl
  have start : locate ((spec.siblings v.node).configure q).visible (.key k :: rest)
      = locate (spec.siblings v.node).visible (.key k :: rest) := by simp only [locate, same]
  simp only [get, known, known', parsed, runner, siblings, siblings', start]
  cases found : (spec.siblings v.node).visible.find? (·.name == k) with
  | none => simp only [locate, found, Option.map_none]
  | some d =>
    -- Nothing is configured differently where the declaration is looked for.
    have alike : ∀ s below,
        written (v.configure nodes q).node.parameters s (.key k :: rest) below path fallback
        = written v.node.parameters s (.key k :: rest) below path fallback :=
      fun s below => (written_congr s rest below path fallback (agree d found)).symm
    simp only [locate, found, Option.map_some, alike]
    rfl

/-- **Hidden parameters influence only who has a rule about them.** Of two configurations of a node
that differ only in what is hidden with both, a path reads the same, unless a declaration of the
parameter it starts with is shown with one of them only, and has a rule about a parameter in which
they differ. A key with a backslash may read the value of another parameter, and so one in which
they differ. -/
theorem get_hidden
    (change : ∀ spec, r.spec? v.node.type = some spec → (spec.siblings v.node).HidesChange q) :
    r.get (v.configure nodes q) path fallback itemIndex access
      = r.get v path fallback itemIndex access ∨
    ∃ spec k rest, r.spec? v.node.type = some spec ∧ Path.parse? path = some (.key k :: rest) ∧
      ((∃ d ∈ spec.properties, d.name = k ∧ (spec.siblings v.node).Toggles q d) ∨
        '\\' ∈ k.toList ∧ ∃ other, Path.spelled? k = some other ∧
          v.node.parameters.get? other ≠ q.get? other) := by
  have known' : r.spec? (v.configure nodes q).node.type = r.spec? v.node.type := rfl
  cases known : r.spec? v.node.type with
  | none => exact .inl (by simp only [get, known', known]; rfl)
  | some spec =>
    cases parsed : Path.parse? path with
    | none => exact .inl (by simp only [get, known', known, parsed])
    | some segments =>
      match segments with
      | [] | .index _ :: _ => exact .inl (by simp only [get, known', known, parsed, locate])
      | .key k :: rest =>
        -- Without the exceptions, the same declaration is found, and the value under its name does
        -- not differ.
        refine or_iff_not_imp_right.2 fun none => ?_
        obtain ⟨steady, apart⟩ := not_or.1 fun some => none ⟨spec, k, rest, rfl, rfl, some⟩
        refine get_configure r v nodes q path fallback itemIndex access known parsed ?_
          fun d found other spelled => ?_
        · refine Siblings.find?_visible_configure fun d declared named => ?_
          by_contra differ
          exact steady ⟨d, declared, named, differ, Siblings.looksAt_of_shows_ne differ⟩
        · by_cases simple : '\\' ∈ k.toList
          · by_contra differ
            exact apart ⟨simple, other, spelled, differ⟩
          · rw [Path.spelled?_of_simple simple spelled]
            exact (change spec known).agree found

end Resolver

/-! ## A parameter that is shown for the value of a hidden one -/

namespace Veiled

/-- Shown for the advanced mode only. -/
def advanced (name : String) : Schema :=
  { name := name, kind := .number, display := some { showFor := [("mode", [.str "advanced"])] } }

/-- Details and a limit are shown in the advanced mode, and a note if there is one detail. -/
def spec : Spec :=
  { name := "probe", displayName := "Probe"
    properties :=
      [{ name := "mode", kind := .options, default := .str "simple" }, advanced "limit",
        advanced "details",
        { name := "note", kind := .string,
          display := some { showFor := [("details", [Json.ofNat 1])] } }] }

/-- Knows the one node type. -/
def resolver : Resolver := ⟨fun _ => some spec, ⟨0, []⟩⟩

/-- Values of a node in the simple mode, where limit and details are hidden. -/
def values (limit details : Nat) : Json.Object :=
  [("limit", Json.ofNat limit), ("details", Json.ofNat details), ("note", .str "x")]

/-- A node in the simple mode. -/
def view (limit details : Nat) : View :=
  { workflow := { id := "w", name := "W", nodes := [] }
    node := { id := "1", name := "Probe", type := "probe", parameters := values limit details } }

/-- Limit and details have the one rule, which is about the mode. -/
theorem eq_advanced {d : Schema} (declared : d ∈ spec.properties)
    (named : d.name = "limit" ∨ d.name = "details") :
    d = advanced d.name := by
  simp only [spec, List.mem_cons, List.not_mem_nil, or_false] at declared
  rcases declared with rfl | rfl | rfl | rfl
  · exact absurd named (by decide)
  · rfl
  · rfl
  · exact absurd named (by decide)

theorem hidesChange (limit details limit' details' : Nat) :
    (spec.siblings (view limit details).node).HidesChange (values limit' details') := by
  intro name differ
  have hidden : name = "limit" ∨ name = "details" := by
    by_contra other
    refine differ ?_
    obtain ⟨notLimit, notDetails⟩ := not_or.1 other
    change (values limit details).get? name = (values limit' details').get? name
    simp only [values, Named.get?_cons, beq_eq_false_iff_ne.2 notLimit,
      beq_eq_false_iff_ne.2 notDetails, Bool.false_eq_true, if_false]
  have hides : ∀ limit details, (spec.siblings (view limit details).node).Hides name := by
    intro limit details d declared named
    rw [eq_advanced declared (named ▸ hidden), named]
    rcases hidden with rfl | rfl <;> rfl
  exact ⟨hides limit details, hides limit' details'⟩

end Veiled

/-- What is configured for a hidden limit does not matter to who asks for it. -/
theorem limit_without_influence :
    Veiled.resolver.get ((Veiled.view 99 1).configure [] (Veiled.values 5 2)) "limit"
        (some .null) 0 .raw
      = Veiled.resolver.get (Veiled.view 99 1) "limit" (some .null) 0 .raw := by
  refine (Resolver.get_hidden Veiled.resolver (Veiled.view 99 1) [] (Veiled.values 5 2) "limit"
    (some .null) 0 .raw fun spec known => Option.some.inj known ▸
    Veiled.hidesChange 99 1 5 2).resolve_right ?_
  rintro ⟨spec, k, rest, known, parsed, exception⟩
  obtain rfl := Option.some.inj known
  have path : Path.parse? "limit" = some [.key "limit"] := by rfl
  obtain ⟨rfl, -⟩ : k = "limit" ∧ rest = [] := by simpa [path, eq_comm] using parsed
  rcases exception with ⟨d, declared, named, -, name, ⟨rules, shown, rule, mem, -, rfl⟩,
    differ⟩ | ⟨backslash, -⟩
  · rw [Veiled.eq_advanced declared (.inl named)] at shown
    obtain rfl := Option.some.inj shown
    obtain rfl := List.mem_singleton.1 mem
    exact differ rfl
  · exact absurd backslash (by decide)

/-- **A hidden value that matters.** The details are hidden in the simple mode, and yet the note is
shown with one of two values of theirs and not with the other. -/
theorem details_matter :
    (Veiled.spec.siblings (Veiled.view 5 1).node).HidesChange (Veiled.values 5 2) ∧
    Veiled.resolver.get (Veiled.view 5 1) "note" none 0 .raw = .ok (.str "x") ∧
    Veiled.resolver.get ((Veiled.view 5 1).configure [] (Veiled.values 5 2)) "note" none 0 .raw
      = .error (.notFound "note") :=
  ⟨Veiled.hidesChange 5 1 5 2, by rfl, by rfl⟩

end Parameter

end Conveyor
