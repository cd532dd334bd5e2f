/-
Repeating a run from a node on.

A run is repeated faithfully if each node behind the first one that the earlier run took is taken
exactly once more, with the items it had then, and no other node is. By the law of `Renewal` a node
is taken once for every entry that brings it. So each of the nodes that are taken again must have
exactly one source among them that feeds it when its disabled sources have been taken, and none of
them may feed a node that the earlier run left out. The repetition then comes to a good end, since
it takes no more entries than the earlier run did and all of them let a run go on.

Where two branches behind the first node meet again, the repetition is not faithful. The join is
taken as soon as one branch has come to it, with what the other one has left in the earlier run, and
again for the other one. The fork at the end of this file is such a workflow. A join with a disabled
source that is not taken again is not taken at all; with one that is, it waits for that source, and
only what feeds the join from there on counts. And a node that the earlier run left out, since the
last of its sources had nothing for it, is taken now if another one has.
-/
import Conveyor.Proofs.Engine.Renewal

set_option autoImplicit false

namespace Conveyor

namespace Engine

variable {e : Engine} {told : Node → List Items → Attempt} {x : Execution} {g : Graph}
    {w : Workflow}
  {h k begun rest : List Entry} {p p' : Pass} {en : Entry} {s s' : RunState} {n name : String}
  {old : RunData}

/-! ## Faithful repetition -/

/-- A run has been repeated faithfully from the node `n` on: of the entries `h` of the earlier run,
which left the state `s`, those of nodes that can be reached from `n` were taken once more, with the
same items, and no others. -/
structure Faithful (g : Graph) (n : String) (h k : List Entry) (s s' : RunState) : Prop where
  once : (k.map Entry.node).Nodup
  nodes : ∀ name, name ∈ k.map Entry.node ↔ g.Reached [n] name ∧ name ∈ h.map Entry.node
  repeats : ∀ en ∈ k, en.Repeats h
  /-- Every node that can be reached and was executed has been executed exactly once more. -/
  again : ∀ name, g.Reached [n] name → s.tasks.tasks name ≠ [] →
    ∃ t, s'.tasks.tasks name = s.tasks.tasks name ++ [t]
  others : ∀ name, ¬ (g.Reached [n] name ∧ s.tasks.tasks name ≠ []) →
    s'.tasks.tasks name = s.tasks.tasks name

/-- Some nodes up to one of them. -/
def through (names : List String) (name : String) : List String :=
  names.takeWhile (· != name) ++ [name]

/-- When a run can be repeated faithfully from the node `n` on, where `first` is the entry that the
repetition begins with, and `k` are the entries that it takes. They matter for their order only, and
for that where a join has a disabled source. -/
structure Repeatable (D : Dataflow) (g : Graph) (n : String) (h k : List Entry) (first : Entry) :
    Prop where
  first : first.Repeats h
  /-- Every node behind `n` is fed by exactly one of the nodes that are taken again with its
  disabled sources, or after them. -/
  single : ∀ en ∈ h, g.Reached [n] en.node → en.node ≠ n →
    ∃! en', en' ∈ h ∧ g.Reached [n] en'.node ∧ D.feeds en' en.node ∧
      g.Restored (· ∈ through (k.map Entry.node) en'.node) en.node
  /-- The disabled sources of these nodes are taken again. -/
  whole : ∀ en ∈ h, g.Reached [n] en.node → en.node ≠ n → g.Restored (g.Reached [n]) en.node
  /-- No node that is taken again feeds one that comes together then and was not taken before. -/
  quiet : ∀ en ∈ h, g.Reached [n] en.node → ∀ name, D.feeds en name → D.Rejoins g n h name →
    g.Restored (· ∈ through (k.map Entry.node) en.node) name → name ∈ h.map Entry.node

/-- Where a disabled node that can be reached is the only source of whatever it leads to, the order
of the repetition is of no account. -/
theorem restored_of_undivided (undivided : g.Undivided n)
    (feeds : (e.dataflow told g).feeds en name) (restored : g.Restored (g.Reached [n]) name) :
    g.Restored (· ∈ through (k.map Entry.node) en.node) name := by
  intro l hl off
  obtain ⟨l₀, hl₀, source⟩ := (e.dataflow told g).source feeds
  have only := undivided name l hl (restored l hl off) off l₀ hl₀
  rw [← only, source]
  exact List.mem_append_right _ (List.mem_singleton_self _)

/-! ### Up to a node -/

theorem mem_through_of_mem {names : List String} {other : String}
    (mem : other ∈ through names name) :
    other ∈ names ∨ other = name := by
  rcases List.mem_append.1 mem with before | last
  · exact .inl ((List.takeWhile_prefix _).subset before)
  · exact .inr (List.mem_singleton.1 last)

/-- Up to different nodes there are different ones. -/
theorem through_inj {names : List String} {a b : String}
    (same : through names a = through names b) : a = b := by
  have last := congrArg List.getLast? same
  rw [through, through, List.getLast?_concat, List.getLast?_concat] at last
  exact Option.some.inj last

/-- Where no node is taken twice, the nodes up to one that was taken are those of the entries up to
its entry. -/
theorem through_of_prefix {b : List Entry} (once : ((b ++ [en]).map Entry.node).Nodup)
    (early : b ++ [en] <+: k) :
    through (k.map Entry.node) en.node = (b ++ [en]).map Entry.node := by
  obtain ⟨c, rfl⟩ := early
  rw [List.map_append, List.map_singleton] at once
  have before : ∀ other ∈ b.map Entry.node, (other != en.node) = true := by
    intro other hother
    rw [bne_iff_ne]
    rintro rfl
    exact List.disjoint_of_nodup_append once hother (List.mem_singleton_self _)
  rw [through, List.append_assoc, List.map_append, List.takeWhile_append_of_pos before,
    List.singleton_append, List.map_cons, List.takeWhile_cons, bne_self_eq_false,
    if_neg Bool.false_ne_true, List.append_nil, List.map_append, List.map_singleton]

/-- What was taken before a node comes up to it. -/
theorem subset_through {a : List Entry} (early : a <+: k) (apart : name ∉ a.map Entry.node) :
    a.map Entry.node ⊆ through (k.map Entry.node) name := by
  obtain ⟨c, rfl⟩ := early
  have before : ∀ other ∈ a.map Entry.node, (other != name) = true := by
    intro other hother
    rw [bne_iff_ne]
    rintro rfl
    exact apart hother
  rw [through, List.map_append, List.takeWhile_append_of_pos before, List.append_assoc]
  exact List.subset_append_left _ _

/-- The beginnings of a list are different. -/
theorem nodup_inits {α : Type} (l : List α) : l.inits.Nodup := by
  induction l with
  | nil => exact List.nodup_singleton _
  | cons a l ih =>
    rw [List.inits_cons, List.nodup_cons]
    refine ⟨fun empty => ?_, ih.map (List.cons_injective)⟩
    obtain ⟨_, _, cons⟩ := List.mem_map.1 empty
    exact List.cons_ne_nil _ _ cons

/-- Of different things a property is counted once if those that have it are one. -/
theorem countP_le_one {α : Type} {l : List α} (once : l.Nodup) {q : α → Bool}
    (alike : ∀ a ∈ l, ∀ b ∈ l, q a = true → q b = true → a = b) : l.countP q ≤ 1 := by
  induction l with
  | nil => exact Nat.zero_le 1
  | cons a l ih =>
    rw [List.nodup_cons] at once
    by_cases holds : q a = true
    · have none : l.countP q = 0 := by
        refine List.countP_eq_zero.2 fun b hb holds' => once.1 ?_
        exact alike a List.mem_cons_self b (List.mem_cons_of_mem a hb) holds holds' ▸ hb
      exact Nat.le_of_eq ((List.countP_cons_of_pos holds).trans (congrArg (· + 1) none))
    · rw [List.countP_cons_of_neg holds]
      exact ih once.2 fun b hb c hc =>
        alike b (List.mem_cons_of_mem a hb) c (List.mem_cons_of_mem a hc)

/-- Of things with a property that is counted at most once, there are no two. -/
theorem eq_of_countP_le_one {α : Type} {l : List α} {q : α → Bool} (one : l.countP q ≤ 1) {a b : α}
    (ha : a ∈ l) (hb : b ∈ l) (holds : q a = true) (holds' : q b = true) : a = b := by
  have among := List.mem_filter.2 ⟨ha, holds⟩
  have among' := List.mem_filter.2 ⟨hb, holds'⟩
  rw [List.countP_eq_length_filter] at one
  obtain ⟨c, single⟩ :=
    List.length_eq_one_iff.1 (Nat.le_antisymm one (List.length_pos_of_mem among))
  rw [single, List.mem_singleton] at among among'
  exact among.trans among'.symm

/-! ### Entries that are taken again -/

/-- Entries that a repetition has taken: each of them repeats one of the earlier run for a node that
can be reached, and there is one for a node. -/
structure Retaken (g : Graph) (n : String) (h a : List Entry) : Prop where
  once : (a.map Entry.node).Nodup
  repeats : ∀ en ∈ a, en.Repeats h
  reached : ∀ en ∈ a, g.Reached [n] en.node

section Retaken

variable {a b K : List Entry} {first : Entry}

theorem Retaken.early (retaken : Retaken g n h a) (early : b <+: a) : Retaken g n h b :=
  ⟨retaken.once.sublist (early.sublist.map Entry.node),
    fun en hen => retaken.repeats en (early.subset hen),
    fun en hen => retaken.reached en (early.subset hen)⟩

/-- What brings a node repeats an entry that feeds it. -/
theorem Retaken.brought (retaken : Retaken g n h b) (early : b <+: K)
    (brings : (e.dataflow told g).Brings g h b name) :
    ∃ en ∈ h, g.Reached [n] en.node ∧ (e.dataflow told g).feeds en name ∧
      through (K.map Entry.node) en.node = b.map Entry.node := by
  obtain ⟨c, en', rfl, feeds⟩ := brings.last
  have last : en' ∈ c ++ [en'] := List.mem_append_right c (List.mem_singleton_self en')
  obtain ⟨en, hen, node, inputs⟩ := retaken.repeats en' last
  refine ⟨en, hen, node ▸ retaken.reached en' last, feeds_congr node.symm inputs.symm feeds, ?_⟩
  rw [node, through_of_prefix retaken.once early]

/-- An entry that is taken again brings what the one that it repeats feeds, if the disabled sources
have been taken. -/
theorem Retaken.brings {en' : Entry} (retaken : Retaken g n h (b ++ [en']))
    (early : b ++ [en'] <+: K) (node : en'.node = en.node) (inputs : en'.inputs = en.inputs)
    (feeds : (e.dataflow told g).feeds en name) (complete : (e.dataflow told g).Complete h name)
    (restored : g.Restored (· ∈ through (K.map Entry.node) en.node) name) :
    (e.dataflow told g).Brings g h (b ++ [en']) name := by
  rw [← node, through_of_prefix retaken.once early] at restored
  exact Dataflow.brings_concat.2 ⟨feeds_congr node.symm inputs.symm feeds, complete, restored⟩

variable (repeatable : Repeatable (e.dataflow told g) g n h K first)
include repeatable

/-- A node that is brought was taken before. -/
theorem Repeatable.known (retaken : Retaken g n h b) (early : b <+: K)
    (brings : (e.dataflow told g).Brings g h b name) : name ∈ h.map Entry.node := by
  obtain ⟨en, hen, there, feeds, nodes⟩ := retaken.brought early brings
  refine repeatable.quiet en hen there name feeds ⟨brings.2.1, fun l hl off => ?_⟩
    (nodes ▸ brings.2.2)
  obtain ⟨en', hen', source⟩ := List.mem_map.1 (brings.2.2 l hl off)
  exact source ▸ retaken.reached en' hen'

/-- An entry that is taken again after entries that repeat some of the earlier run repeats one as
well. -/
theorem Repeatable.repeats (finished : Finished e told g begun h s') (retaken : Retaken g n h a)
    (early : a <+: K) (renewed : (e.dataflow told g).Renewed g h first a en) : en.Repeats h := by
  rcases renewed with rfl | ⟨gathered, b, before, brings⟩
  · exact repeatable.first
  · have there := repeatable.known (retaken.early before) (before.trans early) brings
    obtain ⟨en₂, hen₂, _, feeds₂, _⟩ := (retaken.early before).brought (before.trans early) brings
    obtain ⟨en₁, hen₁, node₁⟩ := List.mem_map.1 there
    obtain ⟨_, gathered₁⟩ := finished.gathered_of_fed hen₁ hen₂ (node₁ ▸ feeds₂)
    rw [node₁, ← gathered] at gathered₁
    exact ⟨en₁, hen₁, node₁, congrArg Entry.inputs gathered₁⟩

/-- A faithful repetition brings a node only once. -/
theorem Repeatable.alike (acyclic : g.workflow.Acyclic) (retaken : Retaken g n h a)
    (early : a <+: K) {b₁ b₂ : List Entry} (before₁ : b₁ <+: a) (before₂ : b₂ <+: a)
    (brings₁ : (e.dataflow told g).Brings g h b₁ name)
    (brings₂ : (e.dataflow told g).Brings g h b₂ name) :
    b₁ = b₂ := by
  obtain ⟨en₁, hen₁, there₁, feeds₁, nodes₁⟩ :=
    (retaken.early before₁).brought (before₁.trans early) brings₁
  obtain ⟨en₂, hen₂, there₂, feeds₂, nodes₂⟩ :=
    (retaken.early before₂).brought (before₂.trans early) brings₂
  obtain ⟨en, hen, rfl⟩ :=
    List.mem_map.1 (repeatable.known (retaken.early before₁) (before₁.trans early) brings₁)
  obtain ⟨l, hl, source⟩ := (e.dataflow told g).source feeds₁
  have other : en.node ≠ n := fun start => there₁.not_back acyclic (start ▸ hl) source
  have same := (repeatable.single en hen (there₁.tail hl source) other).unique
    ⟨hen₁, there₁, feeds₁, nodes₁ ▸ brings₁.2.2⟩ ⟨hen₂, there₂, feeds₂, nodes₂ ▸ brings₂.2.2⟩
  -- Both begin the same list, and they have as many entries.
  have nodes : b₁.map Entry.node = b₂.map Entry.node := by rw [← nodes₁, ← nodes₂, same]
  have lengths := congrArg List.length nodes
  rw [List.length_map, List.length_map] at lengths
  exact (List.prefix_of_prefix_length_le before₁ before₂ lengths.le).eq_of_length lengths

end Retaken

/-! ### The steps of a repetition -/

/-- A repetition under way that is faithful so far. -/
structure Repeating (e : Engine) (told : Node → List Items → Attempt) (g : Graph) (n : String)
    (h : List Entry) (old : RunData) (k : List Entry) (p : Pass) : Prop where
  renewal : Renewal e told g n h old k p.state
  once : ((k ++ p.state.agenda.stack).map Entry.node).Nodup
  repeats : ∀ en ∈ k ++ p.state.agenda.stack, en.Repeats h
  left : p.left + k.length = e.maxIterations

theorem Repeating.retaken {a b : List Entry} (repeating : Repeating e told g n h old k p)
    (whole : k ++ p.state.agenda.stack = a ++ b) : Retaken g n h a := by
  have once := repeating.once
  have repeats := repeating.repeats
  have reached := repeating.renewal.reached
  rw [whole] at once repeats reached
  exact ⟨once.sublist ((List.sublist_append_left a b).map Entry.node),
    fun en hen => repeats en (List.mem_append_left b hen),
    fun en hen => reached en (List.mem_append_left b hen)⟩

/-- **A step keeps a repetition faithful.** -/
theorem Repeating.step {K : List Entry} (repeating : Repeating e told g n h s.tasks k p)
    (finished : Finished e told g begun h s)
    (repeatable : Repeatable (e.dataflow told g) g n h K (g.rebuild s.tasks n))
    (acyclic : g.workflow.Acyclic) (top : p.state.agenda.stack = en :: rest)
    (onward : Onward e told g en rest p p') (taken : k ++ [en] <+: K) :
    Repeating e told g n h s.tasks (k ++ [en]) p' := by
  classical
  have before : k ++ p.state.agenda.stack = k ++ [en] ++ rest := by
    rw [top, List.append_assoc, List.singleton_append]
  have retaken := repeating.retaken before
  have renewal := repeating.renewal.step finished top (retaken.repeats en (by simp)) onward
  refine ⟨renewal, List.nodup_iff_count_le_one.2 fun name => ?_, fun en' hen' => ?_, ?_⟩
  · rw [renewal.count name]
    split
    · -- Nothing leads back to the node that the repetition began with.
      rename_i start
      have none : (k ++ [en]).inits.countP (fun a => (e.dataflow told g).Brings g h a name)
          = 0 := by
        refine List.countP_eq_zero.2 fun a ha brings => ?_
        have early := (List.mem_inits a _).1 ha
        obtain ⟨en', _, there, feeds, _⟩ :=
          (retaken.early early).brought (early.trans taken) (of_decide_eq_true brings)
        obtain ⟨l, hl, source⟩ := (e.dataflow told g).source feeds
        exact there.not_back acyclic (start ▸ hl) source
      exact Nat.le_of_eq (congrArg (1 + ·) none)
    · rw [Nat.zero_add]
      refine countP_le_one (nodup_inits _) fun a ha b hb brings₁ brings₂ => ?_
      exact repeatable.alike acyclic retaken taken ((List.mem_inits a _).1 ha)
        ((List.mem_inits b _).1 hb) (of_decide_eq_true brings₁) (of_decide_eq_true brings₂)
  -- What is on the stack was brought by entries that repeat some, so it repeats some as well.
  · rcases List.mem_append.1 hen' with hk | hstack
    · exact retaken.repeats en' hk
    · exact repeatable.repeats finished retaken taken (renewal.stacked en' hstack)
  · rw [List.length_append, List.length_singleton, ← repeating.left, onward.left]
    omega

/-- A faithful repetition goes on after every entry. -/
theorem Repeating.ahead (repeating : Repeating e told g n h s.tasks k p)
    (finished : Finished e told g begun h s) (top : p.state.agenda.stack = en :: rest) :
    0 < p.left ∧ Passable e told g en := by
  constructor
  -- The nodes ahead are among those of the earlier run, each of them once, and that run was allowed
  -- as much.
  · have nodes : (k ++ p.state.agenda.stack).map Entry.node ⊆ h.map Entry.node := by
      intro name member
      obtain ⟨en', hen', rfl⟩ := List.mem_map.1 member
      obtain ⟨en₁, hen₁, node, _⟩ := repeating.repeats en' hen'
      exact List.mem_map.2 ⟨en₁, hen₁, node⟩
    have within := repeating.once.length_le_of_subset nodes
    have left := repeating.left
    have allowed := finished.within
    simp only [List.length_map, List.length_append, top, List.length_cons] at within
    omega
  · obtain ⟨en₁, hen₁, node, inputs⟩ :=
      repeating.repeats en (List.mem_append_right k (top ▸ List.mem_cons_self))
    exact (finished.passable en₁ hen₁).congr node inputs

/-! ## What a repetition comes to -/

/-- An entry of an enabled node has one task, any other entry has none. -/
theorem written_cases (e : Engine) (told : Node → List Items → Attempt) (g : Graph) (en : Entry) :
    (Runs g en ∧ ∃ t, e.written told g en = [t]) ∨ (¬ Runs g en ∧ e.written told g en = []) := by
  cases node : g.node? en.node with
  | none => exact .inr ⟨not_runs_of_unknown node, by simp only [written, node]; rfl⟩
  | some nd =>
    cases status : nd.disabled with
    | false =>
      refine .inl ⟨⟨nd, node, status⟩, ?_⟩
      simp only [written, node, Option.map_some, Option.getD_some, status,
        Bool.false_eq_true, if_false]
      exact ⟨_, rfl⟩
    | true =>
      exact .inr ⟨not_runs_of_disabled node status, (handed_of_disabled e told node status).2⟩

/-- The nodes that were executed are the enabled ones that were taken. -/
theorem Finished.runs_iff (finished : Finished e told g begun h s) (repeats : en.Repeats h) :
    Runs g en ↔ s.tasks.tasks en.node ≠ [] := by
  obtain ⟨en₁, hen₁, node, _⟩ := repeats
  have same : Runs g en₁ ↔ Runs g en := by rw [Runs, Runs, node]
  have tasks := finished.tasks_of_mem hen₁
  rw [← same, ← node]
  rcases written_cases e told g en₁ with ⟨runs, t, one⟩ | ⟨rests, none⟩
  · rw [one] at tasks
    obtain ⟨t', single, _⟩ := List.map_eq_singleton_iff.1 tasks
    rw [single]
    exact iff_of_true runs (List.cons_ne_nil t' [])
  · rw [none, List.map_eq_nil_iff] at tasks
    exact iff_of_false rests fun executed => executed tasks

/-- Every node that can be reached and was taken is taken again. The induction is on the earlier
run: what feeds a node was taken before it. -/
theorem Repeating.covers (repeating : Repeating e told g n h s.tasks k p)
    (finished : Finished e told g begun h s)
    (repeatable : Repeatable (e.dataflow told g) g n h k (g.rebuild s.tasks n))
    (empty : p.state.agenda.stack = []) {a : List Entry} (early : a <+: h) :
    ∀ en ∈ a, g.Reached [n] en.node → en.node ∈ k.map Entry.node := by
  induction a using List.reverseRecOn with
  | nil => exact fun en hen => absurd hen List.not_mem_nil
  | append_singleton a en ih =>
    have before := ih ((List.prefix_append a [en]).trans early)
    intro en' hen' there
    rcases List.mem_append.1 hen' with old | new
    · exact before en' old there
    obtain rfl := List.mem_singleton.1 new
    by_cases start : en'.node = n
    · exact start ▸ repeating.renewal.mem_start empty
    -- The node that feeds it was taken before, so it was taken again, and brings it now.
    have hen : en' ∈ h := early.subset hen'
    obtain ⟨en₁, ⟨hen₁, there₁, feeds, restored⟩, _⟩ := repeatable.single en' hen there start
    obtain ⟨complete, _⟩ := finished.gathered_of_fed hen hen₁ feeds
    obtain ⟨en₂, hen₂, node₂⟩ :=
      List.mem_map.1 (before en₁ (finished.mem_of_feeds early hen₁ feeds) there₁)
    obtain ⟨en₃, hen₃, node₃, inputs₃⟩ := repeating.repeats en₂ (List.mem_append_left _ hen₂)
    obtain rfl := Entry.eq_of_node_eq finished.nodup hen₃ hen₁ (node₃.trans node₂)
    obtain ⟨b, c, whole⟩ := List.append_of_mem hen₂
    have taken := prefix_of_append_cons whole.symm
    have retaken := (repeating.retaken rfl).early taken
    exact repeating.renewal.mem_of_brings empty taken
      (retaken.brings taken node₃.symm inputs₃.symm feeds complete restored)

/-- **A repetition that has come to its end is faithful.** -/
theorem Repeating.faithful (repeating : Repeating e told g n h s.tasks k p)
    (finished : Finished e told g begun h s)
    (repeatable : Repeatable (e.dataflow told g) g n h k (g.rebuild s.tasks n))
    (empty : p.state.agenda.stack = []) : Faithful g n h k s p.state := by
  have once := repeating.once
  have repeats := repeating.repeats
  have reached := repeating.renewal.reached
  rw [empty, List.append_nil] at once repeats reached
  -- What is taken again was taken before, and all that lies behind the start and was taken before
  -- is taken again.
  have nodes : ∀ name, name ∈ k.map Entry.node ↔ g.Reached [n] name ∧ name ∈ h.map Entry.node := by
    intro name
    constructor
    · intro taken
      obtain ⟨en, hen, rfl⟩ := List.mem_map.1 taken
      obtain ⟨en₁, hen₁, node, _⟩ := repeats en hen
      exact ⟨reached en hen, List.mem_map.2 ⟨en₁, hen₁, node⟩⟩
    · rintro ⟨there, taken⟩
      obtain ⟨en, hen, rfl⟩ := List.mem_map.1 taken
      exact repeating.covers finished repeatable empty (List.prefix_refl h) en hen there
  refine ⟨once, nodes, repeats, fun name there executed => ?_, fun name still => ?_⟩
  -- A node is taken again once, so it leaves one more task if it leaves any.
  · obtain ⟨new, tasks, written⟩ := repeating.renewal.tasks name
    have taken : name ∈ h.map Entry.node := by
      by_contra untaken
      exact executed (finished.tasks_of_not_mem untaken)
    obtain ⟨en, hen, rfl⟩ := List.mem_map.1 ((nodes name).2 ⟨there, taken⟩)
    obtain ⟨_, t, one⟩ := (written_cases e told g en).resolve_right fun ⟨rests, _⟩ =>
      rests ((finished.runs_iff (repeats en hen)).2 executed)
    rw [Entry.filter_node_of_mem once hen, List.flatMap_singleton, one] at written
    obtain ⟨t', single, _⟩ := List.map_eq_singleton_iff.1 written
    exact ⟨t', single ▸ tasks⟩
  -- A node that had no task before is disabled or was not taken, and so it leaves none now.
  · obtain ⟨new, tasks, written⟩ := repeating.renewal.tasks name
    have none : (k.filter (·.node == name)).flatMap (e.written told g) = [] := by
      refine List.flatMap_eq_nil_iff.2 fun en hen => ?_
      obtain ⟨hk, same⟩ := List.mem_filter.1 hen
      have same : en.node = name := by simpa using same
      refine ((written_cases e told g en).resolve_left fun ⟨runs, _⟩ => still ?_).2
      exact ⟨same ▸ reached en hk, same ▸ (finished.runs_iff (repeats en hk)).1 runs⟩
    rw [none, List.map_eq_nil_iff] at written
    rw [tasks, written, List.append_nil]

/-- An entry of the earlier run for a node that can be reached is taken again. -/
theorem Faithful.repeated (faithful : Faithful g n h k s s') (once : (h.map Entry.node).Nodup)
    (hen : en ∈ h) (there : g.Reached [n] en.node) :
    ∃ en' ∈ k, en'.node = en.node ∧ en'.inputs = en.inputs := by
  obtain ⟨en', hen', node⟩ := List.mem_map.1
    ((faithful.nodes en.node).2 ⟨there, List.mem_map_of_mem hen⟩)
  obtain ⟨en₁, hen₁, node₁, inputs₁⟩ := faithful.repeats en' hen'
  obtain rfl := Entry.eq_of_node_eq once hen₁ hen (node₁.trans node)
  exact ⟨en', hen', node, inputs₁.symm⟩

/-- The entries of a faithful repetition are taken again. -/
theorem Faithful.retaken (faithful : Faithful g n h k s s') : Retaken g n h k :=
  ⟨faithful.once, faithful.repeats,
    fun en hen => ((faithful.nodes en.node).1 (List.mem_map_of_mem hen)).1⟩

/-- What feeds a node in the earlier run brings it in a faithful repetition, if the disabled sources
have been taken. -/
theorem Faithful.brings (faithful : Faithful g n h k s s') (once : (h.map Entry.node).Nodup)
    (hen : en ∈ h) (there : g.Reached [n] en.node) (feeds : (e.dataflow told g).feeds en name)
    (complete : (e.dataflow told g).Complete h name)
    (restored : g.Restored (· ∈ through (k.map Entry.node) en.node) name) :
    ∃ b, b <+: k ∧ b.map Entry.node = through (k.map Entry.node) en.node ∧
      (e.dataflow told g).Brings g h b name := by
  obtain ⟨en', hen', node, inputs⟩ := faithful.repeated once hen there
  obtain ⟨c, d, whole⟩ := List.append_of_mem hen'
  have taken := prefix_of_append_cons whole.symm
  have retaken := faithful.retaken.early taken
  exact ⟨c ++ [en'], taken, by rw [← node, through_of_prefix retaken.once taken],
    retaken.brings taken node inputs feeds complete restored⟩

/-- A node that is taken only once is brought only once. -/
theorem Renewal.eq_of_brings (renewal : Renewal e told g n h old k s) (empty : s.agenda.stack = [])
    (once : (k.map Entry.node).Nodup) (behind : name ≠ n) {b₁ b₂ : List Entry} (early₁ : b₁ <+: k)
    (early₂ : b₂ <+: k) (brings₁ : (e.dataflow told g).Brings g h b₁ name)
    (brings₂ : (e.dataflow told g).Brings g h b₂ name) : b₁ = b₂ := by
  classical
  have one : k.inits.countP (fun a => (e.dataflow told g).Brings g h a name) ≤ 1 := by
    have count := renewal.count name
    rw [empty, List.append_nil, if_neg behind, Nat.zero_add] at count
    exact count ▸ List.nodup_iff_count_le_one.1 once name
  exact eq_of_countP_le_one one ((List.mem_inits b₁ k).2 early₁) ((List.mem_inits b₂ k).2 early₂)
    (decide_eq_true brings₁) (decide_eq_true brings₂)

/-- **A faithful repetition shows that the run could be repeated.** -/
theorem Renewal.repeatable (renewal : Renewal e told g n h s.tasks k s')
    (finished : Finished e told g begun h s) (acyclic : g.workflow.Acyclic)
    (executed : n ∈ h.map Entry.node) (empty : s'.agenda.stack = [])
    (faithful : Faithful g n h k s s') :
    Repeatable (e.dataflow told g) g n h k (g.rebuild s.tasks n) := by
  have retaken := faithful.retaken
  -- What is not the start was brought by something that was taken again.
  have renewed : ∀ en ∈ h, g.Reached [n] en.node → en.node ≠ n →
      ∃ b, b <+: k ∧ (e.dataflow told g).Brings g h b en.node := by
    intro en hen there behind
    obtain ⟨en', hen', node, _⟩ := faithful.repeated finished.nodup hen there
    rw [← node]
    refine (renewal.renewed hen').resolve_left fun first => behind ?_
    rw [← node, first, g.rebuild_node]
  refine ⟨?_, fun en hen there behind => ?_, fun en hen there behind l hl off => ?_,
    fun en hen there name feeds rejoins restored => ?_⟩
  · obtain ⟨en, hen, node⟩ := List.mem_map.1
      ((faithful.nodes n).2 ⟨⟨n, List.mem_singleton_self n, .refl⟩, executed⟩)
    rcases renewal.renewed hen with first | ⟨b, early, brings⟩
    · exact first ▸ faithful.repeats en hen
    · obtain ⟨en', _, there, feeds, _⟩ := (retaken.early early).brought early brings
      obtain ⟨l, hl, source⟩ := (e.dataflow told g).source feeds
      exact absurd source (there.not_back acyclic (node ▸ hl))
  · obtain ⟨b, early, brings⟩ := renewed en hen there behind
    obtain ⟨en₁, hen₁, there₁, feeds₁, nodes₁⟩ := (retaken.early early).brought early brings
    refine ⟨en₁, ⟨hen₁, there₁, feeds₁, nodes₁ ▸ brings.2.2⟩, ?_⟩
    -- Whatever else feeds the node by then is taken again too, and would have it taken a second
    -- time.
    rintro en₂ ⟨hen₂, there₂, feeds₂, restored₂⟩
    obtain ⟨b₂, early₂, nodes₂, brings₂⟩ :=
      faithful.brings finished.nodup hen₂ there₂ feeds₂ brings.2.1 restored₂
    obtain rfl := renewal.eq_of_brings empty faithful.once behind early early₂ brings brings₂
    exact Entry.eq_of_node_eq finished.nodup hen₂ hen₁ (through_inj (nodes₂.symm.trans nodes₁.symm))
  · obtain ⟨b, early, brings⟩ := renewed en hen there behind
    obtain ⟨en', hen', source⟩ := List.mem_map.1 (brings.2.2 l hl off)
    exact source ▸ retaken.reached en' (early.subset hen')
  · obtain ⟨b, early, _, brings⟩ :=
      faithful.brings finished.nodup hen there feeds rejoins.1 restored
    exact ((faithful.nodes name).1 (renewal.mem_of_brings empty early brings)).2

/-- **No node of a faithful repetition runs on what is going to be replaced** if the nodes that are
taken again have items for all that they lead to: what brings a node is then its last source that is
taken again. -/
theorem Renewal.fresh (renewal : Renewal e told g n h s.tasks k s')
    (acyclic : g.workflow.Acyclic)
    (repeatable : Repeatable (e.dataflow told g) g n h k (g.rebuild s.tasks n))
    (faithful : Faithful g n h k s s')
    (outspoken : ∀ en ∈ h, ∀ en' ∈ h, g.Reached [n] en.node → g.Reached [n] en'.node →
      (e.dataflow told g).leads en.node en' = true → (e.dataflow told g).feeds en' en.node)
    {a : List Entry} (taken : a ++ [en] <+: k) {l : Inbound} (hl : l ∈ g.inbound en.node)
    (again : l.source ∈ k.map Entry.node) : l.source ∈ a.map Entry.node := by
  obtain ⟨there, old⟩ := (faithful.nodes l.source).1 again
  obtain ⟨en₂, hen₂, source⟩ := List.mem_map.1 old
  rcases renewal.taken a en taken with rfl | ⟨_, b, early, brings⟩
  · rw [g.rebuild_node] at hl
    exact absurd rfl (there.not_back acyclic hl)
  · -- Were the source taken later, it would feed the entry as well, after all of the disabled
    -- sources.
    by_contra later
    have before : b <+: k := early.trans ((List.prefix_append a [en]).trans taken)
    obtain ⟨en₁, hen₁, there₁, feeds₁, nodes₁⟩ :=
      (faithful.retaken.early before).brought before brings
    obtain ⟨en', hen', node, _⟩ := faithful.repeats en (taken.subset (by simp))
    have reached : g.Reached [n] en'.node := node ▸ there.tail hl rfl
    have leads : (e.dataflow told g).leads en'.node en₂ = true :=
      Dataflow.leads_iff.2 ⟨l, node ▸ hl, source.symm⟩
    have feeds₂ := outspoken en' hen' en₂ hen₂ reached (source ▸ there) leads
    have apart : l.source ∉ b.map Entry.node :=
      fun mem => later ((early.sublist.map Entry.node).subset mem)
    have restored₂ : g.Restored (· ∈ through (k.map Entry.node) en₂.node) en'.node := by
      rw [node, source]
      exact fun l' hl' off => subset_through before apart (brings.2.2 l' hl' off)
    have other : en'.node ≠ n := fun start => there.not_back acyclic (start ▸ node ▸ hl) rfl
    have same := (repeatable.single en' hen' reached other).unique
      ⟨hen₁, there₁, node ▸ feeds₁, node ▸ nodes₁ ▸ brings.2.2⟩
      ⟨hen₂, source ▸ there, feeds₂, restored₂⟩
    refine apart ?_
    rw [← nodes₁, same, source]
    exact List.mem_append_right _ (List.mem_singleton_self _)

/-! ## The run that is repeated -/

/-- A run is repeated from a node that is there. -/
theorem prepare_repeating (graph : w.graph = .ok g) (known : n ∈ g.workflow.nodeNames) (id : String)
    (mode : RunMode) (prior : RunData) : e.prepare w (.rerun id mode n prior)
      = .ok (⟨g, id, mode, e.now⟩, RunState.repeating g n prior) := by
  have starts : e.startNodes g (some n) = .ok [n] := by
    rw [startNodes, if_pos (Graph.node?_isSome_iff.2 known)]
  simp only [prepare, graph, bind, Except.bind, starts, pure, Except.pure]

section Repetition

variable {id : String} {mode : RunMode} (silent : e.Silent) (own : e.Local g.workflow told)
  (graph : w.graph = .ok g) (known : n ∈ g.workflow.nodeNames)
  (finished : Finished e told g begun h s)
include silent own graph known finished

/-- A run that can be repeated faithfully is repeated faithfully, and the repetition succeeds. -/
theorem Repeatable.success (acyclic : g.workflow.Acyclic)
    (repeatable : Repeatable (e.dataflow told g) g n h (e.entries w (.rerun id mode n s.tasks))
      (g.rebuild s.tasks n)) :
    ∃ r log, e.perform w (.rerun id mode n s.tasks) false = .ok (.run r log) ∧ r.status = .success ∧
      Faithful g n h (e.entries w (.rerun id mode n s.tasks)) s r.state ∧
      Renewal e told g n h s.tasks (e.entries w (.rerun id mode n s.tasks)) r.state := by
  have prepared := prepare_repeating (e := e) graph known id mode s.tasks
  obtain ⟨p, begins, state, _, left, going⟩ :=
    silent.begin ⟨g, id, mode, e.now⟩ (RunState.repeating g n s.tasks) false
  have entries : e.entries w (.rerun id mode n s.tasks)
      = e.history ⟨g, id, mode, e.now⟩ (.ready p) := by
    simp only [Engine.entries, prepared, begins]
  rw [entries] at repeatable ⊢
  -- The repetition begins in order: its only entry is for the start, with the items that it had.
  have start : Repeating e told g n h s.tasks [] p := by
    refine ⟨state ▸ .begin finished, ?_, fun en hen => ?_, left⟩
    · rw [state]
      exact List.nodup_singleton _
    · rw [state] at hen
      rw [List.mem_singleton.1 hen]
      exact repeatable.first
  obtain ⟨P, stops, fine, awake, empty, repeating⟩ :=
    stops_of_goes (x := ⟨g, id, mode, e.now⟩) silent own
    (Repeating e told g n h s.tasks) (fun repeating top => repeating.ahead finished top)
    (fun repeating top onward taken => repeating.step finished repeatable acyclic top onward taken)
    start rfl going (by rw [state]; rfl) (by rw [state]; rfl)
  obtain ⟨r, log, ends, success, same⟩ := success_of_stops silent stops fine awake
  refine ⟨r, log, ?_, success, same ▸ repeating.faithful finished repeatable empty,
    same ▸ repeating.renewal⟩
  simp only [perform, prepared, bind, Except.bind, pure, Except.pure, begins, ends]

/-- A repetition that succeeds and takes nothing but what the earlier run has taken keeps the
law. -/
theorem Renewal.of_success {r : Run} {log : HookLog}
    (run : e.perform w (.rerun id mode n s.tasks) false = .ok (.run r log))
    (success : r.status = .success)
    (repeats : ∀ en ∈ e.entries w (.rerun id mode n s.tasks), en.Repeats h) :
    r.state.agenda.stack = [] ∧
      Renewal e told g n h s.tasks (e.entries w (.rerun id mode n s.tasks)) r.state := by
  have prepared := prepare_repeating (e := e) graph known id mode s.tasks
  obtain ⟨x, s₀, prepared', ends⟩ := prepare_of_perform run
  obtain ⟨rfl, rfl⟩ := Prod.mk.inj (Except.ok.inj (prepared.symm.trans prepared'))
  obtain ⟨p, begins, state, _, left, going⟩ :=
    silent.begin ⟨g, id, mode, e.now⟩ (RunState.repeating g n s.tasks) false
  have entries : e.entries w (.rerun id mode n s.tasks)
      = e.history ⟨g, id, mode, e.now⟩ (.ready p) := by
    simp only [Engine.entries, prepared, begins]
  rw [entries] at repeats ⊢
  rw [begins] at ends
  obtain ⟨P, stops, fine, awake, same⟩ := stops_of_success silent ends success
  rw [same]
  -- What is taken next is among all that is taken, and so it repeats an entry of the earlier run.
  exact induct_of_stops (x := ⟨g, id, mode, e.now⟩) silent own
    (fun a q => Renewal e told g n h s.tasks a q.state)
    (fun renewal top _ onward taken =>
      renewal.step finished top (repeats _ (taken.subset (by simp))) onward)
    (state ▸ Renewal.begin finished) rfl going stops fine awake

end Repetition

/-- **When a run is repeated faithfully.** Let a workflow without cycles, whose triggers lie behind
nothing, have nodes that do what their own settings and items tell; let a run of it succeed and be
repeated from a node `n` that it has executed. The repetition succeeds and takes all that lies
behind `n` exactly once more, with the same items, if and only if `n` is rebuilt with what it got,
every node behind `n` is fed by exactly one node that is taken again with its disabled sources or
after them, all of which are taken again, and no node that was left out is fed so. The order in
which the disabled sources are taken again is of no account where none of them is one of several.
Then no node runs on an output that is going to be replaced, as long as the nodes that are taken
again have items for all that they lead to. And `n` is rebuilt with what it got if the run did not
begin with it and none of its sources is disabled. -/
theorem rerun_faithful_iff {id id' : String} {mode mode' : RunMode} {startNode : Option String}
    {items : Option Items} {r : Run} {log : HookLog} (silent : e.Silent) (own : e.Local w told)
    (graph : w.graph = .ok g) (acyclic : w.Acyclic) (roots : startNode.isSome ∨ e.RootTriggers w)
    (run : e.perform w (.start id mode startNode items) false = .ok (.run r log))
    (success : r.status = .success) (executed : r.state.tasks.tasks n ≠ []) :
    let D := e.dataflow told g
    let h := e.entries w (.start id mode startNode items)
    let again : Request := .rerun id' mode' n r.state.tasks
    let k := e.entries w again
    ((∃ r' log', e.perform w again false = .ok (.run r' log') ∧ r'.status = .success ∧
        Faithful g n h k r.state r'.state) ↔
      Repeatable D g n h k (g.rebuild r.state.tasks n)) ∧
    (g.Undivided n → ∀ en name, D.feeds en name → g.Restored (g.Reached [n]) name →
      g.Restored (· ∈ through (k.map Entry.node) en.node) name) ∧
    (Repeatable D g n h k (g.rebuild r.state.tasks n) →
      (∀ en ∈ h, ∀ en' ∈ h, g.Reached [n] en.node → g.Reached [n] en'.node →
        D.leads en.node en' = true → D.feeds en' en.node) →
      ∀ a en, a ++ [en] <+: k → ∀ l ∈ g.inbound en.node,
        l.source ∈ k.map Entry.node → l.source ∈ a.map Entry.node) ∧
    ((∀ names, e.startNodes g startNode = .ok names → n ∉ names) →
      (∀ l ∈ g.inbound n, ¬ g.Off l.source) → (g.rebuild r.state.tasks n).Repeats h) := by
  intro D h again k
  obtain ⟨names, starts, finished⟩ := Finished.of_success silent own graph acyclic roots run success
  obtain rfl := workflow_of_graph graph
  have taken : n ∈ h.map Entry.node := by
    by_contra untaken
    exact executed (finished.tasks_of_not_mem untaken)
  have known : n ∈ g.workflow.nodeNames := by
    obtain ⟨en, hen, rfl⟩ := List.mem_map.1 taken
    obtain ⟨nd, node⟩ := finished.node hen
    rw [← Graph.node?_isSome_iff, node]
    rfl
  refine ⟨⟨?_, fun repeatable => ?_⟩,
    fun undivided en name feeds => restored_of_undivided undivided feeds,
    fun repeatable outspoken a en first l hl source => ?_, fun later on => ?_⟩
  -- What a faithful repetition shows about the earlier run is read off the repetition that has come
  -- to its end.
  · rintro ⟨r', log', run', success', faithful⟩
    obtain ⟨empty, renewal⟩ :=
      Renewal.of_success silent own graph known finished run' success' faithful.repeats
    exact renewal.repeatable finished acyclic taken empty faithful
  · obtain ⟨r', log', run', success', faithful, _⟩ :=
      repeatable.success silent own graph known finished acyclic
    exact ⟨r', log', run', success', faithful⟩
  · obtain ⟨r', log', run', success', faithful, renewal⟩ :=
      repeatable.success silent own graph known finished acyclic
    exact renewal.fresh acyclic repeatable faithful outspoken first hl source
  -- An entry that the run did not begin with was delivered, and what was delivered is what is
  -- rebuilt.
  · obtain ⟨en, hen, rfl⟩ := List.mem_map.1 taken
    have begins : en ∉ (RunState.starting startNode names items).agenda.stack := by
      intro begins
      obtain ⟨name, hname, rfl⟩ := List.mem_map.1 begins
      exact later names starts hname
    rw [finished.rebuild_eq hen begins on]
    exact ⟨en, hen, rfl, rfl⟩

end Engine

/-! ## The fork, repeated -/

namespace Fork

/-- The engine, when it allows more entries. -/
def patient : Engine := { engine with maxIterations := 10 }

/-- **A join behind the start is taken once for each of its branches.** The run takes Start, A, B
and J. Repeated from Start on, it takes J as soon as A has completed, with what B has left in the
first run, and once more when B has completed. All else is as it should be. -/
theorem rerun_repeats : patient.Silent ∧ (workflow 0 upper lower).Acyclic ∧
    patient.RootTriggers (workflow 0 upper lower) ∧ patient.Local (workflow 0 upper lower) told ∧
    ∃ r log r' log', patient.perform (workflow 0 upper lower) request false = .ok (.run r log) ∧
      patient.perform (workflow 0 upper lower) (.rerun "again" .manual "Start" r.state.tasks) false
        = .ok (.run r' log') ∧
      r.status = .success ∧ r'.status = .success ∧ r.state.tasks.tasks "Start" ≠ [] ∧
      (patient.entries (workflow 0 upper lower) (.rerun "again" .manual "Start" r.state.tasks)).map
        Entry.node = ["Start", "A", "J", "B", "J"] ∧
      (r.state.tasks.tasks "J").length = 1 ∧ (r'.state.tasks.tasks "J").length = 3 := by
  refine ⟨silent, acyclic _ _ _, roots _ _ _, own _ _ _, _, _, _, _, rfl, rfl, ?_⟩
  decide

/-- Behind A lies J alone. -/
theorem behind {name : String} (reached : graph.Reached ["A"] name) : name = "A" ∨ name = "J" := by
  obtain ⟨start, hstart, path⟩ := reached
  obtain rfl := List.mem_singleton.1 hstart
  induction path with
  | refl => exact .inl rfl
  | tail _ link ih =>
    obtain ⟨edge, hedge, rfl, rfl⟩ := link
    rcases ends hedge with ⟨source, _⟩ | ⟨_, target⟩
    · rw [source] at ih
      exact absurd ih (by decide)
    · exact .inr target

theorem on (name : String) : ¬ graph.Off name := by
  rintro ⟨nd, node, disabled⟩
  have enabled : ∀ nd ∈ graph.workflow.nodes, nd.disabled = false := by decide
  exact absurd (disabled.symm.trans (enabled nd (Graph.mem_of_node? node))) (by decide)

/-- Of the nodes that can be reached from A, only A feeds anything, and that is J. -/
theorem fed {en : Entry} {name : String} (feeds : (engine.dataflow told graph).feeds en name)
    (reached : graph.Reached ["A"] en.node) : en.node = "A" ∧ name = "J" := by
  obtain ⟨l, hl, source⟩ := (engine.dataflow told graph).source feeds
  have edge := ends (Graph.edge_of_mem_inbound hl)
  simp only [source] at edge
  rcases behind reached with branch | join
  · rw [branch] at edge
    exact ⟨branch, (edge.resolve_left fun start => absurd start.1 (by decide)).2⟩
  · rw [join] at edge
    rcases edge with ⟨wrong, _⟩ | ⟨wrong, _⟩ <;> exact absurd wrong (by decide)

/-- The run can be repeated faithfully from A on. -/
theorem repeatable {prior : RunData} {k : List Entry} (first : (graph.rebuild prior "A").Repeats
    (engine.entries (workflow 0 upper lower) request)) :
    Engine.Repeatable (engine.dataflow told graph) graph "A"
      (engine.entries (workflow 0 upper lower) request) k (graph.rebuild prior "A") := by
  have nodes : (engine.entries (workflow 0 upper lower) request).map Entry.node
      = ["Start", "A", "B", "J"] := by decide
  have once : ((engine.entries (workflow 0 upper lower) request).map Entry.node).Nodup := by
    rw [nodes]
    decide
  have join : ∃ a ∈ engine.entries (workflow 0 upper lower) request, a.node = "A" ∧
      graph.Feeds a.node (engine.handed told graph a) "J" := by
    unfold Graph.Feeds
    decide
  have restored : ∀ among name, graph.Restored among name :=
    fun _ _ l _ off => absurd off (on l.source)
  refine ⟨first, fun en hen reached other => ?_, fun en _ _ _ => restored _ _,
    fun en hen reached name feeds _ _ => ?_⟩
  -- Only A feeds J when it is taken again, so the entry of A is the one that is asked for.
  · obtain ⟨a, ha, node, feeds⟩ := join
    have target : en.node = "J" := (behind reached).resolve_left other
    refine ⟨a, ⟨ha, ⟨"A", List.mem_singleton_self _, node ▸ .refl⟩, target ▸ feeds, restored _ _⟩,
      ?_⟩
    rintro a' ⟨ha', reached', feeds', _⟩
    exact Entry.eq_of_node_eq once ha' ha ((fed feeds' reached').1.trans node.symm)
  · rw [(fed feeds reached).2, nodes]
    decide

/-- **Repeated from A on, the run takes A and J once more**, with the same items. -/
theorem rerun_branch : ∃ r log, engine.perform (workflow 0 upper lower) request false = .ok
    (.run r log) ∧
    (engine.entries (workflow 0 upper lower) (.rerun "again" .manual "A" r.state.tasks)).map
    Entry.node
      = ["A", "J"] ∧
    ∃ r' log', engine.perform (workflow 0 upper lower)
    (.rerun "again" .manual "A" r.state.tasks) false
        = .ok (.run r' log') ∧ r'.status = .success ∧
      Engine.Faithful graph "A" (engine.entries (workflow 0 upper lower) request)
        (engine.entries (workflow 0 upper lower) (.rerun "again" .manual "A" r.state.tasks)) r.state
        r'.state := by
  have known : (workflow 0 upper lower).graph = .ok graph := rfl
  refine ⟨_, _, rfl, by decide, ?_⟩
  -- A gets from Start what it got in the first run, where it was the second one to be taken.
  have first : ∀ {prior : RunData}, (graph.rebuild prior "A").inputs = [[{}]] →
      (graph.rebuild prior "A").Repeats (engine.entries (workflow 0 upper lower) request) :=
    fun inputs => ⟨_, .tail _ (.head _), (graph.rebuild_node _ "A").symm, inputs.symm⟩
  refine (Engine.rerun_faithful_iff silent (own 0 upper lower) known (acyclic _ _ _)
    (.inr (roots _ _ _)) rfl (by decide) (by decide)).1.2 (repeatable (first rfl))

end Fork

end Conveyor
